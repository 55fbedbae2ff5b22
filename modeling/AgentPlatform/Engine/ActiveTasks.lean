import AgentPlatform.Engine.SingleStep
import AgentPlatform.Engine.Terminal

/-!
# How many tasks of a tenant are active

`_create_task` counts the active tasks of the tenant before it inserts one. No other operation makes a
task active, but a settlement: a task that is uncertain only for the step `reconcile` settles as
succeeded, and that has steps left (`Wakes`), goes back to the queue uncounted (`Step.entrant`).
-/

namespace AgentPlatform.Engine

open Outcome Table Pipeline Runs

/-- `PENDING_TASKS_SQL`. -/
def Db.activeTasks (db : Db) (tenant : String) : ℕ :=
  db.tasks.countP fun t => decide (t.tenant = tenant) && t.status.active

/-- Once an uncertain step has succeeded its task has work left, and nothing that stops it. -/
def Wakes (db : Db) (r : StepRow) : Prop :=
  (∀ q ∈ db.steps, q.task = r.task → q.id ≠ r.id → q.status = .succeeded ∨ q.status.active = true) ∧
    ∃ q ∈ db.steps, q.task = r.task ∧ q.id ≠ r.id ∧ q.status.active = true

/-- The operation settles the step as succeeded, if it is uncertain, and passes its other checks. -/
def Settles (r : StepRow) : Op → Prop
  | .reconcile env tenant step actor role outcome evidence =>
    tenant = r.tenant ∧ step = r.id ∧ (role = "owner" ∨ role = "super-admin") ∧ outcome = "succeeded" ∧
      isBlank evidence = false ∧ evidence.length ≤ 500 ∧
        env.requireAuthority tenant "web" actor ["owner"] = .ok ()
  | .googleReconcile tenant step _ => tenant = r.tenant ∧ step = r.id
  | _ => False

/-- A task that the operation would make active without counting, of the tenant, is made so below the
ceiling. -/
def Spare (tenant : String) (db : Db) (op : Op) : Prop :=
  ∀ r ∈ db.steps, r.tenant = tenant → r.status = .uncertain → Settles r op → Wakes db r →
    db.activeTasks tenant < 1000

/-! ### Uncertain steps -/

/-- The step an operation settles. -/
def settled? : Op → Option Uuid
  | .reconcile _ _ step .. => some step
  | .googleReconcile _ step _ => some step
  | _ => none

/-- Every uncertain step but one is still there, and uncertain. -/
def Doubted (id : Option Uuid) (db db' : Db) : Prop :=
  ∀ r ∈ db.steps, r.status = .uncertain → id ≠ some r.id →
    ∃ r' ∈ db'.steps, r'.spec = r.spec ∧ r'.status = .uncertain

section Doubted

variable {P : Platform} {env : Env} {db db' db'' : Db} {tenant : String} {id : Option Uuid} {op : Op}
  {out : Reply}

theorem Doubted.refl : Doubted id db db := fun r hr hs _ => ⟨r, hr, rfl, hs⟩

theorem Doubted.trans (h : Doubted id db db') (h' : Doubted id db' db'') : Doubted id db db'' := by
  intro r hr hs hid
  obtain ⟨r', hr', hspec, hs'⟩ := h r hr hs hid
  have hsame : r'.id = r.id := congrArg StepSpec.id hspec
  obtain ⟨r'', hr'', hspec', hs''⟩ := h' r' hr' hs' (hsame ▸ hid)
  exact ⟨r'', hr'', hspec'.trans hspec, hs''⟩

theorem Doubted.update {p : StepRow → Bool} {f : StepRow → StepRow}
    (hsteps : db'.steps = Table.update p f db.steps)
    (hp : ∀ r ∈ db.steps, p r = true → r.status ≠ .uncertain ∨ id = some r.id) : Doubted id db db' := by
  intro r hr hs hid
  refine ⟨r, ?_, rfl, hs⟩
  rw [hsteps]
  refine mem_update_of_not hr ?_
  cases hpr : p r with
  | false => rfl
  | true => exact (hp r hr hpr).elim (absurd hs) fun h => absurd h hid

theorem Doubted.append {rows : List StepRow} (hsteps : db'.steps = db.steps ++ rows) :
    Doubted id db db' := fun r hr hs _ => ⟨r, hsteps ▸ List.mem_append_left _ hr, rfl, hs⟩

theorem ne_uncertain_of_active {r : StepRow} (h : r.status.active = true) : r.status ≠ .uncertain := by
  intro hs
  rw [hs] at h
  cases h

theorem ne_uncertain_of_pending {r : StepRow} (h : r.status.pending = true) :
    r.status ≠ .uncertain := by
  intro hs
  rw [hs] at h
  cases h

theorem Live.skip_doubted (hwf : Wf db) {c : Candidate} (hc : Live db tenant c) (v : Review) :
    Doubted id db (db.skip tenant c v) := by
  cases v with
  | inactive =>
    refine Doubted.update rfl fun r hr hp => .inl ?_
    simp only [Bool.and_eq_true, decide_eq_true_eq] at hp
    rw [hc.only hwf hr hp.2]
    exact ne_uncertain_of_pending hc.pending
  | failed | waiting =>
    refine Doubted.update rfl fun r hr hp => .inl ?_
    rw [hc.only hwf hr (of_decide_eq_true hp)]
    exact ne_uncertain_of_pending hc.pending
  | granted => exact .refl

theorem expireLeases_doubted (hwf : Wf db) {now : Time} : Doubted id db (db.expireLeases tenant now) := by
  refine expireLeases_induct hwf (p := Doubted id db) .refl fun db' r hwf' hr hrunning _ h => ?_
  refine h.trans (Doubted.update rfl fun s hs hp => .inl ?_)
  simp only [Bool.and_eq_true, decide_eq_true_eq] at hp
  rw [hwf'.steps.eq_of_key hs hr hp.2, hrunning]
  simp

/-- An operation settles one step at most. -/
theorem Effect.doubted (ho : Orderly db) (he : Effect P db op out db') :
    Doubted (settled? op) db db' := by
  cases he with
  | same | resumed | ended | elsewhere => exact .refl
  | submitted | replied => exact .append rfl
  | @approved env tenant actor decision role a s t policy _ _ hs _ _ _ _ _ hstep =>
    refine Doubted.update rfl fun r hr hp => .inl ?_
    simp only [Bool.and_eq_true, decide_eq_true_eq] at hp
    obtain rfl := ho.wf.steps.eq_of_key hr hs hp.2
    exact ne_uncertain_of_pending hstep
  | @unclaimed env tenant worker device leaseSeconds cs _ hcs hskipped =>
    refine (reviewed_induct device [] ho.wf ho.placed hskipped ?_ (p := Doubted none db)
      (expireLeases_doubted ho.wf) fun db₁ c _ v hwf hlive _ h => h.trans (hlive.skip_doubted hwf v)).2.1
    rcases hcs with rfl | rfl
    · exact List.nil_sublist _
    · exact (List.append_nil _).symm ▸ List.Sublist.refl _
  | @claimed env tenant worker device leaseSeconds skipped rest c db₁ hcs hskipped hreview =>
    obtain ⟨hwf₁, h, hlive⟩ := reviewed_induct device (c :: rest) ho.wf ho.placed hskipped
      (hcs ▸ List.Sublist.refl _) (p := Doubted none db) (expireLeases_doubted ho.wf)
      fun db₁ c _ v hwf hlive _ h => h.trans (hlive.skip_doubted hwf v)
    have hc := hlive c List.mem_cons_self
    obtain ⟨hsteps, -, -⟩ := consume_frame db₁ c
    have hstart : (db₁.start tenant c worker (env.now + seconds leaseSeconds)).steps =
        Table.update (fun s => s.id = c.step.id) _ (db₁.consume c).steps := rfl
    rw [hsteps] at hstart
    refine h.trans (Doubted.update hstart fun r hr hp => .inl ?_)
    rw [hc.only hwf₁ hr (of_decide_eq_true hp)]
    exact ne_uncertain_of_pending hc.pending
  | @finished env r token result status error hr hrunning hstatus =>
    refine Doubted.update rfl fun s hs hp => .inl ?_
    rw [ho.wf.steps.eq_of_key hs hr (of_decide_eq_true hp), hrunning]
    simp
  | cancelled =>
    refine Doubted.update rfl fun r _ hp => .inl ?_
    simp only [Bool.and_eq_true, decide_eq_true_eq] at hp
    exact ne_uncertain_of_active hp.2
  | reconciled =>
    refine Doubted.update rfl fun s _ hp => .inr ?_
    simp only [Bool.and_eq_true, decide_eq_true_eq] at hp
    exact congrArg some hp.2.symm
  | provided =>
    refine Doubted.update rfl fun s _ hp => .inr ?_
    simp only [Bool.and_eq_true, decide_eq_true_eq] at hp
    exact congrArg some hp.1.2.symm
  | froze =>
    refine Doubted.update refreshAll_steps fun r _ hp => .inl ?_
    simp only [Bool.and_eq_true, decide_eq_true_eq] at hp
    rw [hp.2]
    simp
  | enrolled =>
    refine Doubted.update refreshAll_steps fun r _ hp => .inl ?_
    simp only [Bool.and_eq_true, decide_eq_true_eq] at hp
    exact ne_uncertain_of_active hp.2
  | @stopped tenant run task status status' reason actor linked _ =>
    unfold stopTask
    by_cases hactive : linked.status.active = true
    · rw [if_pos hactive]
      refine Doubted.update rfl fun r _ hp => .inl ?_
      simp only [Bool.and_eq_true, decide_eq_true_eq] at hp
      exact ne_uncertain_of_active hp.2
    · rw [if_neg hactive]
      exact .refl

end Doubted

/-! ### Tasks that become active -/

section Entering

variable {P : Platform} {db db' : Db} {tenant : String} {op : Op} {out : Reply}

/-- An active task has steps left, and nothing that stops it. -/
theorem summary_active_iff {l : List Status} : (summary l).active = true ↔
    (∀ s ∈ l, s = .succeeded ∨ s.active = true) ∧ ∃ s ∈ l, s.active = true := by
  constructor
  · intro h
    obtain ⟨hfailed, hcancelled⟩ := summary_active h
    have huncertain : Status.uncertain ∉ l := fun hs => by
      rw [summary_eq_uncertain.2 hs] at h
      cases h
    have hkept : ∀ s ∈ l, s = .succeeded ∨ s.active = true := by
      intro s hs
      cases s with
      | failed => exact absurd hs hfailed
      | cancelled => exact absurd hs hcancelled
      | uncertain => exact absurd hs huncertain
      | succeeded => exact .inl rfl
      | queued | waiting | running => exact .inr rfl
    refine ⟨hkept, ?_⟩
    by_contra hnone
    have hall : ∀ s ∈ l, s = .succeeded := fun s hs =>
      (hkept s hs).resolve_right fun hactive => hnone ⟨s, hs, hactive⟩
    simp only [summary, huncertain, hfailed, hcancelled, if_false, if_pos hall] at h
    cases h
  · rintro ⟨hkept, s, hs, hactive⟩
    have hnot : ∀ s, s ≠ .succeeded → s.active = false → s ∉ l := by
      intro s hne hidle hs
      rcases hkept s hs with rfl | h
      · exact hne rfl
      · rw [hidle] at h
        cases h
    have hrest : ¬ ∀ s ∈ l, s = Status.succeeded := by
      intro hall
      rw [hall s hs] at hactive
      cases hactive
    unfold summary
    rw [if_neg (hnot _ (by simp) rfl), if_neg (hnot _ (by simp) rfl), if_neg (hnot _ (by simp) rfl),
      if_neg hrest]
    split_ifs <;> rfl

theorem Effect.step_before (ho : Orderly db) (he : Effect P db op out db') {t : TaskRow}
    (ht : t ∈ db.tasks) {r' : StepRow} (hr' : r' ∈ db'.steps) (htask : r'.task = t.id) :
    ∃ r ∈ db.steps, r'.spec = r.spec := by
  rcases he.mem_specs (List.mem_map_of_mem hr') with hold | hnew
  · obtain ⟨r, hr, hspec⟩ := List.mem_map.1 hold
    exact ⟨r, hr, hspec.symm⟩
  · exact absurd (htask.symm.trans hnew) (Nat.ne_of_lt (ho.wf.taskDrawn t ht))

theorem Effect.terminal_step (ho : Orderly db) (he : Effect P db op out db') {r r' : StepRow}
    (hr : r ∈ db.steps) (hr' : r' ∈ db'.steps) (hspec : r'.spec = r.spec)
    (hterminal : r.status.terminal = true) : r'.status = r.status := by
  have hcell : db'.board r.id = some r.cell := (he.rounds ho).terminal (ho.wf.board_eq hr) hterminal
  have hid : r'.id = r.id := congrArg StepSpec.id hspec
  rw [← hid, (he.orderly ho).wf.board_eq hr'] at hcell
  exact congrArg Cell.status (Option.some.inj hcell)

/-- An active task that was not active before was uncertain for a step the operation settles, which was
all that kept it. -/
theorem Effect.woken (ho : Orderly db) (hs : Synced db) (he : Effect P db op out db') {t t' : TaskRow}
    (ht : t ∈ db.tasks) (ht' : t' ∈ db'.tasks) (hid : t'.id = t.id) (hidle : t.status.active = false)
    (hactive : t'.status.active = true) :
    ∃ r ∈ db.steps, r.task = t.id ∧ r.status = .uncertain ∧ settled? op = some r.id ∧ Wakes db r := by
  have ho' := he.orderly ho
  rw [he.synced ho hs t' ht', summary_active_iff] at hactive
  obtain ⟨hkept, s, hmem, hsactive⟩ := hactive
  -- a step that is not the uncertain one the operation settles does not stop the task
  have hstates : ∀ q ∈ db.steps, q.task = t.id → (q.status = .uncertain → settled? op ≠ some q.id) →
      q.status = .succeeded ∨ q.status.active = true := by
    intro q hq htask hne
    obtain ⟨q', hq', hspec⟩ := (he.moves ho.wf ho.placed).spec hq
    have htask' : q'.task = t'.id := (congrArg StepSpec.task hspec).trans (htask.trans hid.symm)
    have hq's := hkept q'.status
      (mem_states.2 ⟨q', hq', ho'.wf.tenant_eq hq' ht' htask'.symm, htask', rfl⟩)
    by_cases hterminal : q.status.terminal = true
    · rw [he.terminal_step ho hq hq' hspec hterminal] at hq's
      exact hq's
    · cases hqs : q.status with
      | uncertain =>
        obtain ⟨q'', hq'', hspec', huncertain⟩ := he.doubted ho q hq hqs (hne hqs)
        rw [ho'.wf.steps.eq_of_key hq' hq'' (congrArg StepSpec.id (hspec.trans hspec'.symm)),
          huncertain] at hq's
        rcases hq's with h | h <;> cases h
      | succeeded => exact .inl rfl
      | queued | waiting | running => exact .inr rfl
      | failed | cancelled => simp [hqs, Status.terminal] at hterminal
  -- a step that is left was left before
  obtain ⟨q', hq', -, htask', rfl⟩ := mem_states.1 hmem
  obtain ⟨q, hq, hspec⟩ := he.step_before ho ht hq' (htask'.trans hid)
  have hqtask : q.task = t.id := (congrArg StepSpec.task hspec).symm.trans (htask'.trans hid)
  have hqid : q'.id = q.id := congrArg StepSpec.id hspec
  have hqover : ¬ Over db.board q.id := by
    intro hover
    obtain ⟨c, hc, hpending, hrunning⟩ := (he.rounds ho).over hover
    rw [← hqid, ho'.wf.board_eq hq'] at hc
    obtain rfl := Option.some.inj hc
    revert hsactive hpending hrunning
    change q'.status.active = true → q'.status.pending = false → q'.status ≠ .running → False
    cases q'.status <;> simp [Status.active, Status.pending]
  have hqactive : q.status.active = true := by
    cases hqs : q.status with
    | queued | waiting | running => rfl
    | _ =>
      refine absurd ⟨q.cell, ho.wf.board_eq hq, ?_, ?_⟩ hqover
      · simp [StepRow.cell, hqs, Status.pending]
      · simp [StepRow.cell, hqs]
  have hsettled : ∃ r ∈ db.steps, r.task = t.id ∧ r.status = .uncertain ∧ settled? op = some r.id := by
    by_contra hnone
    have hactive : (summary (db.states t.tenant t.id)).active = true := by
      refine summary_active_iff.2 ⟨fun s hs => ?_, q.status, ?_, hqactive⟩
      · obtain ⟨r, hr, -, htask, rfl⟩ := mem_states.1 hs
        exact hstates r hr htask fun huncertain hop => hnone ⟨r, hr, htask, huncertain, hop⟩
      · exact mem_states.2 ⟨q, hq, ho.wf.tenant_eq hq ht hqtask.symm, hqtask, rfl⟩
    rw [← hs t ht, hidle] at hactive
    cases hactive
  obtain ⟨r, hr, htask, huncertain, hop⟩ := hsettled
  refine ⟨r, hr, htask, huncertain, hop, fun p hp hptask hne => ?_, q, hq, ?_, ?_, hqactive⟩
  · refine hstates p hp (hptask.trans htask) fun _ h => hne ?_
    exact Option.some.inj (h.symm.trans hop)
  · exact hqtask.trans htask.symm
  · intro h
    rw [ho.wf.steps.eq_of_key hq hr h, huncertain] at hqactive
    cases hqactive

theorem createTask_room {env : Env} {channel eventKey agent actor approver : String} {steps : List Json}
    {plan : List Validated} {id : Uuid}
    (h : createTask P env db tenant channel eventKey agent steps actor plan approver = .ok (db', id))
    (hnew : db.taskOf? tenant channel eventKey = none) : db.activeTasks tenant < 1000 := by
  simp only [createTask, bind_eq_ok, exists_unit, hnew, ensure_eq_ok] at h
  exact h.2.2.1

/-- A task after an operation was there before, or is inserted now, below the ceiling. -/
theorem exec_task (h : exec P db op = .ok (db', out)) {t' : TaskRow} (ht' : t' ∈ db'.tasks) :
    (∃ t ∈ db.tasks, t.id = t'.id ∧ t.tenant = t'.tenant) ∨
      t'.id = db.drawn ∧ settled? op = none ∧ db.activeTasks t'.tenant < 1000 := by
  have hk : (t'.id, t'.key) ∈ db'.owners := List.mem_map_of_mem ht'
  have hold : (t'.id, t'.key) ∈ db.owners → ∃ t ∈ db.tasks, t.id = t'.id ∧ t.tenant = t'.tenant := by
    intro hk
    obtain ⟨t, ht, heq⟩ := List.mem_map.1 hk
    obtain ⟨hid, hkey⟩ := Prod.mk.inj heq
    exact ⟨t, ht, hid, congrArg Prod.fst hkey⟩
  have hnew : ∀ tenant channel eventKey, (t'.id, t'.key) ∈ db.owners ++ [(db.drawn, tenant, channel, eventKey)] →
      (t'.id, t'.key) ∈ db.owners ∨ t'.id = db.drawn ∧ t'.tenant = tenant := by
    intro tenant channel eventKey hk
    rcases List.mem_append.1 hk with hk | hk
    · exact .inl hk
    · obtain ⟨hid, hkey⟩ := Prod.mk.inj (List.mem_singleton.1 hk)
      exact .inr ⟨hid, congrArg Prod.fst hkey⟩
  obtain ⟨db₀, hw, heq⟩ :=
    (exec_effect h).written owners_unmoved (fun _ _ _ _ _ h => h) fun _ _ _ _ _ _ h => h
  rw [heq] at hk
  cases hw with
  | same | froze | enrolled | ended | elsewhere => exact .inl (hold hk)
  | submitted _ _ _ hnone =>
    rw [owners_insertTask] at hk
    refine (hnew _ _ _ hk).imp hold fun ⟨hid, htenant⟩ => ⟨hid, rfl, ?_⟩
    obtain ⟨id, hx, -⟩ := task_of_map h
    simp only [submit, bind_eq_ok] at hx
    obtain ⟨_, -, _, -, _, -, _, -, hx⟩ := hx
    exact htenant ▸ createTask_room hx hnone
  | replied _ _ _ hnone =>
    rw [owners_insertTask] at hk
    refine (hnew _ _ _ hk).imp hold fun ⟨hid, htenant⟩ => ⟨hid, rfl, ?_⟩
    obtain ⟨id, hx, -⟩ := task_of_map h
    simp only [operatorReply, bind_eq_ok] at hx
    obtain ⟨_, -, _, -, _, -, _, -, _, -, _, -, _, -, _, -, _, -, _, -, hx⟩ := hx
    exact htenant ▸ createTask_room hx hnone

/-- A settlement that makes a task active is one as succeeded. -/
theorem exec_settles (ho : Orderly db) (hs : Synced db) (h : exec P db op = .ok (db', out)) {r : StepRow}
    (hr : r ∈ db.steps) (hop : settled? op = some r.id) {t' : TaskRow} (ht' : t' ∈ db'.tasks)
    (hid : t'.id = r.task) (hactive : t'.status.active = true) : Settles r op := by
  have he := exec_effect h
  have ho' := he.orderly ho
  cases op with
  | reconcile env tenant step actor role outcome evidence =>
    obtain rfl := Option.some.inj hop
    have hx := h
    simp only [exec, reconcile, bind_eq_ok, exists_unit, ensure_eq_ok, need_eq_ok, pure_eq_ok,
      Prod.mk.injEq] at hx
    obtain ⟨hrole, ⟨houtcome, hblank, hlength⟩, hauthority, x, hx, rfl, -⟩ := hx
    have hfound := List.find?_some hx
    simp only [Bool.and_eq_true, decide_eq_true_eq] at hfound
    obtain ⟨⟨rfl, hxid⟩, huncertain⟩ := hfound
    obtain rfl := ho.wf.steps.eq_of_key (List.mem_of_find?_eq_some hx) hr hxid
    refine ⟨rfl, rfl, hrole, ?_, hblank, hlength, hauthority⟩
    by_contra hfailed
    rw [he.synced ho hs t' ht', summary_active_iff] at hactive
    have hmem : Status.failed ∈ (db.settleStep x.tenant x.id x.task
        (if outcome = "succeeded" then .succeeded else .failed)).states t'.tenant t'.id := by
      have hrow : { x with status := .failed, error := "operator_reconciled" } ∈ (db.settleStep x.tenant x.id
          x.task (if outcome = "succeeded" then .succeeded else .failed)).steps := by
        rw [if_neg hfailed]
        exact mem_update_of_pos hr (by simp)
      exact mem_states.2 ⟨_, hrow, ho'.wf.tenant_eq hrow ht' hid, hid.symm, rfl⟩
    rcases hactive.1 _ hmem with h | h <;> cases h
  | googleReconcile tenant step receipt =>
    obtain rfl := Option.some.inj hop
    simp only [exec, googleReconcile, bind_eq_ok, exists_unit, ensure_eq_ok, need_eq_ok, pure_eq_ok,
      Prod.mk.injEq] at h
    obtain ⟨x, hx, -⟩ := h
    have hfound := List.find?_some hx
    simp only [Bool.and_eq_true, decide_eq_true_eq] at hfound
    obtain ⟨rfl, hxid⟩ := hfound
    obtain rfl := ho.wf.steps.eq_of_key (List.mem_of_find?_eq_some hx) hr hxid
    exact ⟨rfl, rfl⟩
  | _ => cases hop

/-- **How a task becomes active.** An active task was active before, or is inserted below the ceiling, or
is woken by the settlement of its uncertain step. -/
theorem exec_entrant (ho : Orderly db) (hs : Synced db) (h : exec P db op = .ok (db', out)) {t' : TaskRow}
    (ht' : t' ∈ db'.tasks) (hactive : t'.status.active = true) :
    (∃ t ∈ db.tasks, t.id = t'.id ∧ t.tenant = t'.tenant ∧ t.status.active = true) ∨
      (t'.id = db.drawn ∧ settled? op = none ∧ db.activeTasks t'.tenant < 1000) ∨
      ∃ r ∈ db.steps, r.task = t'.id ∧ r.tenant = t'.tenant ∧ r.status = .uncertain ∧
        settled? op = some r.id ∧ Settles r op ∧ Wakes db r := by
  rcases exec_task h ht' with ⟨t, ht, hid, htenant⟩ | hnew
  · cases hidle : t.status.active with
    | true => exact .inl ⟨t, ht, hid, htenant, hidle⟩
    | false =>
      obtain ⟨r, hr, htask, huncertain, hop, hwakes⟩ :=
        (exec_effect h).woken ho hs ht ht' hid.symm hidle hactive
      have hsettles := exec_settles ho hs h hr hop ht' (hid.symm.trans htask.symm) hactive
      refine .inr (.inr ⟨r, hr, htask.trans hid, ?_, huncertain, hop, hsettles, hwakes⟩)
      exact (ho.wf.tenant_eq hr ht htask.symm).trans htenant
  · exact .inr (.inl hnew)

/-! ### The count -/

/-- The active tasks of a tenant. -/
def Db.activeIds (db : Db) (tenant : String) : List Uuid :=
  (db.tasks.filter fun t => decide (t.tenant = tenant) && t.status.active).map TaskRow.id

theorem length_activeIds : (db.activeIds tenant).length = db.activeTasks tenant := by
  rw [Db.activeIds, List.length_map, Db.activeTasks, List.countP_eq_length_filter]

theorem mem_activeIds {id : Uuid} : id ∈ db.activeIds tenant ↔
    ∃ t ∈ db.tasks, t.id = id ∧ t.tenant = tenant ∧ t.status.active = true := by
  simp only [Db.activeIds, List.mem_map, List.mem_filter, Bool.and_eq_true, decide_eq_true_eq]
  exact ⟨fun ⟨t, ⟨ht, htenant, hactive⟩, hid⟩ => ⟨t, ht, hid, htenant, hactive⟩,
    fun ⟨t, ht, hid, htenant, hactive⟩ => ⟨t, ⟨ht, htenant, hactive⟩, hid⟩⟩

theorem nodup_activeIds (hwf : Wf db) : (db.activeIds tenant).Nodup :=
  hwf.tasks.sublist (List.filter_sublist.map _)

theorem activeTasks_le_of_subset {ids : List Uuid} (hwf : Wf db')
    (h : ∀ id ∈ db'.activeIds tenant, id ∈ ids ++ db.activeIds tenant) :
    db'.activeTasks tenant ≤ ids.length + db.activeTasks tenant := by
  rw [← length_activeIds, ← length_activeIds, ← List.length_append]
  exact (List.subperm_of_subset (nodup_activeIds hwf) h).length_le

/-- An operation that finds room for what it makes active keeps the ceiling. -/
theorem Step.activeTasks_le (ho : Orderly db) (hs : Synced db) (h : Step P db op db')
    (hroom : Spare tenant db op) (hle : db.activeTasks tenant ≤ 1000) : db'.activeTasks tenant ≤ 1000 := by
  obtain rfl : db' = db.after P op := h
  unfold Db.after
  cases hx : exec P db op with
  | error e => exact hle
  | ok done =>
    obtain ⟨db', out⟩ := done
    change db'.activeTasks tenant ≤ 1000
    have hwf := ((exec_effect hx).orderly ho).wf
    by_cases hold : ∀ id ∈ db'.activeIds tenant, id ∈ db.activeIds tenant
    · have hsub : db'.activeTasks tenant ≤ ([] : List Uuid).length + db.activeTasks tenant :=
        activeTasks_le_of_subset hwf hold
      rw [List.length_nil, Nat.zero_add] at hsub
      exact hsub.trans hle
    · push Not at hold
      obtain ⟨id, hid, hnot⟩ := hold
      -- what is active now and was not is one task, and there was room for it
      have hone : db.activeTasks tenant < 1000 ∧
          ∀ id' ∈ db'.activeIds tenant, id' ∈ [id] ++ db.activeIds tenant := by
        have hentrant : ∀ id ∈ db'.activeIds tenant, id ∈ db.activeIds tenant ∨
            (id = db.drawn ∧ settled? op = none ∧ db.activeTasks tenant < 1000) ∨
            ∃ r ∈ db.steps, r.task = id ∧ settled? op = some r.id ∧ db.activeTasks tenant < 1000 := by
          intro id hid
          obtain ⟨t', ht', rfl, rfl, hactive⟩ := mem_activeIds.1 hid
          rcases exec_entrant ho hs hx ht' hactive with hold | hnew |
            ⟨r, hr, htask, htenant, huncertain, hop, hsettles, hwakes⟩
          · exact .inl (mem_activeIds.2 hold)
          · exact .inr (.inl hnew)
          · exact .inr (.inr ⟨r, hr, htask, hop, hroom r hr htenant huncertain hsettles hwakes⟩)
        rcases hentrant id hid with hold | ⟨rfl, hnone, hlt⟩ | ⟨r, hr, rfl, hop, hlt⟩
        · exact absurd hold hnot
        · refine ⟨hlt, fun id' hid' => ?_⟩
          rcases hentrant id' hid' with hold | ⟨rfl, -⟩ | ⟨r, -, -, hop, -⟩
          · exact List.mem_cons_of_mem _ hold
          · exact List.mem_cons_self
          · rw [hnone] at hop
            cases hop
        · refine ⟨hlt, fun id' hid' => ?_⟩
          rcases hentrant id' hid' with hold | ⟨-, hnone, -⟩ | ⟨r', hr', rfl, hop', -⟩
          · exact List.mem_cons_of_mem _ hold
          · rw [hnone] at hop
            cases hop
          · rw [ho.wf.steps.eq_of_key hr' hr (Option.some.inj (hop'.symm.trans hop))]
            exact List.mem_cons_self
      have hsub := activeTasks_le_of_subset hwf hone.2
      rw [List.length_singleton] at hsub
      omega

/-- What an accepted settlement writes. -/
theorem exec_of_settles (P : Platform) (ho : Orderly db) {r : StepRow} (hr : r ∈ db.steps)
    (huncertain : r.status = .uncertain) (hsettles : Settles r op) :
    ∃ p f, exec P db op = .ok ((db.setSteps p f).refresh r.tenant r.task, .none) ∧
      (∀ q ∈ db.steps, p q = true ↔ q = r) ∧ ∀ q, (f q).spec = q.spec ∧ (f q).status = .succeeded := by
  have hkey : ∀ q ∈ db.steps, q.id = r.id → q = r := fun q hq h => ho.wf.steps.eq_of_key hq hr h
  cases op with
  | reconcile env tenant step actor role outcome evidence =>
    obtain ⟨rfl, rfl, hrole, rfl, hblank, hlength, hauthority⟩ := hsettles
    have hfind : db.steps.find? (fun s => decide (s.tenant = r.tenant) && decide (s.id = r.id) &&
        decide (s.status = .uncertain)) = some r := by
      cases hx : db.steps.find? _ with
      | none => simpa [huncertain] using List.find?_eq_none.1 hx r hr
      | some x =>
        have hfound := List.find?_some hx
        simp only [Bool.and_eq_true, decide_eq_true_eq] at hfound
        rw [hkey x (List.mem_of_find?_eq_some hx) hfound.1.2]
    refine ⟨fun s => decide (s.tenant = r.tenant) && decide (s.id = r.id),
      fun s => { s with status := .succeeded, error := "operator_reconciled" }, ?_, fun q hq => ?_,
      fun q => ⟨rfl, rfl⟩⟩
    · simp only [exec, reconcile, bind_eq_ok, exists_unit, ensure_eq_ok, need_eq_ok, pure_eq_ok]
      exact ⟨hrole, ⟨.inl trivial, hblank, hlength⟩, hauthority, r, hfind, rfl⟩
    · simp only [Bool.and_eq_true, decide_eq_true_eq]
      exact ⟨fun h => hkey q hq h.2, fun h => h ▸ ⟨rfl, rfl⟩⟩
  | googleReconcile tenant step receipt =>
    obtain ⟨rfl, rfl⟩ := hsettles
    have hfind : db.steps.find? (fun s => decide (s.tenant = r.tenant) && decide (s.id = r.id)) = some r := by
      cases hx : db.steps.find? _ with
      | none => simpa using List.find?_eq_none.1 hx r hr
      | some x =>
        have hfound := List.find?_some hx
        simp only [Bool.and_eq_true, decide_eq_true_eq] at hfound
        rw [hkey x (List.mem_of_find?_eq_some hx) hfound.2]
    refine ⟨fun s => decide (s.tenant = r.tenant) && decide (s.id = r.id) && decide (s.status = .uncertain),
      fun s => { s with
        status := .succeeded, result := receipt, error := "provider_reconciled", claim := none, lease := 0 },
      ?_, fun q hq => ?_, fun q => ⟨rfl, rfl⟩⟩
    · simp only [exec, googleReconcile, bind_eq_ok, exists_unit, ensure_eq_ok, need_eq_ok, pure_eq_ok]
      exact ⟨r, hfind, huncertain, rfl⟩
    · simp only [Bool.and_eq_true, decide_eq_true_eq]
      refine ⟨fun h => hkey q hq h.1.2, ?_⟩
      rintro rfl
      exact ⟨⟨rfl, rfl⟩, huncertain⟩
  | _ => exact hsettles.elim

/-- A settlement that wakes its task adds an active one. -/
theorem Step.activeTasks_lt (ho : Orderly db) (hs : Synced db) (h : Step P db op db') {r : StepRow}
    (hr : r ∈ db.steps) (huncertain : r.status = .uncertain) (hsettles : Settles r op)
    (hwakes : Wakes db r) : db.activeTasks r.tenant < db'.activeTasks r.tenant := by
  obtain ⟨p, f, hx, hp, hf⟩ := exec_of_settles P ho hr huncertain hsettles
  have he := exec_effect hx
  have ho' := he.orderly ho
  obtain rfl : db' = (db.setSteps p f).refresh r.tenant r.task := by
    rw [show db' = db.after P op from h, Db.after, hx]
    rfl
  obtain ⟨t, ht, htid, httenant⟩ := ho.wf.owned r hr
  have hidle : t.status = .uncertain := by
    rw [hs t ht, summary_eq_uncertain, mem_states]
    exact ⟨r, hr, httenant.symm, htid.symm, huncertain⟩
  -- the task of the step is active now
  have hwoken : r.task ∈ ((db.setSteps p f).refresh r.tenant r.task).activeIds r.tenant := by
    obtain ⟨status, ht'⟩ := (he.moves ho.wf ho.placed).task ht
    refine mem_activeIds.2 ⟨_, ht', htid, httenant, ?_⟩
    rw [he.synced ho hs _ ht', summary_active_iff]
    constructor
    · intro s hmem
      obtain ⟨q', hq', -, htask, rfl⟩ := mem_states.1 hmem
      obtain ⟨q, hq, rfl⟩ := mem_update.1 hq'
      by_cases hpq : p q = true
      · rw [if_pos hpq, (hf q).2]
        exact .inl rfl
      · rw [if_neg hpq] at htask ⊢
        refine hwakes.1 q hq (htask.trans htid) fun hid => hpq ((hp q hq).2 ?_)
        exact ho.wf.steps.eq_of_key hq hr hid
    · obtain ⟨q, hq, htask, hid, hactive⟩ := hwakes.2
      have hpq : p q = false := by
        cases hpq : p q with
        | false => rfl
        | true => exact absurd (congrArg StepRow.id ((hp q hq).1 hpq)) hid
      have hq' : q ∈ (db.setSteps p f).steps := mem_update_of_not hq hpq
      have htenant : q.tenant = t.tenant := ho.wf.tenant_eq hq ht (htid.trans htask.symm)
      exact ⟨q.status, mem_states.2 ⟨q, hq', htenant, htask.trans htid.symm, rfl⟩, hactive⟩
  have hnot : r.task ∉ db.activeIds r.tenant := by
    intro hmem
    obtain ⟨x, hx, hid, -, hactive⟩ := mem_activeIds.1 hmem
    rw [ho.wf.tasks.eq_of_key hx ht (hid.trans htid.symm), hidle] at hactive
    cases hactive
  -- and every other active task is as it was
  have hkept : ∀ id ∈ r.task :: db.activeIds r.tenant,
      id ∈ ((db.setSteps p f).refresh r.tenant r.task).activeIds r.tenant := by
    intro id hid
    rcases List.mem_cons.1 hid with rfl | hid
    · exact hwoken
    · obtain ⟨x, hx, rfl, htenant, hactive⟩ := mem_activeIds.1 hid
      refine mem_activeIds.2 ⟨x, mem_update_of_not hx ?_, rfl, htenant, hactive⟩
      have hne : x.id ≠ r.task := fun h => hnot (h ▸ hid)
      simp [hne]
  have hnodup : (r.task :: db.activeIds r.tenant).Nodup :=
    List.nodup_cons.2 ⟨hnot, nodup_activeIds ho.wf⟩
  have hle := (List.subperm_of_subset hnodup hkept).length_le
  rwa [List.length_cons, length_activeIds, length_activeIds] at hle

theorem Step.activeTasks_iff (ho : Orderly db) (hs : Synced db) (h : Step P db op db')
    (hle : db.activeTasks tenant ≤ 1000) : db'.activeTasks tenant ≤ 1000 ↔ Spare tenant db op := by
  refine ⟨fun hle' r hr htenant huncertain hsettles hwakes => ?_, fun hroom => h.activeTasks_le ho hs hroom hle⟩
  subst htenant
  exact (h.activeTasks_lt ho hs hr huncertain hsettles hwakes).trans_le hle'

end Entering

end AgentPlatform.Engine
