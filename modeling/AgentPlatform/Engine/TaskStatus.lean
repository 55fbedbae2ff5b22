import AgentPlatform.Engine.Sequencing

/-!
# The status of a task

The status column of `p_tasks` is a copy, kept by hand: every operation that changes steps calls
`_refresh` on their tasks. `status_synced` says that none forgets one, in any run.
-/

namespace AgentPlatform.Engine

open Outcome Table Pipeline Runs

/-! ### Tasks in line with their steps -/

/-- The stored status of every task stands in `q` to the statuses of its steps. -/
def InLine (q : Status → List Status → Prop) (db : Db) : Prop :=
  ∀ t ∈ db.tasks, q t.status (db.states t.tenant t.id)

/-- The same, but perhaps for the stale tasks of a tenant. -/
def InLineExcept (q : Status → List Status → Prop) (db : Db) (tenant : String)
    (stale : Uuid → Prop) : Prop :=
  ∀ t ∈ db.tasks, t.tenant = tenant ∧ stale t.id ∨ q t.status (db.states t.tenant t.id)

/-- Every task shows the summary of its steps. -/
def Synced (db : Db) : Prop := ∀ t ∈ db.tasks, t.status = summary (db.states t.tenant t.id)

section Stale

variable {q : Status → List Status → Prop} {db db' : Db} {tenant : String} {stale : Uuid → Prop}

theorem mem_states {task : Uuid} {status : Status} :
    status ∈ db.states tenant task ↔
      ∃ r ∈ db.steps, r.tenant = tenant ∧ r.task = task ∧ r.status = status := by
  simp only [Db.states, List.mem_map, List.mem_filter, Bool.and_eq_true, decide_eq_true_eq]
  exact ⟨fun ⟨r, ⟨hr, htenant, htask⟩, hstatus⟩ => ⟨r, hr, htenant, htask, hstatus⟩,
    fun ⟨r, hr, htenant, htask, hstatus⟩ => ⟨r, ⟨hr, htenant, htask⟩, hstatus⟩⟩

theorem states_update {p : StepRow → Bool} {f : StepRow → StepRow} {task : Uuid}
    (hspec : ∀ r, (f r).spec = r.spec) (hsteps : db'.steps = Table.update p f db.steps)
    (hother : ∀ r ∈ db.steps, p r = true → r.tenant = tenant → r.task ≠ task) :
    db'.states tenant task = db.states tenant task := by
  unfold Db.states
  rw [hsteps]
  congr 1
  refine filter_update (fun r hr hp => ?_) fun r => ?_
  · by_cases htenant : r.tenant = tenant
    · simp [hother r hr hp htenant]
    · simp [htenant]
  · have htenant : (f r).tenant = r.tenant := congrArg StepSpec.tenant (hspec r)
    have htask : (f r).task = r.task := congrArg StepSpec.task (hspec r)
    rw [htenant, htask]

theorem InLine.update (h : InLine q db) {p : StepRow → Bool} {f : StepRow → StepRow}
    (hsteps : db'.steps = Table.update p f db.steps) (htasks : db'.tasks = db.tasks)
    (hspec : ∀ r, (f r).spec = r.spec)
    (hstale : ∀ r ∈ db.steps, p r = true → r.tenant = tenant ∧ stale r.task) :
    InLineExcept q db' tenant stale := by
  intro t ht
  rw [htasks] at ht
  by_cases hs : t.tenant = tenant ∧ stale t.id
  · exact .inl hs
  · refine .inr ?_
    rw [states_update hspec hsteps fun r hr hp htenant htask => ?_]
    · exact h t ht
    · obtain ⟨htenant', hstale'⟩ := hstale r hr hp
      exact hs ⟨htenant.symm.trans htenant', htask ▸ hstale'⟩

theorem InLineExcept.inLine (h : InLineExcept q db tenant stale) (hstale : ∀ id, ¬ stale id) :
    InLine q db := by
  intro t ht
  rcases h t ht with ⟨-, hs⟩ | hkept
  · exact absurd hs (hstale _)
  · exact hkept

theorem InLine.frame (h : InLine q db) (htasks : db'.tasks = db.tasks)
    (hsteps : db'.steps = db.steps) : InLine q db' := by
  intro t ht
  rw [htasks] at ht
  unfold Db.states
  rw [hsteps]
  exact h t ht

variable (hq : ∀ l, q (summary l) l)
include hq

theorem InLineExcept.refresh (h : InLineExcept q db tenant stale) (task : Uuid) :
    InLineExcept q (db.refresh tenant task) tenant fun id => stale id ∧ id ≠ task := by
  intro t' ht'
  obtain ⟨t, ht, rfl⟩ := mem_update.1 ht'
  split
  · rename_i hp
    simp only [Bool.and_eq_true, decide_eq_true_eq] at hp
    obtain ⟨rfl, rfl⟩ := hp
    exact .inr (hq _)
  · rename_i hp
    simp only [Bool.and_eq_true, decide_eq_true_eq] at hp
    rcases h t ht with ⟨htenant, hstale⟩ | hkept
    · exact .inl ⟨htenant, hstale, fun hid => hp ⟨htenant, hid⟩⟩
    · exact .inr hkept

theorem InLineExcept.refresh_one {task : Uuid}
    (h : InLineExcept q db tenant fun id => id = task) : InLine q (db.refresh tenant task) :=
  (h.refresh hq task).inLine fun _ hid => hid.2 hid.1

/-- Refreshing every stale task brings all tasks in line. -/
theorem InLineExcept.refreshAll {tasks : List Uuid}
    (h : InLineExcept q db tenant fun id => id ∈ tasks) : InLine q (db.refreshAll tenant tasks) := by
  have hloop : ∀ (tasks : List Uuid) (db : Db) (stale : Uuid → Prop),
      InLineExcept q db tenant stale → (∀ id, stale id → id ∈ tasks) →
      InLine q (db.refreshAll tenant tasks) := by
    intro tasks
    induction tasks with
    | nil => exact fun db stale h hstale => h.inLine fun id hs => by cases hstale id hs
    | cons task tasks ih =>
      intro db stale h hstale
      refine ih _ _ (h.refresh hq task) fun id hs => ?_
      exact (List.mem_cons.1 (hstale id hs.1)).resolve_left hs.2
  exact hloop tasks db _ h fun _ hid => hid

end Stale

/-! ### No operation leaves a task out of line -/

section Effects

variable {q : Status → List Status → Prop} {P : Platform} {env : Env} {db db' : Db}
  {tenant : String} {op : Op} {out : Reply}

theorem mem_dedup_tasks {p : StepRow → Bool} {r : StepRow} (hr : r ∈ db.steps) (hp : p r = true) :
    r.task ∈ ((db.steps.filter p).map StepRow.task).dedup :=
  List.mem_dedup.2 (List.mem_map.2 ⟨r, List.mem_filter.2 ⟨hr, hp⟩, rfl⟩)

variable (hq : ∀ l, q (summary l) l)
include hq

theorem expire_inLine (hwf : Wf db) (h : InLine q db) {r : StepRow} (hr : r ∈ db.steps) :
    InLine q (db.expire tenant r) := by
  unfold Db.expire
  refine InLineExcept.refresh_one hq ?_
  refine h.update rfl rfl (fun _ => rfl) fun s hs hp => ?_
  simp only [Bool.and_eq_true, decide_eq_true_eq] at hp
  obtain rfl := hwf.steps.eq_of_key hs hr hp.2
  exact ⟨hp.1, rfl⟩

theorem Live.skip_inLine (hwf : Wf db) {c : Candidate} (hc : Live db tenant c) (v : Review)
    (h : InLine q db) : InLine q (db.skip tenant c v) := by
  cases v with
  | inactive =>
    unfold Db.skip Db.retire
    refine InLineExcept.refresh_one hq ?_
    refine h.update rfl rfl (fun _ => rfl) fun r hr hp => ?_
    simp only [Bool.and_eq_true, decide_eq_true_eq] at hp
    rw [hc.only hwf hr hp.2]
    exact ⟨hc.tenant, rfl⟩
  | failed error =>
    unfold Db.skip Db.failStep
    refine InLineExcept.refresh_one hq ?_
    refine h.update rfl rfl (fun _ => rfl) fun r hr hp => ?_
    rw [hc.only hwf hr (of_decide_eq_true hp)]
    exact ⟨hc.tenant, rfl⟩
  | waiting =>
    unfold Db.skip Db.park
    refine InLineExcept.refresh_one hq ?_
    refine h.update rfl rfl (fun _ => rfl) fun r hr hp => ?_
    rw [hc.only hwf hr (of_decide_eq_true hp)]
    exact ⟨hc.tenant, rfl⟩
  | granted => exact h

theorem Live.start_inLine (hwf : Wf db) {c : Candidate} (hc : Live db tenant c) (worker : String)
    (lease : Time) (h : InLine q db) : InLine q (db.start tenant c worker lease) := by
  obtain ⟨hsteps, htasks, -⟩ := consume_frame db c
  have hframe : InLine q { db.consume c with drawn := (db.consume c).drawn + 1 } :=
    h.frame htasks hsteps
  unfold Db.start
  refine InLineExcept.refresh_one hq ?_
  refine hframe.update rfl rfl (fun _ => rfl) fun r hr hp => ?_
  rw [hc.only hwf (hsteps ▸ hr) (of_decide_eq_true hp)]
  exact ⟨hc.tenant, rfl⟩

theorem insertTask_inLine (hwf : Wf db)
    {channel eventKey fingerprint agent actor approver : String} {plan : List Validated}
    {now : Time} (h : InLine q db) :
    InLine q (db.insertTask tenant channel eventKey fingerprint agent actor plan approver now) := by
  unfold Db.insertTask
  refine InLineExcept.refresh_one hq fun t ht => ?_
  rcases List.mem_append.1 ht with ht | ht
  · refine .inr ?_
    have hnone : (newSteps tenant db.drawn (db.drawn + 1) plan).filter
        (fun s => decide (s.tenant = t.tenant) && decide (s.task = t.id)) = [] := by
      rw [List.filter_eq_nil_iff]
      intro s hs
      obtain ⟨i, v, -, rfl⟩ := mem_newSteps.1 hs
      simp [StepRow.task, (hwf.taskDrawn t ht).ne']
    have hstates := h t ht
    unfold Db.states at hstates ⊢
    rwa [List.filter_append, hnone, List.append_nil]
  · obtain rfl := List.mem_singleton.1 ht
    exact .inl ⟨rfl, rfl⟩

theorem freezeSteps_inLine (h : InLine q db) : InLine q (db.freezeSteps tenant) := by
  unfold Db.freezeSteps
  refine InLineExcept.refreshAll hq ?_
  refine h.update rfl rfl (fun _ => rfl) fun r hr hp => ⟨?_, mem_dedup_tasks hr hp⟩
  simp only [Bool.and_eq_true, decide_eq_true_eq] at hp
  exact hp.1

theorem detach_inLine {device actor : String} (h : InLine q db) :
    InLine q (db.detach tenant device actor) := by
  unfold Db.detach
  refine InLineExcept.refreshAll hq ?_
  refine h.update rfl rfl (fun _ => rfl) fun r hr hp => ⟨?_, mem_dedup_tasks hr hp⟩
  simp only [Bool.and_eq_true, decide_eq_true_eq] at hp
  exact hp.1.1

theorem stopSteps_inLine {task : Uuid} {reason : String} (h : InLine q db) :
    InLine q (db.stopSteps tenant task reason) := by
  unfold Db.stopSteps
  refine InLineExcept.refresh_one hq ?_
  refine h.update rfl rfl (fun _ => rfl) fun r _ hp => ?_
  simp only [Bool.and_eq_true, decide_eq_true_eq] at hp
  exact hp.1

/-- Every operation refreshes the tasks whose steps it changes: a relation that a refresh establishes
between a task and its steps is kept. -/
theorem Effect.inLine (ho : Orderly db) (h : InLine q db) (he : Effect P db op out db') :
    InLine q db' := by
  cases he with
  | same => exact h
  | submitted => exact insertTask_inLine hq ho.wf h
  | replied => exact insertTask_inLine hq ho.wf h
  | @approved env tenant actor decision role a s t policy _ _ hs =>
    unfold Db.decideStep
    refine InLineExcept.refresh_one hq ?_
    refine h.update rfl rfl (fun _ => rfl) fun r hr hp => ?_
    simp only [Bool.and_eq_true, decide_eq_true_eq] at hp
    obtain rfl := ho.wf.steps.eq_of_key hr hs hp.2
    exact ⟨hp.1, rfl⟩
  | @unclaimed env tenant worker device leaseSeconds cs _ hcs hskipped =>
    refine (reviewed_induct device [] ho.wf ho.placed hskipped ?_ (p := InLine q) ?_ ?_).2.1
    · rcases hcs with rfl | rfl
      · exact List.nil_sublist _
      · exact (List.append_nil _).symm ▸ List.Sublist.refl _
    · exact expireLeases_induct ho.wf h fun db r hwf hr _ _ hs => expire_inLine hq hwf hs hr
    · exact fun db c _ v hwf hlive _ hs => hlive.skip_inLine hq hwf v hs
  | @claimed env tenant worker device leaseSeconds skipped rest c db₁ hcs hskipped hreview =>
    obtain ⟨hwf₁, hs₁, hlive⟩ := reviewed_induct device (c :: rest) ho.wf ho.placed hskipped
      (hcs ▸ List.Sublist.refl _) (p := InLine q)
      (expireLeases_induct ho.wf h fun db r hwf hr _ _ hs => expire_inLine hq hwf hs hr)
      fun db c _ v hwf hlive _ hs => hlive.skip_inLine hq hwf v hs
    exact (hlive c List.mem_cons_self).start_inLine hq hwf₁ _ _ hs₁
  | @finished env r token result status error hr hrunning hstatus =>
    unfold Db.complete
    refine InLineExcept.refresh_one hq ?_
    refine h.update rfl rfl (fun _ => rfl) fun s hs hp => ?_
    obtain rfl := ho.wf.steps.eq_of_key hs hr (of_decide_eq_true hp)
    exact ⟨rfl, rfl⟩
  | cancelled =>
    unfold Db.cancelTask
    refine InLineExcept.refresh_one hq ?_
    refine h.update rfl rfl (fun _ => rfl) fun r _ hp => ?_
    simp only [Bool.and_eq_true, decide_eq_true_eq] at hp
    exact hp.1
  | @reconciled env r actor role outcome evidence houtcome hr =>
    unfold Db.settleStep
    refine InLineExcept.refresh_one hq ?_
    refine h.update rfl rfl (fun _ => rfl) fun s hs hp => ?_
    simp only [Bool.and_eq_true, decide_eq_true_eq] at hp
    obtain rfl := ho.wf.steps.eq_of_key hs hr hp.2
    exact ⟨rfl, rfl⟩
  | @provided r receipt hr =>
    unfold Db.provideStep
    refine InLineExcept.refresh_one hq ?_
    refine h.update rfl rfl (fun _ => rfl) fun s hs hp => ?_
    simp only [Bool.and_eq_true, decide_eq_true_eq] at hp
    obtain rfl := ho.wf.steps.eq_of_key hs hr hp.1.2
    exact ⟨rfl, rfl⟩
  | froze => exact freezeSteps_inLine hq (h.frame rfl rfl)
  | resumed => exact h.frame rfl rfl
  | enrolled => exact (detach_inLine hq h).frame rfl rfl
  | ended => exact h.frame rfl rfl
  | @stopped tenant run task status status' reason actor linked _ =>
    unfold stopTask
    by_cases hactive : linked.status.active = true
    · rw [if_pos hactive]
      exact (stopSteps_inLine hq h).frame rfl rfl
    · rw [if_neg hactive]
      exact h.frame rfl rfl
  | elsewhere => exact h.frame rfl rfl

end Effects

/-! ### No operation leaves a task stale -/

section Synced

variable {P : Platform} {db db' : Db} {tenant : String} {op : Op} {out : Reply}

theorem Synced.inLine (h : Synced db) : InLine (fun status states => status = summary states) db := h

theorem expire_synced (hwf : Wf db) (h : Synced db) {r : StepRow} (hr : r ∈ db.steps) :
    Synced (db.expire tenant r) :=
  expire_inLine (fun _ => rfl) hwf h.inLine hr

theorem Live.skip_synced (hwf : Wf db) {c : Candidate} (hc : Live db tenant c) (v : Review)
    (h : Synced db) : Synced (db.skip tenant c v) :=
  hc.skip_inLine (fun _ => rfl) hwf v h.inLine

theorem Effect.synced (ho : Orderly db) (h : Synced db) (he : Effect P db op out db') :
    Synced db' :=
  he.inLine (fun _ => rfl) ho h.inLine

end Synced

section Runs

variable {P : Platform} {τs : List (Transition Db Op)} {db db' : Db} {op : Op}

theorem synced_empty : Synced {} := fun _ ht => absurd ht List.not_mem_nil

theorem Step.synced (h : Orderly db ∧ Synced db) (hs : Step P db op db') :
    Orderly db' ∧ Synced db' := by
  obtain ⟨out, he, -⟩ := hs.effect
  exact ⟨he.orderly h.1, he.synced h.1 h.2⟩

/-- **No stale task.** In every state a run reaches, the stored status of every task is the summary of
the statuses of its steps. -/
theorem status_synced (h : Run (Step P) {} τs db) :
    ∀ t ∈ db.tasks, t.status = summary (db.states t.tenant t.id) :=
  (h.invariant (I := fun db => Orderly db ∧ Synced db) ⟨orderly_empty, synced_empty⟩
    fun _ _ _ => Step.synced).2

theorem status_synced_sample :
    (sampleDb lateOps).tasks.map TaskRow.status = [.waiting] ∧
    ∀ t ∈ (sampleDb lateOps).tasks,
      t.status = summary ((sampleDb lateOps).states t.tenant t.id) :=
  ⟨by decide +kernel, status_synced (sample_run lateOps)⟩

end Runs

end AgentPlatform.Engine
