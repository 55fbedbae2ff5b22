import AgentPlatform.Engine.Frames
import AgentPlatform.Engine.TaskStatus

/-!
# Terminal tasks

A terminal task has no running step and never changes again, as long as no rejected approval and no
device enrolment cancels a pending step while another step of its task runs (`Harmless`). Then a task
with a failed or cancelled step has no running step (`Quiet`), so that a terminal task is an idle
pipeline, whose steps are no candidates of `claim`.
-/

namespace AgentPlatform.Engine

open Outcome Table Pipeline Runs

/-- The operation does not cancel a pending step while another step of its task goes on running: no
rejection of a step whose task runs, and no device enrolment that cancels a step of the device while
a step of its task runs elsewhere. -/
def Harmless (db : Db) : Op → Prop
  | .approve env tenant step _ decision _ => decision = "rejected" →
    (∃ a, db.approval? tenant step = some a ∧ a.status = .pending ∧ env.now < a.expires) →
      ∀ s ∈ db.steps, s.id = step → s.status.pending = true →
        ∀ r ∈ db.steps, r.task = s.task → r.status ≠ .running
  | .device _ tenant device _ _ =>
    ∀ s ∈ db.steps, s.tenant = tenant → s.spec.device = device → s.status.pending = true →
      ∀ r ∈ db.steps, r.task = s.task → r.status = .running → r.spec.device = device
  | _ => True

/-- Work on the task was given up: a step of it failed or was cancelled. -/
def StepRow.dropped (r : StepRow) : Prop := r.status = .failed ∨ r.status = .cancelled

/-- A task with a failed or cancelled step has no running step. -/
def Quiet (db : Db) : Prop :=
  ∀ r ∈ db.steps, ∀ r' ∈ db.steps, r'.task = r.task → r.dropped → r'.status ≠ .running

section Updates

variable {P : Platform} {env : Env} {db db' : Db} {tenant : String} {op : Op} {out : Reply}

theorem Quiet.congr (h : Quiet db) (hsteps : db'.steps = db.steps) : Quiet db' := by
  unfold Quiet
  rw [hsteps]
  exact h

/-- An update that starts no step keeps the tasks quiet, if it stops the running steps of a task
together with the steps it drops. -/
theorem Quiet.update (h : Quiet db) {p : StepRow → Bool} {f : StepRow → StepRow}
    (hsteps : db'.steps = Table.update p f db.steps) (hspec : ∀ r, (f r).spec = r.spec)
    (hstart : ∀ r ∈ db.steps, p r = true → (f r).status ≠ .running)
    (hdrop : ∀ r ∈ db.steps, p r = true → (f r).dropped → ∀ r' ∈ db.steps, r'.task = r.task →
      r'.status = .running → p r' = true) : Quiet db' := by
  intro x hx x' hx' htask hdropped hrunning
  rw [hsteps] at hx hx'
  obtain ⟨r, hr, hspec_r, hcase⟩ := row_update hx hspec
  obtain ⟨r', hr', hspec_r', ⟨hp', rfl⟩ | ⟨hp', rfl⟩⟩ := row_update hx' hspec
  · exact hstart r' hr' hp' hrunning
  · rcases hcase with ⟨hp, rfl⟩ | ⟨-, rfl⟩
    · have htask' : x'.task = r.task := htask.trans (congrArg StepSpec.task hspec_r)
      rw [hdrop r hr hp hdropped x' hr' htask' hrunning] at hp'
      cases hp'
    · exact h x hr x' hr' htask hdropped hrunning

theorem insertTask_quiet {channel eventKey fingerprint agent actor approver : String}
    {plan : List Validated} {now : Time} (h : Quiet db) :
    Quiet (db.insertTask tenant channel eventKey fingerprint agent actor plan approver now) := by
  have hnew : ∀ s ∈ newSteps tenant db.drawn (db.drawn + 1) plan, s.status = .queued := by
    intro s hs
    obtain ⟨i, v, -, rfl⟩ := mem_newSteps.1 hs
    rfl
  intro r hr r' hr' htask hdropped hrunning
  rcases List.mem_append.1 hr with hr | hr
  · rcases List.mem_append.1 hr' with hr' | hr'
    · exact h r hr r' hr' htask hdropped hrunning
    · rw [hnew r' hr'] at hrunning
      cases hrunning
  · rcases hdropped with hd | hd <;> rw [hnew r hr] at hd <;> cases hd

variable {r : StepRow}

theorem expire_quiet (h : Quiet db) : Quiet (db.expire tenant r) := by
  unfold Db.expire
  refine Quiet.congr ?_ rfl
  refine h.update rfl (fun _ => rfl) (fun _ _ _ => by simp) fun _ _ _ hdropped => ?_
  rcases hdropped with hd | hd <;> cases hd

variable {c : Candidate}

theorem Live.not_running (ho : Orderly db) (hc : Live db tenant c) (hr : r ∈ db.steps)
    (htask : r.task = c.step.task) : r.status ≠ .running := by
  intro hrunning
  have hne : r.id ≠ c.step.id := by
    intro hid
    rw [hc.only ho.wf hr hid] at hrunning
    have hpending := hc.pending
    rw [hrunning] at hpending
    cases hpending
  have hopened := ho.sequential.not_opened ho.placed (ho.wf.board_eq hc.step) (ho.wf.board_eq hr)
    htask hc.ready hc.pending hne
  rw [StepRow.cell, hrunning] at hopened
  cases hopened

theorem Live.skip_quiet (ho : Orderly db) (hc : Live db tenant c) (v : Review) (h : Quiet db) :
    Quiet (db.skip tenant c v) := by
  have hnone : ∀ {p : StepRow → Bool}, (∀ r, p r = true → r.id = c.step.id) →
      ∀ r ∈ db.steps, p r = true → ∀ r' ∈ db.steps, r'.task = r.task → r'.status = .running →
        p r' = true := by
    intro p hp r hr hpr r' hr' htask hrunning
    rw [hc.only ho.wf hr (hp r hpr)] at htask
    exact absurd hrunning (hc.not_running ho hr' htask)
  cases v with
  | inactive =>
    unfold Db.skip Db.retire
    refine Quiet.congr ?_ rfl
    refine h.update rfl (fun _ => rfl) (fun _ _ _ => by simp) fun r hr hp _ => ?_
    exact hnone (fun r hp => by simpa using (Bool.and_eq_true_iff.1 hp).2) r hr hp
  | failed error =>
    unfold Db.skip Db.failStep
    refine Quiet.congr ?_ rfl
    refine h.update rfl (fun _ => rfl) (fun _ _ _ => by simp) fun r hr hp _ => ?_
    exact hnone (fun r hp => of_decide_eq_true hp) r hr hp
  | waiting =>
    unfold Db.skip Db.park
    refine Quiet.congr ?_ rfl
    refine h.update rfl (fun _ => rfl) (fun _ _ _ => by simp) fun r hr hp _ => ?_
    exact hnone (fun r hp => of_decide_eq_true hp) r hr hp
  | granted => exact h

theorem Wf.tenant_eq (hwf : Wf db) (hr : r ∈ db.steps) {t : TaskRow} (ht : t ∈ db.tasks)
    (htask : t.id = r.task) : r.tenant = t.tenant := by
  obtain ⟨t', ht', hid, htenant⟩ := hwf.owned r hr
  rw [← htenant, hwf.tasks.eq_of_key ht' ht (hid.trans htask.symm)]

theorem Wf.same_tenant (hwf : Wf db) {r' : StepRow} (hr : r ∈ db.steps) (hr' : r' ∈ db.steps)
    (htask : r'.task = r.task) : r'.tenant = r.tenant := by
  obtain ⟨t, ht, hid, htenant⟩ := hwf.owned r hr
  rw [← htenant]
  exact hwf.tenant_eq hr' ht (hid.trans htask.symm)

theorem Live.not_dropped (hwf : Wf db) (hs : Synced db) (hc : Live db tenant c) (hr : r ∈ db.steps)
    (htask : r.task = c.step.task) : ¬ r.dropped := by
  have hactive := hc.active
  rw [hs c.row hc.row] at hactive
  obtain ⟨hfailed, hcancelled⟩ := summary_active hactive
  have htenant := hwf.tenant_eq hr hc.row (hc.owner.trans htask.symm)
  rintro (hd | hd)
  · exact hfailed (mem_states.2 ⟨r, hr, htenant, htask.trans hc.owner.symm, hd⟩)
  · exact hcancelled (mem_states.2 ⟨r, hr, htenant, htask.trans hc.owner.symm, hd⟩)

theorem Live.start_quiet (hwf : Wf db) (hs : Synced db) (hc : Live db tenant c) (worker : String)
    (lease : Time) (h : Quiet db) : Quiet (db.start tenant c worker lease) := by
  obtain ⟨hsteps, -, -⟩ := consume_frame db c
  intro x hx x' hx' htask hdropped hrunning
  obtain ⟨r, hr, hspec, ⟨-, rfl⟩ | ⟨-, rfl⟩⟩ := row_update hx fun _ => rfl
  · rcases hdropped with hd | hd <;> cases hd
  · obtain ⟨r', hr', hspec', ⟨hp', -⟩ | ⟨-, rfl⟩⟩ := row_update hx' fun _ => rfl
    · obtain rfl := hc.only hwf (hsteps ▸ hr') (of_decide_eq_true hp')
      have htask' : x.task = c.step.task := htask.symm.trans (congrArg StepSpec.task hspec')
      exact hc.not_dropped hwf hs (hsteps ▸ hr) htask' hdropped
    · exact h x (hsteps ▸ hr) x' (hsteps ▸ hr') htask hdropped hrunning

theorem pending_of_dropped {s : Status} (hactive : s.active = true)
    (hdropped : stoppedStatus s = .failed ∨ stoppedStatus s = .cancelled) : s.pending = true := by
  cases s <;> simp_all [stoppedStatus, Status.active, Status.pending]

theorem stopSteps_quiet (hwf : Wf db) {task : Uuid} {reason : String} (h : Quiet db) :
    Quiet (db.stopSteps tenant task reason) := by
  unfold Db.stopSteps
  refine Quiet.congr ?_ rfl
  refine h.update rfl (fun _ => rfl) (fun r _ _ => ?_) fun r hr hp _ r' hr' htask hrunning => ?_
  · simp only [stoppedStatus]
    split <;> simp
  · simp only [Bool.and_eq_true, decide_eq_true_eq] at hp ⊢
    exact ⟨⟨(hwf.same_tenant hr hr' htask).trans hp.1.1, htask.trans hp.1.2⟩, by simp [hrunning,
      Status.active]⟩

end Updates

/-! ### Harmless operations keep the tasks quiet -/

/-- The steps are in order, the tasks show their summaries, and the tasks are quiet. -/
structure Calm (db : Db) : Prop where
  orderly : Orderly db
  synced : Synced db
  quiet : Quiet db

theorem calm_empty : Calm {} where
  orderly := orderly_empty
  synced := synced_empty
  quiet := fun _ hr => absurd hr List.not_mem_nil

section Steps

variable {P : Platform} {env : Env} {db db' : Db} {tenant : String} {op : Op} {out : Reply}

theorem expireLeases_calm {now : Time} (h : Calm db) : Calm (db.expireLeases tenant now) := by
  refine expireLeases_induct h.orderly.wf h fun db r hwf hr hrunning _ hc => ?_
  have hmoves : Moves (fun _ _ => False) db (db.expire tenant r) := expire_moves hwf hr hrunning
  exact ⟨hc.orderly.moves hmoves, expire_synced hwf hc.synced hr, expire_quiet hc.quiet⟩

theorem Live.skip_calm {c : Candidate} (hc : Live db tenant c) (v : Review) (h : Calm db) :
    Calm (db.skip tenant c v) := by
  have hmoves : Moves (fun _ _ => True) db (db.skip tenant c v) :=
    hc.skip_moves h.orderly.wf v fun _ _ => trivial
  exact ⟨h.orderly.moves hmoves, hc.skip_synced h.orderly.wf v h.synced,
    hc.skip_quiet h.orderly v h.quiet⟩

/-- A harmless operation keeps the tasks quiet. -/
theorem Effect.quiet (h : Calm db) (hop : Harmless db op) (he : Effect P db op out db') :
    Quiet db' := by
  have hwf := h.orderly.wf
  cases he with
  | same => exact h.quiet
  | submitted => exact insertTask_quiet h.quiet
  | replied => exact insertTask_quiet h.quiet
  | @approved env tenant actor decision role a s t policy hdecision ha hs ht hpolicy _ hpending
      hexpires hstep =>
    unfold Db.decideStep
    refine Quiet.congr ?_ rfl
    refine h.quiet.update rfl (fun _ => rfl) (fun r _ _ => ?_) fun r hr hp hdropped r' hr' htask
      hrunning => ?_
    · simp only
      split <;> simp
    · rcases hdecision with rfl | rfl
      · rcases hdropped with hd | hd <;> cases hd
      · simp only [Bool.and_eq_true, decide_eq_true_eq] at hp
        obtain rfl := hwf.steps.eq_of_key hr hs hp.2
        exact absurd hrunning (hop rfl ⟨a, ha, hpending, hexpires⟩ r hr rfl hstep r' hr' htask)
  | @unclaimed env tenant worker device leaseSeconds cs _ hcs hskipped =>
    refine (reviewed_induct device [] hwf h.orderly.placed hskipped ?_ (p := Calm)
      (expireLeases_calm h) ?_).2.1.quiet
    · rcases hcs with rfl | rfl
      · exact List.nil_sublist _
      · exact (List.append_nil _).symm ▸ List.Sublist.refl _
    · exact fun db c _ v _ hlive _ hc => hlive.skip_calm v hc
  | @claimed env tenant worker device leaseSeconds skipped rest c db₁ hcs hskipped hreview =>
    obtain ⟨hwf₁, hc₁, hlive⟩ := reviewed_induct device (c :: rest) hwf h.orderly.placed hskipped
      (hcs ▸ List.Sublist.refl _) (p := Calm) (expireLeases_calm h)
      fun db c _ v _ hlive _ hc => hlive.skip_calm v hc
    exact (hlive c List.mem_cons_self).start_quiet hwf₁ hc₁.synced _ _ hc₁.quiet
  | @finished env r token result status error hr hrunning hstatus =>
    unfold Db.complete
    refine Quiet.congr ?_ rfl
    refine h.quiet.update rfl (fun _ => rfl) (fun _ _ _ => ?_) fun s hs hp _ r' hr' htask
      hrunning' => ?_
    · rcases hstatus with rfl | rfl | rfl <;> simp
    · obtain rfl := hwf.steps.eq_of_key hs hr (of_decide_eq_true hp)
      rw [h.orderly.one_running hr' hs htask hrunning' hrunning]
      exact hp
  | @cancelled env tenant t actor =>
    unfold Db.cancelTask
    refine Quiet.congr ?_ rfl
    refine h.quiet.update rfl (fun _ => rfl) (fun r _ _ => ?_) fun r hr hp _ r' hr' htask
      hrunning => ?_
    · simp only [stoppedStatus]
      split <;> simp
    · simp only [Bool.and_eq_true, decide_eq_true_eq] at hp ⊢
      exact ⟨⟨(hwf.same_tenant hr hr' htask).trans hp.1.1, htask.trans hp.1.2⟩, by simp [hrunning,
        Status.active]⟩
  | @reconciled env r actor role outcome evidence houtcome hr huncertain =>
    unfold Db.settleStep
    refine Quiet.congr ?_ rfl
    refine h.quiet.update rfl (fun _ => rfl) (fun _ _ _ => ?_) fun s hs hp _ r' hr' htask
      hrunning => ?_
    · simp only
      split <;> simp
    · -- a running step and an uncertain one are never in one task
      simp only [Bool.and_eq_true, decide_eq_true_eq] at hp
      obtain rfl := hwf.steps.eq_of_key hs hr hp.2
      have hid := h.orderly.sequential.one_opened h.orderly.placed (hwf.board_eq hr')
        (hwf.board_eq hs) htask (by simp [StepRow.cell, hrunning, Status.opened])
        (by simp [StepRow.cell, huncertain, Status.opened])
      rw [hwf.steps.eq_of_key hr' hs hid, huncertain] at hrunning
      cases hrunning
  | @provided r receipt hr huncertain =>
    unfold Db.provideStep
    refine Quiet.congr ?_ rfl
    refine h.quiet.update rfl (fun _ => rfl) (fun _ _ _ => by simp) fun _ _ _ hdropped => ?_
    rcases hdropped with hd | hd <;> cases hd
  | @froze env tenant actor =>
    have hq : Quiet (db.setFreeze tenant true) := h.quiet.congr rfl
    unfold Db.freezeSteps
    refine Quiet.congr ?_ refreshAll_steps
    refine hq.update rfl (fun _ => rfl) (fun _ _ _ => by simp) fun _ _ _ hdropped => ?_
    rcases hdropped with hd | hd <;> cases hd
  | resumed => exact h.quiet.congr rfl
  | @enrolled env tenant device actor revoked generation =>
    have hdetached : ((db.detach tenant device actor).setDevice tenant device revoked).steps =
        (db.detach tenant device actor).steps := rfl
    refine Quiet.congr ?_ hdetached
    unfold Db.detach
    refine Quiet.congr ?_ refreshAll_steps
    refine h.quiet.update rfl (fun _ => rfl) (fun r _ _ => ?_) fun r hr hp hdropped r' hr' htask
      hrunning => ?_
    · simp only [stoppedStatus]
      split <;> simp
    · simp only [Bool.and_eq_true, decide_eq_true_eq] at hp ⊢
      refine ⟨⟨(hwf.same_tenant hr hr' htask).trans hp.1.1, ?_⟩, by simp [hrunning, Status.active]⟩
      exact hop r hr hp.1.1 hp.1.2 (pending_of_dropped hp.2 hdropped) r' hr' htask hrunning
  | ended => exact h.quiet.congr rfl
  | @stopped tenant run task status status' reason actor linked _ =>
    unfold stopTask
    by_cases hactive : linked.status.active = true
    · rw [if_pos hactive]
      exact (stopSteps_quiet hwf h.quiet).congr rfl
    · rw [if_neg hactive]
      exact h.quiet.congr rfl
  | elsewhere => exact h.quiet.congr rfl

theorem Effect.calm (h : Calm db) (hop : Harmless db op) (he : Effect P db op out db') : Calm db' :=
  ⟨he.orderly h.orderly, he.synced h.orderly h.synced, he.quiet h hop⟩

theorem Step.calm (h : Calm db) (hs : guarded Harmless (Step P) db op db') : Calm db' := by
  obtain ⟨out, he, -⟩ := hs.1.effect
  exact he.calm h hs.2

/-! ### A terminal task is idle -/

variable {t : TaskRow}

theorem Wf.shows (hwf : Wf db) (ht : t ∈ db.tasks) : Shows db.board t.id (db.states t.tenant t.id) := by
  intro s
  rw [mem_states]
  constructor
  · rintro ⟨r, hr, -, htask, hstatus⟩
    exact ⟨r.id, r.cell, hwf.board_eq hr, htask, hstatus⟩
  · rintro ⟨i, c, hc, htask, hstatus⟩
    obtain ⟨r, hr, -, rfl⟩ := board_some hc
    exact ⟨r, hr, hwf.tenant_eq hr ht htask.symm, htask, hstatus⟩

/-- A terminal task is an idle pipeline. -/
theorem Calm.idle (h : Calm db) (ht : t ∈ db.tasks) (hterminal : t.status.terminal = true) :
    Idle db.board t.id := by
  have hshows := h.orderly.wf.shows ht
  rw [h.synced t ht] at hterminal
  obtain ⟨huncertain, hcases⟩ := summary_terminal hterminal
  refine ⟨?_, fun hrunning => ?_, fun hu => huncertain ((hshows _).2 hu)⟩
  · obtain ⟨s, hs, htask⟩ := h.orderly.wf.worked t ht
    exact ⟨s.status, s.id, s.cell, h.orderly.wf.board_eq hs, htask, rfl⟩
  · obtain ⟨r', hr', -, htask', hr'running⟩ := mem_states.1 ((hshows _).2 hrunning)
    have hdropped : ∀ status, status = .failed ∨ status = .cancelled →
        status ∉ db.states t.tenant t.id := by
      intro status hstatus hmem
      obtain ⟨r, hr, -, htask, rfl⟩ := mem_states.1 hmem
      exact h.quiet r hr r' hr' (htask'.trans htask.symm) hstatus hr'running
    rcases hcases with hf | hc | hs
    · exact hdropped _ (.inl rfl) hf
    · exact hdropped _ (.inr rfl) hc
    · cases hs _ ((hshows _).2 hrunning)

/-- No operation lets a step of a terminal task enter. -/
theorem Calm.no_entry (h : Calm db) (ht : t ∈ db.tasks) (hterminal : t.status.terminal = true) {c : Cell Uuid}
    {status : Status} (hentry : entries db out op c status) : c.pipeline ≠ t.id := by
  rintro htask
  cases op with
  | claim env tenant worker device leaseSeconds =>
    obtain ⟨⟨d, hd, hpipeline⟩, -⟩ := hentry
    have hlive := candidates_live hd
    have hexpired : Calm (db.expireLeases tenant env.now) := expireLeases_calm h
    have hmoves : Moves (fun _ _ => False) db (db.expireLeases tenant env.now) :=
      expireLeases_moves h.orderly.wf
    -- the expiry of leases leaves an idle task as it is
    have hclosed := ((moves_rounds h.orderly.wf hmoves).closed (h.idle ht hterminal)
      fun _ _ h => h.elim).2
    have hrow : d.row.id = t.id := hlive.owner.trans (hpipeline.trans htask)
    have hshows := hexpired.orderly.wf.shows hlive.row
    rw [hrow] at hshows
    rw [h.synced t ht] at hterminal
    have hsame := hclosed _ _ (h.orderly.wf.shows ht) hshows hterminal
    have hactive := hlive.active
    rw [hexpired.synced d.row hlive.row, hrow, hsame] at hactive
    revert hactive hterminal
    cases summary (db.states t.tenant t.id) <;> simp [Status.terminal, Status.active]
  | _ => exact hentry

/-- An operation keeps a terminal task, starts none of its steps and hands none out. -/
theorem Step.terminal (h : Calm db) (hs : guarded Harmless (Step P) db op db') (ht : t ∈ db.tasks)
    (hterminal : t.status.terminal = true) :
    t ∈ db'.tasks ∧ ∀ spec, handedOut P ⟨db, op, db'⟩ = some spec → spec.task ≠ t.id := by
  obtain ⟨out, he, hout⟩ := hs.1.effect
  have hc' := he.calm h hs.2
  have hclosed := (he.rounds h.orderly).closed (h.idle ht hterminal) fun c status hentry =>
    h.no_entry ht hterminal hentry
  obtain ⟨status, ht'⟩ := (he.moves h.orderly.wf h.orderly.placed).task ht
  have hstatus : status = t.status := by
    refine Eq.trans (hc'.synced _ ht') ?_
    rw [h.synced t ht] at hterminal ⊢
    have hshows := hc'.orderly.wf.shows ht'
    exact hclosed.2 _ _ (h.orderly.wf.shows ht) hshows hterminal
  refine ⟨by rwa [hstatus] at ht', fun spec hspec htask => ?_⟩
  obtain ⟨token, rfl⟩ := (hout spec).1 hspec
  obtain ⟨-, ⟨r, hr, rfl, hrunning⟩, -⟩ := he.handed h.orderly
  exact hclosed.1.running ⟨r.id, r.cell, hc'.orderly.wf.board_eq hr, htask, hrunning⟩

end Steps

/-! ### Runs -/

section Runs

variable {P : Platform} {τs τs' : List (Transition Db Op)} {db db' : Db}

theorem reachable_calm (h : Run (guarded Harmless (Step P)) {} τs db) : Calm db :=
  h.invariant calm_empty fun _ _ _ => Step.calm

/-- **A terminal status is absorbing**, in every run of harmless operations: the row of a terminal task
never changes again, no step of it runs, and none is handed out. -/
theorem terminal_absorbing (h : Run (guarded Harmless (Step P)) {} τs db)
    (h' : Run (guarded Harmless (Step P)) db τs' db') {t : TaskRow} (ht : t ∈ db.tasks)
    (hterminal : t.status.terminal = true) :
    t ∈ db'.tasks ∧ (∀ r ∈ db'.steps, r.task = t.id → r.status ≠ .running) ∧
      ∀ τ ∈ τs', ∀ spec, handedOut P τ = some spec → spec.task ≠ t.id := by
  have hcalm := reachable_calm h
  have hkeep : ∀ s op s', (Calm s ∧ t ∈ s.tasks) → guarded Harmless (Step P) s op s' →
      Calm s' ∧ t ∈ s'.tasks := fun s op s' hs hstep =>
    ⟨Step.calm hs.1 hstep, (Step.terminal hs.1 hstep hs.2 hterminal).1⟩
  obtain ⟨hcalm', ht'⟩ := h'.invariant (I := fun db => Calm db ∧ t ∈ db.tasks) ⟨hcalm, ht⟩ hkeep
  refine ⟨ht', fun r hr htask hrunning => ?_, fun τ hτ => ?_⟩
  · exact (hcalm'.idle ht' hterminal).running
      ⟨r.id, r.cell, hcalm'.orderly.wf.board_eq hr, htask, hrunning⟩
  · obtain ⟨hstep, hs⟩ := h'.always (I := fun db => Calm db ∧ t ∈ db.tasks) ⟨hcalm, ht⟩ hkeep hτ
    exact (Step.terminal hs.1 hstep hs.2 hterminal).2

/-- A task whose first step fails. -/
def failOps : List Op :=
  [sampleSubmit ["note", "pay"], sampleClaim 1,
    .finish (sampleEnv 2) "acme" 1 (some 3) (.obj []) .failed "refused"]

theorem terminal_absorbing_sample :
    (sampleDb failOps).tasks.map TaskRow.status = [.failed] ∧
    ∀ t ∈ (sampleDb failOps).tasks, t ∈ ([sampleClaim 3, sampleClaim 4].foldl
      (Db.after samplePlatform) (sampleDb failOps)).tasks := by
  have hstatus : ∀ t ∈ (sampleDb failOps).tasks, t.status.terminal = true := by decide +kernel
  have hrun : Run (guarded Harmless (Step samplePlatform)) {} (sampleTrace failOps)
      (sampleDb failOps) := by
    refine Run.nil.guardedCalls failOps fun τ hτ => ?_
    have hlabel := label_of_mem_trace hτ
    simp only [failOps, List.mem_cons, List.not_mem_nil, or_false] at hlabel
    rcases hlabel with h | h | h <;> rw [h] <;> trivial
  have hrest : Run (guarded Harmless (Step samplePlatform)) (sampleDb failOps)
      (trace (Db.after samplePlatform) (sampleDb failOps) [sampleClaim 3, sampleClaim 4])
      ([sampleClaim 3, sampleClaim 4].foldl (Db.after samplePlatform) (sampleDb failOps)) := by
    refine Run.nil.guardedCalls [sampleClaim 3, sampleClaim 4] fun τ hτ => ?_
    have hlabel := label_of_mem_trace hτ
    simp only [List.mem_cons, List.not_mem_nil, or_false] at hlabel
    rcases hlabel with h | h <;> rw [h] <;> trivial
  exact ⟨by decide +kernel, fun t ht => (terminal_absorbing hrun hrest ht (hstatus t ht)).1⟩

/-- A task whose second step is rejected while its first one runs. -/
def rejectOps : List Op :=
  [sampleSubmit ["note", "pay"], sampleClaim 1,
    .approve (sampleEnv 2) "acme" 2 "eve" "rejected" "owner"]

/-- A rejection cancels a task whose first step goes on running; when its lease expires, the status of
the task changes again. -/
theorem terminal_disturbed :
    (¬ ∀ (P : Platform) (τs : List (Transition Db Op)) (db : Db), Run (Step P) {} τs db →
      ∀ t ∈ db.tasks, t.status.terminal = true →
        ∀ r ∈ db.steps, r.task = t.id → r.status ≠ .running) ∧
    ¬ ∀ (P : Platform) (τs τs' : List (Transition Db Op)) (db db' : Db), Run (Step P) {} τs db →
      Run (Step P) db τs' db' → ∀ t ∈ db.tasks, t.status.terminal = true →
        ∀ t' ∈ db'.tasks, t'.id = t.id → t'.status = t.status := by
  obtain ⟨t, ht, hterminal, ⟨r, hr, htask, hrunning⟩, t', ht', hid, hstatus⟩ :
      ∃ t ∈ (sampleDb rejectOps).tasks, t.status.terminal = true ∧
        (∃ r ∈ (sampleDb rejectOps).steps, r.task = t.id ∧ r.status = .running) ∧
          ∃ t' ∈ ([sampleClaim 100].foldl (Db.after samplePlatform) (sampleDb rejectOps)).tasks,
            t'.id = t.id ∧ t'.status ≠ t.status := by
    decide +kernel
  refine ⟨fun h => ?_, fun h => ?_⟩
  · exact h samplePlatform _ _ (sample_run rejectOps) t ht hterminal r hr htask hrunning
  · exact hstatus (h samplePlatform _ _ _ _ (sample_run rejectOps) (Run.nil.calls [sampleClaim 100])
      t ht hterminal t' ht' hid)

end Runs

end AgentPlatform.Engine
