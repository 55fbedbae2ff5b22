import AgentPlatform.Engine.Destinations
import AgentPlatform.Engine.TaskStatus

/-!
# Tasks of one step

A delivery is a task of one step, and its task shows the status of that step. So once it has succeeded,
failed or been cancelled its row never changes again (`Effect.solo_kept`), with no condition on the
operations.
-/

namespace AgentPlatform.Engine

open Outcome Table Pipeline Runs

/-- The task has exactly one step. -/
def Solo (db : Db) (task : Uuid) : Prop :=
  ∃ spec ∈ db.specs, spec.task = task ∧ ∀ spec' ∈ db.specs, spec'.task = task → spec' = spec

section Solo

variable {P : Platform} {env : Env} {db db' : Db} {tenant agent : String} {op : Op} {out : Reply}
  {task : Uuid}

variable {spec : StepSpec}

theorem Wf.spec_drawn (hwf : Wf db) (hspec : spec ∈ db.specs) : spec.task < db.drawn := by
  obtain ⟨r, hr, rfl⟩ := List.mem_map.1 hspec
  obtain ⟨t, ht, hid, -⟩ := hwf.owned r hr
  have hlt : t.id < db.drawn := hwf.taskDrawn t ht
  exact lt_of_eq_of_lt hid.symm hlt

variable {actor channel eventKey : String}

theorem specs_insertTask_one {fingerprint approver : String} {v : Validated} {now : Time} :
    (db.insertTask tenant channel eventKey fingerprint agent actor [v] approver now).specs =
      db.specs ++ [⟨db.drawn + 1 + 0, db.drawn, tenant, 0, v.tool, v.args, v.risk, v.needed,
        v.fingerprint, v.device⟩] := by
  unfold Db.insertTask
  rw [specs_unmoved.refresh]
  exact List.map_append

theorem specs_of_insertTask_one (hwf : Wf db) {fingerprint approver : String} {v : Validated} {now : Time}
    (hspec : spec ∈ (db.insertTask tenant channel eventKey fingerprint agent actor [v] approver
      now).specs) (htask : spec.task = db.drawn) :
    spec = ⟨db.drawn + 1 + 0, db.drawn, tenant, 0, v.tool, v.args, v.risk, v.needed, v.fingerprint,
      v.device⟩ := by
  rw [specs_insertTask_one] at hspec
  rcases List.mem_append.1 hspec with hold | hnew
  · exact absurd htask (Nat.ne_of_lt (hwf.spec_drawn hold))
  · exact List.mem_singleton.1 hnew

theorem Effect.mem_specs (he : Effect P db op out db') (hspec : spec ∈ db'.specs) :
    spec ∈ db.specs ∨ spec.task = db.drawn := by
  obtain ⟨db₀, hw, heq⟩ := he.written specs_unmoved (fun _ _ _ _ _ h => h) fun _ _ _ _ _ _ h => h
  rw [heq] at hspec
  cases hw with
  | same | froze | enrolled | ended | elsewhere => exact .inl hspec
  | submitted | replied => exact (mem_specs_insertTask hspec).imp_right fun h => h.1

theorem Effect.specs_kept (ho : Orderly db) (he : Effect P db op out db') (hspec : spec ∈ db.specs) :
    spec ∈ db'.specs := by
  obtain ⟨r, hr, rfl⟩ := List.mem_map.1 hspec
  obtain ⟨r', hr', heq⟩ := (he.moves ho.wf ho.placed).spec hr
  exact heq ▸ List.mem_map_of_mem hr'

theorem Effect.solo (ho : Orderly db) (h : Solo db task) (he : Effect P db op out db') :
    Solo db' task := by
  obtain ⟨spec, hspec, htask, honly⟩ := h
  refine ⟨spec, he.specs_kept ho hspec, htask, fun spec' hspec' htask' => ?_⟩
  rcases he.mem_specs hspec' with hold | hnew
  · exact honly spec' hold htask'
  · -- the task was there before, so it is not the new one
    have hlt := ho.wf.spec_drawn hspec
    rw [htask, ← htask', hnew] at hlt
    exact absurd hlt (Nat.lt_irrefl _)

/-- The task of a plan of one step has one step. -/
theorem solo_of_submit (ho : Orderly db) {step : Json} {id : Uuid}
    (h : submit P env db tenant channel eventKey agent [step] actor = .ok (db', id))
    (hnew : db.taskOf? tenant channel eventKey = none) : id = db.drawn ∧ Solo db' id := by
  simp only [submit, bind_eq_ok, exists_unit, ensure_eq_ok] at h
  obtain ⟨-, -, plan, hplan, -, h⟩ := h
  obtain ⟨policy, -, hforall⟩ := validated_cases hplan
  obtain ⟨v, rfl⟩ : ∃ v, plan = [v] := by
    cases hforall with
    | cons _ hrest =>
      cases hrest
      exact ⟨_, rfl⟩
  rcases createTask_cases h with ⟨old, hold, -, -⟩ | ⟨-, rfl, -, fingerprint, rfl⟩
  · rw [hnew] at hold
    cases hold
  · refine ⟨rfl, _, ?_, rfl, fun spec hspec htask => specs_of_insertTask_one ho.wf hspec htask⟩
    rw [specs_insertTask_one]
    exact List.mem_append_right _ List.mem_cons_self

/-- A task of one step shows the status of its step. -/
theorem solo_status (ho : Orderly db) (hs : Synced db) (h : Solo db task) {t : TaskRow}
    (ht : t ∈ db.tasks) (hid : t.id = task) :
    ∃ r ∈ db.steps, r.task = task ∧ r.status = t.status := by
  obtain ⟨spec, hspec, htask, honly⟩ := h
  obtain ⟨r, hr, rfl⟩ := List.mem_map.1 hspec
  refine ⟨r, hr, htask, ?_⟩
  rw [hs t ht]
  have hmem : r.status ∈ db.states t.tenant t.id := by
    obtain ⟨t', ht', hid', htenant⟩ := ho.wf.owned r hr
    obtain rfl := ho.wf.tasks.eq_of_key ht' ht (hid'.trans (htask.trans hid.symm))
    exact mem_states.2 ⟨r, hr, htenant.symm, htask.trans hid.symm, rfl⟩
  refine (summary_const (List.ne_nil_of_mem hmem) fun status hstatus => ?_).symm
  obtain ⟨r', hr', -, htask', rfl⟩ := mem_states.1 hstatus
  have hsame : r'.spec = r.spec := honly r'.spec (List.mem_map_of_mem hr') (htask'.trans hid)
  rw [ho.wf.steps.eq_of_key hr' hr (congrArg StepSpec.id hsame)]

theorem Effect.solo_step (ho : Orderly db) (h : Solo db task) (he : Effect P db op out db')
    {r r' : StepRow} (hr : r ∈ db.steps) (htask : r.task = task) (hr' : r' ∈ db'.steps)
    (htask' : r'.task = task) : r'.id = r.id := by
  obtain ⟨spec, -, -, honly⟩ := he.solo ho h
  have hkept : r.spec ∈ db'.specs := he.specs_kept ho (List.mem_map_of_mem hr)
  have hsame : r'.spec = r.spec := by
    rw [honly r'.spec (List.mem_map_of_mem hr') htask', honly r.spec hkept htask]
  exact congrArg StepSpec.id hsame

/-- **A terminal task of one step stays as it is.** -/
theorem Effect.solo_kept (ho : Orderly db) (hs : Synced db) (h : Solo db task)
    (he : Effect P db op out db') {t : TaskRow} (ht : t ∈ db.tasks) (hid : t.id = task)
    (hterminal : t.status.terminal = true) : t ∈ db'.tasks := by
  obtain ⟨r, hr, htask, hstatus⟩ := solo_status ho hs h ht hid
  obtain ⟨status, ht'⟩ := (he.moves ho.wf ho.placed).task ht
  have ho' := he.orderly ho
  obtain ⟨r', hr', htask', hstatus'⟩ :=
    solo_status ho' (he.synced ho hs) (he.solo ho h) ht' hid
  -- the step after the operation is the one before it, which is over
  have hcell : db'.board r.id = some r.cell := by
    refine (he.rounds ho).terminal (ho.wf.board_eq hr) ?_
    change r.status.terminal = true
    rw [hstatus]
    exact hterminal
  have hcell' : db'.board r.id = some r'.cell := by
    rw [← ho'.wf.board_eq hr', he.solo_step ho h hr htask hr' htask']
  have hsame' : r'.status = r.status :=
    congrArg Cell.status (Option.some.inj (hcell'.symm.trans hcell))
  have hkept : status = t.status := hstatus'.symm.trans (hsame'.trans hstatus)
  subst hkept
  exact ht'

/-- A task of one step that is active after an operation was active before it. -/
theorem Effect.solo_active (ho : Orderly db) (hs : Synced db) (h : Solo db task)
    (he : Effect P db op out db') {t' : TaskRow} (ht' : t' ∈ db'.tasks) (hid' : t'.id = task)
    (hactive : t'.status.active = true) : ∃ t ∈ db.tasks, t.id = task ∧ t.status.active = true := by
  obtain ⟨t, ht, hid⟩ : ∃ t ∈ db.tasks, t.id = task := by
    obtain ⟨spec, hspec, htask, -⟩ := h
    obtain ⟨r, hr, rfl⟩ := List.mem_map.1 hspec
    obtain ⟨t, ht, hid, -⟩ := ho.wf.owned r hr
    exact ⟨t, ht, hid.trans htask⟩
  refine ⟨t, ht, hid, ?_⟩
  by_contra hover
  obtain ⟨r, hr, htask, hstatus⟩ := solo_status ho hs h ht hid
  have ho' := he.orderly ho
  obtain ⟨r', hr', htask', hstatus'⟩ := solo_status ho' (he.synced ho hs) (he.solo ho h) ht' hid'
  -- a step that is over stays over, and the task shows its step
  have hclosed : Over db.board r.id := by
    refine ⟨r.cell, ho.wf.board_eq hr, ?_⟩
    show r.status.pending = false ∧ r.status ≠ .running
    rw [hstatus]
    cases hcase : t.status <;> simp [hcase, Status.active, Status.pending] at hover ⊢
  obtain ⟨c, hc, hpending, hrunning⟩ := (he.rounds ho).over hclosed
  rw [← he.solo_step ho h hr htask hr' htask', ho'.wf.board_eq hr'] at hc
  obtain rfl := Option.some.inj hc
  change r'.status.pending = false at hpending
  change r'.status ≠ .running at hrunning
  rw [hstatus'] at hpending hrunning
  cases hcase : t'.status <;> simp [hcase, Status.active, Status.pending] at hactive hpending hrunning

end Solo

end AgentPlatform.Engine
