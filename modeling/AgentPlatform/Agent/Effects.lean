import AgentPlatform.Agent.Loop
import AgentPlatform.Engine.Effects

/-!
# What one step of the loop can do

`Wrote` lists the writes of the loop's transactions with what each of them checked; `Effect` adds what
they do to the planners. A planner holds its reservation until it calls: an `Effect` gives a planner a
reservation only where a call is reserved for it (`reserved`, `repaired`).
-/

namespace AgentPlatform.Agent

open Outcome Engine Table Runs

/-- The reservation a planner holds, until the planner is called. -/
def Stage.held? : Stage → Option Reservation
  | .reserved r | .cleared r => some r
  | _ => none

/-- Planners that took up nothing. -/
def Released (before after : ℕ → Stage) : Prop := ∀ w, after w = before w ∨ (after w).held? = none

/-- The row `_reserve` writes. -/
def RunRow.planned (r : RunRow) (claim : Uuid) (lease : Time) : RunRow :=
  { r with status := .planning, claim := some claim, lease := lease, calls := r.calls + 1 }

/-- The row `_repair` writes. -/
def RunRow.extended (r : RunRow) (lease : Time) : RunRow :=
  { r with calls := r.calls + 1, lease := lease }

/-- The row `_commit` writes for a new task. -/
def RunRow.waiting (r : RunRow) (task : Uuid) : RunRow :=
  { r with
    status := .waitingTask, steps := r.steps + 1, currentTask := some task, claim := none, lease := 0 }

/-- The row `_commit` writes for an answer or a question. -/
def RunRow.closed (r : RunRow) (status : RunStatus) (answer : String) (evidence : List String) :
    RunRow :=
  { r with status := status, answer := answer, evidence := evidence, claim := none, lease := 0 }

/-- The row `_stop` writes. -/
def RunRow.stopped (r : RunRow) (status : RunStatus) (reason : String) : RunRow :=
  { r with status := status, error := reason, claim := none, lease := 0 }

/-- The writes of a transaction of the loop, or of others between them. -/
inductive Wrote (P : Platform) (s : State) : State → Prop
  | same : Wrote P s s
  | created {env : Env} {row : RunRow} (hid : row.id = s.minted) (hstatus : row.status = .pending)
      (hsteps : row.steps = 0) (hcalls : row.calls = 0)
      (hactive : env.requireActive s.view row.tenant = .ok ()) :
      Wrote P s { s with minted := s.minted + 1, runs := s.runs ++ [row] }
  | stopped {row : RunRow} (hrow : s.row? row.tenant row.id = some row)
      (hactive : active row.status = true) {status : RunStatus} (hstatus : active status = false)
      (hfailed : status ≠ .succeeded) (reason actor : String) :
      Wrote P s (s.stop row status reason actor)
  | linked {env : Env} {row : RunRow} {name fingerprint : String} {args : Json} {db : Db} {task : Uuid}
      (hrow : s.row? row.tenant row.id = some row) (hplanning : row.status = .planning)
      (hactive : env.requireActive s.view row.tenant = .ok ()) (hsteps : row.steps < row.maxSteps)
      (hsubmit : submit P env s.view row.tenant row.channel (taskKey row) row.agent
        [.obj [("tool", .str name), ("args", args)]] row.actor = .ok (db, task))
      (hnew : ∀ l ∈ s.turns, ¬ (l.run = row.id ∧ l.position = row.steps) ∧
        ¬ (l.tenant = row.tenant ∧ l.task = task)) :
      Wrote P s (State.setRun { s with
        db := db
        turns := s.turns ++ [{ tenant := row.tenant, run := row.id, task := task,
                               position := row.steps, actionFingerprint := fingerprint }] } row
        fun r => r.waiting task)
  | answered {row : RunRow} {obs : List Observation} {answer : String} {evidence : List String}
      (hrow : s.row? row.tenant row.id = some row) (hplanning : row.status = .planning)
      (hobs : observations s row = .ok obs) (hne : evidence ≠ [])
      (hmem : ∀ e ∈ evidence, e ∈ obs.map Observation.evidenceId) (hnodup : evidence.Nodup) :
      Wrote P s (s.setRun row fun r => r.closed .succeeded answer evidence)
  | asked {row : RunRow} {question : String} (hrow : s.row? row.tenant row.id = some row)
      (hplanning : row.status = .planning) :
      Wrote P s (s.setRun row fun r => r.closed .needsInput question [])
  | engine {op : Op} (hop : offLoop op = true) : Wrote P s { s with db := s.view.after P op }
  | inbound (events : List EventRow) : Wrote P s { s with db := { s.db with events := events } }

/-- What a label can do. -/
inductive Effect (P : Platform) (s : State) : State → Prop
  | wrote {t : State} {planners : ℕ → Stage} (hwrote : Wrote P s t)
      (hreleased : Released s.planners planners) : Effect P s { t with planners := planners }
  | cleared {w : ℕ} {r : Reservation} (hheld : s.planners w = .reserved r) :
      Effect P s (s.goto w (.cleared r))
  | reserved {w : ℕ} {row : RunRow} {obs : List Observation} {lease : Time} {repairs : ℕ}
      (hrow : s.row? row.tenant row.id = some row) (hactive : active row.status = true)
      (hcalls : row.calls < row.maxCalls) :
      Effect P s ((State.setRun { s with minted := s.minted + 1 } row fun r =>
        r.planned s.minted lease).goto w
          (.reserved ⟨row.tenant, row.id, s.minted, context row obs, repairs⟩))
  | repaired {w : ℕ} {row : RunRow} {r : Reservation} {obs : List Observation} {lease : Time}
      {rejected : Json × String} {repairs : ℕ} (hrow : s.row? row.tenant row.id = some row)
      (hplanning : row.status = .planning) (hrun : r.run = row.id)
      (hcalls : row.calls < row.maxCalls) :
      Effect P s ((s.setRun row fun r => r.extended lease).goto w
        (.reserved { r with
          context := { context row obs with repair := some rejected }, repairs := repairs }))

section Transactions

variable {P : Platform} {env : Env} {s t : State} {tenant : String} {run : Uuid}

variable {row : RunRow}

theorem row?_eq_some (h : s.row? tenant run = some row) :
    row ∈ s.runs ∧ row.tenant = tenant ∧ row.id = run := by
  have hfound := List.find?_some h
  simp only [Bool.and_eq_true, decide_eq_true_eq] at hfound
  exact ⟨List.mem_of_find?_eq_some h, hfound⟩

theorem row?_self (h : s.row? tenant run = some row) : s.row? row.tenant row.id = some row := by
  obtain ⟨-, htenant, hid⟩ := row?_eq_some h
  rw [htenant, hid]
  exact h

theorem create_wrote {key agent text actor channel : String} {maxSteps maxSeconds : ℤ} {id : Uuid}
    (h : create P env s tenant key agent text actor maxSteps maxSeconds channel = .ok (t, id)) :
    Wrote P s t := by
  simp only [create, bind_eq_ok, exists_unit, ensure_eq_ok] at h
  obtain ⟨-, -, -, -, policy, -, -, -, h⟩ := h
  split at h
  · simp only [bind_eq_ok, exists_unit, pure_eq_ok, Prod.mk.injEq] at h
    obtain ⟨-, rfl, -⟩ := h
    exact .same
  · simp only [bind_eq_ok, exists_unit, pure_eq_ok, Prod.mk.injEq] at h
    obtain ⟨hactive, -, rfl, -⟩ := h
    exact .created rfl rfl rfl rfl hactive

theorem cancel_wrote {actor : String} {u : Unit} (h : cancel env s tenant run actor = .ok (t, u)) :
    Wrote P s t := by
  simp only [cancel, bind_eq_ok, exists_unit, need_eq_ok] at h
  obtain ⟨-, row, hrow, h⟩ := h
  split at h
  · rename_i hactive
    simp only [pure_eq_ok, Prod.mk.injEq] at h
    obtain ⟨rfl, -⟩ := h
    exact .stopped (row?_self hrow) hactive rfl (by simp) _ _
  · simp only [pure_eq_ok, Prod.mk.injEq] at h
    obtain ⟨rfl, -⟩ := h
    exact .same

theorem taskVerdict_stop {t : Option TaskRow} {status : RunStatus} {reason : String}
    (h : taskVerdict t = some (.stop status reason)) : active status = false ∧ status ≠ .succeeded := by
  unfold taskVerdict at h
  split at h
  · obtain ⟨rfl, -⟩ := Verdict.stop.inj (Option.some.inj h)
    exact ⟨rfl, by simp⟩
  · split at h <;> cases h <;> exact ⟨rfl, by simp⟩

variable {obs : List Observation}

theorem taskVerdict_ne_go {t : Option TaskRow} : taskVerdict t ≠ some (.go obs) := by
  unfold taskVerdict
  split
  · simp
  · split <;> simp

/-- What the checks of `_reserve` say. -/
theorem verdict_cases {v : Verdict} (h : verdict env s row = .ok v) :
    v = .stay ∨
      (active row.status = true ∧ ∃ status reason, v = .stop status reason ∧
        active status = false ∧ status ≠ .succeeded) ∨
      active row.status = true ∧ row.calls < row.maxCalls ∧ ∃ obs, v = .go obs := by
  have hstop : ∀ {reason : String}, active row.status = true → v = .stop .escalated reason →
      active row.status = true ∧ ∃ status reason, v = .stop status reason ∧
        active status = false ∧ status ≠ .succeeded :=
    fun hactive hv => ⟨hactive, _, _, hv, rfl, by simp⟩
  unfold verdict at h
  split at h
  · exact .inl (Except.ok.inj h).symm
  · rename_i hactive
    replace hactive : active row.status = true := by simpa using hactive
    split at h
    · exact .inr (.inl (hstop hactive (Except.ok.inj h).symm))
    · split at h
      · split at h
        · exact .inr (.inl (hstop hactive (Except.ok.inj h).symm))
        · cases h
      · split at h
        · split at h
          · exact .inr (.inl (hstop hactive (Except.ok.inj h).symm))
          · exact .inl (Except.ok.inj h).symm
        · split at h
          · exact .inl (Except.ok.inj h).symm
          · split at h
            · rename_i v' hv'
              obtain rfl := Except.ok.inj h
              split at hv'
              · cases v' with
                | stay => exact .inl rfl
                | stop status reason =>
                  exact .inr (.inl ⟨hactive, status, reason, rfl, taskVerdict_stop hv'⟩)
                | go obs => exact absurd hv' taskVerdict_ne_go
              · cases hv'
            · split at h
              · exact .inr (.inl (hstop hactive (Except.ok.inj h).symm))
              · rename_i hcalls
                split at h
                · exact .inr (.inr ⟨hactive, Nat.lt_of_not_le hcalls, _, (Except.ok.inj h).symm⟩)
                · split at h
                  · exact .inr (.inl (hstop hactive (Except.ok.inj h).symm))
                  · cases h

/-- A reservation writes the run for the planner that gets it, and nothing else does. -/
theorem reserve_cases {repairs : ℕ} {r? : Option Reservation}
    (h : reserve env s tenant run repairs = .ok (t, r?)) :
    (r? = none ∧ Wrote P s t) ∨ ∃ row obs lease, s.row? row.tenant row.id = some row ∧
      active row.status = true ∧ row.calls < row.maxCalls ∧
      t = State.setRun { s with minted := s.minted + 1 } row (fun r => r.planned s.minted lease) ∧
      r? = some ⟨row.tenant, row.id, s.minted, context row obs, repairs⟩ := by
  simp only [reserve, bind_eq_ok, need_eq_ok] at h
  obtain ⟨row, hrow, v, hv, h⟩ := h
  have hself := row?_self hrow
  obtain ⟨-, rfl, rfl⟩ := row?_eq_some hrow
  rcases verdict_cases hv with rfl | ⟨hactive, status, reason, rfl, hstatus, hne⟩ |
    ⟨hactive, hcalls, obs, rfl⟩
  · simp only [pure_eq_ok, Prod.mk.injEq] at h
    obtain ⟨rfl, rfl⟩ := h
    exact .inl ⟨rfl, .same⟩
  · simp only [pure_eq_ok, Prod.mk.injEq] at h
    obtain ⟨rfl, rfl⟩ := h
    exact .inl ⟨rfl, .stopped hself hactive hstatus hne _ _⟩
  · simp only [pure_eq_ok, Prod.mk.injEq] at h
    obtain ⟨rfl, rfl⟩ := h
    exact .inr ⟨row, obs, _, hself, hactive, hcalls, rfl, rfl⟩

/-- What an accepted decision was checked for. -/
theorem decision_cases {d : Json} {a : Action} (h : decision P env row obs d = .ok a) :
    (∃ name args, a = .tool name args ∧ row.steps < row.maxSteps) ∨
      (∃ answer evidence, a = .final answer evidence ∧ evidence ≠ [] ∧
        (∀ e ∈ evidence, e ∈ obs.map Observation.evidenceId) ∧ evidence.Nodup) ∨
      ∃ question, a = .ask question := by
  simp only [decision, bind_eq_ok, exists_unit] at h
  obtain ⟨-, h⟩ := h
  split at h
  · simp only [bind_eq_ok, exists_unit] at h
    obtain ⟨-, h⟩ := h
    split at h
    · simp only [bind_eq_ok, exists_unit, ensure_eq_ok, pure_eq_ok] at h
      obtain ⟨hsteps, -, tool, -, -, plan, -, rfl⟩ := h
      exact .inl ⟨_, _, rfl, hsteps⟩
    · cases h
  · split at h
    · simp only [bind_eq_ok, exists_unit] at h
      obtain ⟨-, h⟩ := h
      split at h
      · simp only [bind_eq_ok, exists_unit] at h
        obtain ⟨-, h⟩ := h
        split at h
        · simp only [bind_eq_ok, exists_unit, ensure_eq_ok, need_eq_ok, pure_eq_ok] at h
          obtain ⟨evidence, -, ⟨⟨hone, -⟩, hmem, hnodup⟩, rfl⟩ := h
          exact .inr (.inl ⟨_, evidence, rfl, List.ne_nil_of_length_pos hone, hmem, hnodup⟩)
        · cases h
      · cases h
    · split at h
      · simp only [bind_eq_ok, exists_unit] at h
        obtain ⟨-, h⟩ := h
        split at h
        · simp only [bind_eq_ok, exists_unit, pure_eq_ok] at h
          obtain ⟨-, rfl⟩ := h
          exact .inr (.inr ⟨_, rfl⟩)
        · cases h
      · cases h

/-- The writes of an accepted decision. -/
theorem perform_wrote {d : Json} (hrow : s.row? row.tenant row.id = some row)
    (hplanning : row.status = .planning) (hactive : env.requireActive s.view row.tenant = .ok ())
    (hobs : observations s row = .ok obs) (h : (decision P env row obs d).bind (perform P env s row) = .ok t) :
    Wrote P s t := by
  obtain ⟨a, ha, h⟩ := bind_eq_ok.1 h
  rcases decision_cases ha with ⟨name, args, rfl, hsteps⟩ |
    ⟨answer, evidence, rfl, hne, hmem, hnodup⟩ | ⟨question, rfl⟩
  · simp only [perform, bind_eq_ok, exists_unit, ensure_eq_ok, pure_eq_ok] at h
    obtain ⟨-, ⟨db, task⟩, hsubmit, hunique, rfl⟩ := h
    refine .linked hrow hplanning hactive hsteps hsubmit fun l hl => ?_
    have hfalse := List.any_eq_false.1 hunique l hl
    simp only [Bool.or_eq_true, decide_eq_true_eq, not_or] at hfalse
    exact hfalse
  · simp only [perform, pure_eq_ok] at h
    subst h
    exact .answered hrow hplanning hobs hne hmem hnodup
  · simp only [perform, pure_eq_ok] at h
    subst h
    exact .asked hrow hplanning

/-- `_commit` writes what a decision or its rejection writes, or reserves the repair call. -/
theorem commitDecision_cases {claim : Uuid} {d? : Option Json} {repairs : Bool} {c : Committed}
    (h : commitDecision P env s tenant run claim d? repairs = .ok (t, c)) :
    ((∃ changed, c = .done changed) ∧ Wrote P s t) ∨ d? ≠ none ∧ ∃ row obs lease rejected,
      s.row? row.tenant row.id = some row ∧ row.id = run ∧ row.status = .planning ∧
        row.calls < row.maxCalls ∧ t = s.setRun row (fun r => r.extended lease) ∧
        c = .repair { context row obs with repair := some rejected } := by
  simp only [commitDecision, bind_eq_ok, need_eq_ok] at h
  obtain ⟨row, hrow, h⟩ := h
  have hself := row?_self hrow
  obtain ⟨-, rfl, rfl⟩ := row?_eq_some hrow
  have hdone : ∀ {t' : State} {b : Bool}, (t', Committed.done b) = (t, c) → Wrote P s t' →
      (∃ changed, c = .done changed) ∧ Wrote P s t := by
    rintro t' b heq hwrote
    obtain ⟨rfl, rfl⟩ := Prod.mk.inj heq
    exact ⟨⟨b, rfl⟩, hwrote⟩
  split at h
  · exact .inl (hdone (pure_eq_ok.1 h) .same)
  · rename_i hclaim
    have hplanning : row.status = .planning := by
      by_contra hne
      exact hclaim (.inl hne)
    have hstop : ∀ reason, Wrote P s (s.stop row .escalated reason) := fun reason =>
      .stopped hself (by rw [hplanning]; rfl) rfl (by simp) reason _
    split at h
    · exact .inl (hdone (pure_eq_ok.1 h) (hstop _))
    · split at h
      · split at h
        · exact .inl (hdone (pure_eq_ok.1 h) (hstop _))
        · cases h
      · rename_i hauthority
        obtain ⟨_, hactive, -⟩ := bind_eq_ok.1 hauthority
        split at h
        · exact .inl (hdone (pure_eq_ok.1 h) (hstop _))
        · split at h
          · split at h
            · exact .inl (hdone (pure_eq_ok.1 h) (hstop _))
            · cases h
          · rename_i obs hobs
            split at h
            · rename_i s' hperform
              exact .inl (hdone (pure_eq_ok.1 h) (perform_wrote hself hplanning hactive hobs hperform))
            · split at h
              · split at h
                · rename_i hrepair
                  obtain ⟨rfl, rfl⟩ := Prod.mk.inj (pure_eq_ok.1 h)
                  exact .inr ⟨by simp, row, obs, _, _, hself, rfl, hplanning, hrepair.2.2, rfl, rfl⟩
                · exact .inl (hdone (pure_eq_ok.1 h) (hstop _))
              · cases h

end Transactions

/-! ### The planners -/

section Planners

variable {P : Platform} {s t : State} {l : Label}

theorem released_refl (planners : ℕ → Stage) : Released planners planners := fun _ => .inl rfl

theorem released_update {planners : ℕ → Stage} {w : ℕ} {stage : Stage} (h : stage.held? = none) :
    Released planners (Function.update planners w stage) := by
  intro w'
  by_cases hw : w' = w
  · subst hw
    rw [Function.update_self]
    exact .inr h
  · rw [Function.update_of_ne hw]
    exact .inl rfl

theorem Wrote.planners (h : Wrote P s t) : t.planners = s.planners := by
  cases h with
  | stopped =>
    unfold State.stop
    split
    · rfl
    · split <;> rfl
  | _ => rfl

theorem Wrote.effect (h : Wrote P s t) : Effect P s t := by
  have heffect : Effect P s { t with planners := s.planners } := .wrote h (released_refl _)
  rwa [← h.planners] at heffect

theorem Wrote.goto (h : Wrote P s t) (w : ℕ) {stage : Stage} (hstage : stage.held? = none) :
    Effect P s (t.goto w stage) := by
  unfold State.goto
  rw [h.planners]
  exact .wrote h (released_update hstage)

/-- **What a step can do.** -/
theorem Step.effect (h : Step P s l t) : Effect P s t := by
  obtain rfl := h
  have hcommit : ∀ {α : Type} {x : Except Err (State × α)}, (∀ t a, x = .ok (t, a) → Wrote P s t) →
      Effect P s (Outcome.commit s x) := by
    intro α x hx
    refine Wrote.effect ?_
    exact commit_keeps (p := Wrote P s) .same hx
  delta State.after
  cases l with
  | create => exact hcommit fun t id h => create_wrote h
  | cancel => exact hcommit fun t u h => cancel_wrote h
  | reserve w env tenant run supportsRepair =>
    dsimp only
    split
    · rename_i t r hstage hx
      rcases reserve_cases (P := P) hx with ⟨hnone, -⟩ | ⟨row, obs, lease, hrow, hactive, hcalls, rfl, hr⟩
      · cases hnone
      · obtain rfl := Option.some.inj hr
        exact .reserved hrow hactive hcalls
    · rename_i t hstage hx
      rcases reserve_cases (P := P) hx with ⟨-, hwrote⟩ | ⟨row, obs, lease, -, -, -, -, hr⟩
      · exact hwrote.effect
      · cases hr
    · exact Wrote.same.effect
  | check w env =>
    dsimp only
    split
    · rename_i r hstage
      split
      · exact .cleared hstage
      · exact Wrote.same.goto w rfl
      · exact Wrote.same.goto w rfl
    · exact Wrote.same.effect
  | invoke w answer =>
    dsimp only
    split
    · split
      · exact Wrote.same.goto w rfl
      · exact Wrote.same.goto w rfl
    · exact Wrote.same.effect
  | commit w env =>
    dsimp only
    split
    · rename_i r d hstage
      split
      · rename_i t context hx
        rcases commitDecision_cases hx with ⟨⟨changed, hc⟩, -⟩ |
          ⟨-, row, obs, lease, rejected, hrow, hid, hplanning, hcalls, rfl, hc⟩
        · cases hc
        · obtain rfl := Committed.repair.inj hc
          exact .repaired hrow hplanning hid.symm hcalls
      · rename_i t changed hx
        rcases commitDecision_cases hx with ⟨-, hwrote⟩ | ⟨-, row, obs, lease, rejected, -, -, -, -, -, hc⟩
        · exact hwrote.goto w rfl
        · cases hc
      · exact Wrote.same.goto w rfl
    · rename_i r again hstage
      split
      · rename_i t c hx
        rcases commitDecision_cases hx with ⟨-, hwrote⟩ | ⟨hsome, -⟩
        · exact hwrote.goto w rfl
        · exact absurd rfl hsome
      · refine Wrote.same.goto w ?_
        split <;> rfl
    · exact Wrote.same.effect
  | crash w => exact Wrote.same.goto w rfl
  | engine op =>
    dsimp only
    split
    · exact (Wrote.engine ‹_›).effect
    · exact Wrote.same.effect
  | inbound events => exact (Wrote.inbound events).effect

end Planners

end AgentPlatform.Agent
