import Mathlib.Order.Interval.Finset.Nat
import AgentPlatform.Agent.Effects
import AgentPlatform.Engine.Sequencing

/-!
# The budgets of a run

`Budgeted` is the invariant of the loop's tables: no run exceeds its budgets, and its turns are
numbered without a gap. A planner's reservation has the index of its call among the calls of the run
(`Reservation.key`); `Apart` says that no two planners hold the same one, so that a call is made at
most once for each index that was counted (`run_budgets`).
-/

namespace AgentPlatform.Agent

open Outcome Engine Table Runs

/-- The tables of the loop are in order. -/
structure Budgeted (s : State) : Prop where
  keyed : Keyed (fun r : RunRow => r.id) s.runs
  minted : ∀ r ∈ s.runs, r.id < s.minted
  owned : ∀ l ∈ s.turns, ∃ r ∈ s.runs, r.id = l.run
  steps : ∀ r ∈ s.runs, r.steps ≤ r.maxSteps
  calls : ∀ r ∈ s.runs, r.calls ≤ r.maxCalls
  positions : ∀ r ∈ s.runs, (s.turns.filter fun l => l.run = r.id).map TurnRow.position =
    List.range r.steps

/-- The call a reservation is for: its run, and its index among the run's calls. -/
def Reservation.key (r : Reservation) : Uuid × ℕ := (r.run, r.context.callIndex)

/-- A call that the run has counted. -/
def Counted (s : State) (k : Uuid × ℕ) : Prop :=
  ∃ row ∈ s.runs, row.id = k.1 ∧ 1 ≤ k.2 ∧ k.2 ≤ row.calls

/-- The planners hold reservations of different calls, which are counted. -/
structure Apart (s : State) : Prop where
  counted : ∀ w r, (s.planners w).held? = some r → Counted s r.key
  apart : ∀ w w' r r', (s.planners w).held? = some r → (s.planners w').held? = some r' →
    r.key = r'.key → w = w'

section Rows

variable {P : Platform} {s t : State} {row : RunRow} {f : RunRow → RunRow}

theorem mem_setRun (h : Keyed (fun r : RunRow => r.id) s.runs) (hrow : row ∈ s.runs) {r' : RunRow}
    (hr' : r' ∈ (s.setRun row f).runs) : r' = f row ∨ r' ∈ s.runs ∧ r'.id ≠ row.id := by
  obtain ⟨r, hr, rfl⟩ := mem_update.1 hr'
  split
  · rename_i hp
    simp only [Bool.and_eq_true, decide_eq_true_eq] at hp
    exact .inl (congrArg f (h.eq_of_key hr hrow hp.2))
  · rename_i hp
    refine .inr ⟨hr, fun hid => hp ?_⟩
    obtain rfl : r = row := h.eq_of_key hr hrow hid
    simp

theorem setRun_mem (hrow : row ∈ s.runs) : f row ∈ (s.setRun row f).runs :=
  mem_update_of_pos hrow (by simp)

theorem setRun_mem_of_ne {r : RunRow} (hr : r ∈ s.runs) (hne : r.id ≠ row.id) :
    r ∈ (s.setRun row f).runs :=
  mem_update_of_not hr (by simp [hne])

theorem stop_eq (s : State) (row : RunRow) (status : RunStatus) (reason actor : String) :
    ∃ db status' reason', (status' = status ∨ status' = .escalated ∨ status' = .uncertain) ∧
      s.stop row status reason actor =
        State.setRun { s with db := db } row fun r => r.stopped status' reason' := by
  unfold State.stop
  split
  · exact ⟨s.db, status, reason, .inl rfl, rfl⟩
  · split
    · exact ⟨s.db, .escalated, _, .inr (.inl rfl), rfl⟩
    · refine ⟨_, _, _, ?_, rfl⟩
      exact (ite_eq_or_eq _ _ _).elim (fun h => .inr (.inr h)) .inl

theorem Budgeted.setRun (h : Budgeted s) (hrow : row ∈ s.runs) (hid : ∀ r, (f r).id = r.id)
    (hsteps : (f row).steps = row.steps) (hmaxSteps : (f row).maxSteps = row.maxSteps)
    (hcalls : (f row).calls ≤ (f row).maxCalls) : Budgeted (s.setRun row f) where
  keyed := h.keyed.update hid
  minted r hr := by
    rcases mem_setRun h.keyed hrow hr with rfl | ⟨hr, -⟩
    · rw [hid]
      exact h.minted row hrow
    · exact h.minted r hr
  owned l hl := by
    obtain ⟨r, hr, hrun⟩ := h.owned l hl
    by_cases hne : r.id = row.id
    · exact ⟨f row, setRun_mem hrow, (hid row).trans (hne.symm.trans hrun)⟩
    · exact ⟨r, setRun_mem_of_ne hr hne, hrun⟩
  steps r hr := by
    rcases mem_setRun h.keyed hrow hr with rfl | ⟨hr, -⟩
    · rw [hsteps, hmaxSteps]
      exact h.steps row hrow
    · exact h.steps r hr
  calls r hr := by
    rcases mem_setRun h.keyed hrow hr with rfl | ⟨hr, -⟩
    · exact hcalls
    · exact h.calls r hr
  positions r hr := by
    rcases mem_setRun h.keyed hrow hr with rfl | ⟨hr, -⟩
    · rw [hid, hsteps]
      exact h.positions row hrow
    · exact h.positions r hr

/-- A turn at the run's next position, with its step counted. -/
theorem Budgeted.link (h : Budgeted s) (hrow : row ∈ s.runs) (hsteps : row.steps < row.maxSteps)
    {l : TurnRow} (hrun : l.run = row.id) (hposition : l.position = row.steps) (db : Db) (task : Uuid) :
    Budgeted (State.setRun { s with db := db, turns := s.turns ++ [l] } row fun r =>
      r.waiting task) where
  keyed := h.keyed.update fun _ => rfl
  minted r hr := by
    rcases mem_setRun h.keyed hrow hr with rfl | ⟨hr, -⟩
    · exact h.minted row hrow
    · exact h.minted r hr
  owned l' hl' := by
    have hold : ∃ r ∈ s.runs, r.id = l'.run := by
      rcases List.mem_append.1 hl' with hl' | hl'
      · exact h.owned l' hl'
      · obtain rfl := List.mem_singleton.1 hl'
        exact ⟨row, hrow, hrun.symm⟩
    obtain ⟨r, hr, hid⟩ := hold
    by_cases hne : r.id = row.id
    · exact ⟨row.waiting task, setRun_mem (f := fun r => r.waiting task) hrow, hne.symm.trans hid⟩
    · exact ⟨r, setRun_mem_of_ne hr hne, hid⟩
  steps r hr := by
    rcases mem_setRun h.keyed hrow hr with rfl | ⟨hr, -⟩
    · exact hsteps
    · exact h.steps r hr
  calls r hr := by
    rcases mem_setRun h.keyed hrow hr with rfl | ⟨hr, -⟩
    · exact h.calls row hrow
    · exact h.calls r hr
  positions r hr := by
    change ((s.turns ++ [l]).filter fun l => l.run = r.id).map TurnRow.position = _
    rw [List.filter_append, List.map_append]
    rcases mem_setRun h.keyed hrow hr with rfl | ⟨hr, hne⟩
    · change ((s.turns.filter fun l => l.run = row.id).map TurnRow.position) ++
        (([l].filter fun l => l.run = row.id).map TurnRow.position) = List.range (row.steps + 1)
      rw [h.positions row hrow, List.range_succ]
      simp [hrun, hposition]
    · have hother : ¬ row.id = r.id := fun h => hne h.symm
      rw [h.positions r hr]
      simp [hrun, hother]

theorem Budgeted.create (h : Budgeted s) (hid : row.id = s.minted) (hsteps : row.steps = 0)
    (hcalls : row.calls = 0) :
    Budgeted { s with minted := s.minted + 1, runs := s.runs ++ [row] } where
  keyed := h.keyed.insert fun r hr => hid ▸ (h.minted r hr).ne
  minted r hr := by
    rcases List.mem_append.1 hr with hr | hr
    · exact (h.minted r hr).trans (Nat.lt_succ_self _)
    · obtain rfl := List.mem_singleton.1 hr
      exact hid ▸ Nat.lt_succ_self _
  owned l hl := by
    obtain ⟨r, hr, hrun⟩ := h.owned l hl
    exact ⟨r, List.mem_append_left _ hr, hrun⟩
  steps r hr := by
    rcases List.mem_append.1 hr with hr | hr
    · exact h.steps r hr
    · obtain rfl := List.mem_singleton.1 hr
      exact hsteps ▸ Nat.zero_le _
  calls r hr := by
    rcases List.mem_append.1 hr with hr | hr
    · exact h.calls r hr
    · obtain rfl := List.mem_singleton.1 hr
      exact hcalls ▸ Nat.zero_le _
  positions r hr := by
    rcases List.mem_append.1 hr with hr | hr
    · exact h.positions r hr
    · obtain rfl := List.mem_singleton.1 hr
      -- no turn belongs to a run whose identifier is drawn now
      have hnone : (s.turns.filter fun l => decide (l.run = r.id)) = [] := by
        refine List.filter_eq_nil_iff.2 fun l hl hrun => ?_
        obtain ⟨r', hr', hid'⟩ := h.owned l hl
        have hlt := h.minted r' hr'
        rw [hid', of_decide_eq_true hrun, hid] at hlt
        exact Nat.lt_irrefl _ hlt
      rw [hnone, hsteps]
      rfl

theorem Wrote.budgeted (h : Budgeted s) (hw : Wrote P s t) : Budgeted t := by
  cases hw with
  | same => exact h
  | created hid _ hsteps hcalls => exact h.create hid hsteps hcalls
  | @stopped row hrow _ status _ _ reason actor =>
    obtain ⟨db, status', reason', -, heq⟩ := stop_eq s row status reason actor
    obtain ⟨hmem, -⟩ := row?_eq_some hrow
    have hdb : Budgeted { s with db := db } := ⟨h.keyed, h.minted, h.owned, h.steps, h.calls, h.positions⟩
    rw [heq]
    exact hdb.setRun hmem (fun _ => rfl) rfl rfl (h.calls row hmem)
  | linked hrow _ _ hsteps => exact h.link (row?_eq_some hrow).1 hsteps rfl rfl _ _
  | @answered row _ _ _ hrow =>
    obtain ⟨hmem, -⟩ := row?_eq_some hrow
    exact h.setRun hmem (fun _ => rfl) rfl rfl (h.calls row hmem)
  | @asked row _ hrow =>
    obtain ⟨hmem, -⟩ := row?_eq_some hrow
    exact h.setRun hmem (fun _ => rfl) rfl rfl (h.calls row hmem)
  | engine | inbound => exact ⟨h.keyed, h.minted, h.owned, h.steps, h.calls, h.positions⟩

theorem Effect.budgeted (h : Budgeted s) (he : Effect P s t) : Budgeted t := by
  cases he with
  | wrote hwrote =>
    have ht := hwrote.budgeted h
    exact ⟨ht.keyed, ht.minted, ht.owned, ht.steps, ht.calls, ht.positions⟩
  | cleared => exact ⟨h.keyed, h.minted, h.owned, h.steps, h.calls, h.positions⟩
  | @reserved w row obs lease repairs hrow _ hcalls =>
    have hs : Budgeted { s with minted := s.minted + 1 } :=
      ⟨h.keyed, fun r hr => (h.minted r hr).trans (Nat.lt_succ_self _), h.owned, h.steps, h.calls,
        h.positions⟩
    have ht := hs.setRun (f := fun r => r.planned s.minted lease) (row?_eq_some hrow).1 (fun _ => rfl)
      rfl rfl hcalls
    exact ⟨ht.keyed, ht.minted, ht.owned, ht.steps, ht.calls, ht.positions⟩
  | @repaired w row r obs lease rejected repairs hrow _ _ hcalls =>
    have ht := h.setRun (f := fun r => r.extended lease) (row?_eq_some hrow).1 (fun _ => rfl) rfl rfl
      hcalls
    exact ⟨ht.keyed, ht.minted, ht.owned, ht.steps, ht.calls, ht.positions⟩

theorem setRun_kept (h : Keyed (fun r : RunRow => r.id) s.runs) (hrow : row ∈ s.runs)
    (hactive : active row.status = true) (hid : (f row).id = row.id)
    (hcalls : row.calls ≤ (f row).calls) {r : RunRow} (hr : r ∈ s.runs) :
    ∃ r' ∈ (s.setRun row f).runs, r'.id = r.id ∧ (r' = r ∨ active r.status = true) ∧
      r.calls ≤ r'.calls := by
  by_cases hne : r.id = row.id
  · obtain rfl : r = row := h.eq_of_key hr hrow hne
    exact ⟨f r, setRun_mem hrow, hid, .inr hactive, hcalls⟩
  · exact ⟨r, setRun_mem_of_ne hr hne, rfl, .inl rfl, le_rfl⟩

theorem active_of_planning (h : row.status = .planning) : active row.status = true := by
  rw [h]
  rfl

/-- No run is lost; only an active one changes, and its calls never count down. -/
theorem Effect.run_kept (h : Budgeted s) (he : Effect P s t) {r : RunRow} (hr : r ∈ s.runs) :
    ∃ r' ∈ t.runs, r'.id = r.id ∧ (r' = r ∨ active r.status = true) ∧ r.calls ≤ r'.calls := by
  cases he with
  | @wrote t planners hwrote =>
    cases hwrote with
    | same | engine | inbound => exact ⟨r, hr, rfl, .inl rfl, le_rfl⟩
    | created => exact ⟨r, List.mem_append_left _ hr, rfl, .inl rfl, le_rfl⟩
    | @stopped row hrow hactive status _ _ reason actor =>
      obtain ⟨db, status', reason', -, heq⟩ := stop_eq s row status reason actor
      rw [heq]
      exact setRun_kept (s := { s with db := db }) h.keyed (row?_eq_some hrow).1 hactive rfl le_rfl hr
    | linked hrow hplanning =>
      exact setRun_kept (s := { s with db := _, turns := _ }) h.keyed (row?_eq_some hrow).1
        (active_of_planning hplanning) rfl le_rfl hr
    | answered hrow hplanning =>
      exact setRun_kept h.keyed (row?_eq_some hrow).1 (active_of_planning hplanning) rfl le_rfl hr
    | asked hrow hplanning =>
      exact setRun_kept h.keyed (row?_eq_some hrow).1 (active_of_planning hplanning) rfl le_rfl hr
  | cleared => exact ⟨r, hr, rfl, .inl rfl, le_rfl⟩
  | @reserved w row obs lease repairs hrow hactive =>
    exact setRun_kept (s := { s with minted := s.minted + 1 }) (f := fun r => r.planned s.minted lease)
      h.keyed (row?_eq_some hrow).1 hactive rfl (Nat.le_succ _) hr
  | @repaired w row r' obs lease rejected repairs hrow hplanning =>
    exact setRun_kept (f := fun r => r.extended lease) h.keyed (row?_eq_some hrow).1
      (active_of_planning hplanning) rfl (Nat.le_succ _) hr

theorem Effect.counted (h : Budgeted s) (he : Effect P s t) {k : Uuid × ℕ} (hk : Counted s k) :
    Counted t k := by
  obtain ⟨row, hrow, hid, hone, hle⟩ := hk
  obtain ⟨row', hrow', hid', -, hcalls⟩ := he.run_kept h hrow
  exact ⟨row', hrow', hid'.trans hid, hone, hle.trans hcalls⟩

theorem Counted.ne_next (h : Budgeted s) (hrow : row ∈ s.runs) {k : Uuid × ℕ} (hk : Counted s k) :
    k ≠ (row.id, row.calls + 1) := by
  rintro rfl
  obtain ⟨row', hrow', hid, -, hle⟩ := hk
  obtain rfl : row' = row := h.keyed.eq_of_key hrow' hrow hid
  exact Nat.not_succ_le_self _ hle

end Rows

/-! ### The planners -/

section Planners

variable {P : Platform} {s t : State} {w : ℕ} {r : Reservation}

theorem held_goto {stage : Stage} {w' : ℕ} (h : ((s.goto w stage).planners w').held? = some r) :
    w' = w ∧ stage.held? = some r ∨ w' ≠ w ∧ (s.planners w').held? = some r := by
  change (Function.update s.planners w stage w').held? = some r at h
  by_cases hw : w' = w
  · subst hw
    rw [Function.update_self] at h
    exact .inl ⟨rfl, h⟩
  · rw [Function.update_of_ne hw] at h
    exact .inr ⟨hw, h⟩

/-- A reservation that is held was held before by the same planner, or is for the next call of a
run. -/
theorem Effect.held (he : Effect P s t) (h : (t.planners w).held? = some r) :
    (s.planners w).held? = some r ∨ ∃ row ∈ s.runs, r.key = (row.id, row.calls + 1) ∧
      Counted t r.key ∧ ∀ w' r', w' ≠ w → (t.planners w').held? = some r' →
        (s.planners w').held? = some r' := by
  cases he with
  | @wrote t planners _ hreleased =>
    change (planners w).held? = some r at h
    rcases hreleased w with heq | hnone
    · rw [heq] at h
      exact .inl h
    · rw [hnone] at h
      cases h
  | @cleared w₀ r₀ hheld =>
    rcases held_goto h with ⟨rfl, hr⟩ | ⟨-, hold⟩
    · rw [hheld]
      exact .inl hr
    · exact .inl hold
  | @reserved w₀ row obs lease repairs hrow =>
    obtain ⟨hmem, -⟩ := row?_eq_some hrow
    rcases held_goto h with ⟨rfl, hr⟩ | ⟨-, hold⟩
    · obtain rfl := Option.some.inj hr
      refine .inr ⟨row, hmem, rfl, ⟨row.planned s.minted lease, ?_, rfl, Nat.succ_pos _, le_rfl⟩,
        fun w' r' hw' hr' => ?_⟩
      · exact setRun_mem (s := { s with minted := s.minted + 1 })
          (f := fun r => r.planned s.minted lease) hmem
      · rcases held_goto hr' with ⟨rfl, -⟩ | ⟨-, hold⟩
        · exact absurd rfl hw'
        · exact hold
    · exact .inl hold
  | @repaired w₀ row r₀ obs lease rejected repairs hrow _ hrun =>
    obtain ⟨hmem, -⟩ := row?_eq_some hrow
    rcases held_goto h with ⟨rfl, hr⟩ | ⟨-, hold⟩
    · obtain rfl := Option.some.inj hr
      have hkey : (r₀.run, row.calls + 1) = (row.id, row.calls + 1) := by rw [hrun]
      refine .inr ⟨row, hmem, hkey, ⟨row.extended lease, ?_, hrun.symm, Nat.succ_pos _, le_rfl⟩,
        fun w' r' hw' hr' => ?_⟩
      · exact setRun_mem (f := fun r => r.extended lease) hmem
      · rcases held_goto hr' with ⟨rfl, -⟩ | ⟨-, hold⟩
        · exact absurd rfl hw'
        · exact hold
    · exact .inl hold

theorem Effect.apart (hb : Budgeted s) (ha : Apart s) (he : Effect P s t) : Apart t where
  counted w r hr := by
    rcases he.held hr with hold | ⟨row, -, -, hcounted, -⟩
    · exact he.counted hb (ha.counted w r hold)
    · exact hcounted
  apart w w' r r' hr hr' hkey := by
    by_contra hw
    have hfresh : ∀ {w w' : ℕ} {r r' : Reservation} {row : RunRow}, row ∈ s.runs →
        r.key = (row.id, row.calls + 1) → (s.planners w').held? = some r' → r.key = r'.key → False := by
      intro w w' r r' row hrow hnext hheld hkey
      exact (ha.counted w' r' hheld).ne_next hb hrow (hkey.symm.trans hnext)
    rcases he.held hr with hold | ⟨row, hrow, hnext, -, hothers⟩
    · rcases he.held hr' with hold' | ⟨row, hrow, hnext, -, -⟩
      · exact hw (ha.apart w w' r r' hold hold' hkey)
      · exact hfresh (w := w') hrow hnext hold hkey.symm
    · exact hfresh (w := w) hrow hnext (hothers w' r' (fun h => hw h.symm) hr') hkey

end Planners

/-! ### Calls of the planner -/

section Calls

variable {P : Platform} {τs : List (Transition State Label)} {s t : State}

/-- The call of the planner in a transition. -/
def invoked? (τ : Transition State Label) : Option (Uuid × ℕ) :=
  match τ.label with
  | .invoke w _ =>
    match τ.src.planners w with
    | .cleared r => some r.key
    | _ => none
  | _ => none

/-- The planner is called for a run. -/
def invokes (run : Uuid) (τ : Transition State Label) : Bool := (invoked? τ).any fun k => k.1 = run

theorem invoked?_eq_some {τ : Transition State Label} {k : Uuid × ℕ} (h : invoked? τ = some k) :
    ∃ w answer r, τ.label = .invoke w answer ∧ τ.src.planners w = .cleared r ∧ r.key = k := by
  unfold invoked? at h
  split at h
  · rename_i w answer hlabel
    split at h
    · rename_i r hstage
      exact ⟨w, answer, r, hlabel, hstage, Option.some.inj h⟩
    · cases h
  · cases h

/-- A call that is counted and that no planner is about to make. -/
def Spent (s : State) (k : Uuid × ℕ) : Prop :=
  Counted s k ∧ ∀ w r, (s.planners w).held? = some r → r.key ≠ k

theorem Effect.spent (hb : Budgeted s) (he : Effect P s t) {k : Uuid × ℕ} (h : Spent s k) :
    Spent t k := by
  refine ⟨he.counted hb h.1, fun w r hr hkey => ?_⟩
  rcases he.held hr with hold | ⟨row, hrow, hnext, -, -⟩
  · exact h.2 w r hold hkey
  · exact h.1.ne_next hb hrow (hkey.symm.trans hnext)

/-- The planner that makes a call gives its reservation up. -/
theorem spent_of_invoked (hb : Budgeted s) (ha : Apart s) {l : Label} (hs : Step P s l t)
    {k : Uuid × ℕ} (h : invoked? ⟨s, l, t⟩ = some k) : ¬ Spent s k ∧ Spent t k := by
  obtain ⟨w, answer, r, rfl, hstage, hkey⟩ := invoked?_eq_some h
  have hheld : (s.planners w).held? = some r := by
    rw [hstage]
    rfl
  refine ⟨fun hspent => hspent.2 w r hheld hkey, hs.effect.counted hb (hkey ▸ ha.counted w r hheld),
    fun w' r' hr' hkey' => ?_⟩
  have hgoto : ∃ stage : Stage, stage.held? = none ∧ t = s.goto w stage := by
    rw [Step, State.after, hstage] at hs
    cases answer with
    | ok d => exact ⟨_, rfl, hs⟩
    | error e => exact ⟨_, rfl, hs⟩
  obtain ⟨stage, hnone, rfl⟩ := hgoto
  rcases held_goto hr' with ⟨-, hr⟩ | ⟨hw, hold⟩
  · rw [hnone] at hr
    cases hr
  · exact hw (ha.apart w' w r' r hold hheld (hkey'.trans hkey.symm))

theorem budgeted_empty : Budgeted {} where
  keyed := keyed_nil _
  minted _ hr := absurd hr List.not_mem_nil
  owned _ hl := absurd hl List.not_mem_nil
  steps _ hr := absurd hr List.not_mem_nil
  calls _ hr := absurd hr List.not_mem_nil
  positions _ hr := absurd hr List.not_mem_nil

theorem apart_empty : Apart {} where
  counted _ _ hr := by cases hr
  apart _ _ _ _ hr := by cases hr

theorem Step.in_order {l : Label} (h : Budgeted s ∧ Apart s) (hs : Step P s l t) :
    Budgeted t ∧ Apart t :=
  ⟨hs.effect.budgeted h.1, hs.effect.apart h.1 h.2⟩

theorem reachable_in_order (h : Run (Step P) {} τs s) : Budgeted s ∧ Apart s :=
  h.invariant (I := fun s => Budgeted s ∧ Apart s) ⟨budgeted_empty, apart_empty⟩
    fun _ _ _ => Step.in_order

/-- In a run every call is made at most once, and only where it is counted. -/
theorem invoked_once (h : Run (Step P) {} τs s) :
    (τs.filterMap invoked?).Nodup ∧ ∀ k ∈ τs.filterMap invoked?, Counted s k := by
  classical
  have hrun := h.strengthen (I := fun s => Budgeted s ∧ Apart s) ⟨budgeted_empty, apart_empty⟩
    fun _ _ _ => Step.in_order
  refine ⟨nodup_filterMap fun k => ?_, fun k hk => ?_⟩
  · refine (hrun.countP_le_one (p := fun s => Spent s k) (q := fun τ => invoked? τ = some k)
      (fun s l t hs hspent => hs.1.effect.spent hs.2.1 hspent)
      fun s l t hs hk => spent_of_invoked hs.2.1 hs.2.2 hs.1 hk).trans ?_
    split <;> simp
  · obtain ⟨τ, hτ, hk⟩ := List.mem_filterMap.1 hk
    obtain ⟨hs, hb, ha⟩ := hrun.step_of_mem hτ
    refine (hrun.later (q := fun s t => Counted s k → Counted t k) (fun _ => id)
      (fun _ _ _ h h' => h' ∘ h) (fun s l t hs hc => hs.1.effect.counted hs.2.1 hc) hτ).2 ?_
    exact (spent_of_invoked hb ha hs hk).2.1

/-- **Agent run budgets.** In any run of the system, with any number of planners, stalled and crashed
at any point: the steps and the calls of an agent run are within its budgets, its planner was called no
more often than the calls it has counted, and its turns are numbered from 0 on without a gap or a
duplicate. -/
theorem run_budgets (h : Run (Step P) {} τs s) {row : RunRow} (hrow : row ∈ s.runs) :
    row.steps ≤ row.maxSteps ∧ row.calls ≤ row.maxCalls ∧ τs.countP (invokes row.id) ≤ row.calls ∧
      (s.turns.filter fun l => l.run = row.id).map TurnRow.position = List.range row.steps := by
  obtain ⟨hb, -⟩ := reachable_in_order h
  refine ⟨hb.steps row hrow, hb.calls row hrow, ?_, hb.positions row hrow⟩
  obtain ⟨hnodup, hcounted⟩ := invoked_once h
  have hindices : (((τs.filterMap invoked?).filter fun k => k.1 = row.id).map Prod.snd).Nodup := by
    refine List.Nodup.map_on (fun k hk k' hk' hsnd => ?_) (hnodup.filter _)
    have hfst : k.1 = row.id := by simpa using (List.mem_filter.1 hk).2
    have hfst' : k'.1 = row.id := by simpa using (List.mem_filter.1 hk').2
    exact Prod.ext (hfst.trans hfst'.symm) hsnd
  have hsub : (((τs.filterMap invoked?).filter fun k => k.1 = row.id).map Prod.snd).toFinset ⊆
      Finset.Icc 1 row.calls := by
    intro n hn
    obtain ⟨k, hk, rfl⟩ := List.mem_map.1 (List.mem_toFinset.1 hn)
    obtain ⟨hmem, hid⟩ := List.mem_filter.1 hk
    obtain ⟨row', hrow', hid', hone, hle⟩ := hcounted k hmem
    obtain rfl : row' = row := hb.keyed.eq_of_key hrow' hrow (hid'.trans (of_decide_eq_true hid))
    exact Finset.mem_Icc.2 ⟨hone, hle⟩
  calc τs.countP (invokes row.id)
      = (((τs.filterMap invoked?).filter fun k => k.1 = row.id).map Prod.snd).length := by
        rw [List.length_map, ← List.countP_eq_length_filter, List.countP_filterMap]
        refine List.countP_congr fun τ _ => ?_
        unfold invokes
        cases invoked? τ <;> simp
    _ = _ := (List.toFinset_card_of_nodup hindices).symm
    _ ≤ (Finset.Icc 1 row.calls).card := Finset.card_le_card hsub
    _ = row.calls := Nat.card_Icc 1 row.calls

/-- A run that takes one step and answers; its planner is asked again after the step is done. -/
def sampleLabels : List Label :=
  [.create (sampleEnv 0) "acme" "r1" "clerk" "How many orders are open?" "dana" 2 600 "agent",
    .reserve 0 (sampleEnv 1) "acme" 0 true, .check 0 (sampleEnv 2),
    .invoke 0 (.ok (.obj [("action", .str "tool"), ("tool", .str "note"), ("args", .obj [])])),
    .commit 0 (sampleEnv 3), .engine (sampleClaim 4),
    .engine (.finish (sampleEnv 5) "acme" 1 (some 2) (.obj []) .succeeded ""),
    .reserve 1 (sampleEnv 6) "acme" 0 true, .check 1 (sampleEnv 7),
    .invoke 1 (.ok (.obj [("action", .str "final"), ("answer", .str "One order."),
      ("evidence_ids", .arr [.str "step:1"])])),
    .commit 1 (sampleEnv 8)]

def sampleState : State := sampleLabels.foldl (State.after samplePlatform) {}

theorem sampleState_run :
    Run (Step samplePlatform) {} (trace (State.after samplePlatform) {} sampleLabels) sampleState :=
  Run.nil.calls sampleLabels

theorem run_budgets_sample :
    ∃ row ∈ sampleState.runs, row.status = .succeeded ∧ row.steps = 1 ∧ row.calls = 2 ∧
      ((trace (State.after samplePlatform) {} sampleLabels).countP (invokes row.id)) ≤ 2 ∧
        (sampleState.turns.filter fun l => l.run = row.id).map TurnRow.position = List.range 1 := by
  have hrow : ∃ row ∈ sampleState.runs, row.status = .succeeded ∧ row.steps = 1 ∧ row.calls = 2 := by
    decide +kernel
  obtain ⟨row, hmem, hstatus, hsteps, hcalls⟩ := hrow
  obtain ⟨-, -, hinvoked, hpositions⟩ := run_budgets sampleState_run hmem
  rw [hcalls] at hinvoked
  rw [hsteps] at hpositions
  exact ⟨row, hmem, hstatus, hsteps, hcalls, hinvoked, hpositions⟩

end Calls

end AgentPlatform.Agent
