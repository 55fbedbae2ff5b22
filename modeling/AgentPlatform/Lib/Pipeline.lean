import Mathlib.Logic.Relation
import Mathlib.Tactic.Common

/-!
# Pipelines of cells, run one at a time

A board holds cells; each belongs to a pipeline, at a position, with a status. Several parties change
the board in rounds. A round may

* put a new pipeline of queued cells on the board;
* let a cell enter, that is leave the queue for `running`, `waiting` or `failed`, when every cell
  before it in its pipeline has succeeded;
* put a queued or waiting cell back into the queue, or cancel it;
* stop a running cell, and settle an uncertain one.

`Sequential` is what rounds keep: whatever left the queue and was not cancelled has only succeeded
cells before it. A cell that left the queue never returns to it (`Rounds.left`).

`summary` is the status of a whole pipeline, in the order in which the statuses take precedence. A
terminal pipeline in which no cell runs keeps its status through any rounds that let none of its cells
enter (`Rounds.closed`).
-/

namespace Pipeline

/-- The status of a cell, and of a pipeline. -/
inductive Status
  | queued
  | waiting
  | running
  | succeeded
  | failed
  | uncertain
  | cancelled
  deriving DecidableEq, Repr

namespace Status

/-- Not started yet. -/
def pending : Status → Bool
  | queued | waiting => true
  | _ => false

/-- Nothing further is expected. -/
def terminal : Status → Bool
  | succeeded | failed | cancelled => true
  | _ => false

/-- The pipeline still has work to start or to finish. -/
def active : Status → Bool
  | queued | waiting | running => true
  | _ => false

end Status

/-- A cell: its pipeline, its position in it, and its status. -/
structure Cell (τ : Type*) where
  pipeline : τ
  position : ℕ
  status : Status

variable {ι τ : Type*}

/-- The cells, by name. -/
abbrev Board (ι τ : Type*) := ι → Option (Cell τ)

/-- Every cell before `c` in its pipeline has succeeded. -/
def Ready (b : Board ι τ) (c : Cell τ) : Prop :=
  ∀ j d, b j = some d → d.pipeline = c.pipeline → d.position < c.position → d.status = .succeeded

/-- The statuses a cell may take in one round; `enters` says which cells may enter, and how. -/
inductive Change (enters : Cell τ → Status → Prop) (b : Board ι τ) (c : Cell τ) : Status → Prop
  | keep : Change enters b c c.status
  | enter {status : Status} (hpending : c.status.pending = true) (henters : enters c status)
      (hready : Ready b c) (hstatus : status = .running ∨ status = .waiting ∨ status = .failed) :
      Change enters b c status
  | requeue (hpending : c.status.pending = true) : Change enters b c .queued
  | cancel (hpending : c.status.pending = true) : Change enters b c .cancelled
  | stop {status : Status} (hrunning : c.status = .running)
      (hstatus : status = .succeeded ∨ status = .failed ∨ status = .uncertain) :
      Change enters b c status
  | settle {status : Status} (huncertain : c.status = .uncertain)
      (hstatus : status = .succeeded ∨ status = .failed) : Change enters b c status

/-- One round. -/
structure Round (enters : Cell τ → Status → Prop) (b b' : Board ι τ) : Prop where
  old : ∀ i c, b i = some c →
    ∃ status, Change enters b c status ∧ b' i = some { c with status := status }
  queued : ∀ i c, b i = none → b' i = some c → c.status = .queued
  fresh : ∀ i c, b i = none → b' i = some c → ∀ j d, b j = some d → d.pipeline ≠ c.pipeline
  places : ∀ i j c d, b i = none → b' i = some c → b' j = some d → c.pipeline = d.pipeline →
    c.position = d.position → i = j

/-- Any number of rounds. -/
def Rounds (enters : Cell τ → Status → Prop) : Board ι τ → Board ι τ → Prop :=
  Relation.ReflTransGen (Round enters)

/-! ### One cell through a round -/

section Cells

variable {enters : Cell τ → Status → Prop} {b b' : Board ι τ} {c : Cell τ} {status : Status}

theorem Change.of_succeeded (h : Change enters b c status) (hc : c.status = .succeeded) :
    status = .succeeded := by
  cases h with
  | keep => exact hc
  | enter hpending | requeue hpending | cancel hpending => simp [hc, Status.pending] at hpending
  | stop hrunning => simp [hc] at hrunning
  | settle huncertain => simp [hc] at huncertain

theorem Change.of_not_pending (h : Change enters b c status) (hc : c.status.pending = false) :
    status.pending = false := by
  cases h with
  | keep => exact hc
  | enter hpending | requeue hpending | cancel hpending => simp [hc] at hpending
  | stop _ hstatus => rcases hstatus with rfl | rfl | rfl <;> rfl
  | settle _ hstatus => rcases hstatus with rfl | rfl <;> rfl

theorem Round.cases (h : Round enters b b') {i : ι} {c' : Cell τ} (hc' : b' i = some c') :
    (∃ c status, b i = some c ∧ Change enters b c status ∧ c' = { c with status := status }) ∨
      b i = none ∧ c'.status = .queued := by
  cases hb : b i with
  | none => exact .inr ⟨rfl, h.queued i c' hb hc'⟩
  | some c =>
    obtain ⟨status, hchange, hi⟩ := h.old i c hb
    exact .inl ⟨c, status, rfl, hchange, Option.some.inj (hc'.symm.trans hi)⟩

theorem Ready.round (h : Round enters b b') {i : ι} (hi : b i = some c) (hready : Ready b c) :
    Ready b' c := by
  intro j d' hd' hpipeline hposition
  rcases h.cases hd' with ⟨d, status, hd, hchange, rfl⟩ | ⟨hnone, -⟩
  · exact hchange.of_succeeded (hready j d hd hpipeline hposition)
  · exact absurd hpipeline.symm (h.fresh j d' hnone hd' i c hi)

end Cells

/-! ### What rounds keep -/

/-- Whatever left the queue and was not cancelled has only succeeded cells before it. -/
def Sequential (b : Board ι τ) : Prop :=
  ∀ i c, b i = some c → c.status ≠ .queued → c.status ≠ .cancelled → Ready b c

/-- No two cells of a pipeline have the same position. -/
def Placed (b : Board ι τ) : Prop :=
  ∀ i j c d, b i = some c → b j = some d → c.pipeline = d.pipeline → c.position = d.position → i = j

section Invariants

variable {enters : Cell τ → Status → Prop} {b b' : Board ι τ}

theorem Sequential.round (h : Sequential b) (hr : Round enters b b') : Sequential b' := by
  intro i c' hc' hqueued hcancelled
  rcases hr.cases hc' with ⟨c, status, hc, hchange, rfl⟩ | ⟨-, hnew⟩
  · have hready : Ready b c := by
      cases hchange with
      | keep => exact h i c hc hqueued hcancelled
      | enter _ _ hready => exact hready
      | requeue => exact absurd rfl hqueued
      | cancel => exact absurd rfl hcancelled
      | stop hrunning => exact h i c hc (by simp [hrunning]) (by simp [hrunning])
      | settle huncertain => exact h i c hc (by simp [huncertain]) (by simp [huncertain])
    have hkept : Ready b' c := hready.round hr hc
    exact hkept
  · exact absurd hnew hqueued

theorem Placed.round (h : Placed b) (hr : Round enters b b') : Placed b' := by
  intro i j c' d' hc' hd' hpipeline hposition
  cases hb : b i with
  | none => exact hr.places i j c' d' hb hc' hd' hpipeline hposition
  | some _ =>
    rcases hr.cases hd' with ⟨d, _, hd, -, rfl⟩ | ⟨hnone, -⟩
    · rcases hr.cases hc' with ⟨c, _, hc, -, rfl⟩ | ⟨hnone, -⟩
      · exact h i j c d hc hd hpipeline hposition
      · rw [hb] at hnone
        cases hnone
    · exact (hr.places j i d' c' hnone hd' hc' hpipeline.symm hposition.symm).symm

theorem Sequential.rounds (h : Sequential b) (hr : Rounds enters b b') : Sequential b' := by
  induction hr with
  | refl => exact h
  | tail _ hr ih => exact ih.round hr

theorem Placed.rounds (h : Placed b) (hr : Rounds enters b b') : Placed b' := by
  induction hr with
  | refl => exact h
  | tail _ hr ih => exact ih.round hr

/-- The work on a cell is started and not done: it runs, waits, failed or is uncertain. -/
def Status.opened : Status → Bool
  | .queued | .cancelled | .succeeded => false
  | _ => true

variable {i : ι} {c : Cell τ}

/-- At most one cell of a pipeline is opened. -/
theorem Sequential.one_opened (h : Sequential b) (hplaced : Placed b) {j : ι} {d : Cell τ} (hc : b i = some c)
    (hd : b j = some d) (hpipeline : c.pipeline = d.pipeline) (hco : c.status.opened = true)
    (hdo : d.status.opened = true) : i = j := by
  have hnot : ∀ i j c d, b i = some c → b j = some d → c.pipeline = d.pipeline →
      c.status.opened = true → d.status.opened = true → ¬ d.position < c.position := by
    intro i j c d hc hd hpipeline hco hdo hlt
    have hqueued : c.status ≠ .queued := fun h => by simp [h, Status.opened] at hco
    have hcancelled : c.status ≠ .cancelled := fun h => by simp [h, Status.opened] at hco
    rw [h i c hc hqueued hcancelled j d hd hpipeline.symm hlt] at hdo
    cases hdo
  refine hplaced i j c d hc hd hpipeline ?_
  exact Nat.le_antisymm (Nat.not_lt.1 (hnot i j c d hc hd hpipeline hco hdo))
    (Nat.not_lt.1 (hnot j i d c hd hc hpipeline.symm hdo hco))

/-- While a cell that is not opened yet is ready, no cell of its pipeline is opened. -/
theorem Sequential.not_opened (h : Sequential b) (hplaced : Placed b) {j : ι} {d : Cell τ} (hc : b i = some c)
    (hd : b j = some d) (hpipeline : d.pipeline = c.pipeline) (hready : Ready b c)
    (hpending : c.status.pending = true) (hij : j ≠ i) : d.status.opened = false := by
  rcases Nat.lt_trichotomy d.position c.position with hlt | heq | hlt
  · rw [hready j d hd hpipeline hlt]
    rfl
  · exact absurd (hplaced j i d c hd hc hpipeline heq) hij
  · cases ho : d.status.opened with
    | false => rfl
    | true =>
      have hqueued : d.status ≠ .queued := fun h => by simp [h, Status.opened] at ho
      have hcancelled : d.status ≠ .cancelled := fun h => by simp [h, Status.opened] at ho
      rw [h j d hd hqueued hcancelled i c hc hpipeline.symm hlt] at hpending
      cases hpending

/-- A cell has left the queue. -/
def Left (b : Board ι τ) (i : ι) : Prop := ∃ c, b i = some c ∧ c.status.pending = false

theorem Round.left (h : Round enters b b') (hi : Left b i) : Left b' i := by
  obtain ⟨c, hc, hpending⟩ := hi
  obtain ⟨status, hchange, hc'⟩ := h.old i c hc
  exact ⟨_, hc', hchange.of_not_pending hpending⟩

theorem Rounds.left (h : Rounds enters b b') (hi : Left b i) : Left b' i := by
  induction h with
  | refl => exact hi
  | tail _ hr ih => exact hr.left ih

/-- A cell is over: it does not run, and has left the queue. -/
def Over (b : Board ι τ) (i : ι) : Prop :=
  ∃ c, b i = some c ∧ c.status.pending = false ∧ c.status ≠ .running

theorem Rounds.over (h : Rounds enters b b') (hi : Over b i) : Over b' i := by
  induction h with
  | refl => exact hi
  | tail _ hr ih =>
    obtain ⟨c, hc, hpending, hrunning⟩ := ih
    obtain ⟨status, hchange, hc'⟩ := hr.old i c hc
    refine ⟨_, hc', hchange.of_not_pending hpending, ?_⟩
    cases hchange with
    | keep => exact hrunning
    | enter hp | requeue hp | cancel hp => simp [hpending] at hp
    | stop hstop => exact absurd hstop hrunning
    | settle _ hstatus => rcases hstatus with rfl | rfl <;> simp

theorem Rounds.succeeded (h : Rounds enters b b') (hc : b i = some c) (hsucceeded : c.status = .succeeded) :
    b' i = some c := by
  induction h with
  | refl => exact hc
  | tail _ hr ih =>
    obtain ⟨status, hchange, hc'⟩ := hr.old i c ih
    rwa [hchange.of_succeeded hsucceeded, ← hsucceeded] at hc'

theorem Change.of_terminal (h : Change enters b c status) (hc : c.status.terminal = true) :
    status = c.status := by
  cases h with
  | keep => rfl
  | enter hpending | requeue hpending | cancel hpending =>
    cases hs : c.status <;> simp_all [Status.pending, Status.terminal]
  | stop hrunning => simp [hrunning, Status.terminal] at hc
  | settle huncertain => simp [huncertain, Status.terminal] at hc

theorem Rounds.terminal (h : Rounds enters b b') (hc : b i = some c) (hterminal : c.status.terminal = true) :
    b' i = some c := by
  induction h with
  | refl => exact hc
  | tail _ hr ih =>
    obtain ⟨status, hchange, hc'⟩ := hr.old i c ih
    rwa [hchange.of_terminal hterminal] at hc'

theorem Ready.rounds (h : Rounds enters b b') (hi : b i = some c) (hready : Ready b c) : Ready b' c := by
  suffices (∃ status, b' i = some { c with status := status }) ∧ Ready b' c from this.2
  induction h with
  | refl => exact ⟨⟨c.status, hi⟩, hready⟩
  | tail _ hr ih =>
    obtain ⟨⟨status, hi⟩, hready⟩ := ih
    obtain ⟨status', -, hi'⟩ := hr.old i _ hi
    have hkept : Ready _ { c with status := status } := Ready.round hr hi hready
    exact ⟨⟨status', hi'⟩, hkept⟩

/-- A cell that starts to run in some rounds enters in one of them. -/
theorem Rounds.started (h : Rounds enters b b') {c' : Cell τ} (hc' : b' i = some c')
    (hrunning : c'.status = .running) :
    (∃ c, b i = some c ∧ c.status = .running) ∨
      ∃ c, enters c .running ∧ c.pipeline = c'.pipeline ∧ c.position = c'.position := by
  induction h generalizing c' with
  | refl => exact .inl ⟨c', hc', hrunning⟩
  | tail _ hr ih =>
    rcases hr.cases hc' with ⟨c, status, hc, hchange, rfl⟩ | ⟨-, hqueued⟩
    · change status = .running at hrunning
      subst hrunning
      cases hstatus : c.status with
      | running =>
        have hold := ih hc hstatus
        exact hold
      | _ =>
        refine .inr ⟨c, ?_, rfl, rfl⟩
        generalize hnew : Status.running = status at hchange
        cases hchange with
        | keep => rw [hstatus] at hnew; cases hnew
        | enter _ henters => exact henters
        | requeue | cancel => cases hnew
        | stop hrunning => rw [hstatus] at hrunning; cases hrunning
        | settle _ hsettled => rcases hsettled with rfl | rfl <;> cases hnew
    · rw [hqueued] at hrunning
      cases hrunning

end Invariants

/-! ### The status of a pipeline -/

/-- The status of a pipeline whose cells have the statuses `states`. -/
def summary (states : List Status) : Status :=
  if .uncertain ∈ states then .uncertain
  else if .failed ∈ states then .failed
  else if .cancelled ∈ states then .cancelled
  else if ∀ s ∈ states, s = .succeeded then .succeeded
  else if .running ∈ states then .running
  else if .waiting ∈ states then .waiting
  else .queued

section Summary

variable {l l' : List Status}

theorem summary_const {s : Status} (hne : l ≠ []) (hl : ∀ x ∈ l, x = s) : summary l = s := by
  obtain ⟨x, hx⟩ := List.exists_mem_of_ne_nil l hne
  obtain rfl := hl x hx
  have hiff : ∀ y, y ∈ l ↔ y = x := fun y => ⟨hl y, fun h => h ▸ hx⟩
  have hall : (∀ s ∈ l, s = .succeeded) ↔ x = .succeeded :=
    ⟨fun h => h x hx, fun h s hs => (hl s hs).trans h⟩
  unfold summary
  rw [if_congr hall rfl rfl]
  simp only [hiff]
  cases x <;> simp

theorem summary_eq_uncertain : summary l = .uncertain ↔ .uncertain ∈ l := by
  unfold summary
  constructor
  · intro h
    split_ifs at h with huncertain
    exact huncertain
  · intro h
    rw [if_pos h]

theorem summary_terminal (h : (summary l).terminal = true) :
    .uncertain ∉ l ∧ (.failed ∈ l ∨ .cancelled ∈ l ∨ ∀ s ∈ l, s = .succeeded) := by
  unfold summary at h
  split_ifs at h with huncertain hfailed hcancelled hsucceeded
  · cases h
  · exact ⟨huncertain, .inl hfailed⟩
  · exact ⟨huncertain, .inr (.inl hcancelled)⟩
  · exact ⟨huncertain, .inr (.inr hsucceeded)⟩
  all_goals cases h

theorem summary_active (h : (summary l).active = true) : .failed ∉ l ∧ .cancelled ∉ l := by
  unfold summary at h
  split_ifs at h with huncertain hfailed hcancelled
  any_goals cases h
  all_goals exact ⟨hfailed, hcancelled⟩

/-- What a round may do to a cell of a pipeline with no work in progress. -/
def Settled (s s' : Status) : Prop :=
  s' = s ∨ s.pending = true ∧ (s' = .queued ∨ s' = .cancelled)

/-- Such a round keeps a terminal status. -/
theorem summary_settled (hto : ∀ s ∈ l, ∃ s' ∈ l', Settled s s')
    (hfrom : ∀ s' ∈ l', ∃ s ∈ l, Settled s s') (h : (summary l).terminal = true) :
    summary l' = summary l := by
  have hkept : ∀ s ∈ l, s.pending = false → s ∈ l' := by
    intro s hs hpending
    obtain ⟨s', hs', rfl | ⟨hp, -⟩⟩ := hto s hs
    · exact hs'
    · rw [hpending] at hp
      cases hp
  have hback : ∀ s' ∈ l', s' ≠ .queued → s' ≠ .cancelled → s' ∈ l := by
    intro s' hs' hqueued hcancelled
    obtain ⟨s, hs, rfl | ⟨-, rfl | rfl⟩⟩ := hfrom s' hs'
    · exact hs
    · exact absurd rfl hqueued
    · exact absurd rfl hcancelled
  obtain ⟨huncertain, hcases⟩ := summary_terminal h
  have huncertain' : .uncertain ∉ l' := fun hs => huncertain (hback _ hs (by simp) (by simp))
  by_cases hfailed : Status.failed ∈ l
  · simp [summary, huncertain, huncertain', hfailed, hkept _ hfailed rfl]
  · have hfailed' : Status.failed ∉ l' := fun hs => hfailed (hback _ hs (by simp) (by simp))
    by_cases hcancelled : Status.cancelled ∈ l
    · simp [summary, huncertain, huncertain', hfailed, hfailed', hcancelled, hkept _ hcancelled rfl]
    · have hsucceeded : ∀ s ∈ l, s = .succeeded := by
        rcases hcases with hf | hc | hs
        · exact absurd hf hfailed
        · exact absurd hc hcancelled
        · exact hs
      have hsucceeded' : ∀ s' ∈ l', s' = .succeeded := by
        intro s' hs'
        obtain ⟨s, hs, rfl | ⟨hp, -⟩⟩ := hfrom s' hs'
        · exact hsucceeded _ hs
        · rw [hsucceeded s hs] at hp
          cases hp
      have hcancelled' : Status.cancelled ∉ l' := fun hs => by cases hsucceeded' _ hs
      simp only [summary, huncertain, huncertain', hfailed, hfailed', hcancelled, hcancelled',
        if_false, if_pos hsucceeded, if_pos hsucceeded']

end Summary

section Closed

variable {enters : Cell τ → Status → Prop} {b b' : Board ι τ} {p : τ}

/-- Some cell of the pipeline has the status. -/
def Occurs (b : Board ι τ) (p : τ) (s : Status) : Prop :=
  ∃ i c, b i = some c ∧ c.pipeline = p ∧ c.status = s

/-- The list names the statuses of the pipeline's cells. -/
def Shows (b : Board ι τ) (p : τ) (l : List Status) : Prop := ∀ s, s ∈ l ↔ Occurs b p s

theorem exists_shows (b : Board ι τ) (p : τ) : ∃ l, Shows b p l := by
  classical
  refine ⟨[.queued, .waiting, .running, .succeeded, .failed, .uncertain, .cancelled].filter
    fun s => decide (Occurs b p s), fun s => ?_⟩
  cases s <;> simp

/-- The pipeline has cells, and no work in progress. -/
structure Idle (b : Board ι τ) (p : τ) : Prop where
  nonempty : ∃ s, Occurs b p s
  running : ¬ Occurs b p .running
  uncertain : ¬ Occurs b p .uncertain

theorem Idle.change (h : Idle b p) {i : ι} {c : Cell τ} {status : Status} (hc : b i = some c)
    (hp : c.pipeline = p) (havoid : ∀ c status, enters c status → c.pipeline ≠ p)
    (hchange : Change enters b c status) : Settled c.status status := by
  cases hchange with
  | keep => exact .inl rfl
  | enter _ henters => exact absurd hp (havoid _ _ henters)
  | requeue hpending => exact .inr ⟨hpending, .inl rfl⟩
  | cancel hpending => exact .inr ⟨hpending, .inr rfl⟩
  | stop hrunning => exact absurd ⟨i, c, hc, hp, hrunning⟩ h.running
  | settle huncertain => exact absurd ⟨i, c, hc, hp, huncertain⟩ h.uncertain

theorem Idle.to (h : Idle b p) (hr : Round enters b b')
    (havoid : ∀ c status, enters c status → c.pipeline ≠ p) {s : Status} (hs : Occurs b p s) :
    ∃ s', Occurs b' p s' ∧ Settled s s' := by
  obtain ⟨i, c, hc, hp, rfl⟩ := hs
  obtain ⟨status, hchange, hi⟩ := hr.old i c hc
  exact ⟨status, ⟨i, _, hi, hp, rfl⟩, h.change hc hp havoid hchange⟩

theorem Idle.from (h : Idle b p) (hr : Round enters b b')
    (havoid : ∀ c status, enters c status → c.pipeline ≠ p) {s' : Status} (hs' : Occurs b' p s') :
    ∃ s, Occurs b p s ∧ Settled s s' := by
  obtain ⟨i, c', hc', hp, rfl⟩ := hs'
  cases hb : b i with
  | some c =>
    obtain ⟨status, hchange, hi⟩ := hr.old i c hb
    obtain rfl := Option.some.inj (hc'.symm.trans hi)
    exact ⟨c.status, ⟨i, c, hb, hp, rfl⟩, h.change hb hp havoid hchange⟩
  | none =>
    obtain ⟨_, j, d, hd, hdp, -⟩ := h.nonempty
    exact absurd (hdp.trans hp.symm) (hr.fresh i c' hb hc' j d hd)

theorem Settled.of_opened {s s' : Status} (h : Settled s s') (hs' : s' = .running ∨ s' = .uncertain) :
    s = s' := by
  rcases h with rfl | ⟨-, rfl | rfl⟩
  · rfl
  all_goals rcases hs' with h | h <;> cases h

theorem Idle.round (h : Idle b p) (hr : Round enters b b')
    (havoid : ∀ c status, enters c status → c.pipeline ≠ p) : Idle b' p := by
  refine ⟨?_, fun hs' => ?_, fun hs' => ?_⟩
  · obtain ⟨s, hs⟩ := h.nonempty
    obtain ⟨s', hs', -⟩ := h.to hr havoid hs
    exact ⟨s', hs'⟩
  · obtain ⟨s, hs, hsettled⟩ := h.from hr havoid hs'
    exact h.running (hsettled.of_opened (.inl rfl) ▸ hs)
  · obtain ⟨s, hs, hsettled⟩ := h.from hr havoid hs'
    exact h.uncertain (hsettled.of_opened (.inr rfl) ▸ hs)

/-- **A terminal pipeline with no work in progress stays as it is** through rounds in which none of
its cells enters. -/
theorem Rounds.closed (h : Rounds enters b b') (hidle : Idle b p)
    (havoid : ∀ c status, enters c status → c.pipeline ≠ p) :
    Idle b' p ∧ ∀ l l', Shows b p l → Shows b' p l' → (summary l).terminal = true →
      summary l' = summary l := by
  induction h with
  | refl =>
    refine ⟨hidle, fun l l' hl hl' hterminal => summary_settled (fun s hs => ?_) (fun s hs => ?_)
      hterminal⟩
    · exact ⟨s, (hl' s).2 ((hl s).1 hs), .inl rfl⟩
    · exact ⟨s, (hl s).2 ((hl' s).1 hs), .inl rfl⟩
  | @tail b₁ b₂ _ hr ih =>
    obtain ⟨hidle₁, hsummary⟩ := ih
    refine ⟨hidle₁.round hr havoid, fun l l' hl hl' hterminal => ?_⟩
    obtain ⟨l₁, hl₁⟩ := exists_shows b₁ p
    have heq := hsummary l l₁ hl hl₁ hterminal
    rw [← heq]
    refine summary_settled (fun s hs => ?_) (fun s' hs' => ?_) (by rwa [heq])
    · obtain ⟨s', hs', hsettled⟩ := hidle₁.to hr havoid ((hl₁ s).1 hs)
      exact ⟨s', (hl' s').2 hs', hsettled⟩
    · obtain ⟨s, hs, hsettled⟩ := hidle₁.from hr havoid ((hl' s').1 hs')
      exact ⟨s, (hl₁ s).2 hs, hsettled⟩

end Closed

end Pipeline
