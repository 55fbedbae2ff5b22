import AgentPlatform.Engine.Operations
import AgentPlatform.Lib.Runs

/-!
# What an operation does to the steps

The board of a database shows its steps as cells of their tasks. Every write an operation makes is a
`Move`: an update of steps whose status changes are legal, a refresh of a task, a new task, or a write
to the other tables. `moves_rounds` is the refinement: the moves of an operation are rounds of the
abstract board.
-/

namespace AgentPlatform.Engine

open Outcome Table Pipeline Runs

/-- A step as a cell of its task. -/
def StepRow.cell (s : StepRow) : Cell Uuid := ⟨s.task, s.spec.position, s.status⟩

/-- The steps as a board. -/
def Db.board (db : Db) : Board Uuid Uuid := fun id => (Table.get StepRow.id id db.steps).map StepRow.cell

/-- The keys and references of the tables. -/
structure Wf (db : Db) : Prop where
  steps : Keyed StepRow.id db.steps
  tasks : Keyed TaskRow.id db.tasks
  owned : ∀ s ∈ db.steps, ∃ t ∈ db.tasks, t.id = s.task ∧ t.tenant = s.tenant
  worked : ∀ t ∈ db.tasks, ∃ s ∈ db.steps, s.task = t.id
  stepDrawn : ∀ s ∈ db.steps, s.id < db.drawn
  taskDrawn : ∀ t ∈ db.tasks, t.id < db.drawn

theorem wf_empty : Wf {} where
  steps := keyed_nil _
  tasks := keyed_nil _
  owned := by simp
  worked := by simp
  stepDrawn := by simp
  taskDrawn := by simp

/-- One write of an operation. -/
inductive Move (enters : Cell Uuid → Status → Prop) (db : Db) : Db → Prop
  | steps {p : StepRow → Bool} {f : StepRow → StepRow} (hspec : ∀ r, (f r).spec = r.spec)
      (hchange : ∀ r ∈ db.steps, p r = true → Change enters db.board r.cell (f r).status) :
      Move enters db (db.setSteps p f)
  | refresh (tenant : String) (task : Uuid) : Move enters db (db.refresh tenant task)
  | create {row : TaskRow} {rows : List StepRow} {db' : Db} (htask : row.id = db.drawn)
      (htasks : db'.tasks = db.tasks ++ [row]) (hsteps : db'.steps = db.steps ++ rows)
      (hdrawn : row.id < db'.drawn) (hnonempty : rows ≠ []) (hkeyed : Keyed StepRow.id rows)
      (hplaces : Keyed (fun s => s.spec.position) rows)
      (hrows : ∀ s ∈ rows, s.task = row.id ∧ s.tenant = row.tenant ∧ s.status = .queued ∧
        row.id < s.id ∧ s.id < db'.drawn) :
      Move enters db db'
  | frame {db' : Db} (htasks : db'.tasks = db.tasks) (hsteps : db'.steps = db.steps)
      (hdrawn : db.drawn ≤ db'.drawn) : Move enters db db'

/-- The writes of an operation. -/
def Moves (enters : Cell Uuid → Status → Prop) : Db → Db → Prop := Relation.ReflTransGen (Move enters)

/-! ### The board -/

section Board

variable {db db' : Db} {enters : Cell Uuid → Status → Prop}

theorem board_some {id : Uuid} {c : Cell Uuid} (h : db.board id = some c) :
    ∃ s ∈ db.steps, s.id = id ∧ s.cell = c := by
  obtain ⟨s, hs, hc⟩ := Option.map_eq_some_iff.1 h
  exact ⟨s, mem_of_get hs, key_of_get hs, hc⟩

theorem Wf.board_eq (h : Wf db) {s : StepRow} (hs : s ∈ db.steps) :
    db.board s.id = some s.cell := by
  unfold Db.board
  rw [h.steps.get_eq hs rfl]
  rfl

theorem board_setSteps {p : StepRow → Bool} {f : StepRow → StepRow}
    (hspec : ∀ r, (f r).spec = r.spec) (id : Uuid) :
    (db.setSteps p f).board id =
      (Table.get StepRow.id id db.steps).map fun r => (if p r then f r else r).cell := by
  unfold Db.board
  have hid : ∀ r, StepRow.id (f r) = StepRow.id r := fun r => congrArg StepSpec.id (hspec r)
  change (Table.get StepRow.id id (Table.update p f db.steps)).map StepRow.cell = _
  rw [get_update_map hid, Option.map_map]
  rfl

theorem board_congr (h : db'.steps = db.steps) : db'.board = db.board := by
  unfold Db.board
  rw [h]

end Board

/-! ### Moves keep the tables well formed, and are rounds -/

section Refinement

variable {db db' : Db} {enters : Cell Uuid → Status → Prop}

variable {p : StepRow → Bool} {f : StepRow → StepRow}

theorem row_update {rows : List StepRow} {r' : StepRow} (hr' : r' ∈ Table.update p f rows)
    (hspec : ∀ r, (f r).spec = r.spec) :
    ∃ r ∈ rows, r'.spec = r.spec ∧ (p r = true ∧ r' = f r ∨ p r = false ∧ r' = r) := by
  obtain ⟨r, hr, rfl⟩ := mem_update.1 hr'
  refine ⟨r, hr, ?_⟩
  by_cases hp : p r = true
  · rw [if_pos hp]
    exact ⟨hspec r, .inl ⟨hp, rfl⟩⟩
  · rw [if_neg hp]
    exact ⟨rfl, .inr ⟨by simpa using hp, rfl⟩⟩

theorem spec_setSteps (hspec : ∀ r, (f r).spec = r.spec) {s : StepRow} (hs : s ∈ db.steps) :
    ∃ s' ∈ (db.setSteps p f).steps, s'.spec = s.spec := by
  by_cases hp : p s = true
  · exact ⟨f s, mem_update_of_pos hs hp, hspec s⟩
  · exact ⟨s, mem_update_of_not hs (by simpa using hp), rfl⟩

theorem Wf.setSteps (h : Wf db) (hspec : ∀ r, (f r).spec = r.spec) : Wf (db.setSteps p f) := by
  have hrow : ∀ r' ∈ (db.setSteps p f).steps, ∃ r ∈ db.steps, r'.spec = r.spec := by
    intro r' hr'
    obtain ⟨r, hr, heq, -⟩ := row_update hr' hspec
    exact ⟨r, hr, heq⟩
  refine ⟨h.steps.update fun r => congrArg StepSpec.id (hspec r), h.tasks, ?_, ?_, ?_, h.taskDrawn⟩
  · intro r' hr'
    obtain ⟨r, hr, heq⟩ := hrow r' hr'
    have howned := h.owned r hr
    simp only [StepRow.task, StepRow.tenant, heq] at howned ⊢
    exact howned
  · intro t ht
    obtain ⟨s, hs, htask⟩ := h.worked t ht
    obtain ⟨s', hs', hspec'⟩ := spec_setSteps hspec hs
    exact ⟨s', hs', (congrArg StepSpec.task hspec').trans htask⟩
  · intro r' hr'
    obtain ⟨r, hr, heq⟩ := hrow r' hr'
    have hdrawn := h.stepDrawn r hr
    simp only [StepRow.id, heq] at hdrawn ⊢
    exact hdrawn

theorem task_refresh (tenant : String) (task : Uuid) {t : TaskRow} (ht : t ∈ db.tasks) :
    ∃ status, { t with status := status } ∈ (db.refresh tenant task).tasks := by
  by_cases hp : (decide (t.tenant = tenant) && decide (t.id = task)) = true
  · exact ⟨_, mem_update_of_pos ht hp⟩
  · exact ⟨t.status, mem_update_of_not ht (by simpa using hp)⟩

theorem Wf.refresh (h : Wf db) (tenant : String) (task : Uuid) : Wf (db.refresh tenant task) := by
  refine ⟨h.steps, h.tasks.update fun _ => rfl, fun s hs => ?_, fun t' ht' => ?_, h.stepDrawn,
    fun t' ht' => ?_⟩
  · obtain ⟨t, ht, hid, htenant⟩ := h.owned s hs
    obtain ⟨status, ht'⟩ := task_refresh tenant task ht
    exact ⟨_, ht', hid, htenant⟩
  · obtain ⟨t, ht, rfl⟩ := mem_update.1 ht'
    obtain ⟨s, hs, htask⟩ := h.worked t ht
    refine ⟨s, hs, htask.trans ?_⟩
    split <;> rfl
  · obtain ⟨t, ht, rfl⟩ := mem_update.1 ht'
    have hid := h.taskDrawn t ht
    split <;> exact hid

theorem Wf.move (h : Wf db) (hm : Move enters db db') : Wf db' := by
  cases hm with
  | steps hspec => exact h.setSteps hspec
  | refresh tenant task => exact h.refresh tenant task
  | @create row rows _ htask htasks hsteps hdrawn hnonempty hkeyed hplaces hrows =>
    have hle : db.drawn ≤ db'.drawn := htask ▸ hdrawn.le
    refine ⟨?_, ?_, ?_, ?_, ?_, ?_⟩
    · rw [hsteps]
      unfold Keyed
      rw [List.map_append, List.nodup_append]
      refine ⟨h.steps, hkeyed, fun a ha b hb hab => ?_⟩
      obtain ⟨s, hs, rfl⟩ := List.mem_map.1 ha
      obtain ⟨s', hs', rfl⟩ := List.mem_map.1 hb
      have hgt := (hrows s' hs').2.2.2.1
      exact ((h.stepDrawn s hs).trans (htask ▸ hgt)).ne hab
    · rw [htasks]
      exact h.tasks.insert fun t ht => (htask ▸ h.taskDrawn t ht).ne
    · intro s hs
      rw [hsteps] at hs
      rw [htasks]
      rcases List.mem_append.1 hs with hs | hs
      · obtain ⟨t, ht, hid, htenant⟩ := h.owned s hs
        exact ⟨t, List.mem_append_left _ ht, hid, htenant⟩
      · obtain ⟨htask', htenant, -⟩ := hrows s hs
        exact ⟨row, List.mem_append_right _ List.mem_cons_self, htask'.symm, htenant.symm⟩
    · intro t ht
      rw [htasks] at ht
      rw [hsteps]
      rcases List.mem_append.1 ht with ht | ht
      · obtain ⟨s, hs, htask'⟩ := h.worked t ht
        exact ⟨s, List.mem_append_left _ hs, htask'⟩
      · obtain rfl := List.mem_singleton.1 ht
        obtain ⟨s, hs⟩ := List.exists_mem_of_ne_nil rows hnonempty
        exact ⟨s, List.mem_append_right _ hs, (hrows s hs).1⟩
    · intro s hs
      rw [hsteps] at hs
      rcases List.mem_append.1 hs with hs | hs
      · exact (h.stepDrawn s hs).trans_le hle
      · exact (hrows s hs).2.2.2.2
    · intro t ht
      rw [htasks] at ht
      rcases List.mem_append.1 ht with ht | ht
      · exact (h.taskDrawn t ht).trans_le hle
      · obtain rfl := List.mem_singleton.1 ht
        exact hdrawn
  | frame htasks hsteps hdrawn =>
    refine ⟨by rw [hsteps]; exact h.steps, by rw [htasks]; exact h.tasks,
      by rw [hsteps, htasks]; exact h.owned, by rw [hsteps, htasks]; exact h.worked, fun s hs => ?_,
      fun t ht => ?_⟩
    · rw [hsteps] at hs
      exact lt_of_lt_of_le (h.stepDrawn s hs) hdrawn
    · rw [htasks] at ht
      exact lt_of_lt_of_le (h.taskDrawn t ht) hdrawn

/-- A move is a round of the board, or leaves it alone. -/
theorem Move.round (h : Wf db) (hm : Move enters db db') :
    Round enters db.board db'.board ∨ db'.board = db.board := by
  cases hm with
  | @steps p f hspec hchange =>
    left
    have hcell : ∀ r, (if p r then f r else r).cell =
        { r.cell with status := (if p r then f r else r).status } := by
      intro r
      have hs : (if p r then f r else r).spec = r.spec := by
        split
        · exact hspec r
        · rfl
      simp [StepRow.cell, StepRow.task, hs]
    refine ⟨fun id c hc => ?_, fun id c hnone hc => ?_, fun id c hnone hc => ?_,
      fun id _ c _ hnone hc => ?_⟩
    · obtain ⟨s, hs, rfl⟩ := Option.map_eq_some_iff.1 hc
      refine ⟨(if p s then f s else s).status, ?_, ?_⟩
      · by_cases hp : p s = true
        · rw [if_pos hp]
          exact hchange s (mem_of_get hs) hp
        · rw [if_neg hp]
          exact .keep
      · rw [board_setSteps hspec, hs]
        exact congrArg some (hcell s)
    all_goals
      rw [board_setSteps hspec, Option.map_eq_none_iff.1 hnone] at hc
      cases hc
  | refresh => exact .inr rfl
  | @create row rows _ htask htasks hsteps hdrawn hnonempty hkeyed hplaces hrows =>
    left
    have hboard : ∀ id, db'.board id = (db.board id).or ((Table.get StepRow.id id rows).map
        StepRow.cell) := by
      intro id
      unfold Db.board Table.get
      rw [hsteps, List.find?_append, Option.map_or]
    have hnew : ∀ id c, db.board id = none → db'.board id = some c →
        ∃ s ∈ rows, s.id = id ∧ s.cell = c := by
      intro id c hnone hc
      rw [hboard, hnone, Option.none_or] at hc
      obtain ⟨s, hs, hcell⟩ := Option.map_eq_some_iff.1 hc
      exact ⟨s, mem_of_get hs, key_of_get hs, hcell⟩
    refine ⟨fun id c hc => ⟨c.status, .keep, by rw [hboard, hc]; rfl⟩, fun id c hnone hc => ?_,
      fun id c hnone hc j d hd => ?_, fun i j c d hnone hc hd hpipeline hposition => ?_⟩
    · obtain ⟨s, hs, -, rfl⟩ := hnew id c hnone hc
      exact (hrows s hs).2.2.1
    · obtain ⟨s, hs, -, rfl⟩ := hnew id c hnone hc
      obtain ⟨s', hs', -, rfl⟩ := board_some hd
      obtain ⟨t, ht, hid, -⟩ := h.owned s' hs'
      change s'.task ≠ s.task
      rw [(hrows s hs).1, htask, ← hid]
      exact (h.taskDrawn t ht).ne
    · obtain ⟨s, hs, rfl, rfl⟩ := hnew i c hnone hc
      cases hj : db.board j with
      | none =>
        obtain ⟨s', hs', rfl, rfl⟩ := hnew j d hj hd
        rw [hplaces.eq_of_key hs hs' hposition]
      | some d' =>
        rw [hboard, hj, Option.some_or] at hd
        obtain rfl := Option.some.inj hd
        obtain ⟨s', hs', -, rfl⟩ := board_some hj
        obtain ⟨t, ht, hid, -⟩ := h.owned s' hs'
        change s.task = s'.task at hpipeline
        rw [(hrows s hs).1, htask, ← hid] at hpipeline
        exact absurd hpipeline.symm (h.taskDrawn t ht).ne
  | frame _ hsteps => exact .inr (board_congr hsteps)

theorem Moves.spec (hm : Moves enters db db') {s : StepRow} (hs : s ∈ db.steps) :
    ∃ s' ∈ db'.steps, s'.spec = s.spec := by
  induction hm with
  | refl => exact ⟨s, hs, rfl⟩
  | tail _ hm ih =>
    obtain ⟨s', hs', heq⟩ := ih
    cases hm with
    | steps hspec =>
      obtain ⟨s'', hs'', heq'⟩ := spec_setSteps hspec hs'
      exact ⟨s'', hs'', heq'.trans heq⟩
    | refresh => exact ⟨s', hs', heq⟩
    | create _ _ hsteps => exact ⟨s', hsteps ▸ List.mem_append_left _ hs', heq⟩
    | frame _ hsteps => exact ⟨s', hsteps ▸ hs', heq⟩

theorem Moves.task (hm : Moves enters db db') {t : TaskRow} (ht : t ∈ db.tasks) :
    ∃ status, { t with status := status } ∈ db'.tasks := by
  induction hm with
  | refl => exact ⟨t.status, ht⟩
  | tail _ hm ih =>
    obtain ⟨status, ht'⟩ := ih
    cases hm with
    | steps => exact ⟨status, ht'⟩
    | refresh tenant task =>
      obtain ⟨status', ht''⟩ := task_refresh tenant task ht'
      exact ⟨status', ht''⟩
    | create _ htasks => exact ⟨status, htasks ▸ List.mem_append_left _ ht'⟩
    | frame htasks => exact ⟨status, htasks ▸ ht'⟩

theorem Moves.drawn_le (hm : Moves enters db db') : db.drawn ≤ db'.drawn := by
  induction hm with
  | refl => exact le_rfl
  | tail _ hm ih =>
    refine ih.trans ?_
    cases hm with
    | steps | refresh => exact le_rfl
    | create htask _ _ hdrawn => exact htask ▸ hdrawn.le
    | frame _ _ hdrawn => exact hdrawn

theorem Wf.moves (h : Wf db) (hm : Moves enters db db') : Wf db' := by
  induction hm with
  | refl => exact h
  | tail _ hm ih => exact ih.move hm

theorem moves_rounds (h : Wf db) (hm : Moves enters db db') :
    Rounds enters db.board db'.board := by
  induction hm with
  | refl => exact .refl
  | tail hms hm ih =>
    rcases hm.round (h.moves hms) with hr | heq
    · exact ih.tail hr
    · rw [heq]
      exact ih

end Refinement

end AgentPlatform.Engine
