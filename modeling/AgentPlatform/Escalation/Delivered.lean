import AgentPlatform.Engine.SingleStep
import AgentPlatform.Escalation.Loop
import AgentPlatform.JsonSize

/-!
# How often a work item is delivered

A worker holds the work items it has claimed until it has marked them. `Ledgered` is the invariant that
ties the ledger to the deliveries: an item that is held, or whose row is `failed` or `submitted`, is in
no live delivery but the one its holder or its row names (`Only`). It survives every statement but one:
`_claim` takes a `queued` row over from whoever claimed it. Where that happens only to items that nobody
holds and whose deliveries have all failed (`Released`), an item is in at most one live delivery
(`delivered_once`); where it does not, in two (`delivered_twice`).
-/

namespace AgentPlatform.Escalation

open Outcome Engine Table Runs Pipeline

/-- The delivery failed, or was cancelled. -/
def Failed (db : Db) (task : Uuid) : Prop :=
  ∃ t ∈ db.tasks, t.id = task ∧ (t.status = .failed ∨ t.status = .cancelled)

/-- The work items a worker holds: claimed, and not marked yet. -/
def Stage.held : Stage → List WorkItem
  | .claiming r _ _ _ items | .delivering r _ _ items | .conflicted r _ items
  | .marking r items _ _ _ _ => items.map r.item
  | _ => []

/-- The task a worker marks its items with. -/
def Stage.task? : Stage → Option Uuid
  | .marking _ _ .submitted run _ _ => run
  | _ => none

/-- The verdicts a worker still has to write. -/
def Stage.verdicts : Stage → List (String × Uuid × LedgerStatus)
  | .settling _ verdicts => verdicts
  | _ => []

/-- The task a row waits for. -/
def LedgerRow.task? (row : LedgerRow) : Option Uuid :=
  if row.status = .submitted then row.run else none

/-- The work item is in no live delivery, but for the task `T`. -/
def Only (db : Db) (batches : List Batch) (k : WorkItem) (T : Option Uuid) : Prop :=
  ∀ b ∈ batches, k ∈ b.items → Failed db b.task ∨ T = some b.task

/-- A `queued` row is taken over only where nobody holds its item any more, and every delivery of it
has failed. -/
def Released (s : State) : Label → Prop
  | .claim w _ => ∀ r now feed i rest items, s.workers w = .claiming r now feed (i :: rest) items →
      ∀ row ∈ s.ledger, row.key = r.item i → row.status = .queued →
        (∀ v, r.item i ∉ (s.workers v).held) ∧ Only s.db s.batches (r.item i) none
  | _ => True

/-- The invariant of the ledger. -/
structure Ledgered (s : State) : Prop where
  orderly : Orderly s.db
  synced : Synced s.db
  solo : ∀ b ∈ s.batches, Solo s.db b.task
  unique : Keyed LedgerRow.key s.ledger
  listed : ∀ b ∈ s.batches, ∀ k ∈ b.items, ∃ row ∈ s.ledger, row.key = k
  rows : ∀ row ∈ s.ledger, row.status = .failed ∨ row.status = .submitted →
    Only s.db s.batches row.key row.task?
  apart : ∀ v w, ∀ k ∈ (s.workers v).held, k ∈ (s.workers w).held → v = w
  once : ∀ w, (s.workers w).held.Nodup
  queued : ∀ w, ∀ k ∈ (s.workers w).held, ∃ row ∈ s.ledger, row.key = k ∧ row.status = .queued
  held : ∀ w, ∀ k ∈ (s.workers w).held, Only s.db s.batches k (s.workers w).task?
  verdicts : ∀ w schedule run, (schedule, run, .failed) ∈ (s.workers w).verdicts →
    run < s.db.drawn ∧ ∀ b ∈ s.batches, b.task = run → Failed s.db run
  single : ∀ b ∈ s.batches, ∀ b' ∈ s.batches, ∀ k ∈ b.items, k ∈ b'.items →
    Failed s.db b.task ∨ Failed s.db b'.task ∨ b.task = b'.task

theorem ledgered_empty : Ledgered {} where
  orderly := orderly_empty
  synced := synced_empty
  solo _ hb := absurd hb List.not_mem_nil
  unique := keyed_nil _
  listed _ hb := absurd hb List.not_mem_nil
  rows _ hrow := absurd hrow List.not_mem_nil
  apart _ _ _ hk := absurd hk List.not_mem_nil
  once _ := List.nodup_nil
  queued _ _ hk := absurd hk List.not_mem_nil
  held _ _ hk := absurd hk List.not_mem_nil
  verdicts _ _ _ hv := absurd hv List.not_mem_nil
  single _ hb := absurd hb List.not_mem_nil

/-! ### The database under the ledger -/

section Database

variable {P : Platform} {s : State} {db db' : Db} {batches : List Batch} {k : WorkItem}
  {T : Option Uuid}

/-- What an operation of the engine leaves of the deliveries. -/
structure Evolved (s : State) (db : Db) : Prop where
  orderly : Orderly db
  synced : Synced db
  solo : ∀ b ∈ s.batches, Solo db b.task
  failed : ∀ b ∈ s.batches, Failed s.db b.task → Failed db b.task
  drawn : s.db.drawn ≤ db.drawn

theorem Ledgered.evolved_self (h : Ledgered s) : Evolved s s.db :=
  ⟨h.orderly, h.synced, h.solo, fun _ _ hfailed => hfailed, le_rfl⟩

theorem Ledgered.evolved (h : Ledgered s) {op : Op} {out : Reply}
    (he : Engine.Effect P s.db op out db) : Evolved s db where
  orderly := he.orderly h.orderly
  synced := he.synced h.orderly h.synced
  solo b hb := he.solo h.orderly (h.solo b hb)
  failed b hb := by
    rintro ⟨t, ht, hid, hstatus⟩
    refine ⟨t, he.solo_kept h.orderly h.synced (h.solo b hb) ht hid ?_, hid, hstatus⟩
    rcases hstatus with hs | hs
    all_goals
      rw [hs]
      rfl
  drawn := (he.moves h.orderly.wf h.orderly.placed).drawn_le

theorem Only.evolved (h : Only s.db s.batches k T) (he : Evolved s db) : Only db s.batches k T :=
  fun b hb hk => (h b hb hk).imp_left (he.failed b hb)

theorem Only.weaken (h : Only db batches k none) : Only db batches k T := by
  intro b hb hk
  rcases h b hb hk with hfailed | hnone
  · exact .inl hfailed
  · cases hnone

end Database

/-! ### The workers -/

/-- A worker that moves on without claiming anything: it may drop items, and it may name the task of the
items it holds. -/
structure Tame (a b : Stage) : Prop where
  held : b.held.Sublist a.held
  task? : b.held = [] ∨ a.task? = none ∨ b.task? = a.task?
  verdicts : b.verdicts ⊆ a.verdicts

section Workers

variable {P : Platform} {s : State} {w : ℕ} {stage : Stage}

theorem Tame.refl (a : Stage) : Tame a a := ⟨List.Sublist.refl _, .inr (.inr rfl), fun _ h => h⟩

theorem tame_goto (h : Tame (s.workers w) stage) (v : ℕ) :
    Tame (s.workers v) ((s.goto w stage).workers v) := by
  change Tame _ (Function.update s.workers w stage v)
  by_cases hv : v = w
  · subst hv
    rwa [Function.update_self]
  · rw [Function.update_of_ne hv]
    exact .refl _

/-- Tame workers over a database that evolves. -/
theorem Ledgered.moved (h : Ledgered s) {db : Db} {schedules : List ScheduleRow} {workers : ℕ → Stage}
    (hdb : Evolved s db) (hw : ∀ w, Tame (s.workers w) (workers w)) :
    Ledgered { s with db := db, schedules := schedules, workers := workers } where
  orderly := hdb.orderly
  synced := hdb.synced
  solo := hdb.solo
  unique := h.unique
  listed := h.listed
  rows row hrow hstatus := (h.rows row hrow hstatus).evolved hdb
  apart v w k hv hk := h.apart v w k ((hw v).held.subset hv) ((hw w).held.subset hk)
  once w := (hw w).held.nodup (h.once w)
  queued w k hk := h.queued w k ((hw w).held.subset hk)
  held w k hk := by
    have hold := (h.held w k ((hw w).held.subset hk)).evolved hdb
    rcases (hw w).task? with hnil | hnone | heq
    · change k ∈ (workers w).held at hk
      rw [hnil] at hk
      exact absurd hk List.not_mem_nil
    · rw [hnone] at hold
      exact hold.weaken
    · change Only db s.batches k (workers w).task?
      rwa [heq]
  verdicts w schedule run hv := by
    obtain ⟨hlt, hfailed⟩ := h.verdicts w schedule run ((hw w).verdicts hv)
    refine ⟨hlt.trans_le hdb.drawn, fun b hb htask => ?_⟩
    have hold := hfailed b hb htask
    rw [← htask] at hold ⊢
    exact hdb.failed b hb hold
  single b hb b' hb' k hk hk' := by
    rcases h.single b hb b' hb' k hk hk' with hf | hf | heq
    · exact .inl (hdb.failed b hb hf)
    · exact .inr (.inl (hdb.failed b' hb' hf))
    · exact .inr (.inr heq)

theorem Ledgered.goto (h : Ledgered s) (hstage : Tame (s.workers w) stage) :
    Ledgered (s.goto w stage) :=
  h.moved h.evolved_self (tame_goto hstage)

theorem tame_of_empty {a b : Stage} (hheld : b.held = []) (hverdicts : b.verdicts = []) : Tame a b :=
  ⟨hheld ▸ List.nil_sublist _, .inl hheld, hverdicts ▸ List.nil_subset _⟩

theorem tame_of_held {a b : Stage} (hheld : b.held = a.held) (htask : a.task? = none)
    (hverdicts : b.verdicts = []) : Tame a b :=
  ⟨hheld ▸ List.Sublist.refl _, .inr (.inl htask), hverdicts ▸ List.nil_subset _⟩

/-- A worker that takes an item up. -/
theorem Ledgered.hold (h : Ledgered s) {k : WorkItem}
    (hstage : stage.held = (s.workers w).held ++ [k]) (htask : stage.task? = none)
    (htask' : (s.workers w).task? = none) (hverdicts : stage.verdicts = [])
    (hfree : ∀ v, k ∉ (s.workers v).held)
    (hqueued : ∃ row ∈ s.ledger, row.key = k ∧ row.status = .queued)
    (honly : Only s.db s.batches k none) : Ledgered (s.goto w stage) := by
  have hmem : ∀ v x, x ∈ ((s.goto w stage).workers v).held →
      x ∈ (s.workers v).held ∨ v = w ∧ x = k := by
    intro v x hx
    change x ∈ (Function.update s.workers w stage v).held at hx
    by_cases hv : v = w
    · subst hv
      rw [Function.update_self, hstage] at hx
      rcases List.mem_append.1 hx with hx | hx
      · exact .inl hx
      · exact .inr ⟨rfl, List.mem_singleton.1 hx⟩
    · rw [Function.update_of_ne hv] at hx
      exact .inl hx
  refine ⟨h.orderly, h.synced, h.solo, h.unique, h.listed, h.rows, ?_, fun v => ?_, ?_, ?_, ?_, h.single⟩
  · intro v v' x hx hx'
    rcases hmem v x hx with hold | ⟨rfl, rfl⟩
    · rcases hmem v' x hx' with hold' | ⟨rfl, rfl⟩
      · exact h.apart v v' x hold hold'
      · exact absurd hold (hfree v)
    · rcases hmem v' x hx' with hold' | ⟨rfl, -⟩
      · exact absurd hold' (hfree v')
      · rfl
  · change (Function.update s.workers w stage v).held.Nodup
    by_cases hv : v = w
    · subst hv
      rw [Function.update_self, hstage]
      refine List.nodup_append.2 ⟨h.once v, List.nodup_singleton k, ?_⟩
      intro a ha b hb hab
      rw [List.mem_singleton.1 hb] at hab
      exact hfree v (hab ▸ ha)
    · rw [Function.update_of_ne hv]
      exact h.once v
  · intro v x hx
    rcases hmem v x hx with hx | ⟨-, rfl⟩
    · exact h.queued v x hx
    · exact hqueued
  · intro v x hx
    change Only s.db s.batches x (Function.update s.workers w stage v).task?
    by_cases hv : v = w
    · subst hv
      rw [Function.update_self, htask]
      rcases hmem v x hx with hx | ⟨-, rfl⟩
      · exact htask' ▸ h.held v x hx
      · exact honly
    · rw [Function.update_of_ne hv]
      rcases hmem v x hx with hx | ⟨rfl, -⟩
      · exact h.held v x hx
      · exact absurd rfl hv
  · intro v schedule run hrun
    change (schedule, run, _) ∈ (Function.update s.workers w stage v).verdicts at hrun
    by_cases hv : v = w
    · subst hv
      rw [Function.update_self, hverdicts] at hrun
      exact absurd hrun List.not_mem_nil
    · rw [Function.update_of_ne hv] at hrun
      exact h.verdicts v schedule run hrun

end Workers

/-! ### The ledger -/

section Ledger

variable {P : Platform} {s : State} {w : ℕ} {k : WorkItem}

/-- An update of the ledger that leaves no row saying more than it knows, and no held row but
`queued`. -/
theorem Ledgered.update (h : Ledgered s) {p : LedgerRow → Bool} {f : LedgerRow → LedgerRow}
    (hkey : ∀ row, (f row).key = row.key)
    (hrows : ∀ row ∈ s.ledger, p row = true → (f row).status = .failed ∨ (f row).status = .submitted →
      Only s.db s.batches row.key (f row).task?)
    (hqueued : ∀ row ∈ s.ledger, p row = true → row.status = .queued →
      (f row).status = .queued ∨ ∀ v, row.key ∉ (s.workers v).held) :
    Ledgered { s with ledger := Table.update p f s.ledger } :=
  { h with
    unique := h.unique.update hkey
    listed b hb k hk := by
      obtain ⟨row, hrow, rfl⟩ := h.listed b hb k hk
      refine ⟨_, mem_update.2 ⟨row, hrow, rfl⟩, ?_⟩
      split
      · exact hkey row
      · rfl
    rows row' hrow' hstatus := by
      obtain ⟨row, hrow, rfl⟩ := mem_update.1 hrow'
      split at hstatus
      · rename_i hp
        rw [if_pos hp, hkey]
        exact hrows row hrow hp hstatus
      · rename_i hp
        rw [if_neg hp]
        exact h.rows row hrow hstatus
    queued v k hk := by
      obtain ⟨row, hrow, rfl, hstatus⟩ := h.queued v k hk
      refine ⟨_, mem_update.2 ⟨row, hrow, rfl⟩, ?_⟩
      split
      · rename_i hp
        refine ⟨hkey row, (hqueued row hrow hp hstatus).resolve_right fun hfree => hfree v hk⟩
      · exact ⟨rfl, hstatus⟩ }

/-- A new row. -/
theorem Ledgered.insert (h : Ledgered s) {row : LedgerRow} (hfresh : ∀ x ∈ s.ledger, x.key ≠ row.key)
    (hstatus : row.status = .queued) : Ledgered { s with ledger := s.ledger ++ [row] } :=
  { h with
    unique := h.unique.insert hfresh
    listed b hb k hk := by
      obtain ⟨x, hx, hkey⟩ := h.listed b hb k hk
      exact ⟨x, List.mem_append_left _ hx, hkey⟩
    rows x hx hx' := by
      rcases List.mem_append.1 hx with hx | hx
      · exact h.rows x hx hx'
      · obtain rfl := List.mem_singleton.1 hx
        rw [hstatus] at hx'
        rcases hx' with hx' | hx' <;> cases hx'
    queued v k hk := by
      obtain ⟨x, hx, hkey⟩ := h.queued v k hk
      exact ⟨x, List.mem_append_left _ hx, hkey⟩ }

theorem Ledgered.not_held (h : Ledgered s) {row : LedgerRow} (hrow : row ∈ s.ledger)
    (hstatus : row.status ≠ .queued) (v : ℕ) : row.key ∉ (s.workers v).held := by
  intro hk
  obtain ⟨x, hx, hkey, hqueued⟩ := h.queued v _ hk
  obtain rfl := h.unique.eq_of_key hx hrow hkey
  exact hstatus hqueued

theorem Ledgered.take (h : Ledgered s) (row : LedgerRow) (now : Time) :
    Ledgered { s with ledger := (takeRow s.ledger row now).1 } := by
  refine h.update (fun _ => rfl) (fun x _ _ hstatus => ?_) fun _ _ _ _ => .inl rfl
  rcases hstatus with hstatus | hstatus <;> cases hstatus

theorem Ledgered.exhaust (h : Ledgered s) (k : WorkItem) :
    Ledgered { s with ledger := markExhausted s.ledger k } := by
  refine h.update (fun _ => rfl) (fun row hrow _ hstatus => ?_) fun _ _ _ hqueued => .inl hqueued
  exact h.rows row hrow hstatus

theorem queued_takeRow {row : LedgerRow} (hrow : row ∈ s.ledger) (now : Time) :
    ∃ x ∈ (takeRow s.ledger row now).1, x.key = row.key ∧ x.status = .queued := by
  unfold takeRow
  dsimp only
  exact ⟨_, mem_update_of_pos (p := fun x : LedgerRow => decide (x.key = row.key) &&
    decide (x.lastAttempt = row.lastAttempt)) hrow (by simp), rfl, rfl⟩

/-- What `_claim` does: it leaves the item alone, or it takes it from an absent, failed or queued row. -/
theorem claim_cases (ledger : List LedgerRow) (r : ScheduleRow) (i : Item) (now : Time) :
    claim ledger r i now = (ledger, none) ∨
    claim ledger r i now = (markExhausted ledger (r.item i), none) ∨
    (∃ row, (∀ x ∈ ledger, x.key ≠ row.key) ∧ row.key = r.item i ∧ row.status = .queued ∧
      claim ledger r i now = (ledger ++ [row], some 1)) ∨
    ∃ row ∈ ledger, row.key = r.item i ∧ (row.status = .failed ∨ row.status = .queued) ∧
      claim ledger r i now = takeRow ledger row now := by
  unfold claim
  split
  · rename_i hnone
    exact .inr (.inr (.inl ⟨⟨r.tenant, r.id, i.person, i.task, i.due, none, 1, .queued, now, ""⟩,
      get_eq_none.1 hnone, rfl, rfl, rfl⟩))
  · rename_i row hget
    have hrow := mem_of_get hget
    have hkey := key_of_get hget
    split
    · exact .inl rfl
    · exact .inl rfl
    · exact .inl rfl
    · rename_i hstatus
      split
      · exact .inr (.inl rfl)
      · split
        · exact .inl rfl
        · exact .inr (.inr (.inr ⟨row, hrow, hkey, .inl hstatus, rfl⟩))
    · rename_i hstatus
      exact .inr (.inr (.inr ⟨row, hrow, hkey, .inr hstatus, rfl⟩))

/-- One claim. -/
theorem Ledgered.claimOne (h : Ledgered s) {raises : Bool} {r : ScheduleRow} {now : Time}
    {feed : Feed} {i : Item} {rest items : List Item}
    (hw : s.workers w = .claiming r now feed (i :: rest) items)
    (hreleased : Released s (.claim w raises)) :
    Ledgered (s.claimOne w raises r now feed i rest items) := by
  have hkept : ∀ {ledger : List LedgerRow}, Ledgered { s with ledger := ledger } →
      Ledgered (State.goto { s with ledger := ledger } w (.claiming r now feed rest items)) := by
    intro ledger h
    exact h.goto (tame_of_held (by rw [hw]; rfl) (by rw [hw]; rfl) rfl)
  -- an item nobody holds, in no live delivery, whose row is queued now
  have htaken : ∀ {ledger : List LedgerRow}, Ledgered { s with ledger := ledger } →
      (∀ v, r.item i ∉ (s.workers v).held) →
      (∃ row ∈ ledger, row.key = r.item i ∧ row.status = .queued) →
      Only s.db s.batches (r.item i) none →
      Ledgered (State.goto { s with ledger := ledger } w (.claiming r now feed
        (if r.maxPerCycle ≤ (items ++ [i]).length then [] else rest) (items ++ [i]))) := by
    intro ledger h hfree hqueued honly
    refine h.hold ?_ rfl ?_ rfl hfree hqueued honly
    · rw [show ({ s with ledger := ledger } : State).workers w = s.workers w from rfl, hw]
      exact List.map_append
    · rw [show ({ s with ledger := ledger } : State).workers w = s.workers w from rfl, hw]
      rfl
  unfold State.claimOne
  split
  · exact hkept h
  · rcases claim_cases s.ledger r i now with
      heq | heq | ⟨row, hfresh, hkey, hstatus, heq⟩ | ⟨row, hrow, hkey, hstatus, heq⟩
    · rw [heq]
      exact hkept h
    · rw [heq]
      exact hkept (h.exhaust _)
    · rw [heq]
      refine htaken (h.insert hfresh hstatus) (fun v hk => ?_)
        ⟨row, List.mem_append_right _ List.mem_cons_self, hkey, hstatus⟩ fun b hb hk => ?_
      · obtain ⟨x, hx, hx', -⟩ := h.queued v _ hk
        exact hfresh x hx (hx'.trans hkey.symm)
      · obtain ⟨x, hx, hx'⟩ := h.listed b hb _ hk
        exact absurd (hx'.trans hkey.symm) (hfresh x hx)
    · rw [heq]
      have hqueued := queued_takeRow hrow now
      rw [hkey] at hqueued
      have htake := h.take row now
      generalize takeRow s.ledger row now = taken at hqueued htake ⊢
      obtain ⟨ledger, _ | n⟩ := taken
      · exact hkept htake
      · rcases hstatus with hfailed | hq
        · have hnone : row.task? = none := by
            unfold LedgerRow.task?
            rw [hfailed]
            rfl
          refine htaken htake (fun v => ?_) hqueued ?_
          · exact hkey ▸ h.not_held hrow (by rw [hfailed]; simp) v
          · exact hkey ▸ hnone ▸ h.rows row hrow (.inl hfailed)
        · obtain ⟨hfree, honly⟩ := hreleased r now feed i rest items hw row hrow hkey hq
          exact htaken htake hfree hqueued honly

/-- One item marked. -/
theorem Ledgered.markOne (h : Ledgered s) {r : ScheduleRow} {i : Item} {rest : List Item}
    {status : LedgerStatus} {run : Option Uuid} {error : String} {exit : Exit}
    (hw : s.workers w = .marking r (i :: rest) status run error exit) :
    Ledgered (State.goto { s with ledger := mark s.ledger (r.item i) status run error } w
      (.marking r rest status run error exit)) := by
  have hmem : r.item i ∈ (s.workers w).held := by
    rw [hw]
    exact List.mem_cons_self
  have hnodup : (r.item i :: rest.map r.item).Nodup := by
    have honce := h.once w
    rwa [hw] at honce
  have ht : Ledgered (s.goto w (.marking r rest status run error exit)) := by
    refine h.goto ⟨?_, .inr (.inr ?_), List.nil_subset _⟩
    · rw [hw]
      exact List.sublist_cons_self _ _
    · rw [hw]
      cases status <;> rfl
  have honly := h.held w _ hmem
  refine ht.update (fun _ => rfl) (fun row _ hp hstatus => ?_) fun row _ hp _ => .inr fun v hk => ?_
  · rw [of_decide_eq_true hp]
    have htask : (s.workers w).task? = LedgerRow.task? { row with
        status := status, run := run, lastError := truncate 200 error } := by
      rw [hw]
      cases status <;> rfl
    rwa [htask] at honly
  · rw [of_decide_eq_true hp] at hk
    change r.item i ∈ (Function.update s.workers w _ v).held at hk
    by_cases hv : v = w
    · subst hv
      rw [Function.update_self] at hk
      exact (List.nodup_cons.1 hnodup).1 hk
    · rw [Function.update_of_ne hv] at hk
      exact hv (h.apart v w _ hk hmem)

/-- The verdict of `_settle` on one task. -/
theorem Ledgered.settleOne (h : Ledgered s) {tenant schedule : String} {run : Uuid}
    {status : LedgerStatus} {rest : List (String × Uuid × LedgerStatus)}
    (hw : s.workers w = .settling tenant ((schedule, run, status) :: rest)) :
    Ledgered (State.goto { s with ledger := settleTask s.ledger tenant schedule run status } w
      (.settling tenant rest)) := by
  have ht : Ledgered (s.goto w (.settling tenant rest)) := by
    refine h.goto ⟨List.nil_sublist _, .inl rfl, ?_⟩
    rw [hw]
    exact List.subset_cons_self _ _
  refine ht.update (fun _ => rfl) (fun row hrow hp hstatus => ?_) fun row _ hp hqueued => ?_
  · simp only [Bool.and_eq_true, decide_eq_true_eq] at hp
    obtain ⟨⟨-, hrun⟩, hsubmitted⟩ := hp
    have htask : row.task? = some run := by
      unfold LedgerRow.task?
      rw [if_pos hsubmitted, hrun]
    have honly := h.rows row hrow (.inr hsubmitted)
    rw [htask] at honly
    rcases hstatus with hfailed | hsubmitted'
    · -- the row fails with its task, so its item is in no live delivery
      intro b hb hk
      rcases honly b hb hk with hf | heq
      · exact .inl hf
      · obtain rfl : run = b.task := Option.some.inj heq
        refine .inl ((h.verdicts w schedule b.task ?_).2 b hb rfl)
        rw [hw, ← (show status = .failed from hfailed)]
        exact List.mem_cons_self
    · have htask' : LedgerRow.task? { row with status := status } = some run := by
        unfold LedgerRow.task?
        rw [if_pos hsubmitted']
        exact hrun
      rw [htask']
      exact honly
  · simp only [Bool.and_eq_true, decide_eq_true_eq] at hp
    rw [hp.2] at hqueued
    cases hqueued

theorem mem_verdicts {db : Db} {ledger : List LedgerRow} {tenant schedule : String} {run : Uuid}
    (h : (schedule, run, .failed) ∈ verdicts db ledger tenant) : Failed db run := by
  unfold verdicts at h
  obtain ⟨row, -, hrow⟩ := List.mem_filterMap.1 (List.mem_dedup.1 h)
  split at hrow
  · obtain ⟨run', -, hmap⟩ := Option.bind_eq_some_iff.1 hrow
    obtain ⟨status, hstatus, heq⟩ := Option.map_eq_some_iff.1 hmap
    obtain ⟨-, rfl, rfl⟩ : row.schedule = schedule ∧ run' = run ∧ status = .failed := by
      simpa using heq
    obtain ⟨t, ht, hverdict⟩ := Option.bind_eq_some_iff.1 hstatus
    have hid := List.find?_some ht
    simp only [Bool.and_eq_true, decide_eq_true_eq] at hid
    refine ⟨t, List.mem_of_find?_eq_some ht, hid.1, ?_⟩
    cases hs : t.status <;> simp_all [taskToLedger]
  · cases hrow

/-- The read of `_settle`. -/
theorem Ledgered.settle (h : Ledgered s) (tenant : String) :
    Ledgered (s.goto w (.settling tenant (Escalation.verdicts s.db s.ledger tenant))) := by
  generalize hread : Escalation.verdicts s.db s.ledger tenant = read
  have hidle : Ledgered (s.goto w .idle) := h.goto (tame_of_empty rfl rfl)
  have hheld : ∀ v, ((s.goto w (.settling tenant read)).workers v).held =
      ((s.goto w .idle).workers v).held ∧
        ((s.goto w (.settling tenant read)).workers v).task? =
          ((s.goto w .idle).workers v).task? := by
    intro v
    change (Function.update s.workers w _ v).held = (Function.update s.workers w _ v).held ∧
      (Function.update s.workers w _ v).task? = (Function.update s.workers w _ v).task?
    by_cases hv : v = w
    · subst hv
      rw [Function.update_self, Function.update_self]
      exact ⟨rfl, rfl⟩
    · rw [Function.update_of_ne hv, Function.update_of_ne hv]
      exact ⟨rfl, rfl⟩
  refine ⟨h.orderly, h.synced, h.solo, h.unique, h.listed, h.rows, ?_, ?_, ?_, ?_, ?_, h.single⟩
  · intro v v' k hk hk'
    rw [(hheld _).1] at hk hk'
    exact hidle.apart v v' k hk hk'
  · intro v
    rw [(hheld v).1]
    exact hidle.once v
  · intro v k hk
    rw [(hheld v).1] at hk
    exact hidle.queued v k hk
  · intro v k hk
    rw [(hheld v).1] at hk
    rw [(hheld v).2]
    exact hidle.held v k hk
  · intro v schedule run hrun
    change (schedule, run, _) ∈ (Function.update s.workers w _ v).verdicts at hrun
    by_cases hv : v = w
    · subst hv
      rw [Function.update_self, ← hread] at hrun
      have hfailed := mem_verdicts hrun
      obtain ⟨t, ht, rfl, -⟩ := id hfailed
      exact ⟨h.orderly.wf.taskDrawn t ht, fun _ _ _ => hfailed⟩
    · rw [Function.update_of_ne hv] at hrun
      exact h.verdicts v schedule run hrun

/-- A new delivery of the items a worker holds. -/
theorem Ledgered.delivered (h : Ledgered s) {db : Db} {items : List WorkItem} {stage : Stage}
    (hdb : Evolved s db) (hsolo : Solo db s.db.drawn) (hitems : (s.workers w).held = items)
    (htask : (s.workers w).task? = none) (hstage : stage.held = items)
    (hstage' : stage.task? = some s.db.drawn) (hverdicts : stage.verdicts = []) :
    Ledgered (State.goto { s with
      db := db, batches := s.batches ++ [⟨s.db.drawn, items⟩] } w stage) := by
  have hheld : ∀ v, ((State.goto { s with
      db := db, batches := s.batches ++ [⟨s.db.drawn, items⟩] } w stage).workers v).held =
        (s.workers v).held := by
    intro v
    change (Function.update s.workers w stage v).held = _
    by_cases hv : v = w
    · subst hv
      rw [Function.update_self, hstage, hitems]
    · rw [Function.update_of_ne hv]
  -- the items were in no live delivery
  have hnone : ∀ k ∈ items, Only db s.batches k none := by
    intro k hk
    have honly := (h.held w k (hitems ▸ hk)).evolved hdb
    rwa [htask] at honly
  have hold : ∀ {k : WorkItem} {T : Option Uuid}, k ∉ items → Only s.db s.batches k T →
      Only db (s.batches ++ [⟨s.db.drawn, items⟩]) k T := by
    intro k T hk honly b hb hkb
    rcases List.mem_append.1 hb with hb | hb
    · exact (honly.evolved hdb) b hb hkb
    · obtain rfl := List.mem_singleton.1 hb
      exact absurd hkb hk
  refine ⟨hdb.orderly, hdb.synced, ?_, h.unique, ?_, ?_, ?_, ?_, ?_, ?_, ?_, ?_⟩
  · intro b hb
    rcases List.mem_append.1 hb with hb | hb
    · exact hdb.solo b hb
    · obtain rfl := List.mem_singleton.1 hb
      exact hsolo
  · intro b hb k hk
    rcases List.mem_append.1 hb with hb | hb
    · exact h.listed b hb k hk
    · obtain rfl := List.mem_singleton.1 hb
      obtain ⟨row, hrow, hkey, -⟩ := h.queued w k (hitems ▸ hk)
      exact ⟨row, hrow, hkey⟩
  · intro row hrow hstatus
    refine hold (fun hk => h.not_held hrow ?_ w (hitems ▸ hk)) (h.rows row hrow hstatus)
    rcases hstatus with hs | hs
    all_goals
      rw [hs]
      simp
  · intro v v' k hk hk'
    rw [hheld] at hk hk'
    exact h.apart v v' k hk hk'
  · intro v
    rw [hheld]
    exact h.once v
  · intro v k hk
    rw [hheld] at hk
    exact h.queued v k hk
  · intro v k hk
    rw [hheld] at hk
    change Only db _ k (Function.update s.workers w stage v).task?
    by_cases hv : v = w
    · subst hv
      rw [Function.update_self, hstage']
      intro b hb hkb
      rcases List.mem_append.1 hb with hb | hb
      · exact (hnone k (hitems ▸ hk)).weaken b hb hkb
      · obtain rfl := List.mem_singleton.1 hb
        exact .inr rfl
    · rw [Function.update_of_ne hv]
      exact hold (fun hki => hv (h.apart v w k hk (hitems ▸ hki))) (h.held v k hk)
  · intro v schedule run hrun
    change (schedule, run, _) ∈ (Function.update s.workers w stage v).verdicts at hrun
    by_cases hv : v = w
    · subst hv
      rw [Function.update_self, hverdicts] at hrun
      exact absurd hrun List.not_mem_nil
    · rw [Function.update_of_ne hv] at hrun
      obtain ⟨hlt, hfailed⟩ := h.verdicts v schedule run hrun
      refine ⟨hlt.trans_le hdb.drawn, fun b hb heq => ?_⟩
      rcases List.mem_append.1 hb with hb | hb
      · have hf := hfailed b hb heq
        rw [← heq] at hf ⊢
        exact hdb.failed b hb hf
      · obtain rfl := List.mem_singleton.1 hb
        exact absurd (heq ▸ hlt) (Nat.lt_irrefl _)
  · have hnew : ∀ b ∈ s.batches, ∀ k ∈ b.items, k ∈ items → Failed db b.task := by
      intro b hb k hk hki
      exact (hnone k hki b hb hk).resolve_right (by simp)
    intro b hb b' hb' k hk hk'
    rcases List.mem_append.1 hb with hb | hb
    · rcases List.mem_append.1 hb' with hb' | hb'
      · rcases h.single b hb b' hb' k hk hk' with hf | hf | heq
        · exact .inl (hdb.failed b hb hf)
        · exact .inr (.inl (hdb.failed b' hb' hf))
        · exact .inr (.inr heq)
      · obtain rfl := List.mem_singleton.1 hb'
        exact .inl (hnew b hb k hk hk')
    · obtain rfl := List.mem_singleton.1 hb
      rcases List.mem_append.1 hb' with hb' | hb'
      · exact .inr (.inl (hnew b' hb' k hk' hk))
      · obtain rfl := List.mem_singleton.1 hb'
        exact .inr (.inr rfl)

/-- One submission. -/
theorem Ledgered.deliverBatch (h : Ledgered s) {env : Env} {r : ScheduleRow} {now : Time}
    {text : String} {items : List Item} (hw : s.workers w = .delivering r now text items) :
    Ledgered (State.deliverBatch P env s w r now text items) := by
  have htame : ∀ stage : Stage, stage.held = items.map r.item → stage.verdicts = [] →
      Tame (s.workers w) stage := by
    intro stage hheld hverdicts
    rw [hw]
    exact tame_of_held hheld rfl hverdicts
  unfold State.deliverBatch
  split
  · rename_i db id hsubmit
    have hdb : Evolved s db := h.evolved (submit_effect hsubmit)
    cases hknown : s.db.taskOf? r.tenant deliveryChannel (deliveryKey P.sha256 r items now) with
    | some t => exact h.moved hdb (tame_goto (htame _ rfl rfl))
    | none =>
      obtain ⟨rfl, hsolo⟩ := solo_of_submit h.orderly hsubmit hknown
      exact h.delivered hdb hsolo (by rw [hw]; rfl) (by rw [hw]; rfl) rfl rfl rfl
  · exact h.goto (htame _ rfl rfl)
  · exact h.goto (htame _ rfl rfl)

end Ledger

/-! ### Runs -/

section Runs

variable {P : Platform} {τs : List (Transition State Label)} {s t : State} {l : Label}

theorem Step.ledgered (h : Ledgered s) (hs : guarded Released (Step P) s l t) : Ledgered t := by
  obtain ⟨hs, hreleased⟩ := hs
  obtain rfl : t = s.after P l := hs
  delta State.after
  cases l with
  | settle w tenant =>
    dsimp only
    split
    · exact h.settle tenant
    · exact h
  | settleOne w =>
    dsimp only
    split
    · exact h.settleOne ‹_›
    · exact h.goto (tame_of_empty rfl rfl)
    · exact h
  | look w now =>
    dsimp only
    split
    · split
      · exact h.goto (tame_of_empty rfl rfl)
      · exact h.goto (tame_of_empty rfl rfl)
    · exact h
  | authorise w env =>
    dsimp only
    split
    · split
      · exact h.goto (tame_of_empty rfl rfl)
      · split
        · exact h.goto (tame_of_empty rfl rfl)
        · exact h.goto (tame_of_empty rfl rfl)
    · exact h
  | read w now feed =>
    dsimp only
    split
    · split
      · exact h.goto (tame_of_empty rfl rfl)
      · exact h.goto (tame_of_empty rfl rfl)
    · exact h
  | claim w raises =>
    dsimp only
    split
    · exact h.claimOne ‹_› hreleased
    · rename_i r now feed items hw
      cases items with
      | nil => exact h.goto (tame_of_empty rfl rfl)
      | cons i items => exact h.goto (tame_of_held (by rw [hw]; rfl) (by rw [hw]; rfl) rfl)
    · exact h
  | deliver w env =>
    dsimp only
    split
    · exact h.deliverBatch ‹_›
    · exact h
  | lookup w =>
    dsimp only
    split
    · rename_i r now items hw
      split
      · exact h.goto (tame_of_held (by rw [hw]; rfl) (by rw [hw]; rfl) rfl)
      · exact h.goto (tame_of_held (by rw [hw]; rfl) (by rw [hw]; rfl) rfl)
    · exact h
  | mark w =>
    dsimp only
    split
    · exact h.markOne ‹_›
    · exact h.goto (tame_of_empty rfl rfl)
    · exact h
  | leave w =>
    dsimp only
    split
    · exact h.moved h.evolved_self (tame_goto (tame_of_empty rfl rfl))
    · exact h
  | crash w => exact h.goto (tame_of_empty rfl rfl)
  | configure schedules => exact h.moved h.evolved_self fun _ => .refl _
  | engine op =>
    have hstep : Engine.Step P s.db op (s.db.after P op) := rfl
    obtain ⟨out, he, -⟩ := hstep.effect
    exact h.moved (h.evolved he) fun _ => .refl _

/-- **One live delivery.** In any run, with any number of workers, crashes, day changes and batches, in
which a `queued` row is taken over only where nobody holds its item and every delivery of it has failed:
of two deliveries with a work item in common one has failed, or they are one. -/
theorem delivered_once (h : Run (Step P) {} τs s) (hreleased : ∀ τ ∈ τs, Released τ.src τ.label) :
    ∀ b ∈ s.batches, ∀ b' ∈ s.batches, ∀ k ∈ b.items, k ∈ b'.items →
      Failed s.db b.task ∨ Failed s.db b'.task ∨ b.task = b'.task :=
  ((h.guard hreleased).invariant ledgered_empty fun _ _ _ => Step.ledgered).single

/-! One schedule and one worker, whose manager may be written to. -/

def managerEnv (second : ℕ) : Env :=
  { sampleEnv second with
    policy := fun _ _ => .ok (.obj [("allowed_recipients", .arr [.str "7"]),
      ("ladder", .str "autonomous"), ("tools", .arr [.str "telegram.send"])]) }

def lateInvoice (person task : String) : Item := ⟨person, "", task, "", ""⟩

/-- A cycle of the worker up to its submission. -/
def cycle (second : ℕ) (items : List Item) : List Label :=
  [.settle 0 "acme", .settleOne 0, .look 0 (seconds second), .authorise 0 (managerEnv second),
    .read 0 (seconds second) (.ok ⟨items, 0, none⟩)] ++ items.map (fun _ => .claim 0 false) ++
      [.claim 0 false, .deliver 0 (managerEnv second)]

def configured : Label :=
  .configure [⟨"acme", "late", "dana", "clerk", "7", "Late", 86400, 10, 3600, true, 0⟩]

def sampleState (ls : List Label) : State := ls.foldl (State.after replyPlatform) {}

theorem sampleState_run (ls : List Label) :
    Run (Step replyPlatform) {} (trace (State.after replyPlatform) {} ls) (sampleState ls) :=
  Run.nil.calls ls

/-- No claim of a run comes upon a `queued` row. -/
def unqueued (τ : Transition State Label) : Bool :=
  match τ.label with
  | .claim w _ =>
    match τ.src.workers w with
    | .claiming _ _ _ [] _ => true
    | _ => τ.src.ledger.all fun row => decide (row.status ≠ .queued)
  | _ => true

theorem released_of_unqueued {τ : Transition State Label} (h : unqueued τ = true) :
    Released τ.src τ.label := by
  unfold unqueued at h
  unfold Released
  split at h
  · intro r now feed i rest items hw row hrow _ hqueued
    rw [hw] at h
    exact absurd hqueued (of_decide_eq_true (List.all_eq_true.1 h row hrow))
  · trivial

/-- One cycle, whose delivery is submitted. -/
def submittedLabels : List Label := configured :: cycle 1 [lateInvoice "dana" "inv-1"]

/-! A digest is a long text. What the engine asks of it follows from its size, so that no run has to spell it. -/

section Notice

/-- The schedule of the samples. -/
def late : ScheduleRow := ⟨"acme", "late", "dana", "clerk", "7", "Late", 86400, 10, 3600, true, 0⟩

/-- The arguments of a delivery. -/
def notice (text : String) : Json := .obj [("conversation_id", .str "7"), ("text", .str text)]

def noticeSteps (text : String) : List Json := [.obj [("tool", .str "telegram.send"), ("args", notice text)]]

/-- The plan of a delivery. -/
def noticePlan (text : String) : Validated :=
  ⟨"telegram.send", notice text, .write, false,
    Canonical.fingerprint replyPlatform ⟨"telegram.send", notice text, .write, false, "",
      .obj [("allowed_recipients", .arr [.str "7"]), ("ladder", .str "autonomous"),
        ("tools", .arr [.str "telegram.send"])], []⟩, ""⟩

variable {text : String}

theorem truncate_size (n : ℕ) (text : String) : (truncate n text).utf8ByteSize ≤ text.utf8ByteSize := by
  rw [← weigh_utf8Size, ← weigh_utf8Size, truncate, String.toList_ofList]
  conv_rhs => rw [← List.take_append_drop n text.toList, weigh_append]
  exact Nat.le_add_right _ _

theorem length_le_size (text : String) : text.length ≤ text.utf8ByteSize := by
  rw [← weigh_utf8Size, weigh, ← String.length_toList]
  induction text.toList with
  | nil => simp
  | cons c cs ih =>
    have hc := c.utf8Size_pos
    simp only [List.map_cons, List.sum_cons, List.length_cons]
    omega

theorem quotedSize_le (text : String) : Json.quotedSize Char.utf8Size text ≤ 2 + 6 * text.utf8ByteSize := by
  rw [Json.quotedSize, ← weigh_utf8Size, weigh]
  induction text.toList with
  | nil => simp
  | cons c cs ih =>
    have hpos := c.utf8Size_pos
    have hc : Json.escapedSize Char.utf8Size c ≤ 6 * c.utf8Size := by
      unfold Json.escapedSize
      split_ifs <;> omega
    simp only [List.map_cons, List.sum_cons]
    omega

/-- A short text passes the schema of the tool. -/
theorem validate_notice (hne : text ≠ "") (hsize : text.utf8ByteSize ≤ 1000) :
    validateSchema (maxSchemaDepth + 1) (notice text) replySchema = .ok () := by
  have hbytes : (notice text).encode.utf8ByteSize ≤ maxArgumentBytes := by
    have hid : Json.quotedSize Char.utf8Size "conversation_id" = 17 := by decide
    have hseven : Json.quotedSize Char.utf8Size "7" = 3 := by decide
    have htext : Json.quotedSize Char.utf8Size "text" = 6 := by decide
    have hquoted := quotedSize_le text
    rw [Json.utf8ByteSize_encode, notice]
    simp only [Json.size, Json.sizeMembers, separated, hid, hseven, htext, List.sum_cons, List.sum_nil,
      List.length_cons, List.length_nil, maxArgumentBytes]
    omega
  have hlength : text.length ≤ 4000 := ((length_le_size text).trans hsize).trans (by decide)
  have hpos : 1 ≤ text.length := Nat.one_le_iff_ne_zero.2 fun h => hne (String.length_eq_zero_iff.1 h)
  rw [notice] at hbytes ⊢
  simp only [replySchema, maxSchemaDepth, validateSchema, bind_eq_ok, exists_unit, ensure_eq_ok, forM_eq_ok]
  refine ⟨rfl, rfl, hbytes, ⟨rfl, rfl⟩, ?_⟩
  intro m hm
  rcases List.mem_pair.1 hm with rfl | rfl
  · rfl
  · change validateSchema 64 (.str text) (.mk .string none [] [] none 0 100 1 4000 0 0) = .ok ()
    simp only [validateSchema, bind_eq_ok, exists_unit, ensure_eq_ok]
    exact ⟨rfl, rfl, hpos, hlength⟩

variable {second : ℕ} {db : Db} {items : List Item}

theorem validated_notice (hvalid : validateSchema (maxSchemaDepth + 1) (notice text) replySchema = .ok ()) :
    validated replyPlatform (managerEnv second) "acme" "clerk" (noticeSteps text) none = .ok [noticePlan text] := by
  simp only [validated, bind_eq_ok, ensure_eq_ok, exists_unit, mapM_eq_ok]
  refine ⟨_, rfl, rfl, ?_, ?_, ?_⟩
  · exact (by decide : 1 ≤ 1 ∧ 1 ≤ 20)
  · intro h
    cases h
  · refine .cons ?_ .nil
    have hget : replyPlatform.registry.get "telegram.send" =
        .ok ⟨"telegram.send", .write, replySchema, false⟩ := rfl
    simp only [validatedStep, bind_eq_ok, exists_unit, ensure_eq_ok]
    refine ⟨⟨rfl, rfl⟩, _, rfl, _, hget, rfl, rfl, hvalid, ?_⟩
    rw [if_neg (by decide)]
    simp only [bind_eq_ok, exists_unit, ensure_eq_ok]
    refine ⟨[], rfl, "", rfl, nofun, fun _ => rfl, ?_⟩
    have hneeded : approvalNeeded (.obj [("allowed_recipients", .arr [.str "7"]), ("ladder", .str "autonomous"),
        ("tools", .arr [.str "telegram.send"])]) false "telegram.send" (notice text) .write none = false := by
      have hsame : Json.same (.str "7") (.str "7") = true := beq_self_eq_true _
      have hallowed : preauthorized (.obj [("allowed_recipients", .arr [.str "7"]), ("ladder", .str "autonomous"),
          ("tools", .arr [.str "telegram.send"])]) "telegram.send" (notice text) none = true := by
        rfl
      rw [approvalNeeded, hallowed]
      rfl
    rw [noticePlan, pure_eq_ok]
    change Validated.mk _ _ _ (approvalNeeded _ false _ (notice text) _ _)
      (Canonical.fingerprint _ ⟨_, _, _, approvalNeeded _ false _ (notice text) _ _, _, _, _⟩) _ = _
    rw [hneeded]
    rfl

/-- A delivery under a fresh key is submitted. -/
theorem submitBatch_notice (hvalid : validateSchema (maxSchemaDepth + 1) (notice text) replySchema = .ok ())
    (hkey : isIdentity (deliveryKey id late items (seconds second)) = true)
    (hnew : db.taskOf? "acme" deliveryChannel (deliveryKey id late items (seconds second)) = none)
    (hopen : db.frozen "acme" = false)
    (hroom : db.tasks.countP (fun t => decide (t.tenant = "acme") && t.status.active) < 1000) :
    submitBatch replyPlatform (managerEnv second) db late (seconds second) text items =
      .ok (db.insertTask "acme" deliveryChannel (deliveryKey id late items (seconds second))
        (digest id (.obj [("agent", .str "clerk"), ("steps", .arr (noticeSteps text))])) "clerk" "dana"
        [noticePlan text] "" (seconds second), db.drawn) := by
  simp only [submitBatch, submit, bind_eq_ok, exists_unit, ensure_eq_ok]
  refine ⟨?_, by decide, _, validated_notice hvalid, ?_, ?_⟩
  · simp only [List.all_cons, List.all_nil, Bool.and_true, Bool.and_eq_true]
    exact ⟨rfl, rfl, hkey, rfl, rfl⟩
  · rw [forM_eq_ok]
    intro v hv
    obtain rfl := List.mem_singleton.1 hv
    rfl
  · simp only [createTask, bind_eq_ok, exists_unit]
    refine ⟨rfl, ?_⟩
    have hnew' : db.taskOf? late.tenant deliveryChannel
        (deliveryKey replyPlatform.sha256 late items (seconds second)) = none := hnew
    rw [hnew']
    simp only [bind_eq_ok, exists_unit, ensure_eq_ok, pure_eq_ok]
    refine ⟨?_, hroom, rfl⟩
    simp only [Env.requireActive, bind_eq_ok, exists_unit, ensure_eq_ok]
    exact ⟨rfl, hopen⟩

/-- A digest of a short text passes the schema. -/
theorem validate_digest {body : String} {feed : Feed} {now : Time}
    (hbody : digestText late items now feed = truncate 4000 body)
    (hsize : 0 < body.utf8ByteSize ∧ body.utf8ByteSize ≤ 1000) :
    validateSchema (maxSchemaDepth + 1) (notice (digestText late items now feed)) replySchema = .ok () := by
  rw [hbody]
  refine validate_notice (fun hempty => ?_) ((truncate_size 4000 body).trans hsize.2)
  have htake : body.toList.take 4000 = [] := by
    rw [← String.toList_ofList (l := body.toList.take 4000), ← truncate, hempty, String.toList_empty]
  have hnil : body.toList = [] := by simpa using htake
  rw [← weigh_utf8Size, hnil] at hsize
  exact absurd hsize.1 (by decide)

/-- The state after a batch is submitted. -/
def noticed (s : State) (second : ℕ) (text : String) (items : List Item) : State :=
  State.goto
    { s with
      db := s.db.insertTask "acme" deliveryChannel (deliveryKey id late items (seconds second))
        (digest id (.obj [("agent", .str "clerk"), ("steps", .arr (noticeSteps text))])) "clerk" "dana"
        [noticePlan text] "" (seconds second)
      batches := s.batches ++ [⟨s.db.drawn, items.map late.item⟩] }
    0 (.marking late items .submitted (some s.db.drawn) "" (.advance (seconds second)))

theorem after_deliver {s : State} (hw : s.workers 0 = .delivering late (seconds second) text items)
    (hvalid : validateSchema (maxSchemaDepth + 1) (notice text) replySchema = .ok ())
    (hkey : isIdentity (deliveryKey id late items (seconds second)) = true)
    (hnew : s.db.taskOf? "acme" deliveryChannel (deliveryKey id late items (seconds second)) = none)
    (hopen : s.db.frozen "acme" = false)
    (hroom : s.db.tasks.countP (fun t => decide (t.tenant = "acme") && t.status.active) < 1000) :
    s.after replyPlatform (.deliver 0 (managerEnv second)) = noticed s second text items := by
  have hsubmit := submitBatch_notice hvalid hkey hnew hopen hroom
  have hafter : s.after replyPlatform (.deliver 0 (managerEnv second)) =
      s.deliverBatch replyPlatform (managerEnv second) 0 late (seconds second) text items := by
    simp only [State.after, hw]
  have hfresh : (s.db.taskOf? late.tenant deliveryChannel
      (deliveryKey replyPlatform.sha256 late items (seconds second))).isSome = false := by
    rw [Option.isSome_eq_false_iff, Option.isNone_iff_eq_none]
    exact hnew
  rw [hafter, State.deliverBatch, hsubmit]
  dsimp only
  rw [hfresh, if_neg (by decide)]
  rw [noticed]

def firstItems : List Item := [lateInvoice "dana" "inv-1"]

def secondItems : List Item := [lateInvoice "amir" "inv-2", lateInvoice "dana" "inv-1"]

/-- A cycle up to its submission. -/
def claimLabels (second : ℕ) (items : List Item) : List Label :=
  [.settle 0 "acme", .settleOne 0, .look 0 (seconds second), .authorise 0 (managerEnv second),
    .read 0 (seconds second) (.ok ⟨items, 0, none⟩)] ++ items.map (fun _ => .claim 0 false) ++ [.claim 0 false]

theorem cycle_eq (second : ℕ) (items : List Item) :
    cycle second items = claimLabels second items ++ [.deliver 0 (managerEnv second)] := by
  rw [cycle, claimLabels, List.append_assoc, List.append_assoc]
  rfl

theorem foldl_cycle (s : State) (second : ℕ) (items : List Item) :
    (cycle second items).foldl (State.after replyPlatform) s =
      ((claimLabels second items).foldl (State.after replyPlatform) s).after replyPlatform
        (.deliver 0 (managerEnv second)) := by
  rw [cycle_eq, List.foldl_append, List.foldl_cons, List.foldl_nil]

def firstClaimed : State := (configured :: claimLabels 1 firstItems).foldl (State.after replyPlatform) {}

def firstText : String := digestText late firstItems (seconds 1) ⟨firstItems, 0, none⟩

theorem first_delivery : sampleState submittedLabels = noticed firstClaimed 1 firstText firstItems := by
  have hw : firstClaimed.workers 0 = .delivering late (seconds 1) firstText firstItems := rfl
  have hvalid : validateSchema (maxSchemaDepth + 1) (notice firstText) replySchema = .ok () :=
    validate_digest rfl (by decide +kernel)
  rw [sampleState, submittedLabels, List.foldl_cons, foldl_cycle]
  exact after_deliver hw hvalid (by decide +kernel) (by decide +kernel) (by decide +kernel) (by decide +kernel)

end Notice

theorem delivered_once_sample :
    ∃ b ∈ (sampleState submittedLabels).batches, ∀ b' ∈ (sampleState submittedLabels).batches,
      ∀ k ∈ b.items, k ∈ b'.items → Failed (sampleState submittedLabels).db b.task ∨
        Failed (sampleState submittedLabels).db b'.task ∨ b.task = b'.task := by
  obtain ⟨b, hb⟩ : ∃ b, b ∈ (sampleState submittedLabels).batches := by
    rw [← List.length_pos_iff_exists_mem, first_delivery]
    decide +kernel
  have hcheck : ∀ τ ∈ trace (State.after replyPlatform) {} submittedLabels, unqueued τ = true := by
    decide +kernel
  have hrun := sampleState_run submittedLabels
  have honce := delivered_once hrun fun τ hτ => released_of_unqueued (hcheck τ hτ)
  exact ⟨b, hb, honce b hb⟩

/-- The worker dies between submission and mark; the next cycle reads a second invoice, takes the row
of the first one over, and submits both in a new batch. -/
def crashedLabels : List Label :=
  submittedLabels ++ [.crash 0] ++ cycle 2 [lateInvoice "amir" "inv-2", lateInvoice "dana" "inv-1"]

def secondClaimed : State :=
  (claimLabels 2 secondItems).foldl (State.after replyPlatform)
    ((noticed firstClaimed 1 firstText firstItems).goto 0 .idle)

def secondText : String := digestText late secondItems (seconds 2) ⟨secondItems, 0, none⟩

theorem second_delivery : sampleState crashedLabels = noticed secondClaimed 2 secondText secondItems := by
  have hw : secondClaimed.workers 0 = .delivering late (seconds 2) secondText secondItems := rfl
  have hvalid : validateSchema (maxSchemaDepth + 1) (notice secondText) replySchema = .ok () :=
    validate_digest rfl (by decide +kernel)
  have hcrash : (submittedLabels ++ [Label.crash 0]).foldl (State.after replyPlatform) {} =
      (noticed firstClaimed 1 firstText firstItems).goto 0 .idle := by
    rw [List.foldl_append, ← sampleState, first_delivery, List.foldl_cons, List.foldl_nil]
    rfl
  rw [sampleState, crashedLabels, List.foldl_append, hcrash]
  exact (foldl_cycle _ 2 secondItems).trans
    (after_deliver hw hvalid (by decide +kernel) (by decide +kernel) (by decide +kernel) (by decide +kernel))

theorem delivered_twice :
    ¬ ∀ (P : Platform) (τs : List (Transition State Label)) (s : State), Run (Step P) {} τs s →
      ∀ b ∈ s.batches, ∀ b' ∈ s.batches, ∀ k ∈ b.items, k ∈ b'.items →
        Failed s.db b.task ∨ Failed s.db b'.task ∨ b.task = b'.task := by
  intro h
  obtain ⟨⟨b, hb, b', hb', k, hk, hk', hne⟩, hlive⟩ : (∃ b ∈ (sampleState crashedLabels).batches,
      ∃ b' ∈ (sampleState crashedLabels).batches, ∃ k ∈ b.items, k ∈ b'.items ∧ b.task ≠ b'.task) ∧
        ∀ t ∈ (sampleState crashedLabels).db.tasks, t.status = .queued := by
    rw [second_delivery]
    decide +kernel
  have hnot : ∀ task, ¬ Failed (sampleState crashedLabels).db task := by
    rintro task ⟨t, ht, -, hstatus⟩
    rw [hlive t ht] at hstatus
    rcases hstatus with hs | hs <;> cases hs
  have hrun := sampleState_run crashedLabels
  rcases h replyPlatform _ _ hrun b hb b' hb' k hk hk' with hf | hf | heq
  · exact hnot _ hf
  · exact hnot _ hf
  · exact hne heq

end Runs

end AgentPlatform.Escalation
