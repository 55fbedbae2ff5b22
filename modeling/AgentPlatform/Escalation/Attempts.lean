import Mathlib.Algebra.BigOperators.Group.Finset.Basic
import AgentPlatform.Escalation.Delivered

/-!
# What the attempts of a work item were

`_claim` counts an attempt before anything is submitted. This module follows every counted attempt to its
end: its worker dies first, the engine refuses the batch, the batch's key has a task already, or a new task
is created. `attempts_accounted` is the balance over a whole run.

## The balance

The batch of a worker is what it has claimed and not tried to submit yet. One label moves one worker, and

```text
attempts after + batch before = attempts before + batch after + ended by the label
```

for every work item (`Balanced`). Summed over the workers that ever moved, it is the balance of a run.
-/

namespace AgentPlatform.Escalation

open Outcome Engine Table Runs

/-- The work items a worker has claimed and not tried to submit. -/
def Stage.batch : Stage → List WorkItem
  | .claiming r _ _ _ items | .delivering r _ _ items => items.map r.item
  | _ => []

/-- The attempts counted for a work item. -/
def attempts (ledger : List LedgerRow) (k : WorkItem) : ℕ :=
  ((Table.get LedgerRow.key k ledger).map LedgerRow.attempt).getD 0

/-- How the attempts of a batch end. -/
inductive Fate
  /-- A new task delivers the batch. -/
  | submitted
  /-- The batch's key had a task, or `submit` raised `Conflict`. -/
  | met
  /-- `submit` raised anything else. -/
  | refused
  /-- The worker died before it submitted. -/
  | lost
  deriving DecidableEq

/-- What a submission comes to. -/
def submission (P : Platform) (env : Env) (s : State) (r : ScheduleRow) (now : Time) (text : String)
    (items : List Item) : Fate :=
  match submitBatch P env s.db r now text items with
  | .ok _ =>
    if (s.db.taskOf? r.tenant deliveryChannel (deliveryKey P.sha256 r items now)).isSome then .met
    else .submitted
  | .error (.conflict _) => .met
  | .error _ => .refused

/-- The attempts that end with a label. -/
def fate (P : Platform) (s : State) : Label → Option (Fate × List WorkItem)
  | .crash w => some (.lost, (s.workers w).batch)
  | .deliver w env =>
    match s.workers w with
    | .delivering r now text items => some (submission P env s r now text items, items.map r.item)
    | _ => none
  | _ => none

/-- How many attempts of a work item end so with a label. -/
def endedBy (P : Platform) (f : Fate) (k : WorkItem) (s : State) (l : Label) : ℕ :=
  ((fate P s l).map fun x => if x.1 = f then x.2.count k else 0).getD 0

/-- How many attempts of a work item ended so in a run. -/
def ended (P : Platform) (f : Fate) (τs : List (Transition State Label)) (k : WorkItem) : ℕ :=
  (τs.map fun τ => endedBy P f k τ.src τ.label).sum

/-- How often the deliveries carry a work item. -/
def delivered (batches : List Batch) (k : WorkItem) : ℕ :=
  (batches.map fun b => b.items.count k).sum

/-- The worker a label moves, if it moves one. -/
def Label.worker : Label → ℕ
  | .settle w _ | .settleOne w | .look w _ | .authorise w _ | .read w _ _ | .claim w _ | .deliver w _
  | .lookup w | .mark w | .leave w | .crash w => w
  | .configure _ | .engine _ => 0

/-! ### The ledger -/

section Rows

variable {ledger : List LedgerRow} {k : WorkItem}

theorem attempts_of_mem (h : Keyed LedgerRow.key ledger) {row : LedgerRow} (hrow : row ∈ ledger) :
    attempts ledger row.key = row.attempt := by
  rw [attempts, h.get_eq hrow rfl]
  rfl

theorem attempts_update {p : LedgerRow → Bool} {f : LedgerRow → LedgerRow}
    (hkey : ∀ row, (f row).key = row.key) (hattempt : ∀ row, (f row).attempt = row.attempt) :
    attempts (Table.update p f ledger) k = attempts ledger k := by
  unfold attempts
  rw [get_update_map hkey, Option.map_map]
  congr 2
  funext row
  simp only [Function.comp_apply]
  split
  · exact hattempt row
  · rfl

theorem attempts_insert {row : LedgerRow} {item : WorkItem} (hkey : row.key = item)
    (hfresh : Table.get LedgerRow.key item ledger = none) (hone : row.attempt = 1) :
    attempts (ledger ++ [row]) k = attempts ledger k + if item = k then 1 else 0 := by
  subst hkey
  unfold attempts
  rw [get_append]
  split
  · rename_i hk
    rw [← hk, hfresh]
    simpa using hone
  · simp

/-- A row that is taken counts one attempt more, and its compare-and-set succeeds. -/
theorem attempts_takeRow (h : Keyed LedgerRow.key ledger) {row : LedgerRow} (hrow : row ∈ ledger)
    (now : Time) :
    (takeRow ledger row now).2 = some (row.attempt + 1) ∧
    attempts (takeRow ledger row now).1 k = attempts ledger k + if row.key = k then 1 else 0 := by
  unfold takeRow
  dsimp only
  constructor
  · rw [if_pos]
    refine h.countP_eq_one hrow (by simp) fun x _ hx => ?_
    simp only [Bool.and_eq_true, decide_eq_true_eq] at hx
    exact hx.1
  · unfold attempts
    rw [get_update_map (f := fun x : LedgerRow => { x with
      attempt := x.attempt + 1, status := .queued, lastAttempt := now, run := none, lastError := "" })
      fun _ => rfl]
    split
    · rename_i hk
      subst hk
      rw [h.get_eq hrow rfl]
      simp
    · rename_i hk
      cases hget : Table.get LedgerRow.key k ledger with
      | none => rfl
      | some x =>
        have hx : x.key ≠ row.key := fun heq => hk (heq ▸ key_of_get hget)
        simp [hx]

/-- **A claim** counts an attempt exactly where it takes the item. -/
theorem claim_attempts (h : Keyed LedgerRow.key ledger) {r : ScheduleRow} {i : Item} {now : Time}
    {ledger' : List LedgerRow} {attempt : Option ℕ} (hclaim : claim ledger r i now = (ledger', attempt)) :
    Keyed LedgerRow.key ledger' ∧
    attempts ledger' k = attempts ledger k + if attempt.isSome ∧ r.item i = k then 1 else 0 := by
  have htake : ∀ row, Table.get LedgerRow.key (r.item i) ledger = some row →
      takeRow ledger row now = (ledger', attempt) → Keyed LedgerRow.key ledger' ∧
      attempts ledger' k = attempts ledger k + if attempt.isSome ∧ r.item i = k then 1 else 0 := by
    intro row hget htaken
    obtain ⟨hsome, hattempts⟩ := attempts_takeRow (k := k) h (mem_of_get hget) now
    have hkeyed : Keyed LedgerRow.key (takeRow ledger row now).1 := h.update fun _ => rfl
    rw [htaken] at hsome hattempts hkeyed
    obtain rfl : attempt = some (row.attempt + 1) := hsome
    refine ⟨hkeyed, hattempts.trans ?_⟩
    rw [key_of_get hget]
    simp
  have hidle : Keyed LedgerRow.key ledger ∧
      attempts ledger k = attempts ledger k + if (none : Option ℕ).isSome ∧ r.item i = k then 1 else 0 :=
    ⟨h, by simp⟩
  unfold claim at hclaim
  split at hclaim
  · rename_i hnone
    obtain ⟨rfl, rfl⟩ := Prod.mk.inj hclaim
    refine ⟨h.insert (get_eq_none.1 hnone), ?_⟩
    refine (attempts_insert (rfl : LedgerRow.key _ = r.item i) hnone rfl).trans ?_
    by_cases hk : r.item i = k
    · rw [if_pos hk, if_pos ⟨rfl, hk⟩]
    · rw [if_neg hk, if_neg fun h => hk h.2]
  · rename_i row hget
    split at hclaim
    · obtain ⟨rfl, rfl⟩ := Prod.mk.inj hclaim
      exact hidle
    · obtain ⟨rfl, rfl⟩ := Prod.mk.inj hclaim
      exact hidle
    · obtain ⟨rfl, rfl⟩ := Prod.mk.inj hclaim
      exact hidle
    · split at hclaim
      · obtain ⟨rfl, rfl⟩ := Prod.mk.inj hclaim
        refine ⟨h.update fun _ => rfl, ?_⟩
        refine (attempts_update (f := fun row => { row with lastError := exhausted }) (fun _ => rfl)
          fun _ => rfl).trans hidle.2
      · split at hclaim
        · obtain ⟨rfl, rfl⟩ := Prod.mk.inj hclaim
          exact hidle
        · exact htake row hget hclaim
    · exact htake row hget hclaim

end Rows

/-! ### One label -/

section Balance

variable {P : Platform} {s t : State} {w : ℕ} {l : Label}

/-- One label, whose worker is `w`, ends the attempts `f`. -/
structure Balanced (s t : State) (w : ℕ) (f : Option (Fate × List WorkItem)) : Prop where
  others : ∀ v, v ≠ w → t.workers v = s.workers v
  unique : Keyed LedgerRow.key t.ledger
  balance : ∀ k, attempts t.ledger k + (s.workers w).batch.count k =
    attempts s.ledger k + (t.workers w).batch.count k + (f.map fun x => x.2.count k).getD 0

theorem balanced_goto {f : Option (Fate × List WorkItem)} (h : Keyed LedgerRow.key s.ledger) {t : State}
    {stage : Stage} (hledger : t.ledger = s.ledger)
    (hworkers : t.workers = Function.update s.workers w stage)
    (hbatch : ∀ k, (s.workers w).batch.count k = stage.batch.count k + (f.map fun x => x.2.count k).getD 0) :
    Balanced s t w f where
  others v hv := by rw [hworkers, Function.update_of_ne hv]
  unique := hledger ▸ h
  balance k := by
    rw [hledger, hworkers, Function.update_self, hbatch k, Nat.add_assoc]

theorem balanced_idle (h : Keyed LedgerRow.key s.ledger) {t : State} {a b : Stage}
    (hledger : t.ledger = s.ledger) (hworkers : t.workers = Function.update s.workers w b)
    (hw : s.workers w = a) (ha : a.batch = []) (hb : b.batch = []) : Balanced s t w none :=
  balanced_goto h hledger hworkers fun k => by rw [hw, ha, hb]; rfl

theorem balanced_still (h : Keyed LedgerRow.key s.ledger) (hledger : t.ledger = s.ledger)
    (hworkers : t.workers = s.workers) (w : ℕ) : Balanced s t w none where
  others v _ := by rw [hworkers]
  unique := hledger ▸ h
  balance k := by
    rw [hledger, hworkers]
    rfl

theorem balanced_write (h : Keyed LedgerRow.key s.ledger) {p : LedgerRow → Bool}
    {f : LedgerRow → LedgerRow} {stage : Stage} (hkey : ∀ row, (f row).key = row.key)
    (hattempt : ∀ row, (f row).attempt = row.attempt) (hbefore : (s.workers w).batch = [])
    (hafter : stage.batch = []) :
    Balanced s (State.goto { s with ledger := Table.update p f s.ledger } w stage) w none where
  others v hv := Function.update_of_ne hv _ _
  unique := h.update hkey
  balance k := by
    change attempts (Table.update p f s.ledger) k + _ =
      _ + (Function.update s.workers w stage w).batch.count k + 0
    rw [attempts_update hkey hattempt, Function.update_self, hbefore, hafter, Nat.add_zero]

/-- One claim: the item joins the batch of its worker where the claim counts. -/
theorem balanced_claim (h : Keyed LedgerRow.key s.ledger) {raises : Bool} {r : ScheduleRow} {now : Time}
    {feed : Feed} {i : Item} {rest items : List Item}
    (hw : s.workers w = .claiming r now feed (i :: rest) items) :
    Balanced s (s.claimOne w raises r now feed i rest items) w none := by
  unfold State.claimOne
  split
  · refine balanced_goto h rfl rfl fun k => ?_
    rw [hw]
    rfl
  · cases hclaim : claim s.ledger r i now with
    | mk ledger attempt =>
    refine ⟨fun v hv => ?_, ?_, fun k => ?_⟩
    · cases attempt <;> exact Function.update_of_ne hv _ _
    · have hkeyed := (claim_attempts (k := r.item i) h hclaim).1
      cases attempt <;> exact hkeyed
    · obtain ⟨-, hattempts⟩ := claim_attempts (k := k) h hclaim
      cases attempt with
      | none =>
        change attempts ledger k + _ = _ + (Function.update s.workers w _ w).batch.count k + 0
        rw [hattempts, Function.update_self, hw]
        simp [Stage.batch]
      | some n =>
        change attempts ledger k + _ = _ + (Function.update s.workers w _ w).batch.count k + 0
        rw [hattempts, Function.update_self, hw]
        simp only [Stage.batch, List.map_append, List.count_append, List.map_cons, List.map_nil,
          List.count_singleton, Option.isSome_some, true_and, beq_iff_eq]
        omega

/-- One submission ends the attempts of its batch. -/
theorem balanced_deliver (h : Keyed LedgerRow.key s.ledger) {env : Env} {r : ScheduleRow} {now : Time}
    {text : String} {items : List Item} (hw : s.workers w = .delivering r now text items) (f : Fate) :
    Balanced s (State.deliverBatch P env s w r now text items) w (some (f, items.map r.item)) := by
  have hbatch : ∀ stage : Stage, stage.batch = [] → ∀ k, (s.workers w).batch.count k =
      stage.batch.count k + ((some (f, items.map r.item)).map fun x => x.2.count k).getD 0 := by
    intro stage hstage k
    rw [hstage, hw]
    simp [Stage.batch]
  unfold State.deliverBatch
  split
  · exact balanced_goto h rfl rfl (hbatch _ rfl)
  · exact balanced_goto h rfl rfl (hbatch _ rfl)
  · exact balanced_goto h rfl rfl (hbatch _ rfl)

/-- **One label** keeps the balance. -/
theorem Step.balanced (h : Keyed LedgerRow.key s.ledger) (hs : Step P s l t) :
    Balanced s t l.worker (fate P s l) := by
  obtain rfl : t = s.after P l := hs
  delta State.after
  cases l with
  | settle w tenant =>
    dsimp only
    split
    · rename_i hw
      exact balanced_idle h rfl rfl hw rfl rfl
    · exact balanced_still h rfl rfl w
  | settleOne w =>
    dsimp only
    split
    · rename_i hw
      exact balanced_write h (fun _ => rfl) (fun _ => rfl) (by rw [hw]; rfl) rfl
    · rename_i hw
      exact balanced_idle h rfl rfl hw rfl rfl
    · exact balanced_still h rfl rfl w
  | look w now =>
    dsimp only
    split
    · rename_i hw
      split <;> exact balanced_idle h rfl rfl hw rfl rfl
    · exact balanced_still h rfl rfl w
  | authorise w env =>
    dsimp only
    split
    · rename_i hw
      split
      · exact balanced_idle h rfl rfl hw rfl rfl
      · split <;> exact balanced_idle h rfl rfl hw rfl rfl
    · exact balanced_still h rfl rfl w
  | read w now feed =>
    dsimp only
    split
    · rename_i hw
      split
      · exact balanced_idle h rfl rfl hw rfl rfl
      · split <;> exact balanced_idle h rfl rfl hw rfl rfl
    · exact balanced_still h rfl rfl w
  | claim w raises =>
    dsimp only
    split
    · rename_i hw
      exact balanced_claim h hw
    · rename_i r now feed items hw
      refine balanced_goto (w := w) (f := none) h rfl rfl fun k => ?_
      rw [hw]
      cases items <;> rfl
    · exact balanced_still h rfl rfl w
  | deliver w env =>
    dsimp only
    split
    · rename_i r now text items hw
      have hfate : fate P s (.deliver w env) =
          some (submission P env s r now text items, items.map r.item) := by simp only [fate, hw]
      rw [hfate]
      exact balanced_deliver h hw _
    · rename_i hother
      have hfate : fate P s (.deliver w env) = none := by
        unfold fate
        dsimp only
        split
        · rename_i hw
          exact absurd hw (hother _ _ _ _)
        · rfl
      rw [hfate]
      exact balanced_still h rfl rfl w
  | lookup w =>
    dsimp only
    split
    · rename_i hw
      split <;> exact balanced_idle h rfl rfl hw rfl rfl
    · exact balanced_still h rfl rfl w
  | mark w =>
    dsimp only
    split
    · rename_i hw
      exact balanced_write h (fun _ => rfl) (fun _ => rfl) (by rw [hw]; rfl) rfl
    · rename_i hw
      exact balanced_idle h rfl rfl hw rfl rfl
    · exact balanced_still h rfl rfl w
  | leave w =>
    dsimp only
    split
    · rename_i hw
      exact balanced_idle h rfl rfl hw rfl rfl
    · exact balanced_still h rfl rfl w
  | crash w =>
    refine balanced_goto (w := w) h rfl rfl fun k => ?_
    change _ = Stage.idle.batch.count k + (s.workers w).batch.count k
    rw [show Stage.idle.batch = [] from rfl, List.count_nil, Nat.zero_add]
  | configure schedules => exact ⟨fun _ _ => rfl, h, fun _ => rfl⟩
  | engine op => exact ⟨fun _ _ => rfl, h, fun _ => rfl⟩

end Balance

/-! ### Deliveries -/

section Deliveries

variable {P : Platform} {s t : State} {l : Label}

/-- Every delivery is a task of its own. -/
structure Distinct (s : State) : Prop where
  orderly : Orderly s.db
  exist : ∀ b ∈ s.batches, ∃ t ∈ s.db.tasks, t.id = b.task
  distinct : (s.batches.map Batch.task).Nodup

theorem distinct_empty : Distinct {} := ⟨orderly_empty, by simp, by simp⟩

theorem Distinct.evolved (h : Distinct s) {op : Op} {out : Reply} {db : Db}
    (he : Engine.Effect P s.db op out db) (ht : t.db = db) (hbatches : t.batches = s.batches) :
    Distinct t := by
  subst ht
  refine ⟨he.orderly h.orderly, ?_, hbatches ▸ h.distinct⟩
  rw [hbatches]
  intro b hb
  obtain ⟨x, hx, hid⟩ := h.exist b hb
  obtain ⟨status, hx'⟩ := (he.moves h.orderly.wf h.orderly.placed).task hx
  exact ⟨_, hx', hid⟩

theorem Distinct.frame (h : Distinct s) (ht : t.db = s.db) (hbatches : t.batches = s.batches) :
    Distinct t :=
  ⟨ht ▸ h.orderly, by rw [ht, hbatches]; exact h.exist, hbatches ▸ h.distinct⟩

/-- A submission creates a task of its own, or none. -/
theorem Distinct.deliver (h : Distinct s) {env : Env} {w : ℕ} {r : ScheduleRow} {now : Time}
    {text : String} {items : List Item} :
    Distinct (State.deliverBatch P env s w r now text items) := by
  unfold State.deliverBatch
  split
  · rename_i db id hsubmit
    have he := submit_effect hsubmit
    cases hknown : s.db.taskOf? r.tenant deliveryChannel (deliveryKey P.sha256 r items now) with
    | some old => exact h.evolved he rfl rfl
    | none =>
      obtain ⟨rfl, spec, hspec, htask, -⟩ := solo_of_submit h.orderly hsubmit hknown
      have hold : Distinct { s with db := db } := h.evolved he rfl rfl
      refine ⟨hold.orderly, fun b hb => ?_, ?_⟩
      · obtain hb | hb := List.mem_append.1 hb
        · exact hold.exist b hb
        · obtain rfl := List.mem_singleton.1 hb
          obtain ⟨row, hrow, rfl⟩ := List.mem_map.1 hspec
          obtain ⟨x, hx, hid, -⟩ := hold.orderly.wf.owned row hrow
          exact ⟨x, hx, hid.trans htask⟩
      · change ((s.batches ++ [(⟨s.db.drawn, items.map r.item⟩ : Batch)]).map Batch.task).Nodup
        rw [List.map_append, List.map_singleton, List.nodup_append]
        refine ⟨h.distinct, List.nodup_singleton _, ?_⟩
        rintro id hid id' hid' rfl
        obtain ⟨b, hb, rfl⟩ := List.mem_map.1 hid
        obtain ⟨x, hx, hid⟩ := h.exist b hb
        have hlt := h.orderly.wf.taskDrawn x hx
        rw [hid, List.mem_singleton.1 hid'] at hlt
        exact Nat.lt_irrefl _ hlt
  · exact h.frame rfl rfl
  · exact h.frame rfl rfl

theorem frame_after (hl : ∀ w env, l ≠ .deliver w env) :
    (s.after P l).batches = s.batches ∧
      ((s.after P l).db = s.db ∨ ∃ op, l = .engine op ∧ (s.after P l).db = s.db.after P op) := by
  cases l with
  | deliver w env => exact absurd rfl (hl w env)
  | engine op => exact ⟨rfl, .inr ⟨op, rfl, rfl⟩⟩
  | claim w raises =>
    dsimp only [State.after]
    split
    · unfold State.claimOne
      split
      · exact ⟨rfl, .inl rfl⟩
      · dsimp only
        split <;> exact ⟨rfl, .inl rfl⟩
    · exact ⟨rfl, .inl rfl⟩
    · exact ⟨rfl, .inl rfl⟩
  | _ =>
    dsimp only [State.after]
    repeat' split
    all_goals exact ⟨rfl, .inl rfl⟩

theorem Step.distinct (h : Distinct s) (hs : Step P s l t) : Distinct t := by
  obtain rfl : t = s.after P l := hs
  by_cases hl : ∃ w env, l = .deliver w env
  · obtain ⟨w, env, rfl⟩ := hl
    dsimp only [State.after]
    split
    · exact h.deliver
    · exact h
  · obtain ⟨hbatches, hdb | ⟨op, rfl, hdb⟩⟩ :=
      frame_after (P := P) (s := s) (l := l) fun w env heq => hl ⟨w, env, heq⟩
    · exact h.frame hdb hbatches
    · have hstep : Engine.Step P s.db op (s.db.after P op) := rfl
      obtain ⟨out, he, -⟩ := hstep.effect
      exact h.evolved he hdb hbatches

/-- **Deliveries** are the batches that were submitted. -/
theorem Step.delivered (hs : Step P s l t) (k : WorkItem) :
    delivered t.batches k = delivered s.batches k + endedBy P .submitted k s l := by
  obtain rfl : t = s.after P l := hs
  by_cases hl : ∃ w env, l = .deliver w env
  · obtain ⟨w, env, rfl⟩ := hl
    cases hw : s.workers w with
    | delivering r now text items =>
      simp only [State.after, endedBy, fate, hw, State.deliverBatch, submission]
      cases hsubmit : submitBatch P env s.db r now text items with
      | ok out =>
        cases hknown : s.db.taskOf? r.tenant deliveryChannel (deliveryKey P.sha256 r items now) with
        | some old => simp [State.goto]
        | none => simp [State.goto, Escalation.delivered]
      | error e => cases e <;> simp [State.goto]
    | _ => simp only [State.after, endedBy, fate, hw, Option.map_none, Option.getD_none, Nat.add_zero]
  · rw [(frame_after fun w env heq => hl ⟨w, env, heq⟩).1]
    cases l with
    | deliver w env => exact absurd ⟨w, env, rfl⟩ hl
    | crash w => simp [endedBy, fate]
    | _ => rfl

end Deliveries

/-! ### Runs -/

section Runs

variable {P : Platform} {τs : List (Transition State Label)} {s t : State} {l : Label} {k : WorkItem}

/-- The attempts of a work item in the hands of some workers. -/
def inHand (W : Finset ℕ) (s : State) (k : WorkItem) : ℕ := ∑ w ∈ W, (s.workers w).batch.count k

theorem inHand_insert {W : Finset ℕ} (hidle : ∀ w, w ∉ W → (s.workers w).batch = []) (w : ℕ) :
    inHand (insert w W) s k = inHand W s k := by
  by_cases hw : w ∈ W
  · rw [Finset.insert_eq_of_mem hw]
  · unfold inHand
    rw [Finset.sum_insert hw, hidle w hw, List.count_nil, Nat.zero_add]

theorem inHand_step {W : Finset ℕ} {w : ℕ} (hw : w ∈ W) (hothers : ∀ v, v ≠ w → t.workers v = s.workers v) :
    inHand W t k + (s.workers w).batch.count k = inHand W s k + (t.workers w).batch.count k := by
  unfold inHand
  rw [← Finset.add_sum_erase W _ hw, ← Finset.add_sum_erase W (fun v => (s.workers v).batch.count k) hw]
  have hrest : ∑ v ∈ W.erase w, (t.workers v).batch.count k =
      ∑ v ∈ W.erase w, (s.workers v).batch.count k :=
    Finset.sum_congr rfl fun v hv => by rw [hothers v (Finset.ne_of_mem_erase hv)]
  rw [hrest]
  omega

theorem ended_snoc (f : Fate) :
    ended P f (τs ++ [⟨s, l, t⟩]) k = ended P f τs k + endedBy P f k s l := by
  simp [ended]

theorem sum_endedBy : ((fate P s l).map fun x => x.2.count k).getD 0 =
    endedBy P .submitted k s l + endedBy P .met k s l + endedBy P .refused k s l +
      endedBy P .lost k s l := by
  unfold endedBy
  cases fate P s l with
  | none => rfl
  | some x =>
    obtain ⟨f, items⟩ := x
    cases f <;> simp

/-- The balance of a run. -/
theorem attempts_balance (h : Run (Step P) {} τs s) :
    Keyed LedgerRow.key s.ledger ∧
    ∃ W : Finset ℕ, (∀ w, w ∉ W → (s.workers w).batch = []) ∧
      ∀ k, attempts s.ledger k = inHand W s k + delivered s.batches k + ended P .met τs k +
        ended P .refused τs k + ended P .lost τs k := by
  induction h with
  | nil => exact ⟨keyed_nil _, ∅, fun _ _ => rfl, fun k => rfl⟩
  | @snoc τs s t l hr hs ih =>
    obtain ⟨hkeyed, W, hidle, hbalance⟩ := ih
    obtain ⟨hothers, hkeyed', hstep⟩ := hs.balanced hkeyed
    refine ⟨hkeyed', insert l.worker W, fun w hw => ?_, fun k => ?_⟩
    · rw [Finset.mem_insert, not_or] at hw
      rw [hothers w hw.1]
      exact hidle w hw.2
    · have hmoved := inHand_step (k := k) (Finset.mem_insert_self l.worker W) hothers
      rw [inHand_insert hidle] at hmoved
      have hone := hstep k
      rw [sum_endedBy] at hone
      rw [ended_snoc, ended_snoc, ended_snoc, hs.delivered k]
      have hbefore := hbalance k
      omega

/-- A cycle whose batch the engine refuses, the policy having changed under it: the item is marked and the
schedule disabled. -/
def refusedCycle (second : ℕ) : List Label :=
  configured :: [.settle 0 "acme", .settleOne 0, .look 0 (seconds second), .authorise 0 (managerEnv second),
    .read 0 (seconds second) (.ok ⟨[lateInvoice "dana" "inv-1"], 0, none⟩), .claim 0 false, .claim 0 false,
    .deliver 0 (sampleEnv second), .mark 0, .mark 0, .leave 0]

/-- Five such cycles, a day apart. -/
def refusedLabels : List Label :=
  (List.range 5).flatMap fun n => refusedCycle (86400 * n + 1)

end Runs

end AgentPlatform.Escalation
