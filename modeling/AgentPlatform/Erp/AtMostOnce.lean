import Mathlib.Data.List.Pairwise
import AgentPlatform.Erp.Submit
import AgentPlatform.Lib.Runs

/-!
# A document is claimed once, and posted under its claim

`Effect` says once what an event can do. The shape of the ledger is the order of the attempts at one
document: every attempt but the last is `failed` (`Inv.order`), since a reservation is refused while
another row claims. A worker between its reservation and its answer refers to a row that is its own
(`Inv.held`, `Inv.single`).

Nothing fences the `POST` of a worker that stood still after its reservation. The row may have been
recovered, refused by the owner and replaced by a newer attempt meanwhile; `Current` says that it was
not, and `post_alone_iff` that this is exactly when the `POST` goes out with every other attempt
`failed`.
-/

namespace AgentPlatform.Erp

open Outcome Table Runs

/-- The row a worker refers to, with the identity of its document. -/
def Stage.row? : Stage → Option ((String × String) × Identity)
  | .reserved call _ _ rowId | .sent call _ rowId | .answered call _ rowId _ =>
    some ((call.tenant, rowId), Erp.identity call.posting)
  | _ => none

/-- The row a worker is about to send. -/
def Stage.unsent? : Stage → Option ((String × String) × Identity)
  | .reserved call _ _ rowId => some ((call.tenant, rowId), Erp.identity call.posting)
  | _ => none

theorem Stage.row?_of_unsent? {stage : Stage} {x : (String × String) × Identity}
    (h : stage.unsent? = some x) : stage.row? = some x := by
  cases stage with
  | reserved => exact h
  | _ => cases h

theorem Stage.unsent?_of_row? {stage : Stage} (h : stage.row? = none) : stage.unsent? = none := by
  cases stage with
  | reserved => cases h
  | _ => rfl

/-- The committed effects of an event. -/
inductive Effect (lib : Library) (s : State) : Event → State → Prop
  | same (e : Event) : Effect lib s e s
  | moved {e : Event} (w : ℕ) {stage : Stage} (hstage : stage.row? = none) :
      Effect lib s e (s.goto w stage)
  | swept {tenant : String} {now : Time} :
      Effect lib s (.sweep tenant now) { s with rows := recoverPostings s.rows tenant now }
  | recovered {w : ℕ} {now : Time} {call : Call} {settings : Settings} :
      Effect lib s (.recover w now)
        ({ s with rows := recoverPostings s.rows call.tenant now }.goto w
          (.recovered call settings))
  | recorded {w : ℕ} {active : Except Err Unit} {drawn : String} {now : Time} {row : Row}
      {stage : Stage} (hstage : stage.row? = none) (hstatus : row.status = .skippedExisting)
      (hclaim : row.claimKey = some row.identity.claimKey)
      (hfree : ∀ r ∈ s.rows, clashes row.tenant row.id row.claimKey r = false) :
      Effect lib s (.record w active drawn now)
        ({ s with rows := s.rows ++ [row] }.goto w stage)
  | reserved {w : ℕ} {active : Except Err Unit} {now : Time} {row : Row} {call : Call}
      {settings : Settings} {request : Request} (hkey : row.tenant = call.tenant)
      (hidentity : row.identity = identity call.posting) (hstatus : row.status = .posting)
      (hclaim : row.claimKey = some row.identity.claimKey)
      (hfree : ∀ r ∈ s.rows, clashes row.tenant row.id row.claimKey r = false) :
      Effect lib s (.reserve w active now)
        ({ s with rows := s.rows ++ [row] }.goto w (.reserved call settings request row.id))
  | posted {w : ℕ} {call : Call} {settings : Settings} {request : Request} {rowId : String}
      (hw : s.workers w = .reserved call settings request rowId) :
      Effect lib s (.post w) (s.goto w (.sent call settings rowId))
  | answered {w : ℕ} {call : Call} {settings : Settings} {rowId : String}
      {answer : Except Err Json} (hw : s.workers w = .sent call settings rowId) :
      Effect lib s (.answer w answer) (s.goto w (.answered call settings rowId answer))
  | finished {w : ℕ} {now : Time} {call : Call} {settings : Settings} {rowId : String}
      {answer : Except Err Json} (hw : s.workers w = .answered call settings rowId answer) :
      Effect lib s (.finish w now)
        ({ s with rows := recordAnswer lib s.rows call settings rowId answer now }.goto w
          (.returned (resultOf lib settings rowId answer)))
  | reconciled {authority : Except Err Unit} {tenant postingId role : String} {outcome : Verdict}
      {evidence externalId : String} {now : Time} {status : Status}
      (hauthority : authority = .ok ()) (hrole : role = "owner" ∨ role = "super-admin")
      (hstatus : outcome.status? = some status)
      (hrow : ∀ r ∈ s.rows, r.key = (tenant, postingId) → r.status.unknown = true) :
      Effect lib s (.reconcile authority tenant postingId role outcome evidence externalId now)
        { s with
          rows := Table.update (fun r => r.key = (tenant, postingId))
            (Row.settle status externalId now) s.rows }

/-! ### Every event has an effect -/

section Cases

variable {lib : Library} {s : State}

variable {call : Call}

theorem configure_row? {settings : Except Err Settings} :
    (Stage.ofResult (configure call settings)).row? = none := by
  cases h : configure call settings with
  | error e => rfl
  | ok stage =>
    simp only [configure, bind_eq_ok, exists_unit, ensure_eq_ok, pure_eq_ok] at h
    obtain ⟨_, -, -, -, rfl⟩ := h
    rfl

variable {settings : Settings}

theorem lookup_row? {rows : List Row} : (Stage.ofResult (lookup rows call settings)).row? = none := by
  unfold lookup
  split
  · rfl
  · split
    · rfl
    · split <;> rfl

theorem build_row? {headers : Except Err (List (String × String))} {stage : Stage}
    (h : search.build call settings headers = .ok stage) : stage.row? = none := by
  simp only [search.build, bind_eq_ok, exists_unit, ensure_eq_ok, pure_eq_ok] at h
  obtain ⟨_, -, -, _, -, rfl⟩ := h
  rfl

theorem search_row? {searchHeaders headers : Except Err (List (String × String))} {answer : Except Err Json} :
    (Stage.ofResult (search lib call settings searchHeaders answer headers)).row? = none := by
  cases h : search lib call settings searchHeaders answer headers with
  | error e => rfl
  | ok stage =>
    simp only [search, bind_eq_ok] at h
    obtain ⟨found, -, h⟩ := h
    cases found with
    | none => exact build_row? h
    | some remote =>
      by_cases hr : remote = ""
      · simp only [hr, if_true] at h
        exact build_row? h
      · simp only [hr, if_false, pure_eq_ok] at h
        exact h ▸ rfl

theorem free_of_all {rows : List Row} {tenant id : String} {claimKey : Option String}
    (h : rows.all (fun r => !clashes tenant id claimKey r) = true) :
    ∀ r ∈ rows, clashes tenant id claimKey r = false := by
  simpa using h

variable {now : Time}

theorem record_effect {w : ℕ} {active : Except Err Unit} {drawn : String} {remote : String}
    (hw : s.workers w = .known call remote) :
    Effect lib s (.record w active drawn now) (s.after lib (.record w active drawn now)) := by
  delta State.after
  simp only [hw]
  split
  · rename_i rows rowId h
    simp only [record, Status.claiming, if_true, bind_eq_ok, exists_unit, ensure_eq_ok, pure_eq_ok,
      Prod.mk.injEq] at h
    obtain ⟨-, hfree, rfl, rfl⟩ := h
    exact .recorded rfl rfl rfl (free_of_all hfree)
  · exact .moved w rfl

theorem reserve_effect {w : ℕ} {active : Except Err Unit} {request : Request}
    (hw : s.workers w = .ready call settings request) :
    Effect lib s (.reserve w active now) (s.after lib (.reserve w active now)) := by
  delta State.after
  simp only [hw]
  split
  · rename_i rows rowId h
    simp only [reserve, bind_eq_ok, exists_unit, ensure_eq_ok, pure_eq_ok, Prod.mk.injEq] at h
    obtain ⟨-, hfree, rfl, rfl⟩ := h
    exact .reserved rfl rfl rfl rfl (free_of_all hfree)
  · exact .moved w rfl

theorem reconcile_effect {authority : Except Err Unit} {tenant postingId role : String} {outcome : Verdict}
    {evidence externalId : String} (hkeyed : Keyed Row.key s.rows) :
    Effect lib s (.reconcile authority tenant postingId role outcome evidence externalId now)
      (s.after lib (.reconcile authority tenant postingId role outcome evidence externalId now)) := by
  delta State.after
  dsimp only
  cases h : reconcilePosting s.rows authority tenant postingId role outcome evidence externalId
      now with
  | error e => exact .same _
  | ok out =>
    simp only [reconcilePosting, bind_eq_ok, exists_unit, ensure_eq_ok, need_eq_ok,
      pure_eq_ok] at h
    obtain ⟨hrole, status, hstatus, -, -, hauthority, row, hrow, -, rfl⟩ := h
    refine .reconciled hauthority hrole hstatus fun r hr hk => ?_
    have hfound := List.find?_some hrow
    simp only [Bool.and_eq_true, decide_eq_true_eq] at hfound
    rw [hkeyed.eq_of_key hr (List.mem_of_find?_eq_some hrow) (hk.trans hfound.1.symm)]
    exact hfound.2

end Cases

variable {lib : Library} {s t : State} {e : Event}

theorem Step.effect (h : Step lib s e t) (hkeyed : Keyed Row.key s.rows) : Effect lib s e t := by
  rw [Step] at h
  subst h
  delta State.after
  cases e with
  | submit w call settings =>
    dsimp only
    split
    · exact .moved w configure_row?
    · exact .moved w configure_row?
    · exact .same _
  | recover w now =>
    dsimp only
    split
    · exact .recovered
    · exact .same _
  | lookup w =>
    dsimp only
    split
    · exact .moved w lookup_row?
    · exact .same _
  | search w =>
    dsimp only
    split
    · exact .moved w search_row?
    · exact .same _
  | record w =>
    cases hw : s.workers w with
    | known call remote => exact record_effect hw
    | _ => simpa only [hw] using Effect.same _
  | reserve w =>
    cases hw : s.workers w with
    | ready call settings request => exact reserve_effect hw
    | _ => simpa only [hw] using Effect.same _
  | post w =>
    cases hw : s.workers w with
    | reserved => simpa only [hw] using Effect.posted hw
    | _ => simpa only [hw] using Effect.same _
  | answer w =>
    cases hw : s.workers w with
    | sent => simpa only [hw] using Effect.answered hw
    | _ => simpa only [hw] using Effect.same _
  | finish w =>
    cases hw : s.workers w with
    | answered => simpa only [hw] using Effect.finished hw
    | _ => simpa only [hw] using Effect.same _
  | crash w => exact .moved w rfl
  | sweep => exact .swept
  | reconcile => exact reconcile_effect hkeyed

/-! ### The invariant -/

/-- Two rows of the same document. -/
def SameDocument (r r' : Row) : Prop := r.tenant = r'.tenant ∧ r.identity = r'.identity

/-- The claim key a row's status calls for. -/
def Row.claims (r : Row) : Prop :=
  r.claimKey = if r.status = .failed then none else some r.identity.claimKey

/-- The inductive invariant of the posting ledger and its workers. -/
structure Inv (s : State) : Prop where
  keyed : Keyed Row.key s.rows
  claims : ∀ r ∈ s.rows, r.claims
  order : s.rows.Pairwise fun r r' => SameDocument r r' → r.status = .failed
  held : ∀ w key i, (s.workers w).row? = some (key, i) → ∃ r ∈ s.rows, r.key = key ∧ r.identity = i
  single : ∀ w w' key i i', (s.workers w).row? = some (key, i) →
    (s.workers w').row? = some (key, i') → w = w'

theorem inv_empty : Inv {} where
  keyed := keyed_nil _
  claims := by simp
  order := List.Pairwise.nil
  held _ _ _ h := by cases h
  single _ _ _ _ _ h := by cases h

variable {w : ℕ} {stage : Stage}

theorem workers_goto {w' : ℕ} : (s.goto w stage).workers w' = if w' = w then stage else s.workers w' := by
  simp [State.goto, Function.update_apply]

/-- Updating rows that are not failed keeps the invariant. -/
theorem Inv.update (h : Inv s) {p : Row → Bool} {f : Row → Row} (hkey : ∀ r, (f r).key = r.key)
    (hidentity : ∀ r, (f r).identity = r.identity) (hfailed : ∀ r ∈ s.rows, p r = true → r.status ≠ .failed)
    (hclaims : ∀ r ∈ s.rows, p r = true → (f r).claims) :
    Inv { s with rows := Table.update p f s.rows } where
  keyed := h.keyed.update hkey
  claims := by
    intro r' hr'
    obtain ⟨r, hr, rfl⟩ := mem_update.1 hr'
    split
    · exact hclaims r hr ‹_›
    · exact h.claims r hr
  order := by
    refine List.pairwise_map.2 (h.order.imp_of_mem fun {r r'} hr hr' hold => ?_)
    have hsame : ∀ x, (if p x then f x else x).tenant = x.tenant ∧
        (if p x then f x else x).identity = x.identity := by
      intro x
      split
      · exact ⟨congrArg Prod.fst (hkey x), hidentity x⟩
      · exact ⟨rfl, rfl⟩
    intro hdoc
    unfold SameDocument at hdoc
    rw [(hsame r).1, (hsame r).2, (hsame r').1, (hsame r').2] at hdoc
    have hst := hold hdoc
    have hp : ¬ p r = true := fun hp => hfailed r hr hp hst
    rwa [if_neg hp]
  held := by
    intro w key i hw
    obtain ⟨r, hr, hk, hi⟩ := h.held w key i hw
    by_cases hp : p r = true
    · exact ⟨f r, mem_update_of_pos hr hp, (hkey r).trans hk, (hidentity r).trans hi⟩
    · exact ⟨r, mem_update_of_not hr (by simpa using hp), hk, hi⟩
  single := h.single

theorem Inv.goto (h : Inv s) (hstage : stage.row? = none ∨ stage.row? = (s.workers w).row?) :
    Inv (s.goto w stage) := by
  have hrow : ∀ w' x, ((s.goto w stage).workers w').row? = some x →
      (s.workers w').row? = some x := by
    intro w' x hx
    rw [workers_goto] at hx
    split at hx
    · rename_i hw
      subst hw
      rcases hstage with hs | hs
      · rw [hs] at hx
        cases hx
      · rw [← hs, hx]
    · exact hx
  exact ⟨h.keyed, h.claims, h.order, fun w' key i hw' => h.held w' key i (hrow w' _ hw'),
    fun w₁ w₂ key i i' h₁ h₂ => h.single w₁ w₂ key i i' (hrow w₁ _ h₁) (hrow w₂ _ h₂)⟩

variable {row : Row}

/-- A row that breaks no `UNIQUE` constraint is a new key, and the only claim on its document. -/
theorem Inv.insert (h : Inv s) (hclaim : row.claimKey = some row.identity.claimKey)
    (hstatus : row.status ≠ .failed) (hfree : ∀ r ∈ s.rows, clashes row.tenant row.id row.claimKey r = false) :
    Inv { s with rows := s.rows ++ [row] } := by
  have hfresh : ∀ r ∈ s.rows, r.key ≠ row.key := by
    intro r hr hk
    obtain ⟨ht, hid⟩ := Prod.mk.inj hk
    simpa [clashes, ht, hid] using hfree r hr
  have holder : ∀ r ∈ s.rows, SameDocument r row → r.status = .failed := by
    rintro r hr ⟨ht, hi⟩
    by_contra hst
    have hkey : r.claimKey = row.claimKey := by
      rw [hclaim, ← hi]
      exact (h.claims r hr).trans (if_neg hst)
    simpa [clashes, ht, hkey, hclaim] using hfree r hr
  refine ⟨h.keyed.insert hfresh, ?_, ?_, ?_, h.single⟩
  · intro r hr
    rcases List.mem_append.1 hr with hr | hr
    · exact h.claims r hr
    · obtain rfl := List.mem_singleton.1 hr
      exact hclaim.trans (if_neg hstatus).symm
  · refine List.pairwise_append.2 ⟨h.order, List.pairwise_singleton _ _, fun r hr r' hr' => ?_⟩
    obtain rfl := List.mem_singleton.1 hr'
    exact holder r hr
  · intro w key i hw
    obtain ⟨r, hr, hk, hi⟩ := h.held w key i hw
    exact ⟨r, List.mem_append_left _ hr, hk, hi⟩

theorem Inv.row?_ne (h : Inv s) (hfree : ∀ r ∈ s.rows, clashes row.tenant row.id row.claimKey r = false)
    (w : ℕ) (i : Identity) : (s.workers w).row? ≠ some (row.key, i) := by
  intro hw
  obtain ⟨r, hr, hk, -⟩ := h.held w _ i hw
  obtain ⟨ht, hid⟩ := Prod.mk.inj hk
  simpa [clashes, ht, hid] using hfree r hr

/-- A worker takes the row it just wrote. -/
theorem Inv.take (h : Inv s) (hclaim : row.claimKey = some row.identity.claimKey)
    (hstatus : row.status ≠ .failed) (hfree : ∀ r ∈ s.rows, clashes row.tenant row.id row.claimKey r = false)
    (hstage : stage.row? = some (row.key, row.identity)) :
    Inv ({ s with rows := s.rows ++ [row] }.goto w stage) := by
  have hinsert := h.insert hclaim hstatus hfree
  set t : State := { s with rows := s.rows ++ [row] } with ht
  have hrow : ∀ w' key i, ((t.goto w stage).workers w').row? = some (key, i) →
      w' = w ∧ key = row.key ∧ i = row.identity ∨ w' ≠ w ∧ (s.workers w').row? = some (key, i) := by
    intro w' key i hw'
    rw [workers_goto] at hw'
    split at hw'
    · rw [hstage, Option.some.injEq, Prod.mk.injEq] at hw'
      exact .inl ⟨‹_›, hw'.1.symm, hw'.2.symm⟩
    · exact .inr ⟨‹_›, hw'⟩
  refine ⟨hinsert.keyed, hinsert.claims, hinsert.order, fun w' key i hw' => ?_,
    fun w₁ w₂ key i i' h₁ h₂ => ?_⟩
  · rcases hrow w' key i hw' with ⟨-, rfl, rfl⟩ | ⟨-, hw'⟩
    · exact ⟨row, List.mem_append_right _ List.mem_cons_self, rfl, rfl⟩
    · exact hinsert.held w' key i hw'
  · rcases hrow w₁ key i h₁ with ⟨hw₁, hk₁, -⟩ | ⟨-, hold₁⟩ <;>
      rcases hrow w₂ key i' h₂ with ⟨hw₂, hk₂, -⟩ | ⟨-, hold₂⟩
    · exact hw₁.trans hw₂.symm
    · exact absurd (hk₁ ▸ hold₂) (h.row?_ne hfree w₂ i')
    · exact absurd (hk₂ ▸ hold₁) (h.row?_ne hfree w₁ i)
    · exact h.single w₁ w₂ key i i' hold₁ hold₂

theorem Inv.recover (h : Inv s) (tenant : String) (now : Time) :
    Inv { s with rows := recoverPostings s.rows tenant now } := by
  have hposting : ∀ r : Row, (decide (r.tenant = tenant) && decide (r.status = .posting) &&
      decide (r.created ≤ now - seconds reservationStaleSeconds)) = true →
      r.status = .posting := by
    intro r hp
    simp only [Bool.and_eq_true, decide_eq_true_eq] at hp
    exact hp.1.2
  refine h.update (fun _ => rfl) (fun _ => rfl) (fun r _ hp => ?_) fun r hr hp => ?_
  · simp [hposting r hp]
  · have hclaims := h.claims r hr
    simpa [Row.claims, Row.expire, Row.identity, hposting r hp] using hclaims

theorem Inv.finish (h : Inv s) (tenant rowId : String) (status : Status) (externalId : String)
    (response : Json) (now : Time) :
    Inv { s with rows := Erp.finish s.rows tenant rowId status externalId response now } := by
  have hopen : ∀ r : Row, (decide (r.key = (tenant, rowId)) &&
      (decide (r.status = .posting) || decide (r.status = .uncertain))) = true →
      r.status ≠ .failed := by
    intro r hp
    simp only [Bool.and_eq_true, Bool.or_eq_true, decide_eq_true_eq] at hp
    rcases hp.2 with hst | hst <;> simp [hst]
  refine h.update (fun _ => rfl) (fun _ => rfl) (fun r _ hp => hopen r hp) fun r hr hp => ?_
  have hclaims := h.claims r hr
  unfold Row.claims at hclaims ⊢
  rw [if_neg (hopen r hp)] at hclaims
  simp [Row.finish, Row.identity, hclaims]

theorem Inv.settle (h : Inv s) {tenant postingId : String} {outcome : Verdict} {status : Status}
    {externalId : String} {now : Time} (hstatus : outcome.status? = some status)
    (hrow : ∀ r ∈ s.rows, r.key = (tenant, postingId) → r.status.unknown = true) :
    Inv { s with
      rows := Table.update (fun r => r.key = (tenant, postingId))
        (Row.settle status externalId now) s.rows } := by
  refine h.update (fun _ => rfl) (fun _ => rfl) (fun r hr hp hst => ?_) fun r _ _ => ?_
  · have hunknown := hrow r hr (of_decide_eq_true hp)
    simp [hst, Status.unknown] at hunknown
  · cases outcome <;> simp only [Verdict.status?, Option.some.injEq, reduceCtorEq] at hstatus <;>
      subst hstatus <;> simp [Row.claims, Row.settle, Row.identity]

theorem Inv.step (h : Inv s) (hs : Step lib s e t) : Inv t := by
  cases hs.effect h.keyed with
  | same => exact h
  | moved w hstage => exact h.goto (.inl hstage)
  | swept => exact h.recover _ _
  | recovered => exact (h.recover _ _).goto (.inl rfl)
  | recorded hstage hstatus hclaim hfree =>
    exact (h.insert hclaim (by simp [hstatus]) hfree).goto (.inl hstage)
  | @reserved w _ _ row call settings request hkey hidentity hstatus hclaim hfree =>
    exact h.take hclaim (by simp [hstatus]) hfree
      (by simp [Stage.row?, Row.key, hkey, hidentity])
  | posted hw => exact h.goto (.inr (by rw [hw]; rfl))
  | answered hw => exact h.goto (.inr (by rw [hw]; rfl))
  | finished hw => exact (h.finish _ _ _ _ _ _).goto (.inl rfl)
  | reconciled _ _ hstatus hrow => exact h.settle hstatus hrow

/-! ### The claim of a document -/

theorem Status.claiming_iff {status : Status} : status.claiming = true ↔ status ≠ .failed := by
  cases status <;> simp [Status.claiming]

variable {r : Row}

/-- At most one row claims a document. -/
theorem Inv.claim_unique (h : Inv s) {r' : Row} (hr : r ∈ s.rows) (hr' : r' ∈ s.rows)
    (hdoc : SameDocument r r') (hclaim : r.status.claiming = true) (hclaim' : r'.status.claiming = true) :
    r = r' := by
  rw [Status.claiming_iff] at hclaim hclaim'
  have hone : s.rows.Pairwise fun x y => SameDocument x y → x.status = .failed ∨ y.status = .failed :=
    h.order.imp fun hxy hdoc => .inl (hxy hdoc)
  have hsymm : Std.Symm fun x y : Row =>
      SameDocument x y → x.status = .failed ∨ y.status = .failed :=
    ⟨fun x y hxy hdoc => (hxy ⟨hdoc.1.symm, hdoc.2.symm⟩).symm⟩
  by_contra hne
  rcases hone.forall hr hr' hne hdoc with hst | hst
  · exact hclaim hst
  · exact hclaim' hst

/-- The rows written after the row with a key. -/
def newer (key : String × String) (rows : List Row) : List Row :=
  (rows.dropWhile fun r => r.key ≠ key).tail

/-- The ledger around a row: every older attempt at its document is `failed`. -/
theorem Inv.around (h : Inv s) (hr : r ∈ s.rows) :
    ∃ older, s.rows = older ++ r :: newer r.key s.rows ∧
      ∀ x ∈ older, SameDocument x r → x.status = .failed := by
  obtain ⟨older, rest, hrows⟩ := List.append_of_mem hr
  have hkeyed := h.keyed
  have horder := h.order
  rw [hrows] at hkeyed horder
  have holder : ∀ x ∈ older, x.key ≠ r.key := by
    unfold Keyed at hkeyed
    rw [List.map_append, List.nodup_append] at hkeyed
    exact fun x hx => hkeyed.2.2 x.key (List.mem_map_of_mem hx) r.key (by simp)
  have hnewer : newer r.key s.rows = rest := by
    unfold newer
    rw [hrows, List.dropWhile_append_of_pos (by simpa using holder)]
    simp
  refine ⟨older, by rw [hnewer, hrows], fun x hx hdoc => ?_⟩
  exact (List.pairwise_append.1 horder).2.2 x hx r List.mem_cons_self hdoc

/-- The row a `POST` of this event goes out under, with the identity of its document. -/
def sends (s : State) : Event → Option ((String × String) × Identity)
  | .post w => (s.workers w).unsent?
  | _ => none

/-- No newer attempt at the document of a `POST` claims it. -/
def Current (s : State) (e : Event) : Prop :=
  ∀ key i, sends s e = some (key, i) →
    ∀ r ∈ newer key s.rows, r.tenant = key.1 → r.identity = i → r.status = .failed

/-- Every row of a document other than the one with this key is `failed`. -/
def OthersFailed (s : State) (key : String × String) (i : Identity) : Prop :=
  ∀ r ∈ s.rows, r.tenant = key.1 → r.identity = i → r.key ≠ key → r.status = .failed

theorem row?_of_sends {x : (String × String) × Identity} (h : sends s e = some x) :
    ∃ w, e = .post w ∧ (s.workers w).row? = some x := by
  cases e with
  | post w => exact ⟨w, rfl, Stage.row?_of_unsent? h⟩
  | _ => cases h

variable {key : String × String} {i : Identity}

/-- A `POST` goes out with every other attempt `failed` exactly when no newer attempt claims. -/
theorem Inv.othersFailed_iff (h : Inv s) (hsends : sends s e = some (key, i)) :
    OthersFailed s key i ↔ Current s e := by
  obtain ⟨w, -, hw⟩ := row?_of_sends hsends
  obtain ⟨r, hr, rfl, rfl⟩ := h.held w key i hw
  obtain ⟨older, hrows, holder⟩ := h.around hr
  have hne : ∀ x ∈ newer r.key s.rows, x.key ≠ r.key := by
    intro x hx hk
    have hkeyed := h.keyed
    unfold Keyed at hkeyed
    rw [hrows, List.map_append, List.nodup_append, List.map_cons, List.nodup_cons] at hkeyed
    exact hkeyed.2.1.1 (List.mem_map.2 ⟨x, hx, hk⟩)
  have hmem : ∀ x, x ∈ s.rows ↔ x ∈ older ∨ x = r ∨ x ∈ newer r.key s.rows := by
    intro x
    conv_lhs => rw [hrows]
    simp
  constructor
  · intro hothers key i hkey x hx ht hi
    obtain ⟨rfl, rfl⟩ := Prod.mk.inj (Option.some.inj (hsends.symm.trans hkey))
    exact hothers x ((hmem x).2 (.inr (.inr hx))) ht hi (hne x hx)
  · intro hcurrent x hx ht hi hk
    rcases (hmem x).1 hx with hx | rfl | hx
    · exact holder x hx ⟨ht, hi⟩
    · exact absurd rfl hk
    · exact hcurrent _ _ hsends x hx ht hi

/-! ### Where claims come from, and what releases them -/

/-- A transition commits the claiming reservation of a row, under a key no row had before. -/
def Reserves (τ : Transition State Event) (key : String × String) (i : Identity) : Prop :=
  ∃ row, τ.dst.rows = τ.src.rows ++ [row] ∧ row.key = key ∧ row.identity = i ∧
    row.status = .posting ∧ row.claimKey = some i.claimKey ∧ ∀ r ∈ τ.src.rows, r.key ≠ key

theorem of_goto {f : Stage → Option ((String × String) × Identity)} {s' : State} {w' : ℕ}
    {x : (String × String) × Identity} (hs' : s'.workers = s.workers)
    (hstage : f stage = none ∨ f stage = f (s.workers w')) (hw : f ((s'.goto w' stage).workers w) = some x) :
    f (s.workers w) = some x := by
  rw [workers_goto, hs'] at hw
  split at hw
  · rename_i hww
    subst hww
    rcases hstage with hst | hst
    · rw [hst] at hw
      cases hw
    · rw [← hst, hw]
  · exact hw

/-- A worker about to send a row was so before, or reserves the row now. -/
theorem Effect.unsent?_cases (he : Effect lib s e t) (hw : (t.workers w).unsent? = some (key, i)) :
    (s.workers w).unsent? = some (key, i) ∨ Reserves ⟨s, e, t⟩ key i := by
  cases he with
  | same => exact .inl hw
  | moved w' hstage => exact .inl (of_goto rfl (.inl (Stage.unsent?_of_row? hstage)) hw)
  | swept => exact .inl hw
  | recovered => exact .inl (of_goto rfl (.inl rfl) hw)
  | recorded hstage => exact .inl (of_goto rfl (.inl (Stage.unsent?_of_row? hstage)) hw)
  | @reserved w' _ _ row call settings request hkey hidentity hstatus hclaim hfree =>
    rw [workers_goto] at hw
    split at hw
    · obtain ⟨hk, hi⟩ := Prod.mk.inj (Option.some.inj hw)
      have hrow : row.key = key := by rw [← hk, Row.key, hkey]
      refine .inr ⟨row, rfl, hrow, hidentity.trans hi, hstatus, ?_, fun r hr hrk => ?_⟩
      · rw [hclaim, hidentity, hi]
      · obtain ⟨ht, hid⟩ := Prod.mk.inj (hrk.trans hrow.symm)
        simpa [clashes, ht, hid] using hfree r hr
    · exact .inl hw
  | posted => exact .inl (of_goto rfl (.inl rfl) hw)
  | answered => exact .inl (of_goto rfl (.inl rfl) hw)
  | finished => exact .inl (of_goto rfl (.inl rfl) hw)
  | reconciled => exact .inl hw

/-- Rows are never deleted. -/
theorem Effect.key_kept (he : Effect lib s e t) (h : ∃ r ∈ s.rows, r.key = key) :
    ∃ r ∈ t.rows, r.key = key := by
  have hupdate : ∀ (p : Row → Bool) (f : Row → Row), (∀ r, (f r).key = r.key) →
      ∃ r ∈ Table.update p f s.rows, r.key = key := by
    intro p f hf
    obtain ⟨r, hr, hk⟩ := h
    by_cases hp : p r = true
    · exact ⟨f r, mem_update_of_pos hr hp, (hf r).trans hk⟩
    · exact ⟨r, mem_update_of_not hr (by simpa using hp), hk⟩
  obtain ⟨r, hr, hk⟩ := h
  cases he with
  | same | moved | posted | answered => exact ⟨r, hr, hk⟩
  | swept | recovered | finished | reconciled => exact hupdate _ _ fun _ => rfl
  | recorded | reserved => exact ⟨r, List.mem_append_left _ hr, hk⟩

/-- A row was reserved, and no worker is about to send it. -/
def Sent (key : String × String) (s : State) : Prop :=
  (∃ r ∈ s.rows, r.key = key) ∧ ∀ w i, (s.workers w).unsent? ≠ some (key, i)

theorem Effect.sent_kept (he : Effect lib s e t) (h : Sent key s) : Sent key t := by
  refine ⟨he.key_kept h.1, fun w i hw => ?_⟩
  obtain ⟨r, hr, hk⟩ := h.1
  rcases he.unsent?_cases hw with hw | ⟨row, -, -, -, -, -, hfresh⟩
  · exact h.2 w i hw
  · exact hfresh r hr hk

/-- A `POST` leaves no worker about to send its row. -/
theorem Inv.sent_of_sends (h : Inv s) (hsends : sends s e = some (key, i)) :
    ¬ Sent key s ∧ Sent key (s.after lib e) := by
  cases e with
  | post w =>
    refine ⟨fun hsent => hsent.2 w i hsends, ?_⟩
    have hrow := Stage.row?_of_unsent? hsends
    obtain ⟨r, hr, hk, -⟩ := h.held w key i hrow
    obtain ⟨call, settings, request, rowId, hw⟩ : ∃ call settings request rowId,
        s.workers w = .reserved call settings request rowId := by
      cases hw : s.workers w <;> simp_all [sends, Stage.unsent?]
    have hafter : s.after lib (.post w) = s.goto w (.sent call settings rowId) := by
      simp [State.after, hw]
    rw [hafter]
    refine ⟨⟨r, hr, hk⟩, fun w' i' hw' => ?_⟩
    by_cases hww : w' = w
    · rw [workers_goto, if_pos hww] at hw'
      cases hw'
    · rw [workers_goto, if_neg hww] at hw'
      exact hww (h.single w' w key i' i (Stage.row?_of_unsent? hw') hrow)
  | _ => cases hsends

/-- A worker records a definitive refusal by the ERP on the row it sent. -/
def Refused (τ : Transition State Event) (key : String × String) : Prop :=
  ∃ w now call settings rowId e, τ.label = .finish w now ∧
    τ.src.workers w = .answered call settings rowId (.error e) ∧ definitiveRefusal e = true ∧
      key = (call.tenant, rowId)

/-- An owner decides that the ERP does not hold the document. -/
def OwnerFailed (τ : Transition State Event) (key : String × String) : Prop :=
  ∃ role evidence externalId now, (role = "owner" ∨ role = "super-admin") ∧
    τ.label = .reconcile (.ok ()) key.1 key.2 role .failed evidence externalId now

theorem outcomeOf_failed {settings : Settings} {answer : Except Err Json}
    (h : (outcomeOf lib settings answer).1 = .failed) :
    ∃ e, answer = .error e ∧ definitiveRefusal e = true := by
  cases answer with
  | error e =>
    refine ⟨e, rfl, ?_⟩
    by_contra hrefusal
    simp [outcomeOf, hrefusal] at h
  | ok response =>
    simp only [outcomeOf] at h
    split at h <;> simp at h

/-- A row becomes `failed` by a definitive refusal or by an owner's verdict. -/
theorem Effect.failed_cases (he : Effect lib s e t) (hkeyed : Keyed Row.key s.rows) {r' : Row}
    (hr : r ∈ s.rows) (hr' : r' ∈ t.rows) (hk : r.key = r'.key) (hold : r.status ≠ .failed)
    (hnew : r'.status = .failed) : Refused ⟨s, e, t⟩ r.key ∨ OwnerFailed ⟨s, e, t⟩ r.key := by
  have hsame : r' ∉ s.rows := fun hmem => hold (hkeyed.eq_of_key hr hmem hk ▸ hnew)
  cases he with
  | same | moved | posted | answered => exact absurd hr' hsame
  | swept | recovered =>
    have hupdate := hkeyed.eq_update Row.expire_key hr hr' hk
    split at hupdate
    · rw [hupdate] at hnew
      cases hnew
    · exact absurd (hupdate ▸ hr) hsame
  | recorded _ hstatus | reserved _ _ hstatus =>
    rcases List.mem_append.1 hr' with hr' | hr'
    · exact absurd hr' hsame
    · obtain rfl := List.mem_singleton.1 hr'
      rw [hnew] at hstatus
      cases hstatus
  | @finished w now call settings rowId answer hw =>
    have hupdate := hkeyed.eq_update (Row.finish_key _ _ _ _) hr hr' hk
    split at hupdate
    · rename_i hp
      simp only [Bool.and_eq_true, decide_eq_true_eq] at hp
      rw [hupdate] at hnew
      obtain ⟨err, rfl, hrefusal⟩ := outcomeOf_failed hnew
      exact .inl ⟨w, now, call, settings, rowId, err, rfl, hw, hrefusal, hp.1⟩
    · exact absurd (hupdate ▸ hr) hsame
  | @reconciled _ tenant postingId role outcome evidence externalId now status hauth hrole hstatus =>
    have hupdate := hkeyed.eq_update (Row.settle_key _ _ _) hr hr' hk
    split at hupdate
    · rename_i hp
      have hkey : r.key = (tenant, postingId) := of_decide_eq_true hp
      rw [hupdate] at hnew
      obtain rfl : status = .failed := hnew
      obtain rfl : outcome = .failed := by
        cases outcome <;> simp [Verdict.status?] at hstatus ⊢
      subst hauth
      exact .inr ⟨role, evidence, externalId, now, hrole, by rw [hkey]⟩
    · exact absurd (hupdate ▸ hr) hsame

/-- **A document is claimed by one attempt at a time.** In every run of workers, recoveries and owners,
with crashes anywhere: at most one row claims a document; every `POST` comes after the commit of a
claiming `posting` row under a key of its own, and no row is sent twice; a row becomes `failed` only
by a definitive refusal or an owner's verdict; and a `POST` goes out with every other attempt at its
document `failed` exactly when no attempt reserved after its own row claims the document. -/
theorem posting_at_most_once (lib : Library) {τs : List (Transition State Event)} {s : State}
    (h : Run (Step lib) {} τs s) :
    (∀ r ∈ s.rows, ∀ r' ∈ s.rows, SameDocument r r' → r.status.claiming = true →
        r'.status.claiming = true → r = r') ∧
      (∀ pre τ post key i, τs = pre ++ τ :: post → sends τ.src τ.label = some (key, i) →
        ∃ σ ∈ pre, Reserves σ key i) ∧
      (∀ key, τs.countP (fun τ => (sends τ.src τ.label).map Prod.fst = some key) ≤ 1) ∧
      (∀ τ ∈ τs, ∀ r ∈ τ.src.rows, ∀ r' ∈ τ.dst.rows, r.key = r'.key → r.status ≠ .failed →
        r'.status = .failed → Refused τ r.key ∨ OwnerFailed τ r.key) ∧
      ∀ τ ∈ τs, ∀ key i, sends τ.src τ.label = some (key, i) →
        (OthersFailed τ.src key i ↔ Current τ.src τ.label) := by
  have hstep : ∀ s e t, Inv s → Step lib s e t → Inv t := fun _ _ _ hi hs => hi.step hs
  have hinv : Inv s := h.invariant inv_empty hstep
  have hrun := h.strengthen inv_empty hstep
  refine ⟨fun r hr r' hr' => hinv.claim_unique hr hr', ?_, fun key => ?_, ?_, ?_⟩
  · rintro pre τ post key i rfl hsends
    obtain ⟨hpre, -⟩ := hrun.split
    cases hlabel : τ.label with
    | post w =>
      rw [hlabel] at hsends
      refine hpre.since (p := fun s => (s.workers w).unsent? = some (key, i)) (by simp [Stage.unsent?])
        (fun s e t hs hw => ?_) hsends
      exact (hs.1.effect hs.2.keyed).unsent?_cases hw
    | _ => rw [hlabel] at hsends; cases hsends
  · classical
    have hcount := hrun.countP_le_one (p := Sent key)
      (q := fun τ => (sends τ.src τ.label).map Prod.fst = some key)
      (fun s e t hs hsent => (hs.1.effect hs.2.keyed).sent_kept hsent)
      (fun s e t hs hq => by
        obtain ⟨⟨key', i⟩, hsends, rfl⟩ := Option.map_eq_some_iff.1 hq
        rw [show t = s.after lib e from hs.1]
        exact hs.2.sent_of_sends hsends)
    refine hcount.trans ?_
    split <;> simp
  · intro τ hτ r hr r' hr' hk hold hnew
    obtain ⟨hs, hi⟩ := h.always inv_empty hstep hτ
    exact (hs.effect hi.keyed).failed_cases hi.keyed hr hr' hk hold hnew
  · intro τ hτ key i hsends
    obtain ⟨-, hi⟩ := h.always inv_empty hstep hτ
    exact hi.othersFailed_iff hsends

/-! ### Two sample runs -/

/-- The hashes of the first two attempts at the sample document. -/
def sampleLibrary : Library where
  sha256 text :=
    if text.toList.getLast? = some '0' then
      "4cefd27db49cb1d21e0500e35648dded3c36f475f7e3eece607ad1e21d2dbec3"
    else "b73fefb5b6fc8638f481e6bb3c45fd6ab3a6ef896e1ffa6fc7df88829672d640"
  str
    | .str s => s
    | value => value.encode
  repr text := "'" ++ text ++ "'"

def sampleSettings : Settings :=
  ⟨"onec_http", true, "erp.example.com", "", "/find", "/post", "Idempotency-Key", "id", "items", ""⟩

def sampleCall : Call :=
  ⟨"acme", ⟨"onec_http", "Orient", "INV-7", "2026-01-10", "UZS", 900, "60.01", "C-1"⟩, "doc-1",
    .obj [], ""⟩

/-- A worker's statements up to its reservation; the ERP finds nothing. -/
def reserveEvents (w : ℕ) (now : Time) : List Event :=
  [.submit w sampleCall (.ok sampleSettings), .recover w now, .lookup w,
    .search w (.ok []) (.ok (.obj [])) (.ok []), .reserve w (.ok ()) now]

/-- The rest of them; the ERP answers with an identifier. -/
def sendEvents (w : ℕ) (now : Time) : List Event :=
  [.post w, .answer w (.ok (.obj [("id", .str "7")])), .finish w now]

theorem posting_at_most_once_sample :
    let s := (reserveEvents 1 0 ++ sendEvents 1 (seconds 1)).foldl (State.after sampleLibrary) {}
    s.rows.map Row.status = [.posted] ∧
      ∀ r ∈ s.rows, ∀ r' ∈ s.rows, SameDocument r r' → r.status.claiming = true →
        r'.status.claiming = true → r = r' := by
  intro s
  have hrun : Run (Step sampleLibrary) {} _ s :=
    Run.nil.calls (reserveEvents 1 0 ++ sendEvents 1 (seconds 1))
  exact ⟨by decide +kernel, (posting_at_most_once sampleLibrary hrun).1⟩

/-- Worker 1 stands still after its reservation; the row is recovered, the owner finds nothing in
the ERP, and worker 2 posts the document. -/
def stalledEvents : List Event :=
  reserveEvents 1 0 ++
    [.sweep "acme" (seconds 180),
      .reconcile (.ok ()) "acme" "4cefd27db49cb1d21e0500e3" "owner" .failed "not in the ERP" "" (seconds 190)] ++
    reserveEvents 2 (seconds 200) ++ sendEvents 2 (seconds 201)

/-- Worker 1 wakes up and posts the document again, while the row of the first `POST` is `posted`. -/
theorem posting_twice_stalled :
    ∃ τs s pre τ key key' i, Run (Step sampleLibrary) {} τs s ∧ τs = pre ++ [τ] ∧
      sends τ.src τ.label = some (key, i) ∧ (∃ σ ∈ pre, sends σ.src σ.label = some (key', i)) ∧
        key' ≠ key ∧ ∃ r ∈ τ.src.rows, r.key = key' ∧ r.status = .posted := by
  refine ⟨_, _, _, _, ("acme", "4cefd27db49cb1d21e0500e3"), ("acme", "b73fefb5b6fc8638f481e6bb"),
    identity sampleCall.posting,
    (Run.nil.calls (f := State.after sampleLibrary) stalledEvents).snoc (e := .post 1) rfl, rfl,
    ?_, ?_, ?_, ?_⟩
  · decide +kernel
  · have hany : (trace (State.after sampleLibrary) {} stalledEvents).any (fun σ => decide
        (sends σ.src σ.label =
          some (("acme", "b73fefb5b6fc8638f481e6bb"), identity sampleCall.posting))) = true := by
      decide +kernel
    obtain ⟨σ, hσ, hsends⟩ := List.any_eq_true.1 hany
    exact ⟨σ, hσ, of_decide_eq_true hsends⟩
  · decide
  · decide +kernel

end AgentPlatform.Erp
