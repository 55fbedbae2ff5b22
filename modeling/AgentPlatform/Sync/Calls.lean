import AgentPlatform.Sync.Store
import AgentPlatform.Lib.Runs

/-!
# Runs of the sync store

Any number of workers claim streams, renew and release their claims, commit pages and reset streams;
between any two transactions the engine's tables and the OAuth connections change in any way.

`State.change` says what a call does to one stream. The changes of a run are folded into a `Ledger`:
the pages committed since the last reset, and the claim that is in force.
-/

namespace AgentPlatform.Sync

open Outcome Engine Table Runs

structure State where
  db : Db := {}
  connections : OAuth.Tables := {}
  streams : StreamKey → Option Stream := fun _ => none
  /-- The claim tokens drawn so far. -/
  drawn : List String := []

inductive Label
  /-- The engine's tables change. -/
  | engine (db : Db)
  /-- The OAuth connections change, their generations too. -/
  | connections (t : OAuth.Tables)
  | claim (env : Env) (k : StreamKey) (actor : String) (leaseSeconds : ℤ) (token : String)
  | renew (env : Env) (k : StreamKey) (actor token : String) (leaseSeconds : ℤ)
  | commit (env : Env) (k : StreamKey) (actor token pageKey expected next : String) (events : Json)
      (guard : Except Err Unit)
  | release (env : Env) (k : StreamKey) (actor token : String)
  | reset (env : Env) (k : StreamKey) (actor : String) (guard : Except Err Unit)

/-- The state after a transaction on a stream; one that raises is rolled back. -/
def State.put (s : State) (k : StreamKey) : Except Err Stream → State
  | .ok row => { s with streams := Function.update s.streams k (some row) }
  | .error _ => s

/-- The state with one more token drawn. -/
def State.draw (s : State) (token : String) : State := { s with drawn := token :: s.drawn }

section Calls

variable (sha256 : String → String)

def State.after (s : State) : Label → State
  | .engine db => { s with db := db }
  | .connections t => { s with connections := t }
  | .claim env k actor leaseSeconds token => (s.draw token).put k
      ((claim env s.db s.connections k actor (s.streams k) leaseSeconds token).map Prod.fst)
  | .renew env k actor token leaseSeconds =>
    s.put k (renew env s.db s.connections k actor (s.streams k) token leaseSeconds)
  | .commit env k actor token pageKey expected next events guard => s.put k
      ((commit sha256 env s.db s.connections k actor (s.streams k) token pageKey expected next events
        guard).map Prod.fst)
  | .release env k actor token =>
    s.put k (release env s.db s.connections k actor (s.streams k) token)
  | .reset env k actor guard => s.put k (reset env s.db s.connections k actor guard)

/-- The tokens are drawn at random: none comes twice, and none is empty. -/
def Fresh (s : State) : Label → Prop
  | .claim _ _ _ _ token => token ∉ s.drawn ∧ token ≠ ""
  | _ => True

def Step (s : State) (l : Label) (t : State) : Prop := t = s.after sha256 l ∧ Fresh s l

end Calls

/-! ### What a call does to a stream -/

/-- A claim in force. -/
structure Holder where
  claim : String
  actor : String
  generation : ℕ
  expires : Time

inductive Change
  | claimed (h : Holder)
  | renewed (expires : Time)
  | committed (p : Page) (receipt : Receipt)
  | released
  | reset

/-- After these changes a claim that was in force is none. -/
def Change.ends : Change → Bool
  | claimed _ | released | reset => true
  | renewed _ | committed .. => false

/-- The change a transaction makes, if it returns. -/
def changed {α : Type} (f : α → Option Change) : Except Err α → Option Change
  | .ok a => f a
  | .error _ => none

theorem changed_eq_some {α : Type} {f : α → Option Change} {x : Except Err α} {c : Change}
    (h : changed f x = some c) : ∃ a, x = .ok a ∧ f a = some c := by
  cases x with
  | ok a => exact ⟨a, rfl, h⟩
  | error e => cases h

theorem change_eq_some {α : Type} {p : Prop} [Decidable p] {f : α → Option Change} {x : Except Err α}
    {c : Change} (h : (if p then changed f x else none) = some c) :
    p ∧ ∃ a, x = .ok a ∧ f a = some c := by
  split at h
  · rename_i hp
    exact ⟨hp, changed_eq_some h⟩
  · cases h

/-- The change `commit` makes: none when it replays a page. -/
def Committed.change (p : Page) : Committed → Option Change
  | replayed _ => none
  | committed receipt => some (.committed p receipt)

/-- What the call does to stream `k`. -/
def State.change (sha256 : String → String) (s : State) (k : StreamKey) : Label → Option Change
  | .engine _ | .connections _ => none
  | .claim env k' actor leaseSeconds token =>
    if k' = k then
      changed (fun r => some (.claimed ⟨r.2.claim, actor, r.2.generation, r.2.expires⟩))
        (claim env s.db s.connections k actor (s.streams k) leaseSeconds token)
    else none
  | .renew env k' actor token leaseSeconds =>
    if k' = k then
      changed (fun row => some (.renewed row.lease))
        (renew env s.db s.connections k actor (s.streams k) token leaseSeconds)
    else none
  | .commit env k' actor token pageKey expected next events guard =>
    if k' = k then
      changed (fun p => changed (fun r => r.2.change p)
          (commit sha256 env s.db s.connections k actor (s.streams k) token pageKey expected next
            events guard))
        (parsePage pageKey expected next events)
    else none
  | .release env k' actor token =>
    if k' = k then
      changed (fun _ => some .released)
        (release env s.db s.connections k actor (s.streams k) token)
    else none
  | .reset env k' actor guard =>
    if k' = k then
      changed (fun _ => some .reset) (reset env s.db s.connections k actor guard)
    else none

/-- The pages committed to a stream since its last reset, and the claim in force. -/
structure Ledger where
  pages : List (Page × Receipt) := []
  holder : Option Holder := none

def Ledger.after (l : Ledger) : Change → Ledger
  | .claimed h => { l with holder := some h }
  | .renewed expires => { l with holder := l.holder.map fun h => { h with expires := expires } }
  | .committed p receipt => { l with pages := l.pages ++ [(p, receipt)] }
  | .released => { l with holder := none }
  | .reset => {}

/-- The events of the pages, in the order they were committed. -/
def Ledger.events (l : Ledger) : List Event := l.pages.flatMap fun p => p.1.events

/-- The changes a run makes to a stream. -/
def changes (sha256 : String → String) (k : StreamKey) (τs : List (Transition State Label)) :
    List Change :=
  τs.filterMap fun τ => τ.src.change sha256 k τ.label

def ledger (sha256 : String → String) (k : StreamKey) (τs : List (Transition State Label)) : Ledger :=
  (changes sha256 k τs).foldl Ledger.after {}

theorem ledger_snoc (sha256 : String → String) (k : StreamKey) (τs : List (Transition State Label))
    (τ : Transition State Label) :
    ledger sha256 k (τs ++ [τ]) =
      ((τ.src.change sha256 k τ.label).map (ledger sha256 k τs).after).getD (ledger sha256 k τs) := by
  simp only [ledger, changes, List.filterMap_append, List.foldl_append, List.filterMap_cons,
    List.filterMap_nil]
  cases τ.src.change sha256 k τ.label with
  | none => rfl
  | some c => rfl

/-! ### The transactions taken apart -/

section Cases

variable {sha256 : String → String} {env : Env} {db : Db} {connections : OAuth.Tables} {k : StreamKey}
  {actor token : String} {s : Option Stream} {row row' : Stream}

/-- The connection sync may use, at the generation it has. -/
def Usable (connections : OAuth.Tables) (k : StreamKey) (generation : ℕ) : Prop :=
  ∃ c, connections.row? k.tenant k.connection = some c ∧
    (c.status = .active ∨ c.status = .refreshing) ∧ c.generation = generation

theorem connectionGeneration_ok {g : ℕ} (h : connectionGeneration connections k = .ok g) :
    Usable connections k g := by
  simp only [connectionGeneration, bind_eq_ok, need_eq_ok, ensure_eq_ok, exists_unit, pure_eq_ok] at h
  exact h

theorem owned_ok (h : owned env db connections k actor s token = .ok row) :
    s = some row ∧ row.owner = actor ∧ row.claim = token ∧ token ≠ "" ∧ env.now < row.lease ∧
      Usable connections k row.generation := by
  simp only [owned, bind_eq_ok, need_eq_ok, ensure_eq_ok, exists_unit, pure_eq_ok] at h
  obtain ⟨-, g, hg, row', hs, hclaim, hgen, hrow⟩ := h
  subst hrow
  refine ⟨hs, hclaim.1, hclaim.2.1, hclaim.2.2.1, hclaim.2.2.2, ?_⟩
  rw [hgen]
  exact connectionGeneration_ok hg

theorem commit_ok {pageKey expected next : String} {events : Json} {guard : Except Err Unit}
    {c : Committed}
    (h : commit sha256 env db connections k actor s token pageKey expected next events guard =
      .ok (row', c)) :
    ∃ p row, parsePage pageKey expected next events = .ok p ∧
      owned env db connections k actor s token = .ok row ∧
      commitPage sha256 row p = .ok (row', c) := by
  simp only [commit, bind_eq_ok, exists_unit] at h
  obtain ⟨p, hp, row, hrow, -, h⟩ := h
  exact ⟨p, row, hp, hrow, h⟩

theorem commitPage_replayed {p : Page} {receipt : Receipt}
    (h : commitPage sha256 row p = .ok (row', .replayed receipt)) : row' = row := by
  simp only [commitPage] at h
  split at h
  · simp only [bind_eq_ok, exists_unit, ensure_eq_ok, pure_eq_ok, Prod.mk.injEq] at h
    exact h.2.1.symm
  · simp only [bind_eq_ok, pure_eq_ok, Prod.mk.injEq, reduceCtorEq, and_false, exists_false] at h

/-- What a change makes of the row of its stream. -/
inductive Moves (sha256 : String → String) : Option Stream → Change → Stream → Prop
  | claimed {s : Option Stream} {row : Stream} {h : Holder} (hrow : row = s.getD { generation := h.generation })
      (hgen : row.generation = h.generation) :
      Moves sha256 s (.claimed h) { row with claim := h.claim, lease := h.expires, owner := h.actor }
  | renewed {row : Stream} {expires : Time} :
      Moves sha256 (some row) (.renewed expires) { row with lease := expires }
  | committed {row row' : Stream} {p : Page} {receipt : Receipt}
      (h : commitPage sha256 row p = .ok (row', .committed receipt)) :
      Moves sha256 (some row) (.committed p receipt) row'
  | released {row : Stream} : Moves sha256 (some row) .released { row with claim := "", lease := 0 }
  | reset {s : Option Stream} {generation : ℕ} : Moves sha256 s .reset { generation := generation }

/-- Either nothing happens to the row of a stream, or it moves by the change of the call. -/
def Moved (sha256 : String → String) (old : Option Stream) (change : Option Change)
    (new : Option Stream) : Prop :=
  change = none ∧ new = old ∨ ∃ c row, change = some c ∧ new = some row ∧ Moves sha256 old c row

theorem claim_moved (leaseSeconds : ℤ) :
    Moved sha256 s
      (changed (fun r => some (.claimed ⟨r.2.claim, actor, r.2.generation, r.2.expires⟩))
        (claim env db connections k actor s leaseSeconds token))
      (((claim env db connections k actor s leaseSeconds token).map Prod.fst).toOption.or s) := by
  cases h : claim env db connections k actor s leaseSeconds token with
  | error e => exact .inl ⟨rfl, rfl⟩
  | ok r =>
    simp only [claim, bind_eq_ok, exists_unit, ensure_eq_ok, pure_eq_ok] at h
    obtain ⟨-, -, -, -, -, -, g, -, hgen, -, rfl⟩ := h
    exact .inr ⟨_, _, rfl, rfl, .claimed rfl hgen⟩

theorem renew_moved (leaseSeconds : ℤ) :
    Moved sha256 s
      (changed (fun row => some (.renewed row.lease))
        (renew env db connections k actor s token leaseSeconds))
      ((renew env db connections k actor s token leaseSeconds).toOption.or s) := by
  cases h : renew env db connections k actor s token leaseSeconds with
  | error e => exact .inl ⟨rfl, rfl⟩
  | ok r =>
    simp only [renew, bind_eq_ok, exists_unit, ensure_eq_ok, pure_eq_ok] at h
    obtain ⟨-, row, hrow, rfl⟩ := h
    obtain ⟨rfl, -⟩ := owned_ok hrow
    exact .inr ⟨_, _, rfl, rfl, .renewed⟩

theorem release_moved :
    Moved sha256 s
      (changed (fun _ => some .released) (release env db connections k actor s token))
      ((release env db connections k actor s token).toOption.or s) := by
  cases h : release env db connections k actor s token with
  | error e => exact .inl ⟨rfl, rfl⟩
  | ok r =>
    simp only [release, bind_eq_ok, pure_eq_ok] at h
    obtain ⟨row, hrow, rfl⟩ := h
    obtain ⟨rfl, -⟩ := owned_ok hrow
    exact .inr ⟨_, _, rfl, rfl, .released⟩

theorem reset_moved (guard : Except Err Unit) :
    Moved sha256 s
      (changed (fun _ => some .reset) (reset env db connections k actor guard))
      ((reset env db connections k actor guard).toOption.or s) := by
  cases h : reset env db connections k actor guard with
  | error e => exact .inl ⟨rfl, rfl⟩
  | ok r =>
    simp only [reset, bind_eq_ok, exists_unit, pure_eq_ok] at h
    obtain ⟨-, -, g, -, -, rfl⟩ := h
    exact .inr ⟨_, _, rfl, rfl, .reset⟩

theorem commit_moved (pageKey expected next : String) (events : Json) (guard : Except Err Unit) :
    Moved sha256 s
      (changed (fun p => changed (fun r => r.2.change p)
          (commit sha256 env db connections k actor s token pageKey expected next events guard))
        (parsePage pageKey expected next events))
      (((commit sha256 env db connections k actor s token pageKey expected next events
        guard).map Prod.fst).toOption.or s) := by
  cases h : commit sha256 env db connections k actor s token pageKey expected next events guard with
  | error e =>
    refine .inl ⟨?_, rfl⟩
    cases parsePage pageKey expected next events <;> rfl
  | ok r =>
    obtain ⟨row', c⟩ := r
    obtain ⟨p, row, hp, hrow, hpage⟩ := commit_ok h
    obtain ⟨rfl, -⟩ := owned_ok hrow
    rw [hp]
    cases c with
    | replayed receipt =>
      obtain rfl := commitPage_replayed hpage
      exact .inl ⟨rfl, rfl⟩
    | committed receipt => exact .inr ⟨_, _, rfl, rfl, .committed hpage⟩

end Cases

/-! ### One step -/

section Steps

variable {sha256 : String → String} {s t : State} {l : Label} {k k' : StreamKey}

theorem State.put_streams (s : State) (k' : StreamKey) (x : Except Err Stream) (k : StreamKey) :
    (s.put k' x).streams k = if k' = k then x.toOption.or (s.streams k) else s.streams k := by
  cases x with
  | error e => simp [State.put, Except.toOption]
  | ok row =>
    by_cases hk : k' = k
    · subst hk
      simp [State.put, Except.toOption]
    · have hne : k ≠ k' := fun h => hk h.symm
      simp [State.put, hk, Function.update_of_ne hne]

@[simp] theorem State.put_drawn (s : State) (k : StreamKey) (x : Except Err Stream) :
    (s.put k x).drawn = s.drawn := by
  cases x <;> rfl

theorem moved_of_put {x : Except Err Stream} {change : Option Change}
    (h : k' = k → Moved sha256 (s.streams k) change (x.toOption.or (s.streams k))) :
    Moved sha256 (s.streams k) (if k' = k then change else none) ((s.put k' x).streams k) := by
  rw [State.put_streams]
  split
  · rename_i hk
    exact h hk
  · exact .inl ⟨rfl, rfl⟩

theorem Step.moved (h : Step sha256 s l t) (k : StreamKey) :
    Moved sha256 (s.streams k) (s.change sha256 k l) (t.streams k) := by
  obtain ⟨rfl, -⟩ := h
  cases l with
  | engine db => exact .inl ⟨rfl, rfl⟩
  | connections t => exact .inl ⟨rfl, rfl⟩
  | claim env k' actor leaseSeconds token =>
    exact moved_of_put (s := s.draw token) fun hk => by subst hk; exact claim_moved leaseSeconds
  | renew env k' actor token leaseSeconds =>
    exact moved_of_put fun hk => by subst hk; exact renew_moved leaseSeconds
  | commit env k' actor token pageKey expected next events guard =>
    exact moved_of_put fun hk => by subst hk; exact commit_moved pageKey expected next events guard
  | release env k' actor token =>
    exact moved_of_put fun hk => by subst hk; exact release_moved
  | reset env k' actor guard =>
    exact moved_of_put fun hk => by subst hk; exact reset_moved guard

theorem Step.drawn (h : Step sha256 s l t) {token : String} (hd : token ∈ s.drawn) :
    token ∈ t.drawn := by
  obtain ⟨rfl, -⟩ := h
  cases l with
  | claim env k' actor leaseSeconds token' =>
    rw [State.after, State.put_drawn]
    exact List.mem_cons_of_mem _ hd
  | engine db => exact hd
  | connections t => exact hd
  | renew | commit | release | reset =>
    rw [State.after, State.put_drawn]
    exact hd

end Steps

end AgentPlatform.Sync
