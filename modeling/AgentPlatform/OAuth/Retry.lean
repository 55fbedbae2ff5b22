import Mathlib.Data.List.Perm.Subperm
import AgentPlatform.OAuth.Manager

/-!
# Revocations that are tried again

`retry_revocations` takes the unconfirmed revocations of a connection in the order of their last change, twenty
at most, to `_drain_revoke`, one after the other. That raises for a revocation of another configuration, one
that is on its way, and one whose envelope does not open; the call ends there, and what comes later in the
order stays as it is.

* `drainAll_of_refused`: the call reaches the revocations before the first that is refused.
* `isolated_iff`: every revocation has its attempt and its status where none is refused, and there are no more
  than twenty.
-/

namespace AgentPlatform.OAuth

open Outcome Engine Table

def maxRetries : ℕ := 20

/-- What `_drain_revoke` meets at a revocation: the clock, the attempt it draws, and whether the provider
confirms. -/
structure Meeting where
  env : Env
  attempt : String
  confirmed : Bool

/-- What a call did: the tables it leaves, the revocations it took to the provider, and what it returns. -/
structure Retried where
  tables : Tables
  attempted : List String
  answer : Except Err (List (String × RevocationStatus))

/-- The revocations that the query selects from. -/
def Tables.unconfirmed (t : Tables) (tenant connection : String) : List Revocation :=
  t.revocations.filter fun r =>
    decide (r.tenant = tenant) && decide (r.connection = connection) && decide (r.status ≠ .confirmed)

/-- `ORDER BY updated LIMIT 20`; `updated` is that column. -/
def dueRevocations (updated : String → Time) (t : Tables) (tenant connection : String) : List Revocation :=
  ((t.unconfirmed tenant connection).insertionSort fun r r' => updated r.id ≤ updated r'.id).take maxRetries

/-- `_drain_revoke`. -/
def drainRevoke (m : Manager) (t : Tables) (tenant rid : String) (x : Meeting) :
    Tables × List String × Except Err RevocationStatus :=
  match startDrain m x.env t tenant rid x.attempt with
  | .error e => (t, [], .error e)
  | .ok (t, none) => (t, [], .ok .confirmed)
  | .ok (t, some _) =>
    (endDrain t rid x.attempt x.confirmed, [rid], .ok (if x.confirmed then .confirmed else .uncertain))

/-- The loop of `retry_revocations`. -/
def drainAll (m : Manager) (tenant : String) (meets : String → Meeting) : Tables → List String → Retried
  | t, [] => ⟨t, [], .ok []⟩
  | t, rid :: rids =>
    match drainRevoke m t tenant rid (meets rid) with
    | (t, attempted, .error e) => ⟨t, attempted, .error e⟩
    | (t, attempted, .ok status) =>
      let rest := drainAll m tenant meets t rids
      ⟨rest.tables, attempted ++ rest.attempted, rest.answer.map ((rid, status) :: ·)⟩

/-- `retry_revocations`. -/
def retryRevocations (m : Manager) (env : Env) (db : Db) (updated : String → Time) (meets : String → Meeting)
    (t : Tables) (tenant connection actor : String) : Retried :=
  match owner env db tenant actor false with
  | .error e => ⟨t, [], .error e⟩
  | .ok _ => drainAll m tenant meets t ((dueRevocations updated t tenant connection).map Revocation.id)

/-! ### One revocation -/

/-- The revocation can be taken to the provider. -/
def Drainable (m : Manager) (env : Env) (r : Revocation) : Prop :=
  r.configHash = m.configHash ∧ ¬(r.status = .inflight ∧ env.now < r.started + seconds 120) ∧
    ∃ opened token, m.vault.opened r.envelope
      (m.context r.tenant r.connection r.generation ("revoke:" ++ r.id)) = .ok opened ∧
      opened.get? "refresh_token" = some token

variable {m : Manager} {env : Env} {db : Db} {t : Tables} {tenant connection actor rid attempt : String}
  {updated : String → Time} {meets : String → Meeting} {r : Revocation} {x : Meeting}

/-- The row a tenant's revocation has in a table. -/
def Tables.revocation? (t : Tables) (tenant rid : String) : Option Revocation :=
  t.revocations.find? fun r => decide (r.tenant = tenant) && decide (r.id = rid)

/-- The tables while a revocation is on its way. -/
def Tables.inflight (t : Tables) (env : Env) (rid attempt : String) : Tables :=
  { t with
    revocations := update (fun r => r.id = rid)
      (fun r => { r with status := .inflight, attempt := attempt, started := env.now }) t.revocations }

theorem startDrain_ok {t' : Tables} {token : Option Json} (hrow : t.revocation? tenant r.id = some r)
    (htenant : r.tenant = tenant) (hstatus : r.status ≠ .confirmed)
    (h : startDrain m env t tenant r.id attempt = .ok (t', token)) :
    Drainable m env r ∧ t' = t.inflight env r.id attempt ∧ ∃ k, token = some k := by
  subst htenant
  obtain ⟨row, hneed, h⟩ := bind_eq_ok.1 h
  obtain rfl := Option.some.inj (hrow.symm.trans (need_eq_ok.1 hneed))
  rw [if_neg hstatus] at h
  obtain ⟨_, hconfig, h⟩ := bind_eq_ok.1 h
  obtain ⟨_, hidle, h⟩ := bind_eq_ok.1 h
  obtain ⟨opened, hopened, h⟩ := bind_eq_ok.1 h
  obtain ⟨k, hk, h⟩ := bind_eq_ok.1 h
  obtain ⟨rfl, rfl⟩ := Prod.mk.inj (pure_eq_ok.1 h)
  exact ⟨⟨ensure_eq_ok.1 hconfig, ensure_eq_ok.1 hidle, opened, k, hopened, need_eq_ok.1 hk⟩, rfl, k, rfl⟩

theorem startDrain_of_drainable (hrow : t.revocation? tenant r.id = some r) (htenant : r.tenant = tenant)
    (hstatus : r.status ≠ .confirmed) (h : Drainable m env r) :
    ∃ k, startDrain m env t tenant r.id attempt = .ok (t.inflight env r.id attempt, some k) := by
  subst htenant
  obtain ⟨hconfig, hidle, opened, k, hopened, hk⟩ := h
  refine ⟨k, bind_eq_ok.2 ⟨r, need_eq_ok.2 hrow, ?_⟩⟩
  rw [if_neg hstatus]
  exact bind_eq_ok.2 ⟨(), ensure_eq_ok.2 hconfig, bind_eq_ok.2 ⟨(), ensure_eq_ok.2 hidle,
    bind_eq_ok.2 ⟨opened, hopened, bind_eq_ok.2 ⟨k, need_eq_ok.2 hk, rfl⟩⟩⟩⟩

/-- What a revocation that was taken to the provider came to. -/
def Meeting.status (x : Meeting) : RevocationStatus := if x.confirmed then .confirmed else .uncertain

/-- A revocation that can be drained goes to the provider; any other is refused, and the call ends. -/
theorem drainRevoke_cases (hrow : t.revocation? tenant r.id = some r) (htenant : r.tenant = tenant)
    (hstatus : r.status ≠ .confirmed) :
    (Drainable m x.env r ∧ drainRevoke m t tenant r.id x =
      (endDrain (t.inflight x.env r.id x.attempt) r.id x.attempt x.confirmed, [r.id], .ok x.status)) ∨
    ¬Drainable m x.env r ∧ ∃ e, drainRevoke m t tenant r.id x = (t, [], .error e) := by
  by_cases h : Drainable m x.env r
  · obtain ⟨k, hstart⟩ := @startDrain_of_drainable _ _ _ _ x.attempt _ hrow htenant hstatus h
    refine .inl ⟨h, ?_⟩
    rw [drainRevoke, hstart]
    rfl
  · refine .inr ⟨h, ?_⟩
    rw [drainRevoke]
    cases hstart : startDrain m x.env t tenant r.id x.attempt with
    | error e => exact ⟨e, rfl⟩
    | ok p => exact absurd (startDrain_ok hrow htenant hstatus hstart).1 h

/-! ### The loop -/

/-- The rows are in the table, as the query found them. -/
structure Listed (t : Tables) (tenant : String) (rows : List Revocation) : Prop where
  keyed : Keyed Revocation.id t.revocations
  distinct : Keyed Revocation.id rows
  present : ∀ r ∈ rows, r ∈ t.revocations ∧ r.tenant = tenant ∧ r.status ≠ .confirmed

variable {rows : List Revocation}

theorem Listed.row (h : Listed t tenant rows) (hr : r ∈ rows) : t.revocation? tenant r.id = some r := by
  obtain ⟨hmem, htenant, -⟩ := h.present r hr
  have hsome : (t.revocation? tenant r.id).isSome = true := by
    rw [Tables.revocation?, List.find?_isSome]
    exact ⟨r, hmem, by simp [htenant]⟩
  obtain ⟨r', hr'⟩ := Option.isSome_iff_exists.1 hsome
  have hkey := List.find?_some hr'
  simp only [Bool.and_eq_true, decide_eq_true_eq] at hkey
  rw [hr', h.keyed.eq_of_key (List.mem_of_find?_eq_some hr') hmem hkey.2]

/-- Draining one of the rows leaves the others as they are. -/
theorem Listed.drained (h : Listed t tenant (r :: rows)) :
    Listed (endDrain (t.inflight x.env r.id x.attempt) r.id x.attempt x.confirmed) tenant rows := by
  have hdistinct := h.distinct
  rw [Keyed, List.map_cons, List.nodup_cons] at hdistinct
  have hinflight : Keyed Revocation.id (t.inflight x.env r.id x.attempt).revocations :=
    h.keyed.update fun _ => rfl
  refine ⟨?_, hdistinct.2, fun r' hr' => ?_⟩
  · exact hinflight.update fun r' => by split <;> rfl
  · obtain ⟨hmem, hrest⟩ := h.present r' (List.mem_cons_of_mem _ hr')
    have hne : r'.id ≠ r.id := fun heq => hdistinct.1 (List.mem_map.2 ⟨r', hr', heq⟩)
    exact ⟨mem_update_of_not (mem_update_of_not hmem (by simp [hne])) (by simp [hne]), hrest⟩

/-- Where no row is refused, each of them goes to the provider and has its status. -/
theorem drainAll_of_drainable (h : Listed t tenant rows) (hall : ∀ r ∈ rows, Drainable m (meets r.id).env r) :
    (drainAll m tenant meets t (rows.map Revocation.id)).attempted = rows.map Revocation.id ∧
      (drainAll m tenant meets t (rows.map Revocation.id)).answer =
        .ok (rows.map fun r => (r.id, (meets r.id).status)) := by
  induction rows generalizing t with
  | nil => exact ⟨rfl, rfl⟩
  | cons r rows ih =>
    obtain ⟨-, htenant, hstatus⟩ := h.present r List.mem_cons_self
    rw [List.map_cons, drainAll]
    rcases @drainRevoke_cases m t tenant r (meets r.id) (h.row List.mem_cons_self) htenant hstatus with
      ⟨-, hdrain⟩ | ⟨hnot, -⟩
    · obtain ⟨hattempted, hanswer⟩ := ih h.drained fun r' hr' => hall r' (List.mem_cons_of_mem _ hr')
      rw [hdrain]
      dsimp only
      rw [hattempted, hanswer]
      exact ⟨rfl, rfl⟩
    · exact absurd (hall r List.mem_cons_self) hnot

/-- The call ends at the first row that is refused: the rows before it went to the provider, no other did, and
nothing is returned. -/
theorem drainAll_of_refused {later : List Revocation} (h : Listed t tenant (rows ++ r :: later))
    (hall : ∀ r ∈ rows, Drainable m (meets r.id).env r) (hnot : ¬Drainable m (meets r.id).env r) :
    (drainAll m tenant meets t ((rows ++ r :: later).map Revocation.id)).attempted = rows.map Revocation.id ∧
      ∃ e, (drainAll m tenant meets t ((rows ++ r :: later).map Revocation.id)).answer = .error e := by
  induction rows generalizing t with
  | nil =>
    obtain ⟨-, htenant, hstatus⟩ := h.present r List.mem_cons_self
    rw [List.nil_append, List.map_cons, drainAll]
    rcases @drainRevoke_cases m t tenant r (meets r.id) (h.row List.mem_cons_self) htenant hstatus with
      ⟨hdrainable, -⟩ | ⟨-, e, hdrain⟩
    · exact absurd hdrainable hnot
    · rw [hdrain]
      exact ⟨rfl, e, rfl⟩
  | cons r' rows ih =>
    rw [List.cons_append] at h ⊢
    obtain ⟨-, htenant, hstatus⟩ := h.present r' List.mem_cons_self
    rw [List.map_cons, drainAll]
    rcases @drainRevoke_cases m t tenant r' (meets r'.id) (h.row List.mem_cons_self) htenant hstatus with
      ⟨-, hdrain⟩ | ⟨hrefused, -⟩
    · obtain ⟨hattempted, e, hanswer⟩ := ih h.drained fun x hx => hall x (List.mem_cons_of_mem _ hx)
      rw [hdrain]
      dsimp only
      rw [hattempted, hanswer]
      exact ⟨rfl, e, rfl⟩
    · exact absurd (hall r' List.mem_cons_self) hrefused

/-- The call returns where no row is refused. -/
theorem drainAll_returns_iff (h : Listed t tenant rows) :
    (∃ statuses, (drainAll m tenant meets t (rows.map Revocation.id)).answer = .ok statuses) ↔
      ∀ r ∈ rows, Drainable m (meets r.id).env r := by
  classical
  constructor
  · rintro ⟨statuses, hanswer⟩
    by_contra hnot
    obtain ⟨before, r, later, rfl, hrefused, hbefore⟩ : ∃ before r later, rows = before ++ r :: later ∧
        ¬Drainable m (meets r.id).env r ∧ ∀ x ∈ before, Drainable m (meets x.id).env x := by
      push Not at hnot
      obtain ⟨r, hr, hrefused⟩ := hnot
      have hfound : (rows.find? fun r => decide ¬Drainable m (meets r.id).env r).isSome = true := by
        rw [List.find?_isSome]
        exact ⟨r, hr, decide_eq_true hrefused⟩
      obtain ⟨first, hfirst⟩ := Option.isSome_iff_exists.1 hfound
      obtain ⟨hrefused', before, later, heq, hbefore⟩ := List.find?_eq_some_iff_append.1 hfirst
      exact ⟨before, first, later, heq, of_decide_eq_true hrefused', fun x hx => by simpa using hbefore x hx⟩
    obtain ⟨-, e, herror⟩ := drainAll_of_refused h hbefore hrefused
    rw [herror] at hanswer
    cases hanswer
  · exact fun hall => ⟨_, (drainAll_of_drainable h hall).2⟩

/-! ### Isolation -/

/-- Every revocation that can be drained goes to the provider, and every revocation has a status. -/
structure Isolated (m : Manager) (meets : String → Meeting) (rows : List Revocation) (out : Retried) : Prop where
  attempts : ∀ r ∈ rows, Drainable m (meets r.id).env r → r.id ∈ out.attempted
  reports : ∃ statuses, out.answer = .ok statuses ∧ ∀ r ∈ rows, r.id ∈ statuses.map Prod.fst

/-- The rows the query returns. -/
theorem listed_due (hkeyed : Keyed Revocation.id t.revocations) :
    Listed t tenant (dueRevocations updated t tenant connection) := by
  have hsub : (t.unconfirmed tenant connection).Sublist t.revocations := List.filter_sublist
  have hdistinct : Keyed Revocation.id (t.unconfirmed tenant connection) := hkeyed.sublist (hsub.map _)
  refine ⟨hkeyed, ?_, fun r hr => ?_⟩
  · have hsorted := ((List.perm_insertionSort (fun r r' => updated r.id ≤ updated r'.id)
      (t.unconfirmed tenant connection)).map Revocation.id).nodup_iff.2 hdistinct
    exact hsorted.sublist ((List.take_sublist _ _).map _)
  · have hmem : r ∈ t.unconfirmed tenant connection :=
      (List.perm_insertionSort _ _).mem_iff.1 (List.mem_of_mem_take hr)
    obtain ⟨hrow, hmeets⟩ := List.mem_filter.1 hmem
    simp only [Bool.and_eq_true, decide_eq_true_eq] at hmeets
    exact ⟨hrow, hmeets.1.1, hmeets.2⟩

theorem due_subset : dueRevocations updated t tenant connection ⊆ t.unconfirmed tenant connection :=
  fun _ hr => (List.perm_insertionSort _ _).mem_iff.1 (List.mem_of_mem_take hr)

theorem mem_due (h : (t.unconfirmed tenant connection).length ≤ maxRetries) :
    r ∈ dueRevocations updated t tenant connection ↔ r ∈ t.unconfirmed tenant connection := by
  rw [dueRevocations, List.take_of_length_le (by rwa [List.length_insertionSort])]
  exact (List.perm_insertionSort _ _).mem_iff

/-- **A call treats every revocation where it may be made, there are twenty of them at most, and none is
refused.** -/
theorem isolated_iff (hkeyed : Keyed Revocation.id t.revocations) :
    Isolated m meets (t.unconfirmed tenant connection)
        (retryRevocations m env db updated meets t tenant connection actor) ↔
      owner env db tenant actor false = .ok () ∧ (t.unconfirmed tenant connection).length ≤ maxRetries ∧
        ∀ r ∈ t.unconfirmed tenant connection, Drainable m (meets r.id).env r := by
  have hlisted := @listed_due t tenant connection updated hkeyed
  unfold retryRevocations
  constructor
  · rintro ⟨-, statuses, hanswer, hreported⟩
    cases howner : owner env db tenant actor false with
    | error e =>
      rw [howner] at hanswer
      cases hanswer
    | ok u =>
      rw [howner] at hanswer
      dsimp only at hanswer
      have hall := (drainAll_returns_iff hlisted).1 ⟨statuses, hanswer⟩
      rw [(drainAll_of_drainable hlisted hall).2, Except.ok.injEq] at hanswer
      have hids : statuses.map Prod.fst = (dueRevocations updated t tenant connection).map Revocation.id := by
        rw [← hanswer, List.map_map]
        rfl
      rw [hids] at hreported
      refine ⟨rfl, ?_, fun r hr => ?_⟩
      · have hdistinct : ((t.unconfirmed tenant connection).map Revocation.id).Nodup :=
          hkeyed.sublist (List.filter_sublist.map _)
        have hsubset : (t.unconfirmed tenant connection).map Revocation.id ⊆
            (dueRevocations updated t tenant connection).map Revocation.id := by
          intro rid hrid
          obtain ⟨r, hr, rfl⟩ := List.mem_map.1 hrid
          exact hreported r hr
        have hle := (List.subperm_of_subset hdistinct hsubset).length_le
        rw [List.length_map, List.length_map] at hle
        exact hle.trans (List.length_take_le _ _)
      · obtain ⟨r', hr', hid⟩ := List.mem_map.1 (hreported r hr)
        obtain rfl := hkeyed.eq_of_key (hlisted.present r' hr').1 (List.mem_filter.1 hr).1 hid
        exact hall r' hr'
  · rintro ⟨howner, hfew, hall⟩
    obtain ⟨hattempted, hanswer⟩ := drainAll_of_drainable hlisted fun r hr => hall r (due_subset hr)
    rw [howner]
    dsimp only
    refine ⟨fun r hr _ => ?_, _, hanswer, fun r hr => ?_⟩
    · rw [hattempted]
      exact List.mem_map.2 ⟨r, (mem_due hfew).2 hr, rfl⟩
    · rw [List.map_map]
      exact List.mem_map.2 ⟨r, (mem_due hfew).2 hr, rfl⟩

/-! ### A revocation of an older configuration -/

/-- A manager whose envelopes all open. -/
def retryManager : Manager :=
  { name := "google"
    account := "account"
    configHash := "new"
    requiredScopes := []
    vault := ⟨fun _ _ => .ok "", fun _ _ => .ok (.obj [("refresh_token", .str "token")]), fun _ _ => .ok ""⟩
    authorizationUrl := fun _ _ => .ok ""
    sha256 := id }

def retryEnv : Env :=
  { policy := fun _ _ => .ok .null
    authority := fun _ _ _ _ => .ok ()
    bindings := fun _ _ _ _ => .ok []
    now := 0
    parentNow := fun _ => 0 }

/-- Two tokens that were not yet revoked, the first under an older configuration. -/
def retryTables : Tables :=
  { revocations := [⟨"first", "tenant", "mail", 1, "old", "sealed", .pending, "", 0⟩,
      ⟨"second", "tenant", "mail", 2, "new", "sealed", .pending, "", 0⟩] }

theorem isolated_iff_sample :
    Isolated retryManager (fun _ => ⟨retryEnv, "attempt", true⟩) (retryTables.unconfirmed "tenant" "mail")
        (retryRevocations retryManager retryEnv {} (fun _ => 0) (fun _ => ⟨retryEnv, "attempt", true⟩) retryTables
          "tenant" "mail" "owner") ↔
      owner retryEnv {} "tenant" "owner" false = .ok () ∧
        (retryTables.unconfirmed "tenant" "mail").length ≤ maxRetries ∧
        ∀ r ∈ retryTables.unconfirmed "tenant" "mail", Drainable retryManager retryEnv r :=
  isolated_iff (by simp [Keyed, retryTables])

/-- The revocation of the older configuration is refused, and the other token stays alive. -/
theorem refusal_ends_retry : ¬∀ (m : Manager) (env : Env) (db : Db) (updated : String → Time)
    (meets : String → Meeting) (t : Tables) (tenant connection actor : String),
    Keyed Revocation.id t.revocations → owner env db tenant actor false = .ok () →
    Isolated m meets (t.unconfirmed tenant connection)
      (retryRevocations m env db updated meets t tenant connection actor) := by
  intro h
  have hisolated := h retryManager retryEnv {} (fun _ => 0) (fun _ => ⟨retryEnv, "attempt", true⟩) retryTables
    "tenant" "mail" "owner" (by simp [Keyed, retryTables]) rfl
  have hsecond : Drainable retryManager retryEnv
      ⟨"second", "tenant", "mail", 2, "new", "sealed", .pending, "", 0⟩ :=
    ⟨rfl, by decide, _, .str "token", rfl, rfl⟩
  have hattempted := hisolated.attempts ⟨"second", "tenant", "mail", 2, "new", "sealed", .pending, "", 0⟩
    (by simp [Tables.unconfirmed, retryTables]) hsecond
  have hnone : (retryRevocations retryManager retryEnv {} (fun _ => 0) (fun _ => ⟨retryEnv, "attempt", true⟩)
      retryTables "tenant" "mail" "owner").attempted = [] := by
    decide +kernel
  rw [hnone] at hattempted
  cases hattempted

end AgentPlatform.OAuth
