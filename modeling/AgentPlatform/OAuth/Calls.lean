import Mathlib.Logic.Function.Basic
import AgentPlatform.Lib.Runs
import AgentPlatform.OAuth.Manager

/-!
# OAuth calls, interleaved

`complete`, `access`, `revoke` and `retry_revocations` run in several workers at once; a worker stands
before a transaction or waits for the provider, whose answer comes at any time or never. A worker that
crashed stays where it was, until its name is used again.

`Step.change` says all an event can do to one connection, and `Step.states` all it can do to the
authorisation states.
-/

namespace AgentPlatform.OAuth

open Outcome Engine Table Runs

/-- An exchange or a refresh on its way to the provider. -/
structure Call where
  manager : Manager
  tenant : String
  connection : String
  generation : ℕ
  attempt : String
  /-- Whom `_store` asks to be an owner. -/
  actor : String
  /-- The tokens a refresh renews. -/
  old : Option Json

def Call.key (c : Call) : String × String := (c.tenant, c.connection)

/-- Where a worker stands. -/
inductive Stage
  | idle
  /-- Before the provider's answer. -/
  | waiting (call : Call)
  /-- Before `_failure`; the provider rejected the grant, or its answer was refused or lost. -/
  | failed (call : Call) (rejected : Bool) (body : Option Json)
  /-- Before `_cleanup_issued`. -/
  | cleaning (call : Call) (body : Json)
  /-- Before `_drain_revoke`. -/
  | draining (manager : Manager) (tenant rid : String)
  /-- Before the provider's answer to a revocation. -/
  | revoking (rid attempt : String)

/-- A grant `access` returned. -/
structure Granted where
  tenant : String
  connection : String
  grant : Grant

def Granted.key (g : Granted) : String × String := (g.tenant, g.connection)

/-- The tables, the workers, the grants returned, and the attempts and the states drawn. -/
structure State where
  db : Db := {}
  tables : Tables := {}
  calls : ℕ → Stage := fun _ => .idle
  granted : List Granted := []
  attempts : List String := []
  issued : List Pending := []

/-- One event: a transaction, or the answer a worker waits for with the transaction after it. -/
inductive Label
  /-- The engine's tables change. -/
  | engine (db : Db)
  | begin (m : Manager) (env : Env) (tenant connection actor session state verifier : String)
  | complete (w : ℕ) (m : Manager) (env : Env)
      (tenant connection actor session state code attempt : String)
  | access (w : ℕ) (m : Manager) (env : Env) (tenant connection agent : String)
      (required : List String) (attempt : String)
  | answer (w : ℕ) (env : Env) (guard : Except Err Unit) (body : Except Err Json)
      (identity : Except Err String)
  | fail (w : ℕ)
  | cleanup (w : ℕ) (rid : String)
  | retry (w : ℕ) (m : Manager) (tenant rid : String)
  | drain (w : ℕ) (env : Env) (attempt : String)
  | drained (w : ℕ) (confirmed : Bool)
  | revoke (w : ℕ) (m : Manager) (env : Env) (tenant connection actor : String) (remote : Bool)
      (rid : String)
  | recover (env : Env) (tenant connection actor : String)
  | rewrap (m : Manager) (env : Env) (tenant connection actor : String)

/-- What `complete` and `access` make of the provider's answer, up to `_store`. -/
def Call.settle (c : Call) (env : Env) (db : Db) (t : Tables) (guard : Except Err Unit)
    (body : Except Err Json) (identity : Except Err String) : Except Err (Tables × Grant) := do
  let body ← body
  let (tokens, expires) ← c.manager.tokens env.now body c.old
  let account ← identity
  ensure (account = c.manager.account) (.forbidden
    (if c.old.isSome then "Provider account mismatch after refresh" else "Provider account mismatch"))
  let t ← store c.manager env db t c.tenant c.connection c.generation c.attempt tokens expires c.actor
    (if c.old.isSome then .ok () else guard)
  pure (t, ⟨tokens.access, c.generation, expires, c.manager.account⟩)

/-- The refresh token `_cleanup_issued` revokes. -/
def Call.issued (c : Call) (body : Json) : Json :=
  body.getD "refresh_token" ((c.old.getD (.obj [])).getD "refresh_token" .null)

namespace State

/-- The worker goes on to a stage. -/
def goto (s : State) (w : ℕ) (stage : Stage) : State :=
  { s with calls := Function.update s.calls w stage }

/-- The state after an event; a transaction that raises is rolled back. -/
def after (s : State) : Label → State
  | .engine db => { s with db := db }
  | .begin m env tenant connection actor session state verifier =>
    match OAuth.begin m env s.db s.tables tenant connection actor session state verifier with
    | .ok (t, _) =>
      { s with
        tables := t, issued := s.issued ++ (get Pending.stateHash (m.sha256 state) t.states).toList }
    | .error _ => s
  | .complete w m env tenant connection actor session state code attempt =>
    match startExchange m env s.db s.tables tenant connection actor session state code attempt with
    | .ok (t, x) =>
      { s with tables := t, attempts := s.attempts ++ [attempt] }.goto w
        (.waiting ⟨m, tenant, connection, x.generation, attempt, actor, none⟩)
    | .error _ => s
  | .access w m env tenant connection agent required attempt =>
    match startAccess m env s.db s.tables tenant connection agent required attempt with
    | .ok (t, .granted grant) =>
      { s with tables := t, granted := s.granted ++ [⟨tenant, connection, grant⟩] }
    | .ok (t, .refreshing generation tokens owner) =>
      { s with tables := t, attempts := s.attempts ++ [attempt] }.goto w
        (.waiting ⟨m, tenant, connection, generation, attempt, owner, some tokens⟩)
    | .error _ => s
  | .answer w env guard body identity =>
    match s.calls w with
    | .waiting c =>
      match c.settle env s.db s.tables guard body identity with
      | .ok (t, grant) =>
        { s with
          tables := t
          granted := s.granted ++
            (if c.old.isSome then [Granted.mk c.tenant c.connection grant] else []) }.goto w .idle
      | .error e => s.goto w (.failed c (decide (e.typeName = "InvalidGrant")) body.toOption)
    | _ => s
  | .fail w =>
    match s.calls w with
    | .failed c rejected body =>
      { s with
        tables := failure s.tables c.tenant c.connection c.generation c.attempt
          (if rejected then .reauthRequired else .uncertain) }.goto w
        (match rejected, body with
          | false, some body => if body.isDict then .cleaning c body else .idle
          | _, _ => .idle)
    | _ => s
  | .cleanup w rid =>
    match s.calls w with
    | .cleaning c body =>
      match queueRevoke c.manager s.tables c.tenant c.connection c.generation (c.issued body) rid with
      | .ok t => { s with tables := t }.goto w (.draining c.manager c.tenant rid)
      | .error _ => s.goto w .idle
    | _ => s
  | .retry w m tenant rid => s.goto w (.draining m tenant rid)
  | .drain w env attempt =>
    match s.calls w with
    | .draining m tenant rid =>
      match startDrain m env s.tables tenant rid attempt with
      | .ok (t, some _) => { s with tables := t }.goto w (.revoking rid attempt)
      | _ => s.goto w .idle
    | _ => s
  | .drained w confirmed =>
    match s.calls w with
    | .revoking rid attempt =>
      { s with tables := endDrain s.tables rid attempt confirmed }.goto w .idle
    | _ => s
  | .revoke w m env tenant connection actor remote rid =>
    match OAuth.revoke m env s.db s.tables tenant connection actor remote rid with
    | .ok (t, .now true _) => { s with tables := t }.goto w (.draining m tenant rid)
    | .ok (t, _) => { s with tables := t }
    | .error _ => s
  | .recover env tenant connection actor =>
    match recoverStale env s.db s.tables tenant connection actor with
    | .ok t => { s with tables := t }
    | .error _ => s
  | .rewrap m env tenant connection actor =>
    match OAuth.rewrap m env s.db s.tables tenant connection actor with
    | .ok t => { s with tables := t }
    | .error _ => s

/-- The row of a connection. -/
def row (s : State) (k : String × String) : Option Connection :=
  get Connection.key k s.tables.connections

end State

/-- What an event draws was not drawn before. -/
def Fresh (s : State) : Label → Prop
  | .begin m _ _ _ _ _ state _ => m.sha256 state ∉ s.issued.map Pending.stateHash
  | .complete _ _ _ _ _ _ _ _ _ attempt | .access _ _ _ _ _ _ _ attempt => attempt ∉ s.attempts
  | _ => True

/-- One event, as a step. -/
def Step (s : State) (l : Label) (t : State) : Prop := t = s.after l ∧ Fresh s l

/-! ### What an event does to a connection -/

/-- An event leaves the connection as it is, or moves it in one of these ways. -/
inductive Change (s : State) (l : Label) (k : String × String) :
    Option Connection → Option Connection → Prop
  | same (r : Option Connection) : Change s l k r r
  | begun {m : Manager} {env : Env} {actor session state verifier : String} {old : Option Connection}
      {r : Connection} (hl : l = .begin m env k.1 k.2 actor session state verifier)
      (hgeneration : r.generation = (old.map fun r => r.generation + 1).getD 1)
      (hstatus : r.status = .authorizing) : Change s l k old (some r)
  | exchanging {w : ℕ} {m : Manager} {env : Env} {actor session state code attempt : String}
      {r : Connection} (hl : l = .complete w m env k.1 k.2 actor session state code attempt)
      (hstatus : r.status = .authorizing) :
      Change s l k (some r)
        (some { r with status := .exchanging, attempt := attempt, started := env.now })
  | refreshing {w : ℕ} {m : Manager} {env : Env} {agent attempt : String} {required : List String}
      {r : Connection} (hl : l = .access w m env k.1 k.2 agent required attempt)
      (hstatus : r.status = .active) :
      Change s l k (some r)
        (some { r with status := .refreshing, attempt := attempt, started := env.now })
  | stored {w : ℕ} {env : Env} {guard : Except Err Unit} {body : Except Err Json}
      {identity : Except Err String} {c : Call} {r : Connection} {envelope : String}
      {scopes : List String} {expires : Time} (hl : l = .answer w env guard body identity)
      (hcall : s.calls w = .waiting c) (hkey : c.key = k) (hgeneration : r.generation = c.generation)
      (hattempt : r.attempt = c.attempt) (hstatus : r.status = .refreshing ∨ r.status = .exchanging) :
      Change s l k (some r) (some { r with
        status := .active, envelope := envelope, scopes := scopes, expires := expires, attempt := "" })
  | failed {w : ℕ} {r : Connection} {status : Status} (hl : l = .fail w)
      (hstatus : status = .reauthRequired ∨ status = .uncertain) :
      Change s l k (some r) (some { r with status := status, envelope := "", attempt := "" })
  | revoked {w : ℕ} {m : Manager} {env : Env} {actor rid : String} {remote : Bool} {r : Connection}
      (hl : l = .revoke w m env k.1 k.2 actor remote rid) (hstatus : r.status ≠ .revoked) :
      Change s l k (some r) (some { r with
        status := .revoked, generation := r.generation + 1, envelope := "", attempt := ""
        expires := 0 })
  | recovered {env : Env} {actor : String} {r : Connection} (hl : l = .recover env k.1 k.2 actor)
      (hstatus : r.status = .refreshing ∨ r.status = .exchanging) :
      Change s l k (some r) (some { r with
        status := .uncertain, generation := r.generation + 1, envelope := "", attempt := "" })
  | rewrapped {m : Manager} {env : Env} {actor envelope : String} {r : Connection}
      (hl : l = .rewrap m env k.1 k.2 actor) (hstatus : r.status = .active) :
      Change s l k (some r) (some { r with envelope := envelope })

section Rows

variable {t t' : Tables} {tenant connection : String} {k : String × String} {r : Connection}

theorem row_ok (h : t.row tenant connection = .ok r) :
    get Connection.key (tenant, connection) t.connections = some r := by
  simpa [Tables.row, Tables.row?] using h

theorem setRow_get {f : Connection → Connection} (hf : ∀ r, (f r).key = r.key) :
    get Connection.key k (t.setRow tenant connection f).connections =
      if k = (tenant, connection) then (get Connection.key k t.connections).map f
      else get Connection.key k t.connections :=
  get_update hf _

theorem Change.setRow {s : State} {l : Label} {f : Connection → Connection}
    (hf : ∀ r, (f r).key = r.key) (hr : get Connection.key (tenant, connection) t.connections = some r)
    (h : Change s l (tenant, connection) (some r) (some (f r))) :
    Change s l k (get Connection.key k t.connections)
      (get Connection.key k (t.setRow tenant connection f).connections) := by
  rw [setRow_get hf]
  split
  · rename_i hk
    subst hk
    rw [hr]
    exact h
  · exact .same _

end Rows

section Transactions

variable {m : Manager} {env : Env} {db : Db} {t t' : Tables} {s : State} {l : Label}
  {tenant connection actor session : String} {k : String × String}

theorem upsert_get {r : Connection} :
    get Connection.key k (t.upsert r).connections =
      if k = r.key then some r else get Connection.key k t.connections := by
  unfold Tables.upsert
  dsimp only
  split
  · rename_i hold
    obtain ⟨old, hold⟩ := Option.isSome_iff_exists.1 hold
    have hget : get Connection.key r.key t.connections = some old := hold
    rw [get_update (f := fun r' : Connection => { r with tenant := r'.tenant, id := r'.id })
      fun _ => rfl]
    split
    · rename_i hk
      have hkey := key_of_get hget
      rw [hk, hget, Option.map_some, Option.some.injEq]
      obtain ⟨htenant, hid⟩ := Prod.mk.inj hkey
      rw [htenant, hid]
    · rfl
  · rename_i hnone
    have hget : get Connection.key r.key t.connections = none := Option.not_isSome_iff_eq_none.1 hnone
    rw [get_append]
    by_cases hk : k = r.key
    · rw [if_pos hk, if_pos hk.symm, hk, hget, Option.none_or]
    · rw [if_neg hk, if_neg fun h => hk h.symm, Option.or_none]

variable {state : String}

/-- The row `begin` writes. -/
theorem begin_row {verifier : String} {b : Begun}
    (h : OAuth.begin m env db t tenant connection actor session state verifier = .ok (t', b)) :
    ∃ r, r.status = .authorizing ∧
      r.generation = ((get Connection.key (tenant, connection) t.connections).map fun r =>
        r.generation + 1).getD 1 ∧
      ∀ k, get Connection.key k t'.connections =
        if k = (tenant, connection) then some r else get Connection.key k t.connections := by
  simp only [OAuth.begin, bind_eq_ok, exists_unit, ensure_eq_ok, pure_eq_ok, Prod.mk.injEq] at h
  obtain ⟨-, -, -, -, url, -, -, -, -, envelope, -, stateHash, -, sessionHash, -, -, rfl, -⟩ := h
  exact ⟨_, rfl, rfl, fun k => upsert_get⟩

theorem begin_change {verifier : String} {b : Begun}
    (hl : l = .begin m env tenant connection actor session state verifier)
    (h : OAuth.begin m env db t tenant connection actor session state verifier = .ok (t', b)) :
    Change s l k (get Connection.key k t.connections) (get Connection.key k t'.connections) := by
  obtain ⟨r, hstatus, hgeneration, hrows⟩ := begin_row h
  rw [hrows]
  split
  · rename_i hk
    subst hk
    exact .begun hl hgeneration hstatus
  · exact .same _

variable {attempt : String}

theorem startExchange_change {w : ℕ} {code : String} {x : Exchange}
    (hl : l = .complete w m env tenant connection actor session state code attempt)
    (h : startExchange m env db t tenant connection actor session state code attempt = .ok (t', x)) :
    Change s l k (get Connection.key k t.connections) (get Connection.key k t'.connections) := by
  simp only [startExchange, bind_eq_ok, exists_unit, ensure_eq_ok, need_eq_ok, pure_eq_ok,
    Prod.mk.injEq] at h
  obtain ⟨-, -, -, -, -, -, row, hrow, -, stateHash, -, pending, -, -, sessionHash, -, -, hstatus,
    sealed, -, verifier, -, rfl, -⟩ := h
  refine Change.setRow (fun _ => rfl) (row_ok hrow) ?_
  exact .exchanging hl hstatus

variable {agent : String} {required : List String}

theorem agent_row {r : Connection} (h : m.agent env db t tenant connection agent required = .ok r) :
    get Connection.key (tenant, connection) t.connections = some r := by
  simp only [Manager.agent, bind_eq_ok, exists_unit, ensure_eq_ok, pure_eq_ok] at h
  obtain ⟨-, policy, -, -, row, hrow, -, -, -, rfl⟩ := h
  exact row_ok hrow

/-- `access` grants what an active connection holds, or puts it into `refreshing`. -/
theorem startAccess_cases {a : Accessed}
    (h : startAccess m env db t tenant connection agent required attempt = .ok (t', a)) :
    ∃ r, get Connection.key (tenant, connection) t.connections = some r ∧ r.status = .active ∧
      ((∃ grant, a = .granted grant ∧ grant.generation = r.generation ∧ t' = t) ∨
        ∃ tokens owner, a = .refreshing r.generation tokens owner ∧
          t' = t.setRow tenant connection fun r =>
            { r with status := .refreshing, attempt := attempt, started := env.now }) := by
  simp only [startAccess, bind_eq_ok, exists_unit, ensure_eq_ok] at h
  obtain ⟨-, -, -, -, row, hrow, -, hstatus, tokens, -, h⟩ := h
  refine ⟨row, agent_row hrow, hstatus, ?_⟩
  split at h
  · split at h
    · rw [pure_eq_ok, Prod.mk.injEq] at h
      obtain ⟨rfl, rfl⟩ := h
      exact .inl ⟨_, rfl, rfl, rfl⟩
    · cases h
  · rw [pure_eq_ok, Prod.mk.injEq] at h
    obtain ⟨rfl, rfl⟩ := h
    exact .inr ⟨_, _, rfl, rfl⟩

theorem startAccess_change {w : ℕ} {a : Accessed}
    (hl : l = .access w m env tenant connection agent required attempt)
    (h : startAccess m env db t tenant connection agent required attempt = .ok (t', a)) :
    Change s l k (get Connection.key k t.connections) (get Connection.key k t'.connections) := by
  obtain ⟨r, hr, hstatus, ⟨grant, -, -, rfl⟩ | ⟨tokens, owner, -, rfl⟩⟩ := startAccess_cases h
  · exact .same _
  · exact Change.setRow (fun _ => rfl) hr (.refreshing hl hstatus)

/-- What `_store` checks and writes. -/
theorem store_cases {generation : ℕ} {tokens : Tokens} {expires : Time} {guard : Except Err Unit}
    (h : store m env db t tenant connection generation attempt tokens expires actor guard = .ok t') :
    ∃ r envelope, get Connection.key (tenant, connection) t.connections = some r ∧
      r.generation = generation ∧ r.attempt = attempt ∧
      (r.status = .refreshing ∨ r.status = .exchanging) ∧
      t' = t.setRow tenant connection fun r =>
        { r with
          status := .active, envelope := envelope, scopes := tokens.scopes, expires := expires
          attempt := "" } := by
  simp only [store, bind_eq_ok, exists_unit, ensure_eq_ok, pure_eq_ok] at h
  obtain ⟨-, -, row, hrow, -, ⟨hgeneration, hattempt, hstatus⟩, envelope, -, rfl⟩ := h
  exact ⟨row, envelope, row_ok hrow, hgeneration, hattempt, hstatus, rfl⟩

/-- What a settled call stored and grants. -/
theorem settle_cases {c : Call} {guard : Except Err Unit} {body : Except Err Json}
    {identity : Except Err String} {grant : Grant}
    (h : c.settle env db t guard body identity = .ok (t', grant)) :
    ∃ r envelope scopes expires, get Connection.key c.key t.connections = some r ∧
      r.generation = c.generation ∧ r.attempt = c.attempt ∧
      (r.status = .refreshing ∨ r.status = .exchanging) ∧ grant.generation = c.generation ∧
      t' = t.setRow c.tenant c.connection fun r =>
        { r with
          status := .active, envelope := envelope, scopes := scopes, expires := expires
          attempt := "" } := by
  simp only [Call.settle, bind_eq_ok, exists_unit, ensure_eq_ok, pure_eq_ok, Prod.mk.injEq] at h
  obtain ⟨body, -, ⟨tokens, expires⟩, -, account, -, -, t'', hstore, rfl, rfl⟩ := h
  obtain ⟨r, envelope, hr, hgeneration, hattempt, hstatus, rfl⟩ := store_cases hstore
  exact ⟨r, envelope, tokens.scopes, expires, hr, hgeneration, hattempt, hstatus, rfl, rfl⟩

variable {rid : String}

theorem queueRevoke_connections {generation : ℕ} {token : Json}
    (h : queueRevoke m t tenant connection generation token rid = .ok t') :
    t'.connections = t.connections ∧ t'.states = t.states := by
  simp only [queueRevoke, bind_eq_ok, exists_unit, ensure_eq_ok, pure_eq_ok] at h
  obtain ⟨text, -, -, -, envelope, -, rfl⟩ := h
  exact ⟨rfl, rfl⟩

theorem startDrain_connections {token : Option Json}
    (h : startDrain m env t tenant rid attempt = .ok (t', token)) :
    t'.connections = t.connections ∧ t'.states = t.states := by
  simp only [startDrain, bind_eq_ok, need_eq_ok] at h
  obtain ⟨row, -, h⟩ := h
  split at h
  · rw [pure_eq_ok, Prod.mk.injEq] at h
    obtain ⟨rfl, -⟩ := h
    exact ⟨rfl, rfl⟩
  · simp only [bind_eq_ok, exists_unit, ensure_eq_ok, need_eq_ok, pure_eq_ok, Prod.mk.injEq] at h
    obtain ⟨-, -, sealed, -, token, -, rfl, -⟩ := h
    exact ⟨rfl, rfl⟩

theorem queueRemote_connections (m : Manager) (t : Tables) (row : Connection) (remote : Bool)
    (rid : String) : (queueRemote m t row remote rid).1.connections = t.connections ∧
      (queueRemote m t row remote rid).1.states = t.states := by
  unfold queueRemote
  split
  · split
    · rename_i t' hqueued
      simp only [revokeRemote, bind_eq_ok, exists_unit] at hqueued
      obtain ⟨-, tokens, -, hqueued⟩ := hqueued
      exact queueRevoke_connections hqueued
    · exact ⟨rfl, rfl⟩
  · exact ⟨rfl, rfl⟩

/-- What `revoke` finds and writes: nothing, where the connection was revoked before. -/
theorem revoke_cases {remote : Bool} {out : Revoked}
    (h : OAuth.revoke m env db t tenant connection actor remote rid = .ok (t', out)) :
    ∃ r, get Connection.key (tenant, connection) t.connections = some r ∧
      ((r.status = .revoked ∧ t' = t) ∨ r.status ≠ .revoked ∧ (∀ p ∈ t'.states, p ∈ t.states) ∧
        t'.connections = (t.setRow tenant connection fun r =>
          { r with
            status := .revoked, generation := r.generation + 1, envelope := "", attempt := ""
            expires := 0 }).connections) := by
  simp only [OAuth.revoke, bind_eq_ok, exists_unit] at h
  obtain ⟨-, row, hrow, h⟩ := h
  refine ⟨row, row_ok hrow, ?_⟩
  split at h
  · rename_i hstatus
    rw [pure_eq_ok, Prod.mk.injEq] at h
    exact .inl ⟨hstatus, h.1.symm⟩
  · rename_i hstatus
    rw [pure_eq_ok, Prod.mk.injEq] at h
    obtain ⟨rfl, -⟩ := h
    obtain ⟨hconnections, hstates⟩ := queueRemote_connections m t row remote rid
    refine .inr ⟨hstatus, fun p hp => ?_, ?_⟩
    · rw [← hstates]
      exact (List.mem_filter.1 hp).1
    · unfold Tables.setRow
      dsimp only
      rw [hconnections]

theorem recoverStale_cases (h : recoverStale env db t tenant connection actor = .ok t') :
    ∃ r, get Connection.key (tenant, connection) t.connections = some r ∧
      (r.status = .refreshing ∨ r.status = .exchanging) ∧
      t' = t.setRow tenant connection fun r =>
        { r with
          status := .uncertain, generation := r.generation + 1, envelope := "", attempt := "" } := by
  simp only [recoverStale, bind_eq_ok, exists_unit, ensure_eq_ok, pure_eq_ok] at h
  obtain ⟨-, row, hrow, ⟨hstatus, -⟩, rfl⟩ := h
  exact ⟨row, row_ok hrow, hstatus, rfl⟩

theorem rewrap_cases (h : OAuth.rewrap m env db t tenant connection actor = .ok t') :
    ∃ r envelope, get Connection.key (tenant, connection) t.connections = some r ∧
      r.status = .active ∧
      t' = t.setRow tenant connection fun r => { r with envelope := envelope } := by
  simp only [OAuth.rewrap, bind_eq_ok, exists_unit, ensure_eq_ok, pure_eq_ok] at h
  obtain ⟨-, row, hrow, -, hstatus, envelope, -, rfl⟩ := h
  exact ⟨row, envelope, row_ok hrow, hstatus, rfl⟩

end Transactions

/-! ### One event -/

section Step

variable {s s' : State} {l : Label}

/-- **All an event does to one connection.** -/
theorem Step.change (h : Step s l s') (k : String × String) : Change s l k (s.row k) (s'.row k) := by
  obtain ⟨rfl, -⟩ := h
  unfold State.row
  delta State.after
  cases l with
  | engine db => exact .same _
  | begin m env tenant connection actor session state verifier =>
    dsimp only
    split
    · rename_i t b hx
      exact begin_change rfl hx
    · exact .same _
  | complete w m env tenant connection actor session state code attempt =>
    dsimp only
    split
    · rename_i t x hx
      exact startExchange_change rfl hx
    · exact .same _
  | access w m env tenant connection agent required attempt =>
    dsimp only
    split
    · rename_i t grant hx
      exact startAccess_change rfl hx
    · rename_i t generation tokens owner hx
      exact startAccess_change rfl hx
    · exact .same _
  | answer w env guard body identity =>
    dsimp only
    split
    · rename_i c hcall
      split
      · rename_i t grant hx
        obtain ⟨r, envelope, scopes, expires, hr, hgeneration, hattempt, hstatus, -, rfl⟩ :=
          settle_cases hx
        exact Change.setRow (fun _ => rfl) hr
          (.stored rfl hcall rfl hgeneration hattempt hstatus)
      · exact .same _
    · exact .same _
  | fail w =>
    dsimp only
    split
    · rename_i c rejected body hcall
      dsimp only [State.goto, failure]
      rw [get_update_map (f := fun r : Connection =>
        { r with
          status := if rejected = true then .reauthRequired else .uncertain, envelope := ""
          attempt := "" }) fun _ => rfl]
      cases hr : get Connection.key k s.tables.connections with
      | none => exact .same _
      | some r =>
        rw [Option.map_some]
        split
        · refine .failed rfl ?_
          cases rejected
          · exact .inr rfl
          · exact .inl rfl
        · exact .same _
    · exact .same _
  | cleanup w rid =>
    dsimp only
    split
    · split
      · rename_i t hx
        dsimp only [State.goto]
        rw [(queueRevoke_connections hx).1]
        exact .same _
      · exact .same _
    · exact .same _
  | retry w m tenant rid => exact .same _
  | drain w env attempt =>
    dsimp only
    split
    · split
      · rename_i t token hx
        dsimp only [State.goto]
        rw [(startDrain_connections hx).1]
        exact .same _
      · exact .same _
    · exact .same _
  | drained w confirmed =>
    dsimp only
    split <;> exact .same _
  | revoke w m env tenant connection actor remote rid =>
    have hchange : ∀ t out, OAuth.revoke m env s.db s.tables tenant connection actor remote rid =
        .ok (t, out) → Change s (.revoke w m env tenant connection actor remote rid) k
          (get Connection.key k s.tables.connections) (get Connection.key k t.connections) := by
      intro t out hx
      obtain ⟨r, hr, ⟨-, rfl⟩ | ⟨hstatus, -, hconnections⟩⟩ := revoke_cases hx
      · exact .same _
      · rw [hconnections]
        exact Change.setRow (fun _ => rfl) hr (.revoked rfl hstatus)
    dsimp only
    split
    · rename_i hx
      exact hchange _ _ hx
    · rename_i hx
      exact hchange _ _ hx
    · exact .same _
  | recover env tenant connection actor =>
    dsimp only
    split
    · rename_i t hx
      obtain ⟨r, hr, hstatus, rfl⟩ := recoverStale_cases hx
      exact Change.setRow (fun _ => rfl) hr (.recovered rfl hstatus)
    · exact .same _
  | rewrap m env tenant connection actor =>
    dsimp only
    split
    · rename_i t hx
      obtain ⟨r, envelope, hr, hstatus, rfl⟩ := rewrap_cases hx
      exact Change.setRow (fun _ => rfl) hr (.rewrapped rfl hstatus)
    · exact .same _

/-- What an event does to the authorisation states: it drops some, adds the one `begin` issues, or
consumes the one `complete` was called with. -/
inductive StatesChange (s : State) (l : Label) (s' : State) : Prop
  | dropped (hstates : ∀ p ∈ s'.tables.states, p ∈ s.tables.states) (hissued : s'.issued = s.issued)
  | issued {m : Manager} {env : Env} {tenant connection actor session state verifier : String}
      {p : Pending} (hl : l = .begin m env tenant connection actor session state verifier)
      (hhash : p.stateHash = m.sha256 state) (hfresh : p.stateHash ∉ s.issued.map Pending.stateHash)
      (hstates : ∀ q ∈ s'.tables.states, q ∈ s.tables.states ∨ q = p)
      (hissued : s'.issued = s.issued ++ [p])
      (hbound : p.tenant = tenant ∧ p.connection = connection ∧ p.actor = actor ∧
        p.sessionHash = m.sha256 session ∧ some p.generation = (s'.row (tenant, connection)).map
          Connection.generation)
  | consumed {w : ℕ} {m : Manager} {env : Env}
      {tenant connection actor session state code attempt : String} {p : Pending} {r : Connection}
      (hl : l = .complete w m env tenant connection actor session state code attempt)
      (hp : p ∈ s.tables.states) (hhash : p.stateHash = m.sha256 state) (hopen : p.consumed = false)
      (hfirst : get Pending.stateHash (m.sha256 state) s.tables.states = some p)
      (hrow : s.row (tenant, connection) = some r)
      (hbound : p.tenant = tenant ∧ p.connection = connection ∧ p.actor = actor ∧
        p.sessionHash = m.sha256 session ∧ p.generation = r.generation)
      (hstates : s'.tables.states = update (fun p => p.stateHash = m.sha256 state)
        (fun p => { p with consumed := true, envelope := "" }) s.tables.states)
      (hissued : s'.issued = s.issued)

variable {m : Manager}

theorem opaqueHash_ok {value hash : String} (h : m.opaqueHash value = .ok hash) : hash = m.sha256 value := by
  simp only [Manager.opaqueHash, bind_eq_ok, exists_unit, pure_eq_ok] at h
  exact h.2.symm

/-- The authorisation state `begin` leaves last, and the generation it is for. -/
theorem begin_states {env : Env} {db : Db} {t t' : Tables}
    {tenant connection actor session state verifier : String} {b : Begun}
    (h : OAuth.begin m env db t tenant connection actor session state verifier = .ok (t', b)) :
    ∃ p, p.stateHash = m.sha256 state ∧ (∀ q ∈ t'.states, q ∈ t.states ∨ q = p) ∧
      get Pending.stateHash (m.sha256 state) t'.states = some p ∧ p.tenant = tenant ∧
      p.connection = connection ∧ p.actor = actor ∧ p.sessionHash = m.sha256 session ∧
      some p.generation = (get Connection.key (tenant, connection) t'.connections).map
        Connection.generation := by
  simp only [OAuth.begin, bind_eq_ok, exists_unit, ensure_eq_ok, pure_eq_ok, Prod.mk.injEq] at h
  obtain ⟨-, -, -, -, url, -, -, -, -, envelope, -, stateHash, hstate, sessionHash, hsession, hunique,
    rfl, -⟩ := h
  obtain rfl := opaqueHash_ok hstate
  obtain rfl := opaqueHash_ok hsession
  refine ⟨⟨m.sha256 state, tenant, connection, actor, m.sha256 session,
    ((t.row? tenant connection).map fun r => r.generation + 1).getD 1, m.configHash,
    env.now + seconds 600, envelope, false⟩, rfl, fun q hq => ?_, ?_, rfl, rfl, rfl, rfl, ?_⟩
  · rcases List.mem_append.1 hq with hq | hq
    · exact .inl (List.mem_filter.1 hq).1
    · exact .inr (List.mem_singleton.1 hq)
  · have hnone : get Pending.stateHash (m.sha256 state) (t.states.filter fun p =>
        !(decide (p.tenant = tenant) && decide (p.connection = connection))) = none := by
      refine get_eq_none.2 fun p hp heq => ?_
      rw [List.any_eq_false] at hunique
      exact hunique p hp (decide_eq_true heq)
    dsimp only
    rw [get_append, hnone, Option.none_or, if_pos rfl]
  · dsimp only
    rw [upsert_get, if_pos (by rfl)]
    rfl

/-- The authorisation state `complete` consumes. -/
theorem startExchange_states {env : Env} {db : Db} {t t' : Tables}
    {tenant connection actor session state code attempt : String} {x : Exchange}
    (h : startExchange m env db t tenant connection actor session state code attempt = .ok (t', x)) :
    ∃ p r, get Pending.stateHash (m.sha256 state) t.states = some p ∧ p.consumed = false ∧
      get Connection.key (tenant, connection) t.connections = some r ∧ p.tenant = tenant ∧
      p.connection = connection ∧ p.actor = actor ∧ p.sessionHash = m.sha256 session ∧
      p.generation = r.generation ∧
      t'.states = update (fun p => p.stateHash = m.sha256 state)
        (fun p => { p with consumed := true, envelope := "" }) t.states := by
  simp only [startExchange, bind_eq_ok, exists_unit, ensure_eq_ok, need_eq_ok, pure_eq_ok,
    Prod.mk.injEq] at h
  obtain ⟨-, -, -, -, -, -, row, hrow, -, stateHash, hstate, pending, hpending, ⟨hopen, -⟩, sessionHash,
    hsession, ⟨htenant, hconnection, hactor, hsame, hgeneration, -⟩, -, sealed, -, verifier, -, rfl, -⟩ :=
    h
  obtain rfl := opaqueHash_ok hstate
  obtain rfl := opaqueHash_ok hsession
  exact ⟨pending, row, hpending, hopen, row_ok hrow, htenant, hconnection, hactor, hsame, hgeneration,
    rfl⟩

/-- **All an event does to the authorisation states.** -/
theorem Step.states (h : Step s l s') : StatesChange s l s' := by
  obtain ⟨rfl, hfresh⟩ := h
  cases l with
  | begin m env tenant connection actor session state verifier =>
    cases hx : OAuth.begin m env s.db s.tables tenant connection actor session state verifier with
    | error e =>
      refine .dropped (fun p hp => ?_) ?_
      all_goals dsimp only [State.after] at *
      all_goals rw [hx] at *
      exact hp
    | ok done =>
      obtain ⟨t, b⟩ := done
      obtain ⟨p, hhash, hstates, hget, htenant, hconnection, hactor, hsession, hgeneration⟩ :=
        begin_states hx
      have hafter : s.after (.begin m env tenant connection actor session state verifier) =
          { s with tables := t, issued := s.issued ++ [p] } := by
        dsimp only [State.after]
        rw [hx]
        dsimp only
        rw [hget]
        rfl
      rw [hafter]
      exact .issued rfl hhash (hhash ▸ hfresh) hstates rfl
        ⟨htenant, hconnection, hactor, hsession, hgeneration⟩
  | complete w m env tenant connection actor session state code attempt =>
    cases hx : startExchange m env s.db s.tables tenant connection actor session state code attempt with
    | error e =>
      refine .dropped (fun p hp => ?_) ?_
      all_goals dsimp only [State.after] at *
      all_goals rw [hx] at *
      exact hp
    | ok done =>
      obtain ⟨t, x⟩ := done
      obtain ⟨p, r, hget, hopen, hrow, htenant, hconnection, hactor, hsession, hgeneration, hstates⟩ :=
        startExchange_states hx
      refine .consumed rfl (mem_of_get hget) (key_of_get hget) hopen hget hrow
        ⟨htenant, hconnection, hactor, hsession, hgeneration⟩ ?_ ?_
      all_goals dsimp only [State.after]
      all_goals rw [hx]
      · exact hstates
      · rfl
  | engine | retry => exact .dropped (fun _ hp => hp) rfl
  | access w m env tenant connection agent required attempt =>
    have hsame : ∀ t a, startAccess m env s.db s.tables tenant connection agent required attempt =
        .ok (t, a) → t.states = s.tables.states := by
      intro t a hx
      obtain ⟨r, -, -, ⟨grant, -, -, rfl⟩ | ⟨tokens, owner, -, rfl⟩⟩ := startAccess_cases hx <;> rfl
    dsimp only [State.after]
    split
    · rename_i hx
      exact .dropped (fun p hp => hsame _ _ hx ▸ hp) rfl
    · rename_i hx
      exact .dropped (fun p hp => hsame _ _ hx ▸ hp) rfl
    · exact .dropped (fun _ hp => hp) rfl
  | answer w env guard body identity =>
    dsimp only [State.after]
    split
    · split
      · rename_i hx
        obtain ⟨r, envelope, scopes, expires, -, -, -, -, -, rfl⟩ := settle_cases hx
        exact .dropped (fun _ hp => hp) rfl
      · exact .dropped (fun _ hp => hp) rfl
    · exact .dropped (fun _ hp => hp) rfl
  | fail w =>
    dsimp only [State.after]
    split <;> exact .dropped (fun _ hp => hp) rfl
  | cleanup w rid =>
    dsimp only [State.after]
    split
    · split
      · rename_i hx
        exact .dropped (fun p hp => (queueRevoke_connections hx).2 ▸ hp) rfl
      · exact .dropped (fun _ hp => hp) rfl
    · exact .dropped (fun _ hp => hp) rfl
  | drain w env attempt =>
    dsimp only [State.after]
    split
    · split
      · rename_i hx
        exact .dropped (fun p hp => (startDrain_connections hx).2 ▸ hp) rfl
      · exact .dropped (fun _ hp => hp) rfl
    · exact .dropped (fun _ hp => hp) rfl
  | drained w confirmed =>
    dsimp only [State.after]
    split <;> exact .dropped (fun _ hp => hp) rfl
  | revoke w m env tenant connection actor remote rid =>
    have hsub : ∀ t out, OAuth.revoke m env s.db s.tables tenant connection actor remote rid =
        .ok (t, out) → ∀ p ∈ t.states, p ∈ s.tables.states := by
      intro t out hx p hp
      obtain ⟨r, -, ⟨-, rfl⟩ | ⟨-, hstates, -⟩⟩ := revoke_cases hx
      · exact hp
      · exact hstates p hp
    dsimp only [State.after]
    split
    · rename_i hx
      exact .dropped (hsub _ _ hx) rfl
    · rename_i hx
      exact .dropped (hsub _ _ hx) rfl
    · exact .dropped (fun _ hp => hp) rfl
  | recover env tenant connection actor =>
    dsimp only [State.after]
    split
    · rename_i hx
      obtain ⟨r, -, -, rfl⟩ := recoverStale_cases hx
      exact .dropped (fun _ hp => hp) rfl
    · exact .dropped (fun _ hp => hp) rfl
  | rewrap m env tenant connection actor =>
    dsimp only [State.after]
    split
    · rename_i hx
      obtain ⟨r, envelope, -, -, rfl⟩ := rewrap_cases hx
      exact .dropped (fun _ hp => hp) rfl
    · exact .dropped (fun _ hp => hp) rfl

end Step

end AgentPlatform.OAuth
