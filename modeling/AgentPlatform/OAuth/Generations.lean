import AgentPlatform.OAuth.Calls

/-!
# Generations fence late answers

Over every interleaving of OAuth calls (`generation_fencing`): `begin`, `recover_stale` and every `revoke`
that finds the connection not yet revoked advance its generation; only the answer to the connection's
own attempt of its own generation makes it active; after a `revoke` or a `recover_stale` no earlier grant
passes `fence`; and an authorisation state is consumed at most once, by whom it was issued to.

A second `revoke` returns what the first one did and advances nothing: `revoked_twice`.
-/

namespace AgentPlatform.OAuth

open Outcome Engine Table Runs

/-- The generation of a connection, zero where there is none. -/
def State.generation (s : State) (k : String × String) : ℕ :=
  ((s.row k).map Connection.generation).getD 0

/-- The call of an event returns. -/
def returns (s : State) : Label → Bool
  | .begin m env tenant connection actor session state verifier =>
    (OAuth.begin m env s.db s.tables tenant connection actor session state verifier).isOk
  | .complete _ m env tenant connection actor session state code attempt =>
    (startExchange m env s.db s.tables tenant connection actor session state code attempt).isOk
  | .revoke _ m env tenant connection actor remote rid =>
    (OAuth.revoke m env s.db s.tables tenant connection actor remote rid).isOk
  | .recover env tenant connection actor =>
    (recoverStale env s.db s.tables tenant connection actor).isOk
  | _ => false

/-- The connection an event begins, revokes or recovers. -/
def Label.retires? : Label → Option (String × String)
  | .begin _ _ tenant connection _ _ _ _ | .revoke _ _ _ tenant connection _ _ _
  | .recover _ tenant connection _ => some (tenant, connection)
  | _ => none

/-- The connection an event revokes or recovers. -/
def Label.closes? : Label → Option (String × String)
  | .revoke _ _ _ tenant connection _ _ _ | .recover _ tenant connection _ =>
    some (tenant, connection)
  | _ => none

/-- The hash of the authorisation state an event consumes. -/
def consumed? (τ : Transition State Label) : Option String :=
  match τ.label with
  | .complete _ m _ _ _ _ _ state _ _ =>
    if returns τ.src τ.label = true then some (m.sha256 state) else none
  | _ => none

/-- A `revoke` of a connection that is revoked already. -/
def Repeats (s : State) : Label → Prop
  | .revoke _ _ _ tenant connection _ _ _ =>
    ∃ r, s.row (tenant, connection) = some r ∧ r.status = .revoked
  | _ => False

/-- Why a connection is active after an event. -/
inductive Stored (s : State) (l : Label) (k : String × String) (r' : Connection) : Prop
  /-- It was so before, with the same tokens. -/
  | kept (hrow : s.row k = some r') (hstatus : r'.status = .active)
  | rewrapped {m : Manager} {env : Env} {actor : String} {r : Connection}
      (hl : l = .rewrap m env k.1 k.2 actor) (hrow : s.row k = some r) (hstatus : r.status = .active)
  /-- The provider answered the connection's own attempt of its own generation. -/
  | answered {w : ℕ} {env : Env} {guard : Except Err Unit} {body : Except Err Json}
      {identity : Except Err String} {c : Call} {r : Connection}
      (hl : l = .answer w env guard body identity) (hcall : s.calls w = .waiting c) (hkey : c.key = k)
      (hrow : s.row k = some r) (hgeneration : r.generation = c.generation)
      (hattempt : r.attempt = c.attempt) (hstatus : r.status = .refreshing ∨ r.status = .exchanging)
      (hown : ∀ v c', s.calls v = .waiting c' → c'.attempt = c.attempt → v = w)

/-- An authorisation state, without what its consumption changes. -/
def Pending.binding (p : Pending) : String × String × String × String × String × ℕ :=
  (p.stateHash, p.tenant, p.connection, p.actor, p.sessionHash, p.generation)

/-- Where a connection stands towards a grant that was returned for it. -/
def Outdates (r : Connection) (g : Grant) : Prop :=
  g.generation ≤ r.generation ∧ (r.status = .revoked → g.generation < r.generation)

/-- What every event keeps. -/
structure Kept (s : State) : Prop where
  granted : ∀ g ∈ s.granted, ∃ r, s.row g.key = some r ∧ Outdates r g.grant
  attempts : ∀ w c, s.calls w = .waiting c → c.attempt ∈ s.attempts
  distinct : ∀ w w' c c', s.calls w = .waiting c → s.calls w' = .waiting c' →
    c.attempt = c'.attempt → w = w'
  states : ∀ p ∈ s.tables.states, ∃ q ∈ s.issued, q.binding = p.binding

theorem kept_empty : Kept {} where
  granted := fun _ hg => absurd hg List.not_mem_nil
  attempts := fun _ _ h => by cases h
  distinct := fun _ _ _ _ h => by cases h
  states := fun _ hp => absurd hp List.not_mem_nil

section Change

variable {s : State} {l : Label} {k : String × String} {old new : Option Connection}

theorem Change.generation_le (h : Change s l k old new) :
    (old.map Connection.generation).getD 0 ≤ (new.map Connection.generation).getD 0 := by
  cases h with
  | same => exact Nat.le_refl _
  | begun _ hgeneration =>
    rw [Option.map_some, Option.getD_some, hgeneration]
    cases old with
    | none => exact Nat.zero_le _
    | some r => exact Nat.le_succ _
  | revoked | recovered => exact Nat.le_succ _
  | exchanging | refreshing | stored | failed | rewrapped => exact Nat.le_refl _

/-- A grant that is outdated by the row is outdated by what the row becomes. -/
theorem Change.outdates {r : Connection} {g : Grant} (h : Change s l k (some r) new)
    (hr : Outdates r g) : ∃ r', new = some r' ∧ Outdates r' g := by
  obtain ⟨hle, hlt⟩ := hr
  cases h with
  | same => exact ⟨r, rfl, hle, hlt⟩
  | @begun _ _ _ _ _ _ _ r' _ hgeneration hstatus =>
    have hnext : r'.generation = r.generation + 1 := hgeneration
    exact ⟨r', rfl, by omega, fun _ => by omega⟩
  | revoked | recovered => exact ⟨_, rfl, Nat.le_succ_of_le hle, fun _ => Nat.lt_succ_of_le hle⟩
  | exchanging | refreshing | stored => exact ⟨_, rfl, hle, fun h => by cases h⟩
  | failed _ hstatus =>
    refine ⟨_, rfl, hle, fun h => ?_⟩
    dsimp only at h
    rcases hstatus with rfl | rfl <;> cases h
  | rewrapped => exact ⟨_, rfl, hle, hlt⟩

end Change

section Steps

variable {s s' : State} {l : Label}

theorem Step.generation_le (h : Step s l s') (k : String × String) :
    s.generation k ≤ s'.generation k :=
  (h.change k).generation_le

/-- A grant is returned for a connection that is active, and has its generation. -/
theorem Step.granted (h : Step s l s') : s'.granted = s.granted ∨
    ∃ g r, s'.granted = s.granted ++ [g] ∧ s'.row g.key = some r ∧ r.status = .active ∧
      g.grant.generation = r.generation := by
  obtain ⟨rfl, -⟩ := h
  delta State.after
  cases l with
  | access w m env tenant connection agent required attempt =>
    dsimp only
    split
    · rename_i t grant hx
      obtain ⟨r, hr, hstatus, ⟨grant', heq, hgeneration, rfl⟩ | ⟨tokens, owner, heq, -⟩⟩ :=
        startAccess_cases hx
      · cases heq
        exact .inr ⟨⟨tenant, connection, grant⟩, r, rfl, hr, hstatus, hgeneration⟩
      · cases heq
    · exact .inl rfl
    · exact .inl rfl
  | answer w env guard body identity =>
    dsimp only
    split
    · rename_i c hcall
      split
      · rename_i t grant hx
        obtain ⟨r, envelope, scopes, expires, hr, hgeneration, -, -, hgrant, rfl⟩ := settle_cases hx
        dsimp only [State.goto]
        split
        · refine .inr ⟨⟨c.tenant, c.connection, grant⟩, { r with
            status := .active, envelope := envelope, scopes := scopes, expires := expires
            attempt := "" }, rfl, ?_, rfl, hgrant.trans hgeneration.symm⟩
          refine (setRow_get (by intro r; rfl)).trans ?_
          rw [if_pos (by rfl)]
          exact congrArg (Option.map _) hr
        · exact .inl (List.append_nil _)
      · exact .inl rfl
    · exact .inl rfl
  | engine | retry => exact .inl rfl
  | begin | complete | recover | rewrap | fail | drained =>
    dsimp only
    split <;> exact .inl rfl
  | cleanup | drain =>
    dsimp only
    split
    · split <;> exact .inl rfl
    · exact .inl rfl
  | revoke =>
    dsimp only
    split
    · exact .inl rfl
    · exact .inl rfl
    · exact .inl rfl

theorem goto_calls (w : ℕ) (stage : Stage) :
    (s.goto w stage).calls = Function.update s.calls w stage := rfl

theorem waiting_goto {w v : ℕ} {stage : Stage} {c : Call}
    (h : (s.goto w stage).calls v = .waiting c) (hstage : ∀ c, stage ≠ .waiting c) :
    s.calls v = .waiting c := by
  by_cases hv : v = w
  · subst hv
    rw [goto_calls, Function.update_self] at h
    exact absurd h (hstage c)
  · rwa [goto_calls, Function.update_of_ne hv] at h

theorem attempts_mono (h : Step s l s') {a : String} (ha : a ∈ s.attempts) : a ∈ s'.attempts := by
  obtain ⟨rfl, -⟩ := h
  delta State.after
  cases l with
  | complete =>
    dsimp only
    split
    · exact List.mem_append_left _ ha
    · exact ha
  | access =>
    dsimp only
    split
    · exact ha
    · exact List.mem_append_left _ ha
    · exact ha
  | engine | retry => exact ha
  | begin | recover | rewrap | fail | drained =>
    dsimp only
    split <;> exact ha
  | answer | cleanup | drain =>
    dsimp only
    split
    · split <;> exact ha
    · exact ha
  | revoke =>
    dsimp only
    split <;> exact ha

/-- A worker that waits after an event waited before it, or has just drawn its attempt. -/
theorem Step.waiting (h : Step s l s') {v : ℕ} {c : Call} (hv : s'.calls v = .waiting c) :
    s.calls v = .waiting c ∨ c.attempt ∉ s.attempts ∧ c.attempt ∈ s'.attempts ∧
      ∀ u, u ≠ v → s'.calls u = s.calls u := by
  obtain ⟨rfl, hfresh⟩ := h
  have hnew : ∀ (base : State) (w : ℕ) (c' : Call), base.calls = s.calls →
      (base.goto w (.waiting c')).calls v = .waiting c → s.calls v = .waiting c ∨
        c = c' ∧ ∀ u, u ≠ v → (base.goto w (.waiting c')).calls u = s.calls u := by
    intro base w c' hbase hcall
    by_cases hw : v = w
    · subst hw
      rw [goto_calls, Function.update_self] at hcall
      cases hcall
      refine .inr ⟨rfl, fun u hu => ?_⟩
      rw [goto_calls, Function.update_of_ne hu, hbase]
    · rw [goto_calls, Function.update_of_ne hw, hbase] at hcall
      exact .inl hcall
  cases l with
  | complete w m env tenant connection actor session state code attempt =>
    dsimp only [State.after] at hv ⊢
    split at hv
    · rcases hnew _ _ _ rfl hv with hold | ⟨rfl, hothers⟩
      · exact .inl hold
      · exact .inr ⟨hfresh, List.mem_append_right _ (List.mem_singleton_self _), hothers⟩
    · exact .inl hv
  | access w m env tenant connection agent required attempt =>
    dsimp only [State.after] at hv ⊢
    split at hv
    · exact .inl hv
    · rcases hnew _ _ _ rfl hv with hold | ⟨rfl, hothers⟩
      · exact .inl hold
      · exact .inr ⟨hfresh, List.mem_append_right _ (List.mem_singleton_self _), hothers⟩
    · exact .inl hv
  | engine => exact .inl hv
  | retry => exact .inl (waiting_goto hv fun _ h => by cases h)
  | begin | recover | rewrap =>
    dsimp only [State.after] at hv
    split at hv <;> exact .inl hv
  | fail =>
    dsimp only [State.after] at hv
    split at hv
    · refine .inl (waiting_goto (s := { s with tables := _ }) hv fun c' h => ?_)
      split at h
      · split at h <;> cases h
      · cases h
    · exact .inl hv
  | drained =>
    dsimp only [State.after] at hv
    split at hv
    · exact .inl (waiting_goto (s := { s with tables := _ }) hv fun _ h => by cases h)
    · exact .inl hv
  | answer =>
    dsimp only [State.after] at hv
    split at hv
    · split at hv
      · exact .inl (waiting_goto (s := { s with tables := _, granted := _ }) hv fun _ h => by cases h)
      · exact .inl (waiting_goto hv fun _ h => by cases h)
    · exact .inl hv
  | cleanup | drain =>
    dsimp only [State.after] at hv
    split at hv
    · split at hv
      · exact .inl (waiting_goto (s := { s with tables := _ }) hv fun _ h => by cases h)
      · exact .inl (waiting_goto hv fun _ h => by cases h)
    · exact .inl hv
  | revoke =>
    dsimp only [State.after] at hv
    split at hv
    · exact .inl (waiting_goto (s := { s with tables := _ }) hv fun _ h => by cases h)
    · exact .inl hv
    · exact .inl hv

/-- **Every event keeps the invariant.** -/
theorem Step.kept (h : Step s l s') (hs : Kept s) : Kept s' := by
  refine ⟨fun g hg => ?_, fun w c hw => ?_, fun w w' c c' hw hw' hsame => ?_, fun p hp => ?_⟩
  · have hold : ∀ g ∈ s.granted, ∃ r, s'.row g.key = some r ∧ Outdates r g.grant := by
      intro g hg
      obtain ⟨r, hr, hout⟩ := hs.granted g hg
      have hchange := h.change g.key
      rw [hr] at hchange
      exact hchange.outdates hout
    rcases h.granted with heq | ⟨g', r, heq, hr, hstatus, hgeneration⟩
    · exact hold g (heq ▸ hg)
    · rw [heq] at hg
      rcases List.mem_append.1 hg with hg | hg
      · exact hold g hg
      · obtain rfl := List.mem_singleton.1 hg
        refine ⟨r, hr, Nat.le_of_eq hgeneration, fun hrevoked => ?_⟩
        rw [hstatus] at hrevoked
        cases hrevoked
  · rcases h.waiting hw with hold | ⟨-, hdrawn, -⟩
    · exact attempts_mono h (hs.attempts w c hold)
    · exact hdrawn
  · -- an attempt that was just drawn is no other worker's
    rcases h.waiting hw with hold | ⟨hfresh, -, hothers⟩
    · rcases h.waiting hw' with hold' | ⟨hfresh', -, -⟩
      · exact hs.distinct w w' c c' hold hold' hsame
      · exact absurd (hsame ▸ hs.attempts w c hold) hfresh'
    · by_cases hne : w' = w
      · exact hne.symm
      · rw [hothers w' hne] at hw'
        exact absurd (hsame ▸ hs.attempts w' c' hw') hfresh
  · cases h.states with
    | dropped hstates hissued =>
      rw [hissued]
      exact hs.states p (hstates p hp)
    | @issued _ _ _ _ _ _ _ _ q _ _ _ hstates hissued =>
      rw [hissued]
      rcases hstates p hp with hp | rfl
      · obtain ⟨q, hq, hbinding⟩ := hs.states p hp
        exact ⟨q, List.mem_append_left _ hq, hbinding⟩
      · exact ⟨p, List.mem_append_right _ (List.mem_singleton_self _), rfl⟩
    | consumed _ _ _ _ _ _ _ hstates hissued =>
      rw [hissued]
      rw [hstates] at hp
      obtain ⟨p₀, hp₀, hcase⟩ := mem_update.1 hp
      obtain ⟨q, hq, hbinding⟩ := hs.states p₀ hp₀
      refine ⟨q, hq, hbinding.trans ?_⟩
      split at hcase
      · rw [← hcase]
        rfl
      · rw [hcase]

variable {k : String × String}

/-- `begin`, `recover_stale` and a first `revoke` advance the generation. -/
theorem Step.advances (h : Step s l s') (hk : l.retires? = some k) (hreturns : returns s l = true)
    (hfirst : ¬ Repeats s l) : s.generation k < s'.generation k := by
  obtain ⟨rfl, -⟩ := h
  unfold State.generation State.row
  delta State.after
  cases l with
  | begin m env tenant connection actor session state verifier =>
    obtain rfl := Option.some.inj hk
    dsimp only
    split
    · rename_i t b hx
      obtain ⟨r, -, hgeneration, hrows⟩ := begin_row hx
      dsimp only
      rw [hrows, if_pos rfl, Option.map_some, Option.getD_some, hgeneration]
      cases get Connection.key (tenant, connection) s.tables.connections with
      | none => exact Nat.one_pos
      | some r => exact Nat.lt_succ_self _
    · rename_i e hx
      dsimp only [returns] at hreturns
      rw [hx] at hreturns
      cases hreturns
  | revoke w m env tenant connection actor remote rid =>
    obtain rfl := Option.some.inj hk
    have hadvance : ∀ t out, OAuth.revoke m env s.db s.tables tenant connection actor remote rid =
        .ok (t, out) →
        ((get Connection.key (tenant, connection) s.tables.connections).map
          Connection.generation).getD 0 <
        ((get Connection.key (tenant, connection) t.connections).map
          Connection.generation).getD 0 := by
      intro t out hx
      obtain ⟨r, hr, ⟨hstatus, -⟩ | ⟨-, -, hconnections⟩⟩ := revoke_cases hx
      · exact absurd ⟨r, hr, hstatus⟩ hfirst
      · rw [hconnections, setRow_get (by intro r; rfl), if_pos rfl, hr]
        exact Nat.lt_succ_self _
    dsimp only
    split
    · rename_i hx
      exact hadvance _ _ hx
    · rename_i hx
      exact hadvance _ _ hx
    · rename_i e hx
      dsimp only [returns] at hreturns
      rw [hx] at hreturns
      cases hreturns
  | recover env tenant connection actor =>
    obtain rfl := Option.some.inj hk
    dsimp only
    split
    · rename_i t hx
      obtain ⟨r, hr, -, rfl⟩ := recoverStale_cases hx
      dsimp only
      rw [setRow_get (by intro r; rfl), if_pos rfl, hr]
      exact Nat.lt_succ_self _
    · rename_i e hx
      dsimp only [returns] at hreturns
      rw [hx] at hreturns
      cases hreturns
  | _ => cases hk

/-- **A connection is active because it was, or because the provider answered its own attempt.** -/
theorem Step.stored (h : Step s l s') (hs : Kept s) {r' : Connection} (hr' : s'.row k = some r')
    (hactive : r'.status = .active) : Stored s l k r' := by
  have hchange := h.change k
  rw [hr'] at hchange
  cases hx : s.row k with
  | none =>
    rw [hx] at hchange
    cases hchange with
    | begun _ _ hstatus =>
      rw [hstatus] at hactive
      cases hactive
  | some r =>
    rw [hx] at hchange
    cases hchange with
    | same => exact .kept hx hactive
    | begun _ _ hstatus =>
      rw [hstatus] at hactive
      cases hactive
    | exchanging | refreshing | revoked | recovered => cases hactive
    | failed _ hstatus =>
      dsimp only at hactive
      rcases hstatus with rfl | rfl <;> cases hactive
    | @stored w _ _ _ _ c _ _ _ _ hl hcall hkey hgeneration hattempt hstatus =>
      exact .answered hl hcall hkey hx hgeneration hattempt hstatus fun v c' hv hsame =>
        hs.distinct v w c' c hv hcall hsame
    | rewrapped hl hstatus => exact .rewrapped hl hx hstatus

theorem fence_generation {m : Manager} {env : Env} {db : Db} {t : Tables}
    {tenant connection agent : String} {required : List String} {g : Grant}
    (h : fence m env db t tenant connection agent required g = .ok ()) :
    ∃ r, get Connection.key (tenant, connection) t.connections = some r ∧
      r.generation = g.generation := by
  simp only [fence, bind_eq_ok, ensure_eq_ok] at h
  obtain ⟨r, hr, -, hgeneration, -⟩ := h
  exact ⟨r, agent_row hr, hgeneration⟩

/-- After a `revoke` or a `recover_stale`, what was granted before has an earlier generation. -/
theorem Step.closes (h : Step s l s') (hs : Kept s) (hk : l.closes? = some k) (hreturns : returns s l = true)
    {g : Granted} (hg : g ∈ s.granted) (hkey : g.key = k) : g.grant.generation < s'.generation k := by
  obtain ⟨r, hr, hle, hlt⟩ := hs.granted g hg
  rw [hkey] at hr
  have hgeneration : s.generation k = r.generation := by
    unfold State.generation
    rw [hr]
    rfl
  by_cases hrepeats : Repeats s l
  · -- the connection was revoked before, under a later generation than any grant
    cases l with
    | revoke w m env tenant connection actor remote rid =>
      obtain rfl := Option.some.inj hk
      obtain ⟨r₀, hr₀, hstatus⟩ := hrepeats
      obtain rfl : r₀ = r := Option.some.inj (hr₀.symm.trans hr)
      calc g.grant.generation < r₀.generation := hlt hstatus
        _ = s.generation (tenant, connection) := hgeneration.symm
        _ ≤ s'.generation (tenant, connection) := h.generation_le _
    | _ => cases hrepeats
  · have hretires : l.retires? = some k := by
      cases l <;> first | exact hk | cases hk
    calc g.grant.generation ≤ r.generation := hle
      _ = s.generation k := hgeneration.symm
      _ < s'.generation k := h.advances hretires hreturns hrepeats

end Steps

/-! ### Runs -/

/-- The authorisation state of a hash was issued, and is gone or consumed. -/
def Spent (hash : String) (s : State) : Prop :=
  hash ∈ s.issued.map Pending.stateHash ∧
    ∀ p ∈ s.tables.states, p.stateHash = hash → p.consumed = true

instance (hash : String) (s : State) : Decidable (Spent hash s) := by
  unfold Spent
  infer_instance

/-- What the generations, the attempts and the states guarantee of a run. -/
structure Fenced (τs : List (Transition State Label)) (s : State) : Prop where
  advances : ∀ τ ∈ τs, ∀ k, τ.label.retires? = some k → returns τ.src τ.label = true →
    ¬ Repeats τ.src τ.label → τ.src.generation k < τ.dst.generation k
  stores : ∀ τ ∈ τs, ∀ k r', τ.dst.row k = some r' → r'.status = .active → Stored τ.src τ.label k r'
  closed : ∀ τ ∈ τs, ∀ k, τ.label.closes? = some k → returns τ.src τ.label = true →
    (∀ g ∈ τ.src.granted, g.key = k → g.grant.generation < τ.dst.generation k) ∧
    ∀ g : Grant, g.generation < τ.dst.generation k → ∀ m env db agent required,
      fence m env db s.tables k.1 k.2 agent required g ≠ .ok ()
  once : (τs.filterMap consumed?).Nodup
  bound : ∀ pre τ post, τs = pre ++ τ :: post →
    ∀ {w m env tenant connection actor session state code attempt},
      τ.label = .complete w m env tenant connection actor session state code attempt →
      returns τ.src τ.label = true → ∃ τ' ∈ pre, ∃ m' env' session' state' verifier,
        τ'.label = .begin m' env' tenant connection actor session' state' verifier ∧
        m'.sha256 state' = m.sha256 state ∧ m'.sha256 session' = m.sha256 session ∧
        τ'.dst.generation (tenant, connection) = τ.src.generation (tenant, connection)

section Runs

variable {s s' : State} {l : Label} {τs : List (Transition State Label)}

variable {hash : String}

theorem consumed?_eq_some {τ : Transition State Label} (h : consumed? τ = some hash) :
    ∃ w m env tenant connection actor session state code attempt,
      τ.label = .complete w m env tenant connection actor session state code attempt ∧
        returns τ.src τ.label = true ∧ m.sha256 state = hash := by
  obtain ⟨src, label, dst⟩ := τ
  cases label with
  | complete w m env tenant connection actor session state code attempt =>
    unfold consumed? at h
    dsimp only at h
    split at h
    · rename_i hreturns
      exact ⟨w, m, env, tenant, connection, actor, session, state, code, attempt, rfl, hreturns,
        Option.some.inj h⟩
    · cases h
  | _ => cases h

/-- A returned `complete` consumes its authorisation state. -/
theorem Step.consumes (h : Step s l s') {w : ℕ} {m : Manager} {env : Env}
    {tenant connection actor session state code attempt : String}
    (hl : l = .complete w m env tenant connection actor session state code attempt)
    (hreturns : returns s l = true) : ∃ p r, p ∈ s.tables.states ∧
      p.stateHash = m.sha256 state ∧ p.consumed = false ∧ s.row (tenant, connection) = some r ∧
      p.tenant = tenant ∧ p.connection = connection ∧ p.actor = actor ∧
      p.sessionHash = m.sha256 session ∧ p.generation = r.generation ∧
      s'.tables.states = update (fun p => p.stateHash = m.sha256 state)
        (fun p => { p with consumed := true, envelope := "" }) s.tables.states ∧
      s'.issued = s.issued := by
  subst hl
  obtain ⟨rfl, -⟩ := h
  dsimp only [returns] at hreturns
  cases hx : startExchange m env s.db s.tables tenant connection actor session state code attempt with
  | error e =>
    rw [hx] at hreturns
    cases hreturns
  | ok done =>
    obtain ⟨t, x⟩ := done
    obtain ⟨p, r, hget, hopen, hrow, htenant, hconnection, hactor, hsession, hgeneration, hstates⟩ :=
      startExchange_states hx
    refine ⟨p, r, mem_of_get hget, key_of_get hget, hopen, hrow, htenant, hconnection, hactor, hsession,
      hgeneration, ?_, ?_⟩
    all_goals dsimp only [State.after]
    all_goals rw [hx]
    · exact hstates
    · rfl

/-- A spent hash stays spent: `begin` draws no hash twice. -/
theorem Step.spent (h : Step s l s') (hs : Spent hash s) : Spent hash s' := by
  obtain ⟨hissued, hall⟩ := hs
  cases h.states with
  | dropped hstates heq =>
    refine ⟨heq ▸ hissued, fun p hp => hall p (hstates p hp)⟩
  | @issued _ _ _ _ _ _ _ _ q _ _ hfresh hstates heq =>
    refine ⟨?_, fun p hp hhash => ?_⟩
    · rw [heq, List.map_append]
      exact List.mem_append_left _ hissued
    · rcases hstates p hp with hp | rfl
      · exact hall p hp hhash
      · exact absurd (hhash ▸ hissued) hfresh
  | consumed _ _ _ _ _ _ _ hstates heq =>
    refine ⟨heq ▸ hissued, fun p hp hhash => ?_⟩
    rw [hstates] at hp
    obtain ⟨p₀, hp₀, hcase⟩ := mem_update.1 hp
    split at hcase
    · rw [← hcase]
    · rw [← hcase] at hhash ⊢
      exact hall p₀ hp₀ hhash

theorem Step.spends (h : Step s l s') (hs : Kept s) (hconsumed : consumed? ⟨s, l, s'⟩ = some hash) :
    ¬ Spent hash s ∧ Spent hash s' := by
  obtain ⟨w, m, env, tenant, connection, actor, session, state, code, attempt, hl, hreturns, rfl⟩ :=
    consumed?_eq_some hconsumed
  obtain ⟨p, r, hp, hhash, hopen, -, -, -, -, -, -, hstates, hissued⟩ := h.consumes hl hreturns
  refine ⟨fun hspent => ?_, ?_, fun p' hp' hhash' => ?_⟩
  · rw [hspent.2 p hp hhash] at hopen
    cases hopen
  · obtain ⟨q, hq, hbinding⟩ := hs.states p hp
    rw [hissued]
    exact List.mem_map.2 ⟨q, hq, (congrArg Prod.fst hbinding).trans hhash⟩
  · rw [hstates] at hp'
    obtain ⟨p₀, -, hcase⟩ := mem_update.1 hp'
    split at hcase
    · rw [← hcase]
    · rename_i hne
      rw [← hcase] at hhash'
      exact absurd (decide_eq_true hhash') hne

/-- Each authorisation state was issued by a `begin` of the run. -/
theorem issued_begun (h : Run Step {} τs s) {p : Pending} (hp : p ∈ s.issued) :
    ∃ τ ∈ τs, ∃ m env session state verifier,
      τ.label = .begin m env p.tenant p.connection p.actor session state verifier ∧
      m.sha256 state = p.stateHash ∧ m.sha256 session = p.sessionHash ∧
      τ.dst.generation (p.tenant, p.connection) = p.generation := by
  refine h.since (p := fun s => p ∈ s.issued) (List.not_mem_nil) (fun s l t hstep hmem => ?_) hp
  cases hstep.states with
  | dropped _ heq => exact .inl (heq ▸ hmem)
  | consumed _ _ _ _ _ _ _ _ heq => exact .inl (heq ▸ hmem)
  | @issued m env tenant connection actor session state verifier q hl hhash _ _ heq hbound =>
    rw [heq] at hmem
    rcases List.mem_append.1 hmem with hmem | hmem
    · exact .inl hmem
    · obtain rfl := List.mem_singleton.1 hmem
      obtain ⟨rfl, rfl, rfl, hsession, hgeneration⟩ := hbound
      refine .inr ⟨m, env, session, state, verifier, hl, hhash.symm, hsession.symm, ?_⟩
      unfold State.generation
      dsimp only
      rw [← hgeneration]
      rfl

/-- **Generations fence late answers.** -/
theorem generation_fencing (h : Run Step {} τs s) : Fenced τs s := by
  have hkept : ∀ τ ∈ τs, Step τ.src τ.label τ.dst ∧ Kept τ.src := fun τ hτ =>
    h.always kept_empty (fun _ _ _ hs hstep => hstep.kept hs) hτ
  refine ⟨fun τ hτ k hk hreturns hfirst => (hkept τ hτ).1.advances hk hreturns hfirst,
    fun τ hτ k r' hr' hactive => (hkept τ hτ).1.stored (hkept τ hτ).2 hr' hactive,
    fun τ hτ k hk hreturns => ⟨fun g hg hkey => ?_, fun g hg m env db agent required hfence => ?_⟩,
    ?_, ?_⟩
  · exact (hkept τ hτ).1.closes (hkept τ hτ).2 hk hreturns hg hkey
  · obtain ⟨r, hr, hgeneration⟩ := fence_generation hfence
    have hlater : τ.dst.generation k ≤ s.generation k :=
      (h.later (q := fun s t => s.generation k ≤ t.generation k) (fun _ => Nat.le_refl _)
        (fun _ _ _ => Nat.le_trans) (fun _ _ _ hstep => hstep.generation_le k) hτ).2
    have hnow : s.generation k = g.generation := by
      unfold State.generation State.row
      rw [hr]
      exact hgeneration
    omega
  · refine nodup_filterMap fun hash => ?_
    have hrun := h.strengthen kept_empty fun _ _ _ hs hstep => hstep.kept hs
    have hcount := hrun.countP_le_one (p := Spent hash) (q := fun τ => consumed? τ = some hash)
      (fun _ _ _ hstep hspent => hstep.1.spent hspent)
      fun _ _ _ hstep hconsumed => hstep.1.spends hstep.2 hconsumed
    refine Nat.le_trans hcount ?_
    split <;> omega
  · rintro pre τ post rfl w m env tenant connection actor session state code attempt hl hreturns
    have hτ : τ ∈ pre ++ τ :: post := List.mem_append_right _ List.mem_cons_self
    obtain ⟨p, r, hp, hhash, -, hrow, rfl, rfl, rfl, hsession, hgeneration, -⟩ :=
      (hkept τ hτ).1.consumes hl hreturns
    obtain ⟨q, hq, hbinding⟩ := (hkept τ hτ).2.states p hp
    simp only [Pending.binding, Prod.mk.injEq] at hbinding
    obtain ⟨hqhash, hqtenant, hqconnection, hqactor, hqsession, hqgeneration⟩ := hbinding
    obtain ⟨τ', hτ', m', env', session', state', verifier, hl', hstate', hsession', hgeneration'⟩ :=
      issued_begun h.split.1 hq
    rw [hqtenant, hqconnection] at hl' hgeneration'
    rw [hqactor] at hl'
    refine ⟨τ', hτ', m', env', session', state', verifier, hl', ?_, ?_, ?_⟩
    · rw [hstate', hqhash, hhash]
    · rw [hsession', hqsession, hsession]
    · rw [hgeneration', hqgeneration, hgeneration]
      unfold State.generation
      rw [hrow]
      rfl

end Runs

/-! ### A connection that is revoked twice -/

section Sample

instance (s : State) : (l : Label) → Decidable (Fresh s l)
  | .begin m _ _ _ _ _ state _ =>
    inferInstanceAs (Decidable (m.sha256 state ∉ s.issued.map Pending.stateHash))
  | .complete _ _ _ _ _ _ _ _ _ attempt | .access _ _ _ _ _ _ _ attempt =>
    inferInstanceAs (Decidable (attempt ∉ s.attempts))
  | .engine _ | .answer .. | .fail _ | .cleanup .. | .retry .. | .drain .. | .drained .. | .revoke ..
  | .recover .. | .rewrap .. => inferInstanceAs (Decidable True)

def sampleManager : Manager where
  name := "google"
  account := "sales@acme.uz"
  configHash := "h"
  requiredScopes := ["mail"]
  vault :=
    { sealed := fun _ _ => .ok "envelope"
      opened := fun _ _ => .ok (.obj [("verifier", .str "v"), ("access_token", .str "t"),
        ("refresh_token", .str "r"), ("scopes", .arr [.str "mail"])])
      rewrap := fun envelope _ => .ok envelope }
  authorizationUrl := fun _ _ => .ok "https://accounts.example"
  sha256 := id

def sampleEnv (second : ℕ) : Env where
  policy := fun _ _ => .ok (.obj [("allowed_connections", .arr [.str "c"])])
  authority := fun _ _ _ _ => .ok ()
  bindings := fun _ _ _ _ => .ok []
  now := seconds second
  parentNow := fun _ => seconds second

def sampleTokens : Json :=
  .obj [("token_type", .str "Bearer"), ("access_token", .str "t"), ("refresh_token", .str "r"),
    ("expires_in", .int 3600), ("scope", .str "mail")]

def sampleRevoke (second : ℕ) : Label :=
  .revoke 2 sampleManager (sampleEnv second) "acme" "c" "dana" false "r1"

/-- The owner authorises the connection, an agent gets a grant, and the owner revokes it. -/
def revokedLabels : List Label :=
  [.begin sampleManager (sampleEnv 0) "acme" "c" "dana" "web" "state" "v",
    .complete 0 sampleManager (sampleEnv 1) "acme" "c" "dana" "web" "state" "code" "a1",
    .answer 0 (sampleEnv 2) (.ok ()) (.ok sampleTokens) (.ok "sales@acme.uz"),
    .access 1 sampleManager (sampleEnv 3) "acme" "c" "sales" ["mail"] "a2", sampleRevoke 4]

def revokedState : State := revokedLabels.foldl State.after {}

theorem revoked_run : Run Step {} (trace State.after {} revokedLabels) revokedState := by
  have hfresh : ((trace State.after {} revokedLabels).all fun τ => decide (Fresh τ.src τ.label)) =
      true := by decide +kernel
  have hrun : Run (guarded Fresh fun s l t => t = s.after l) {}
      ([] ++ trace State.after {} revokedLabels) revokedState :=
    Run.nil.guardedCalls revokedLabels fun τ hτ =>
      of_decide_eq_true (List.all_eq_true.1 hfresh τ hτ)
  exact hrun

theorem generation_fencing_sample :
    Fenced (trace State.after {} revokedLabels) revokedState ∧
    revokedState.granted.map (fun g => (g.key, g.grant.generation)) = [(("acme", "c"), 1)] ∧
    revokedState.generation ("acme", "c") = 2 :=
  ⟨generation_fencing revoked_run, by decide +kernel, by decide +kernel⟩

/-- The second `revoke` returns, and the generation stays what it was. -/
theorem revoked_twice :
    (∃ τs, Run Step {} τs (revokedState.after (sampleRevoke 5))) ∧
    returns revokedState (sampleRevoke 5) = true ∧
    revokedState.generation ("acme", "c") = 2 ∧
    (revokedState.after (sampleRevoke 5)).generation ("acme", "c") = 2 :=
  ⟨⟨_, revoked_run.snoc ⟨rfl, trivial⟩⟩, by decide +kernel, by decide +kernel, by decide +kernel⟩

end Sample

end AgentPlatform.OAuth
