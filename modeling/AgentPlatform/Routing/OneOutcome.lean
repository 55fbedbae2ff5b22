import AgentPlatform.Engine.Sequencing
import AgentPlatform.Routing.Events

/-!
# One outcome for each inbound event

A task is unique under its key and a turn under its own, but the two keys are of two tables: a worker
that looked an event up, stood still past the lease and goes on can write the outcome of the other
kind. `one_outcome` is about every run of the routing workers with everybody else:

* a key has at most one task and at most one turn;
* if no worker writes over an outcome of the other kind (`Fresh`), a key with a turn has no task but
  the reply of that turn;
* a run whose outcomes are written while the claim still holds the event (`Held`) is such a run.
-/

namespace AgentPlatform.Routing

open Outcome Engine Conversation Table Pipeline Runs

/-! ### Claims and outcomes -/

/-- The token that holds the event of a key. -/
def claimOf (db : Db) (k : String × String × String) : Option Uuid :=
  (Table.get EventRow.key k db.events).bind EventRow.claim

/-- A task was submitted under a key. -/
def Tasked (s : State) (k : String × String × String) : Prop := k ∈ s.db.keys

/-- A turn was recorded under a key. -/
def Turned (s : State) (k : String × String × String) : Prop := ∃ u ∈ s.turns, u.key = k

/-- The claim of a worker still holds its event. -/
def Holds (s : State) (e : EventRow) : Prop := claimOf s.db e.key = e.claim

instance (s : State) (k : String × String × String) : Decidable (Tasked s k) :=
  inferInstanceAs (Decidable (k ∈ s.db.keys))

instance (s : State) (k : String × String × String) : Decidable (Turned s k) :=
  inferInstanceAs (Decidable (∃ u ∈ s.turns, u.key = k))

instance (s : State) (e : EventRow) : Decidable (Holds s e) :=
  inferInstanceAs (Decidable (claimOf s.db e.key = e.claim))

/-- The event a worker has claimed. -/
def Stage.event? : Stage → Option EventRow
  | .idle => none
  | .claimed e | .noTask e | .planning e | .settled e _ => some e

/-- The event whose outcome a label writes, with its plan. -/
def State.writes (s : State) : Label → Option (EventRow × Plan)
  | .route w _ (.ok plan) _ =>
    match s.workers w with
    | .planning e => some (e, plan)
    | _ => none
  | _ => none

/-- The outcome a worker writes is not written over one of the other kind that was written since its
lookups. -/
def Fresh (s : State) (l : Label) : Prop :=
  ∀ x ∈ s.writes l, x.1.channel ∈ outboundChannels →
    if x.2.steps.isSome then Turned s x.1.key → Tasked s x.1.key
    else Tasked s x.1.key → Turned s x.1.key

/-- The outcome a worker writes is written while its claim still holds the event. -/
def Held (s : State) (l : Label) : Prop := ∀ x ∈ s.writes l, Holds s x.1

instance (s : State) (l : Label) : Decidable (Held s l) :=
  inferInstanceAs (Decidable (∀ x ∈ s.writes l, Holds s x.1))

/-- Others than the routing workers submit the task of a key: the reply of its turn. -/
def Replied (τ : Transition State Label) (k : String × String × String) : Prop :=
  ∃ op, τ.label = .engine op ∧ op.key? = some k ∧ Turned τ.src k ∧ ¬ Tasked τ.src k

/-! ### What a label can do -/

/-- What a label can do. -/
inductive Effect (P : Platform) (s : State) : Label → State → Prop
  | same (l : Label) : Effect P s l s
  /-- Other columns and tables change; a worker may go back to rest. -/
  | aside {l : Label} {db : Db} {quota : List QuotaRow} {workers : ℕ → Stage}
      (htasks : db.tasks = s.db.tasks) (hsteps : db.steps = s.db.steps)
      (hdrawn : db.drawn = s.db.drawn)
      (hclaims : ∀ k token, claimOf db k = some token → claimOf s.db k = some token)
      (hworkers : ∀ w, workers w = s.workers w ∨ workers w = .idle) :
      Effect P s l { s with db := db, quota := quota, workers := workers }
  | claimed {l : Label} {w : ℕ} {e : EventRow} {db : Db} (hclaim : e.claim = some s.db.drawn)
      (htasks : db.tasks = s.db.tasks) (hsteps : db.steps = s.db.steps)
      (hdrawn : db.drawn = s.db.drawn + 1)
      (hclaims : ∀ k token, claimOf db k = some token →
        k = e.key ∧ token = s.db.drawn ∨ claimOf s.db k = some token) :
      Effect P s l ({ s with db := db }.goto w (.claimed e))
  | looked {l : Label} {w : ℕ} {e : EventRow} (hw : s.workers w = .claimed e)
      (hnone : ¬ Tasked s e.key) : Effect P s l (s.goto w (.noTask e))
  | planned {l : Label} {w : ℕ} {e : EventRow} (hw : s.workers w = .noTask e)
      (hnone : ¬ Turned s e.key) : Effect P s l (s.goto w (.planning e))
  | settled {l : Label} {w : ℕ} {e : EventRow} {result : Except Err EventResult}
      (hw : (s.workers w).event? = some e) : Effect P s l (s.goto w (.settled e result))
  | submitted {w : ℕ} {check env : Env} {plan : Plan} {e : EventRow} {steps : List Json}
      {actor : String} {db : Db} {id : Uuid} (hw : s.workers w = .planning e)
      (hplan : plan.steps = some steps)
      (hsubmit : submit P env s.db e.tenant e.channel e.eventKey plan.agent steps actor =
        .ok (db, id)) :
      Effect P s (.route w check (.ok plan) env)
        ({ s with db := db }.goto w (.settled e (.ok (.task id))))
  | recorded {w : ℕ} {check env : Env} {plan : Plan} {e : EventRow} {turns : List TurnRow}
      (hw : s.workers w = .planning e) (hplan : plan.steps = none)
      (hturns : recordTurn env s.turns e.tenant e.channel e.eventKey plan.agent e.payload =
        .ok turns) :
      Effect P s (.route w check (.ok plan) env)
        ({ s with turns := turns }.goto w (.settled e (.ok (.turn e.eventKey))))
  | engine {op : Op} (hop : offRoute s.turns op = true) :
      Effect P s (.engine op) { s with db := s.db.after P op }
  | conversed {status : TurnRow → TurnStatus} :
      Effect P s (.converse status)
        { s with turns := s.turns.map fun u => { u with status := status u } }

section Effects

variable {P : Platform} {s t : State} {l : Label}

variable {db db' : Db}

theorem claimOf_congr (h : db'.events = db.events) (k : String × String × String) :
    claimOf db' k = claimOf db k := by
  unfold claimOf
  rw [h]

/-- An update of events that keeps their keys and sets no claim sets none. -/
theorem claimOf_update {p : EventRow → Bool} {f : EventRow → EventRow}
    (hevents : db'.events = Table.update p f db.events) (hkey : ∀ e, (f e).key = e.key)
    (hclaim : ∀ e, (f e).claim = e.claim ∨ (f e).claim = none) {k : String × String × String} {token : Uuid}
    (h : claimOf db' k = some token) : claimOf db k = some token := by
  unfold claimOf at h ⊢
  rw [hevents, get_update_map hkey] at h
  cases hget : Table.get EventRow.key k db.events with
  | none =>
    rw [hget] at h
    cases h
  | some e =>
    rw [hget] at h
    simp only [Option.map_some, Option.bind_some] at h ⊢
    split at h
    · rcases hclaim e with heq | heq
      · rwa [heq] at h
      · rw [heq] at h
        cases h
    · exact h

theorem claimOf_take {f : EventRow → EventRow} {k k' : String × String × String} {token token' : Uuid}
    (hevents : db'.events = Table.update (fun e => e.key = k') f db.events) (hkey : ∀ e, (f e).key = e.key)
    (hclaim : ∀ e, (f e).claim = some token) (h : claimOf db' k = some token') :
    k = k' ∧ token' = token ∨ claimOf db k = some token' := by
  unfold claimOf at h ⊢
  rw [hevents, get_update hkey] at h
  split at h
  · rename_i hk
    obtain ⟨e', he', htoken⟩ := Option.bind_eq_some_iff.1 h
    obtain ⟨e, -, rfl⟩ := Option.map_eq_some_iff.1 he'
    rw [hclaim] at htoken
    exact .inl ⟨hk, (Option.some.inj htoken).symm⟩
  · exact .inr h

variable {env : Env} {tenant : String}

theorem acceptEvent_effect {channel eventKey : String} {payload : Json} {duplicate : Bool}
    (h : acceptEvent P env s tenant channel eventKey payload = .ok (t, duplicate)) : Effect P s l t := by
  simp only [acceptEvent, bind_eq_ok, exists_unit, ensure_eq_ok] at h
  obtain ⟨-, -, -, -, h⟩ := h
  split at h
  · simp only [bind_eq_ok, exists_unit, ensure_eq_ok, pure_eq_ok, Prod.mk.injEq] at h
    obtain ⟨-, rfl, -⟩ := h
    exact .same _
  · simp only [bind_eq_ok, exists_unit, ensure_eq_ok, pure_eq_ok, Prod.mk.injEq] at h
    obtain ⟨-, -, rfl, -⟩ := h
    refine .aside rfl rfl rfl (fun k token hk => ?_) fun w => .inl rfl
    unfold claimOf at hk ⊢
    rw [get_append] at hk
    cases hget : Table.get EventRow.key k s.db.events with
    | some e => rwa [hget, Option.some_or] at hk
    | none =>
      rw [hget, Option.none_or] at hk
      split at hk <;> cases hk

theorem claimEvent_effect {w : ℕ} {channels : Option (List String)} {skip : List String} {e : EventRow}
    (h : claimEvent env s.db tenant channels skip = some (db, e)) :
    Effect P s l ({ s with db := db }.goto w (.claimed e)) := by
  unfold claimEvent at h
  split at h
  · cases h
  · simp only [Option.map_eq_some_iff, Prod.mk.injEq] at h
    obtain ⟨r, -, rfl, rfl⟩ := h
    refine .claimed rfl rfl rfl rfl fun k token hk => ?_
    exact claimOf_take (f := fun r => { r with
      status := .processing, claim := some s.db.drawn, lease := env.now + seconds eventLeaseSeconds })
      rfl (fun _ => rfl) (fun _ => rfl) hk

theorem route_effect {w : ℕ} {check : Env} {plan : Except Err Plan} {e : EventRow} {result : EventResult}
    (hw : s.workers w = .planning e) (h : route P check plan env s e = .ok (t, result)) :
    Effect P s (.route w check plan env) (t.goto w (.settled e (.ok result))) := by
  simp only [route, bind_eq_ok, exists_unit] at h
  obtain ⟨-, plan, rfl, h⟩ := h
  split at h
  · rename_i steps hplan
    split at h
    · simp only [bind_eq_ok, Prod.exists, pure_eq_ok, Prod.mk.injEq] at h
      obtain ⟨db, id, hsubmit, rfl, rfl⟩ := h
      exact .submitted hw hplan hsubmit
    · cases h
  · rename_i hplan
    simp only [bind_eq_ok, pure_eq_ok, Prod.mk.injEq] at h
    obtain ⟨turns, hturns, rfl, rfl⟩ := h
    exact .recorded hw hplan hturns

theorem retryEvent_eq {channel eventKey actor : String}
    (h : retryEvent env db tenant channel eventKey actor = .ok db') :
    ∃ p : EventRow → Bool, db' = { db with
      events := Table.update p (fun e => { e with status := .pending, error := "" }) db.events } := by
  simp only [retryEvent, bind_eq_ok, exists_unit] at h
  obtain ⟨-, -, h⟩ := h
  split at h
  all_goals
    simp only [bind_eq_ok, exists_unit, ensure_eq_ok, pure_eq_ok] at h
    obtain ⟨-, -, rfl⟩ := h
    exact ⟨_, rfl⟩

/-- Every label has one of the effects. -/
theorem Step.effect (h : Step P s l t) : Effect P s l t := by
  obtain rfl : t = s.after P l := h
  delta State.after
  cases l with
  | accept env tenant channel eventKey payload =>
    change Effect P s _ (commit s (acceptEvent P env s tenant channel eventKey payload))
    cases hx : acceptEvent P env s tenant channel eventKey payload with
    | error e => exact .same _
    | ok r => exact acceptEvent_effect hx
  | claim w env tenant channels skip =>
    dsimp only
    split
    · exact claimEvent_effect ‹_›
    · exact .same _
  | lookTask w =>
    dsimp only
    split
    · rename_i e hw
      split
      · exact .settled (by rw [hw]; rfl)
      · rename_i hnone
        exact .looked hw (taskOf?_eq_none.1 hnone)
    · exact .same _
  | lookTurn w =>
    dsimp only
    split
    · rename_i e hw
      split
      · exact .settled (by rw [hw]; rfl)
      · rename_i hnone
        refine .planned hw ?_
        rintro ⟨u, hu, hk⟩
        exact hnone (List.any_eq_true.2 ⟨u, hu, decide_eq_true hk⟩)
    · exact .same _
  | route w check plan env =>
    dsimp only
    split
    · rename_i e hw
      split
      · exact route_effect hw ‹_›
      · exact .settled (by rw [hw]; rfl)
    · exact .same _
  | mark w =>
    dsimp only
    split
    · rename_i e result hw
      refine .aside rfl rfl rfl (fun k token hk => claimOf_update rfl ?_ ?_ hk) fun w' => ?_
      · intro r
        cases result <;> rfl
      · intro r
        cases result <;> exact .inr rfl
      · by_cases hww : w' = w
        · subst hww
          exact .inr (Function.update_self _ _ _)
        · exact .inl (Function.update_of_ne hww _ _)
    · exact .same _
  | crash w =>
    refine .aside rfl rfl rfl (fun k token hk => hk) fun w' => ?_
    by_cases hww : w' = w
    · subst hww
      exact .inr (Function.update_self _ _ _)
    · exact .inl (Function.update_of_ne hww _ _)
  | retry env tenant channel eventKey actor =>
    dsimp only
    split
    · rename_i db hdb
      obtain ⟨p, rfl⟩ := retryEvent_eq hdb
      refine .aside rfl rfl rfl (fun k token hk => ?_) fun w => .inl rfl
      exact claimOf_update (f := fun e => { e with status := .pending, error := "" }) rfl
        (fun _ => rfl) (fun _ => .inl rfl) hk
    · exact .same _
  | engine op =>
    dsimp only
    split
    · exact .engine ‹_›
    · exact .same _
  | loop runs agentTurns => exact .aside rfl rfl rfl (fun k token hk => hk) fun w => .inl rfl
  | converse status => exact .conversed

end Effects

/-! ### What holds in every run -/

/-- The tables are keyed, and turns are recorded for outbound channels only. -/
structure Inv (s : State) : Prop where
  orderly : Orderly s.db
  keys : s.db.keys.Nodup
  turns : Keyed TurnRow.key s.turns
  outbound : ∀ u ∈ s.turns, u.channel ∈ outboundChannels

theorem inv_empty : Inv {} where
  orderly := orderly_empty
  keys := List.nodup_nil
  turns := keyed_nil _
  outbound := by simp

section Steps

variable {P : Platform} {s t : State} {l : Label} {k : String × String × String}

theorem writes_route {w : ℕ} {check env : Env} {plan : Plan} {e : EventRow}
    (hw : s.workers w = .planning e) : s.writes (.route w check (.ok plan) env) = some (e, plan) := by
  simp only [State.writes, hw]

theorem workers_goto (s : State) (w v : ℕ) (stage : Stage) :
    (s.goto w stage).workers v = if v = w then stage else s.workers v := by
  unfold State.goto
  exact Function.update_apply _ _ _ _

theorem engine_effect (P : Platform) (db : Db) (op : Op) :
    ∃ out, Engine.Effect P db op out (db.after P op) := by
  have hstep : Engine.Step P db op (db.after P op) := rfl
  obtain ⟨out, he, -⟩ := hstep.effect
  exact ⟨out, he⟩

theorem Inv.congr (h : Inv s) (htasks : t.db.tasks = s.db.tasks) (hsteps : t.db.steps = s.db.steps)
    (hdrawn : s.db.drawn ≤ t.db.drawn) (hturns : t.turns = s.turns) : Inv t where
  orderly := by
    have hmove : Move (fun _ _ => False) s.db t.db := .frame htasks hsteps hdrawn
    exact h.orderly.moves (.single hmove)
  keys := by
    have hkeys : t.db.keys = s.db.keys := congrArg (List.map TaskRow.key) htasks
    rw [hkeys]
    exact h.keys
  turns := hturns ▸ h.turns
  outbound := hturns ▸ h.outbound

theorem Effect.inv (h : Inv s) (he : Effect P s l t) : Inv t := by
  cases he with
  | same => exact h
  | aside htasks hsteps hdrawn => exact h.congr htasks hsteps hdrawn.ge rfl
  | claimed _ htasks hsteps hdrawn =>
    refine h.congr htasks hsteps ?_ rfl
    exact hdrawn ▸ Nat.le_succ _
  | looked | planned | settled => exact h.congr rfl rfl le_rfl rfl
  | submitted _ _ hsubmit =>
    have he := submit_effect hsubmit
    exact ⟨he.orderly h.orderly, he.keys_nodup h.keys, h.turns, h.outbound⟩
  | recorded _ _ hturns =>
    obtain ⟨hchannel, rfl | ⟨u, rfl, hkey, hnew, -⟩⟩ := recordTurn_cases hturns
    · exact ⟨h.orderly, h.keys, h.turns, h.outbound⟩
    · refine ⟨h.orderly, h.keys, h.turns.insert hnew, fun u' hu' => ?_⟩
      rcases List.mem_append.1 hu' with hu' | hu'
      · exact h.outbound u' hu'
      · obtain rfl := List.mem_singleton.1 hu'
        rwa [show u'.channel = _ from congrArg (fun k => k.2.1) hkey]
  | engine =>
    obtain ⟨out, he⟩ := engine_effect P s.db _
    exact ⟨he.orderly h.orderly, he.keys_nodup h.keys, h.turns, h.outbound⟩
  | @conversed status =>
    refine ⟨h.orderly, h.keys, ?_, fun u hu => ?_⟩
    · unfold Keyed
      rw [List.map_map]
      exact h.turns
    · obtain ⟨u', hu', rfl⟩ := List.mem_map.1 hu
      exact h.outbound u' hu'

theorem Inv.turned_outbound (h : Inv s) (hk : Turned s k) : k.2.1 ∈ outboundChannels := by
  obtain ⟨u, hu, rfl⟩ := hk
  exact h.outbound u hu

/-- A key gets a task from the worker that submits its plan, or from others. -/
theorem Effect.tasked_cases (he : Effect P s l t) (ht : Tasked t k) :
    Tasked s k ∨ t.turns = s.turns ∧
      ((∃ w check env plan e, l = .route w check (.ok plan) env ∧ s.workers w = .planning e ∧
        plan.steps.isSome = true ∧ e.key = k) ∨
      ∃ op, l = .engine op ∧ op.key? = some k ∧ offRoute s.turns op = true) := by
  have hframe : ∀ {db : Db}, db.tasks = s.db.tasks → k ∈ db.keys → Tasked s k := by
    intro db htasks hk
    unfold Db.keys at hk
    rwa [htasks] at hk
  cases he with
  | same | looked | planned | settled | recorded | conversed => exact .inl ht
  | aside htasks => exact .inl (hframe htasks ht)
  | claimed _ htasks => exact .inl (hframe htasks ht)
  | @submitted w check env plan e steps actor db id hw hplan hsubmit =>
    rcases (submit_effect hsubmit).mem_keys ht with hk | hk
    · exact .inl hk
    · exact .inr ⟨rfl, .inl ⟨w, check, env, plan, e, rfl, hw, by simp [hplan], Option.some.inj hk⟩⟩
  | @engine op hop =>
    obtain ⟨out, he⟩ := engine_effect P s.db op
    rcases he.mem_keys ht with hk | hk
    · exact .inl hk
    · exact .inr ⟨rfl, .inr ⟨op, rfl, hk, hop⟩⟩

/-- A key gets a turn from the worker that records it. -/
theorem Effect.turned_cases (he : Effect P s l t) (ht : Turned t k) :
    Turned s k ∨ ∃ w check env plan e, l = .route w check (.ok plan) env ∧
      s.workers w = .planning e ∧ plan.steps = none ∧ e.key = k ∧ e.channel ∈ outboundChannels := by
  obtain ⟨u, hu, rfl⟩ := ht
  cases he with
  | same | aside | claimed | looked | planned | settled | submitted | engine =>
    exact .inl ⟨u, hu, rfl⟩
  | @recorded w check env plan e turns hw hplan hturns =>
    obtain ⟨hchannel, rfl | ⟨u', rfl, hkey, -, -⟩⟩ := recordTurn_cases hturns
    · exact .inl ⟨u, hu, rfl⟩
    · rcases List.mem_append.1 hu with hu | hu
      · exact .inl ⟨u, hu, rfl⟩
      · obtain rfl := List.mem_singleton.1 hu
        exact .inr ⟨w, check, env, plan, e, rfl, hw, hplan, hkey.symm, hchannel⟩
  | conversed =>
    obtain ⟨u', hu', rfl⟩ := List.mem_map.1 hu
    exact .inl ⟨u', hu', rfl⟩

theorem Effect.turned (he : Effect P s l t) (hk : Turned s k) : Turned t k := by
  obtain ⟨u, hu, rfl⟩ := hk
  cases he with
  | same | aside | claimed | looked | planned | settled | submitted | engine => exact ⟨u, hu, rfl⟩
  | recorded _ _ hturns =>
    obtain ⟨-, rfl | ⟨u', rfl, -⟩⟩ := recordTurn_cases hturns
    · exact ⟨u, hu, rfl⟩
    · exact ⟨u, List.mem_append_left _ hu, rfl⟩
  | conversed => exact ⟨_, List.mem_map.2 ⟨u, hu, rfl⟩, rfl⟩

/-- Where no worker writes over an outcome of the other kind, a key gets both a task and a turn only
by the reply of the turn. -/
theorem Effect.both (h : Inv s) (he : Effect P s l t) (hfresh : Fresh s l)
    (ht : Tasked t k ∧ Turned t k) : (Tasked s k ∧ Turned s k) ∨ Replied ⟨s, l, t⟩ k := by
  rcases he.turned_cases ht.2 with hturned | ⟨w, check, env, plan, e, rfl, hw, hplan, rfl, hchannel⟩
  · by_cases htasked : Tasked s k
    · exact .inl ⟨htasked, hturned⟩
    · rcases he.tasked_cases ht.1 with hold | ⟨-, ⟨w, check, env, plan, e, rfl, hw, hplan, rfl⟩ |
        ⟨op, rfl, hop, -⟩⟩
      · exact absurd hold htasked
      · have hwrite := hfresh _ (writes_route hw) (h.turned_outbound hturned)
        rw [if_pos hplan] at hwrite
        exact absurd (hwrite hturned) htasked
      · exact .inr ⟨op, rfl, hop, hturned, htasked⟩
  · have hwrite := hfresh _ (writes_route hw) hchannel
    simp only [hplan, Option.isSome_none, Bool.false_eq_true, if_false] at hwrite
    rcases he.tasked_cases ht.1 with hold | ⟨-, ⟨w', check', env', plan', e', hl, -, hsome, -⟩ |
      ⟨op, hl, -⟩⟩
    · exact .inl ⟨hold, hwrite hold⟩
    · cases hl
      rw [hplan] at hsome
      cases hsome
    · cases hl

end Steps

/-! ### Outcomes under a claim that holds -/

/-- What a worker knows while its claim holds: the event of a planning worker has no outcome yet. The
task of a `noTask` worker's event can only be the reply of its turn, which the next lookup finds. -/
def Sound (s : State) : Stage → Prop
  | .noTask e => e.channel ∈ outboundChannels → Holds s e → Tasked s e.key → Turned s e.key
  | .planning e => e.channel ∈ outboundChannels → Holds s e → ¬ Tasked s e.key ∧ ¬ Turned s e.key
  | _ => True

/-- The claims of the workers, in runs whose outcomes are written while the claim holds. -/
structure Fenced (s : State) : Prop where
  token : ∀ w e, (s.workers w).event? = some e → ∃ token < s.db.drawn, e.claim = some token
  apart : ∀ v w e e', (s.workers v).event? = some e → (s.workers w).event? = some e' →
    e.claim = e'.claim → v = w
  sound : ∀ w, Sound s (s.workers w)

theorem fenced_empty : Fenced {} where
  token := fun w e he => by cases he
  apart := fun v w e e' he => by cases he
  sound := fun w => trivial

section Fences

variable {P : Platform} {s t : State} {l : Label}

variable {stage : Stage}

/-- What a worker knows stays true until the claim is lost or an outcome of its event is written. -/
theorem Sound.later (h : Sound s stage) (hturned : ∀ k, Turned s k → Turned t k)
    (hkept : ∀ e, stage.event? = some e → Holds t e → Holds s e ∧
      (e.channel ∈ outboundChannels → (Tasked t e.key → Tasked s e.key ∨ Turned s e.key) ∧
        (Turned t e.key → Turned s e.key))) : Sound t stage := by
  cases stage with
  | idle | claimed | settled => trivial
  | noTask e =>
    intro hchannel hholds htasked
    obtain ⟨hholds, hkept⟩ := hkept e rfl hholds
    rcases (hkept hchannel).1 htasked with htasked | hold
    · exact hturned _ (h hchannel hholds htasked)
    · exact hturned _ hold
  | planning e =>
    intro hchannel hholds
    obtain ⟨hholds, hkept⟩ := hkept e rfl hholds
    obtain ⟨hnoTask, hnoTurn⟩ := h hchannel hholds
    refine ⟨fun htasked => ?_, fun hnew => hnoTurn ((hkept hchannel).2 hnew)⟩
    exact ((hkept hchannel).1 htasked).elim hnoTask hnoTurn

theorem Fenced.next (h : Fenced s) (hdrawn : s.db.drawn ≤ t.db.drawn)
    (hevents : ∀ w e, (t.workers w).event? = some e → (s.workers w).event? = some e)
    (hsound : ∀ w, Sound t (t.workers w)) : Fenced t where
  token := fun w e he => by
    obtain ⟨token, hlt, hclaim⟩ := h.token w e (hevents w e he)
    exact ⟨token, hlt.trans_le hdrawn, hclaim⟩
  apart := fun v w e e' he he' => h.apart v w e e' (hevents v e he) (hevents w e' he')
  sound := hsound

variable {w : ℕ} {e : EventRow}

theorem event?_goto {v : ℕ} (hstage : stage.event? = (s.workers w).event?)
    (he : ((s.goto w stage).workers v).event? = some e) : (s.workers v).event? = some e := by
  rw [workers_goto] at he
  split at he
  · rename_i hv
    rwa [hv, ← hstage]
  · exact he

theorem Fenced.goto (h : Fenced s) (hstage : stage.event? = (s.workers w).event?) (hsound : Sound s stage) :
    Fenced (s.goto w stage) := by
  refine h.next le_rfl (fun v e => event?_goto hstage) fun v => ?_
  rw [workers_goto]
  split
  · exact hsound
  · exact h.sound v

theorem Fenced.key_ne (h : Fenced s) {v : ℕ} {e' : EventRow} (hv : (s.workers v).event? = some e)
    (hw : (s.workers w).event? = some e') (hvw : v ≠ w) (hholds : Holds s e) (hholds' : Holds s e') :
    e.key ≠ e'.key := by
  intro hkey
  unfold Holds at hholds hholds'
  rw [hkey, hholds'] at hholds
  exact hvw (h.apart v w e e' hv hw hholds.symm)

/-- What others submit under an outbound channel is the reply of a turn. -/
theorem turned_of_offRoute {op : Op} {k : String × String × String}
    (hop : offRoute s.turns op = true) (hkey : op.key? = some k)
    (hchannel : k.2.1 ∈ outboundChannels) : Turned s k := by
  cases op with
  | submit env tenant channel eventKey agent steps actor =>
    obtain rfl := Option.some.inj hkey
    simp only [offRoute, Bool.or_eq_true, Bool.not_eq_true', List.any_eq_true,
      decide_eq_true_eq] at hop
    rcases hop with hnot | hturned
    · rw [List.contains_iff_mem.2 hchannel] at hnot
      cases hnot
    · exact hturned
  | operatorReply env tenant channel conversationId text actor role key agent =>
    obtain rfl := Option.some.inj hkey
    exact absurd hchannel (show operatorChannel ∉ outboundChannels by decide)
  | _ => cases hkey

/-- An outcome written under a claim that holds is not the outcome of another worker's event. -/
theorem Fenced.route (h : Fenced s) {check env : Env} {plan : Plan}
    (he : Effect P s (.route w check (.ok plan) env) t) (hw : s.workers w = .planning e) (hholds : Holds s e)
    (hworkers : t.workers = (s.goto w stage).workers) (hevents : t.db.events = s.db.events)
    (hdrawn : s.db.drawn ≤ t.db.drawn) (hstage : stage.event? = some e) (hsound : Sound t stage) :
    Fenced t := by
  have hevent : (s.workers w).event? = some e := by rw [hw]; rfl
  refine h.next hdrawn (fun v e' he' => ?_) fun v => ?_
  · rw [hworkers] at he'
    exact event?_goto (hstage.trans hevent.symm) he'
  · rw [hworkers, workers_goto]
    split
    · exact hsound
    · rename_i hvw
      refine (h.sound v).later (fun k => he.turned) fun e' he' hholds' => ?_
      have hholds' : Holds s e' := (claimOf_congr hevents _).symm.trans hholds'
      have hkey : e'.key ≠ e.key := h.key_ne he' hevent hvw hholds' hholds
      have hother : ∀ {w' check' env' plan' x}, Label.route w check (.ok plan) env =
          .route w' check' (.ok plan') env' → s.workers w' = .planning x → x.key ≠ e'.key := by
        rintro w' check' env' plan' x hl hx hk
        cases hl
        rw [hw] at hx
        cases hx
        exact hkey hk.symm
      refine ⟨hholds', fun _ => ⟨fun htasked => ?_, fun hturned => ?_⟩⟩
      · rcases he.tasked_cases htasked with hold | ⟨-, ⟨_, _, _, _, _, hl, hx, -, hk⟩ | ⟨op, hl, -⟩⟩
        · exact .inl hold
        · exact absurd hk (hother hl hx)
        · cases hl
      · rcases he.turned_cases hturned with hold | ⟨_, _, _, _, _, hl, hx, -, hk, -⟩
        · exact hold
        · exact absurd hk (hother hl hx)

/-- The claims stay sound while outcomes are written under claims that hold. -/
theorem Effect.fenced (hi : Inv s) (h : Fenced s) (he : Effect P s l t) (hheld : Held s l) :
    Fenced t := by
  have hsame := he
  cases he with
  | same => exact h
  | @aside _ db quota workers htasks hsteps hdrawn hclaims hworkers =>
    have hevents : ∀ w e, (workers w).event? = some e → (s.workers w).event? = some e := by
      intro w e he
      rcases hworkers w with hw | hw
      · rwa [hw] at he
      · rw [hw] at he
        cases he
    refine h.next hdrawn.ge hevents fun w => ?_
    change Sound _ (workers w)
    rcases hworkers w with hw | hw
    · rw [hw]
      refine (h.sound w).later (fun k => hsame.turned) fun e he hholds => ?_
      obtain ⟨token, -, hclaim⟩ := h.token w e he
      refine ⟨(hclaims _ _ (hholds.trans hclaim)).trans hclaim.symm,
        fun _ => ⟨fun htasked => .inl ?_, fun hturned => hturned⟩⟩
      change e.key ∈ db.tasks.map TaskRow.key at htasked
      rwa [htasks] at htasked
    · rw [hw]
      trivial
  | @claimed _ w e db hclaim htasks hsteps hdrawn hclaims =>
    have hold : ∀ v x, v ≠ w → ((State.goto { s with db := db } w (.claimed e)).workers v).event? =
        some x → (s.workers v).event? = some x := by
      intro v x hv hx
      rwa [workers_goto, if_neg hv] at hx
    have hnew : ∀ x, ((State.goto { s with db := db } w (.claimed e)).workers w).event? = some x →
        x.claim = some s.db.drawn := by
      intro x hx
      rw [workers_goto, if_pos rfl] at hx
      obtain rfl := Option.some.inj hx
      exact hclaim
    have holder : ∀ v x, (s.workers v).event? = some x → x.claim ≠ some s.db.drawn := by
      intro v x hx heq
      obtain ⟨token, hlt, htoken⟩ := h.token v x hx
      exact hlt.ne (Option.some.inj (htoken.symm.trans heq))
    refine ⟨fun v x hx => ?_, fun v v' x x' hx hx' hxx' => ?_, fun v => ?_⟩
    · by_cases hv : v = w
      · subst hv
        exact ⟨s.db.drawn, hdrawn ▸ Nat.lt_succ_self _, hnew x hx⟩
      · obtain ⟨token, hlt, htoken⟩ := h.token v x (hold v x hv hx)
        exact ⟨token, hlt.trans (hdrawn ▸ Nat.lt_succ_self _), htoken⟩
    · by_cases hv : v = w
      · subst hv
        by_contra hvv'
        exact holder v' x' (hold v' x' (Ne.symm hvv') hx') (hxx' ▸ hnew x hx)
      · by_cases hv' : v' = w
        · subst hv'
          exact absurd (hxx'.trans (hnew x' hx')) (holder v x (hold v x hv hx))
        · exact h.apart v v' x x' (hold v x hv hx) (hold v' x' hv' hx') hxx'
    · rw [workers_goto]
      split
      · trivial
      · refine (h.sound v).later (fun k => hsame.turned) fun x hx hholds => ?_
        obtain ⟨token, hlt, htoken⟩ := h.token v x hx
        rcases hclaims _ _ (hholds.trans htoken) with ⟨-, rfl⟩ | hclaims
        · exact absurd rfl hlt.ne
        · refine ⟨hclaims.trans htoken.symm, fun _ => ⟨fun htasked => .inl ?_, fun hturned => hturned⟩⟩
          change x.key ∈ db.tasks.map TaskRow.key at htasked
          rwa [htasks] at htasked
  | @looked _ w e hw hnone =>
    refine h.goto (by rw [hw]; rfl) fun _ _ htasked => absurd htasked hnone
  | @planned _ w e hw hnone =>
    have hsound := h.sound w
    rw [hw] at hsound
    refine h.goto (by rw [hw]; rfl) fun hchannel hholds => ⟨fun htasked => ?_, hnone⟩
    exact hnone (hsound hchannel hholds htasked)
  | settled hw => exact h.goto hw.symm trivial
  | @submitted w check env plan e steps actor db id hw hplan hsubmit =>
    have hdb := submit_effect hsubmit
    have hevents : db.events = s.db.events := by
      rcases hdb.events with heq | ⟨_, _, _, hop⟩
      · exact heq
      · cases hop
    exact h.route hsame hw (hheld _ (writes_route hw)) rfl hevents
      (hdb.moves hi.orderly.wf hi.orderly.placed).drawn_le rfl trivial
  | recorded hw hplan hturns =>
    exact h.route hsame hw (hheld _ (writes_route hw)) rfl rfl le_rfl rfl trivial
  | @engine op hop =>
    obtain ⟨out, hdb⟩ := engine_effect P s.db op
    have hevents : (s.db.after P op).events = s.db.events := by
      rcases hdb.events with heq | ⟨_, _, _, rfl⟩
      · exact heq
      · cases hop
    refine h.next (hdb.moves hi.orderly.wf hi.orderly.placed).drawn_le (fun w e he => he) fun w => ?_
    refine (h.sound w).later (fun k => hsame.turned) fun e he hholds => ?_
    refine ⟨(claimOf_congr hevents _).symm.trans hholds, fun hchannel => ⟨fun htasked => ?_,
      fun hturned => hturned⟩⟩
    rcases hdb.mem_keys htasked with hold | hkey
    · exact .inl hold
    · exact .inr (turned_of_offRoute hop hkey hchannel)
  | conversed =>
    refine h.next le_rfl (fun w e he => he) fun w => ?_
    refine (h.sound w).later (fun k => hsame.turned) fun e he hholds => ⟨hholds, fun _ => ⟨.inl,
      fun hturned => ?_⟩⟩
    obtain ⟨u, hu, hk⟩ := hturned
    obtain ⟨u', hu', rfl⟩ := List.mem_map.1 hu
    exact ⟨u', hu', hk⟩

theorem Fenced.fresh (h : Fenced s) (hheld : Held s l) : Fresh s l := by
  rintro ⟨e, plan⟩ hx hchannel
  have hholds := hheld _ hx
  have hplanning : ∃ w, s.workers w = .planning e := by
    unfold State.writes at hx
    split at hx
    · split at hx
      · obtain ⟨rfl, -⟩ := Prod.mk.inj (Option.some.inj hx)
        exact ⟨_, ‹_›⟩
      · cases hx
    · cases hx
  obtain ⟨w, hw⟩ := hplanning
  have hsound := h.sound w
  rw [hw] at hsound
  obtain ⟨hnoTask, hnoTurn⟩ := hsound hchannel hholds
  split
  · exact fun hturned => absurd hturned hnoTurn
  · exact fun htasked => absurd htasked hnoTask

/-- **One outcome for each event.** In every run of the routing workers with everybody else, whatever
the planners answer and whenever leases run out: a key has at most one task and at most one turn. If no
worker writes over an outcome of the other kind, a key that has both got its task as the reply of its
turn, from outside the routing; so it is in a run whose outcomes are written while the claim still
holds the event. -/
theorem one_outcome {τs : List (Transition State Label)} (h : Run (Step P) {} τs s) :
    (∀ a ∈ s.db.tasks, ∀ b ∈ s.db.tasks, a.key = b.key → a = b) ∧
    (∀ a ∈ s.turns, ∀ b ∈ s.turns, a.key = b.key → a = b) ∧
    ((∀ τ ∈ τs, Fresh τ.src τ.label) → ∀ k, Tasked s k → Turned s k → ∃ τ ∈ τs, Replied τ k) ∧
    ((∀ τ ∈ τs, Held τ.src τ.label) → ∀ τ ∈ τs, Fresh τ.src τ.label) := by
  have hstep : ∀ s l t, Inv s → Step P s l t → Inv t := fun _ _ _ hi hs => hs.effect.inv hi
  have hinv : Inv s := h.invariant inv_empty hstep
  refine ⟨fun a ha b hb hk => List.inj_on_of_nodup_map hinv.keys ha hb hk,
    fun a ha b hb hk => hinv.turns.eq_of_key ha hb hk, fun hfresh k htask hturn => ?_,
    fun hheld τ hτ => ?_⟩
  · have hrun := (h.guard hfresh).strengthen inv_empty fun s l t hi hs => hstep s l t hi hs.1
    refine hrun.since (p := fun s => Tasked s k ∧ Turned s k) (fun hnone => ?_)
      (fun s l t hs ht => hs.1.1.effect.both hs.2 hs.1.2 ht) ⟨htask, hturn⟩
    obtain ⟨u, hu, -⟩ := hnone.2
    cases hu
  · have hrun : Run (guarded Held (Step P)) {} τs s := h.guard hheld
    obtain ⟨hs, hi, hf⟩ := hrun.always (I := fun s => Inv s ∧ Fenced s) ⟨inv_empty, fenced_empty⟩
      (fun s l t hi hs => ⟨hstep s l t hi.1 hs.1, hs.1.effect.fenced hi.1 hi.2 hs.2⟩) hτ
    exact hf.fresh hs.2

end Fences

/-! ### Two sample runs -/

def samplePayload : Json :=
  .obj [("conversation_id", .str "42"), ("sender", .str "ann"), ("text", .str "hello")]

/-- An event of the sample conversation, claimed and looked up by worker `w`. -/
def sampleClaims (w second : ℕ) : List Label :=
  [.claim w (sampleEnv second) "acme" none [], .lookTask w, .lookTurn w]

/-- The planner of worker `w` chooses a turn, or one step without one. -/
def sampleRoute (w second : ℕ) (turn : Bool) : Label :=
  .route w (sampleEnv second)
    (.ok ⟨"clerk", if turn then none else some [.obj [("tool", .str "note")]]⟩) (sampleEnv second)

def sampleAccept : Label := .accept (sampleEnv 0) "acme" "telegram" "k1" samplePayload

/-- The state after some labels. -/
def sampleState (ls : List Label) : State := ls.foldl (State.after samplePlatform) {}

/-- Their run. -/
def sampleRun (ls : List Label) : List (Transition State Label) :=
  trace (State.after samplePlatform) {} ls

/-- One worker routes the event to a turn, whose reply is then submitted. -/
def repliedLabels : List Label :=
  sampleAccept :: sampleClaims 1 0 ++ [sampleRoute 1 1 true, .mark 1,
    .engine (.submit (sampleEnv 2) "acme" "telegram" "k1" "clerk" [.obj [("tool", .str "note")]] "ann")]

theorem one_outcome_sample :
    Tasked (sampleState repliedLabels) ("acme", "telegram", "k1") ∧
    Turned (sampleState repliedLabels) ("acme", "telegram", "k1") ∧
      ∃ τ ∈ sampleRun repliedLabels, Replied τ ("acme", "telegram", "k1") := by
  have htask : Tasked (sampleState repliedLabels) ("acme", "telegram", "k1") := by decide +kernel
  have hturn : Turned (sampleState repliedLabels) ("acme", "telegram", "k1") := by decide +kernel
  have hheld : ∀ τ ∈ sampleRun repliedLabels, Held τ.src τ.label := by decide +kernel
  obtain ⟨-, -, hone, hfresh⟩ := one_outcome (P := samplePlatform) (Run.nil.calls repliedLabels)
  exact ⟨htask, hturn, hone (hfresh hheld) _ htask hturn⟩

/-- Worker 2 claims the event after the lease of worker 1 ran out and routes it to a task; worker 1,
which had looked the event up before, routes it to a turn. -/
def overtakenLabels : List Label :=
  sampleAccept :: sampleClaims 1 0 ++ sampleClaims 2 121 ++
    [sampleRoute 2 122 false, sampleRoute 1 123 true]

/-- The routing workers alone leave an event with a task and a turn. -/
theorem two_outcomes :
    ∃ τs s k, Run (Step samplePlatform) {} τs s ∧ (∀ τ ∈ τs, ∀ op, τ.label ≠ .engine op) ∧
      Tasked s k ∧ Turned s k := by
  refine ⟨_, _, ("acme", "telegram", "k1"), Run.nil.calls (f := State.after samplePlatform)
    overtakenLabels, fun τ hτ op hop => ?_, by decide +kernel, by decide +kernel⟩
  have hlabels : ∀ l ∈ overtakenLabels, ∀ op, l ≠ .engine op := by
    simp [overtakenLabels, sampleClaims, sampleRoute, sampleAccept]
  exact hlabels _ (label_of_mem_trace hτ) op hop

end AgentPlatform.Routing
