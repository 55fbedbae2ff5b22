import AgentPlatform.Conversation.Turns
import AgentPlatform.Lib.Runs

/-!
# Routing inbound events

`accept_event`, `claim_event`, `settle_event` and `retry_event`. `settle_event` is a program of several
transactions with the planner between them: a worker's `Stage` is the point it has reached, with the
event it claimed. Since a label names its worker, every interleaving of any number of workers is a run
of `Step`; the planner's answers are inputs of the labels that read them.
-/

namespace AgentPlatform.Routing

open Outcome Engine Conversation

/-- A row of `p_quota`. -/
structure QuotaRow where
  tenant : String
  day : ℤ
  count : ℕ

/-- What the planner answers: an agent, and the steps of a one-shot plan unless it chose a turn. -/
structure Plan where
  agent : String
  steps : Option (List Json)

end AgentPlatform.Routing

namespace AgentPlatform.Engine

/-- The primary key of an event. -/
def EventRow.key (e : EventRow) : String × String × String := (e.tenant, e.channel, e.eventKey)

end AgentPlatform.Engine

namespace AgentPlatform.Routing

open Outcome Engine Conversation

/-- `EVENT_LEASE_SECONDS`. -/
def eventLeaseSeconds : ℤ := 120

/-- What `settle_event` does next with the event it claimed. -/
inductive Stage
  | idle
  /-- The event was claimed; the lookup of its task comes next. -/
  | claimed (event : EventRow)
  /-- No task was found; the lookup of its turn comes next. -/
  | noTask (event : EventRow)
  /-- No turn was found either; the planner runs, and its outcome is written next. -/
  | planning (event : EventRow)
  /-- The outcome is known; marking the event comes next. -/
  | settled (event : EventRow) (result : Except Err EventResult)

/-- The database, the turns, and where every worker stands. -/
structure State where
  db : Db := {}
  turns : List TurnRow := []
  quota : List QuotaRow := []
  workers : ℕ → Stage := fun _ => .idle

/-- An actor, as the authority directory is asked about it. -/
def actorText : Json → String
  | .str s => s
  | value => value.encode

/-- `event_error`. -/
def eventError (e : Err) : String :=
  match e with
  | .conflict m | .forbidden m | .notFound m | .rateLimited m =>
    truncate 200 (e.typeName ++ ": " ++ m)
  | _ => e.typeName

/-! ### The transactions -/

/-- `accept_event`. -/
def acceptEvent (P : Platform) (env : Env) (s : State) (tenant channel eventKey : String)
    (payload : Json) : Except Err (State × Bool) := do
  ensure ([tenant, channel, eventKey].all isIdentity = true) (.valueError "Invalid event identity")
  ensure (payload.isDict = true) (.valueError "Event payload must be an object")
  ensure (payload.encode.length ≤ 20000) (.valueError "Event too large")
  let fingerprint := digest P.sha256 payload
  env.requireAuthority tenant channel (actorText (payload.getD "sender" (.str "")))
  match s.db.event? tenant channel eventKey with
  | some r => do
    ensure (r.fingerprint = fingerprint) (.conflict "Conflicting event replay")
    pure (s, true)
  | none => do
    env.requireActive s.db tenant
    let day := env.now / seconds 86400
    let today := fun q : QuotaRow => decide (q.tenant = tenant) && decide (q.day = day)
    ensure (s.db.events.countP (fun e => decide (e.tenant = tenant) &&
        (decide (e.status = .pending) || decide (e.status = .processing))) < 1000 ∧
      (s.quota.find? today).all (fun q => decide (q.count < 10000)) = true)
      (.rateLimited "Tenant inbox quota exhausted")
    pure ({ s with
      quota := if s.quota.any today then
          Table.update today (fun q => { q with count := q.count + 1 }) s.quota
        else s.quota ++ [⟨tenant, day, 1⟩]
      db := { s.db with
        events := s.db.events ++ [⟨tenant, channel, eventKey, fingerprint, payload, .pending, none, 0,
          .none, ""⟩] } }, false)

/-- Whether `next_event_sql` selects an event. -/
def claimable (tenant : String) (now : Time) (channels : Option (List String)) (skip : List String)
    (e : EventRow) : Bool :=
  decide (e.tenant = tenant) &&
    (decide (e.status = .pending) || (decide (e.status = .processing) && decide (e.lease ≤ now))) &&
      channels.all (fun cs => cs.contains e.channel) && !skip.contains e.channel

/-- `claim_event`. -/
def claimEvent (env : Env) (db : Db) (tenant : String) (channels : Option (List String))
    (skip : List String) : Option (Db × EventRow) :=
  if channels = some [] ∨ db.frozen tenant = true then none
  else
    (db.events.find? (claimable tenant env.now channels skip)).map fun e =>
      let lease := env.now + seconds eventLeaseSeconds
      let take := fun r : EventRow =>
        { r with status := .processing, claim := some db.drawn, lease := lease }
      ({ db with
        events := Table.update (fun r => r.key = e.key) take db.events
        drawn := db.drawn + 1 }, take e)

/-- The last write of `settle_event`. -/
def markEvent (db : Db) (e : EventRow) (result : Except Err EventResult) : Db :=
  { db with
    events := Table.update (fun r => decide (r.key = e.key) && decide (r.claim = e.claim))
      (fun r =>
        match result with
        | .ok outcome => { r with status := .done, result := outcome, error := "", claim := none, lease := 0 }
        | .error err =>
          { r with status := .failed, result := .none, error := eventError err, claim := none
                   lease := 0 }) db.events }

/-- `retry_event`. -/
def retryEvent (env : Env) (db : Db) (tenant channel eventKey actor : String) : Except Err Db := do
  env.requireActive db tenant
  env.requireAuthority tenant "web" actor
  match db.event? tenant channel eventKey with
  | some e => env.requireAuthority tenant channel (actorText (e.payload.getD "sender" (.str "")))
  | none => pure ()
  let failed := fun e : EventRow =>
    decide (e.key = (tenant, channel, eventKey)) && decide (e.status = .failed)
  ensure (db.events.any failed = true) (.conflict "Only failed events can be retried")
  pure { db with
    events := Table.update failed (fun e => { e with status := .pending, error := "" }) db.events }

/-- The outcome of a planned event: its plan is submitted, or its turn is recorded. -/
def route (P : Platform) (check : Env) (plan : Except Err Plan) (env : Env) (s : State)
    (e : EventRow) : Except Err (State × EventResult) := do
  let sender := e.payload.getD "sender" (.str "")
  check.requireAuthority e.tenant e.channel (actorText sender)
  let plan ← plan
  match plan.steps with
  | some steps =>
    match e.payload.getD "sender" (.str "event") with
    | .str actor => do
      let (db, id) ← submit P env s.db e.tenant e.channel e.eventKey plan.agent steps actor
      pure ({ s with db := db }, .task id)
    | _ => .error (.valueError "Invalid identity")
  | none => do
    let turns ← recordTurn env s.turns e.tenant e.channel e.eventKey plan.agent e.payload
    pure ({ s with turns := turns }, .turn e.eventKey)

/-! ### Workers in any interleaving -/

/-- One statement of a worker, one crash, or one call of somebody else. -/
inductive Label
  | accept (env : Env) (tenant channel eventKey : String) (payload : Json)
  | claim (worker : ℕ) (env : Env) (tenant : String) (channels : Option (List String))
      (skip : List String)
  | lookTask (worker : ℕ)
  | lookTurn (worker : ℕ)
  | route (worker : ℕ) (check : Env) (plan : Except Err Plan) (env : Env)
  | mark (worker : ℕ)
  | crash (worker : ℕ)
  | retry (env : Env) (tenant channel eventKey actor : String)
  /-- An operation of the engine by anyone. -/
  | engine (op : Op)
  /-- Any change of the agent loop's tables. -/
  | loop (runs : List AgentRunRow) (agentTurns : List AgentTurnRow)
  /-- Any change of the status of the turns by the conversation workers. -/
  | converse (status : TurnRow → TurnStatus)

/-- What others than the routing workers may do: on the outbound channels they submit nothing but the
reply of a recorded turn, which `_deliver` submits under the key of the event. -/
def offRoute (turns : List TurnRow) : Op → Bool
  | .submit _ tenant channel eventKey .. =>
    !outboundChannels.contains channel || turns.any fun u => u.key = (tenant, channel, eventKey)
  | .elsewhere .. => false
  | _ => true

namespace State

/-- Moves a worker. -/
def goto (s : State) (worker : ℕ) (stage : Stage) : State :=
  { s with workers := Function.update s.workers worker stage }

/-- The state after a label; a label whose worker stands elsewhere changes nothing. -/
def after (P : Platform) (s : State) : Label → State
  | .accept env tenant channel eventKey payload =>
    commit s (acceptEvent P env s tenant channel eventKey payload)
  | .claim w env tenant channels skip =>
    match s.workers w, claimEvent env s.db tenant channels skip with
    | .idle, some (db, e) => { s with db := db }.goto w (.claimed e)
    | _, _ => s
  | .lookTask w =>
    match s.workers w with
    | .claimed e =>
      match s.db.taskOf? e.tenant e.channel e.eventKey with
      | some t => s.goto w (.settled e (.ok (.task t.id)))
      | none => s.goto w (.noTask e)
    | _ => s
  | .lookTurn w =>
    match s.workers w with
    | .noTask e =>
      if s.turns.any fun u => u.key = e.key then s.goto w (.settled e (.ok (.turn e.eventKey)))
      else s.goto w (.planning e)
    | _ => s
  | .route w check plan env =>
    match s.workers w with
    | .planning e =>
      match Routing.route P check plan env s e with
      | .ok (s, result) => s.goto w (.settled e (.ok result))
      | .error err => s.goto w (.settled e (.error err))
    | _ => s
  | .mark w =>
    match s.workers w with
    | .settled e result => { s with db := markEvent s.db e result }.goto w .idle
    | _ => s
  | .crash w => s.goto w .idle
  | .retry env tenant channel eventKey actor =>
    match retryEvent env s.db tenant channel eventKey actor with
    | .ok db => { s with db := db }
    | .error _ => s
  | .engine op => if offRoute s.turns op then { s with db := s.db.after P op } else s
  | .loop runs agentTurns => { s with db := { s.db with runs := runs, agentTurns := agentTurns } }
  | .converse status => { s with turns := s.turns.map fun u => { u with status := status u } }

end State

/-- One label. -/
def Step (P : Platform) (s : State) (l : Label) (t : State) : Prop := t = s.after P l

end AgentPlatform.Routing
