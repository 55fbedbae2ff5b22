import AgentPlatform.Engine.Operations
import AgentPlatform.Lib.Runs

/-!
# The agent loop

`AgentLoop`: a run is planned one decision at a time, each decision either one ordinary task of the
engine, an answer, or a question. Reserving a planner call (`reserve`), calling the planner and
committing its decision (`commitDecision`) are separate transactions; `plan` is the program between
them, and a planner's `Stage` is the point it has reached. Since a label names its planner, every
interleaving of any number of planners is a run of `Step`.

The engine reads a part of the columns of `p_agent_runs` and `p_agent_turns`; `State.view` is the
database it sees.
-/

namespace AgentPlatform.Agent

open Outcome Engine

/-- A row of `p_agent_runs`. -/
structure RunRow extends AgentRunRow where
  requestKey : String
  fingerprint : String
  agent : String
  actor : String
  input : String
  maxSteps : ℕ
  maxCalls : ℕ
  calls : ℕ := 0
  steps : ℕ := 0
  answer : String := ""
  evidence : List String := []
  channel : String

/-- A row of `p_agent_turns`. -/
structure TurnRow extends AgentTurnRow where
  position : ℕ
  actionFingerprint : String

/-- One successful step, as the planner is told about it. -/
structure Observation where
  evidenceId : String
  taskId : Uuid
  tool : String
  arguments : Json
  result : Json

/-- What the planner is told. -/
structure Context where
  runId : Uuid
  agent : String
  input : String
  channel : String
  callIndex : ℕ
  remainingSteps : ℕ
  remainingCalls : ℕ
  observations : List Observation
  /-- The rejected decision of a repair call, with the reason. -/
  repair : Option (Json × String) := none

/-- A reserved planner call. -/
structure Reservation where
  tenant : String
  run : Uuid
  claim : Uuid
  context : Context
  repairs : ℕ

/-- What `plan` does next. -/
inductive Stage
  | idle
  /-- A call is reserved; the dispatch check comes next. -/
  | reserved (r : Reservation)
  /-- The check passed; the planner is called next. -/
  | cleared (r : Reservation)
  /-- The planner has answered; its decision is committed next. -/
  | answered (r : Reservation) (decision : Json)
  /-- The check failed, or the planner raised; the failure is committed next, and once more where that
  raises inside the `try` of the check. -/
  | refused (r : Reservation) (again : Bool)

/-- The engine's database, the loop's tables, and where every planner stands. `minted` counts the
identifiers of runs and the planners' claims. -/
structure State where
  db : Db := {}
  runs : List RunRow := []
  turns : List TurnRow := []
  minted : Uuid := 0
  planners : ℕ → Stage := fun _ => .idle

def dashboardChannel : String := "agent"

def maxStepsBound : ℕ := 12

def maxSecondsBound : ℤ := 86400

def maxObservationBytes : ℕ := 12000

def maxHistoryBytes : ℕ := 48000

def plannerLeaseSeconds : ℤ := 180

def maxDecisionRepairs : ℕ := 1

/-- `status in ACTIVE`. -/
def active : RunStatus → Bool
  | .pending | .planning | .waitingTask => true
  | _ => false

/-- The text of a task's status. -/
def statusText : Status → String
  | .queued => "queued"
  | .waiting => "waiting_approval"
  | .running => "running"
  | .succeeded => "succeeded"
  | .failed => "failed"
  | .uncertain => "uncertain"
  | .cancelled => "cancelled"

/-- The hexadecimal text of an identifier. -/
def hex (id : Uuid) : String := toString id

/-- `'step:' + id`. -/
def evidenceId (step : Uuid) : String := "step:" ++ hex step

namespace State

/-- The database the engine sees. -/
def view (s : State) : Db :=
  { s.db with
    runs := s.runs.map RunRow.toAgentRunRow
    agentTurns := s.turns.map TurnRow.toAgentTurnRow }

/-- `_row`. -/
def row? (s : State) (tenant : String) (run : Uuid) : Option RunRow :=
  s.runs.find? fun r => decide (r.tenant = tenant) && decide (r.id = run)

/-- `UPDATE p_agent_runs SET f WHERE tenant=? AND id=?`. -/
def setRun (s : State) (row : RunRow) (f : RunRow → RunRow) : State :=
  { s with
    runs := Table.update (fun r => decide (r.tenant = row.tenant) && decide (r.id = row.id)) f s.runs }

/-- The last write of `_stop`. -/
def endRun (s : State) (row : RunRow) (status : RunStatus) (reason : String) : State :=
  s.setRun row fun r =>
    { r with status := status, error := reason, claim := none, lease := 0 }

/-- `_stop`. -/
def stop (s : State) (row : RunRow) (status : RunStatus) (reason : String)
    (actor : String := "agent-loop") : State :=
  match row.currentTask with
  | none => s.endRun row status reason
  | some task =>
    match s.view.linked? row.toAgentRunRow task with
    | none => s.endRun row .escalated "run_task_link_invalid"
    | some linked =>
      let (db, status) := stopTask s.view row.tenant task linked status reason actor
      { s with db := db }.endRun row status reason

end State

/-! ### Creating and cancelling a run -/

/-- `create`. -/
def create (P : Platform) (env : Env) (s : State) (tenant key agent text actor : String)
    (maxSteps maxSeconds : ℤ) (channel : String) : Except Err (State × Uuid) := do
  ensure (([(tenant, 64), (key, 256), (agent, 128), (actor, 128), (channel, 32)].all fun v =>
    !isBlank v.1 && decide (v.1.length ≤ v.2)) = true) (.valueError "Invalid run identity")
  ensure (isBlank text = false ∧ text.length ≤ 4000)
    (.valueError "Run input must contain 1..4000 characters")
  ensure (1 ≤ maxSteps ∧ maxSteps ≤ maxStepsBound) (.valueError "Invalid step budget")
  ensure (60 ≤ maxSeconds ∧ maxSeconds ≤ maxSecondsBound) (.valueError "Invalid time budget")
  let policy ← env.policy tenant agent
  ensure ((["human_led", "human_assisted", "autonomous"].any fun l =>
    (policy.getD "ladder" .null).isText l) = true) (.forbidden "Agent policy unavailable")
  let request := [("agent", Json.str agent), ("input", .str text), ("actor", .str actor),
    ("max_steps", .int maxSteps), ("max_seconds", .int maxSeconds)]
  let fingerprint := digest P.sha256 (.obj (if channel = dashboardChannel then request
    else request ++ [("channel", .str channel)]))
  env.requireAuthority tenant channel actor
  match s.runs.find? fun r => decide (r.tenant = tenant) && decide (r.requestKey = key) with
  | some old => do
    ensure (old.fingerprint = fingerprint) (.conflict "Run key reused with different input")
    pure (s, old.id)
  | none => do
    env.requireActive s.view tenant
    ensure (s.runs.countP (fun r => decide (r.tenant = tenant) && active r.status) < 100)
      (.rateLimited "Agent run queue full")
    pure ({ s with
      minted := s.minted + 1
      runs := s.runs ++ [
        { id := s.minted, tenant := tenant, status := .pending, deadline := env.now + seconds maxSeconds
          currentTask := none, claim := none, lease := 0, error := "", requestKey := key
          fingerprint := fingerprint, agent := agent, actor := actor, input := text
          maxSteps := maxSteps.toNat, maxCalls := maxSteps.toNat + 1, channel := channel }] },
      s.minted)

/-- `cancel`. -/
def cancel (env : Env) (s : State) (tenant : String) (run : Uuid) (actor : String) :
    Except Err (State × Unit) := do
  env.requireAuthority tenant "web" actor
  let row ← need (s.row? tenant run) (.notFound "Agent run not found")
  if active row.status then pure (s.stop row .cancelled "operator_cancelled" actor, ())
  else pure (s, ())

/-! ### Reserving a planner call -/

/-- The canonical dictionary of an observation. -/
def Observation.toJson (o : Observation) : Json :=
  .obj [("evidence_id", .str o.evidenceId), ("task_id", .str (hex o.taskId)), ("tool", .str o.tool),
    ("arguments", o.arguments), ("result", o.result)]

/-- A turn of a run with its task and the first step of the task. -/
structure Item where
  turn : TurnRow
  task : TaskRow
  step : StepRow

/-- The turns of a run in order, joined with their tasks and steps. -/
def items (s : State) (row : RunRow) : List Item :=
  ((s.turns.filter fun l => decide (l.tenant = row.tenant) && decide (l.run = row.id)).insertionSort
    fun l l' => l.position ≤ l'.position).filterMap fun l =>
      match s.db.tasks.find? fun t => decide (t.id = l.task) && decide (t.tenant = l.tenant) with
      | none => none
      | some t =>
        (s.db.steps.find? fun st => decide (st.task = t.id) && decide (st.tenant = t.tenant) &&
          decide (st.spec.position = 0)).map fun st => ⟨l, t, st⟩

/-- One item, as an observation. -/
def Item.observe (i : Item) : Except Err Observation := do
  ensure (i.step.status = .succeeded ∧ i.task.status = .succeeded)
    (.valueError "Only successful steps are observations")
  let o : Observation :=
    ⟨evidenceId i.step.id, i.turn.task, i.step.spec.tool, i.step.spec.args, i.step.result⟩
  ensure (o.toJson.encode.utf8ByteSize ≤ maxObservationBytes)
    (.valueError "Observation exceeds context bound")
  pure o

/-- `_observations`. -/
def observations (s : State) (row : RunRow) : Except Err (List Observation) := do
  ensure ((items s row).length = row.steps) (.valueError "Observation history incomplete")
  let obs ← (items s row).mapM Item.observe
  ensure ((Json.arr (obs.map Observation.toJson)).encode.utf8ByteSize ≤ maxHistoryBytes)
    (.valueError "Observation history exceeds context bound")
  pure obs

/-- `_context`. -/
def context (row : RunRow) (obs : List Observation) : Context :=
  ⟨row.id, row.agent, row.input, row.channel, row.calls + 1, row.maxSteps - row.steps,
    row.maxCalls - row.calls - 1, obs, none⟩

/-- What `_reserve` does with a run. -/
inductive Verdict
  | stay
  | stop (status : RunStatus) (reason : String)
  | go (obs : List Observation)

/-- What a task tells the run that waits for it; `none` where the run may go on. -/
def taskVerdict : Option TaskRow → Option Verdict
  | none => some (.stop .escalated "task_missing")
  | some t =>
    match t.status with
    | .queued | .running | .waiting => some .stay
    | .succeeded => none
    | .uncertain => some (.stop .uncertain "task_uncertain")
    | .cancelled => some (.stop .cancelled "task_cancelled")
    | .failed => some (.stop .escalated "task_failed")

/-- The checks of `_reserve`. -/
def verdict (env : Env) (s : State) (row : RunRow) : Except Err Verdict :=
  if active row.status = false then .ok .stay
  else if row.deadline ≤ env.now then .ok (.stop .escalated "wall_deadline_exceeded")
  else
    match env.requireAuthority row.tenant row.channel row.actor with
    | .error e =>
      if e.isForbidden then .ok (.stop .escalated "creator_authority_revoked") else .error e
    | .ok () =>
      if row.status = .planning then
        if row.lease ≤ env.now then .ok (.stop .escalated "planner_lease_expired_no_retry")
        else .ok .stay
      else if s.db.frozen row.tenant then .ok .stay
      else
        match if row.status = .waitingTask then
            taskVerdict (row.currentTask.bind (s.db.task? row.tenant)) else none with
        | some v => .ok v
        | none =>
          if row.maxCalls ≤ row.calls then .ok (.stop .escalated "planner_call_budget_exhausted")
          else
            match observations s row with
            | .ok obs => .ok (.go obs)
            | .error e =>
              if e.isValueError || e.isLookupError then
                .ok (.stop .escalated "observation_unavailable_or_too_large")
              else .error e

/-- `_reserve`, with the repairs the planner may make. -/
def reserve (env : Env) (s : State) (tenant : String) (run : Uuid) (repairs : ℕ) :
    Except Err (State × Option Reservation) := do
  let row ← need (s.row? tenant run) (.notFound "Agent run not found")
  match ← verdict env s row with
  | .stay => pure (s, none)
  | .stop status reason => pure (s.stop row status reason, none)
  | .go obs =>
    pure (State.setRun { s with minted := s.minted + 1 } row fun r =>
        { r with
          status := .planning, claim := some s.minted
          lease := min row.deadline (env.now + seconds plannerLeaseSeconds), calls := r.calls + 1 },
      some ⟨tenant, run, s.minted, context row obs, repairs⟩)

/-! ### Committing a decision -/

/-- A decision the platform accepts. -/
inductive Action
  | tool (name : String) (args : Json)
  | final (answer : String) (evidence : List String)
  | ask (question : String)

/-- `set(decision) == keys`. -/
def hasKeys (decision : Json) (keys : List String) : Bool :=
  (decision.members.all fun m => keys.contains m.1) &&
    keys.all fun key => decision.members.any fun m => m.1 = key

/-- The texts of a list of texts. -/
def texts : List Json → Option (List String)
  | [] => some []
  | .str text :: rest => (texts rest).map (text :: ·)
  | _ :: _ => none

/-- `_decision`. -/
def decision (P : Platform) (env : Env) (row : RunRow) (obs : List Observation) (d : Json) :
    Except Err Action := do
  ensure (d.isDict = true ∧ d.encode.utf8ByteSize ≤ 20000) (.valueError "Invalid decision object")
  if (d.getD "action" .null).isText "tool" then do
    ensure (hasKeys d ["action", "tool", "args"] = true) (.valueError "Invalid tool decision fields")
    match d.getD "tool" .null, d.getD "args" .null with
    | .str name, .obj members => do
      ensure (row.steps < row.maxSteps) (.valueError "Step budget exhausted")
      ensure (row.channel = dashboardChannel ∨ isOutboundTool name = false)
        (.forbidden "Conversation turn cannot send mid-loop")
      let tool ← P.registry.get name
      ensure (tool.runner = false) (.forbidden "Agent loop cannot plan local device actions")
      let _ ← validated P env row.tenant row.agent
        [.obj [("tool", .str name), ("args", .obj members)]]
      pure (.tool name (.obj members))
    | _, _ => .error (.valueError "Invalid tool decision values")
  else if (d.getD "action" .null).isText "final" then do
    ensure (hasKeys d ["action", "answer", "evidence_ids"] = true)
      (.valueError "Invalid final decision fields")
    match d.getD "answer" .null with
    | .str answer => do
      ensure (isBlank answer = false ∧ answer.length ≤ 8000) (.valueError "Invalid final answer")
      match d.getD "evidence_ids" .null with
      | .arr values => do
        let evidence ← need (texts values)
          (.valueError "Final answer must reference actual successful observations")
        ensure ((1 ≤ evidence.length ∧ evidence.length ≤ maxStepsBound) ∧
            (∀ e ∈ evidence, e ∈ obs.map Observation.evidenceId) ∧ evidence.Nodup)
          (.valueError "Final answer must reference actual successful observations")
        pure (.final answer evidence)
      | _ => .error (.valueError "Final answer must reference actual successful observations")
    | _ => .error (.valueError "Invalid final answer")
  else if (d.getD "action" .null).isText "ask" then do
    ensure (hasKeys d ["action", "question"] = true) (.valueError "Invalid question fields")
    match d.getD "question" .null with
    | .str question => do
      ensure (isBlank question = false ∧ question.length ≤ 1000)
        (.valueError "Invalid clarification question")
      pure (.ask question)
    | _ => .error (.valueError "Invalid clarification question")
  else .error (.valueError "Unsupported decision action")

/-- The event key of the task of a run's next step. -/
def taskKey (row : RunRow) : String := "agent-run:" ++ hex row.id ++ ":" ++ toString row.steps

/-- The writes of an accepted decision. -/
def perform (P : Platform) (env : Env) (s : State) (row : RunRow) : Action → Except Err State
  | .tool name args => do
    let fingerprint := digest P.sha256 (.obj [("tool", .str name), ("args", args)])
    ensure ((s.turns.any fun l => decide (l.tenant = row.tenant) && decide (l.run = row.id) &&
      decide (l.actionFingerprint = fingerprint)) = false)
      (.valueError "Repeated identical action blocked")
    let (db, task) ← submit P env s.view row.tenant row.channel (taskKey row) row.agent
      [.obj [("tool", .str name), ("args", args)]] row.actor
    -- the primary key and the UNIQUE constraint of `p_agent_turns`
    ensure ((s.turns.any fun l => decide (l.run = row.id ∧ l.position = row.steps) ||
      decide (l.tenant = row.tenant ∧ l.task = task)) = false)
      (.other "IntegrityError" "UNIQUE constraint failed: p_agent_turns")
    let turn : TurnRow :=
      { tenant := row.tenant, run := row.id, task := task, position := row.steps
        actionFingerprint := fingerprint }
    pure (State.setRun { s with db := db, turns := s.turns ++ [turn] } row fun r =>
      { r with
        status := .waitingTask, steps := r.steps + 1, currentTask := some task, claim := none
        lease := 0 })
  | .final answer evidence =>
    pure (s.setRun row fun r =>
      { r with status := .succeeded, answer := answer, evidence := evidence, claim := none, lease := 0 })
  | .ask question =>
    pure (s.setRun row fun r =>
      { r with status := .needsInput, answer := question, evidence := [], claim := none, lease := 0 })

/-- The exceptions a rejected decision may raise. -/
def rejects : Err → Bool
  | .rateLimited _ => true
  | e => e.isValueError || e.isLookupError || e.isPermissionError

/-- `_repairable`; an `ObservationUnavailable` never gets here. -/
def repairable : Err → Bool
  | .conflict _ => false
  | e => e.isValueError || e.isLookupError

/-- The characters of a reason the planner may be told. -/
def isReasonChar (c : Char) : Bool :=
  ('A' ≤ c && c ≤ 'Z') || ('a' ≤ c && c ≤ 'z') || ('0' ≤ c && c ≤ '9') ||
    " .,:;()'_-".toList.contains c

/-- `_repair_reason`. -/
def repairReason (e : Err) : String :=
  if isRunOf isReasonChar 1 200 e.text then e.text else "Decision failed platform validation"

/-- What `_commit` returns: whether the run changed, or the context of a repair call. -/
inductive Committed
  | done (changed : Bool)
  | repair (context : Context)

/-- `_repair`. -/
def repair (env : Env) (s : State) (row : RunRow) (obs : List Observation) (d : Json) (e : Err) :
    State × Committed :=
  (s.setRun row fun r =>
      { r with
        calls := r.calls + 1, lease := min row.deadline (env.now + seconds plannerLeaseSeconds) },
    .repair { context row obs with repair := some (d, repairReason e) })

/-- `_commit`; `decision` is none for a failure. -/
def commitDecision (P : Platform) (env : Env) (s : State) (tenant : String) (run claim : Uuid)
    (decision? : Option Json) (repairs : Bool) : Except Err (State × Committed) := do
  let row ← need (s.row? tenant run) (.notFound "Agent run not found")
  if row.status ≠ .planning ∨ row.claim ≠ some claim then pure (s, .done false)
  else if row.deadline ≤ env.now ∨ row.lease ≤ env.now then
    pure (s.stop row .escalated "planner_result_arrived_after_deadline", .done true)
  else
    match (env.requireActive s.view tenant).bind fun _ =>
        env.requireAuthority tenant row.channel row.actor with
    | .error e =>
      if e.isForbidden then
        pure (s.stop row .escalated "authority_or_freeze_changed_during_planning", .done true)
      else .error e
    | .ok () =>
      match decision? with
      | none => pure (s.stop row .escalated "planner_failed_no_retry", .done true)
      | some d =>
        match observations s row with
        | .error e =>
          if rejects e then pure (s.stop row .escalated "planner_decision_rejected", .done true)
          else .error e
        | .ok obs =>
          match (decision P env row obs d).bind (perform P env s row) with
          | .ok s' => pure (s', .done true)
          | .error e =>
            if rejects e then
              if repairs = true ∧ repairable e = true ∧ row.calls < row.maxCalls then
                pure (repair env s row obs d e)
              else pure (s.stop row .escalated "planner_decision_rejected", .done true)
            else .error e

/-- `_planner_dispatch_allowed`. -/
def dispatchAllowed (env : Env) (s : State) (r : Reservation) : Except Err Bool := do
  let row ← need (s.row? r.tenant r.run) (.notFound "Agent run not found")
  if row.status ≠ .planning ∨ row.claim ≠ some r.claim ∨ row.lease ≤ env.now ∨
      row.deadline ≤ env.now then pure false
  else do
    env.requireActive s.view r.tenant
    env.requireAuthority r.tenant row.channel row.actor
    pure true

/-! ### Planners in any interleaving -/

/-- One statement of a planner, one crash, or one call of somebody else. -/
inductive Label
  | create (env : Env) (tenant key agent text actor : String) (maxSteps maxSeconds : ℤ)
      (channel : String)
  | cancel (env : Env) (tenant : String) (run : Uuid) (actor : String)
  | reserve (planner : ℕ) (env : Env) (tenant : String) (run : Uuid) (supportsRepair : Bool)
  | check (planner : ℕ) (env : Env)
  /-- The planner is called, and answers or raises. -/
  | invoke (planner : ℕ) (answer : Except Err Json)
  | commit (planner : ℕ) (env : Env)
  | crash (planner : ℕ)
  /-- An operation of the engine by anyone. -/
  | engine (op : Op)
  /-- Any change of the inbound events. -/
  | inbound (events : List EventRow)

/-- The operations that are not the loop's own. -/
def offLoop : Op → Bool
  | .stop .. | .elsewhere .. => false
  | _ => true

namespace State

/-- Moves a planner. -/
def goto (s : State) (planner : ℕ) (stage : Stage) : State :=
  { s with planners := Function.update s.planners planner stage }

/-- The state after a label; a label whose planner stands elsewhere changes nothing. -/
def after (P : Platform) (s : State) : Label → State
  | .create env tenant key agent text actor maxSteps maxSeconds channel =>
    Outcome.commit s (Agent.create P env s tenant key agent text actor maxSteps maxSeconds channel)
  | .cancel env tenant run actor => Outcome.commit s (Agent.cancel env s tenant run actor)
  | .reserve w env tenant run supportsRepair =>
    match s.planners w, Agent.reserve env s tenant run
        (if supportsRepair then maxDecisionRepairs else 0) with
    | .idle, .ok (t, some r) => t.goto w (.reserved r)
    | .idle, .ok (t, none) => t
    | _, _ => s
  | .check w env =>
    match s.planners w with
    | .reserved r =>
      match dispatchAllowed env s r with
      | .ok true => s.goto w (.cleared r)
      | .ok false => s.goto w (.refused r true)
      | .error _ => s.goto w (.refused r false)
    | _ => s
  | .invoke w answer =>
    match s.planners w with
    | .cleared r =>
      match answer with
      | .ok d => s.goto w (.answered r d)
      | .error _ => s.goto w (.refused r false)
    | _ => s
  | .commit w env =>
    match s.planners w with
    | .answered r d =>
      match commitDecision P env s r.tenant r.run r.claim (some d) (decide (0 < r.repairs)) with
      | .ok (t, .repair context) =>
        t.goto w (.reserved { r with context := context, repairs := r.repairs - 1 })
      | .ok (t, .done _) => t.goto w .idle
      | .error _ => s.goto w .idle
    | .refused r again =>
      match commitDecision P env s r.tenant r.run r.claim none false with
      | .ok (t, _) => t.goto w .idle
      | .error _ => s.goto w (if again then .refused r false else .idle)
    | _ => s
  | .crash w => s.goto w .idle
  | .engine op => if offLoop op then { s with db := s.view.after P op } else s
  | .inbound events => { s with db := { s.db with events := events } }

end State

/-- One label. -/
def Step (P : Platform) (s : State) (l : Label) (t : State) : Prop := t = s.after P l

end AgentPlatform.Agent
