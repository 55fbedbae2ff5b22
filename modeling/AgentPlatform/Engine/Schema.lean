import AgentPlatform.Engine.Tools
import AgentPlatform.Lib.Pipeline
import AgentPlatform.Lib.Table

/-!
# The tables of the engine

The rows of `p_tasks`, `p_steps`, `p_approvals`, `p_devices`, `p_freeze`, `p_events` and of the agent
loop's `p_agent_runs` and `p_agent_turns`, with the columns an engine operation reads. What a step
was submitted with (`StepSpec`) is never written again, so it is a value of its own inside the row.

Identifiers and claim tokens come from `uuid.uuid4`; `drawn` counts them.
-/

namespace AgentPlatform.Engine

/-- The status column of `p_tasks` and `p_steps`; `waiting` is `waiting_approval`. -/
abbrev Status := Pipeline.Status

/-- The status column of `p_approvals`. -/
inductive ApprovalStatus
  | pending
  | approved
  | rejected
  | consumed
  deriving DecidableEq, Repr

/-- A row of `p_tasks`. -/
structure TaskRow where
  id : Uuid
  tenant : String
  channel : String
  eventKey : String
  fingerprint : String
  agent : String
  actor : String
  status : Status
  created : Time

/-- What a step is submitted with. -/
structure StepSpec where
  id : Uuid
  task : Uuid
  tenant : String
  position : ℕ
  tool : String
  args : Json
  risk : Risk
  approvalNeeded : Bool
  fingerprint : String
  device : String

/-- A row of `p_steps`. An empty `claim` is `none`. -/
structure StepRow where
  spec : StepSpec
  status : Status
  claim : Option Uuid
  worker : String
  lease : Time
  attempts : ℕ
  result : Json
  error : String

/-- A row of `p_approvals`. -/
structure ApprovalRow where
  step : Uuid
  tenant : String
  fingerprint : String
  status : ApprovalStatus
  actor : String
  expires : Time

/-- A row of `p_devices`. -/
structure DeviceRow where
  tenant : String
  id : String
  revoked : Bool
  generation : ℕ

/-- A row of `p_freeze`. -/
structure FreezeRow where
  tenant : String
  stopped : Bool

/-- The status column of `p_events`. -/
inductive EventStatus
  | pending
  | processing
  | done
  | failed
  deriving DecidableEq, Repr

/-- What `settle_event` records as the outcome of an event. -/
inductive EventResult
  | none
  | task (id : Uuid)
  | turn (eventKey : String)
  deriving DecidableEq, Repr

/-- A row of `p_events`. -/
structure EventRow where
  tenant : String
  channel : String
  eventKey : String
  fingerprint : String
  payload : Json
  status : EventStatus
  claim : Option Uuid
  lease : Time
  result : EventResult
  error : String

/-- The status column of `p_agent_runs`. -/
inductive RunStatus
  | pending
  | planning
  | waitingTask
  | succeeded
  | needsInput
  | escalated
  | uncertain
  | cancelled
  deriving DecidableEq, Repr

/-- A row of `p_agent_runs`. -/
structure AgentRunRow where
  id : Uuid
  tenant : String
  status : RunStatus
  deadline : Time
  currentTask : Option Uuid
  claim : Option Uuid
  lease : Time
  error : String

/-- A row of `p_agent_turns`. -/
structure AgentTurnRow where
  tenant : String
  run : Uuid
  task : Uuid

/-- The database. -/
structure Db where
  tasks : List TaskRow := []
  steps : List StepRow := []
  approvals : List ApprovalRow := []
  devices : List DeviceRow := []
  freeze : List FreezeRow := []
  events : List EventRow := []
  runs : List AgentRunRow := []
  agentTurns : List AgentTurnRow := []
  drawn : Uuid := 0

def StepRow.id (s : StepRow) : Uuid := s.spec.id

def StepRow.task (s : StepRow) : Uuid := s.spec.task

def StepRow.tenant (s : StepRow) : String := s.spec.tenant

namespace Db

/-- `SELECT … FROM p_tasks WHERE tenant=? AND id=?`. -/
def task? (db : Db) (tenant : String) (id : Uuid) : Option TaskRow :=
  db.tasks.find? fun t => decide (t.tenant = tenant) && decide (t.id = id)

/-- `SELECT … FROM p_tasks WHERE tenant=? AND channel=? AND event_key=?`. -/
def taskOf? (db : Db) (tenant channel eventKey : String) : Option TaskRow :=
  db.tasks.find? fun t => decide (t.tenant = tenant) && decide (t.channel = channel) &&
    decide (t.eventKey = eventKey)

/-- `SELECT … FROM p_approvals WHERE tenant=? AND step=?`. -/
def approval? (db : Db) (tenant : String) (step : Uuid) : Option ApprovalRow :=
  db.approvals.find? fun a => decide (a.tenant = tenant) && decide (a.step = step)

/-- `SELECT … FROM p_events WHERE tenant=? AND channel=? AND event_key=?`. -/
def event? (db : Db) (tenant channel eventKey : String) : Option EventRow :=
  db.events.find? fun e => decide (e.tenant = tenant) && decide (e.channel = channel) &&
    decide (e.eventKey = eventKey)

/-- `SELECT stopped FROM p_freeze WHERE tenant=?`, as a truth value. -/
def frozen (db : Db) (tenant : String) : Bool :=
  (db.freeze.find? fun f => f.tenant = tenant).any FreezeRow.stopped

/-- The statuses of the steps of a task. -/
def states (db : Db) (tenant : String) (task : Uuid) : List Status :=
  (db.steps.filter fun s => decide (s.tenant = tenant) && decide (s.task = task)).map
    StepRow.status

/-- `_refresh`. -/
def refresh (db : Db) (tenant : String) (task : Uuid) : Db :=
  { db with
    tasks := Table.update (fun t => decide (t.tenant = tenant) && decide (t.id = task))
      (fun t => { t with status := Pipeline.summary (db.states tenant task) }) db.tasks }

/-- `UPDATE p_steps SET f WHERE p`. -/
def setSteps (db : Db) (p : StepRow → Bool) (f : StepRow → StepRow) : Db :=
  { db with steps := Table.update p f db.steps }

/-- `UPDATE p_steps SET f WHERE id=?`. -/
def setStep (db : Db) (id : Uuid) (f : StepRow → StepRow) : Db :=
  db.setSteps (fun s => s.id = id) f

/-- `UPDATE p_approvals SET f WHERE p`. -/
def setApprovals (db : Db) (p : ApprovalRow → Bool) (f : ApprovalRow → ApprovalRow) : Db :=
  { db with approvals := Table.update p f db.approvals }

/-- `_refresh` of several tasks, one after the other. -/
def refreshAll (db : Db) (tenant : String) (tasks : List Uuid) : Db :=
  tasks.foldl (fun db task => db.refresh tenant task) db

end Db

end AgentPlatform.Engine
