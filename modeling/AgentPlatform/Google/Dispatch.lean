import AgentPlatform.Engine.Operations
import AgentPlatform.Google.Requests

/-!
# The dispatch journals

`p_google_dispatch` and `p_database_dispatch` have one row per step, written before the tool's request
leaves and settled after the answer. The transactions of `GoogleAdapter.execute` and of the database
gateway's `tool_write` are functions of the tables they read.
-/

namespace AgentPlatform.Google

open Outcome Engine OAuth Table

/-! ### The engine's fences -/

/-- A step with its task's agent, channel and actor. -/
structure Joined where
  step : StepRow
  agent : String
  channel : String
  actor : String

/-- The join of `p_steps` and `p_tasks`, at one step. -/
def joined? (db : Db) (tenant : String) (step : Uuid) : Option Joined :=
  (db.steps.find? fun s => decide (s.tenant = tenant) && decide (s.id = step)).bind fun s =>
    (db.tasks.find? fun t => decide (t.id = s.task) && decide (t.tenant = s.tenant)).map fun t =>
      ⟨s, t.agent, t.channel, t.actor⟩

/-- The running step is still this claim's. -/
def claimHeld (env : Env) (db : Db) (tenant : String) (row : Joined) : Bool :=
  db.steps.any fun s => decide (s.tenant = tenant) && decide (s.id = row.step.id) &&
    decide (s.claim = row.step.claim) && decide (s.status = .running) && decide (env.now < s.lease)

/-- `dispatch_allowed`. -/
def dispatchAllowed (env : Env) (db : Db) (tenant : String) (row : Joined) : Except Err Bool := do
  env.requireActive db tenant
  env.requireTaskParent db tenant row.step.task
  let task ← need (db.task? tenant row.step.task) (.forbidden "Task missing")
  env.requireAuthority tenant task.channel task.actor
  if row.step.spec.approvalNeeded = true then
    let approver := ((db.approval? tenant row.step.id).map ApprovalRow.actor).getD ""
    let policy ← env.policy tenant row.agent
    env.requireAuthority tenant "approval" approver (approverRoles policy)
  pure (claimHeld env db tenant row)

/-- `_validated(tenant, agent, [{'tool': tool, 'args': args}])[0]`. -/
def current (lib : Library) (env : Env) (tenant agent tool : String) (args : Json) :
    Except Err Validated := do
  let plan ← validated lib.toPlatform env tenant agent [.obj [("tool", .str tool), ("args", args)]]
  need plan.head? (.lookupError "list index out of range")

/-- The consumed approval of a step, checked again. -/
def checkConsumed (env : Env) (db : Db) (tenant : String) (row : Joined) (message : String) :
    Except Err Unit := do
  let policy ← env.policy tenant row.agent
  let approval ← need (db.approval? tenant row.step.id) (.forbidden message)
  ensure (approval.status = .consumed ∧ env.now < approval.expires ∧
    approval.fingerprint = row.step.spec.fingerprint) (.forbidden message)
  env.requireAuthority tenant "approval" approval.actor (approverRoles policy)

/-! ### Google -/

/-- The status column of `p_google_dispatch`. -/
inductive DispatchStatus
  | dispatching
  | succeeded
  | uncertain
  deriving DecidableEq, Repr

/-- A row of `p_google_dispatch`. -/
structure Dispatch where
  tenant : String
  step : Uuid
  connection : String
  generation : ℕ
  fingerprint : String
  status : DispatchStatus
  receipt : Json

/-- Its primary key. -/
def Dispatch.key (d : Dispatch) : String × Uuid := (d.tenant, d.step)

/-- One call of `execute`, on an adapter with this manager and these resources. -/
structure Execution where
  manager : Manager
  resources : Resources
  tenant : String
  connection : String
  agent : String
  name : String
  args : Json
  step : Uuid
  out : Outgoing

def Execution.key (x : Execution) : String × Uuid := (x.tenant, x.step)

/-- `name in WRITES`. -/
def Execution.write (x : Execution) : Bool := writes.contains x.name

/-- The handler of a Google tool, up to its first read. -/
def startExecution (lib : Library) (config : Except Err Json) (manager : Except Err Manager)
    (tenant agent name : String) (args : Json) (step : Uuid) : Except Err Execution := do
  let connection ← textArg args "connection"
  let manager ← manager
  let config ← config
  let resources ← configuredResources config connection
  let tool ← lib.registry.get name
  tool.validate args
  let out ← authorizeArgs lib name args resources (lib.hex step)
  pure ⟨manager, resources, tenant, connection, agent, name, args, step, out⟩

/-- The read of `_active_step`. -/
def activeRow (db : Db) (x : Execution) : Except Err Joined := do
  let refused := Err.forbidden "Google tool requires matching active engine step"
  let row ← need (joined? db x.tenant x.step) refused
  ensure (row.step.spec.tool = x.name ∧ row.agent = x.agent ∧
    row.step.spec.args.same x.args = true) refused
  pure row

/-- `_active_step`, past its read. -/
def checkActive (lib : Library) (env : Env) (db : Db) (x : Execution) (row : Joined) :
    Except Err Unit := do
  let v ← current lib env x.tenant x.agent x.name x.args
  ensure (v.fingerprint = row.step.spec.fingerprint)
    (.forbidden "Google approval configuration changed")
  let allowed ← dispatchAllowed env db x.tenant row
  ensure (allowed = true) (.forbidden "Step dispatch no longer authorized")

/-- The fingerprint of a dispatch. -/
def dispatchFingerprint (lib : Library) (out : Outgoing) (stepFingerprint connection : String)
    (generation : ℕ) (manager : Manager) (resources : Resources) : String :=
  digest lib.sha256 (.obj [("url", .str out.url), ("body", out.body),
    ("step_fingerprint", .str stepFingerprint), ("connection", .str connection),
    ("generation", .int generation), ("config", .str manager.configHash),
    ("resources", .str (digest lib.sha256 resources.toJson))])

/-- The approval check of the dispatch transaction. -/
def checkWriteApproval (env : Env) (db : Db) (tenant : String) (row : Joined) : Except Err Unit :=
  if row.step.spec.approvalNeeded = true then
    checkConsumed env db tenant row "Current write approval required"
  else pure ()

/-- The row the dispatch transaction inserts. -/
def Execution.dispatch (lib : Library) (x : Execution) (row : Joined) (grant : Grant) : Dispatch :=
  { tenant := x.tenant, step := x.step, connection := x.connection, generation := grant.generation
    fingerprint := dispatchFingerprint lib x.out row.step.spec.fingerprint x.connection
      grant.generation x.manager x.resources
    status := .dispatching, receipt := .obj x.out.reference }

/-- A key is looked up by its equality. -/
local instance lawfulKey : LawfulBEq (String × Uuid) := inferInstance

/-- The dispatch transaction of `execute`. -/
def journal (lib : Library) (env : Env) (db : Db) (t : Tables) (book : List Dispatch)
    (x : Execution) (row : Joined) (grant : Grant) : Except Err (List Dispatch) := do
  let v ← current lib env x.tenant x.agent x.name x.args
  ensure (v.fingerprint = row.step.spec.fingerprint)
    (.forbidden "Google policy changed before dispatch")
  let scope ← scopeOf x.name
  let credential ← x.manager.agent env db t x.tenant x.connection x.agent [scope]
  env.requireTaskParent db x.tenant row.step.task
  env.requireAuthority x.tenant row.channel row.actor
  checkWriteApproval env db x.tenant row
  ensure (claimHeld env db x.tenant row = true ∧ credential.status = .active ∧
    credential.generation = grant.generation) (.forbidden "Google dispatch fenced")
  ensure (x.key ∉ book.map Dispatch.key)
    (.conflict "Google write already dispatched; reconcile outcome")
  pure (book ++ [x.dispatch lib row grant])

/-- `fence`, for the call's own tool. -/
def Execution.fence (x : Execution) (env : Env) (db : Db) (t : Tables) (grant : Grant) :
    Except Err Unit := do
  let scope ← scopeOf x.name
  OAuth.fence x.manager env db t x.tenant x.connection x.agent [scope] grant

/-- The provider's answer is a dictionary of bounded size. -/
def checkBounded (response : Json) (message : String) : Except Err Unit :=
  ensure (response.isDict = true ∧ response.encode.utf8ByteSize ≤ 1000000) (oauthError message)

/-- The identifier in a write's answer. -/
def receiptId (response : Json) : Except Err String :=
  match response.getD "id" .null with
  | .str id => do
    ensure (id ≠ "") (oauthError "Provider write receipt missing")
    bounded id
    pure id
  | _ => .error (oauthError "Provider write receipt missing")

/-- The receipt `execute` returns for a write. -/
def Execution.receipt (x : Execution) (response : Json) : Except Err Json := do
  checkBounded response "Invalid bounded Google response"
  let id ← receiptId response
  ensure (x.name = "google.calendar.create" →
      ((x.out.reference.find? fun m => m.1 = "event_id").any fun m => m.2.same (.str id)) = true)
    (oauthError "Calendar receipt does not match requested event")
  pure (.obj ([("provider", .str "google"), ("operation", .str x.name), ("external_id", .str id)] ++
    x.out.reference))

/-- `UPDATE p_google_dispatch … WHERE tenant=? AND step=? AND status='dispatching'`. -/
def settleDispatch (book : List Dispatch) (key : String × Uuid) (f : Dispatch → Dispatch) :
    List Dispatch :=
  update (fun d => decide (d.key = key) && decide (d.status = .dispatching)) f book

/-- The last transaction of `execute`. -/
def saveReceipt (book : List Dispatch) (key : String × Uuid) (receipt : Json) :
    Except Err (List Dispatch) := do
  ensure ((book.any fun d => decide (d.key = key) && decide (d.status = .dispatching)) = true)
    (.conflict "Google dispatch was already reconciled or fenced")
  pure (settleDispatch book key fun d => { d with status := .succeeded, receipt := receipt })

/-! ### Managed databases -/

/-- The status column of `p_database_dispatch`. -/
inductive DatabaseStatus
  | dispatching
  | committed
  | uncertain
  deriving DecidableEq, Repr

/-- A row of `p_database_dispatch`. -/
structure DatabaseDispatch where
  tenant : String
  step : Uuid
  task : Uuid
  fingerprint : String
  status : DatabaseStatus
  receipt : Json

/-- Its primary key. -/
def DatabaseDispatch.key (d : DatabaseDispatch) : String × Uuid := (d.tenant, d.step)

/-- What `prepare` returns. -/
structure Prepared where
  raw : Json
  request : Json
  fingerprint : String

/-- One call of `tool_write`. -/
structure DatabaseWrite where
  tenant : String
  agent : String
  args : Json
  step : Uuid
  prepared : Prepared

def DatabaseWrite.key (y : DatabaseWrite) : String × Uuid := (y.tenant, y.step)

/-- `_allowed`. -/
def databaseAllowed (env : Env) (tenant agent tool : String) (args : Json) : Except Err Unit := do
  let policy ← env.policy tenant agent
  ensure ((policy.getD "tools" (.arr [])).hasText tool = true ∧
      ((policy.getD "allowed_connections" (.arr [])).items.any
        (args.getD "connection" .null).same) = true)
    (.forbidden "Database tool or connection not permitted for agent")

/-- `tool_write`, up to its first transaction; `prepared` is what `prepare` comes to. -/
def startWrite (env : Env) (prepared : Except Err Prepared) (tenant agent : String) (args : Json)
    (step : Uuid) : Except Err DatabaseWrite := do
  databaseAllowed env tenant agent "database.write" args
  let p ← prepared
  pure ⟨tenant, agent, args, step, p⟩

/-- The first transaction of `tool_write`. -/
def journalWrite (lib : Library) (env : Env) (db : Db) (book : List DatabaseDispatch)
    (y : DatabaseWrite) : Except Err (List DatabaseDispatch) := do
  env.requireActive db y.tenant
  let refused := Err.forbidden "Active approved database write step required"
  let row ← need (joined? db y.tenant y.step) refused
  ensure (row.step.spec.tool = "database.write" ∧ row.agent = y.agent ∧ row.step.status = .running ∧
    env.now < row.step.lease ∧ row.step.spec.args.encode = y.args.encode ∧
    row.step.spec.approvalNeeded = true) refused
  env.requireTaskParent db y.tenant row.step.task
  env.requireAuthority y.tenant row.channel row.actor
  let v ← current lib env y.tenant y.agent "database.write" y.args
  ensure (v.fingerprint = row.step.spec.fingerprint)
    (.forbidden "Database write authority changed after approval")
  checkConsumed env db y.tenant row "Consumed unexpired matching approval required"
  ensure (y.key ∉ book.map DatabaseDispatch.key)
    (.conflict "Database step already dispatched; reconcile instead of retrying")
  pure (book ++ [⟨y.tenant, y.step, row.step.task, y.prepared.fingerprint, .dispatching, .obj []⟩])

/-- The receipt of a database write. -/
def DatabaseWrite.receipt (lib : Library) (y : DatabaseWrite) (result : Json) : Json :=
  .obj (result.members ++ [("connection", y.args.getD "connection" .null),
    ("driver", y.prepared.raw.getD "driver" .null), ("dispatch_id", .str (lib.hex y.step)),
    ("plan_fingerprint", .str y.prepared.fingerprint), ("automatic_retry", .bool false)])

/-- The last transaction of `tool_write`. -/
def settleWrite (lib : Library) (book : List DatabaseDispatch) (y : DatabaseWrite) :
    Except Err Json → List DatabaseDispatch
  | .ok result => update (fun d => d.key = y.key)
      (fun d => { d with status := .committed, receipt := y.receipt lib result }) book
  | .error _ => update (fun d => d.key = y.key) (fun d => { d with status := .uncertain }) book

end AgentPlatform.Google
