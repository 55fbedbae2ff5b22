import AgentPlatform.Agent.Loop
import AgentPlatform.Crm.Adapters

/-!
# `CRMReconciler.reconcile_step`

A reconciliation reads the step in one transaction, asks the provider, and settles the step in a second
transaction when exactly one record matches. Between the two, anybody may operate the engine.

The configuration of the tenant, the process environment and the provider's answer are inputs of the
lookup. `settle` carries the platform's directory and clock of its moment; the code asks neither.
-/

namespace AgentPlatform.Crm

open Outcome Engine
open Agent (hex statusText)

/-- The arguments of one `reconcile_step`. -/
structure Call where
  tenant : String
  step : Uuid
  actor : String

/-- What `reconcile_step` returns. -/
inductive Answer
  | settled (leadId : Json) (receipt : Json)
  | unsettled (reason : String)

def maxCandidateMatches : ℕ := 5

/-- `tool.startswith('crm.')`. -/
def isCrmTool (tool : String) : Bool := "crm.".toList.isPrefixOf tool.toList

/-- The first transaction: the step, and its task's agent. -/
def readStep (env : Env) (db : Db) (call : Call) : Except Err (StepSpec × String) := do
  env.requireActive db call.tenant
  env.requireAuthority call.tenant "web" call.actor
  let r ← need (db.steps.find? fun r => decide (r.tenant = call.tenant) && decide (r.id = call.step))
    (.notFound ("Step " ++ hex call.step ++ " not found"))
  let t ← need (db.task? r.tenant r.task) (.notFound ("Step " ++ hex call.step ++ " not found"))
  ensure (r.status = .uncertain) (.conflict ("Step " ++ hex call.step ++ " status is " ++
    statusText r.status ++ ", but uncertain is required for reconciliation"))
  ensure (isCrmTool r.spec.tool = true)
    (.conflict ("Step tool " ++ r.spec.tool ++ " is not a CRM tool"))
  pure (r.spec, t.agent)

/-- The connection a step names, in the tenant's configuration. -/
def connectionOf (lib : Library) (config name : Json) : Except Err Json := do
  let connections := config.getD "connections" (.obj [])
  let _ ← getOf connections "connections"
  ensure (hashable name = true) (.typeError "unhashable type")
  let missing := Err.notFound ("CRM connection " ++ pyStr lib name ++ " not configured")
  match name with
  | .str key => do
    let raw ← need (connections.get? key) missing
    ensure (raw.truthy = true) missing
    pure raw
  | _ => .error missing

/-- The records that match. -/
def exactMatches (title phone : Json) (records : List Json) : List Json :=
  records.filter fun m =>
    (title.truthy && (m.getD "title" .null).same title) ||
      (phone.truthy && (m.getD "phone" .null).same phone)

/-- What the step settles with. -/
def receiptOf (driver : String) (record : Json) : Json :=
  .obj [("provider", .str driver), ("reconciled", .bool true),
    ("lead_id", record.getD "id" .null), ("matched_record", record)]

/-- What the lookup finds. -/
inductive Verdict
  | matched (leadId receipt : Json)
  | unsettled (reason : String)

/-- The verdict on the provider's records. -/
def verdict (driver : String) (title phone : Json) (records : List Json) : Verdict :=
  match exactMatches title phone records with
  | [record] => .matched (record.getD "id" .null) (receiptOf driver record)
  | [] => .unsettled "No positive matching record found in CRM. Step remains uncertain."
  | several => .unsettled ("Ambiguous: found " ++ toString several.length ++
      " candidate matches in CRM. Manual operator review required.")

/-- The adapter `_default_adapter_factory` makes. -/
def makeAdapter (lib : Library) (environ : String → String) (raw : Json) : Except Err Adapter :=
  match adapterOf lib environ (driverOf raw) raw with
  | some adapter => adapter
  | none => .error (.valueError ("Unsupported CRM driver: " ++ driverOf raw))

/-- What the lookup asks with: the adapter, its driver, and the request of the step. -/
structure Inquiry where
  adapter : Adapter
  driver : String
  tool : String
  request : Json

/-- Up to the lookup; the configuration is the answer of `config_resolver`. -/
def prepare (lib : Library) (environ : String → String) (spec : StepSpec) (agent : String)
    (config : Except Err Json) : Except Err Inquiry := do
  let name ← getOf spec.args "connection"
  ensure (name.truthy = true) (.valueError "Step args missing connection")
  let raw ← connectionOf lib (← config) name
  let _ ← validateCrmConfig lib raw agent "read"
  let adapter ← makeAdapter lib environ raw
  let request := spec.args.getD "request" (.obj [])
  let _ ← getOf request "phone"
  pure ⟨adapter, driverOf raw, spec.tool, request⟩

/-- A field of the request. -/
def Inquiry.field (i : Inquiry) (key : String) : Json := i.request.getD key .null

/-- The lookup, on the provider's answer. -/
def Inquiry.records (lib : Library) (i : Inquiry) (answer : Except Err Json) :
    Except Err (List Json) :=
  findLeadsByMode lib i.adapter i.driver
    (firstTruthy [i.field "phone", i.field "email", i.field "title", .str ""]) (i.field "phone")
    (i.field "email") maxCandidateMatches answer

/-- The lookup and the verdict on it; a lookup that fails proves nothing. -/
def Inquiry.search (lib : Library) (i : Inquiry) (answer : Except Err Json) : Verdict :=
  match i.records lib answer with
  | .error e => .unsettled ("Provider lookup failed: " ++ e.text)
  | .ok records => verdict i.driver (i.field "title") (i.field "phone") records

/-- Between the two transactions. -/
def lookup (lib : Library) (environ : String → String) (spec : StepSpec) (agent : String)
    (config answer : Except Err Json) : Except Err Verdict := do
  let inquiry ← prepare lib environ spec agent config
  pure (inquiry.search lib answer)

/-- `UPDATE p_steps SET status='succeeded',result=? WHERE tenant=? AND id=?`. -/
def settleRow (db : Db) (call : Call) (receipt : Json) : Db :=
  db.setSteps (fun r => decide (r.tenant = call.tenant) && decide (r.id = call.step))
    fun r => { r with status := .succeeded, result := receipt }

/-- The settling transaction. -/
def settle (db : Db) (call : Call) (leadId receipt : Json) : Except Err (Db × Answer) := do
  ensure ((db.steps.any fun r => decide (r.tenant = call.tenant) && decide (r.id = call.step) &&
      decide (r.status = .uncertain)) = true) (.conflict "Step status changed during reconciliation")
  pure (settleRow db call receipt, .settled leadId receipt)

/-- `reconcile_step`, whose two transactions find the databases `db` and `db'`. -/
def reconcileStep (lib : Library) (environ : String → String) (env : Env) (db db' : Db) (call : Call)
    (config answer : Except Err Json) : Except Err (Db × Answer) := do
  let (spec, agent) ← readStep env db call
  match ← lookup lib environ spec agent config answer with
  | .matched leadId receipt => settle db' call leadId receipt
  | .unsettled reason => pure (db', .unsettled reason)

/-! ### Reconciliations and engine operations, interleaved -/

/-- Where a reconciliation stands. -/
inductive Stage
  | idle
  /-- The step was read, with its task's agent; the lookup comes next. -/
  | found (call : Call) (spec : StepSpec) (agent : String)
  /-- One record matched; the settling transaction comes next. -/
  | matched (call : Call) (leadId : Json) (receipt : Json)
  | returned (result : Except Err Answer)

/-- Where the first transaction leaves the call. -/
def Stage.ofRead (call : Call) : Except Err (StepSpec × String) → Stage
  | .ok (spec, agent) => .found call spec agent
  | .error e => .returned (.error e)

/-- Where the lookup leaves the call. -/
def Stage.ofLookup (call : Call) : Except Err Verdict → Stage
  | .ok (.matched leadId receipt) => .matched call leadId receipt
  | .ok (.unsettled reason) => .returned (.ok (.unsettled reason))
  | .error e => .returned (.error e)

/-- The database, and where every reconciliation stands. -/
structure State where
  db : Db := {}
  workers : ℕ → Stage := fun _ => .idle

/-- One event. -/
inductive Label
  | op (op : Op)
  | read (worker : ℕ) (env : Env) (call : Call)
  | lookup (worker : ℕ) (environ : String → String) (config answer : Except Err Json)
  | settle (worker : ℕ) (env : Env)
  | crash (worker : ℕ)

namespace State

/-- Moves a reconciliation. -/
def goto (s : State) (worker : ℕ) (stage : Stage) : State :=
  { s with workers := Function.update s.workers worker stage }

/-- The state after an event; an event whose worker stands elsewhere changes nothing. -/
def after (lib : Library) (P : Platform) (s : State) : Label → State
  | .op op => { s with db := s.db.after P op }
  | .read w env call =>
    match s.workers w with
    | .idle | .returned _ => s.goto w (.ofRead call (readStep env s.db call))
    | _ => s
  | .lookup w environ config answer =>
    match s.workers w with
    | .found call spec agent =>
      s.goto w (.ofLookup call (Crm.lookup lib environ spec agent config answer))
    | _ => s
  | .settle w _ =>
    match s.workers w with
    | .matched call leadId receipt =>
      { s with db := commit s.db (Crm.settle s.db call leadId receipt) }.goto w
        (.returned ((Crm.settle s.db call leadId receipt).map Prod.snd))
    | _ => s
  | .crash w => s.goto w .idle

end State

/-- One event, as a step. -/
def Step (lib : Library) (P : Platform) (s : State) (l : Label) (t : State) : Prop :=
  t = s.after lib P l

end AgentPlatform.Crm
