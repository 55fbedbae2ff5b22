import AgentPlatform.Crm.Adapters
import AgentPlatform.Engine.Operations

/-!
# The CRM gateway

The plan tool and the four write tools of `crm_gateway.py`, and a system in which the operator changes
the configuration while agents plan, the engine approves and hands out steps, and workers run the tool
of a step they were handed.

A write tool ends, in this model, with the request that leaves. With each request the system keeps the
configurations of its connection that were in force when the approved fingerprint was computed: for a
lead or a deal that is `plan_crm_fingerprint`, for a note the fingerprint of the step, taken when it was
submitted.
-/

namespace AgentPlatform.Crm

open Outcome Engine

/-- `_check_agent_allowed`. -/
def checkAgentAllowed (env : Env) (tenant agent tool connection : String) : Except Err Unit := do
  let policy ← env.policy tenant agent
  ensure ((policy.getD "tools" (.arr [])).hasText tool = true)
    (.forbidden ("Tool " ++ tool ++ " not permitted for agent " ++ agent))
  ensure ((policy.getD "allowed_connections" (.arr [])).hasText connection = true)
    (.forbidden ("Connection " ++ connection ++ " not permitted for agent " ++ agent))

/-- A connection, with the configuration the operator gives it. -/
def connectionIn (config : Json) (name : String) : Json :=
  (config.getD "connections" (.obj [])).getD name .null

/-- What every tool does first: the connection's name and its configuration. -/
def admitted (lib : Library) (env : Env) (config : Except Err Json) (tenant agent tool : String)
    (args : Json) (capability : String) : Except Err (String × Json) := do
  let name ← cleanText (args.getD "connection" .null) "connection" 128
  checkAgentAllowed env tenant agent tool name
  let config ← config
  let _ ← validateCrmConfig lib (connectionIn config name) agent capability
  pure (name, connectionIn config name)

/-- `get_adapter`. -/
def getAdapter (lib : Library) (environ : String → String) (raw : Json) : Except Err Adapter :=
  match adapterOf lib environ (driverOf raw) raw with
  | some adapter => adapter
  | none => .error (.forbidden
      (if crmDrivers.contains (driverOf raw) then
        "CRM driver " ++ driverOf raw ++ " has no executable adapter yet"
      else "Unsupported CRM driver: " ++ driverOf raw))

/-- What a plan fingerprint is computed from. -/
structure Plan where
  tenant : String
  agent : String
  connection : String
  raw : Json
  request : Json

/-- The fingerprint of a plan. -/
def Plan.fingerprint (lib : Library) (p : Plan) : String :=
  planCrmFingerprint lib p.tenant p.agent p.connection p.raw p.request

/-- `tool_crm_lead_plan`. -/
def toolCrmLeadPlan (lib : Library) (env : Env) (config : Except Err Json) (tenant agent : String)
    (args : Json) : Except Err Plan := do
  let (name, raw) ← admitted lib env config tenant agent "crm.lead.plan" args "plan_write"
  let request ← parseLeadRequest lib (args.getD "request" (.obj []))
  pure ⟨tenant, agent, name, raw, request.toJson⟩

/-- The plan of a deal. No tool plans one: its author computes `plan_crm_fingerprint` himself. -/
def planDeal (lib : Library) (config : Except Err Json) (tenant agent connection : String)
    (data : Json) : Except Err Plan := do
  let config ← config
  let _ ← validateCrmConfig lib (connectionIn config connection) agent "plan_write"
  let request ← parseDealRequest lib data
  pure ⟨tenant, agent, connection, connectionIn config connection, request.toJson⟩

/-- A request on its way, with the configuration it was built from. -/
structure Sending where
  raw : Json
  request : Request

/-- The tools that write. -/
inductive WriteTool
  | leadCreate
  | dealCreate
  | attachCall
  | attachMessage
  deriving DecidableEq

namespace WriteTool

def name : WriteTool → String
  | leadCreate => "crm.lead.create"
  | dealCreate => "crm.deal.create"
  | attachCall => "crm.timeline.attach_call"
  | attachMessage => "crm.timeline.attach_message"

/-- The write tool of a name. -/
def ofName? (name : String) : Option WriteTool :=
  [leadCreate, dealCreate, attachCall, attachMessage].find? fun t => t.name = name

/-- The tool asks for a plan fingerprint. -/
def planned : WriteTool → Bool
  | leadCreate | dealCreate => true
  | attachCall | attachMessage => false

end WriteTool

/-- `not given_fp or given_fp != expected_fp`. -/
def checkFingerprint (args : Json) (expected kind : String) : Except Err Unit :=
  ensure ((args.getD "plan_fingerprint" .null).truthy = true ∧
      (args.getD "plan_fingerprint" .null).same (.str expected) = true)
    (.conflict ("CRM " ++ kind ++ " plan changed or fingerprint mismatch; re-plan and re-approve"))

/-- A tool that creates a record: `parse` checks the request, `build` is the adapter's method. -/
def create (lib : Library) (environ : String → String) (env : Env) (config : Except Err Json)
    (tenant agent : String) (args : Json) (tool : WriteTool) (kind : String)
    (parse : Json → Except Err Json) (build : Adapter → Json → Except Err Request) :
    Except Err Sending := do
  let (name, raw) ← admitted lib env config tenant agent tool.name args "execute_write"
  let request ← parse (args.getD "request" (.obj []))
  checkFingerprint args (planCrmFingerprint lib tenant agent name raw request) kind
  let adapter ← getAdapter lib environ raw
  let out ← build adapter request
  pure ⟨raw, out⟩

/-- A tool that attaches a note to a record. -/
def attach {Note : Type} (lib : Library) (environ : String → String) (env : Env)
    (config : Except Err Json) (tenant agent : String) (args : Json) (tool : WriteTool)
    (field : String) (parse : Json → Except Err Note)
    (build : Adapter → Note → Except Err Request) : Except Err Sending := do
  let (_, raw) ← admitted lib env config tenant agent tool.name args "execute_write"
  let note ← parse (args.getD field (.obj []))
  let adapter ← getAdapter lib environ raw
  let out ← build adapter note
  pure ⟨raw, out⟩

section Tools

variable (lib : Library) (environ : String → String) (env : Env) (config : Except Err Json)
  (tenant agent : String) (args : Json)

/-- `tool_crm_lead_create`, up to the provider's answer. -/
def toolCrmLeadCreate : Except Err Sending :=
  create lib environ env config tenant agent args .leadCreate "lead"
    (fun data => (parseLeadRequest lib data).map LeadRequest.toJson) fun a => a.createLead lib

/-- `tool_crm_deal_create`, up to the provider's answer. -/
def toolCrmDealCreate : Except Err Sending :=
  create lib environ env config tenant agent args .dealCreate "deal"
    (fun data => (parseDealRequest lib data).map DealRequest.toJson) fun a => a.createDeal lib

/-- `tool_crm_attach_call`, up to the provider's answer. -/
def toolCrmAttachCall : Except Err Sending :=
  attach lib environ env config tenant agent args .attachCall "call" parseCallRecord
    fun a => a.attachCallRecord lib

/-- `tool_crm_attach_message`, up to the provider's answer. -/
def toolCrmAttachMessage : Except Err Sending :=
  attach lib environ env config tenant agent args .attachMessage "message" parseChatMessage
    fun a => a.attachMessage lib

/-- The handler of a write tool. -/
def WriteTool.run : WriteTool → Except Err Sending
  | .leadCreate => toolCrmLeadCreate lib environ env config tenant agent args
  | .dealCreate => toolCrmDealCreate lib environ env config tenant agent args
  | .attachCall => toolCrmAttachCall lib environ env config tenant agent args
  | .attachMessage => toolCrmAttachMessage lib environ env config tenant agent args

end Tools

/-! ### Operators, agents and workers, interleaved -/

/-- The answers of `config(tenant)`. -/
abbrev Config := String → Except Err Json

/-- A connection's configuration; nothing where the tenant's cannot be read. -/
def rawOf (config : Config) (tenant connection : String) : Json :=
  match config tenant with
  | .ok config => connectionIn config connection
  | .error _ => .null

/-- A request that was sent, with the configurations of its connection in force when the approved
fingerprint was computed. -/
structure Sent where
  tool : WriteTool
  spec : StepSpec
  environ : String → String
  raw : Json
  request : Request
  approved : List Json

/-- The database and the configuration; the plans that were fingerprinted; the configuration each step
was submitted under; the steps `claim` handed out; and the requests that were sent. -/
structure GateState where
  db : Db := {}
  config : Config := fun _ => .ok (.obj [])
  plans : List Plan := []
  submitted : List (Uuid × Config) := []
  handed : List StepSpec := []
  sent : List Sent := []

/-- One event. -/
inductive GateLabel
  | op (op : Op)
  | configure (config : Config)
  | plan (env : Env) (tenant agent : String) (args : Json)
  | planDeal (tenant agent connection : String) (data : Json)
  /-- A worker runs the tool of a step it was handed, in its process environment. -/
  | dispatch (env : Env) (environ : String → String) (step : Uuid)

/-- The connection a step names. -/
def connectionName (spec : StepSpec) : String :=
  match cleanText (spec.args.getD "connection" .null) "connection" 128 with
  | .ok name => name
  | .error _ => ""

/-- The configurations of a step's connection in force when its approved fingerprint was computed. -/
def GateState.approved (lib : Library) (s : GateState) (tool : WriteTool) (spec : StepSpec) :
    List Json :=
  if tool.planned then
    (s.plans.filter fun p =>
      (spec.args.getD "plan_fingerprint" .null).same (.str (p.fingerprint lib))).map Plan.raw
  else
    (s.submitted.filter fun e => e.1 = spec.id).map fun e =>
      rawOf e.2 spec.tenant (connectionName spec)

/-- The agent of a step's task. -/
def agentOf (db : Db) (spec : StepSpec) : String :=
  ((db.tasks.find? fun t => t.id = spec.task).map TaskRow.agent).getD ""

/-- What a worker sends when it runs the tool of a step. -/
def GateState.send (lib : Library) (s : GateState) (env : Env) (environ : String → String)
    (tool : WriteTool) (spec : StepSpec) : Except Err Sending :=
  tool.run lib environ env (s.config spec.tenant) spec.tenant (agentOf s.db spec) spec.args

namespace GateState

/-- The write tool of a step `claim` handed out. -/
def claimed? (s : GateState) (step : Uuid) : Option (WriteTool × StepSpec) :=
  match s.handed.find? fun spec => spec.id = step with
  | some spec => (WriteTool.ofName? spec.tool).map fun tool => (tool, spec)
  | none => none

/-- The state after an event; a tool that raises sends nothing. -/
def after (lib : Library) (P : Platform) (s : GateState) : GateLabel → GateState
  | .op op =>
    { s with
      db := s.db.after P op
      submitted := s.submitted ++ ((s.db.after P op).steps.filter fun r =>
        s.db.steps.all fun r' => r'.id ≠ r.id).map fun r => (r.id, s.config)
      handed := s.handed ++ (match exec P s.db op with
        | .ok (_, .claimed spec _) => [spec]
        | _ => []) }
  | .configure config => { s with config := config }
  | .plan env tenant agent args =>
    match toolCrmLeadPlan lib env (s.config tenant) tenant agent args with
    | .ok p => { s with plans := s.plans ++ [p] }
    | .error _ => s
  | .planDeal tenant agent connection data =>
    match Crm.planDeal lib (s.config tenant) tenant agent connection data with
    | .ok p => { s with plans := s.plans ++ [p] }
    | .error _ => s
  | .dispatch env environ step =>
    match s.claimed? step with
    | none => s
    | some (tool, spec) =>
      match s.send lib env environ tool spec with
      | .ok out =>
        { s with sent := s.sent ++
            [⟨tool, spec, environ, out.raw, out.request, s.approved lib tool spec⟩] }
      | .error _ => s

end GateState

/-- One event, as a step. -/
def GateStep (lib : Library) (P : Platform) (s : GateState) (l : GateLabel) (t : GateState) : Prop :=
  t = s.after lib P l

end AgentPlatform.Crm
