import AgentPlatform.Engine.Schema

/-!
# Validation against the current policy

`_validated` decides, step by step, whether an agent may run a plan, whether a step needs an
approval, and the fingerprint an approval binds: the digest of the tool, its arguments, its risk, its
device and the policy itself.

What the engine asks of the rest of the platform is an `Env`, read anew by every operation: the
pack policy, the authority directory, the bindings the connector, Google and database gateways check,
and the clock.
-/

namespace AgentPlatform.Engine

open Outcome

/-- What one operation reads outside the database. -/
structure Env where
  /-- `engine.policy(tenant, agent)`. -/
  policy : String → String → Except Err Json
  /-- `engine.authority(c, tenant, channel, actor, roles)`. -/
  authority : String → String → String → List String → Except Err Unit
  /-- The gateway checks of one step, with the members they add to its fingerprint. -/
  bindings : String → String → String → Json → Except Err (List (String × Json))
  /-- `engine.clock()`. -/
  now : Time
  /-- The clock readings of `require_task_parent`, by the task asked about. -/
  parentNow : Uuid → Time

/-- What the engine is built with: its registry, and the SHA-256 of a text. -/
structure Platform where
  registry : Registry
  sha256 : String → String

/-- `DESCRIPTIVE_POLICY_KEYS`. -/
def descriptivePolicyKeys : List String := ["persona", "conversation"]

/-- `DIRECT_DESTINATION_FIELD`. -/
def directDestinationField (tool : String) : Option String :=
  if tool = "telegram.send" then some "conversation_id"
  else if tool = "instagram.send" then some "conversation_id"
  else if tool = "whatsapp.send" then some "contact"
  else none

/-- `name in OUTBOUND_TOOLS`. -/
def isOutboundTool (tool : String) : Bool := (directDestinationField tool).isSome

/-- `OUTBOUND_CHANNELS`. -/
def outboundChannels : List String := ["telegram", "instagram", "whatsapp"]

def operatorChannel : String := "operator"

def operatorReplyPrefix : String := "operator-reply:"

/-- `tool.endswith('.send')`. -/
def isSend (tool : String) : Bool := ".send".toList.isSuffixOf tool.toList

/-- `tool[:-len('.send')]`. -/
def sendChannel (tool : String) : String :=
  String.ofList (tool.toList.take (tool.toList.length - 5))

/-- Where a task's outbound steps may go: the verified conversation it answers. -/
structure Origin where
  channel : String
  replyChannel : String
  conversationId : Json

namespace Env

/-- `require_authority(c, tenant, channel, actor, roles)`. -/
def requireAuthority (env : Env) (tenant : String) (channel : String := "") (actor : String := "")
    (roles : List String := ["owner", "operator"]) : Except Err Unit :=
  env.authority tenant channel actor roles

/-- `require_active`. -/
def requireActive (env : Env) (db : Db) (tenant : String) : Except Err Unit := do
  env.requireAuthority tenant
  ensure (db.frozen tenant = false) (.forbidden "Tenant is frozen")

/-- `require_task_parent`. -/
def requireTaskParent (env : Env) (db : Db) (tenant : String) (task : Uuid) : Except Err Unit :=
  match db.agentTurns.find? fun l => decide (l.tenant = tenant) && decide (l.task = task) with
  | none => pure ()
  | some l =>
    match db.runs.find? fun r => decide (r.id = l.run) && decide (r.tenant = l.tenant) with
    | none => pure ()
    | some r =>
      ensure (r.status = .waitingTask ∧ r.currentTask = some task ∧ env.parentNow task < r.deadline)
        (.forbidden "Agent run no longer authorizes this task")

end Env

/-! ### The verified conversation -/

/-- `_origin`. -/
def origin (db : Db) (tenant channel eventKey : String) : Option Origin :=
  if channel ∈ outboundChannels then
    (db.event? tenant channel eventKey).map fun e =>
      ⟨channel, "", e.payload.getD "conversation_id" .null⟩
  else none

/-- `_operator_origin`. -/
def operatorOrigin (db : Db) (tenant tool : String) (args : Json) : Except Err Origin := do
  ensure (isOutboundTool tool = true ∧ isSend tool = true)
    (.forbidden "Operator reply requires a channel send")
  let channel := sendChannel tool
  ensure (channel ∈ outboundChannels)
    (.forbidden "Operator reply needs a channel with a verified inbound stream")
  let target := args.getD ((directDestinationField tool).getD "") .null
  ensure (target.isNonemptyText = true) (.valueError "Invalid conversation identity")
  ensure ((db.events.any fun e => decide (e.tenant = tenant) && decide (e.channel = channel) &&
      (e.payload.getD "conversation_id" .null).same target) = true)
    (.notFound "Conversation unknown to this tenant")
  pure ⟨operatorChannel, channel, target⟩

/-! ### `_validated` -/

/-- `_preauthorized`. -/
def preauthorized (policy : Json) (name : String) (args : Json) (origin : Option Origin) : Bool :=
  match directDestinationField name with
  | none => false
  | some field =>
    let recipient := args.getD field .null
    (policy.getD "ladder" .null).isText "autonomous" &&
      (((policy.getD "allowed_recipients" (.arr [])).items.any recipient.same) ||
        origin.any fun o => decide (name = o.channel ++ ".send") && recipient.same o.conversationId)

/-- What a fingerprint binds. -/
structure Canonical where
  tool : String
  args : Json
  risk : Risk
  approval : Bool
  device : String
  policy : Json
  bindings : List (String × Json)

/-- The canonical dictionary of a step. -/
def Canonical.toJson (c : Canonical) : Json :=
  .obj ([("tool", .str c.tool), ("args", c.args), ("risk", .str c.risk.text),
    ("approval", .bool c.approval), ("device", .str c.device),
    ("policy", .obj (c.policy.members.filter fun m => !descriptivePolicyKeys.contains m.1))] ++
      c.bindings)

/-- The fingerprint of a step. -/
def Canonical.fingerprint (P : Platform) (c : Canonical) : String := digest P.sha256 c.toJson

/-- One validated step. -/
structure Validated where
  tool : String
  args : Json
  risk : Risk
  needed : Bool
  fingerprint : String
  device : String

/-- The tools that name a connection. -/
def connectionTools : List String :=
  ["connectors.read", "database.read", "database.plan_write", "database.write"]

/-- Whether a step needs an approval. -/
def approvalNeeded (policy : Json) (operator : Bool) (name : String) (args : Json) (risk : Risk)
    (origin : Option Origin) : Bool :=
  (policy.getD "ladder" .null).isText "human_led" || operator ||
    (policy.getD "approval" (.arr [])).hasText name ||
    (decide (risk = .destructive) || decide (risk = .physical)) ||
    (decide (risk ≠ .read) && !preauthorized policy name args origin)

/-- The name of a step's tool; a step without one names no registered tool. -/
def toolName (step : Json) : Except Err String :=
  match step.get? "tool" with
  | some (.str name) => .ok name
  | _ => .error (.lookupError "Unknown executable tool")

/-- The device of a step. -/
def stepDevice (step : Json) : Except Err String :=
  match step.getD "device" (.str "") with
  | .str device => do
    ensure (device.length ≤ 128) (.valueError "Invalid device")
    pure device
  | _ => .error (.valueError "Invalid device")

/-- One step of the plan, under a policy. -/
def validatedStep (P : Platform) (env : Env) (tenant agent : String) (policy : Json)
    (origin : Option Origin) (step : Json) : Except Err Validated := do
  let operator := origin.any fun o => o.channel = operatorChannel
  ensure (step.isDict = true ∧ (step.members.all fun m => ["tool", "args", "device"].contains m.1) =
    true) (.valueError "Invalid step fields")
  let name ← toolName step
  let spec ← P.registry.get name
  ensure ((policy.getD "tools" (.arr [])).hasText name = true)
    (.forbidden "Tool not allowed for agent")
  ensure ((operator && ((origin.all fun o => name ≠ o.replyChannel ++ ".send") ||
      decide (spec.risk = .destructive) || decide (spec.risk = .physical))) = false)
    (.forbidden "Operator reply may only carry a plain channel send")
  let args := step.getD "args" (.obj [])
  spec.validate args
  if name ∈ connectionTools then do
    let connection ← need (args.get? "connection") (.lookupError "'connection'")
    ensure (((policy.getD "allowed_connections" (.arr [])).items.any connection.same) = true)
      (.forbidden "Connection not allowed for agent")
  let bindings ← env.bindings tenant agent name args
  let needed := approvalNeeded policy operator name args spec.risk origin
  let device ← stepDevice step
  ensure (spec.runner = true → device ≠ "") (.valueError "Runner tool requires device")
  ensure (spec.runner = false → device = "") (.valueError "Cloud step must not bind device")
  let canonical : Canonical := ⟨name, args, spec.risk, needed, device, policy, bindings⟩
  pure ⟨name, args, spec.risk, needed, canonical.fingerprint P, device⟩

/-- `_validated`. -/
def validated (P : Platform) (env : Env) (tenant agent : String) (steps : List Json)
    (origin : Option Origin := none) : Except Err (List Validated) := do
  let policy ← env.policy tenant agent
  ensure ((["human_led", "human_assisted", "autonomous"].any fun l =>
    (policy.getD "ladder" .null).isText l) = true) (.forbidden "Invalid autonomy policy")
  ensure (1 ≤ steps.length ∧ steps.length ≤ 20) (.valueError "Plan requires 1..20 steps")
  ensure ((origin.any fun o => o.channel = operatorChannel) = true → steps.length = 1)
    (.valueError "An operator reply is exactly one send")
  steps.mapM (validatedStep P env tenant agent policy origin)

end AgentPlatform.Engine
