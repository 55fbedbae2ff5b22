import AgentPlatform.Conversation.Prompt
import AgentPlatform.Engine.SingleStep

/-!
# Handoffs, notifications and orders

What the transactions of a worker leave for people, over `Conversation.Worker`:

* `handoff` records that an operator is needed, once for a turn;
* `notify` tells the pack's `notify_recipient`, in a task of its own;
* `capture` turns the valid draft of a settled run into one `records.create` task of the pack's `order_agent`.

All of them run inside the transaction of `_finish`, `_leave_to_operator` or `_settle`: an exception nobody
catches undoes that transaction, and the worker begins again. A refused submission is caught.
-/

namespace AgentPlatform.Conversation

open Outcome Engine

/-- A record of kind `HANDOFF_KIND` in `p_records`. -/
structure HandoffRow where
  tenant : String
  id : String
  body : String
  created : Time

/-- A captured order: whose it is, the inbound event it came with, and its task. -/
structure Order where
  tenant : String
  channel : String
  sender : String
  agent : String
  eventKey : String
  task : Uuid
  deriving DecidableEq

/-- The customer of an order, with the agent that takes it. -/
def Order.customer (o : Order) : String × String × String × String :=
  (o.tenant, o.channel, o.sender, o.agent)

/-- The inbound event of an order. -/
def Order.event (o : Order) : String × String × String := (o.tenant, o.channel, o.eventKey)

/-- The conversations with what they leave for people. `orders` are the orders captured so far. -/
structure Desk where
  base : State := {}
  handoffs : List HandoffRow := []
  orders : List Order := []

def orderDraftTool : String := "orders.draft"

def orderWriteTool : String := "records.create"

def notifyTool : String := "telegram.send"

def notifyChannel : String := "conversation"

def loopActor : String := "conversation"

def maxPendingOrdersPerSender : ℕ := 1

def maxTaskKeyChars : ℕ := 256

def maxNotifyChars : ℕ := 1000

def maxNotifyQuoteChars : ℕ := 300

def maxOrderTitleChars : ℕ := 200

def maxHandoffTextChars : ℕ := 1000

/-- `_derived_key`. -/
def derivedKey (P : Platform) (parts : List String) : String :=
  let key := ":".intercalate parts
  if key.length ≤ maxTaskKeyChars then key
  else parts.getLastD "" ++ ":" ++ digest P.sha256 (.arr (parts.map .str))

/-! ### The texts -/

/-- `HANDOFF_REASONS`. -/
def handoffReasons : List (String × String) :=
  [("ungrounded_number", "javobdagi son tasdiqlanmadi"),
    ("llm_unavailable", "model yoqilmagan"),
    ("conversation_disabled", "suhbat o‘chirilgan"),
    ("empty_reply", "agent javob bermadi"),
    ("run_rejected", "agent ishga tushmadi"),
    ("send_uncertain", "javob mijozga yetgani noma’lum"),
    ("order_rejected", "buyurtma yozilmadi"),
    ("order_pending", "oldingi buyurtma hali tasdiqlanmagan"),
    ("operator_takeover", "suhbat operator qo‘lida, mijoz yana yozdi")]

/-- `str(value)`, with `repr` of a list or a dictionary as a parameter. -/
def pyStr (repr : Json → String) : Json → String
  | .null => "None"
  | .bool true => "True"
  | .bool false => "False"
  | .int n => toString n
  | .float literal => literal
  | .str s => s
  | value => repr value

/-- `a or b`. -/
def orElse (a b : Json) : Json := if a.truthy then a else b

/-- The digits of a number from the last one, with a space after every three. -/
def grouped : List Char → List Char
  | a :: b :: c :: d :: rest => a :: b :: c :: ' ' :: grouped (d :: rest)
  | digits => digits

/-- `_money`. -/
def money : Json → String
  | .int n => (if n < 0 then "-" else "") ++
      String.ofList (grouped (toString n.natAbs).toList.reverse).reverse
  | _ => "—"

/-- `_quote`. -/
def quoted (text : String) : String :=
  let flat := flattened text.toList
  String.ofList (flat.take maxNotifyQuoteChars) ++
    if maxNotifyQuoteChars < flat.length then "…" else ""

/-- `_where_to`. -/
def whereTo (repr : Json → String) (draft : Json) : String :=
  let delivery := draft.getD "delivery" .null
  pyStr repr (orElse (orElse (delivery.getD "branch_name" .null) (delivery.getD "address" .null))
    (.str ""))

/-- `_handoff_note`. -/
def handoffNote (u : TurnRow) (reason text : String) : String :=
  let label := ((handoffReasons.find? fun r => r.1 = reason).map Prod.snd).getD
    (if reason = "" then "operator kerak" else reason)
  truncate maxNotifyChars ("Operator kerak: " ++ label ++ ".\nSuhbat: " ++ u.channel ++ " / " ++
    u.conversationId ++ "\nMijoz: " ++ quoted text)

/-- `_order_title`. -/
def orderTitle (repr : Json → String) (draft : Json) : String :=
  truncate maxOrderTitleChars
    (pyStr repr (orElse (draft.getD "product_name" .null) (draft.getD "product_id" (.str ""))) ++ ", " ++
      pyStr repr (orElse (draft.getD "size" .null) (.str "—")) ++ ", " ++
      pyStr repr (draft.getD "qty" .null) ++ " dona — " ++ money (draft.getD "total_uzs" .null) ++
      " so‘m")

/-- `_order_note`. -/
def orderNote (repr : Json → String) (u : TurnRow) (draft : Json) (text : String) : String :=
  truncate maxNotifyChars ("Yangi buyurtma, tasdiqlang: " ++ orderTitle repr draft ++ ".\nMijoz: " ++
    pyStr repr (draft.getD "customer_name" (.str "")) ++ ", " ++
    pyStr repr (draft.getD "phone" (.str "")) ++ "; " ++ whereTo repr draft ++ "\nSuhbat: " ++
    u.channel ++ " / " ++ u.conversationId ++ "\nXabar: " ++ quoted text)

/-! ### The settings -/

/-- What `_settings` returns to `_notify` and `_capture_order`. -/
structure OrderSettings where
  orderAgent : String
  orderKind : String
  notifyRecipient : String

/-- `_settings`: a value of the wrong type counts as missing. -/
def orderSettings (env : Env) (tenant agent : String) : Except Err OrderSettings := do
  let policy ← policyOr env tenant agent
  let raw := policy.getD "conversation" .null
  let text := fun (key default : String) =>
    match raw.get? key with
    | some (.str s) => s
    | _ => default
  pure ⟨text "order_agent" "", text "order_kind" "order", text "notify_recipient" ""⟩

/-! ### Inside a transaction -/

/-- The exceptions `_side_task` catches. -/
def isRefusal (e : Err) : Bool :=
  e.isPermissionError || e.isValueError || e.isLookupError ||
    match e with
    | .rateLimited _ => true
    | _ => false

/-- The plan of a notification. -/
def notifySteps (recipient text : String) : List Json :=
  [.obj [("tool", .str notifyTool),
    ("args", .obj [((directDestinationField notifyTool).getD "", .str recipient),
      ("text", .str (truncate maxNotifyChars text))])]]

/-- The draft of a result of `orders.draft`, where it is valid. -/
def validDraft? (result : Json) : Option Json :=
  match result.getD "valid" .null, result.getD "draft" .null with
  | .bool true, .obj members => some (.obj members)
  | _, _ => none

/-- `_order_draft`: the draft of the latest step that gave a valid one. -/
def orderDraft (s : State) (tenant : String) (run : Uuid) : Option Json :=
  ((((s.agent.turns.filter fun l => decide (l.tenant = tenant) && decide (l.run = run)).insertionSort
    fun l l' => l'.position ≤ l.position).flatMap fun l =>
      s.db.steps.filter fun r => decide (r.tenant = l.tenant) && decide (r.task = l.task) &&
        decide (r.spec.tool = orderDraftTool) && decide (r.status = .succeeded)).findSome?
    fun r => validDraft? r.result)

/-- `event_key LIKE '%:order' OR event_key LIKE 'order:%'`. -/
def isOrderKey (key : String) : Bool :=
  let lower := key.toList.map Char.toLower
  ":order".toList.isSuffixOf lower || "order:".toList.isPrefixOf lower

/-- An order task of a customer that nobody has decided yet. -/
def isPendingOrder (db : Db) (customer : String × String × String × String) (t : TaskRow) : Bool :=
  decide ((t.tenant, t.channel, t.actor, t.agent) = customer) && t.status.active &&
    isOrderKey t.eventKey && db.steps.any fun r => decide (r.tenant = t.tenant) &&
      decide (r.task = t.id) && decide (r.spec.tool = orderWriteTool)

/-- `_pending_orders`. -/
def pendingOrders (db : Db) (customer : String × String × String × String) : ℕ :=
  db.tasks.countP (isPendingOrder db customer)

/-- `{**draft, …}`. -/
def withMembers (value : Json) (new : List (String × Json)) : Json :=
  .obj ((value.members.filter fun m => !new.any fun m' => m'.1 = m.1) ++ new)

/-- The arguments of an order: its body is the draft, with where it came from. -/
def orderArgs (repr : Json → String) (config : OrderSettings) (u : TurnRow) (draft : Json) : Json :=
  let body := (withMembers draft [("channel", .str u.channel),
    ("conversation_id", .str u.conversationId), ("event_key", .str u.eventKey)]).encode
  .obj [("kind", .str config.orderKind), ("title", .str (orderTitle repr draft)), ("body", .str body)]

/-- The plan of an order. -/
def orderSteps (repr : Json → String) (config : OrderSettings) (u : TurnRow) (draft : Json) :
    List Json :=
  [.obj [("tool", .str orderWriteTool), ("args", orderArgs repr config u draft)]]

namespace Desk

/-- The engine's database. -/
def db (d : Desk) : Db := d.base.db

/-- What a submission leaves in the database. -/
def setDb (d : Desk) (db : Db) : Desk :=
  { d with base := { d.base with agent := { d.base.agent with db := db } } }

/-- `_event_text`. -/
def eventText (d : Desk) (u : TurnRow) : String :=
  match d.db.event? u.tenant u.channel u.eventKey with
  | some e => payloadText e.payload "text"
  | none => ""

section Transaction

variable (P : Platform) (repr : Json → String) (env : Env) (d : Desk)

/-- `_side_task`: the task of the key, or a new one; `none` where the submission was refused. -/
def sideTask (tenant channel key agent : String) (steps : List Json) (actor : String) :
    Except Err (Desk × Option Uuid) :=
  match d.db.taskOf? tenant channel key with
  | some t => .ok (d, some t.id)
  | none =>
    match submit P env d.db tenant channel key agent steps actor with
    | .ok (db, task) => .ok (d.setDb db, some task)
    | .error e => if isRefusal e then .ok (d, none) else .error e

/-- `_notify`. -/
def notify (u : TurnRow) (kind text : String) : Except Err Desk := do
  let config ← orderSettings env u.tenant u.agent
  if config.notifyRecipient = "" then pure d
  else do
    let (d, _) ← sideTask P env d u.tenant notifyChannel
      (derivedKey P [u.channel, u.eventKey, "notify", kind]) u.agent
      (notifySteps config.notifyRecipient text) loopActor
    pure d

/-- The key of the handoff of a turn. -/
def handoffId (u : TurnRow) : String := u.channel ++ ":" ++ u.eventKey

/-- The handoff of a turn stands in `p_records`. -/
def handed (u : TurnRow) : Bool :=
  d.handoffs.any fun r => decide (r.tenant = u.tenant) && decide (r.id = handoffId u)

/-- The record `_handoff` inserts. -/
def handoffRow (u : TurnRow) (reason : String) : HandoffRow :=
  ⟨u.tenant, handoffId u, (Json.obj [("channel", .str u.channel), ("event_key", .str u.eventKey),
    ("conversation_id", .str u.conversationId), ("sender", .str u.sender), ("agent", .str u.agent),
    ("reason", .str reason), ("text", .str (truncate maxHandoffTextChars (d.eventText u)))]).encode,
    env.now⟩

/-- `_handoff`. -/
def handoff (u : TurnRow) (reason : String) : Except Err Desk :=
  if d.handed u then pure d
  else
    notify P env { d with handoffs := d.handoffs ++ [d.handoffRow env u reason] } u "handoff"
      (handoffNote u reason (d.eventText u))

/-- The key of the order of a turn. -/
def orderKey (u : TurnRow) : String := derivedKey P [u.eventKey, "order"]

/-- The customer of a turn, with the agent that takes the order. -/
def customerOf (u : TurnRow) (agent : String) : String × String × String × String :=
  (u.tenant, u.channel, u.sender, agent)

/-- Notes a captured order. -/
def captured (u : TurnRow) (agent : String) (task : Uuid) : Desk :=
  { d with orders := d.orders ++ [⟨u.tenant, u.channel, u.sender, agent, u.eventKey, task⟩] }

/-- The task of an order, and what follows it: a note to the operator, or the handoff of a refusal. A new
task is noted among the orders. -/
def place (u : TurnRow) (config : OrderSettings) (draft : Json) : Except Err Desk := do
  let known := d.db.taskOf? u.tenant u.channel (orderKey P u)
  let (d, task) ← sideTask P env d u.tenant u.channel (orderKey P u) config.orderAgent
    (orderSteps repr config u draft) u.sender
  match task with
  | none => handoff P env d u "order_rejected"
  | some task =>
    let d := if known.isSome then d else d.captured u config.orderAgent task
    notify P env d u "order" (orderNote repr u draft (d.eventText u))

/-- `_capture_order`. -/
def capture (u : TurnRow) : Except Err Desk := do
  let config ← orderSettings env u.tenant u.agent
  match u.run.bind (orderDraft d.base u.tenant) with
  | none => pure d
  | some draft =>
    if config.orderAgent = "" then pure d
    else if (d.db.taskOf? u.tenant u.channel (orderKey P u)).isNone = true ∧
        maxPendingOrdersPerSender ≤ pendingOrders d.db (customerOf u config.orderAgent) then
      handoff P env d u "order_pending"
    else place P repr env d u config draft

/-- Whether the turn still has the status a write asks for. -/
def stands (u : TurnRow) (status : TurnStatus) : Bool :=
  d.base.turns.any fun x => decide (x.key = u.key) && decide (x.status = status)

/-- `_finish`. -/
def finish (w : ℕ) (u : TurnRow) (status : TurnStatus) (error : String) : Except Err Desk :=
  let written := { d with base := d.base.finish w u status error }
  if d.stands u .delivering then handoff P env written u error else pure written

/-- `_leave_to_operator`. -/
def leave (w : ℕ) (u : TurnRow) : Except Err Desk :=
  let written := { d with base := d.base.leave w u }
  if d.stands u .queued then handoff P env written u "operator_takeover" else pure written

/-- The write of `_settle`. -/
def settle (w : ℕ) (u : TurnRow) (reply reason : String) : Except Err Desk := do
  let written := { d with base := d.base.settle w u reply reason }
  if d.stands u .opened then do
    let told ← if reason = "" then pure written else handoff P env written u reason
    capture P repr env told u
  else pure written

/-- A transaction that was committed, or undone by its exception. -/
def committed (w : ℕ) (x : Except Err Desk) : Desk :=
  match x with
  | .ok t => t
  | .error _ => { d with base := d.base.goto w .idle }

/-- The next statement of a worker. -/
def work (w : ℕ) (reads : Reads) : Desk :=
  match d.base.workers w with
  | .finishing u status error => d.committed w (finish P env d w u status error)
  | .leaving u => d.committed w (leave P env d w u)
  | .settled u reply reason => d.committed w (settle P repr env d w u reply reason)
  | _ => { d with base := d.base.work P w env reads }

end Transaction

/-- The state after a label. -/
def after (P : Platform) (repr : Json → String) (d : Desk) : Label → Desk
  | .work w env reads => d.work P repr env w reads
  | l => { d with base := d.base.after P l }

/-- One label. -/
def Step (P : Platform) (repr : Json → String) (d : Desk) (l : Label) (t : Desk) : Prop :=
  t = d.after P repr l

end Desk

end AgentPlatform.Conversation
