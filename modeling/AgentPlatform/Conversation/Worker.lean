import AgentPlatform.Agent.Loop
import AgentPlatform.Conversation.Turns
import AgentPlatform.Lib.Window

/-!
# Conversation workers

`ConversationTurns.tick`, with `_close`, `_deliver`, `_settle` and `_open`, over the agent loop and the
engine, and what else writes to a conversation: `record_turn`, takeovers, and the settling of delivered
operator replies.

Every statement of a worker is a label of its own; its `Stage` is the point it has reached, with the turn
it looked up. A crash, or an exception nobody catches, sends it back to `idle`. What a statement reads
outside the tables is an input of its label; handoffs, notifications and captured orders are not modelled,
their tasks being operations of the engine like any other.
-/

namespace AgentPlatform.Conversation

open Outcome Engine

/-- The role column of `p_conversation_history`. -/
inductive Role
  | customer
  | agent
  | operator
  deriving DecidableEq, Repr

/-- A row of `p_conversation_history`. -/
structure LineRow where
  tenant : String
  channel : String
  conversationId : String
  seq : ℕ
  role : Role
  text : String
  deriving DecidableEq, Repr

/-- The conversation of a line. -/
def LineRow.conversation (r : LineRow) : String × String × String :=
  (r.tenant, r.channel, r.conversationId)

/-- The conversation of a turn. -/
def TurnRow.conversation (u : TurnRow) : String × String × String :=
  (u.tenant, u.channel, u.conversationId)

/-- `status in BUSY`. -/
def TurnStatus.busy : TurnStatus → Bool
  | .opened | .delivering => true
  | _ => false

def maxOpenTurns : ℕ := 20

def maxHistoryRows : ℕ := 40

def maxRunInputChars : ℕ := 4000

def maxSettleScan : ℕ := 100

def maxSettleBatch : ℕ := 50

def defaultHandoffText : String :=
  "Rahmat! Savolingizni operatorga uzatdim, tez orada javob beramiz."

/-- Where a worker stands in `tick`. -/
inductive Stage
  | idle
  /-- `_close` looks for a turn whose task has ended. -/
  | closing (tenant : String)
  /-- The reply was sent; the turn is marked delivered next. -/
  | answered (u : TurnRow)
  /-- `_finish` is next. -/
  | finishing (u : TurnRow) (status : TurnStatus) (error : String)
  /-- `_deliver` looks for a turn without a task. -/
  | delivering (tenant : String)
  /-- The takeover is checked next. -/
  | checking (u : TurnRow)
  /-- The reply is submitted next. -/
  | submitting (u : TurnRow)
  /-- The submission raised `Conflict`; the task of the key is looked up next. -/
  | conflicted (u : TurnRow)
  /-- The task is recorded in the turn next. -/
  | submitted (u : TurnRow) (task : Uuid)
  /-- `_settle` looks for an open turn whose run has ended. -/
  | settling (tenant : String)
  /-- The reply is written next. -/
  | settled (u : TurnRow) (reply reason : String)
  /-- `_open` looks for a queued turn. -/
  | opening (tenant : String)
  /-- A human holds the chat; the turn is left to the operator next. -/
  | leaving (u : TurnRow)
  /-- The settings and an existing run are looked up next. -/
  | preparing (u : TurnRow)
  /-- The run is created next. -/
  | creating (u : TurnRow) (prompt : String) (maxSteps maxSeconds : ℤ)
  /-- The turn is marked open next. -/
  | ready (u : TurnRow) (run : Option Uuid) (error : String)

/-- The agent loop with the engine under it, the tables of the conversations, and where every worker
stands. `markers` are the records of kind `OPERATOR_LINE_KIND`. -/
structure State where
  agent : Agent.State := {}
  turns : List TurnRow := []
  takeovers : List TakeoverRow := []
  history : List LineRow := []
  markers : List (String × Uuid) := []
  workers : ℕ → Stage := fun _ => .idle

/-- The engine's database. -/
def State.db (s : State) : Db := s.agent.view

/-! ### The history -/

/-- `_next_seq`. -/
def nextSeq (history : List LineRow) (conversation : String × String × String) : ℕ :=
  ((history.filter fun r => r.conversation = conversation).map LineRow.seq).foldr max 0 + 1

/-- `_append`, under the next number. -/
def appendLine (history : List LineRow) (tenant channel conversationId : String) (role : Role)
    (text : String) : List LineRow :=
  let seq := nextSeq history (tenant, channel, conversationId)
  let row : LineRow :=
    ⟨tenant, channel, conversationId, seq, role, truncate maxRunInputChars text⟩
  (history ++ [row]).filter fun r => !(decide (r.conversation = row.conversation) &&
    decide (r.seq + maxHistoryRows ≤ seq))

/-- A text of a payload. -/
def payloadText (payload : Json) (key : String) : String :=
  match payload.getD key (.str "") with
  | .str text => text
  | _ => ""

/-- `record_turn`: the turn, and with a new turn the customer's line. -/
def State.record (env : Env) (s : State) (tenant channel eventKey agent : String) (payload : Json) :
    Except Err State := do
  let turns ← recordTurn env s.turns tenant channel eventKey agent payload
  if s.turns.any fun u => u.key = (tenant, channel, eventKey) then pure s
  else pure { s with
    turns := turns
    history := appendLine s.history tenant channel (payloadText payload "conversation_id") .customer
      (payloadText payload "text") }

/-! ### The policy -/

/-- `engine.policy`, or nothing where it refuses. -/
def policyOr (env : Env) (tenant agent : String) : Except Err Json :=
  match env.policy tenant agent with
  | .ok policy => .ok policy
  | .error e =>
    if e.isPermissionError || e.isLookupError || e.isValueError || e.isRuntimeError then .ok (.obj [])
    else .error e

/-- `_takeover_minutes`. -/
def policyMinutes (policy : Json) : ℤ :=
  match (policy.getD "conversation" .null).getD "takeover_minutes" .null with
  | .int n => if 1 ≤ n ∧ n ≤ 1440 then n else 30
  | _ => 30

/-- What `_settings` returns to `_open` and `_settle`. -/
structure Settings where
  enabled : Bool
  maxSteps : ℤ
  maxSeconds : ℤ
  fallbackText : String

/-- `_settings`: a value of the wrong type counts as missing. -/
def settings (env : Env) (tenant agent : String) : Except Err Settings := do
  let policy ← policyOr env tenant agent
  let raw := policy.getD "conversation" .null
  let int := fun (key : String) (default : ℤ) =>
    match raw.get? key with
    | some (.int n) => n
    | _ => default
  pure {
    enabled :=
      match raw.get? "enabled" with
      | some (.bool b) => b
      | _ => false
    maxSteps := int "max_steps" 3
    maxSeconds := int "max_seconds" 180
    fallbackText :=
      match raw.get? "fallback_text" with
      | some (.str text) => text
      | _ => "" }

/-! ### Operator replies -/

/-- `step[key]`, a text. -/
def argText (args : Json) (key : String) : Except Err String :=
  match args.get? key with
  | some (.str text) => .ok text
  | some _ => .error (.typeError "Text expected")
  | none => .error (.lookupError key)

/-- `_PENDING`: the succeeded operator replies without a marker, with their step. The `updated` column of
the tasks is an argument. -/
def pendingReplies (db : Db) (markers : List (String × Uuid)) (tenant : String)
    (updated : Uuid → Time) : List (TaskRow × StepSpec) :=
  (((db.tasks.filter fun t => decide (t.tenant = tenant) && decide (t.channel = operatorChannel) &&
      decide (t.status = .succeeded) && !markers.contains (tenant, t.id)).insertionSort
    fun t t' => updated t.id < updated t'.id ∨
      (updated t.id = updated t'.id ∧ t.created ≤ t'.created)).filterMap fun t =>
    (db.steps.find? fun r => decide (r.tenant = tenant) && decide (r.task = t.id) &&
      decide (r.spec.position = 0)).map fun r => (t, r.spec)).take maxSettleBatch

/-- One reply of `settle_operator_replies`. -/
def settleReply (env : Env) (s : State) (x : TaskRow × StepSpec) : Except Err State := do
  let field ← need (directDestinationField x.2.tool) (.lookupError x.2.tool)
  let channel := sendChannel x.2.tool
  let conversationId ← argText x.2.args field
  if (x.1.tenant, x.1.id) ∈ s.markers then pure s
  else do
    let text ← argText x.2.args "text"
    let policy ← policyOr env x.1.tenant x.1.agent
    let takeovers ← takeoverIn s.takeovers x.1.tenant channel conversationId x.1.actor
      (policyMinutes policy) env.now
    pure { s with
      markers := s.markers ++ [(x.1.tenant, x.1.id)]
      history := appendLine s.history x.1.tenant channel conversationId .operator text
      takeovers := takeovers }

/-- `settle_operator_replies`. -/
def settleReplies (env : Env) (s : State) (tenant : String) (updated : Uuid → Time) :
    Except Err State :=
  (pendingReplies s.db s.markers tenant updated).foldlM (settleReply env) s

/-! ### The statements of a worker -/

/-- What a statement reads outside the tables: the configuration of the model, the input of the run
`_open` creates, and whether the grounding gate of `_settle` refuses the answer. -/
structure Reads where
  llmEnabled : Bool
  prompt : String
  ungrounded : Bool

/-- `SELECT … WHERE p ORDER BY created,rowid`. -/
def sortedTurns (p : TurnRow → Bool) (turns : List TurnRow) : List TurnRow :=
  (turns.filter p).insertionSort fun u u' => u.created ≤ u'.created

/-- `_in_flight`. -/
def inFlight (turns : List TurnRow) (tenant : String) : ℕ :=
  turns.countP fun u => decide (u.tenant = tenant) && decide (u.status = .opened)

/-- The candidate of `_open`: a queued turn of a conversation without a busy one. -/
def openable (turns : List TurnRow) (tenant : String) (u : TurnRow) : Bool :=
  decide (u.tenant = tenant) && decide (u.status = .queued) &&
    !turns.any fun b => decide (b.conversation = u.conversation) && b.status.busy

/-- The key of the run of a turn. -/
def runKey (P : Platform) (u : TurnRow) : String :=
  let key := "conv:" ++ u.channel ++ ":" ++ u.eventKey
  if 256 < key.length then
    "conv:" ++ digest P.sha256 (.arr [.str u.channel, .str u.eventKey])
  else key

/-- The text of the status of a run. -/
def runStatusText : RunStatus → String
  | .pending => "pending"
  | .planning => "planning"
  | .waitingTask => "waiting_task"
  | .succeeded => "succeeded"
  | .needsInput => "needs_input"
  | .escalated => "escalated"
  | .uncertain => "uncertain"
  | .cancelled => "cancelled"

/-- The answer of an open turn or the reason why there is none; `none` while its run is active. -/
def answer? (s : State) (u : TurnRow) : Option (Option String × String) :=
  if u.error ≠ "" then some (none, u.error)
  else
    match u.run.bind (s.agent.row? u.tenant) with
    | none => some (none, "run_missing")
    | some r =>
      if Agent.active r.status then none
      else
        match r.status with
        | .succeeded | .needsInput => some (some r.answer, "")
        | status => some (none, "run_" ++ runStatusText status)

/-- The `maxLength` of the text of the channel's send tool. -/
def textLimit (P : Platform) (channel : String) : Option ℕ :=
  (P.registry.find? fun t => t.name = channel ++ ".send").bind fun t =>
    match t.schema with
    | .mk _ _ properties .. => (properties.find? fun p => p.1 = "text").map fun p =>
      match p.2 with
      | .mk _ _ _ _ _ _ _ _ maxLength .. => maxLength

/-- The reply `_settle` makes of an answer, with the reason of the handoff. -/
def settledReply (answer : Option String) (reason : String) (ungrounded : Bool) (fallback : String) :
    String × String :=
  let (answer, reason) :=
    if answer.isSome ∧ ungrounded then (none, "ungrounded_number") else (answer, reason)
  match answer.filter fun text => !isBlank text with
  | some text => (text, reason)
  | none =>
    (if isBlank fallback then defaultHandoffText else fallback,
      if reason = "" then "empty_reply" else reason)

namespace State

/-- Moves a worker. -/
def goto (s : State) (worker : ℕ) (stage : Stage) : State :=
  { s with workers := Function.update s.workers worker stage }

/-- `UPDATE p_conversation_turns SET f WHERE … AND status=?`, by the key of a turn. -/
def setTurn (s : State) (u : TurnRow) (p : TurnRow → Bool) (f : TurnRow → TurnRow) : State :=
  { s with turns := Table.update (fun x => decide (x.key = u.key) && p x) f s.turns }

/-- `_close`: the read. -/
def lookClose (s : State) (w : ℕ) (tenant : String) : State :=
  let ended := fun u : TurnRow =>
    u.task.bind fun task => (s.db.task? tenant task).filter fun t => !t.status.active
  match (sortedTurns (fun u => decide (u.tenant = tenant) && decide (u.status = .delivering) &&
      (ended u).isSome) s.turns).head? with
  | none => s.goto w (.delivering tenant)
  | some u =>
    match ended u with
    | none => s
    | some t =>
      match t.status with
      | .succeeded => s.goto w (.answered u)
      | .uncertain => s.goto w (.finishing u .uncertain "send_uncertain")
      | status => s.goto w (.finishing u .failed ("send_" ++ Agent.statusText status))

/-- `_close`: a sent reply joins the history. -/
def close (s : State) (w : ℕ) (u : TurnRow) : State :=
  let waiting := fun x : TurnRow => decide (x.status = .delivering)
  let t := s.setTurn u waiting fun x => { x with status := .delivered }
  if s.turns.any fun x => decide (x.key = u.key) && waiting x then
    { t with history :=
        appendLine s.history u.tenant u.channel u.conversationId .agent u.reply }.goto w .idle
  else t.goto w .idle

/-- `_finish`. -/
def finish (s : State) (w : ℕ) (u : TurnRow) (status : TurnStatus) (error : String) : State :=
  (s.setTurn u (fun x => x.status = .delivering)
    fun x => { x with status := status, error := error }).goto w .idle

/-- `_deliver`: the read. -/
def lookDeliver (s : State) (w : ℕ) (tenant : String) : State :=
  if s.db.frozen tenant then s.goto w (.settling tenant)
  else
    match (sortedTurns (fun u => decide (u.tenant = tenant) && decide (u.status = .delivering) &&
        u.task.isNone) s.turns).head? with
    | none => s.goto w (.settling tenant)
    | some u => s.goto w (.checking u)

/-- `_deliver`: a human who took the chat over retires the turn. -/
def check (s : State) (w : ℕ) (env : Env) (u : TurnRow) : State :=
  if takenOver s.takeovers u.tenant u.channel u.conversationId env.now then
    (s.setTurn u (fun x => decide (x.status = .delivering) && x.task.isNone)
      fun x => { x with status := .operator, error := "operator_took_over" }).goto w .idle
  else s.goto w (.submitting u)

/-- The submission of `_deliver`. -/
def submitReply (P : Platform) (env : Env) (s : State) (u : TurnRow) : Except Err (Db × Uuid) :=
  submit P env s.db u.tenant u.channel u.eventKey u.agent
    (replySteps u.channel u.conversationId u.reply) u.sender

/-- `_deliver`: the submission, and what its exceptions do. -/
def deliver (P : Platform) (s : State) (w : ℕ) (env : Env) (u : TurnRow) : State :=
  match submitReply P env s u with
  | .ok (db, id) => { s with agent := { s.agent with db := db } }.goto w (.submitted u id)
  | .error (.conflict _) => s.goto w (.conflicted u)
  | .error (.rateLimited _) => s.goto w (.settling u.tenant)
  | .error e =>
    if e.isPermissionError || e.isValueError || e.isLookupError then
      s.goto w (.finishing u .failed "delivery_rejected")
    else s.goto w .idle

/-- `_deliver`: the task of the key after a conflict. -/
def lookup (s : State) (w : ℕ) (u : TurnRow) : State :=
  match s.db.taskOf? u.tenant u.channel u.eventKey with
  | some t => s.goto w (.submitted u t.id)
  | none => s.goto w (.finishing u .failed "delivery_conflict")

/-- `_deliver`: the last write. -/
def note (s : State) (w : ℕ) (u : TurnRow) (task : Uuid) : State :=
  (s.setTurn u (fun x => decide (x.status = .delivering) && x.task.isNone)
    fun x => { x with task := some task }).goto w .idle

/-- `_settle`: the reads. -/
def lookSettle (P : Platform) (s : State) (w : ℕ) (env : Env) (reads : Reads) (tenant : String) :
    State :=
  if s.db.frozen tenant then s.goto w (.opening tenant)
  else
    match ((sortedTurns (fun u => decide (u.tenant = tenant) && decide (u.status = .opened))
        s.turns).take maxSettleScan).findSome? fun u => (answer? s u).map fun a => (u, a) with
    | none => s.goto w (.opening tenant)
    | some (u, answer, reason) =>
      match settings env tenant u.agent, textLimit P u.channel with
      | .ok config, some limit =>
        let (reply, reason) := settledReply answer reason reads.ungrounded config.fallbackText
        s.goto w (.settled u (truncate limit reply) reason)
      | _, _ => s.goto w .idle

/-- `_settle`: the write. -/
def settle (s : State) (w : ℕ) (u : TurnRow) (reply reason : String) : State :=
  (s.setTurn u (fun x => x.status = .opened)
    fun x => { x with status := .delivering, reply := reply, error := reason }).goto w .idle

/-- `_open`: the first read. -/
def lookOpen (s : State) (w : ℕ) (env : Env) (tenant : String) : State :=
  if s.db.frozen tenant then s.goto w .idle
  else
    match (sortedTurns (openable s.turns tenant) s.turns).head? with
    | none => s.goto w .idle
    | some u =>
      if takenOver s.takeovers u.tenant u.channel u.conversationId env.now then s.goto w (.leaving u)
      else if maxOpenTurns ≤ inFlight s.turns tenant then s.goto w .idle
      else s.goto w (.preparing u)

/-- `_leave_to_operator`. -/
def leave (s : State) (w : ℕ) (u : TurnRow) : State :=
  (s.setTurn u (fun x => x.status = .queued) fun x => { x with status := .operator }).goto w .idle

/-- `_open`: the settings, and an existing run of the turn. -/
def prepare (P : Platform) (s : State) (w : ℕ) (env : Env) (reads : Reads) (u : TurnRow) : State :=
  match settings env u.tenant u.agent with
  | .error _ => s.goto w .idle
  | .ok config =>
    if reads.llmEnabled = false then s.goto w (.ready u none "llm_unavailable")
    else if config.enabled = false then s.goto w (.ready u none "conversation_disabled")
    else
      match s.agent.runs.find? fun r => decide (r.tenant = u.tenant) &&
          decide (r.requestKey = runKey P u) with
      | some r => s.goto w (.ready u (some r.id) "")
      | none => s.goto w (.creating u reads.prompt config.maxSteps config.maxSeconds)

/-- `_open`: the run is created. -/
def create (P : Platform) (s : State) (w : ℕ) (env : Env) (u : TurnRow) (prompt : String)
    (maxSteps maxSeconds : ℤ) : State :=
  match Agent.create P env s.agent u.tenant (runKey P u) u.agent prompt u.sender maxSteps maxSeconds
      u.channel with
  | .ok (agent, run) => { s with agent := agent }.goto w (.ready u (some run) "")
  | .error e =>
    if e.isPermissionError || e.isValueError || e.isLookupError then
      s.goto w (.ready u none "run_rejected")
    else s.goto w .idle

/-- `_open`: the write, which counts the open turns again. -/
def markOpen (s : State) (w : ℕ) (u : TurnRow) (run : Option Uuid) (error : String) : State :=
  if maxOpenTurns ≤ inFlight s.turns u.tenant then s.goto w .idle
  else
    (s.setTurn u (fun x => x.status = .queued)
      fun x => { x with status := .opened, run := run, error := error }).goto w .idle

/-- The next statement of a worker. -/
def work (P : Platform) (s : State) (w : ℕ) (env : Env) (reads : Reads) : State :=
  match s.workers w with
  | .idle => s
  | .closing tenant => s.lookClose w tenant
  | .answered u => s.close w u
  | .finishing u status error => s.finish w u status error
  | .delivering tenant => s.lookDeliver w tenant
  | .checking u => s.check w env u
  | .submitting u => s.deliver P w env u
  | .conflicted u => s.lookup w u
  | .submitted u task => s.note w u task
  | .settling tenant => s.lookSettle P w env reads tenant
  | .settled u reply reason => s.settle w u reply reason
  | .opening tenant => s.lookOpen w env tenant
  | .leaving u => s.leave w u
  | .preparing u => s.prepare P w env reads u
  | .creating u prompt maxSteps maxSeconds => s.create P w env u prompt maxSteps maxSeconds
  | .ready u run error => s.markOpen w u run error

end State

/-! ### Workers in any interleaving -/

/-- One statement of a worker, one crash, or one call of somebody else. -/
inductive Label
  | record (env : Env) (tenant channel eventKey agent : String) (payload : Json)
  /-- A worker begins a `tick`. -/
  | tick (worker : ℕ) (tenant : String)
  | work (worker : ℕ) (env : Env) (reads : Reads)
  | crash (worker : ℕ)
  /-- `start_takeover`. -/
  | takeover (env : Env) (tenant channel conversationId actor agent : String)
  | release (env : Env) (tenant channel conversationId actor : String)
  | settleReplies (env : Env) (tenant : String) (updated : Uuid → Time)
  /-- A step of the agent loop or an operation of the engine by anyone. -/
  | loop (l : Agent.Label)

/-- `start_takeover`. -/
def startTakeover (env : Env) (takeovers : List TakeoverRow)
    (tenant channel conversationId actor agent : String) : Except Err (List TakeoverRow) := do
  let policy ← env.policy tenant agent
  takeoverIn takeovers tenant channel conversationId actor (policyMinutes policy) env.now

/-- The state after a label; a label whose worker stands elsewhere changes nothing. -/
def State.after (P : Platform) (s : State) : Label → State
  | .record env tenant channel eventKey agent payload =>
    match s.record env tenant channel eventKey agent payload with
    | .ok t => t
    | .error _ => s
  | .tick w tenant =>
    match s.workers w with
    | .idle => s.goto w (.closing tenant)
    | _ => s
  | .work w env reads => s.work P w env reads
  | .crash w => s.goto w .idle
  | .takeover env tenant channel conversationId actor agent =>
    match startTakeover env s.takeovers tenant channel conversationId actor agent with
    | .ok takeovers => { s with takeovers := takeovers }
    | .error _ => s
  | .release env tenant channel conversationId actor =>
    match releaseTakeover env s.takeovers tenant channel conversationId actor with
    | .ok takeovers => { s with takeovers := takeovers }
    | .error _ => s
  | .settleReplies env tenant updated =>
    match settleReplies env s tenant updated with
    | .ok t => t
    | .error _ => s
  | .loop l => { s with agent := s.agent.after P l }

/-- One label. -/
def Step (P : Platform) (s : State) (l : Label) (t : State) : Prop := t = s.after P l

end AgentPlatform.Conversation
