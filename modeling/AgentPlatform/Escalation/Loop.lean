import AgentPlatform.Engine.Idempotency

/-!
# The escalation loop

`EscalationLoop`: `tick` with `_settle`, `_claim`, `_deliver` and `_mark`, each statement of a worker a
label of its own. What a cycle reads through the tool handler is an input of the label that reads it.

A ledger row stands for one work item of a schedule; a delivery is an engine task under a key made of the
schedule, the day and the claimed batch.
-/

namespace AgentPlatform.Escalation

open Outcome Engine

/-- A row of `p_escalation`. -/
structure ScheduleRow where
  tenant : String
  id : String
  actor : String
  agent : String
  recipient : String
  title : String
  cooldownSeconds : ℤ
  maxPerCycle : ℕ
  intervalSeconds : ℤ
  enabled : Bool
  nextDue : Time

/-- The primary key of a schedule. -/
def ScheduleRow.key (r : ScheduleRow) : String × String := (r.tenant, r.id)

/-- The status column of the ledger. -/
inductive LedgerStatus
  | queued
  | submitted
  | sent
  | failed
  | uncertain
  deriving DecidableEq, Repr

/-- A work item: tenant, schedule, person, task and due date. -/
abbrev WorkItem := String × String × String × String × String

/-- A row of `p_escalation_ledger`. An empty `run_id` is `none`. -/
structure LedgerRow where
  tenant : String
  schedule : String
  person : String
  task : String
  due : String
  run : Option Uuid
  attempt : ℕ
  status : LedgerStatus
  lastAttempt : Time
  lastError : String

/-- The primary key of a ledger row. -/
def LedgerRow.key (r : LedgerRow) : WorkItem := (r.tenant, r.schedule, r.person, r.task, r.due)

/-- An overdue item, as `_overdue_items` returns it. -/
structure Item where
  person : String
  name : String
  task : String
  due : String
  status : String

/-- The work item of an overdue item in a schedule. -/
def ScheduleRow.item (r : ScheduleRow) (i : Item) : WorkItem :=
  (r.tenant, r.id, i.person, i.task, i.due)

/-- The counts a telephony read carries. -/
structure Telephony where
  blockedCount : ℕ
  overCapacity : ℕ
  capacity : ℕ
  truncated : Bool

/-- What a cycle reads: the items, how many were stale, and a telephony read's counts. -/
structure Feed where
  items : List Item
  stale : ℕ := 0
  telephony : Option Telephony := none

/-- A delivery task a worker created, with the work items of its batch. -/
structure Batch where
  task : Uuid
  items : List WorkItem

/-- How a cycle ends for its schedule. -/
inductive Exit
  | advance (now : Time)
  | disable

/-- Where a worker stands in `tick`. -/
inductive Stage
  | idle
  /-- The verdicts are read; they are written next, one by one. -/
  | settling (tenant : String) (verdicts : List (String × Uuid × LedgerStatus))
  /-- The freeze is checked and a due schedule is looked for next. -/
  | looking (tenant : String)
  /-- The authority is checked next. -/
  | picked (r : ScheduleRow)
  /-- The overdue items are read next. -/
  | reading (r : ScheduleRow)
  /-- The first of `rest` is claimed next. -/
  | claiming (r : ScheduleRow) (now : Time) (feed : Feed) (rest claimed : List Item)
  /-- The batch is submitted next. -/
  | delivering (r : ScheduleRow) (now : Time) (text : String) (claimed : List Item)
  /-- The submission raised `Conflict`; the task of the key is looked up next. -/
  | conflicted (r : ScheduleRow) (now : Time) (claimed : List Item)
  /-- The first of `items` is marked next. -/
  | marking (r : ScheduleRow) (items : List Item) (status : LedgerStatus) (run : Option Uuid)
      (error : String) (exit : Exit)
  | leaving (r : ScheduleRow) (exit : Exit)

/-- The database, the loop's tables, what was submitted so far, and where every worker stands. -/
structure State where
  db : Db := {}
  schedules : List ScheduleRow := []
  ledger : List LedgerRow := []
  batches : List Batch := []
  workers : ℕ → Stage := fun _ => .idle

def deliveryChannel : String := "cron"

def maxDeliveryAttempts : ℕ := 5

def maxDigestLines : ℕ := 40

def exhausted : String := "delivery_exhausted"

/-! ### Texts -/

/-- `n`, with zeros in front up to `width` digits. -/
def padded (width : ℕ) (n : ℤ) : String :=
  let digits := (toString n).toList
  String.ofList (List.replicate (width - digits.length) '0' ++ digits)

/-- The year, month and day that are `days` days after 1970-01-01. -/
def civil (days : ℤ) : ℤ × ℤ × ℤ :=
  let z := days + 719468
  let era := z / 146097
  let doe := z % 146097
  let yoe := (doe - doe / 1460 + doe / 36524 - doe / 146096) / 365
  let doy := doe - (365 * yoe + yoe / 4 - yoe / 100)
  let mp := (5 * doy + 2) / 153
  let month := if mp < 10 then mp + 3 else mp - 9
  (yoe + era * 400 + (if month ≤ 2 then 1 else 0), month, doy - (153 * mp + 2) / 5 + 1)

/-- `_day`. -/
def day (now : Time) : String :=
  let (y, m, d) := civil (now / seconds 86400)
  padded 4 y ++ "-" ++ padded 2 m ++ "-" ++ padded 2 d

/-- The order of the tuples of a batch. -/
def tupleLe (a b : String × String × String) : Bool :=
  decide (a.1 < b.1) || (a.1 == b.1 &&
    (decide (a.2.1 < b.2.1) || (a.2.1 == b.2.1 && decide (¬ b.2.2 < a.2.2))))

/-- `json.dumps(sorted(…), ensure_ascii=False)` of the claimed items. -/
def batchText (claimed : List Item) : String :=
  let tuples := (claimed.map fun i => (i.person, i.task, i.due)).insertionSort
    fun a b => tupleLe a b = true
  "[" ++ ", ".intercalate (tuples.map fun t =>
    "[" ++ ", ".intercalate [Json.quote t.1, Json.quote t.2.1, Json.quote t.2.2] ++ "]") ++ "]"

/-- `_delivery_key`. -/
def deliveryKey (sha256 : String → String) (r : ScheduleRow) (claimed : List Item) (now : Time) :
    String :=
  "escalation:" ++ r.id ++ ":" ++ day now ++ ":" ++
    String.ofList ((sha256 (batchText claimed)).toList.take 16)

/-- `value or '-'`. -/
def orDash (value : String) : String := if value = "" then "-" else value

/-- The line of one item. -/
def Item.line (i : Item) (index : ℕ) : String :=
  let name := if i.name = "" then i.person else i.name
  toString index ++ ". " ++ orDash name ++ " — " ++ orDash i.task ++ " (muddat: " ++ orDash i.due ++
    ", holat: " ++ orDash i.status ++ ")"

/-- The lines of a telephony read. -/
def Telephony.lines (t : Telephony) : List String :=
  (if t.blockedCount = 0 then [] else
    ["Rozilik darvozasi rad etgan raqamlar: " ++ toString t.blockedCount ++
      " — qo‘ng‘iroq qilinmaydi"]) ++
  (if t.overCapacity = 0 then [] else
    ["E’lon qilingan sur’atdan ortiq (bajarilmaydi): " ++ toString t.overCapacity ++
      " — sig‘im " ++ toString t.capacity]) ++
  if t.truncated then ["Ro‘yxat to‘liq emas (truncated) — bu qism, hammasi emas"] else []

/-- `_digest`. -/
def digestText (r : ScheduleRow) (items : List Item) (now : Time) (feed : Feed) : String :=
  let title := if r.title = "" then "Kechikkan ish eskalatsiyasi — " ++ r.id else r.title
  let shown := items.take maxDigestLines
  let lines := [title, ""] ++ (shown.mapIdx fun n i => i.line (n + 1)) ++
    (if shown.length < items.length then
      ["… va yana " ++ toString (items.length - shown.length) ++ " ta yozuv"] else []) ++
    ["", "Jami kechikkan: " ++ toString items.length] ++
    (feed.telephony.map Telephony.lines).getD [] ++
    (if feed.stale = 0 then [] else
      ["Eslatish muddati o‘tgan (juda eski) yozuvlar: " ++ toString feed.stale ++
        " — bu yozuv yana alohida yuborilmaydi"]) ++
    ["Tayyorlandi: " ++ day now, "",
      "Bu faktlar ro‘yxati — platforma xodimni baholamaydi va " ++
        "jazolash qarori qabul qilmaydi. Qaror menejerniki."]
  truncate 4000 ("\n".intercalate lines)

/-! ### The transactions -/

/-- `_exhausted`. -/
def markExhausted (ledger : List LedgerRow) (k : WorkItem) : List LedgerRow :=
  Table.update (fun row => decide (row.key = k) && decide (row.lastError ≠ exhausted))
    (fun row => { row with lastError := exhausted }) ledger

/-- The update of `_claim`, a compare-and-set on `last_attempt`. -/
def takeRow (ledger : List LedgerRow) (row : LedgerRow) (now : Time) :
    List LedgerRow × Option ℕ :=
  let same := fun x : LedgerRow => decide (x.key = row.key) && decide (x.lastAttempt = row.lastAttempt)
  (Table.update same
      (fun x => { x with
        attempt := x.attempt + 1, status := .queued, lastAttempt := now, run := none
        lastError := "" }) ledger,
    if ledger.countP same = 1 then some (row.attempt + 1) else none)

/-- `_claim`. -/
def claim (ledger : List LedgerRow) (r : ScheduleRow) (i : Item) (now : Time) :
    List LedgerRow × Option ℕ :=
  match Table.get LedgerRow.key (r.item i) ledger with
  | none =>
    (ledger ++ [⟨r.tenant, r.id, i.person, i.task, i.due, none, 1, .queued, now, ""⟩], some 1)
  | some row =>
    match row.status with
    | .sent | .submitted | .uncertain => (ledger, none)
    | .failed =>
      if maxDeliveryAttempts ≤ row.attempt then (markExhausted ledger (r.item i), none)
      else if now < row.lastAttempt + seconds r.cooldownSeconds then (ledger, none)
      else takeRow ledger row now
    | .queued => takeRow ledger row now

/-- `_mark`. -/
def mark (ledger : List LedgerRow) (k : WorkItem) (status : LedgerStatus) (run : Option Uuid)
    (error : String) : List LedgerRow :=
  Table.update (fun row => decide (row.key = k))
    (fun row => { row with status := status, run := run, lastError := truncate 200 error }) ledger

/-- `_TASK_TO_LEDGER`. -/
def taskToLedger : Status → Option LedgerStatus
  | .succeeded => some .sent
  | .failed | .cancelled => some .failed
  | .uncertain => some .uncertain
  | _ => none

/-- The read of `_settle`: the verdicts of the submitted rows, each task once. -/
def verdicts (db : Db) (ledger : List LedgerRow) (tenant : String) :
    List (String × Uuid × LedgerStatus) :=
  (ledger.filterMap fun row =>
    if row.tenant = tenant ∧ row.status = .submitted then
      row.run.bind fun run =>
        ((db.tasks.find? fun t => decide (t.id = run) && decide (t.tenant = tenant)).bind fun t =>
          taskToLedger t.status).map fun status => (row.schedule, run, status)
    else none).dedup

/-- The write of `_settle` for one task. -/
def settleTask (ledger : List LedgerRow) (tenant schedule : String) (run : Uuid)
    (status : LedgerStatus) : List LedgerRow :=
  Table.update (fun row => decide (row.tenant = tenant) && decide (row.schedule = schedule) &&
    decide (row.run = some run) && decide (row.status = .submitted))
    (fun row => { row with status := status }) ledger

/-- The due schedule `tick` takes: the first by `next_due` and `id`. -/
def dueSchedule (s : State) (tenant : String) (now : Time) : Option ScheduleRow :=
  if s.db.frozen tenant then none
  else
    ((s.schedules.filter fun r => decide (r.tenant = tenant) && r.enabled &&
      decide (r.nextDue ≤ now)).insertionSort fun r r' =>
        r.nextDue < r'.nextDue ∨ r.nextDue = r'.nextDue ∧ ¬ r'.id < r.id).head?

/-- The last write of a cycle: `_advance` or `_disable`. -/
def leave (schedules : List ScheduleRow) (r : ScheduleRow) (exit : Exit) : List ScheduleRow :=
  Table.update (fun x => decide (x.key = r.key))
    (fun x =>
      match exit with
      | .advance now => { x with nextDue := now + seconds r.intervalSeconds }
      | .disable => { x with enabled := false }) schedules

/-- The submission of `_deliver`. -/
def submitBatch (P : Platform) (env : Env) (db : Db) (r : ScheduleRow) (now : Time) (text : String)
    (claimed : List Item) : Except Err (Db × Uuid) :=
  submit P env db r.tenant deliveryChannel (deliveryKey P.sha256 r claimed now) r.agent
    [.obj [("tool", .str "telegram.send"),
      ("args", .obj [("conversation_id", .str r.recipient), ("text", .str text)])]] r.actor

/-! ### Workers in any interleaving -/

/-- One statement of a worker, one crash, or one call of somebody else. -/
inductive Label
  | settle (worker : ℕ) (tenant : String)
  | settleOne (worker : ℕ)
  | look (worker : ℕ) (now : Time)
  | authorise (worker : ℕ) (env : Env)
  /-- The items are read, or reading raises. -/
  | read (worker : ℕ) (now : Time) (feed : Except Err Feed)
  /-- One item is claimed, or its transaction raises. -/
  | claim (worker : ℕ) (raises : Bool)
  | deliver (worker : ℕ) (env : Env)
  | lookup (worker : ℕ)
  | mark (worker : ℕ)
  | leave (worker : ℕ)
  | crash (worker : ℕ)
  /-- Any change of the schedules by their owner. -/
  | configure (schedules : List ScheduleRow)
  /-- An operation of the engine by anyone. -/
  | engine (op : Op)

namespace State

/-- Moves a worker. -/
def goto (s : State) (worker : ℕ) (stage : Stage) : State :=
  { s with workers := Function.update s.workers worker stage }

/-- The claims of a cycle are made. -/
def claimed (r : ScheduleRow) (now : Time) (feed : Feed) : List Item → Stage
  | [] => .leaving r (.advance now)
  | items => .delivering r now (digestText r items now feed) items

/-- One claim of a worker. -/
def claimOne (s : State) (w : ℕ) (raises : Bool) (r : ScheduleRow) (now : Time) (feed : Feed)
    (i : Item) (rest items : List Item) : State :=
  if raises then s.goto w (.claiming r now feed rest items)
  else
    let (ledger, attempt) := Escalation.claim s.ledger r i now
    match attempt with
    | none => { s with ledger := ledger }.goto w (.claiming r now feed rest items)
    | some _ =>
      let items := items ++ [i]
      { s with ledger := ledger }.goto w
        (.claiming r now feed (if r.maxPerCycle ≤ items.length then [] else rest) items)

/-- One submission of a worker; a new task is the delivery of its batch. -/
def deliverBatch (P : Platform) (env : Env) (s : State) (w : ℕ) (r : ScheduleRow) (now : Time)
    (text : String) (items : List Item) : State :=
  match submitBatch P env s.db r now text items with
  | .ok (db, id) =>
    let known := s.db.taskOf? r.tenant deliveryChannel (deliveryKey P.sha256 r items now)
    let batches := if known.isSome then s.batches else s.batches ++ [⟨id, items.map r.item⟩]
    { s with db := db, batches := batches }.goto w
      (.marking r items .submitted (some id) "" (.advance now))
  | .error (.conflict _) => s.goto w (.conflicted r now items)
  | .error e =>
    s.goto w (.marking r items .failed none e.typeName
      (if e.isForbidden then .disable else .advance now))

/-- The state after a label; a label whose worker stands elsewhere changes nothing. -/
def after (P : Platform) (s : State) : Label → State
  | .settle w tenant =>
    match s.workers w with
    | .idle => s.goto w (.settling tenant (verdicts s.db s.ledger tenant))
    | _ => s
  | .settleOne w =>
    match s.workers w with
    | .settling tenant ((schedule, run, status) :: rest) =>
      { s with ledger := settleTask s.ledger tenant schedule run status }.goto w
        (.settling tenant rest)
    | .settling tenant [] => s.goto w (.looking tenant)
    | _ => s
  | .look w now =>
    match s.workers w with
    | .looking tenant =>
      match dueSchedule s tenant now with
      | some r => s.goto w (.picked r)
      | none => s.goto w .idle
    | _ => s
  | .authorise w env =>
    match s.workers w with
    | .picked r =>
      match (env.requireActive s.db r.tenant).bind fun _ =>
          env.requireAuthority r.tenant deliveryChannel r.actor ["owner"] with
      | .ok _ => s.goto w (.reading r)
      | .error e => s.goto w (if e.isForbidden then .leaving r .disable else .idle)
    | _ => s
  | .read w now feed =>
    match s.workers w with
    | .reading r =>
      match feed with
      | .ok feed => s.goto w (.claiming r now feed feed.items [])
      | .error e => s.goto w (.leaving r (if e.isForbidden then .disable else .advance now))
    | _ => s
  | .claim w raises =>
    match s.workers w with
    | .claiming r now feed (i :: rest) items => s.claimOne w raises r now feed i rest items
    | .claiming r now feed [] items => s.goto w (claimed r now feed items)
    | _ => s
  | .deliver w env =>
    match s.workers w with
    | .delivering r now text items => deliverBatch P env s w r now text items
    | _ => s
  | .lookup w =>
    match s.workers w with
    | .conflicted r now items =>
      match s.db.taskOf? r.tenant deliveryChannel (deliveryKey P.sha256 r items now) with
      | some t => s.goto w (.marking r items .submitted (some t.id) "" (.advance now))
      | none => s.goto w (.marking r items .failed none "Conflict" (.advance now))
    | _ => s
  | .mark w =>
    match s.workers w with
    | .marking r (i :: rest) status run error exit =>
      { s with ledger := Escalation.mark s.ledger (r.item i) status run error }.goto w
        (.marking r rest status run error exit)
    | .marking r [] _ _ _ exit => s.goto w (.leaving r exit)
    | _ => s
  | .leave w =>
    match s.workers w with
    | .leaving r exit => { s with schedules := Escalation.leave s.schedules r exit }.goto w .idle
    | _ => s
  | .crash w => s.goto w .idle
  | .configure schedules => { s with schedules := schedules }
  | .engine op => { s with db := s.db.after P op }

end State

/-- One label. -/
def Step (P : Platform) (s : State) (l : Label) (t : State) : Prop := t = s.after P l

end AgentPlatform.Escalation
