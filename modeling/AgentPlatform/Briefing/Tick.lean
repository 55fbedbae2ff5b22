import AgentPlatform.Coordinator
import AgentPlatform.Escalation.Loop

/-!
# The briefing

`Briefing.tick` with `_settle`, `_claim`, `_deliver`, `_mark`, `_advance` and `_disable`, as the
sequential program of one worker. A tick takes the first due schedule, and only that one. What it reads
outside the database (its clocks, the owner check, the digest) are the inputs of its `Turn`.

A ledger row stands for one local day of a schedule; its delivery is an engine task under a key made of
the schedule and the day.
-/

namespace AgentPlatform.Briefing

open Outcome Engine Table Coordinator
open Escalation (LedgerStatus taskToLedger)

/-- A row of `p_briefing`, with the bounds `configure` checks. -/
structure ScheduleRow where
  tenant : String
  id : String
  actor : String
  agent : String
  recipient : String
  intervalSeconds : ℤ
  timezoneOffsetMinutes : ℤ
  enabled : Bool
  nextDue : Time
  interval : 300 ≤ intervalSeconds ∧ intervalSeconds ≤ 604800
  offset : -1440 ≤ timezoneOffsetMinutes ∧ timezoneOffsetMinutes ≤ 1440

/-- The primary key of a schedule. -/
def ScheduleRow.key (r : ScheduleRow) : String × String := (r.tenant, r.id)

/-- A row of `p_briefing_ledger`; its day is the number whose digits `_day_key` returns. -/
structure LedgerRow where
  tenant : String
  schedule : String
  day : ℤ
  run : Option Uuid
  attempt : ℕ
  status : LedgerStatus
  lastError : String

/-- The primary key of a ledger row. -/
def LedgerRow.key (r : LedgerRow) : String × String × ℤ := (r.tenant, r.schedule, r.day)

/-- The database and the tables of the briefing, with their primary keys. -/
structure State where
  db : Db := {}
  schedules : List ScheduleRow := []
  ledger : List LedgerRow := []
  unique : Keyed ScheduleRow.key schedules := by exact keyed_nil _
  daily : Keyed LedgerRow.key ledger := by exact keyed_nil _

/-- What a tick reads outside the database. -/
structure Turn where
  /-- The clock at the look for a due schedule. -/
  look : Time
  env : Env
  /-- The clock at the claim. -/
  now : Time
  /-- The transaction of the claim raises. -/
  raises : Bool
  /-- What `_digest` returns or raises. -/
  digest : ScheduleRow → Except Err String
  /-- The submission. -/
  send : Env
  ordered : look ≤ now

/-- `_day_key`. -/
def dayKey (now : Time) (r : ScheduleRow) : ℤ :=
  (now + seconds (r.timezoneOffsetMinutes * 60)).tdiv 1000000 / 86400

/-- The ledger key of a schedule's day. -/
def ScheduleRow.day (r : ScheduleRow) (now : Time) : String × String × ℤ :=
  (r.tenant, r.id, dayKey now r)

namespace State

/-- `UPDATE p_briefing SET f WHERE tenant=? AND id=?`. -/
def setSchedule (s : State) (r : ScheduleRow) (f : ScheduleRow → ScheduleRow)
    (hf : ∀ x, (f x).key = x.key) : State :=
  { s with
    schedules := Table.update (fun x => decide (x.key = r.key)) f s.schedules
    unique := s.unique.update hf }

/-- `UPDATE p_briefing_ledger SET f WHERE p`. -/
def setLedger (s : State) (p : LedgerRow → Bool) (f : LedgerRow → LedgerRow)
    (hf : ∀ x, (f x).key = x.key) : State :=
  { s with
    ledger := Table.update p f s.ledger
    daily := s.daily.update hf }

/-- `_disable`. -/
def disable (s : State) (r : ScheduleRow) : State :=
  s.setSchedule r (fun x => { x with enabled := false }) fun _ => rfl

/-- `_advance`. -/
def advance (s : State) (r : ScheduleRow) (now : Time) : State :=
  s.setSchedule r (fun x => { x with nextDue := now + seconds r.intervalSeconds }) fun _ => rfl

/-- What the engine says of the task of a submitted row. -/
def verdict (s : State) (row : LedgerRow) : Option LedgerStatus :=
  row.run.bind fun run =>
    (s.db.tasks.find? fun t => decide (t.id = run) && decide (t.tenant = row.tenant)).bind fun t =>
      taskToLedger t.status

/-- `_settle`. -/
def settle (s : State) (tenant : String) : State :=
  s.setLedger (fun row => decide (row.tenant = tenant) && decide (row.status = .submitted))
    (fun row => { row with status := (s.verdict row).getD row.status }) fun _ => rfl

/-- `_mark`. -/
def mark (s : State) (r : ScheduleRow) (now : Time) (status : LedgerStatus) (run : Option Uuid)
    (error : String) : State :=
  s.setLedger (fun row => decide (row.key = r.day now))
    (fun row => { row with status := status, run := run, lastError := truncate 200 error }) fun _ => rfl

/-- `_claim`. -/
def claim (s : State) (r : ScheduleRow) (now : Time) : State × Option ℕ :=
  match h : Table.get LedgerRow.key (r.day now) s.ledger with
  | none =>
    ({ s with
        ledger := s.ledger ++ [⟨r.tenant, r.id, dayKey now r, none, 1, .queued, ""⟩]
        daily := by exact s.daily.insert fun x hx => get_eq_none.1 h x hx },
      some 1)
  | some row =>
    if row.status ≠ .queued then (s, none)
    else
      let same := fun x : LedgerRow => decide (x.key = r.day now) && decide (x.attempt = row.attempt)
      (s.setLedger same (fun x => { x with attempt := x.attempt + 1, lastError := "" }) fun _ => rfl,
        if s.ledger.countP same = 1 then some (row.attempt + 1) else none)

/-- The due schedule a tick takes, unless the tenant is frozen. -/
def due (s : State) (tenant : String) (now : Time) : Option ScheduleRow :=
  if s.db.frozen tenant then none
  else
    earliest ScheduleRow.nextDue ScheduleRow.id (s.schedules.filter fun r =>
      decide (r.tenant = tenant) && r.enabled && decide (r.nextDue ≤ now))

end State

/-- The request key of a day's delivery. -/
def deliveryKey (r : ScheduleRow) (now : Time) : String :=
  "briefing:" ++ r.id ++ ":" ++ toString (dayKey now r)

/-- `_deliver`. -/
def deliver (P : Platform) (env : Env) (db : Db) (r : ScheduleRow) (now : Time) (text : String) :
    Except Err (Db × Uuid) :=
  match submit P env db r.tenant "cron" (deliveryKey r now) r.agent
      [.obj [("tool", .str "telegram.send"),
        ("args", .obj [("conversation_id", .str r.recipient), ("text", .str text)])]] r.actor with
  | .error (.conflict message) =>
    -- the day's task was submitted before, with another text
    match db.taskOf? r.tenant "cron" (deliveryKey r now) with
    | some t => .ok (db, t.id)
    | none => .error (.conflict message)
  | result => result

/-- The owner check of a cycle. -/
def ownerCheck (turn : Turn) (s : State) (r : ScheduleRow) : Except Err Unit := do
  turn.env.requireActive s.db r.tenant
  turn.env.requireAuthority r.tenant "cron" r.actor ["owner"]

/-- The rest of a tick whose claim succeeded. -/
def publish (P : Platform) (turn : Turn) (s : State) (r : ScheduleRow) : State × Except Err Bool :=
  match turn.digest r with
  | .error e =>
    let failed := s.mark r turn.now .failed none e.typeName
    if e.isForbidden then (failed.disable r, .ok true)
    else if e.isValueError || e.isLookupError then (failed.advance r turn.now, .ok true)
    else (s, .error e)
  | .ok text =>
    match deliver P turn.send s.db r turn.now text with
    | .ok (db, task) =>
      ((State.mark { s with db := db } r turn.now .submitted (some task) "").advance r turn.now,
        .ok true)
    | .error e =>
      let failed := s.mark r turn.now .failed none e.typeName
      (if e.isForbidden then failed.disable r else failed.advance r turn.now, .ok true)

/-- `tick`: what it leaves, and what it returns or raises. -/
def tick (P : Platform) (turn : Turn) (s : State) (tenant : String) : State × Except Err Bool :=
  let s := s.settle tenant
  match s.due tenant turn.look with
  | none => (s, .ok false)
  | some r =>
    match ownerCheck turn s r with
    | .error e => if e.isForbidden then (s.disable r, .ok true) else (s, .error e)
    | .ok () =>
      if turn.raises then (s.advance r turn.now, .ok true)
      else
        match s.claim r turn.now with
        | (s, none) => (s, .ok false)
        | (s, some _) => publish P turn s r

/-! ### Runs -/

/-- A tick, any change of the schedules by their owner, or an operation of the engine. -/
inductive Label
  | tick (turn : Turn) (tenant : String)
  | configure (schedules : List ScheduleRow) (unique : Keyed ScheduleRow.key schedules)
  | engine (op : Op)

/-- The state after a label. -/
def State.after (P : Platform) (s : State) : Label → State
  | .tick turn tenant => (Briefing.tick P turn s tenant).1
  | .configure schedules unique => { s with schedules := schedules, unique := unique }
  | .engine op => { s with db := s.db.after P op }

/-- One label. -/
def Step (P : Platform) (s : State) (l : Label) (t : State) : Prop := t = s.after P l

end AgentPlatform.Briefing
