import Mathlib.Algebra.Order.Field.Rat
import Mathlib.Data.List.Sort
import AgentPlatform.Json
import AgentPlatform.Lib.Disk

/-!
# The desktop runner

The message handler of `runner.js`, with its `Journal` and `validateTask`. The handler is synchronous: while
it goes through the tasks of a message no other message is handled, whichever connection it came on.

Every statement that can fail, or that a crash can follow, is a label of its own: looking a task up, renaming
a journal file, flushing the journal's directory, starting the tool, its return, and sending. A process may
be killed between any two of them, and a power failure may also undo a rename that was not flushed. Closing
and opening connections changes none of this; `connected` says whether an answer goes out.
-/

namespace AgentPlatform.Runner

/-- A task of the server, after `validateTask`. -/
structure Task where
  id : String
  claim : String
  tool : String
  params : Json

/-- A record of the journal. -/
inductive Record
  | started (claim fingerprint : String)
  | done (ok : Bool) (result : Json) (fingerprint : String)

/-- The fingerprint of a record. -/
def Record.fingerprint : Record → String
  | started _ fingerprint | done _ _ fingerprint => fingerprint

/-- What the runner sends as the result of a task. -/
structure Answer where
  id : String
  claim : String
  uncertain : Bool
  ok : Bool
  result : Json

/-- What the handler calls: SHA-256, `JSON.stringify`, and the value of a number with a fraction or an
exponent, where it is finite. -/
structure Library where
  sha256 : String → String
  stringify : Json → String
  number : String → Option ℚ

/-! ### `validateTask` -/

/-- `/^[a-f0-9]{32}$/`. -/
def isHexId (text : String) : Bool := isRunOf (fun c => c.isDigit || ('a' ≤ c && c ≤ 'f')) 32 32 text

/-- `Object.keys(value).join(',')`. -/
def joinedKeys (members : List (String × Json)) : String := ",".intercalate (members.map Prod.fst)

/-- `Object.keys(value).sort().join(',')`. -/
def sortedKeys (members : List (String × Json)) : String :=
  ",".intercalate ((members.map Prod.fst).insertionSort fun a b => a.toList ≤ b.toList)

/-- A finite number. -/
def finiteNumber (lib : Library) : Json → Option ℚ
  | .int n => some n
  | .float literal => lib.number literal
  | _ => none

/-- The length of a text in UTF-16 units. -/
def utf16Length (text : String) : ℕ := (text.toList.map fun c => if c.toNat < 0x10000 then 1 else 2).sum

/-- The parameters of a tool: one path. -/
def validParams (tool : String) (params : Json) : Bool :=
  let field := if tool = "fs.list" then "dir" else "file"
  match params with
  | .obj members => joinedKeys members == field &&
      match params.getD field .null with
      | .str path => decide (utf16Length path ≤ 2000)
      | _ => false
  | _ => false

/-- `validateTask`, at a time in milliseconds. -/
def validateTask (lib : Library) (now : ℤ) : Json → Option Task
  | .obj members =>
    let task := Json.obj members
    match task.getD "id" .null, task.getD "claim" .null, finiteNumber lib (task.getD "lease" .null),
      task.getD "tool" .null with
    | .str id, .str claim, some lease, .str tool =>
      if sortedKeys members = "claim,id,lease,params,tool" ∧ isHexId id = true ∧ isHexId claim = true ∧
          ¬ (lease * 1000 ≤ now) ∧ ¬ (now + 300000 < lease * 1000) ∧
          (tool = "fs.list" ∨ tool = "fs.read_text") ∧ validParams tool (task.getD "params" .null) = true
      then some ⟨id, claim, tool, task.getD "params" .null⟩ else none
    | _, _, _, _ => none
  | _ => none

/-- The fingerprint of the payload of a task. -/
def Task.fingerprint (lib : Library) (t : Task) : String :=
  lib.sha256 (lib.stringify (.obj [("tool", .str t.tool), ("args", t.params)]))

/-! ### The journal -/

/-- The record as it is written. -/
def Record.toJson : Record → Json
  | started claim fingerprint => .obj [("status", .str "started"), ("claim", .str claim),
      ("fingerprint", .str fingerprint)]
  | done ok result fingerprint => .obj [("status", .str "done"), ("ok", .bool ok), ("result", result),
      ("fingerprint", .str fingerprint)]

/-- The byte bound of `Journal.write`. -/
def Record.fits (lib : Library) (r : Record) : Bool :=
  decide ((lib.stringify r.toJson).utf8ByteSize ≤ 65536)

/-- Whether JavaScript takes a value for true. -/
def isTruthy : Json → Bool
  | .null => false
  | .bool b => b
  | .int n => n != 0
  | .float literal => literal != "0.0" && literal != "-0.0"
  | .str s => s != ""
  | .arr _ | .obj _ => true

def uncertainResult : Json := .obj [("error", .str "uncertain_local_journal")]

def failedResult : Json := .obj [("error", .str "local_policy_or_execution_error")]

/-- The answer to a task that has a record. -/
def Record.answer (t : Task) : Record → Answer
  | started .. => ⟨t.id, t.claim, true, false, uncertainResult⟩
  | done ok result _ => ⟨t.id, t.claim, false, ok, if isTruthy result then result else uncertainResult⟩

/-! ### The handler -/

/-- Where the process stands. -/
inductive Stage
  | down
  | idle
  /-- The loop goes on with these tasks. -/
  | next (tasks : List Json)
  /-- The temporary file of a record is complete; it is renamed next. -/
  | renaming (t : Task) (rest : List Json) (record : Record)
  /-- The directory is flushed next. -/
  | syncing (t : Task) (rest : List Json) (record : Record)
  /-- The tool is started next. -/
  | launching (t : Task) (rest : List Json)
  | running (t : Task) (rest : List Json)
  /-- The result is sent next. -/
  | replying (t : Task) (rest : List Json) (ok : Bool) (result : Json)

/-- Where the loop goes on after `Journal.write`. -/
def Record.resume (t : Task) (rest : List Json) : Record → Stage
  | started .. => .launching t rest
  | done ok result _ => .replying t rest ok result

/-- The journal, where the process stands, and what happened so far: the tools that were started, by task and
payload, what they returned, and the answers that were sent. -/
structure State where
  disk : Disk String Record := {}
  stage : Stage := .down
  starts : List (String × String) := []
  outcomes : List (String × Bool × Json) := []
  answers : List Answer := []

/-- What a statement finds outside: a request to stop, the clock, whether reading and writing the journal
succeeds, whether the connection is open, and what the tool returns; `none` where it throws. -/
structure World where
  stop : Bool := false
  now : ℤ := 0
  readable : Bool := true
  writable : Bool := true
  connected : Bool := true
  returned : Option Json := none

namespace State

/-- `send`. -/
def send (s : State) (x : World) (a : Answer) : State :=
  if x.connected then { s with answers := s.answers ++ [a] } else s

/-- The handler before the loop: the checks of a message. -/
def receive (s : State) (x : World) (msg : Json) (size : ℕ) : State :=
  if x.stop then { s with stage := .down }
  else if 100000 < size then s
  else
    match msg with
    | .obj members =>
      let msg := Json.obj members
      match msg.getD "stopped" .null, msg.get? "tasks" with
      | .bool true, _ => { s with stage := .down }
      | _, none => { s with stage := .next [] }
      | _, some (.arr tasks) => if 20 < tasks.length then s else { s with stage := .next tasks }
      | _, some _ => s
    | _ => s

/-- The start of `Journal.write`: the temporary file. -/
def store (lib : Library) (s : State) (x : World) (t : Task) (rest : List Json) (record : Record) : State :=
  { s with stage := if record.fits lib && x.writable then .renaming t rest record else .idle }

/-- A task of the loop: the checks, and what the journal says. -/
def look (lib : Library) (s : State) (x : World) (task : Json) (rest : List Json) : State :=
  if x.stop then { s with stage := .down }
  else
    match validateTask lib x.now task with
    | none => { s with stage := .idle }
    | some t =>
      if x.readable = false then { s with stage := .idle }
      else
        match s.disk.seen t.id with
        | some old =>
          if old.fingerprint ≠ t.fingerprint lib then { s with stage := .idle }
          else { s.send x (old.answer t) with stage := .next rest }
        | none => s.store lib x t rest (.started t.claim (t.fingerprint lib))

/-- What the handler takes the tool's return for. -/
def outcome (x : World) : Bool × Json :=
  match x.returned with
  | some result => if isTruthy result then (true, result) else (false, failedResult)
  | none => (false, failedResult)

/-- The next statement. -/
def work (lib : Library) (s : State) (x : World) : State :=
  match s.stage with
  | .down | .idle => s
  | .next [] => { s with stage := .idle }
  | .next (task :: rest) => s.look lib x task rest
  | .renaming t rest record =>
    if x.writable then { s with disk := s.disk.rename t.id record, stage := .syncing t rest record }
    else { s with stage := .idle }
  | .syncing t rest record =>
    if x.writable then
      { s with disk := s.disk.sync, stage := record.resume t rest }
    else { s with stage := .idle }
  | .launching t rest =>
    { s with stage := .running t rest, starts := s.starts ++ [(t.id, t.fingerprint lib)] }
  | .running t rest =>
    let (ok, result) := outcome x
    { s with outcomes := s.outcomes ++ [(t.id, ok, result)] }.store lib x t rest
      (.done ok result (t.fingerprint lib))
  | .replying t rest ok result =>
    { s.send x ⟨t.id, t.claim, false, ok, result⟩ with stage := .next rest }

end State

/-- One statement, one message, or one crash. -/
inductive Label
  | boot
  | message (x : World) (msg : Json) (size : ℕ)
  | work (x : World)
  /-- The process is killed, or exits. -/
  | kill
  /-- The power fails. -/
  | power (survives : String → Bool)

/-- The state after a label; a label that does not apply changes nothing. -/
def State.after (lib : Library) (s : State) : Label → State
  | .boot =>
    match s.stage with
    | .down => { s with stage := .idle }
    | _ => s
  | .message x msg size =>
    match s.stage with
    | .idle => s.receive x msg size
    | _ => s
  | .work x => s.work lib x
  | .kill => { s with stage := .down }
  | .power survives => { s with disk := s.disk.lose survives, stage := .down }

/-- One label. -/
def Step (lib : Library) (s : State) (l : Label) (t : State) : Prop := t = s.after lib l

end AgentPlatform.Runner
