import AgentPlatform.JsonSize
import AgentPlatform.Runner.AtMostOnce
import AgentPlatform.Runner.Tools

/-!
# Results that fit the journal

A tool bounds a file by its bytes and a listing by its entries; `Journal.write` bounds the record of the result as it is
written, where a control character takes six bytes. The record of a done task fits exactly where the escaped content
does (`answered_iff`); where it does not, the task stays journaled as started and the tasks after it are not handled.
-/

namespace AgentPlatform.Runner

open Runs

/-! ### `JSON.stringify` -/

mutual

/-- `JSON.stringify`, with the members in their own order. -/
def stringify : Json → String
  | .null => "null"
  | .bool true => "true"
  | .bool false => "false"
  | .int n => toString n
  | .float literal => literal
  | .str s => Json.quote s
  | .arr items => "[" ++ ",".intercalate (stringifyItems items) ++ "]"
  | .obj members => "\x7b" ++ ",".intercalate (stringifyMembers members) ++ "\x7d"

def stringifyItems : List Json → List String
  | [] => []
  | item :: items => stringify item :: stringifyItems items

def stringifyMembers : List (String × Json) → List String
  | [] => []
  | (key, value) :: members => (Json.quote key ++ ":" ++ stringify value) :: stringifyMembers members

end

section Size

variable {w : Char → ℕ}

mutual

theorem weigh_stringify (hw : Json.IsWeight w) : (v : Json) → weigh w (stringify v).toList = v.size w
  | .null => Json.weigh_ascii hw (by decide)
  | .bool true => Json.weigh_ascii hw (by decide)
  | .bool false => Json.weigh_ascii hw (by decide)
  | .int n => rfl
  | .float literal => rfl
  | .str s => Json.weigh_quote hw s
  | .arr items => by
    have hopen : weigh w "[".toList = 1 := Json.weigh_ascii hw (by decide)
    have hclose : weigh w "]".toList = 1 := Json.weigh_ascii hw (by decide)
    rw [stringify, String.toList_append, String.toList_append, weigh_append, weigh_append, hopen, hclose,
      Json.weigh_intercalate hw, weigh_stringifyItems hw items, Json.size]
    omega
  | .obj members => by
    have hopen : weigh w "\x7b".toList = 1 := Json.weigh_ascii hw (by decide)
    have hclose : weigh w "\x7d".toList = 1 := Json.weigh_ascii hw (by decide)
    rw [stringify, String.toList_append, String.toList_append, weigh_append, weigh_append, hopen, hclose,
      Json.weigh_intercalate hw, weigh_stringifyMembers hw members, Json.size]
    omega

theorem weigh_stringifyItems (hw : Json.IsWeight w) :
    (items : List Json) → (stringifyItems items).map (fun s => weigh w s.toList) = Json.sizeItems w items
  | [] => rfl
  | item :: items => by
    rw [stringifyItems, List.map_cons, weigh_stringify hw item, weigh_stringifyItems hw items, Json.sizeItems]

theorem weigh_stringifyMembers (hw : Json.IsWeight w) :
    (members : List (String × Json)) →
      (stringifyMembers members).map (fun s => weigh w s.toList) = Json.sizeMembers w members
  | [] => rfl
  | (key, value) :: members => by
    have hcolon : weigh w ":".toList = 1 := Json.weigh_ascii hw (by decide)
    rw [stringifyMembers, List.map_cons, String.toList_append, String.toList_append, weigh_append, weigh_append,
      Json.weigh_quote hw, hcolon, weigh_stringify hw value, weigh_stringifyMembers hw members, Json.sizeMembers]

end

theorem utf8ByteSize_stringify (v : Json) : (stringify v).utf8ByteSize = v.size Char.utf8Size := by
  rw [← weigh_utf8Size, weigh_stringify Json.isWeight_utf8Size]

end Size

/-! ### The bytes of a record -/

/-- What Node provides: SHA-256 in hexadecimal digits, `toLowerCase`, and the value of a number. -/
structure Node where
  sha256 : String → String
  digest : ∀ text, (sha256 text).length = 64 ∧ ∀ c ∈ (sha256 text).toList, c ∈ "0123456789abcdef".toList
  lower : String → String
  number : String → Option ℚ

def Node.library (node : Node) : Library := ⟨node.sha256, stringify, node.number⟩

/-- The bytes of a text in a record, without its quotes. -/
def weight (text : String) : ℕ := (text.toList.map (Json.escapedSize Char.utf8Size)).sum

theorem quotedSize_eq (text : String) : Json.quotedSize Char.utf8Size text = 2 + weight text := rfl

theorem weight_digest (node : Node) (text : String) : weight (node.sha256 text) = 64 := by
  obtain ⟨hlength, hdigits⟩ := node.digest text
  have hone : ∀ c ∈ "0123456789abcdef".toList, Json.escapedSize Char.utf8Size c = 1 := by decide
  rw [weight, List.map_congr_left fun c hc => hone c (hdigits c hc), List.map_const', List.sum_replicate_nat,
    String.length_toList, hlength]

/-- A result as the record of a done task has it. -/
theorem size_done (node : Node) (ok : Bool) (result : Json) (text : String) :
    (Record.done ok result (node.sha256 text)).toJson.size Char.utf8Size =
      result.size Char.utf8Size + if ok then 118 else 119 := by
  have hstatus : Json.quotedSize Char.utf8Size "status" = 8 := by decide
  have hdone : Json.quotedSize Char.utf8Size "done" = 6 := by decide
  have hok : Json.quotedSize Char.utf8Size "ok" = 4 := by decide
  have hresult : Json.quotedSize Char.utf8Size "result" = 8 := by decide
  have hfingerprint : Json.quotedSize Char.utf8Size "fingerprint" = 13 := by decide
  have hdigest := weight_digest node text
  cases ok with
  | false =>
    simp only [Record.toJson, Json.size, Json.sizeMembers, hstatus, hdone, hok, hresult, hfingerprint, quotedSize_eq,
      hdigest, separated, List.sum_cons, List.sum_nil, List.length_cons, List.length_nil]
    simp
    omega
  | true =>
    simp only [Record.toJson, Json.size, Json.sizeMembers, hstatus, hdone, hok, hresult, hfingerprint, quotedSize_eq,
      hdigest, separated, List.sum_cons, List.sum_nil, List.length_cons, List.length_nil]
    simp
    omega

theorem size_text (text : String) : (Json.obj [("text", .str text)]).size Char.utf8Size = 11 + weight text := by
  have htext : Json.quotedSize Char.utf8Size "text" = 6 := by decide
  simp only [Json.size, Json.sizeMembers, htext, quotedSize_eq, separated, List.sum_cons, List.sum_nil, List.length_cons,
    List.length_nil]
  omega

/-- The bytes of an entry. -/
def Item.weight (item : Item) : ℕ := Runner.weight item.name + if item.directory then 30 else 25

theorem size_item (item : Item) : item.toJson.size Char.utf8Size = item.weight := by
  have hname : Json.quotedSize Char.utf8Size "name" = 6 := by decide
  have htype : Json.quotedSize Char.utf8Size "type" = 6 := by decide
  have hdirectory : Json.quotedSize Char.utf8Size "directory" = 11 := by decide
  have hfile : Json.quotedSize Char.utf8Size "file" = 6 := by decide
  rw [Item.toJson, Item.weight]
  cases item.directory with
  | false =>
    simp only [Json.size, Json.sizeMembers, hname, htype, hfile, quotedSize_eq, separated, List.sum_cons, List.sum_nil,
      List.length_cons, List.length_nil, if_neg (Bool.false_ne_true)]
    omega
  | true =>
    simp only [Json.size, Json.sizeMembers, hname, htype, hdirectory, quotedSize_eq, separated, List.sum_cons,
      List.sum_nil, List.length_cons, List.length_nil, if_pos]
    omega

theorem size_listing (entries : List Item) (truncated : Bool) :
    (Json.obj [("entries", .arr (entries.map Item.toJson)), ("truncated", .bool truncated)]).size Char.utf8Size =
      27 + separated (entries.map Item.weight) + if truncated then 4 else 5 := by
  have hentries : Json.quotedSize Char.utf8Size "entries" = 9 := by decide
  have htruncated : Json.quotedSize Char.utf8Size "truncated" = 11 := by decide
  have hitems : Json.sizeItems Char.utf8Size (entries.map Item.toJson) = entries.map Item.weight := by
    induction entries with
    | nil => rfl
    | cons item entries ih => rw [List.map_cons, Json.sizeItems, ih, size_item, List.map_cons]
  cases truncated with
  | false =>
    simp only [Json.size, Json.sizeMembers, hentries, htruncated, hitems, separated, List.sum_cons, List.sum_nil,
      List.length_cons, List.length_nil, if_neg (Bool.false_ne_true)]
    omega
  | true =>
    simp only [Json.size, Json.sizeMembers, hentries, htruncated, hitems, separated, List.sum_cons, List.sum_nil,
      List.length_cons, List.length_nil, if_pos]
    omega

/-! ### Results that fit -/

/-- The record of a text that is read fits: it weighs 65407 at most. -/
def Reading.Fits (found : Reading) : Prop := ∀ text, decode (found.bytes.take 16001) = some text → weight text ≤ 65407

/-- The entries a listing has. -/
def Listing.entries (lower : String → String) (config : Config) (found : Listing) : List Item :=
  ((found.items.take 1000).filter (shows lower config)).take 200

/-- Whether there are more. -/
def Listing.cutShort (lower : String → String) (config : Config) (found : Listing) : Prop :=
  1000 < found.items.length ∨ 200 ≤ (found.items.dropLast.filter (shows lower config)).length

instance (lower : String → String) (config : Config) (found : Listing) : Decidable (found.cutShort lower config) :=
  inferInstanceAs (Decidable (_ ∨ _))

/-- The record of a listing fits: the entries and the commas between them weigh 65386 at most, one byte more where the
listing is cut short. -/
def Listing.Fits (lower : String → String) (config : Config) (found : Listing) : Prop :=
  separated ((found.entries lower config).map Item.weight) + (if found.cutShort lower config then 4 else 5) ≤ 65391

theorem fits_iff (node : Node) (ok : Bool) (result : Json) (text : String) :
    (Record.done ok result (node.sha256 text)).fits node.library = true ↔
      result.size Char.utf8Size + (if ok then 118 else 119) ≤ 65536 := by
  rw [Record.fits, decide_eq_true_eq, ← size_done node ok result text]
  exact Iff.of_eq (congrArg (· ≤ 65536) (utf8ByteSize_stringify _))

/-- The condition on what a call finds. -/
def Device.Fits (lower : String → String) (config : Config) (tool : String) (device : Device) : Prop :=
  if tool = "fs.list" then device.listing.Fits lower config else device.reading.Fits

theorem fits_of_execute {node : Node} {config : Config} {tool : String} {args result : Json} {device : Device}
    (h : execute node.lower config tool args device = some result) (text : String) :
    (Record.done true result (node.sha256 text)).fits node.library = true ↔ device.Fits node.lower config tool := by
  rw [fits_iff, if_pos rfl, Device.Fits]
  unfold execute at h
  split_ifs at h ⊢ with hlist hread
  · split at h
    · unfold list at h
      split_ifs at h
      obtain rfl := Option.some.inj h
      have hcut := @listEntries_truncated node.lower config device.listing.items
      rw [size_listing, listEntries_eq, Listing.Fits, Listing.entries]
      by_cases hmore : device.listing.cutShort node.lower config
      · rw [if_pos hmore, if_pos (hcut.2 hmore)]
        omega
      · rw [if_neg hmore, if_neg (hmore ∘ hcut.1)]
        omega
    · cases h
  · split at h
    · simp only [readText] at h
      split_ifs at h
      obtain ⟨content, hcontent, rfl⟩ := Option.map_eq_some_iff.1 h
      rw [size_text, Reading.Fits, hcontent]
      constructor
      · intro hsize text heq
        obtain rfl := Option.some.inj heq
        omega
      · intro hfits
        have := hfits content rfl
        omega
    · cases h

theorem isTruthy_of_execute {lower : String → String} {config : Config} {tool : String} {args result : Json}
    {device : Device} (h : execute lower config tool args device = some result) : isTruthy result = true := by
  unfold execute at h
  split_ifs at h
  · split at h
    · unfold list at h
      split_ifs at h
      obtain rfl := Option.some.inj h
      rfl
    · cases h
  · split at h
    · simp only [readText] at h
      split_ifs at h
      obtain ⟨content, -, rfl⟩ := Option.map_eq_some_iff.1 h
      rfl
    · cases h

/-! ### Answers -/

/-- A task whose tool runs, in a state a run reaches, and what happens until the loop goes on: the tool's call, and
three statements that find the disk writable and the connection open. -/
structure Execution (node : Node) where
  transitions : List (Transition State Label)
  state : State
  reached : Run (Step node.library) {} transitions state
  task : Task
  rest : List Json
  running : state.stage = .running task rest
  config : Config
  device : Device
  call : World
  called : call.returned = execute node.lower config task.tool task.params device
  renamed : World
  synced : World
  sent : World
  working : ∀ x ∈ [call, renamed, synced], x.writable = true
  connected : sent.connected = true

namespace Execution

variable {node : Node} (e : Execution node)

/-- The state after the four statements. -/
def final : State :=
  (((e.state.work node.library e.call).work node.library e.renamed).work node.library e.synced).work node.library e.sent

/-- The journal has the task as done with some result, which is sent, and the next tasks are handled. -/
def Answered : Prop :=
  ∃ ok result, e.final.stage = .next e.rest ∧
    e.final.disk.seen e.task.id = some (.done ok result (e.task.fingerprint node.library)) ∧
    e.final.answers = e.state.answers ++ [⟨e.task.id, e.task.claim, false, ok, result⟩]

/-- The journal still has the task as started, nothing is sent, and the next tasks are not handled. -/
def Dropped : Prop :=
  (∃ claim, e.final.disk.seen e.task.id = some (.started claim (e.task.fingerprint node.library))) ∧
    e.final.answers = e.state.answers ∧ e.final.stage = .idle

/-- What the call finds weighs no more than the journal takes. -/
def Fits : Prop := e.device.Fits node.lower e.config e.task.tool

theorem marked : Marked node.library e.state e.task := by
  have hinv : Inv node.library e.state := e.reached.invariant inv_empty fun u l v hu huv => hu.step huv
  have hready := hinv.2
  rw [Ready, e.running] at hready
  exact hready.1

/-- A record that fits is written, and the result is sent. -/
theorem answered_of_fits {ok : Bool} {result : Json} (houtcome : State.outcome e.call = (ok, result))
    (h : (Record.done ok result (e.task.fingerprint node.library)).fits node.library = true) : e.Answered := by
  have hcall := e.working _ List.mem_cons_self
  have hrenamed := e.working e.renamed (by simp)
  have hsynced := e.working e.synced (by simp)
  have hfirst : e.state.work node.library e.call =
      { e.state with
        outcomes := e.state.outcomes ++ [(e.task.id, ok, result)]
        stage := .renaming e.task e.rest (.done ok result (e.task.fingerprint node.library)) } := by
    rw [State.work, e.running]
    simp [State.store, houtcome, h, hcall]
  refine ⟨ok, result, ?_⟩
  rw [final, hfirst]
  simp [State.work, State.send, hrenamed, hsynced, e.connected, Record.resume]

/-- A record that does not fit is not written. -/
theorem dropped_of_not_fits {ok : Bool} {result : Json} (houtcome : State.outcome e.call = (ok, result))
    (h : (Record.done ok result (e.task.fingerprint node.library)).fits node.library = false) :
    e.Dropped ∧ ¬ e.Answered := by
  have hfirst : e.state.work node.library e.call =
      { e.state with outcomes := e.state.outcomes ++ [(e.task.id, ok, result)], stage := .idle } := by
    rw [State.work, e.running]
    simp [State.store, houtcome, h]
  have hfinal : e.final =
      { e.state with outcomes := e.state.outcomes ++ [(e.task.id, ok, result)], stage := .idle } := by
    rw [final, hfirst]
    rfl
  obtain ⟨claim, -, hseen⟩ := e.marked
  rw [Dropped, Answered, hfinal]
  refine ⟨⟨⟨claim, hseen⟩, rfl, rfl⟩, ?_⟩
  rintro ⟨_, _, hstage, -⟩
  cases hstage

end Execution

/-- A task is answered exactly where what its tool finds fits the journal; a task that is not stays journaled as
started. A call that is refused is answered. -/
theorem answered_iff {node : Node} (e : Execution node) :
    (e.call.returned = none → e.Answered) ∧
      (e.call.returned.isSome = true → (e.Answered ↔ e.Fits) ∧ (¬ e.Fits → e.Dropped)) := by
  constructor
  · intro hnone
    have houtcome : State.outcome e.call = (false, failedResult) := by rw [State.outcome, hnone]
    refine e.answered_of_fits houtcome ((fits_iff node false failedResult _).2 ?_)
    decide
  · intro hsome
    obtain ⟨result, hresult⟩ := Option.isSome_iff_exists.1 hsome
    have htruthy := isTruthy_of_execute (e.called.symm.trans hresult)
    have houtcome : State.outcome e.call = (true, result) := by
      rw [State.outcome, hresult]
      exact if_pos htruthy
    have hfits := fits_of_execute (e.called.symm.trans hresult)
      (stringify (.obj [("tool", .str e.task.tool), ("args", e.task.params)]))
    by_cases h : e.Fits
    · exact ⟨iff_of_true (e.answered_of_fits houtcome (hfits.2 h)) h, fun hnot => absurd h hnot⟩
    · have hrecord : (Record.done true result (e.task.fingerprint node.library)).fits node.library = false := by
        rw [← Bool.not_eq_true]
        exact h ∘ hfits.1
      obtain ⟨hdropped, hnot⟩ := e.dropped_of_not_fits houtcome hrecord
      exact ⟨iff_of_false hnot h, fun _ => hdropped⟩

/-! ### A file of control characters -/

theorem decode_utf8 {text : List Char} (h : text.head? ≠ some '\ufeff') :
    decode (text.flatMap String.utf8EncodeChar) = some (String.ofList text) := by
  have hbytes : (⟨(text.flatMap String.utf8EncodeChar).toArray⟩ : ByteArray) = text.utf8Encode := by
    rw [List.utf8Encode]
    exact ByteArray.ext List.data_toByteArray.symm
  have htext : String.fromUTF8? text.utf8Encode = some (String.ofList text) :=
    dif_pos ByteArray.isValidUTF8_utf8Encode
  rw [decode, hbytes, htext, Option.map_some, String.toList_ofList, if_neg h]

def sampleNode : Node where
  sha256 := fun _ => "0000000000000000000000000000000000000000000000000000000000000000"
  digest := fun _ => by decide
  lower := String.toLower
  number := fun _ => none

/-- Eleven thousand times the control character one. -/
def controlText : List Char := List.replicate 11000 '\x01'

def controlFile : Reading where
  real := some "/srv/docs/log.txt"
  opens := true
  opened := some "/srv/docs/log.txt"
  isFile := true
  links := 1
  size := 11000
  again := some "/srv/docs/log.txt"
  same := true
  bytes := controlText.flatMap String.utf8EncodeChar
  closed := some "/srv/docs/log.txt"

def sampleConfig : Config := ⟨["/srv/docs"], []⟩

theorem weight_controlText : weight (String.ofList controlText) = 66000 := by
  rw [weight, String.toList_ofList, controlText, List.map_replicate, List.sum_replicate_nat]
  have hsix : Json.escapedSize Char.utf8Size '\x01' = 6 := by decide
  rw [hsix]

theorem bytes_controlFile : controlFile.bytes = List.replicate 11000 1 := by
  have hone : String.utf8EncodeChar '\x01' = [1] := by decide
  have hloop : ∀ n, (List.replicate n '\x01').flatMap String.utf8EncodeChar = List.replicate n 1 := by
    intro n
    induction n with
    | zero => rfl
    | succ n ih => rw [List.replicate_succ, List.flatMap_cons, ih, hone, List.replicate_succ, List.singleton_append]
  exact hloop 11000

theorem readText_controlFile : readText sampleNode.lower sampleConfig "/srv/docs/log.txt" controlFile =
    some (.obj [("text", .str (String.ofList controlText))]) := by
  have hlength : controlFile.bytes.length = 11000 := by rw [bytes_controlFile, List.length_replicate]
  have htake : controlFile.bytes.take 16001 = controlFile.bytes :=
    List.take_of_length_le (by rw [hlength]; decide)
  have hzero : controlFile.bytes.contains 0 = false := by
    rw [bytes_controlFile, List.contains_eq_mem, decide_eq_false_iff_not]
    exact fun hmem => absurd (List.eq_of_mem_replicate hmem) (by decide)
  have hdecode : decode controlFile.bytes = some (String.ofList controlText) := by
    refine decode_utf8 ?_
    rw [controlText, List.head?_replicate, if_neg (by decide)]
    decide
  have hpath : permitted sampleNode.lower sampleConfig "/srv/docs/log.txt" (some "/srv/docs/log.txt") = true := by
    decide +kernel
  have hopen : permittedOpen sampleNode.lower sampleConfig (some "/srv/docs/log.txt") = true := by decide +kernel
  simp only [readText, htake, hlength, hzero, hdecode]
  rw [if_pos]
  · rfl
  · simp [controlFile, hpath, hopen]

/-- A message with the task of reading the file. -/
def controlMessage : Json :=
  .obj [("tasks", .arr [.obj [("id", .str firstTask), ("claim", .str "0123456789abcdef0123456789abcdef"),
    ("lease", .int 1000), ("tool", .str "fs.read_text"), ("params", .obj [("file", .str "/srv/docs/log.txt")])]])]

def controlLabels : List Label :=
  .boot :: .message sampleWorld controlMessage 300 :: List.replicate 4 (.work sampleWorld)

/-- The loop runs the task of reading the file. -/
def Stage.readsLog : Stage → Bool
  | .running t _ => decide (t.tool = "fs.read_text") && (t.params.getD "file" .null).isText "/srv/docs/log.txt"
  | _ => false

/-- A file of eleven thousand control characters is read, and its task stays journaled as started. -/
theorem not_answered_controlFile : ¬ ∀ (node : Node) (e : Execution node), e.Answered := by
  intro h
  have hreached : Run (Step sampleNode.library) {} (trace (State.after sampleNode.library) {} controlLabels)
      (controlLabels.foldl (State.after sampleNode.library) {}) := Run.nil.calls controlLabels
  have hstage : (controlLabels.foldl (State.after sampleNode.library) {}).stage.readsLog = true := by decide +kernel
  unfold Stage.readsLog at hstage
  split at hstage
  · rename_i task rest hrunning
    rw [Bool.and_eq_true, decide_eq_true_eq] at hstage
    obtain ⟨htool, hfile⟩ := hstage
    have hexecute : execute sampleNode.lower sampleConfig task.tool task.params ⟨⟨none, false, none, [], none⟩, controlFile⟩ =
        some (.obj [("text", .str (String.ofList controlText))]) := by
      have hparam : task.params.getD "file" .null = .str "/srv/docs/log.txt" := by
        generalize task.params.getD "file" .null = file at hfile ⊢
        cases file with
        | str file => exact congrArg Json.str (eq_of_beq hfile)
        | _ => cases hfile
      rw [execute, htool, if_neg (by decide), if_pos rfl, hparam]
      exact readText_controlFile
    let e : Execution sampleNode :=
      { transitions := _
        state := _
        reached := hreached
        task := task
        rest := rest
        running := hrunning
        config := sampleConfig
        device := ⟨⟨none, false, none, [], none⟩, controlFile⟩
        call := { returned := some (.obj [("text", .str (String.ofList controlText))]) }
        called := hexecute.symm
        renamed := {}
        synced := {}
        sent := {}
        working := by simp
        connected := rfl }
    have hrecord : (Record.done true (.obj [("text", .str (String.ofList controlText))])
        (task.fingerprint sampleNode.library)).fits sampleNode.library = false := by
      rw [← Bool.not_eq_true]
      intro hfits
      have hsize := (fits_iff sampleNode true _ "").1 hfits
      rw [size_text, weight_controlText] at hsize
      revert hsize
      decide
    exact (e.dropped_of_not_fits rfl hrecord).2 (h sampleNode e)
  · cases hstage

end AgentPlatform.Runner
