import AgentPlatform.JsonSize
import AgentPlatform.Lib.Dict
import AgentPlatform.Sync.Store

/-!
# The walkers of Google metadata

`GoogleSync` of `google_sync.py`: what a page of Gmail, Drive or Calendar is read into, the records that changed and
the next cursor. The walkers bound a field by its characters and a collection by its items; `commit` bounds a
record, a page and a cursor as they are encoded.
-/

namespace AgentPlatform.Sync

open Outcome
open OAuth (oauthError)

/-- What a stream walks over. -/
inductive Kind
  | gmail
  | drive
  | calendar
  deriving DecidableEq

def Kind.name : Kind → String
  | .gmail => "gmail"
  | .drive => "drive"
  | .calendar => "calendar"

inductive Phase
  | start
  | snapshot
  | delta
  deriving DecidableEq

def Phase.name : Phase → String
  | .start => "start"
  | .snapshot => "snapshot"
  | .delta => "delta"

/-- What the cursor of a stream says. -/
structure Cursor where
  kind : Kind
  calendar : String
  phase : Phase
  anchor : String
  page : String

/-- A cursor as it is encoded. -/
def Cursor.toJson (c : Cursor) : Json :=
  .obj [("v", .int 1), ("kind", .str c.kind.name), ("calendar", .str c.calendar), ("phase", .str c.phase.name),
    ("anchor", .str c.anchor), ("page", .str c.page)]

/-! ### Fields -/

/-- A text that `bounded` accepts. -/
def BoundedText (maximum : ℕ) : Type := { s : String // OAuth.bounded s maximum = .ok () }

/-- `bounded(value, maximum)`. -/
def boundedText (value : Json) (maximum : ℕ) : Except Err (BoundedText maximum) :=
  match value with
  | .str s =>
    match h : OAuth.bounded s maximum with
    | .ok () => .ok ⟨s, h⟩
    | .error e => .error e
  | _ => .error (.valueError "Bounded OAuth field required")

def maxTokenChars : ℕ := 1500
def maxFieldChars : ℕ := 4096
def maxRecords : ℕ := 100
def maxResponseBytes : ℕ := 1000000

/-- `token`. -/
def token (value : Json) : Except Err String := (boundedText value maxTokenChars).map Subtype.val

/-- `objects`. -/
def objects (body : Json) (key : String) (maximum : ℕ) : Except Err (List Json) :=
  let e := oauthError "Invalid or oversized provider collection"
  match body.getD key (.arr []) with
  | .arr items => do
    ensure (items.length ≤ maximum ∧ items.all Json.isDict = true) e
    pure items
  | _ => .error e

/-- The members of an item that have one of these keys, in their order. -/
def present (item : Json) (fields : List String) : List (String × Json) :=
  fields.filterMap fun field => (item.get? field).map fun value => (field, value)

/-- One field of `text_fields`. -/
def textField (m : String × Json) : Except Err (String × Json) :=
  let e := oauthError "Invalid metadata text"
  match m.2 with
  | .str value => do
    ensure (value.length ≤ maxFieldChars ∧ '\x00' ∉ value.toList) e
    pure (m.1, .str value)
  | _ => .error e

/-- `text_fields`. -/
def textFields (item : Json) (fields : List String) : Except Err (List (String × Json)) :=
  (present item fields).mapM textField

/-! ### Requests -/

/-- What a walker asks Google for. -/
inductive Request
  | profile
  | startPageToken
  | message (id : String)
  | messages (page : String)
  | files (page : String)
  | history (anchor page : String)
  | changes (token : String)
  | events (calendar : String) (syncToken : Option String) (page : String)

/-- What comes of a request: a body, an HTTP status that is an error, or another failure. -/
inductive Answer
  | body (value : Json)
  | status (code : ℤ)
  | failed (e : Err)

/-- The answers to the requests of a page, by their place in it. -/
abbrev Transport := ℕ → Request → Answer

/-- The body of an answer, within its bound. -/
def accepted : Answer → Except Err Json
  | .body value => do
    ensure (value.isDict = true ∧ value.encode.utf8ByteSize ≤ maxResponseBytes)
      (oauthError "Invalid bounded Google response")
    pure value
  | .status code => .error (.other "GoogleHTTPError" ("Google API HTTP " ++ toString code))
  | .failed e => .error e

/-- The body of an answer; a cursor the provider has dropped is an error of its own. -/
def acceptedUnless (gone : ℤ) (message : String) (answer : Answer) : Except Err Json :=
  match answer with
  | .status code => if code = gone then .error (.conflict message) else accepted (.status code)
  | answer => accepted answer

/-- The token of the next page, or nothing. -/
def nextPage (response : Json) : Except Err String :=
  match response.get? "nextPageToken" with
  | some value => token value
  | none => .ok ""

/-! ### Records -/

/-- A record that changed: its metadata, or nothing where it is deleted. -/
structure Item where
  id : BoundedText 256
  data : Option (List (String × Json))

variable (get : Transport)

/-- `_message`, of the request at a place. -/
def message (place : ℕ) (id : Json) : Except Err Item := do
  let mid ← boundedText id 256
  match get place (.message mid.val) with
  | .status 404 => pure ⟨mid, none⟩
  | answer => do
    let obj ← accepted answer
    ensure ((obj.getD "id" .null).isText mid.val = true) (oauthError "Message identity mismatch")
    let data ← textFields obj ["id", "threadId", "historyId"]
    match obj.getD "labelIds" (.arr []) with
    | .arr labels => do
      ensure (labels.length ≤ 100) (oauthError "Invalid label list")
      let names ← labels.mapM fun label => (boundedText label 256).map Subtype.val
      let sorted := names.dedup.insertionSort fun a b => a.toList ≤ b.toList
      pure ⟨mid, some (data ++ [("labelIds", .arr (sorted.map .str))])⟩
    | _ => .error (oauthError "Invalid label list")

/-- `_file`; `fid` is `null` where it is not given. -/
def file (obj fid : Json) (removed : Bool) : Except Err Item := do
  let given := match fid with
    | .null => obj.getD "id" .null
    | fid => fid
  let mid ← boundedText given 256
  if removed then pure ⟨mid, none⟩
  else
    ensure ((obj.getD "id" .null).isText mid.val = true) (oauthError "File identity mismatch")
    let data ← textFields obj ["id", "name", "mimeType", "modifiedTime", "version"]
    match obj.getD "trashed" (.bool false) with
    | .bool trashed => pure ⟨mid, if trashed then none else some data⟩
    | _ => .error (oauthError "Invalid file trash status")

/-- One date of an event. -/
def eventDate (m : String × Json) : Except Err (String × Json) := do
  ensure (m.2.isDict = true) (oauthError "Calendar date object required")
  let date ← textFields m.2 ["date", "dateTime", "timeZone"]
  pure (m.1, .obj date)

/-- The recurrence of an event, where it has one. -/
def eventRecurrence (item : Json) : Except Err (List (String × Json)) :=
  match item.get? "recurrence" with
  | none => .ok []
  | some (.arr rules) => do
    ensure (rules.length ≤ 30) (oauthError "Invalid recurrence")
    let rules ← rules.mapM fun rule => (boundedText rule 1000).map Subtype.val
    pure [("recurrence", .arr (rules.map .str))]
  | some _ => .error (oauthError "Invalid recurrence")

/-- One event of a calendar. -/
def calendarItem (item : Json) : Except Err Item := do
  let mid ← boundedText (item.getD "id" .null) 256
  if (item.getD "status" .null).isText "cancelled" then pure ⟨mid, none⟩
  else
    let data ← textFields item ["id", "summary", "description", "status", "updated", "etag", "recurringEventId"]
    let dates ← (present item ["start", "end", "originalStartTime"]).mapM eventDate
    let recurrence ← eventRecurrence item
    pure ⟨mid, some (data ++ dates ++ recurrence)⟩

/-! ### Pages -/

/-- What a walker makes of a page: the next cursor, the records, and whether it has caught up. -/
structure Fetched where
  next : Cursor
  items : List Item
  complete : Bool

/-- `_snapshot`. -/
def snapshot (state : Cursor) : Except Err Fetched := do
  let response ← accepted (get 0 (if state.kind = .gmail then .messages state.page else .files state.page))
  ensure ((response.getD "incompleteSearch" .null).truthy = false)
    (oauthError "Drive search incomplete; cursor not advanced")
  let items ←
    if state.kind = .gmail then do
      let found ← objects response "messages" 20
      (found.zipIdx 1).mapM fun m => message get m.2 (m.1.getD "id" .null)
    else do
      let found ← objects response "files" maxRecords
      found.mapM fun obj => file obj .null false
  let page ← nextPage response
  pure ⟨{ state with page := page, phase := if page = "" then .delta else .snapshot }, items, false⟩

def historyFields : List String := ["messagesAdded", "labelsAdded", "labelsRemoved", "messagesDeleted"]

/-- One change of a history: what is noted last of a message holds. -/
def historyChange (field : String) (changed : List (String × Bool)) (change : Json) :
    Except Err (List (String × Bool)) := do
  let msg := change.getD "message" .null
  ensure (msg.isDict = true) (oauthError "History message required")
  let mid ← boundedText (msg.getD "id" .null) 256
  pure (Dict.modify mid.val (fun _ => decide (field = "messagesDeleted")) changed)

/-- One history of `_gmail_history`. -/
def historyEntry (changed : List (String × Bool)) (history : Json) : Except Err (List (String × Bool)) :=
  historyFields.foldlM (fun changed field => do
    let changes ← objects history field maxRecords
    changes.foldlM (historyChange field) changed) changed

/-- The record of a changed message. -/
def historyItem (place : ℕ) (m : String × Bool) : Except Err Item :=
  if m.2 then (boundedText (.str m.1) 256).map fun mid => ⟨mid, none⟩ else message get place (.str m.1)

/-- `_gmail_history`. -/
def gmailHistory (state : Cursor) : Except Err Fetched := do
  let response ← acceptedUnless 404 "Google cursor expired; explicit owner reset required"
    (get 0 (.history state.anchor state.page))
  let histories ← objects response "history" 10
  let changed ← histories.foldlM historyEntry []
  ensure (changed.length ≤ maxRecords) (oauthError "Too many history messages; cursor not advanced")
  let items ← (changed.zipIdx 1).mapM fun m => historyItem get m.2 m.1
  let page ← nextPage response
  let anchor ← if page = "" then token (response.getD "historyId" .null) else .ok state.anchor
  pure ⟨{ state with page := page, anchor := anchor }, items, decide (page = "")⟩

/-- One change of `_drive_changes`. -/
def driveChange (change : Json) : Except Err Item :=
  match change.getD "removed" (.bool false) with
  | .bool removed => do
    let obj := change.getD "file" (.obj [])
    ensure (obj.isDict = true) (oauthError "Invalid file object")
    file obj (change.getD "fileId" .null) removed
  | _ => .error (oauthError "Invalid removed flag")

/-- `_drive_changes`. -/
def driveChanges (state : Cursor) : Except Err Fetched := do
  let response ← acceptedUnless 410 "Google cursor expired; explicit owner reset required"
    (get 0 (.changes (if state.page = "" then state.anchor else state.page)))
  let changes ← objects response "changes" maxRecords
  let items ← changes.mapM driveChange
  let page ← nextPage response
  let anchor ← if page = "" then token (response.getD "newStartPageToken" .null) else .ok state.anchor
  pure ⟨{ state with page := page, anchor := anchor }, items, decide (page = "")⟩

/-- `_calendar`. -/
def calendarPage (state : Cursor) : Except Err Fetched := do
  let syncToken := if state.phase = .delta then some state.anchor else none
  let response ← acceptedUnless 410 "Calendar cursor expired; explicit owner reset required"
    (get 0 (.events state.calendar syncToken state.page))
  let found ← objects response "items" maxRecords
  let items ← found.mapM calendarItem
  let page ← nextPage response
  let anchor ← if page = "" then token (response.getD "nextSyncToken" .null) else .ok state.anchor
  let phase := if page = "" ∨ state.phase = .delta then Phase.delta else .snapshot
  pure ⟨{ state with phase := phase, page := page, anchor := anchor }, items, decide (page = "")⟩

/-- The first call of a stream of messages or files: where its changes begin. -/
def anchorPage (state : Cursor) : Except Err Fetched := do
  let (request, key) :=
    if state.kind = .gmail then (Request.profile, "historyId") else (.startPageToken, "startPageToken")
  let response ← accepted (get 0 request)
  let anchor ← token (response.getD key .null)
  pure ⟨{ state with phase := .snapshot, anchor := anchor }, [], false⟩

/-- `_fetch`. -/
def fetch (state : Cursor) : Except Err Fetched :=
  match state.kind, state.phase with
  | .calendar, _ => calendarPage get state
  | _, .start => anchorPage get state
  | _, .snapshot => snapshot get state
  | .gmail, .delta => gmailHistory get state
  | .drive, .delta => driveChanges get state

/-! ### Into the store -/

/-- The last record of each id, at the place of the first. -/
def unique (items : List Item) : List (String × Item) :=
  items.foldl (fun d item => Dict.modify item.id.val (fun _ => item) d) []

/-- The event of a record. -/
def Item.event (item : Item) (version : ℕ) : Json :=
  .obj [("id", .str item.id.val), ("deleted", .bool item.data.isNone), ("data", .obj (item.data.getD [])),
    ("version", .int version)]

/-- The records of a page, with the versions they get in the stream. -/
def versioned (revision : ℕ) (items : List Item) : List (Item × ℕ) :=
  items.zipIdx ((revision + 1) * 1000)

/-- What `page` is about to commit. -/
structure Draft where
  next : Cursor
  records : List (Item × ℕ)
  complete : Bool

def Draft.events (d : Draft) : Json := .arr (d.records.map fun m => m.1.event m.2)

/-- `page`, up to the commit. -/
def draft (state : Cursor) (revision : ℕ) : Except Err Draft := do
  let fetched ← fetch get state
  ensure (state.page = "" ∨ fetched.next.page ≠ state.page) (.conflict "Provider repeated pagination token")
  let items := (unique fetched.items).map Prod.snd
  ensure (items.length ≤ maxRecords) (oauthError "Too many changed records; cursor not advanced")
  pure ⟨fetched.next, versioned revision items, fetched.complete⟩

/-- `type(value) is int and value == 1`. -/
def isVersionOne : Json → Bool
  | .int n => n == 1
  | _ => false

/-- `_cursor`, of what `strict_json` makes of the text. -/
def cursorOf (strictJson : String → Except Err Json) (raw : String) (kind : Kind) (calendar : String) :
    Except Err Cursor :=
  if raw = "" then .ok ⟨kind, calendar, .start, "", ""⟩
  else do
    let data ← strictJson raw
    let keys := ["v", "kind", "calendar", "phase", "anchor", "page"]
    ensure ((data.members.all fun m => keys.contains m.1) = true ∧ (keys.all fun k => (data.get? k).isSome) = true ∧
      isVersionOne (data.getD "v" .null) = true) (.conflict "Unsupported sync checkpoint")
    let mismatch := Err.conflict "Sync checkpoint binding mismatch"
    ensure ((data.getD "kind" .null).isText kind.name = true ∧ (data.getD "calendar" .null).isText calendar = true)
      mismatch
    let phase ← need ([Phase.snapshot, .delta].find? fun p => (data.getD "phase" .null).isText p.name) mismatch
    let tokenOf (key : String) : Except Err String :=
      let value := data.getD key .null
      if value.truthy then token value
      else do
        ensure (value.isText "" = true) (.conflict "Invalid sync token")
        pure ""
    let anchor ← tokenOf "anchor"
    let page ← tokenOf "page"
    if kind ≠ .calendar ∨ phase = .delta then
      let _ ← token (data.getD "anchor" .null)
      pure ⟨kind, calendar, phase, anchor, page⟩
    else pure ⟨kind, calendar, phase, anchor, page⟩

end AgentPlatform.Sync
