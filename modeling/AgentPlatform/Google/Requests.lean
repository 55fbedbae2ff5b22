import AgentPlatform.Crm.Contract
import AgentPlatform.OAuth.Manager

/-!
# The requests of the Google tools

`authorize_args` of `google_adapters.py`: the one request a tool makes, from its arguments and the
resources the operator allows. The standard library's `datetime`, `email` and `base64` are parameters,
gathered in `Library` with the platform.
-/

namespace AgentPlatform.Google

open Outcome Engine OAuth

/-- The bytes of a message. -/
abbrev Bytes := List UInt8

/-- A message `BytesParser(policy=policy.default)` returns. -/
structure Mail where
  defects : Bool
  multipart : Bool
  contentType : String
  /-- `str(value)` of the values of `get_all(name, [])`. -/
  getAll : String → List String
  content : Except Err String

/-- The platform, and the parts of the standard library the tools rest on. -/
structure Library extends Platform where
  /-- The text of an identifier. -/
  hex : Uuid → String
  /-- `datetime.fromisoformat`; nothing where the timestamp has no time zone. -/
  fromisoformat : String → Except Err (Option Time)
  /-- `EmailMessage(policy=SMTP)` with these headers and this text, as bytes. -/
  asBytes (recipient subject messageId text : String) : Except Err Bytes
  urlsafeB64encode : Bytes → String
  urlsafeB64decode : String → Except Err Bytes
  /-- `b64decode(text, altchars=b'-_', validate=True)`. -/
  b64decode : String → Except Err Bytes
  parsebytes : Bytes → Mail

/-- `PREFIX`. -/
def scopePrefix : String := "https://www.googleapis.com/auth/"

/-- `SCOPES`. -/
def scopes : List (String × String) :=
  [("google.gmail.list", scopePrefix ++ "gmail.readonly"),
    ("google.gmail.read", scopePrefix ++ "gmail.readonly"),
    ("google.gmail.send", scopePrefix ++ "gmail.send"),
    ("google.drive.list", scopePrefix ++ "drive.metadata.readonly"),
    ("google.drive.metadata", scopePrefix ++ "drive.metadata.readonly"),
    ("google.calendar.list", scopePrefix ++ "calendar.events.readonly"),
    ("google.calendar.create", scopePrefix ++ "calendar.events")]

/-- `SCOPES[name]`. -/
def scopeOf (name : String) : Except Err String :=
  need ((scopes.find? fun s => s.1 = name).map Prod.snd) (.lookupError name)

/-- `WRITES`. -/
def writes : List String := ["google.gmail.send", "google.calendar.create"]

/-! ### Arguments -/

/-- A text among the arguments. -/
def textArg (args : Json) (key : String) : Except Err String :=
  match args.get? key with
  | some (.str text) => pure text
  | some _ => .error (.typeError "str expected")
  | none => .error (.lookupError key)

/-- `component`. -/
def component (value : String) : Except Err String := do
  bounded value
  pure (Crm.quote value [])

/-- `quote_plus`. -/
def quotePlus (text : String) : String :=
  String.ofList ((Crm.quote text [' ']).toList.map fun c => if c = ' ' then '+' else c)

/-- `urllib.parse.urlencode`. -/
def urlencode (params : List (String × String)) : String :=
  "&".intercalate (params.map fun p => quotePlus p.1 ++ "=" ++ quotePlus p.2)

/-- The resources the operator allows for a connection. -/
structure Resources where
  recipientEmails : List String
  calendarIds : List String

def Resources.toJson (r : Resources) : Json :=
  .obj [("recipient_emails", .arr (r.recipientEmails.map .str)),
    ("calendar_ids", .arr (r.calendarIds.map .str))]

/-- One allowlist of `configured_resources`. -/
def allowlist (raw : Json) (key : String) : Except Err (List String) := do
  let invalid := Err.valueError "Invalid resource allowlist"
  let items ← match raw.getD key .null with
    | .arr items => if items.length ≤ 100 then pure items else .error invalid
    | _ => .error invalid
  let texts ← items.mapM fun item =>
    match item with
    | .str text => pure text
    | _ => .error invalid
  texts.forM bounded
  pure texts

/-- `configured_resources`, of the tenant's configuration. -/
def configuredResources (config : Json) (connection : String) : Except Err Resources := do
  let raw := (config.getD "google_resources" (.obj [])).getD connection .null
  ensure (raw.isDict = true ∧
      (raw.members.all fun m => ["recipient_emails", "calendar_ids"].contains m.1) = true ∧
      (raw.get? "recipient_emails").isSome = true ∧ (raw.get? "calendar_ids").isSome = true)
    (.forbidden "Explicit Google resource policy required")
  let recipients ← allowlist raw "recipient_emails"
  let calendars ← allowlist raw "calendar_ids"
  pure ⟨recipients, calendars⟩

/-- The characters before the `@` of `_mailbox`. -/
def isLocalChar (c : Char) : Bool :=
  c.isAlphanum || ".!#$%&'*+/=?^_\x60\x7b|\x7d~-".toList.contains c

/-- The characters after it. -/
def isDomainChar (c : Char) : Bool := c.isAlphanum || c == '.' || c == '-'

/-- The domain of `_mailbox`: its last label has 2 to 63 letters. -/
def isDomain (domain : List Char) : Bool :=
  let label := (domain.reverse.takeWhile (· != '.')).reverse
  let rest := domain.take (domain.length - label.length)
  decide (2 ≤ label.length) && decide (label.length ≤ 63) && label.all Char.isAlpha &&
    decide (2 ≤ rest.length) && rest.all isDomainChar

/-- `_mailbox`. -/
def mailbox (value : String) : Except Err String := do
  let name := value.toList.takeWhile (· != '@')
  let rest := value.toList.drop name.length
  ensure ((!name.isEmpty && name.all isLocalChar && (rest.head? == some '@') && isDomain rest.tail) =
    true) (.valueError "Single ASCII email address required")
  pure value

/-- `_date`: the instant of a timestamp. -/
def date (lib : Library) (value : String) : Except Err Time := do
  bounded value 64
  let refused := Err.valueError "Timezone-qualified ISO timestamp required"
  match lib.fromisoformat
      (String.ofList (Crm.replacePart ['Z'] "+00:00".toList 0 value.toList)) with
  | .ok (some instant) => pure instant
  | .ok none => .error refused
  | .error e => if e.isValueError then .error refused else .error e

/-! ### `authorize_args` -/

inductive Method
  | get
  | post
  deriving DecidableEq, Repr

/-- What a tool sends, with the reference it keeps. -/
structure Outgoing where
  method : Method
  url : String
  body : Json
  reference : List (String × Json)

/-- `digest({'step': key})`. -/
def stepDigest (lib : Library) (key : String) : String :=
  digest lib.sha256 (.obj [("step", .str key)])

/-- The `Message-ID` of a message. -/
def messageId (reference : String) : String := "<ap." ++ reference ++ "@agent-platform.invalid>"

/-- `GMAIL`. -/
def gmailUrl : String := "https://gmail.googleapis.com/gmail/v1/users/me/"

/-- `google.gmail.send`. -/
def sendMail (lib : Library) (args : Json) (resources : Resources) (key : String) :
    Except Err Outgoing := do
  let address ← textArg args "to"
  let recipient ← mailbox address
  ensure (resources.recipientEmails.contains recipient = true)
    (.forbidden "Email recipient not allowlisted")
  let subject ← textArg args "subject"
  ensure ((subject.toList.any fun c => c == '\r' || c == '\n' || c == '\x00') = false)
    (.valueError "Invalid subject")
  let text ← textArg args "text"
  let bytes ← lib.asBytes recipient subject (messageId (stepDigest lib key)) text
  pure ⟨.post, gmailUrl ++ "messages/send", .obj [("raw", .str (lib.urlsafeB64encode bytes))],
    [("message_reference", .str (stepDigest lib key))]⟩

/-- The page of a listing. -/
def pageParams (args : Json) (size : String) : List (String × String) :=
  [(size, match args.getD "limit" (.int 20) with
    | .int n => toString n
    | value => value.encode)]

/-- The page token, where there is one. -/
def pageToken (args : Json) : List (String × String) :=
  match args.getD "page_token" .null with
  | .str token => if token = "" then [] else [("pageToken", token)]
  | _ => []

/-- The address of a calendar's events. -/
def eventsUrl (calendar : String) : Except Err String := do
  let name ← component calendar
  pure ("https://www.googleapis.com/calendar/v3/calendars/" ++ name ++ "/events")

/-- `google.calendar.list`, below the calendar's address. -/
def listEvents (lib : Library) (base : String) (args : Json) : Except Err Outgoing := do
  let since ← match args.getD "time_min" .null with
    | .str minimum => if minimum = "" then pure [] else (do
        let _ ← date lib minimum
        pure [("timeMin", minimum)])
    | _ => pure []
  pure ⟨.get, base ++ "?" ++ urlencode (pageParams args "maxResults" ++ [("singleEvents", "true")] ++
    pageToken args ++ since), .null, []⟩

/-- `google.calendar.create`, below the calendar's address. -/
def createEvent (lib : Library) (base : String) (args : Json) (key : String) :
    Except Err Outgoing := do
  let last ← textArg args "end"
  let finish ← date lib last
  let first ← textArg args "start"
  let start ← date lib first
  ensure (start < finish) (.valueError "Event end must follow start")
  let summary ← textArg args "summary"
  let event := "ap" ++ stepDigest lib key
  pure ⟨.post, base ++ "?sendUpdates=none",
    .obj ([("id", .str event), ("summary", .str summary), ("start", .obj [("dateTime", .str first)]),
      ("end", .obj [("dateTime", .str last)]),
      ("extendedProperties", .obj [("private", .obj [("platform_step", .str (stepDigest lib key))])])] ++
      ((args.get? "description").map fun text => ("description", text)).toList),
    [("event_id", .str event)]⟩

/-- `authorize_args`. -/
def authorizeArgs (lib : Library) (name : String) (args : Json) (resources : Resources)
    (key : String) : Except Err Outgoing := do
  if name = "google.gmail.send" then sendMail lib args resources key
  else if name = "google.gmail.list" then
    let query := match args.getD "query" (.str "") with
      | .str text => text
      | value => value.encode
    pure ⟨.get, gmailUrl ++ "messages?" ++ urlencode (pageParams args "maxResults" ++ [("q", query)] ++
      pageToken args), .null, []⟩
  else if name = "google.gmail.read" then
    let message ← (textArg args "id").bind component
    pure ⟨.get, gmailUrl ++ "messages/" ++ message ++ "?format=full", .null, []⟩
  else if name = "google.drive.list" then
    pure ⟨.get, "https://www.googleapis.com/drive/v3/files?" ++ urlencode (pageParams args "pageSize" ++
      [("fields", "nextPageToken,files(id,name,mimeType,modifiedTime,version)"),
        ("q", "trashed = false")] ++ pageToken args), .null, []⟩
  else if name = "google.drive.metadata" then
    let file ← (textArg args "id").bind component
    pure ⟨.get, "https://www.googleapis.com/drive/v3/files/" ++ file ++
      "?fields=id,name,mimeType,modifiedTime,version", .null, []⟩
  else if "google.calendar.".toList.isPrefixOf name.toList = true then
    let calendar ← textArg args "calendar"
    ensure (resources.calendarIds.contains calendar = true) (.forbidden "Calendar not allowlisted")
    let base ← eventsUrl calendar
    if name = "google.calendar.list" then listEvents lib base args
    else if name = "google.calendar.create" then createEvent lib base args key
    else .error (.valueError "Unknown Google operation")
  else .error (.valueError "Unknown Google operation")

end AgentPlatform.Google
