import AgentPlatform.Google.Dispatch

/-!
# Reconciling a Google write

`GoogleReconciler`: `_load`, which every transaction starts with; the reads of `_calendar` and `_gmail`
and what they accept as evidence; and the transaction that settles the journal row with the step.
-/

namespace AgentPlatform.Google

open Outcome Engine OAuth Table

/-- One call of `reconcile`, on a reconciler with this manager and these resources. -/
structure Inquiry where
  manager : Manager
  resources : Resources
  tenant : String
  step : Uuid
  actor : String

def Inquiry.key (i : Inquiry) : String × Uuid := (i.tenant, i.step)

/-- What `_load` returns. -/
structure Loaded where
  row : Joined
  dispatch : Dispatch
  connection : String
  out : Outgoing
  required : List String

/-- The scopes a reconciliation needs. -/
def requiredScopes (tool : String) : Except Err (List String) := do
  let scope ← scopeOf tool
  if tool = "google.gmail.send" then
    let reading ← scopeOf "google.gmail.read"
    pure [scope, reading]
  else pure [scope]

/-- `_load`; `guard` is what the session guard says. -/
def load (lib : Library) (env : Env) (db : Db) (t : Tables) (book : List Dispatch) (i : Inquiry)
    (guard : Except Err Unit) : Except Err Loaded := do
  env.requireActive db i.tenant
  env.requireAuthority i.tenant "web" i.actor ["owner"]
  guard
  let row ← need (joined? db i.tenant i.step) (.notFound "Step not found")
  ensure (row.step.spec.tool ∈ writes ∧ row.step.status = .uncertain)
    (.conflict "Uncertain Google write required")
  let dispatch ← need (get Dispatch.key i.key book) (.conflict "Recoverable dispatch evidence required")
  ensure (dispatch.status ∈ [DispatchStatus.uncertain, .dispatching, .succeeded])
    (.conflict "Recoverable dispatch evidence required")
  let connection ← textArg row.step.spec.args "connection"
  ensure (dispatch.connection = connection) (.forbidden "Dispatch connection mismatch")
  let out ← authorizeArgs lib row.step.spec.tool row.step.spec.args i.resources (lib.hex i.step)
  let required ← requiredScopes row.step.spec.tool
  let credential ← i.manager.agent env db t i.tenant connection row.agent required
  ensure (credential.generation = dispatch.generation)
    (.forbidden "Original dispatch credential generation required")
  let v ← current lib env i.tenant row.agent row.step.spec.tool row.step.spec.args
  ensure (v.fingerprint = row.step.spec.fingerprint) (.forbidden "Original step policy changed")
  ensure (dispatchFingerprint lib out row.step.spec.fingerprint connection dispatch.generation i.manager
    i.resources = dispatch.fingerprint) (.forbidden "Dispatch fingerprint mismatch")
  pure ⟨row, dispatch, connection, out, required⟩

/-! ### What the provider shows -/

/-- A text of the reference. -/
def Outgoing.text (out : Outgoing) (name : String) : Except Err String :=
  textArg (.obj out.reference) name

/-- The addresses a reconciliation reads, in turn. -/
inductive Ask
  | event
  | search
  | message (mid : String)

/-- The address of a read. -/
def Ask.url (args : Json) (out : Outgoing) : Ask → Except Err String
  | event => do
    let calendar ← textArg args "calendar"
    let base ← eventsUrl calendar
    let event ← out.text "event_id"
    let name ← component event
    pure (base ++ "/" ++ name)
  | search => do
    let reference ← out.text "message_reference"
    pure (gmailUrl ++ "messages?" ++ urlencode [("q", "in:sent rfc822msgid:" ++ messageId reference),
      ("maxResults", "2"), ("includeSpamTrash", "true")])
  | message mid => do
    let name ← component mid
    pure (gmailUrl ++ "messages/" ++ name ++ "?format=raw")

/-- A timestamp of the event is the requested one. -/
def sameInstant (lib : Library) (args event : Json) (field : String) : Bool :=
  match (event.getD field .null).get? "dateTime", args.get? field with
  | some (.str shown), some (.str requested) =>
    match date lib shown, date lib requested with
    | .ok instant, .ok instant' => instant == instant'
    | _, _ => false
  | _, _ => false

/-- `_calendar`, on the event read back. -/
def calendarEvidence (lib : Library) (args : Json) (out : Outgoing) (step : String) (event : Json) :
    Except Err (Option String) := do
  let id ← out.text "event_id"
  let extended := (event.getD "extendedProperties" (.obj [])).getD "private" (.obj [])
  if (event.getD "id" .null).isText id = true ∧ (event.getD "status" .null).isText "cancelled" = false ∧
      (extended.getD "platform_step" .null).isText (stepDigest lib step) = true ∧
      (event.getD "attendees" .null).truthy = false ∧
      (event.getD "summary" .null).same (args.getD "summary" .null) = true ∧
      (event.getD "description" (.str "")).same (args.getD "description" (.str "")) = true ∧
      sameInstant lib args event "start" = true ∧ sameInstant lib args event "end" = true then
    pure (some id)
  else pure none

/-- `_gmail`, on the search: the one message found. -/
def searchEvidence (found : Json) : Except Err (Option String) := do
  let refused := oauthError "Invalid or oversized provider collection"
  let matched ← match found.getD "messages" (.arr []) with
    | .arr items => if items.length ≤ 2 then pure items else .error refused
    | _ => .error refused
  ensure (matched.all Json.isDict = true) refused
  match matched with
  | [item] =>
    if (found.getD "nextPageToken" .null).truthy then pure none
    else do
      let mid ← tokenText (item.getD "id" .null)
      bounded mid
      pure (some mid)
  | _ => pure none

/-- The one value of a header. -/
def oneHeader (mail : Mail) (name expected : String) : Bool := mail.getAll name == [expected]

/-- Line ends as `\n`. -/
def normalizeLines : List Char → List Char
  | '\r' :: '\n' :: rest => '\n' :: normalizeLines rest
  | '\r' :: rest => '\n' :: normalizeLines rest
  | c :: rest => c :: normalizeLines rest
  | [] => []

/-- The comparison of `_gmail` between the message read back and the request. -/
def mailMatches (lib : Library) (args : Json) (resources : Resources) (out : Outgoing) (raw : String) :
    Except Err Bool := do
  let binary ← lib.b64decode raw
  let mail := lib.parsebytes binary
  if mail.defects || mail.multipart || mail.contentType != "text/plain" then pure false
  else
    let reference ← out.text "message_reference"
    let recipient ← textArg args "to"
    let subject ← textArg args "subject"
    if !(oneHeader mail "Message-ID" (messageId reference) && oneHeader mail "To" recipient &&
        oneHeader mail "Subject" subject) || !(mail.getAll "Cc").isEmpty ||
        !(mail.getAll "Bcc").isEmpty then pure false
    else
      let expected ← authorizeArgs lib "google.gmail.send" args resources "unused"
      let body ← textArg expected.body "raw"
      let bytes ← lib.urlsafeB64decode body
      let shown ← mail.content
      let sent ← (lib.parsebytes bytes).content
      pure (decide (normalizeLines shown.toList = normalizeLines sent.toList))

/-- `raw+'='*((-len(raw))%4)`. -/
def padded (raw : String) : String :=
  raw ++ String.ofList (List.replicate ((4 - raw.length % 4) % 4) '=')

/-- `_gmail`, on the message read back. -/
def messageEvidence (lib : Library) (args : Json) (resources : Resources) (out : Outgoing)
    (mid : String) (message : Json) : Except Err (Option String) :=
  match message.getD "labelIds" (.arr []), message.getD "raw" .null with
  | .arr labels, .str raw =>
    if labels.length ≤ 100 ∧ (message.getD "id" .null).isText mid = true ∧
        (labels.any fun l => l.isText "SENT") = true ∧ raw.length ≤ 100000 then
      match mailMatches lib args resources out (padded raw) with
      | .ok true => pure (some mid)
      | .ok false => pure none
      | .error e =>
        if e.isValueError || e.isLookupError || e.typeName = "TypeError" then pure none else .error e
    else pure none
  | _, _ => pure none

/-! ### The settling transaction -/

/-- The receipt of a reconciled write. -/
def reconciledReceipt (tool external : String) (reference : List (String × Json)) : Json :=
  .obj ([("provider", .str "google"), ("operation", .str tool), ("external_id", .str external)] ++
    reference ++ [("reconciled", .bool true), ("evidence_kind", .str "provider_readback")])

/-- What `reconcile` carries from its first read to its last transaction. -/
structure Reading where
  inquiry : Inquiry
  loaded : Loaded
  grant : Grant

/-- The last transaction of `reconcile`, with the identifier the evidence gave. -/
def settle (lib : Library) (env : Env) (db : Db) (t : Tables) (book : List Dispatch) (r : Reading)
    (guard : Except Err Unit) (external : Option String) : Except Err (Db × List Dispatch) := do
  let _ ← load lib env db t book r.inquiry guard
  let credential ← r.inquiry.manager.agent env db t r.inquiry.tenant r.loaded.connection
    r.loaded.row.agent r.loaded.required
  ensure (credential.generation = r.grant.generation ∧ credential.status = .active ∧
    env.now < credential.expires) (.forbidden "Reconciliation credential fenced")
  match external with
  | none => pure (db, book)
  | some external => do
    let receipt := reconciledReceipt r.loaded.row.step.spec.tool external r.loaded.out.reference
    let (settled, _) ← googleReconcile db r.inquiry.tenant r.inquiry.step receipt
    pure (settled, update (fun d => d.key = r.inquiry.key)
      (fun d => { d with status := .succeeded, receipt := receipt }) book)

end AgentPlatform.Google
