import AgentPlatform.Erp.Postings

/-!
# Submitting a document

`submit` is a program of several transactions with two provider calls between them. A worker's
`Stage` is the point it has reached, with what it holds there; an `Event` is one worker's next
statement, one crash, or one call of somebody else. Since an event names its worker, every
interleaving of any number of workers is a run of `Step`.

The provider's answers, the operator's configuration and the credential are inputs of the events that
read them.
-/

namespace AgentPlatform.Erp

open Outcome

/-- What `submit` reads of `erp_config`, with the defaults of its `response_map`. -/
structure Settings where
  driver : String
  enabled : Bool
  host : String
  basePath : String
  searchPath : String
  postPath : String
  idempotencyHeader : String
  existingId : String
  items : String
  createdId : String
  deriving DecidableEq, Repr

/-- The arguments of one `submit`. -/
structure Call where
  tenant : String
  posting : Posting
  document : String
  plan : Json
  note : String

/-- `plan or {}`. -/
def Call.planOrEmpty (call : Call) : Json := if call.plan.truthy then call.plan else .obj []

/-- What leaves for the ERP. -/
structure Request where
  url : String
  body : Json
  headers : List (String × String)

/-- What `submit` returns. -/
inductive Reply
  | duplicate (externalId postingId : String)
  | posted (externalId postingId : String)
  deriving DecidableEq, Repr

/-- Where a worker stands in `submit`. -/
inductive Stage
  | idle
  /-- The configuration was read; recovery comes next. -/
  | configured (call : Call) (settings : Settings)
  /-- Recovered; the ledger lookup comes next. -/
  | recovered (call : Call) (settings : Settings)
  /-- The ledger does not claim the document; the ERP search comes next. -/
  | unclaimed (call : Call) (settings : Settings)
  /-- The ERP holds the document; recording it comes next. -/
  | known (call : Call) (remote : String)
  /-- Body and headers are built; the reservation comes next. -/
  | ready (call : Call) (settings : Settings) (request : Request)
  /-- The reservation is committed; the `POST` comes next. -/
  | reserved (call : Call) (settings : Settings) (request : Request) (rowId : String)
  /-- The `POST` has left. -/
  | sent (call : Call) (settings : Settings) (rowId : String)
  /-- The `POST` was answered; recording the answer comes next. -/
  | answered (call : Call) (settings : Settings) (rowId : String) (answer : Except Err Json)
  | returned (result : Except Err Reply)

/-- Where a statement leaves the worker; a raised exception is what `submit` ends with. -/
def Stage.ofResult : Except Err Stage → Stage
  | .ok stage => stage
  | .error e => .returned (.error e)

/-! ### Reading the provider's answers -/

/-- `_dig`. -/
def dig (document : Json) (pointer : String) : Option Json :=
  if pointer = "" then none
  else
    let segments := (pointer.toList.splitOn '.').map String.ofList
    if segments.length ≤ 4 then
      (segments.foldl (fun current segment => current.bind (Json.get? segment)) (some document)).filter
        fun | .null => false | _ => true
    else none

/-- The first truthy value. -/
def firstTruthy (values : List (Option Json)) : Option Json :=
  (values.filterMap id).find? Json.truthy

/-- `find_posted`, on the provider's answer; `headers` is the answer of `_auth_headers`. -/
def findPosted (lib : Library) (settings : Settings) (posting : Posting)
    (headers : Except Err (List (String × String))) (answer : Except Err Json) :
    Except Err (Option String) := do
  let _ ← headers
  if settings.searchPath = "" then pure none
  else
    match answer with
    | .error e =>
      if e.isRuntimeError || e.isValueError then
        if e.typeName = "RuntimeError" ∨ e.typeName = "ValueError" then .error e
        else .error (.erpError e.text none)
      else .error (.erpError ("could not ask the ERP whether " ++ lib.repr posting.number ++
        " is already posted (" ++ e.typeName ++ "). Sending without that answer is how a document " ++
        "is posted twice, so the posting is refused") none)
    | .ok document => do
      ensure (document.isDict = true) (.erpError "ERP search response was not an object" none)
      match firstTruthy [dig document settings.existingId] with
      | some existing => pure (some (lib.str existing))
      | none =>
        match dig document settings.items with
        | some (.arr (first :: _)) =>
          match firstTruthy [some ((dig first "id").getD first)] with
          | some found => pure (some (lib.str found))
          | none => pure (some "found")
        | _ => pure none

/-- `posting_body`. -/
def postingBody (posting : Posting) (note : String) : Except Err Json := do
  let comment := strip note
  ensure (comment.length ≤ 500) (.erpError "note exceeds 500 characters" none)
  pure (.obj (([("document_type", .str "invoice"), ("counterparty", .str posting.counterparty),
    ("account", .str posting.account), ("document_number", .str posting.number),
    ("document_date", .str posting.docDate), ("amount", .int posting.totalMinor),
    ("currency", .str posting.currency), ("counterparty_name", .str posting.supplier),
    ("comment", .str comment)] : List (String × Json)).filter fun m => !m.2.isEmptyText))

/-- The identifier in the answer of the `POST`. -/
def externalOf (settings : Settings) (response : Json) : Option Json :=
  firstTruthy ((if settings.createdId = "" then none else dig response settings.createdId) ::
    ["id", "Ref_Key", "Number", "document_id"].map fun key => response.get? key)

/-! ### The statements of `submit` -/

/-- Up to the configuration checks. -/
def configure (call : Call) (settings : Except Err Settings) : Except Err Stage := do
  let settings ← settings
  ensure (settings.driver ≠ "") (.forbidden "ERP posting is not configured for this tenant")
  ensure (settings.enabled = true) (.forbidden "ERP posting is disabled for this tenant")
  pure (.configured call settings)

/-- The ledger lookup. -/
def lookup (rows : List Row) (call : Call) (settings : Settings) : Except Err Stage :=
  match posted rows call.tenant call.posting with
  | none => pure (.unclaimed call settings)
  | some existing =>
    let who := "document " ++ call.posting.supplier ++ "/" ++ call.posting.number
    if existing.status = .posting then
      .error (.conflict (who ++ " is in flight: posting " ++ existing.id ++
        " was reserved and its ERP answer has not arrived; refusing a concurrent posting"))
    else if existing.status.unknown then
      .error (.conflict (who ++ " has a posting whose outcome is unknown (status '" ++
        existing.status.text ++ "', idempotency key " ++ existing.id ++ "). The owner must " ++
        "reconcile it against the ERP before any retry, because a second POST may post the " ++
        "invoice twice"))
    else
      .error (.conflict (who ++ " was already posted by this platform (status '" ++
        existing.status.text ++ "'); refusing a second posting"))

/-- The ERP search, and what is built before the reservation. -/
def search (lib : Library) (call : Call) (settings : Settings)
    (searchHeaders : Except Err (List (String × String))) (answer : Except Err Json)
    (headers : Except Err (List (String × String))) : Except Err Stage := do
  match ← findPosted lib settings call.posting searchHeaders answer with
  | some remote =>
    if remote = "" then build else pure (.known call remote)
  | none => build
where
  /-- The body, the address and the headers of the `POST`. -/
  build : Except Err Stage := do
    let body ← postingBody call.posting call.note
    ensure (settings.postPath ≠ "") (.forbidden "erp_posting.post_path is not declared")
    let headers ← headers
    pure (.ready call settings
      ⟨"https://" ++ settings.host ++ settings.basePath ++ settings.postPath, body, headers⟩)

/-- The headers with the idempotency key. -/
def withKey (settings : Settings) (headers : List (String × String)) (rowId : String) :
    List (String × String) :=
  if settings.idempotencyHeader = "" then headers
  else headers.filter (fun h => h.1 ≠ settings.idempotencyHeader) ++
    [(settings.idempotencyHeader, rowId)]

/-- The status, external id and response `submit` hands to `_finish`. -/
def outcomeOf (lib : Library) (settings : Settings) (answer : Except Err Json) :
    Status × String × Json :=
  match answer with
  | .error e =>
    (if definitiveRefusal e then .failed else .uncertain, "",
      .obj [("error", .str e.typeName), ("status", match e with
        | .erpError _ (some status) => .int status
        | _ => .null)])
  | .ok response =>
    match externalOf settings response with
    | none => (.unconfirmed, "", response)
    | some external => (.posted, lib.str external, response)

/-- Recording the answer of the `POST`. -/
def recordAnswer (lib : Library) (rows : List Row) (call : Call) (settings : Settings)
    (rowId : String) (answer : Except Err Json) (now : Time) : List Row :=
  let (status, externalId, response) := outcomeOf lib settings answer
  finish rows call.tenant rowId status externalId response now

/-- What `submit` returns or raises after `_finish`. -/
def resultOf (lib : Library) (settings : Settings) (rowId : String) (answer : Except Err Json) :
    Except Err Reply :=
  match answer with
  | .error e => .error e
  | .ok response =>
    match externalOf settings response with
    | none => .error (.conflict ("ERP accepted the posting but returned no document identifier. " ++
        "The attempt was recorded as unconfirmed: reconcile it in the ERP by hand rather than " ++
        "retrying, because a second attempt may post the invoice twice"))
    | some external => .ok (.posted (lib.str external) rowId)

/-! ### Workers in any interleaving -/

/-- The ledger, and where every worker stands. -/
structure State where
  rows : List Row := []
  workers : ℕ → Stage := fun _ => .idle

/-- One event of the system. -/
inductive Event
  | submit (worker : ℕ) (call : Call) (settings : Except Err Settings)
  | recover (worker : ℕ) (now : Time)
  | lookup (worker : ℕ)
  | search (worker : ℕ) (searchHeaders : Except Err (List (String × String)))
      (answer : Except Err Json) (headers : Except Err (List (String × String)))
  | record (worker : ℕ) (active : Except Err Unit) (drawn : String) (now : Time)
  | reserve (worker : ℕ) (active : Except Err Unit) (now : Time)
  | post (worker : ℕ)
  | answer (worker : ℕ) (answer : Except Err Json)
  | finish (worker : ℕ) (now : Time)
  | crash (worker : ℕ)
  /-- `recover_postings` by anyone: a preparation, a status request, an owner. -/
  | sweep (tenant : String) (now : Time)
  | reconcile (authority : Except Err Unit) (tenant postingId role : String) (outcome : Verdict)
      (evidence externalId : String) (now : Time)

namespace State

/-- Moves a worker. -/
def goto (s : State) (worker : ℕ) (stage : Stage) : State :=
  { s with workers := Function.update s.workers worker stage }

/-- The state after an event; an event whose worker stands elsewhere changes nothing. -/
def after (lib : Library) (s : State) : Event → State
  | .submit w call settings =>
    match s.workers w with
    | .idle | .returned _ => s.goto w (.ofResult (configure call settings))
    | _ => s
  | .recover w now =>
    match s.workers w with
    | .configured call settings =>
      { s with rows := recoverPostings s.rows call.tenant now }.goto w
        (.recovered call settings)
    | _ => s
  | .lookup w =>
    match s.workers w with
    | .recovered call settings => s.goto w (.ofResult (Erp.lookup s.rows call settings))
    | _ => s
  | .search w searchHeaders answer headers =>
    match s.workers w with
    | .unclaimed call settings =>
      s.goto w (.ofResult (Erp.search lib call settings searchHeaders answer headers))
    | _ => s
  | .record w active drawn now =>
    match s.workers w with
    | .known call remote =>
      match Erp.record s.rows active call.tenant drawn call.posting call.document call.planOrEmpty
          .skippedExisting remote (.obj []) (.obj [("existing_id", .str remote)]) now with
      | .ok (rows, rowId) =>
        { s with rows := rows }.goto w (.returned (.ok (.duplicate remote rowId)))
      | .error e => s.goto w (.returned (.error e))
    | _ => s
  | .reserve w active now =>
    match s.workers w with
    | .ready call settings request =>
      match Erp.reserve lib s.rows active call.tenant call.posting call.document call.planOrEmpty
          request.body now with
      | .ok (rows, rowId) =>
        { s with rows := rows }.goto w (.reserved call settings
          { request with headers := withKey settings request.headers rowId } rowId)
      | .error e => s.goto w (.returned (.error e))
    | _ => s
  | .post w =>
    match s.workers w with
    | .reserved call settings _ rowId => s.goto w (.sent call settings rowId)
    | _ => s
  | .answer w answer =>
    match s.workers w with
    | .sent call settings rowId => s.goto w (.answered call settings rowId answer)
    | _ => s
  | .finish w now =>
    match s.workers w with
    | .answered call settings rowId answer =>
      { s with rows := recordAnswer lib s.rows call settings rowId answer now }.goto w (.returned (resultOf lib settings rowId answer))
    | _ => s
  | .crash w => s.goto w .idle
  | .sweep tenant now => { s with rows := recoverPostings s.rows tenant now }
  | .reconcile authority tenant postingId role outcome evidence externalId now =>
    { s with rows := commit s.rows (reconcilePosting s.rows authority tenant postingId role outcome
        evidence externalId now) }

end State

/-- One event. -/
def Step (lib : Library) (s : State) (e : Event) (t : State) : Prop := t = s.after lib e

end AgentPlatform.Erp
