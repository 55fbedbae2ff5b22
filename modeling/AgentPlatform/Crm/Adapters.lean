import AgentPlatform.Crm.Contract

/-!
# The four CRM adapters

What the constructors of the Bitrix24, Kommo, 1C and custom HTTP adapters make of a connection, the
request each operation sends, and the leads `find_leads` reads out of the provider's answer.

The process environment is a function; the provider's answer, a transport error included, is an input
of the operation that waits for it.
-/

namespace AgentPlatform.Crm

open Outcome

/-- What leaves for the provider. -/
structure Request where
  url : String
  method : String
  headers : List (String × String)
  body : Option Json

/-- The paths of a 1C connection. -/
structure OneCPaths where
  find : String
  contacts : String
  stalled : String
  comment : String

/-- An adapter, as its constructor leaves it. -/
inductive Adapter
  | bitrix24 (baseUrl : String) (headers : List (String × String))
  | kommo (host : String) (headers : List (String × String))
  | onec (host basePath : String) (headers : List (String × String)) (responseMap : Json)
      (paths : OneCPaths)
  | customHttp (host : String) (declared : CustomHttp) (headers : List (String × String))

def bitrix24StatusMap : List (String × String) :=
  [("NEW", "new"), ("IN_PROCESS", "in_progress"), ("PROCESSED", "in_progress"), ("WON", "won"),
    ("CONVERTED", "won"), ("LOSE", "lost"), ("JUNK", "lost")]

def reverseBitrix24StatusMap : List (String × String) :=
  [("new", "NEW"), ("in_progress", "IN_PROCESS"), ("won", "WON"), ("lost", "LOSE")]

def onecStatusMap : List (String × String) :=
  [("Новый", "new"), ("НеОбработан", "new"), ("ВРаботе", "in_progress"),
    ("Обрабатывается", "in_progress"), ("ВзятВРаботу", "in_progress"), ("Выигран", "won"),
    ("Завершен", "won"), ("УспешноЗакрыт", "won"), ("Проигран", "lost"), ("Отменен", "lost"),
    ("Закрыт", "lost")]

def reverseOnecStatusMap : List (String × String) :=
  [("new", "Новый"), ("in_progress", "ВРаботе"), ("won", "Выигран"), ("lost", "Проигран")]

/-- `table.get(key)`. -/
def look (table : List (String × String)) (key : String) : Option String :=
  (table.find? fun e => e.1 = key).map Prod.snd

/-- `str(value) if value is not None else ''`. -/
def strOrEmpty (lib : Library) : Json → String
  | .null => ""
  | value => pyStr lib value

/-! ### Constructors -/

/-- `os.environ.get(ref, '')`. -/
def envOf (environ : String → String) : Json → Except Err String
  | .str name => pure (environ name)
  | _ => .error (.typeError "str expected")

/-- The check of `timeout_seconds`. -/
def checkTimeout (value : Json) : Except Err Unit :=
  ensure ((match value with | .int n => decide (1 ≤ n) && decide (n ≤ 60) | _ => false) = true)
    (.valueError "timeout_seconds must be an integer 1..60")

/-- `Bitrix24Adapter.__init__`, up to the timeout: the base address and the headers. -/
def bitrix24Base (lib : Library) (environ : String → String) (host : String) (raw : Json) :
    Except Err (String × List (String × String)) := do
  let webhook := raw.getD "webhook_url_env" .null
  let tokenEnv := raw.getD "token_env" .null
  if webhook.truthy then do
    let url := strip (← envOf environ webhook)
    ensure (url ≠ "") (.runtimeError
      ("Missing Bitrix24 webhook URL in environment variable " ++ pyStr lib webhook))
    let (scheme, hostname) ← lib.urlparse url
    ensure (scheme = "https" ∧ hostname = some host)
      (.forbidden ("Bitrix24 webhook URL host must match configured host " ++ host))
    pure (dropSlashes url ++ "/", [])
  else if tokenEnv.truthy then do
    let token := strip (← envOf environ tokenEnv)
    ensure (token ≠ "") (.runtimeError
      ("Missing Bitrix24 OAuth token in environment variable " ++ pyStr lib tokenEnv))
    pure ("https://" ++ host ++ "/rest/", [("Authorization", "Bearer " ++ token)])
  else .error (.valueError "Either webhook_url_env or token_env must be configured for Bitrix24")

/-- `Bitrix24Adapter.__init__`. -/
def bitrix24Adapter (lib : Library) (environ : String → String) (raw : Json) :
    Except Err Adapter := do
  let host ← validateCrmConfig lib raw
  let (baseUrl, headers) ← bitrix24Base lib environ host raw
  checkTimeout (raw.getD "timeout_seconds" (.int 15))
  pure (.bitrix24 baseUrl headers)

/-- `KommoAdapter.__init__`. -/
def kommoAdapter (lib : Library) (environ : String → String) (raw : Json) :
    Except Err Adapter := do
  let host ← validateCrmConfig lib raw
  let tokenEnv := raw.getD "token_env" .null
  ensure (tokenEnv.truthy = true) (.valueError "token_env must be configured for Kommo / amoCRM")
  let token := strip (← envOf environ tokenEnv)
  ensure (token ≠ "") (.runtimeError
    ("Missing Kommo OAuth access token in environment variable " ++ pyStr lib tokenEnv))
  checkTimeout (raw.getD "timeout_seconds" (.int 15))
  pure (.kommo host [("Authorization", "Bearer " ++ token)])

def base64Char (n : ℕ) : Char :=
  ("ABCDEFGHIJKLMNOPQRSTUVWXYZabcdefghijklmnopqrstuvwxyz0123456789+/".toList).getD n '='

/-- `base64.b64encode`. -/
def b64encode : List UInt8 → List Char
  | a :: b :: c :: rest =>
    let n := a.toNat * 65536 + b.toNat * 256 + c.toNat
    base64Char (n / 262144) :: base64Char (n / 4096 % 64) :: base64Char (n / 64 % 64) ::
      base64Char (n % 64) :: b64encode rest
  | [a, b] =>
    let n := a.toNat * 1024 + b.toNat * 4
    [base64Char (n / 4096), base64Char (n / 64 % 64), base64Char (n % 64), '=']
  | [a] => [base64Char (a.toNat / 4), base64Char (a.toNat % 4 * 16), '=', '=']
  | [] => []

/-- The scheme of 1C's `auth`, and the reference it uses. -/
def onecAuth (lib : Library) (raw : Json) : Except Err (Bool × Json) := do
  let mode := (strip (pyStr lib (raw.getD "auth" (.str "basic")))).toLower
  ensure (mode = "basic" ∨ mode = "bearer") (.valueError "1C auth must be basic or bearer")
  let key := if mode = "basic" then "basic_auth_env" else "token_env"
  let ref := firstTruthy [raw.getD key .null, raw.getD "credential_env" .null]
  ensure (ref.isNonemptyText = true)
    (.valueError ("1C " ++ mode ++ " auth requires an environment variable reference"))
  pure (decide (mode = "basic"), ref)

/-- `OneCAdapter._auth_headers`. -/
def onecHeaders (lib : Library) (environ : String → String) (raw : Json) :
    Except Err (List (String × String)) := do
  let (basic, ref) ← onecAuth lib raw
  let credential ← envOf environ ref
  ensure (credential ≠ "")
    (.runtimeError ("Missing 1C credential in environment variable " ++ pyStr lib ref))
  let user := credential.toList.takeWhile (· != ':')
  let password := credential.toList.drop (user.length + 1)
  ensure (basic = true → user ≠ [] ∧ password ≠ [])
    (.valueError "1C basic credential must be user:password")
  pure [("Authorization",
    if basic then
      "Basic " ++ String.ofList (b64encode (credential.toList.flatMap String.utf8EncodeChar))
    else "Bearer " ++ strip credential)]

/-- One path option of 1C. -/
def onecPath (raw : Json) (key default : String) : Except Err String := do
  let value := raw.getD key (.str default)
  ensure ((match value with | .str _ => true | _ => false) = true)
    (.valueError (key ++ " must be a string"))
  safeRelativePath value key

/-- `OneCAdapter.__init__`. -/
def onecAdapter (lib : Library) (environ : String → String) (raw : Json) : Except Err Adapter := do
  let host ← validateCrmConfig lib raw
  let basePath ← safeRelativePath (raw.getD "base_path" (.str "/agent-platform/hs/leads"))
    "base_path" 200
  checkTimeout (raw.getD "timeout_seconds" (.int 15))
  let headers ← onecHeaders lib environ raw
  let find ← onecPath raw "find_path" "/search?q={query}&limit={limit}"
  let contacts ← onecPath raw "contacts_path" "/contacts?q={query}&limit={limit}"
  let stalled ← onecPath raw "stalled_path" "/leads/stalled?minutes={minutes}&limit={limit}"
  let comment ← onecPath raw "comment_path" "/leads/{lead_id}/comment"
  ensure (hasPart "{lead_id}" comment.toList = true)
    (.valueError "comment_path must contain the {lead_id} placeholder")
  let trimmed := dropSlashes basePath
  pure (.onec host (if trimmed = "" then "/" else trimmed) headers
    (dictOrEmpty (raw.getD "response_map" .null)) ⟨find, contacts, stalled, comment⟩)

/-- `HEADER_NAME_RE.match(text)`; the dollar sign also matches before a last newline. -/
def isHeaderName (text : String) : Bool :=
  let name := if text.toList.getLast? = some '\n' then text.toList.dropLast else text.toList
  isRunOf (fun c => c.isAlphanum || c == '-') 1 64 (String.ofList name)

/-- `ENV_REF_RE.match(text)`. -/
def isEnvRef (text : String) : Bool :=
  isEnvName (String.ofList
    (if text.toList.getLast? = some '\n' then text.toList.dropLast else text.toList))

/-- One header of a custom connection. -/
def declaredHeader (lib : Library) (environ : String → String) (entry : String × Json) :
    Except Err (String × String) := do
  let (name, spec) := entry
  ensure (isHeaderName name = true)
    (.valueError ("Invalid header name in custom HTTP config: " ++ lib.repr name))
  ensure (name.toLower ∉ ["host", "content-length", "connection", "transfer-encoding"])
    (.valueError ("Header " ++ name ++ " may not be overridden"))
  match spec with
  | .str value => pure (name, value)
  | .obj _ => do
    let ref ← match spec.getD "env" .null with
      | .str ref => pure ref
      | _ => .error (.valueError
        ("Header " ++ name ++ " needs a valid environment variable reference"))
    ensure (isEnvRef ref = true)
      (.valueError ("Header " ++ name ++ " needs a valid environment variable reference"))
    let value := strip (environ ref)
    ensure (value ≠ "") (.runtimeError ("Missing credential in environment variable " ++ ref))
    pure (name, pyStr lib (spec.getD "prefix" (.str "")) ++ value)
  | _ => .error (.valueError
    ("Header " ++ name ++ " must be a string or an environment reference"))

/-- The declaration of an operation. -/
def CustomHttp.operation? (declared : CustomHttp) (name : String) : Option Operation :=
  (declared.operations.find? fun o => o.1 = name).map Prod.snd

/-- `CustomHTTPAdapter.__init__`. -/
def customHttpAdapter (lib : Library) (environ : String → String) (raw : Json) :
    Except Err Adapter := do
  let host ← validateCrmConfig lib raw
  let declared ← validateCustomHttpConfig lib raw
  checkTimeout declared.timeout
  ensure ((declared.operation? "attach_message").all
      (fun o => hasPart "{lead_id}" o.path.toList) = true)
    (.valueError "attach_message.path must contain the {lead_id} placeholder")
  let headers ← declared.headers.mapM (declaredHeader lib environ)
  pure (.customHttp host declared headers)

/-- The driver a connection names. -/
def driverOf (raw : Json) : String :=
  match raw.getD "driver" .null with
  | .str driver => driver
  | _ => ""

/-- The adapter of a driver; `none` for a driver without one. -/
def adapterOf (lib : Library) (environ : String → String) (driver : String) (raw : Json) :
    Option (Except Err Adapter) :=
  if driver = "bitrix24" then some (bitrix24Adapter lib environ raw)
  else if driver = "amocrm" ∨ driver = "kommo" then some (kommoAdapter lib environ raw)
  else if driver = "onec" then some (onecAdapter lib environ raw)
  else if driver = "custom_webhook" then some (customHttpAdapter lib environ raw)
  else none

/-! ### Transports -/

/-- The headers as they go out. -/
def withContentType (headers : List (String × String)) : List (String × String) :=
  ("Content-Type", ((headers.find? fun h => h.1 = "Content-Type").map Prod.snd).getD
    "application/json") :: headers.filter fun h => h.1 ≠ "Content-Type"

/-- The check of the four transports on the address. -/
def send (lib : Library) (url method : String) (headers : List (String × String))
    (body : Option Json) : Except Err Request := do
  let (scheme, hostname) ← lib.urlparse url
  ensure (scheme = "https" ∧ hostname.isSome = true) (.valueError "Explicit HTTPS endpoint required")
  pure ⟨url, method, withContentType headers, body⟩

/-- `Bitrix24Adapter._call`. -/
def bitrix24Call (lib : Library) (baseUrl : String) (headers : List (String × String))
    (method : String) (body : Json) : Except Err Request :=
  send lib (baseUrl ++ dropLeadingSlashes method) "POST" headers (some body)

/-- `KommoAdapter._call`. -/
def kommoCall (lib : Library) (host : String) (headers : List (String × String)) (path : String)
    (method : String := "GET") (body : Option Json := none) : Except Err Request :=
  send lib ("https://" ++ host ++ "/api/v4/" ++ dropLeadingSlashes path) method headers body

/-- `OneCAdapter._call`. -/
def onecCall (lib : Library) (host basePath : String) (headers : List (String × String))
    (path : String) (method : String := "GET") (body : Option Json := none) : Except Err Request :=
  send lib ("https://" ++ host ++ basePath ++ path) method headers body

/-- `CustomHTTPAdapter._operation`. -/
def CustomHttp.operation (declared : CustomHttp) (name : String) : Except Err Operation :=
  need (declared.operation? name)
    (.forbidden ("Operation " ++ name ++ " is not declared for this connection"))

/-- `CustomHTTPAdapter._call`. -/
def customHttpCall (lib : Library) (host : String) (declared : CustomHttp)
    (headers : List (String × String)) (operation : String) (values : List (String × String))
    (body : Option Json := none) : Except Err Request := do
  let spec ← declared.operation operation
  let rendered ← buildPath spec.path values
  send lib ("https://" ++ host ++ declared.basePath ++ rendered) spec.method headers body

/-! ### Searching leads -/

/-- `min(max(1, limit), 50)`. -/
def clampLimit (limit : ℕ) : ℕ := min (max 1 limit) 50

/-- `filter_dict` of Bitrix24. -/
def bitrix24Filter (phone email : Json) : Except Err Json := do
  let phone ← given normalizePhone phone
  let email ← given normalizeEmail email
  pure (.obj (([("PHONE", .str phone), ("EMAIL", .str email)] : List (String × Json)).filter
    fun m => !m.2.isEmptyText))

/-- `query.strip()` of Kommo. -/
def stripped (query : Json) : Except Err String :=
  match query with
  | .str text => pure (strip text)
  | _ => .error (.other "AttributeError" "object has no attribute 'strip'")

/-- The lookup `find_leads` sends: Bitrix24 filters by phone and e-mail, the others search a query. -/
def Adapter.findLeadsRequest (lib : Library) (adapter : Adapter) (query phone email : Json)
    (limit : ℕ) : Except Err Request :=
  let limit := clampLimit limit
  match adapter with
  | .bitrix24 baseUrl headers => do
    let filter ← bitrix24Filter phone email
    bitrix24Call lib baseUrl headers "crm.lead.list.json" (.obj [("filter", filter),
      ("select", .arr (["ID", "TITLE", "STATUS_ID", "OPPORTUNITY", "CURRENCY_ID", "DATE_CREATE",
        "NAME"].map .str)),
      ("order", .obj [("DATE_CREATE", .str "DESC")])])
  | .kommo host headers => do
    let path := "leads?limit=" ++ toString limit
    if query.truthy then do
      let text ← stripped query
      kommoCall lib host headers (path ++ "&query=" ++ quote text)
    else kommoCall lib host headers path
  | .onec host basePath headers _ paths => do
    let text ← cleanText query "query" 256 false
    let path ← buildPath paths.find [("query", text), ("limit", toString limit)]
    onecCall lib host basePath headers path
  | .customHttp host declared headers => do
    let text ← cleanText query "query" 256 false
    customHttpCall lib host declared headers "find_leads"
      [("query", text), ("limit", toString limit)]

/-- `_map` of the adapters with a response map. -/
def mapped (lib : Library) (responseMap : Json) (key : String) (document : Json) :
    Except Err Json :=
  match responseMap.getD key .null with
  | .str pointer => if pointer = "" then pure .null else dig lib document pointer
  | _ => pure .null

/-- `_rows`. -/
def rowsOf (lib : Library) (responseMap document : Json) : Except Err (List Json) :=
  match document with
  | .arr rows => pure (rows.filter Json.isDict)
  | _ => do
    let items ← mapped lib responseMap "items" document
    pure (items.items.filter Json.isDict)

/-- `OneCAdapter._shape_lead`. -/
def onecLead (lib : Library) (responseMap row : Json) : Except Err Json := do
  let phone ← mapped lib responseMap "phone" row
  let email ← mapped lib responseMap "email" row
  let id ← mapped lib responseMap "id" row
  let title ← mapped lib responseMap "title" row
  let status ← mapped lib responseMap "status" row
  let name ← mapped lib responseMap "name" row
  let created ← mapped lib responseMap "created_at" row
  let title := firstTruthy [title, row.getD "Description" .null]
  let status := strip (pyStr lib (firstTruthy [status, .str ""]))
  pure (.obj [
    ("id", .str (strOrEmpty lib
      (firstTruthy [id, row.getD "Ref_Key" .null, row.getD "Number" .null]))),
    ("title", .str (if title.truthy then pyStr lib title else "")),
    ("name", .str (pyStr lib (firstTruthy [name, row.getD "Наименование" .null, .str ""]))),
    ("phone", .str (optionalPhone phone)),
    ("email", .str (optionalEmail email)),
    ("status", .str ((look onecStatusMap status).getD "")),
    ("provider_status", .str status),
    ("created_at", .str (pyStr lib (firstTruthy [created, row.getD "Дата" .null, .str ""])))])

/-- `CustomHTTPAdapter._shape_lead`. -/
def customHttpLead (lib : Library) (responseMap row : Json) : Except Err Json := do
  let phone ← mapped lib responseMap "phone" row
  let email ← mapped lib responseMap "email" row
  let id ← mapped lib responseMap "id" row
  let title ← mapped lib responseMap "title" row
  let status ← mapped lib responseMap "status" row
  let name ← mapped lib responseMap "name" row
  let created ← mapped lib responseMap "created_at" row
  pure (.obj [
    ("id", .str (strOrEmpty lib id)),
    ("title", .str (strOrEmpty lib title)),
    ("name", .str (pyStr lib (firstTruthy [name, .str ""]))),
    ("phone", .str (optionalPhone phone)),
    ("email", .str (optionalEmail email)),
    ("status", .str (strOrEmpty lib status)),
    ("created_at", .str (pyStr lib (firstTruthy [created, .str ""])))])

/-- A lead of Bitrix24's list. -/
def bitrix24Lead (lib : Library) (item : Json) : Except Err Json := do
  let rawStatus ← getOf item "STATUS_ID"
  let rawStatus := if (item.get? "STATUS_ID").isSome then rawStatus else .str "NEW"
  ensure (hashable rawStatus = true) (.typeError "unhashable type")
  let status := match rawStatus with
    | .str text => (look bitrix24StatusMap text).getD "in_progress"
    | _ => "in_progress"
  pure (.obj [
    ("id", .str (pyStr lib (item.getD "ID" .null))),
    ("title", item.getD "TITLE" (.str "")),
    ("name", item.getD "NAME" (.str "")),
    ("status", .str status),
    ("raw_status", rawStatus),
    ("price", .int (providerPrice lib (item.getD "OPPORTUNITY" .null))),
    ("currency", item.getD "CURRENCY_ID" (.str "UZS")),
    ("created_at", item.getD "DATE_CREATE" (.str ""))])

/-- A lead of Kommo's list. -/
def kommoLead (lib : Library) (item : Json) : Except Err Json := do
  let id ← getOf item "id"
  pure (.obj [
    ("id", .str (pyStr lib id)),
    ("title", item.getD "name" (.str "")),
    ("price", .int (providerPrice lib (item.getD "price" .null))),
    ("status_id", item.getD "status_id" .null),
    ("pipeline_id", item.getD "pipeline_id" .null),
    ("created_at", item.getD "created_at" .null)])

/-- `Bitrix24Adapter._call`, once the provider answered. -/
def bitrix24Result (lib : Library) (answer : Json) : Except Err Json := do
  ensure (answer.isDict = true) (.other "Bitrix24HTTPError" "Invalid Bitrix24 response format")
  match answer.get? "error" with
  | some error => .error (.other "Bitrix24HTTPError"
      ("Bitrix24 API error: " ++ pyStr lib (answer.getD "error_description" error)))
  | none => pure (answer.getD "result" .null)

/-- What slicing makes a list of. -/
def sliceable : Json → Except Err (List Json)
  | .arr items => pure items
  | .str text => pure (text.toList.map fun c => .str (String.singleton c))
  | _ => .error (.typeError "object is not subscriptable")

/-- The rows in the provider's answer. -/
def Adapter.rows (lib : Library) (adapter : Adapter) (answer : Json) : Except Err (List Json) :=
  match adapter with
  | .bitrix24 _ _ => do
    let results ← bitrix24Result lib answer
    pure results.items
  | .kommo _ _ =>
    match answer.get? "_embedded" with
    | none => pure []
    | some embedded => do
      let leads ← getOf embedded "leads"
      sliceable (if (embedded.get? "leads").isSome then leads else .arr [])
  | .onec _ _ _ responseMap _ => rowsOf lib responseMap answer
  | .customHttp _ declared _ => rowsOf lib declared.responseMap answer

/-- A row as a lead. -/
def Adapter.lead (lib : Library) (adapter : Adapter) (row : Json) : Except Err Json :=
  match adapter with
  | .bitrix24 _ _ => bitrix24Lead lib row
  | .kommo _ _ => kommoLead lib row
  | .onec _ _ _ responseMap _ => onecLead lib responseMap row
  | .customHttp _ declared _ => customHttpLead lib declared.responseMap row

/-- The leads `find_leads` returns for the provider's answer. Bitrix24 and Kommo cut the rows, 1C and
custom connections the leads they made of all of them. -/
def Adapter.leads (lib : Library) (adapter : Adapter) (limit : ℕ) (answer : Json) :
    Except Err (List Json) := do
  let rows ← adapter.rows lib answer
  match adapter with
  | .bitrix24 _ _ | .kommo _ _ => (rows.take (clampLimit limit)).mapM (adapter.lead lib)
  | .onec .. | .customHttp .. => do
    let leads ← rows.mapM (adapter.lead lib)
    pure (leads.take (clampLimit limit))

/-- `find_leads_by_mode`, on the provider's answer. -/
def findLeadsByMode (lib : Library) (adapter : Adapter) (driver : String)
    (query phone email : Json) (limit : ℕ) (answer : Except Err Json) :
    Except Err (List Json) := do
  let query := if searchesByQuery driver then firstTruthy [query, phone, email, .str ""] else .null
  let _ ← adapter.findLeadsRequest lib query phone email limit
  adapter.leads lib limit (← answer)

/-! ### Writing -/

/-- The members whose text is not empty, after those every request has. -/
def withGiven (fixed optional : List (String × String)) : List (String × Json) :=
  (fixed ++ optional.filter fun m => m.2 ≠ "").map fun m => (m.1, .str m.2)

/-- The payload of `CustomHTTPAdapter._create_body`, before the template. -/
def neutralBody (title name phone email : String) (price : ℤ) (currency source comments stage
    contactId leadId : String) : List (String × Json) :=
  [("title", .str title), ("name", .str name), ("phone", .str phone), ("email", .str email),
    ("price", .int price), ("currency", .str currency), ("source", .str source),
    ("comments", .str comments), ("stage", .str stage), ("contact_id", .str contactId),
    ("lead_id", .str leadId)]

/-- One field of a body template. -/
def templateField (operation : String) (payload : List (String × Json)) (field : String × Json) :
    Except Err (String × Json) := do
  ensure (field.1 ≠ "") (.valueError (operation ++ ".body keys must be non-empty strings"))
  let refused := Err.valueError
    (operation ++ ".body." ++ field.1 ++ " must reference a supported field")
  match field.2 with
  | .str pointer => do
    let value ← need ((payload.find? fun m => m.1 = pointer).map Prod.snd) refused
    pure (field.1, value)
  | _ => .error refused

/-- `CustomHTTPAdapter._create_body`. -/
def createBody (declared : CustomHttp) (operation : String) (payload : List (String × Json)) :
    Except Err Json := do
  let spec ← declared.operation operation
  match spec.body with
  | none => pure (.obj payload)
  | some template => do
    let body ← template.mapM (templateField operation payload)
    pure (.obj body)

/-- The request of `create_lead`. -/
def Adapter.createLead (lib : Library) (adapter : Adapter) (data : Json) : Except Err Request := do
  let parsed ← parseLeadRequest lib data
  match adapter with
  | .bitrix24 baseUrl headers =>
    let contact := fun key text => if text = "" then [] else
      [(key, Json.arr [.obj [("VALUE", .str text), ("VALUE_TYPE", .str "WORK")]])]
    bitrix24Call lib baseUrl headers "crm.lead.add.json" (.obj [
      ("fields", .obj ([("TITLE", .str parsed.title), ("OPPORTUNITY", .int parsed.price),
        ("CURRENCY_ID", .str parsed.currency), ("SOURCE_ID", .str parsed.source)] ++
        withGiven [] [("NAME", parsed.name)] ++ contact "PHONE" parsed.phone ++
        contact "EMAIL" parsed.email ++ withGiven [] [("COMMENTS", parsed.comments)])),
      ("params", .obj [("REGISTER_SONET_EVENT", .str "Y")])])
  | .kommo host headers =>
    let contact := fun code text => if text = "" then [] else
      [Json.obj [("field_code", .str code),
        ("values", .arr [.obj [("value", .str text), ("enum_code", .str "WORK")]])]]
    kommoCall lib host headers "leads/complex" "POST" (some (.arr [.obj [
      ("name", .str parsed.title), ("price", .int parsed.price),
      ("_embedded", .obj [("contacts", .arr [.obj [
        ("first_name", .str (if parsed.name = "" then "Customer" else parsed.name)),
        ("custom_fields_values", .arr (contact "PHONE" parsed.phone ++
          contact "EMAIL" parsed.email))]])])]]))
  | .onec host basePath headers _ _ =>
    onecCall lib host basePath headers "/leads" "POST" (some (.obj [
      ("Description", .str parsed.title),
      ("Наименование", .str (if parsed.name = "" then parsed.title else parsed.name)),
      ("phone", .str parsed.phone), ("email", .str parsed.email), ("Сумма", .int parsed.price),
      ("Валюта", .str parsed.currency), ("Источник", .str parsed.source),
      ("Комментарий", .str parsed.comments), ("Статус", .str "Новый")]))
  | .customHttp host declared headers => do
    let body ← createBody declared "create_lead" (neutralBody parsed.title parsed.name parsed.phone
      parsed.email parsed.price parsed.currency parsed.source parsed.comments "" "" "")
    customHttpCall lib host declared headers "create_lead" [] (some body)

/-- The request of `create_deal`. -/
def Adapter.createDeal (lib : Library) (adapter : Adapter) (data : Json) : Except Err Request := do
  let parsed ← parseDealRequest lib data
  match adapter with
  | .bitrix24 baseUrl headers =>
    bitrix24Call lib baseUrl headers "crm.deal.add.json" (.obj [("fields", .obj (
      [("TITLE", .str parsed.title), ("OPPORTUNITY", .int parsed.price),
        ("CURRENCY_ID", .str parsed.currency),
        ("STAGE_ID", .str ((look reverseBitrix24StatusMap parsed.stage).getD parsed.stage))] ++
        withGiven [] [("CONTACT_ID", parsed.contactId), ("LEAD_ID", parsed.leadId)]))])
  | .kommo host headers =>
    kommoCall lib host headers "leads" "POST" (some (.arr [.obj [("name", .str parsed.title),
      ("price", .int parsed.price)]]))
  | .onec host basePath headers _ _ =>
    onecCall lib host basePath headers "/deals" "POST" (some (.obj (
      [("Description", .str parsed.title), ("Сумма", .int parsed.price),
        ("Валюта", .str parsed.currency),
        ("Статус", .str ((look reverseOnecStatusMap parsed.stage).getD "Новый"))] ++
        withGiven [] [("Контакт", parsed.contactId), ("Основание", parsed.leadId)])))
  | .customHttp host declared headers => do
    let body ← createBody declared "create_deal" (neutralBody parsed.title "" "" "" parsed.price
      parsed.currency "" "" parsed.stage parsed.contactId parsed.leadId)
    customHttpCall lib host declared headers "create_deal" [] (some body)

/-- A note on a lead: the requests behind `attach_call_record` and `attach_message`, with the operation
a custom connection uses. -/
def Adapter.note (lib : Library) (adapter : Adapter) (operation leadId comment : String) :
    Except Err Request := do
  let id ← cleanText (.str leadId) "lead_id" 64
  let text := String.ofList (comment.toList.take 8000)
  match adapter with
  | .bitrix24 baseUrl headers =>
    bitrix24Call lib baseUrl headers "crm.timeline.comment.add.json" (.obj [("fields", .obj [
      ("ENTITY_ID", .str id), ("ENTITY_TYPE", .str "lead"), ("COMMENT", .str text)])])
  | .kommo host headers => do
    let entity ← match lib.digits id with
      | some number => number.map Json.int
      | none => pure (.str id)
    kommoCall lib host headers ("leads/" ++ id ++ "/notes") "POST" (some (.arr [.obj [
      ("entity_id", entity), ("note_type", .str "common"),
      ("params", .obj [("text", .str text)])]]))
  | .onec host basePath headers _ paths => do
    let path ← buildPath paths.comment [("lead_id", id)]
    onecCall lib host basePath headers path "POST" (some (.obj [("Комментарий", .str text)]))
  | .customHttp host declared headers =>
    customHttpCall lib host declared headers operation [("lead_id", id)]
      (some (.obj [("comment", .str text)]))

/-- The request of `attach_call_record`. -/
def Adapter.attachCallRecord (lib : Library) (adapter : Adapter) (call : CallRecord) :
    Except Err Request :=
  let head := "[AI Call-Center] " ++
    (if call.direction = "inbound" then "Kiruvchi" else "Chiquvchi")
  let mood := "Kayfiyat: " ++ lib.upper call.sentiment ++ "\nXulosa: " ++ call.summary
  let seconds := toString call.durationSeconds
  let audio := fun label => if call.audioUrl = "" then "" else label ++ call.audioUrl
  let operation := match adapter with
    | .customHttp _ declared _ =>
      if (declared.operation? "attach_call_record").isSome then "attach_call_record"
      else "attach_message"
    | _ => "attach_call_record"
  adapter.note lib operation call.leadId <|
    match adapter with
    | .bitrix24 .. => head ++ " ovozli qo‘ng‘iroq (" ++ seconds ++ " soniya)\n" ++ mood ++
        audio "\nAudio yozuv: " ++ "\n\n--- Transkript ---\n" ++ call.transcript
    | .kommo .. => head ++ " (" ++ seconds ++ " sek) | " ++ mood ++ audio "\nAudio: " ++
        "\n\nTranskript:\n" ++ call.transcript
    | .onec .. | .customHttp .. => head ++ " qo‘ng‘iroq (" ++ seconds ++ " sek) | " ++ mood ++
        "\n\n--- Transkript ---\n" ++ call.transcript

/-- The request of `attach_message`. -/
def Adapter.attachMessage (lib : Library) (adapter : Adapter) (message : ChatMessage) :
    Except Err Request :=
  let sender := if message.direction = "inbound" then
      match adapter with
      | .bitrix24 .. => "Mijozdan kelgan"
      | _ => "Mijoz"
    else
      match adapter with
      | .bitrix24 .. => "AI javobi"
      | _ => "AI Agent"
  adapter.note lib "attach_message" message.leadId
    ("[" ++ lib.upper message.channel ++ "] " ++ sender ++ ":\n" ++ message.text)

end AgentPlatform.Crm
