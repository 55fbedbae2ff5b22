import AgentPlatform.Json

/-!
# The CRM contract

`crm_contract.py`: the checks of a connection's configuration and of a request's fields, the path
templates with their placeholders, and the fingerprint of a plan.

A configuration is the JSON object the operator wrote. `Library` is what the package takes from
Python's library: the tables of Unicode, `str` of a value, `int` of a float, and `urlparse`.
-/

namespace AgentPlatform.Crm

open Outcome

structure Library where
  sha256 : String → String
  /-- `str(value)` of a value that is no text. -/
  str : Json → String
  /-- `repr(text)`. -/
  repr : String → String
  /-- `text.upper()`. -/
  upper : String → String
  /-- `\w`. -/
  isWord : Char → Bool
  /-- `int(text)`, where `text.isdigit()`. -/
  digits : String → Option (Except Err ℤ)
  /-- `int(value)` of a float, where it is finite and within `0 … 10 ** 15`. -/
  wholePrice : String → Option ℤ
  /-- The scheme and the host name of `urlparse(url)`. -/
  urlparse : String → Except Err (String × Option String)

def crmDrivers : List String :=
  ["bitrix24", "amocrm", "kommo", "modme", "billz", "moysklad", "retailcrm", "yclients", "jowi",
    "poster", "custom_webhook", "onec"]

def querySearchDrivers : List String := ["amocrm", "kommo", "onec", "custom_webhook"]

def customHttpOperations : List String :=
  ["find_leads", "find_contacts", "create_lead", "create_deal", "attach_call_record",
    "attach_message", "find_stalled_leads"]

def customHttpMethods : List String := ["GET", "POST", "PUT", "PATCH"]

def customHttpPlaceholders : List String :=
  ["query", "phone", "email", "lead_id", "contact_id", "limit", "minutes", "since"]

/-! ### Python's containers -/

/-- `str(value)`. -/
def pyStr (lib : Library) : Json → String
  | .str text => text
  | value => lib.str value

/-- `hash(value)` is defined. -/
def hashable : Json → Bool
  | .arr _ | .obj _ => false
  | _ => true

/-- `value.get(key)`, which only a dictionary has. -/
def getOf (value : Json) (key : String) : Except Err Json :=
  match value with
  | .obj _ => pure (value.getD key .null)
  | _ => .error (.other "AttributeError" "object has no attribute 'get'")

/-- `text in container`. -/
def isIn (text : String) : Json → Except Err Bool
  | .arr items => pure (items.any fun v => v.same (.str text))
  | .str s => pure (s.toList.tails.any fun rest => text.toList.isPrefixOf rest)
  | .obj members => pure (members.any fun m => m.1 = text)
  | _ => .error (.typeError "argument is not iterable")

/-- `text in set(container)`. -/
def isInSet (text : String) : Json → Except Err Bool
  | .arr items => do
    ensure (items.all hashable = true) (.typeError "unhashable type")
    pure (items.any fun v => v.same (.str text))
  | .str s => pure (s.toList.any fun c => String.singleton c = text)
  | .obj members => pure (members.any fun m => m.1 = text)
  | _ => .error (.typeError "object is not iterable")

/-- `a or b or …`. -/
def firstTruthy : List Json → Json
  | [] => .null
  | [value] => value
  | value :: values => if value.truthy then value else firstTruthy values

/-! ### Fields of a request -/

/-- A number after its plus sign. -/
def isPhone : List Char → Bool
  | '+' :: digits => decide (7 ≤ digits.length) && decide (digits.length ≤ 15) &&
      digits.all Char.isDigit
  | _ => false

/-- The plus sign and the country code `normalize_phone` supplies. -/
def withCountryCode (cleaned : List Char) : List Char :=
  if "+".toList.isPrefixOf cleaned then cleaned
  else if "998".toList.isPrefixOf cleaned && decide (cleaned.length = 12) then '+' :: cleaned
  else if "8".toList.isPrefixOf cleaned && decide (cleaned.length = 11) then
    "+7".toList ++ cleaned.drop 1
  else if 9 ≤ cleaned.length ∧ cleaned.length ≤ 12 then '+' :: cleaned
  else cleaned

/-- `normalize_phone`. -/
def normalizePhone : Json → Except Err String
  | .str value => do
    let cleaned := (strip value).toList.filter fun c => c.isDigit || c == '+'
    ensure (cleaned ≠ []) (.valueError "Empty phone number")
    ensure (isPhone (withCountryCode cleaned) = true)
      (.valueError "Invalid international phone number format")
    pure (String.ofList (withCountryCode cleaned))
  | _ => .error (.valueError "Phone must be a string")

def isLocalChar (c : Char) : Bool :=
  c.isAlphanum || ['.', '!', '#', '$', '%', '&', '\'', '*', '+', '/', '=', '?', '^', '_', '\x60',
    '{', '|', '}', '~', '-'].contains c

def isDomainChar (c : Char) : Bool := c.isAlphanum || c == '.' || c == '-'

/-- `EMAIL_RE`: a local part, `@`, a domain, a dot and letters. -/
def isEmail (text : List Char) : Bool :=
  let name := text.takeWhile (· != '@')
  match text.drop name.length with
  | '@' :: domain =>
    let top := (domain.reverse.takeWhile (· != '.')).reverse
    let head := domain.take (domain.length - top.length - 1)
    !name.isEmpty && name.all isLocalChar && !head.isEmpty && head.all isDomainChar &&
      decide (head.length + 1 + top.length = domain.length) && decide (2 ≤ top.length) &&
      decide (top.length ≤ 63) && top.all Char.isAlpha
  | _ => false

/-- `normalize_email`; what `EMAIL_RE` accepts is ASCII. -/
def normalizeEmail : Json → Except Err String
  | .str value => do
    ensure (isEmail (strip value).toList = true ∧ value.length ≤ 254)
      (.valueError "Invalid email address")
    pure (String.ofList ((strip value).toList.map Char.toLower))
  | _ => .error (.valueError "Invalid email address")

/-- A provider's value, or nothing where the normaliser refuses it. -/
def optionally (normalize : Json → Except Err String) (value : Json) : String :=
  if value.truthy then
    match normalize value with
    | .ok text => text
    | .error _ => ""
  else ""

/-- `optional_phone`. -/
def optionalPhone (value : Json) : String := optionally normalizePhone value

/-- `optional_email`. -/
def optionalEmail (value : Json) : String := optionally normalizeEmail value

/-- The value of decimal digits. -/
def ofDigits (digits : List Char) : ℕ := digits.foldl (fun n c => 10 * n + (c.toNat - '0'.toNat)) 0

/-- What may follow the whole digits of a price. -/
def isFraction : List Char → Bool
  | [] => true
  | c :: rest => decide (c = '.') && decide (rest.length ≤ 6) && rest.all Char.isDigit

/-- `provider_price`. -/
def providerPrice (lib : Library) : Json → ℤ
  | .int value => if 0 ≤ value ∧ value ≤ 10 ^ 15 then value else 0
  | .float literal => (lib.wholePrice literal).getD 0
  | .str value =>
    let text := (strip value).toList
    let whole := text.takeWhile Char.isDigit
    let fraction := isFraction (text.drop whole.length)
    if 1 ≤ whole.length ∧ whole.length ≤ 15 ∧ fraction = true then ofDigits whole else 0
  | _ => 0

/-- `clean_text`. -/
def cleanText (value : Json) (name : String) (maximum : ℕ := 256) (required : Bool := true) :
    Except Err String :=
  match value with
  | .null | .str "" =>
    if required then .error (.valueError (name ++ " is required")) else pure ""
  | .str text => do
    let trimmed := strip text
    ensure (¬ (required = true ∧ trimmed = "")) (.valueError (name ++ " must not be empty"))
    ensure (trimmed.length ≤ maximum ∧ (trimmed.toList.all fun c =>
        decide (32 ≤ c.toNat) || ['\t', '\n', '\r'].contains c) = true)
      (.valueError (name ++ " exceeds bounds or contains control characters"))
    pure trimmed
  | _ => .error (.valueError (name ++ " must be a string"))

/-- `bounded_int`. -/
def boundedInt (value : Json) (name : String) (low high : ℤ) (default : ℤ := 0) : Except Err ℤ :=
  match value with
  | .null | .str "" => pure default
  | .int n => do
    ensure (low ≤ n ∧ n ≤ high)
      (.valueError (name ++ " must be an integer " ++ toString low ++ ".." ++ toString high))
    pure n
  | _ => .error (.valueError (name ++ " must be an integer"))

/-- `bounded_price`. -/
def boundedPrice : Json → Except Err ℤ
  | .null => pure 0
  | .int n => do
    ensure (0 ≤ n ∧ n ≤ 10 ^ 12) (.valueError "Price outside bounds (0..10^12)")
    pure n
  | _ => .error (.valueError "Price must be an integer amount")

/-- `clean_currency`. -/
def cleanCurrency (lib : Library) (value : Json) : Except Err String :=
  let refused := Err.valueError "Currency must be 3-letter uppercase code, e.g. UZS, USD, RUB"
  if value.truthy then
    match value with
    | .str text => do
      ensure (isRunOf Char.isUpper 3 3 (lib.upper (strip text)) = true) refused
      pure (lib.upper (strip text))
    | _ => .error refused
  else pure "UZS"

/-- A text out of a set of literals. -/
def choice (value : Json) (options : List String) (message : String) : Except Err String :=
  match value with
  | .str text => do
    ensure (text ∈ options) (.valueError message)
    pure text
  | .arr _ | .obj _ => .error (.typeError "unhashable type")
  | _ => .error (.valueError message)

/-! ### Requests -/

/-- What `parse_lead_request` returns. -/
structure LeadRequest where
  title : String
  name : String
  phone : String
  email : String
  price : ℤ
  currency : String
  source : String
  comments : String
  deriving DecidableEq

def LeadRequest.toJson (r : LeadRequest) : Json :=
  .obj [("title", .str r.title), ("name", .str r.name), ("phone", .str r.phone),
    ("email", .str r.email), ("price", .int r.price), ("currency", .str r.currency),
    ("source", .str r.source), ("comments", .str r.comments)]

/-- `normalize(data[key]) if data.get(key) else ''`. -/
def given (normalize : Json → Except Err String) (value : Json) : Except Err String :=
  if value.truthy then normalize value else pure ""

/-- `parse_lead_request`. -/
def parseLeadRequest (lib : Library) (data : Json) : Except Err LeadRequest := do
  ensure (data.isDict = true) (.valueError "Lead request must be an object")
  let title ← cleanText (data.getD "title" .null) "title" 256
  let name ← cleanText (data.getD "name" .null) "contact name" 128 false
  let phone ← given normalizePhone (data.getD "phone" .null)
  let email ← given normalizeEmail (data.getD "email" .null)
  ensure (¬ (phone = "" ∧ email = ""))
    (.valueError "At least one of phone or email is required for a CRM lead")
  let price ← boundedPrice (data.getD "price" (.int 0))
  let currency ← cleanCurrency lib (data.getD "currency" (.str "UZS"))
  let source ← cleanText (data.getD "source" (.str "agent_platform")) "source" 64 false
  let comments ← cleanText (data.getD "comments" (.str "")) "comments" 4000 false
  pure ⟨title, name, phone, email, price, currency, source, comments⟩

/-- What `parse_deal_request` returns. -/
structure DealRequest where
  title : String
  price : ℤ
  currency : String
  stage : String
  contactId : String
  leadId : String
  deriving DecidableEq

def DealRequest.toJson (r : DealRequest) : Json :=
  .obj [("title", .str r.title), ("price", .int r.price), ("currency", .str r.currency),
    ("stage", .str r.stage), ("contact_id", .str r.contactId), ("lead_id", .str r.leadId)]

/-- `parse_deal_request`. -/
def parseDealRequest (lib : Library) (data : Json) : Except Err DealRequest := do
  ensure (data.isDict = true) (.valueError "Deal request must be an object")
  let title ← cleanText (data.getD "title" .null) "deal title" 256
  let price ← boundedPrice (data.getD "price" (.int 0))
  let currency ← cleanCurrency lib (data.getD "currency" (.str "UZS"))
  let stage ← cleanText (data.getD "stage" (.str "new")) "stage" 64 false
  let contactId ← cleanText (data.getD "contact_id" (.str "")) "contact_id" 128 false
  let leadId ← cleanText (data.getD "lead_id" (.str "")) "lead_id" 128 false
  pure ⟨title, price, currency, stage, contactId, leadId⟩

/-- What `parse_call_record` returns. -/
structure CallRecord where
  leadId : String
  audioUrl : String
  transcript : String
  durationSeconds : ℤ
  direction : String
  sentiment : String
  summary : String
  deriving DecidableEq

/-- `parse_call_record`. -/
def parseCallRecord (data : Json) : Except Err CallRecord := do
  ensure (data.isDict = true) (.valueError "Call record must be an object")
  let leadId ← cleanText (data.getD "lead_id" .null) "lead_id" 128
  let audioUrl ← cleanText (data.getD "audio_url" (.str "")) "audio_url" 1000 false
  ensure (audioUrl = "" ∨ "https://".toList.isPrefixOf audioUrl.toList = true ∨
      "/media/".toList.isPrefixOf audioUrl.toList = true)
    (.valueError "audio_url must be HTTPS URL or verified media path")
  let transcript ← cleanText (data.getD "transcript" (.str "")) "transcript" 50000
  let duration ← boundedInt (data.getD "duration_seconds" (.int 0)) "duration_seconds" 0 86400
  let direction ← choice (data.getD "direction" (.str "inbound")) ["inbound", "outbound"]
    "direction must be inbound or outbound"
  let sentiment ← choice (data.getD "sentiment" (.str "neutral"))
    ["positive", "neutral", "negative", "urgent"]
    "sentiment must be positive, neutral, negative, or urgent"
  let summary ← cleanText (data.getD "summary" (.str "")) "summary" 2000 false
  pure ⟨leadId, audioUrl, transcript, duration, direction, sentiment, summary⟩

/-- What `parse_chat_message` returns. -/
structure ChatMessage where
  leadId : String
  channel : String
  direction : String
  text : String
  externalId : String
  deriving DecidableEq

/-- `parse_chat_message`. -/
def parseChatMessage (data : Json) : Except Err ChatMessage := do
  ensure (data.isDict = true) (.valueError "Chat message must be an object")
  let leadId ← cleanText (data.getD "lead_id" .null) "lead_id" 128
  let channel ← cleanText (data.getD "channel" (.str "telegram")) "channel" 32
  ensure (channel ∈ ["telegram", "whatsapp", "instagram", "web", "sms"])
    (.valueError "Unsupported communication channel")
  let direction ← choice (data.getD "direction" (.str "inbound")) ["inbound", "outbound"]
    "direction must be inbound or outbound"
  let text ← cleanText (data.getD "text" (.str "")) "text" 4096
  let externalId ← cleanText (data.getD "external_id" (.str "")) "external_id" 128 false
  pure ⟨leadId, channel, direction, text, externalId⟩

/-! ### Paths -/

/-- `re.findall(r'\{([^}]*)\}', text)`; `token` is what was read since the open brace, backwards. -/
def placeholders (token : Option (List Char)) : List Char → List String
  | [] => []
  | c :: rest =>
    match token with
    | none => placeholders (if c = '{' then some [] else none) rest
    | some read =>
      if c = '}' then String.ofList read.reverse :: placeholders none rest
      else placeholders (some (c :: read)) rest

/-- `part in text`. -/
def hasPart (part : String) (text : List Char) : Bool :=
  text.tails.any fun rest => part.toList.isPrefixOf rest

/-- `safe_relative_path`. -/
def safeRelativePath (value : Json) (name : String := "path") (maximum : ℕ := 512) :
    Except Err String :=
  match value with
  | .str text => do
    ensure (text ≠ "") (.valueError (name ++ " must be a non-empty string"))
    let path := (strip text).toList
    ensure ("/".toList.isPrefixOf path = true)
      (.valueError (name ++ " must be an absolute path beginning with /"))
    ensure (path.length ≤ maximum)
      (.valueError (name ++ " exceeds " ++ toString maximum ++ " characters"))
    ensure (¬ "//".toList.isPrefixOf path = true)
      (.valueError (name ++ " must not be protocol-relative (//)"))
    ensure ((hasPart "\\" path || hasPart ".." path || hasPart "//" path) = false)
      (.valueError (name ++ " contains traversal or separator characters"))
    ensure ((path.all fun c => decide (32 ≤ c.toNat) && !isSpace c && c != '"' && c != '\'') = true)
      (.valueError (name ++ " contains control, space or quote characters"))
    ensure (':' ∉ path) (.valueError (name ++ " must not contain a scheme or port"))
    ensure ('#' ∉ path) (.valueError (name ++ " must not contain a fragment"))
    (placeholders none path).forM fun token =>
      ensure (token ∈ customHttpPlaceholders) (.valueError
        (name ++ " uses unsupported placeholder \x7b" ++ token ++ "\x7d"))
    ensure (path.count '{' = path.count '}')
      (.valueError (name ++ " has unbalanced placeholder braces"))
    pure (String.ofList path)
  | _ => .error (.valueError (name ++ " must be a non-empty string"))

/-- `text.rstrip('/')`. -/
def dropSlashes (text : String) : String :=
  String.ofList (text.toList.reverse.dropWhile (· == '/')).reverse

/-- `text.lstrip('/')`. -/
def dropLeadingSlashes (text : String) : String := String.ofList (text.toList.dropWhile (· == '/'))

/-- A byte as `%XX`. -/
def percent (b : UInt8) : List Char :=
  ['%', (Nat.digitChar (b.toNat / 16)).toUpper, (Nat.digitChar (b.toNat % 16)).toUpper]

/-- `urllib.parse.quote(text, safe)`. -/
def quote (text : String) (safe : List Char := ['/']) : String :=
  String.ofList (text.toList.flatMap fun c =>
    if c.isAlphanum || ['_', '.', '-', '~'].contains c || safe.contains c then [c]
    else (String.utf8EncodeChar c).flatMap percent)

/-- `text.replace(part, new)`; `skip` characters of a part just replaced are left. -/
def replacePart (part new : List Char) (skip : ℕ) : List Char → List Char
  | [] => []
  | c :: rest =>
    match skip with
    | k + 1 => replacePart part new k rest
    | 0 =>
      if part.isPrefixOf (c :: rest) then new ++ replacePart part new (part.length - 1) rest
      else c :: replacePart part new 0 rest

/-- `build_path`; a value is the text `str` makes of it. -/
def buildPath (template : String) (values : List (String × String)) : Except Err String := do
  let rendered ← (placeholders none template.toList).foldlM (fun rendered token => do
    let text ← need ((values.find? fun v => v.1 = token).map Prod.snd) (Err.valueError
      ("Missing value for placeholder \x7b" ++ token ++ "\x7d"))
    ensure (text.length ≤ 512) (.valueError
      ("Placeholder \x7b" ++ token ++ "\x7d exceeds 512 characters"))
    pure (replacePart ('{' :: token.toList ++ ['}']) (quote text []).toList 0 rendered))
    template.toList
  pure (String.ofList rendered)

/-- The loop of `dig` over the segments of a pointer. -/
def digSegments (lib : Library) (current : Json) : List String → Except Err Json
  | [] => pure current
  | part :: parts => do
    ensure (isRunOf (fun c => lib.isWord c || c == '-') 1 64 part = true)
      (.valueError "Field pointer segments must be identifier-like")
    match current.get? part with
    | some value => digSegments lib value parts
    | none => pure .null

/-- `dig`. -/
def dig (lib : Library) (document : Json) (pointer : String) : Except Err Json := do
  ensure (pointer ≠ "") (.valueError "Field pointer must be a non-empty string")
  let parts := (pointer.toList.splitOn '.').map String.ofList
  ensure (parts.length ≤ 4) (.valueError "Field pointer exceeds depth 4")
  digSegments lib document parts

/-! ### Connections -/

/-- `re.fullmatch(r'[A-Z][A-Z0-9_]*', text)`. -/
def isEnvName (text : String) : Bool :=
  match text.toList with
  | c :: rest => c.isUpper && rest.all fun c => c.isUpper || c.isDigit || c == '_'
  | [] => false

/-- The credential reference of a connection. -/
def credentialRef (raw : Json) : Json :=
  firstTruthy (["credential_env", "token_env", "webhook_url_env", "basic_auth_env"].map
    fun key => raw.getD key .null)

/-- `driver in CRM_DRIVERS`, for a driver a set can hold. -/
def checkDriver (lib : Library) (driver : Json) : Except Err Unit := do
  ensure (hashable driver = true) (.typeError "unhashable type")
  ensure ((crmDrivers.any fun d => driver.isText d) = true)
    (.valueError ("Unsupported CRM driver: " ++ pyStr lib driver))

/-- The agents a connection names, where it names any. -/
def checkAgent (raw : Json) (agent : String) : Except Err Unit :=
  let allowed := raw.getD "agent_ids" (.arr [])
  if agent ≠ "" ∧ allowed.truthy = true then do
    let permitted ← isIn agent allowed
    ensure (permitted = true) (.forbidden "Agent not permitted to use this CRM connection")
  else pure ()

/-- The capability the caller needs. -/
def checkCapability (raw : Json) (capability : String) : Except Err Unit := do
  let declared ← isInSet capability
    (raw.getD "capabilities" (.arr [.str "discover", .str "validate", .str "read"]))
  ensure (capability = "" ∨ declared = true)
    (.forbidden ("CRM connection does not advertise " ++ capability ++ " capability"))

/-- The host, against the allowlist. -/
def checkHost (raw : Json) : Except Err String :=
  match raw.getD "host" (.str ""), raw.getD "allowed_hosts" (.arr []) with
  | .str host, .arr hosts => do
    ensure (host ≠ "") (.valueError "Explicit CRM host and allowed_hosts required")
    ensure ((hosts.any fun h => h.same (.str host)) = true)
      (.forbidden ("CRM host " ++ host ++ " not in allowed_hosts policy"))
    pure host
  | _, _ => .error (.valueError "Explicit CRM host and allowed_hosts required")

/-- `validate_crm_config`, with the host it accepts. -/
def validateCrmConfig (lib : Library) (raw : Json) (agent : String := "")
    (capability : String := "read") : Except Err String := do
  ensure (raw.isDict = true) (.forbidden "CRM connection config must be an object")
  ensure ((raw.getD "enabled" (.bool true)).same (.bool true) = true)
    (.forbidden "CRM connection is disabled")
  checkDriver lib (raw.getD "driver" .null)
  checkAgent raw agent
  checkCapability raw capability
  let host ← checkHost raw
  ensure ((match credentialRef raw with | .str ref => isEnvName ref | _ => false) = true)
    (.valueError "Valid credential environment variable reference required")
  pure host

/-- One operation of a custom connection. -/
structure Operation where
  method : String
  path : String
  body : Option (List (String × Json))

/-- What `validate_custom_http_config` returns. -/
structure CustomHttp where
  basePath : String
  operations : List (String × Operation)
  headers : List (String × Json)
  responseMap : Json
  timeout : Json

/-- A dictionary, or the empty one. -/
def dictOrEmpty (value : Json) : Json := if value.isDict then value else .obj []

/-- One entry of the operations map. -/
def validateOperation (lib : Library) (entry : String × Json) : Except Err (String × Operation) := do
  let (name, spec) := entry
  ensure (spec.isDict = true) (.valueError ("Operation " ++ name ++ " must be an object"))
  let method := lib.upper (strip (pyStr lib (spec.getD "method" (.str "GET"))))
  ensure (method ∈ customHttpMethods)
    (.valueError ("Operation " ++ name ++ " method " ++ method ++ " is not allowlisted"))
  let path ← safeRelativePath (spec.getD "path" .null) (name ++ ".path")
  pure (name, ⟨method, path, match spec.getD "body" .null with
    | .obj template => some template
    | _ => none⟩)

/-- `validate_custom_http_config`. -/
def validateCustomHttpConfig (lib : Library) (raw : Json) : Except Err CustomHttp := do
  ensure (raw.isDict = true) (.forbidden "Custom HTTP config must be an object")
  let basePath ← safeRelativePath (raw.getD "base_path" (.str "/")) "base_path" 200
  let operations := raw.getD "operations" .null
  ensure (operations.isDict = true ∧ operations.truthy = true)
    (.valueError "operations map is required for a custom HTTP connection")
  let unknown := (operations.members.map Prod.fst).filter fun name =>
    !customHttpOperations.contains name
  ensure (unknown = []) (.valueError ("Unsupported custom HTTP operations: " ++
    ", ".intercalate (unknown.insertionSort fun a b => a.toList ≤ b.toList)))
  let normalised ← operations.members.mapM (validateOperation lib)
  pure
    { basePath := if basePath = "/" then basePath else dropSlashes basePath
      operations := normalised
      headers := (raw.getD "headers" .null).members
      responseMap := dictOrEmpty (raw.getD "response_map" .null)
      timeout := raw.getD "timeout_seconds" (.int 15) }

/-- `search_mode(driver) == 'query'`. -/
def searchesByQuery (driver : String) : Bool := querySearchDrivers.contains driver

/-- `plan_crm_fingerprint`. -/
def planCrmFingerprint (lib : Library) (tenant agent connection : String) (config request : Json) :
    String :=
  digest lib.sha256 (.obj [("tenant", .str tenant), ("agent", .str agent),
    ("connection", .str connection), ("driver", config.getD "driver" .null),
    ("host", config.getD "host" .null), ("request", request)])

end AgentPlatform.Crm
