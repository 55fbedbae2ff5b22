import AgentPlatform.Json
import AgentPlatform.Engine.Policy

/-!
# OAuth connections

The tables and the transactions of `OAuthManager`. Every network exchange lies between two of them:
`complete` and `access` first put the connection into `exchanging` or `refreshing` under an attempt of
their own (`startExchange`, `startAccess`), and store the answer (`store`) or record its failure
(`failure`) only while that attempt is the connection's.

What the provider answers, the vault and the random draws are arguments.
-/

namespace AgentPlatform.OAuth

open Outcome Engine Table

inductive Status
  | authorizing
  | exchanging
  | active
  | refreshing
  | reauthRequired
  | uncertain
  | revoked
  deriving DecidableEq

/-- A row of `p_oauth_connections`. -/
structure Connection where
  tenant : String
  id : String
  provider : String
  account : String
  configHash : String
  generation : ℕ
  status : Status
  scopes : List String
  envelope : String
  expires : Time
  attempt : String
  started : Time
  owner : String

/-- Its primary key. -/
def Connection.key (r : Connection) : String × String := (r.tenant, r.id)

/-- A row of `p_oauth_states`. -/
structure Pending where
  stateHash : String
  tenant : String
  connection : String
  actor : String
  sessionHash : String
  generation : ℕ
  configHash : String
  expires : Time
  envelope : String
  consumed : Bool

inductive RevocationStatus
  | pending
  | inflight
  | confirmed
  | uncertain
  deriving DecidableEq

/-- A row of `p_oauth_revocations`. -/
structure Revocation where
  id : String
  tenant : String
  connection : String
  generation : ℕ
  configHash : String
  envelope : String
  status : RevocationStatus
  attempt : String
  started : Time

structure Tables where
  connections : List Connection := []
  states : List Pending := []
  revocations : List Revocation := []

/-- What seals and opens an envelope under a context. -/
structure Vault where
  sealed : Json → Json → Except Err String
  opened : String → Json → Except Err Json
  rewrap : String → Json → Except Err String

/-- An `OAuthManager`, as its constructor leaves it. -/
structure Manager where
  name : String
  account : String
  configHash : String
  requiredScopes : List String
  vault : Vault
  /-- `provider.authorization_url`, of a state and a verifier. -/
  authorizationUrl : String → String → Except Err String
  sha256 : String → String

/-- `AccessGrant`. -/
structure Grant where
  token : String
  generation : ℕ
  expires : Time
  account : String

/-- `OAuthError`. -/
def oauthError (message : String) : Err := .other "OAuthError" message

/-! ### Bounds -/

/-- `bounded`, of a text. -/
def bounded (value : String) (maximum : ℕ := 256) : Except Err Unit :=
  ensure (1 ≤ value.length ∧ value.length ≤ maximum ∧
      (value.toList.all fun c => decide (32 ≤ c.toNat) && decide (c.toNat ≠ 127)) = true)
    (.valueError "Bounded OAuth field required")

/-- `ident`. -/
def ident (value : String) : Except Err Unit :=
  ensure (isRunOf (fun c => c.isAlphanum || c == '_' || c == '.' || c == '-') 1 128 value = true)
    (.valueError "Invalid OAuth identifier")

/-- `opaque_hash`. -/
def Manager.opaqueHash (m : Manager) (value : String) : Except Err String := do
  bounded value 4096
  pure (m.sha256 value)

/-- The row of a connection. -/
def Tables.row? (t : Tables) (tenant connection : String) : Option Connection :=
  get Connection.key (tenant, connection) t.connections

/-- `_row`. -/
def Tables.row (t : Tables) (tenant connection : String) : Except Err Connection :=
  need (t.row? tenant connection) (.notFound "OAuth connection not found")

/-- A write on the row of a connection. -/
def Tables.setRow (t : Tables) (tenant connection : String) (f : Connection → Connection) : Tables :=
  { t with connections := update (fun r => r.key = (tenant, connection)) f t.connections }

/-- `_context`. -/
def Manager.context (m : Manager) (tenant connection : String) (generation : ℕ)
    (purpose : String := "tokens") : Json :=
  .obj [("tenant", .str tenant), ("connection", .str connection), ("generation", .int generation),
    ("provider", .str m.name), ("account", .str m.account), ("purpose", .str purpose)]

/-- `_configured`. -/
def Manager.configured (m : Manager) (row : Connection) : Except Err Unit :=
  ensure (row.provider = m.name ∧ row.account = m.account ∧ row.configHash = m.configHash)
    (.forbidden "OAuth configuration changed; authorize again")

/-- `_owner`. -/
def owner (env : Env) (db : Db) (tenant actor : String) (active : Bool := true) : Except Err Unit := do
  env.requireAuthority tenant "web" actor ["owner"]
  if active then env.requireActive db tenant else pure ()

/-! ### `begin` -/

/-- The old generation and status let a new authorisation begin. -/
def checkIdle (old : Option Connection) : Except Err Unit :=
  ensure ((old.all fun r => !([Status.active, .refreshing, .exchanging].contains r.status)) = true)
    (.conflict "Disconnect active or in-flight OAuth connection before reconnecting")

/-- The upsert of `begin`. -/
def Tables.upsert (t : Tables) (r : Connection) : Tables :=
  { t with
    connections := if (t.row? r.tenant r.id).isSome then
      update (fun r' => r'.key = r.key) (fun r' => { r with tenant := r'.tenant, id := r'.id })
        t.connections
    else t.connections ++ [r] }

/-- What `begin` returns. -/
structure Begun where
  url : String
  connection : String
  generation : ℕ

/-- `begin`, with the state and the verifier it draws. -/
def begin (m : Manager) (env : Env) (db : Db) (t : Tables)
    (tenant connection actor session state verifier : String) : Except Err (Tables × Begun) := do
  ident tenant
  ident connection
  bounded actor
  bounded session
  let url ← m.authorizationUrl state verifier
  owner env db tenant actor
  ensure ((t.revocations.any fun r => decide (r.tenant = tenant) && decide (r.connection = connection) &&
      decide (r.status ≠ .confirmed)) = false)
    (.conflict "Resolve pending remote revocation before reauthorization")
  let old := t.row? tenant connection
  checkIdle old
  let generation := (old.map fun r => r.generation + 1).getD 1
  let envelope ← m.vault.sealed (.obj [("verifier", .str verifier)])
    (m.context tenant connection generation "pkce")
  let states := t.states.filter fun p => !(decide (p.tenant = tenant) && decide (p.connection = connection))
  let stateHash ← m.opaqueHash state
  let sessionHash ← m.opaqueHash session
  ensure ((states.any fun p => p.stateHash = stateHash) = false)
    (.other "IntegrityError" "UNIQUE constraint failed: p_oauth_states.state_hash")
  let started := { t with states := states }.upsert
    ⟨tenant, connection, m.name, m.account, m.configHash, generation, .authorizing, [], "", 0, "", 0,
      actor⟩
  let pending : Pending := ⟨stateHash, tenant, connection, actor, sessionHash, generation, m.configHash,
    env.now + seconds 600, envelope, false⟩
  pure ({ started with states := states ++ [pending] }, ⟨url, connection, generation⟩)

/-! ### The provider's tokens -/

/-- `body` of `_tokens`, checked. -/
structure Tokens where
  access : String
  refresh : String
  scopes : List String

def Tokens.toJson (k : Tokens) : Json :=
  .obj [("access_token", .str k.access), ("refresh_token", .str k.refresh),
    ("scopes", .arr (k.scopes.map .str))]

/-- `credential`. -/
def credential (value : Json) (name : String) : Except Err String :=
  let refused := oauthError ("Provider " ++ name ++ " exceeds the accepted size")
  match value with
  | .str text =>
    match bounded text 16000 with
    | .ok _ => pure text
    | .error _ => .error refused
  | _ => .error refused

/-- No white space, and ASCII only. -/
def isPlain (text : String) : Bool := text.toList.all fun c => !isSpace c && decide (c.toNat < 128)

/-- `sorted(set(text.split()))`. -/
def splitScopes (text : String) : List String :=
  (((text.toList.splitOnP isSpace).filter (· ≠ [])).map String.ofList).dedup.insertionSort
    fun a b => a.toList ≤ b.toList

/-- The scopes the answer grants. -/
def grantedScopes (body : Json) (old : Option Json) : Except Err (List String) :=
  match body.getD "scope" .null, old with
  | .null, some old => pure ((old.getD "scopes" .null).items.filterMap fun
      | .str scope => some scope
      | _ => none)
  | .str text, _ => do
    ensure (text.length ≤ 10000) (oauthError "Granted scopes missing")
    pure (splitScopes text)
  | _, _ => .error (oauthError "Granted scopes missing")

/-- `token_type.lower() == 'bearer'`. -/
def checkBearer (body : Json) : Except Err Unit := do
  ensure (body.isDict = true) (oauthError "Invalid provider token response")
  match body.getD "token_type" (.str "") with
  | .str kind => ensure (kind.toLower = "bearer") (oauthError "Invalid provider token response")
  | _ => .error (.other "AttributeError" "object has no attribute 'lower'")

/-- `expires_in`, of type `int`. -/
def expiresIn (body : Json) : Except Err ℤ :=
  match body.getD "expires_in" .null with
  | .int n => pure n
  | _ => .error (oauthError "Invalid token expiry")

/-- `_tokens`. -/
def Manager.tokens (m : Manager) (now : Time) (body : Json) (old : Option Json) :
    Except Err (Tokens × Time) := do
  checkBearer body
  let access ← credential (body.getD "access_token" .null) "access token"
  ensure (isPlain access = true) (oauthError "Invalid access credential")
  let refresh ← credential (body.getD "refresh_token" ((old.getD (.obj [])).getD "refresh_token" .null))
    "refresh token"
  ensure (isPlain refresh = true) (oauthError "Invalid refresh credential")
  let expires ← expiresIn body
  ensure (60 ≤ expires ∧ expires ≤ 86400) (oauthError "Invalid token expiry")
  let scopes ← grantedScopes body old
  ensure ((scopes.all m.requiredScopes.contains && m.requiredScopes.all scopes.contains) = true)
    (.forbidden "Granted scopes differ from configured scopes")
  pure (⟨access, refresh, scopes.insertionSort fun a b => a.toList ≤ b.toList⟩, now + seconds expires)

/-! ### `complete` -/

/-- What `complete` takes to the provider. -/
structure Exchange where
  generation : ℕ
  verifier : Json

/-- The first transaction of `complete`. -/
def startExchange (m : Manager) (env : Env) (db : Db) (t : Tables)
    (tenant connection actor session state code attempt : String) :
    Except Err (Tables × Exchange) := do
  ident tenant
  ident connection
  bounded actor
  bounded session
  bounded code 4096
  owner env db tenant actor
  let row ← t.row tenant connection
  m.configured row
  let stateHash ← m.opaqueHash state
  let refused := Err.forbidden "OAuth state invalid or expired"
  let pending ← need (get Pending.stateHash stateHash t.states) refused
  ensure (pending.consumed = false ∧ env.now < pending.expires) refused
  let sessionHash ← m.opaqueHash session
  ensure (pending.tenant = tenant ∧ pending.connection = connection ∧ pending.actor = actor ∧
      pending.sessionHash = sessionHash ∧ pending.generation = row.generation ∧
      pending.configHash = m.configHash)
    (.forbidden "OAuth callback binding mismatch")
  ensure (row.status = .authorizing) (.conflict "OAuth flow no longer pending")
  let opened ← m.vault.opened pending.envelope (m.context tenant connection row.generation "pkce")
  let verifier ← need (opened.get? "verifier") (.other "KeyError" "verifier")
  let exchanging := t.setRow tenant connection fun r =>
    { r with status := .exchanging, attempt := attempt, started := env.now }
  let consume := fun p : Pending => { p with consumed := true, envelope := "" }
  pure ({ exchanging with
    states := update (fun p => p.stateHash = stateHash) consume t.states }, ⟨row.generation, verifier⟩)

/-- `_store`; `guard` is what the session guard says. -/
def store (m : Manager) (env : Env) (db : Db) (t : Tables) (tenant connection : String)
    (generation : ℕ) (attempt : String) (tokens : Tokens) (expires : Time) (actor : String)
    (guard : Except Err Unit) : Except Err Tables := do
  guard
  owner env db tenant actor
  let row ← t.row tenant connection
  m.configured row
  ensure (row.generation = generation ∧ row.attempt = attempt ∧
      (row.status = .refreshing ∨ row.status = .exchanging))
    (.conflict "OAuth operation fenced")
  let envelope ← m.vault.sealed tokens.toJson (m.context tenant connection generation)
  pure (t.setRow tenant connection fun r =>
    { r with
      status := .active, envelope := envelope, scopes := tokens.scopes, expires := expires
      attempt := "" })

/-- `_failure`. -/
def failure (t : Tables) (tenant connection : String) (generation : ℕ) (attempt : String)
    (status : Status) : Tables :=
  { t with
    connections := update (fun r => decide (r.key = (tenant, connection)) &&
        decide (r.generation = generation) && decide (r.attempt = attempt))
      (fun r => { r with status := status, envelope := "", attempt := "" }) t.connections }

/-! ### `access` and `fence` -/

/-- `_agent`. -/
def Manager.agent (m : Manager) (env : Env) (db : Db) (t : Tables)
    (tenant connection agent : String) (required : List String) : Except Err Connection := do
  env.requireActive db tenant
  let policy ← env.policy tenant agent
  ensure ((policy.getD "allowed_connections" (.arr [])).hasText connection = true)
    (.forbidden "Agent connection access denied")
  let row ← t.row tenant connection
  m.configured row
  owner env db tenant row.owner
  ensure (required.all row.scopes.contains = true) (.forbidden "Operation scope denied")
  pure row

/-- What the first transaction of `access` comes to. -/
inductive Accessed
  | granted (grant : Grant)
  | refreshing (generation : ℕ) (tokens : Json) (owner : String)

/-- The first transaction of `access`. -/
def startAccess (m : Manager) (env : Env) (db : Db) (t : Tables)
    (tenant connection agent : String) (required : List String) (attempt : String) :
    Except Err (Tables × Accessed) := do
  ident tenant
  ident connection
  bounded agent
  ensure (required ≠ [] ∧ required.all m.requiredScopes.contains = true)
    (.forbidden "Explicit configured operation scopes required")
  let row ← m.agent env db t tenant connection agent required
  ensure (row.status ≠ .refreshing)
    (.other "RefreshInProgress" "Refresh in progress; retry only the safe read later")
  ensure (row.status = .active) (.forbidden "OAuth connection requires authorization")
  let tokens ← m.vault.opened row.envelope (m.context tenant connection row.generation)
  if env.now + seconds 60 < row.expires then
    match tokens.getD "access_token" .null with
    | .str token => pure (t, .granted ⟨token, row.generation, row.expires, row.account⟩)
    | _ => .error (.other "KeyError" "access_token")
  else
    pure (t.setRow tenant connection fun r =>
      { r with status := .refreshing, attempt := attempt, started := env.now },
      .refreshing row.generation tokens row.owner)

/-- `fence`. -/
def fence (m : Manager) (env : Env) (db : Db) (t : Tables) (tenant connection agent : String)
    (required : List String) (grant : Grant) : Except Err Unit := do
  let row ← m.agent env db t tenant connection agent required
  ensure (row.status = .active ∧ row.generation = grant.generation ∧ env.now < row.expires)
    (.forbidden "OAuth grant no longer valid")

/-! ### Revocations -/

/-- A token `bounded` looks at. -/
def tokenText : Json → Except Err String
  | .str text => pure text
  | _ => .error (.valueError "Bounded OAuth field required")

/-- `_queue_revoke`, with the identifier it draws. -/
def queueRevoke (m : Manager) (t : Tables) (tenant connection : String) (generation : ℕ)
    (token : Json) (rid : String) : Except Err Tables := do
  let text ← tokenText token
  bounded text 16000
  ensure (isPlain text = true) (oauthError "Invalid revocation credential")
  let envelope ← m.vault.sealed (.obj [("refresh_token", .str text)])
    (m.context tenant connection generation ("revoke:" ++ rid))
  pure { t with
    revocations := t.revocations ++ [⟨rid, tenant, connection, generation, m.configHash, envelope,
      .pending, "", 0⟩] }

/-- What `revoke` queues for the provider. -/
def revokeRemote (m : Manager) (t : Tables) (row : Connection) (rid : String) :
    Except Err Tables := do
  m.configured row
  let tokens ← m.vault.opened row.envelope (m.context row.tenant row.id row.generation)
  queueRevoke m t row.tenant row.id row.generation (tokens.getD "refresh_token" .null) rid

/-- The tables with what `revoke` queued, whether it queued it, and whether it was unable to. -/
def queueRemote (m : Manager) (t : Tables) (row : Connection) (remote : Bool) (rid : String) :
    Tables × Bool × Bool :=
  if remote = true ∧ row.envelope ≠ "" then
    match revokeRemote m t row rid with
    | .ok t => (t, true, false)
    | .error _ => (t, false, true)
  else (t, false, false)

/-- What `revoke` returns of its transaction. -/
inductive Revoked
  /-- The connection was revoked before. -/
  | already
  | now (queued unavailable : Bool)

/-- The transaction of `revoke`. -/
def revoke (m : Manager) (env : Env) (db : Db) (t : Tables) (tenant connection actor : String)
    (remote : Bool) (rid : String) : Except Err (Tables × Revoked) := do
  owner env db tenant actor false
  let row ← t.row tenant connection
  if row.status = .revoked then pure (t, .already)
  else
    let (t, queued, unavailable) := queueRemote m t row remote rid
    let revoked := t.setRow tenant connection fun r =>
      { r with
        status := .revoked, generation := r.generation + 1, envelope := "", attempt := ""
        expires := 0 }
    pure ({ revoked with states := t.states.filter fun p =>
        !(decide (p.tenant = tenant) && decide (p.connection = connection)) },
      .now queued unavailable)

/-- `recover_stale`. -/
def recoverStale (env : Env) (db : Db) (t : Tables) (tenant connection actor : String) :
    Except Err Tables := do
  owner env db tenant actor false
  let row ← t.row tenant connection
  ensure ((row.status = .refreshing ∨ row.status = .exchanging) ∧ row.started + seconds 120 ≤ env.now)
    (.conflict "No stale OAuth attempt")
  pure (t.setRow tenant connection fun r =>
    { r with
      status := .uncertain, generation := r.generation + 1, envelope := "", attempt := "" })

/-- `rewrap`. -/
def rewrap (m : Manager) (env : Env) (db : Db) (t : Tables) (tenant connection actor : String) :
    Except Err Tables := do
  owner env db tenant actor
  let row ← t.row tenant connection
  m.configured row
  ensure (row.status = .active) (.conflict "Only idle active credentials may be rewrapped")
  let envelope ← m.vault.rewrap row.envelope (m.context tenant connection row.generation)
  pure (t.setRow tenant connection fun r => { r with envelope := envelope })

/-- The first transaction of `_drain_revoke`: the token to revoke, or nothing where it is confirmed. -/
def startDrain (m : Manager) (env : Env) (t : Tables) (tenant rid attempt : String) :
    Except Err (Tables × Option Json) := do
  let row ← need (t.revocations.find? fun r => decide (r.tenant = tenant) && decide (r.id = rid))
    (.notFound "Revocation not found")
  if row.status = .confirmed then pure (t, none)
  else do
    ensure (row.configHash = m.configHash)
      (.forbidden "Revocation requires original provider configuration")
    ensure (¬ (row.status = .inflight ∧ env.now < row.started + seconds 120))
      (.conflict "Revocation already in flight")
    let opened ← m.vault.opened row.envelope
      (m.context tenant row.connection row.generation ("revoke:" ++ rid))
    let token ← need (opened.get? "refresh_token") (.other "KeyError" "refresh_token")
    pure ({ t with revocations := update (fun r => r.id = rid) (fun r =>
      { r with status := .inflight, attempt := attempt, started := env.now }) t.revocations },
      some token)

/-- The second transaction of `_drain_revoke`. -/
def endDrain (t : Tables) (rid attempt : String) (confirmed : Bool) : Tables :=
  { t with
    revocations := update (fun r => decide (r.id = rid) && decide (r.attempt = attempt)) (fun r =>
      if confirmed then { r with status := .confirmed, envelope := "", attempt := "" }
      else { r with status := .uncertain, attempt := "" }) t.revocations }

end AgentPlatform.OAuth
