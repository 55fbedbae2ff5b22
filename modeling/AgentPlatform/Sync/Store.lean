import AgentPlatform.OAuth.Manager

/-!
# The sync store

`SyncStore` of `sync_store.py`: leases on a stream, and pages of versioned records committed with a
compare-and-swap on the cursor. Each of the four tables has the stream's three columns first in its
primary key, and every statement names all three; so the rows are kept stream by stream.
-/

namespace AgentPlatform.Sync

open Outcome Engine Table

/-- What names a stream: the first columns of every primary key. -/
structure StreamKey where
  tenant : String
  connection : String
  stream : String
  deriving DecidableEq, Repr

/-- One validated event of a page. -/
structure Event where
  id : String
  version : ℕ
  deleted : Bool
  data : Json

/-- A version of a record. -/
def Event.key (e : Event) : String × ℕ := (e.id, e.version)

def Event.toJson (e : Event) : Json :=
  .obj [("id", .str e.id), ("version", .int e.version), ("deleted", .bool e.deleted), ("data", e.data)]

/-- What `commit` returns. -/
structure Receipt where
  pageKey : String
  revision : ℕ
  changedRecords : ℕ
  nextCursor : String
  deriving DecidableEq, Repr

/-- A row of `p_sync_pages`. -/
structure PageRow where
  pageKey : String
  fingerprint : String
  receipt : Receipt

/-- A row of `p_sync_versions`. -/
structure VersionRow where
  recordId : String
  version : ℕ
  fingerprint : String

def VersionRow.key (r : VersionRow) : String × ℕ := (r.recordId, r.version)

/-- A row of `p_sync_records`; the body is the text of the data. -/
structure RecordRow where
  recordId : String
  version : ℕ
  deleted : Bool
  body : String

/-- A row of `p_sync_streams`, with the rows of the other tables that belong to it. -/
structure Stream where
  generation : ℕ
  cursor : String := ""
  revision : ℕ := 0
  claim : String := ""
  lease : Time := 0
  owner : String := ""
  pages : List PageRow := []
  versions : List VersionRow := []
  records : List RecordRow := []

/-! ### Reading a page -/

/-- The checks of `_events` on an id. -/
def eventId : Json → Except Err String
  | .str id => do
    OAuth.bounded id
    pure id
  | _ => .error (.valueError "Bounded OAuth field required")

/-- The checks of `_events` on a version. -/
def eventVersion : Json → Except Err ℕ
  | .int n => do
    ensure (0 ≤ n ∧ n < 2 ^ 63) (.valueError "Bounded monotonic provider version required")
    pure n.toNat
  | _ => .error (.valueError "Bounded monotonic provider version required")

/-- The checks of `_events` on a tombstone's mark. -/
def eventDeleted : Json → Except Err Bool
  | .bool deleted => pure deleted
  | _ => .error (.valueError "Invalid sync record")

/-- The fields of an event. -/
def eventFields : List String := ["id", "version", "deleted", "data"]

/-- One event of `_events`. -/
def parseEvent (raw : Json) : Except Err Event := do
  ensure (raw.isDict = true ∧ (raw.members.all fun m => eventFields.contains m.1) = true ∧
      (eventFields.all fun key => (raw.get? key).isSome) = true)
    (.valueError "Invalid sync event fields")
  let id ← eventId (raw.getD "id" .null)
  let version ← eventVersion (raw.getD "version" .null)
  let deleted ← eventDeleted (raw.getD "deleted" .null)
  let data := raw.getD "data" .null
  ensure (data.isDict = true) (.valueError "Invalid sync record")
  ensure (deleted = true → data.truthy = false) (.valueError "Tombstone must not retain content")
  ensure (data.encode.utf8ByteSize ≤ 20000) (.valueError "Sync record exceeds limit")
  pure ⟨id, version, deleted, data⟩

/-- One pass of the loop of `_events`. -/
def addEvent (validated : List Event) (raw : Json) : Except Err (List Event) := do
  let event ← parseEvent raw
  ensure (event.key ∉ validated.map Event.key) (.valueError "Duplicate version inside page")
  pure (validated ++ [event])

/-- The items of a page. -/
def pageItems : Json → Except Err (List Json)
  | .arr items => do
    ensure (items.length ≤ 100) (.valueError "Sync page requires at most 100 events")
    pure items
  | _ => .error (.valueError "Sync page requires at most 100 events")

/-- `_events`. -/
def parseEvents (raw : Json) : Except Err (List Event) := do
  let items ← pageItems raw
  let events ← items.foldlM addEvent []
  ensure ((Json.arr (events.map Event.toJson)).encode.utf8ByteSize ≤ 500000)
    (.valueError "Sync page exceeds limit")
  pure events

/-- The cursors `commit` takes. -/
def checkCursor (cursor : String) : Except Err Unit :=
  ensure (cursor.length ≤ 4096 ∧ (cursor.toList.all fun c => decide (32 ≤ c.toNat)) = true)
    (.valueError "Invalid opaque cursor")

/-- The fingerprint of a page. -/
def pageFingerprint (sha256 : String → String) (expected next : String) (events : List Event) :
    String :=
  digest sha256 (.obj [("cursor", .str expected), ("next", .str next),
    ("events", .arr (events.map Event.toJson))])

/-- The fingerprint of an event. -/
def Event.fingerprint (sha256 : String → String) (e : Event) : String := digest sha256 e.toJson

/-! ### The transactions -/

section Transactions

variable (env : Env) (db : Db) (connections : OAuth.Tables) (k : StreamKey) (actor : String)

/-- `_authority`. -/
def authority : Except Err Unit := do
  env.requireActive db k.tenant
  env.requireAuthority k.tenant "web" actor ["owner", "integrator"]

/-- `_connection`: the generation of the connection. -/
def connectionGeneration : Except Err ℕ := do
  let refused := Err.forbidden "Active OAuth connection required for sync"
  let row ← need (connections.row? k.tenant k.connection) refused
  ensure (row.status = .active ∨ row.status = .refreshing) refused
  pure row.generation

/-- What `claim` returns. -/
structure Claimed where
  claim : String
  cursor : String
  revision : ℕ
  generation : ℕ
  expires : Time

/-- `claim`, with the token it draws. -/
def claim (s : Option Stream) (leaseSeconds : ℤ) (token : String) :
    Except Err (Stream × Claimed) := do
  OAuth.ident k.tenant
  OAuth.ident k.connection
  OAuth.ident k.stream
  OAuth.bounded actor
  ensure (5 ≤ leaseSeconds ∧ leaseSeconds ≤ 300) (.valueError "Sync lease must be 5..300 seconds")
  authority env db k actor
  let generation ← connectionGeneration connections k
  let row := s.getD { generation := generation }
  ensure (row.generation = generation)
    (.conflict "Connection generation changed; owner must reset sync")
  ensure (¬ (row.claim ≠ "" ∧ env.now < row.lease)) (.conflict "Sync lease already owned")
  let lease := env.now + seconds leaseSeconds
  pure ({ row with claim := token, lease := lease, owner := actor },
    ⟨token, row.cursor, row.revision, generation, lease⟩)

/-- `_owned`. -/
def owned (s : Option Stream) (token : String) : Except Err Stream := do
  authority env db k actor
  let generation ← connectionGeneration connections k
  let row ← need s (.notFound "Sync stream not found")
  ensure (row.owner = actor ∧ row.claim = token ∧ token ≠ "" ∧ env.now < row.lease)
    (.conflict "Sync claim stale")
  ensure (row.generation = generation) (.conflict "Sync credential fenced")
  pure row

/-- `renew`. -/
def renew (s : Option Stream) (token : String) (leaseSeconds : ℤ) : Except Err Stream := do
  ensure (5 ≤ leaseSeconds ∧ leaseSeconds ≤ 300) (.valueError "Invalid lease")
  let row ← owned env db connections k actor s token
  pure { row with lease := env.now + seconds leaseSeconds }

/-- `release`. -/
def release (s : Option Stream) (token : String) : Except Err Stream := do
  let row ← owned env db connections k actor s token
  pure { row with claim := "", lease := 0 }

/-- `reset`; `guard` is what the caller's guard says. -/
def reset (guard : Except Err Unit) : Except Err Stream := do
  env.requireAuthority k.tenant "web" actor ["owner"]
  env.requireActive db k.tenant
  let generation ← connectionGeneration connections k
  guard
  pure { generation := generation }

end Transactions

/-! ### `commit` -/

/-- The upsert of a record, which takes only a greater version; with the number of changed rows. -/
def upsertRecord (records : List RecordRow) (e : Event) : List RecordRow × ℕ :=
  match get RecordRow.recordId e.id records with
  | none => (records ++ [⟨e.id, e.version, e.deleted, e.data.encode⟩], 1)
  | some r =>
    if r.version < e.version then
      (update (fun r => r.recordId = e.id)
        (fun r => { r with version := e.version, deleted := e.deleted, body := e.data.encode })
        records, 1)
    else (records, 0)

/-- One event of `commit`, with the changed records so far. -/
def applyEvent (sha256 : String → String) (s : Stream × ℕ) (e : Event) : Except Err (Stream × ℕ) := do
  let prior := get VersionRow.key (e.id, e.version) s.1.versions
  ensure ((prior.all fun r => r.fingerprint = e.fingerprint sha256) = true)
    (.conflict "Provider record version reused with different content")
  let versions := if prior.isSome then s.1.versions
    else s.1.versions ++ [⟨e.id, e.version, e.fingerprint sha256⟩]
  let (records, changed) := upsertRecord s.1.records e
  pure ({ s.1 with versions := versions, records := records }, s.2 + changed)

/-- What `commit` comes to. -/
inductive Committed
  /-- The page was committed before. -/
  | replayed (receipt : Receipt)
  | committed (receipt : Receipt)
  deriving DecidableEq

/-- A page on its way into a stream. -/
structure Page where
  key : String
  expected : String
  next : String
  events : List Event

/-- The checks of `commit` before its transaction. -/
def parsePage (pageKey expected next : String) (events : Json) : Except Err Page := do
  OAuth.bounded pageKey
  checkCursor expected
  checkCursor next
  let events ← parseEvents events
  pure ⟨pageKey, expected, next, events⟩

/-- The transaction of `commit`, past `_owned` and the guard. -/
def commitPage (sha256 : String → String) (row : Stream) (p : Page) :
    Except Err (Stream × Committed) := do
  let fingerprint := pageFingerprint sha256 p.expected p.next p.events
  match get PageRow.pageKey p.key row.pages with
  | some old =>
    ensure (old.fingerprint = fingerprint) (.conflict "Sync page key reused with different payload")
    pure (row, .replayed old.receipt)
  | none =>
    ensure (row.cursor = p.expected) (.conflict "Sync cursor changed")
    let (applied, changed) ← p.events.foldlM (applyEvent sha256) (row, 0)
    let receipt : Receipt := ⟨p.key, row.revision + 1, changed, p.next⟩
    pure ({ applied with
      cursor := p.next, revision := row.revision + 1
      pages := row.pages ++ [⟨p.key, fingerprint, receipt⟩] }, .committed receipt)

/-- `commit`. -/
def commit (sha256 : String → String) (env : Env) (db : Db) (connections : OAuth.Tables)
    (k : StreamKey) (actor : String) (s : Option Stream) (token pageKey expected next : String)
    (events : Json) (guard : Except Err Unit) : Except Err (Stream × Committed) := do
  let p ← parsePage pageKey expected next events
  let row ← owned env db connections k actor s token
  guard
  commitPage sha256 row p

end AgentPlatform.Sync
