import Mathlib.Algebra.BigOperators.Group.List.Basic
import Mathlib.Algebra.Order.Field.Rat
import AgentPlatform.Engine.Operations

/-!
# The knowledge store

`KnowledgeStore` of `knowledge.py` over its four tables: collections with their embedding identity, the
agents each is granted to, documents with their version, and the chunks of the current versions.

* `ingest` replaces the chunks of a document and raises its version; `delete` removes them, raises the
  version and leaves the document as a tombstone.
* `search` ranks the chunks of a granted collection in one snapshot.

Scores are rationals. Tokenizing, `bm25`, the validation of embeddings and their products, and `urlsplit`
are parameters (`Library`), for they rest on floats and Unicode tables.
-/

namespace AgentPlatform.Knowledge

open Outcome Engine

/-! ### The tables -/

/-- A row of `p_kb_collections`. -/
structure CollectionRow where
  tenant : String
  id : String
  model : String
  dimension : ℤ

/-- A row of `p_kb_acl`. -/
structure GrantRow where
  tenant : String
  collection : String
  agent : String
  deriving DecidableEq

/-- A row of `p_kb_documents`. -/
structure DocumentRow where
  tenant : String
  collection : String
  id : String
  version : ℤ
  title : String
  sourceUrl : String
  contentHash : String
  updated : Time
  deleted : Bool

/-- A row of `p_kb_chunks`. -/
structure ChunkRow where
  tenant : String
  collection : String
  document : String
  id : String
  position : ℕ
  start : ℕ
  stop : ℕ
  text : String
  vector : Json

/-- The primary key of a document. -/
def DocumentRow.key (d : DocumentRow) : String × String × String := (d.tenant, d.collection, d.id)

/-- `ON CONFLICT(tenant,collection,id) DO UPDATE SET …`. -/
def DocumentRow.overwrite (row d : DocumentRow) : DocumentRow :=
  { d with
    version := row.version, title := row.title, sourceUrl := row.sourceUrl
    contentHash := row.contentHash, updated := row.updated, deleted := false }

/-- The document of a chunk. -/
def ChunkRow.key (c : ChunkRow) : String × String × String := (c.tenant, c.collection, c.document)

/-- What was ingested as a version of a document. -/
structure Text where
  key : String × String × String
  version : ℤ
  content : String

/-- The tables, with the engine's database. `texts` and `written` are every text that was ingested and
every chunk that was written so far. -/
structure Store where
  db : Db := {}
  collections : List CollectionRow := []
  acl : List GrantRow := []
  documents : List DocumentRow := []
  chunks : List ChunkRow := []
  texts : List Text := []
  written : List ChunkRow := []

/-- What `urlsplit` returns. -/
structure Url where
  scheme : String
  hostname : String
  username : String
  password : String

/-- What the store calls outside its tables. -/
structure Library where
  sha256 : String → String
  urlsplit : String → Except Err Url
  /-- `bool(tokens(text))` -/
  hasTokens : String → Bool
  bm25 : String → List String → List ℚ
  /-- `vector(value, dimension)`, as the array `encode` writes. -/
  vector : Json → ℤ → Except Err Json
  /-- `sum(a*b for a,b in zip(…))` of two vectors. -/
  product : Json → Json → ℚ

def maxDocumentChars : ℕ := 100000

def maxCollectionChunks : ℕ := 4000

def chunkSize : ℕ := 512

def chunkOverlap : ℕ := 64

/-! ### Identifiers and chunks -/

def isIdentifierStart (c : Char) : Bool := c.isAlphanum

def isIdentifierChar (c : Char) : Bool := c.isAlphanum || c == '_' || c == '.' || c == '-'

/-- `re.fullmatch('[A-Za-z0-9][A-Za-z0-9_.-]{0,127}', value)`. -/
def isKnowledgeId (value : String) : Bool :=
  match value.toList with
  | [] => false
  | c :: rest => isIdentifierStart c && decide (rest.length ≤ 127) && rest.all isIdentifierChar

/-- `identifier`. -/
def identifier (value : String) : Except Err Unit :=
  ensure (isKnowledgeId value = true) (.valueError "Bounded knowledge identifier required")

/-- The loop of `chunks`, from `start` on; `fuel` bounds its rounds. -/
def chunkLoop (text : List Char) : ℕ → ℕ → List (ℕ × ℕ × List Char)
  | 0, _ => []
  | fuel + 1, start =>
    if start < text.length then
      let stop := min text.length (start + chunkSize)
      (start, stop, (text.take stop).drop start) ::
        if stop = text.length then [] else chunkLoop text fuel (stop - chunkOverlap)
    else []

/-- The chunks of a text. -/
def pieces (text : String) : List (ℕ × ℕ × List Char) := chunkLoop text.toList (text.length + 1) 0

/-- `chunks`. -/
def chunks (text : String) : Except Err (List (ℕ × ℕ × List Char)) := do
  ensure (isBlank text = false ∧ text.length ≤ maxDocumentChars ∧ text.toList.contains '\x00' = false)
    (.valueError "Knowledge text must be nonempty, bounded and contain no NUL")
  pure (pieces text)

/-- The identifier of a chunk. -/
def chunkId (sha256 : String → String) (key : String × String × String) (version : ℤ) (position : ℕ)
    (text : String) : String :=
  digest sha256 (.obj [("tenant", .str key.1), ("collection", .str key.2.1), ("document", .str key.2.2),
    ("version", .int version), ("position", .int position), ("text", .str text)])

namespace Store

variable (lib : Library) (env : Env) (s : Store)

/-- `_collection`. -/
def collection (tenant collection : String) : Except Err CollectionRow :=
  need (s.collections.find? fun r => decide (r.tenant = tenant) && decide (r.id = collection))
    (.notFound "Knowledge collection not found")

/-- The document with this key. -/
def document? (key : String × String × String) : Option DocumentRow :=
  s.documents.find? fun d => d.key = key

/-- The current version of a document; none has version 0. -/
def version (key : String × String × String) : ℤ :=
  match s.document? key with
  | some d => d.version
  | none => 0

/-- The number of chunks of a collection. -/
def size (tenant collection : String) : ℕ :=
  s.chunks.countP fun c => decide (c.tenant = tenant) && decide (c.collection = collection)

/-! ### Collections and grants -/

/-- `create_collection`. -/
def createCollection (tenant actor collection model : String) (dimension : ℤ) : Except Err (Store × Unit) := do
  identifier collection
  ensure (0 ≤ dimension ∧ dimension ≤ 1024 ∧ model.length ≤ 256)
    (.valueError "Invalid embedding model configuration")
  ensure ((!isBlank model) = decide (dimension ≠ 0))
    (.valueError "Embedding model and dimension must be configured together")
  env.requireAuthority tenant "web" actor ["owner"]
  env.requireActive s.db tenant
  match s.collection tenant collection with
  | .ok old => do
    ensure (old.model = model ∧ old.dimension = dimension)
      (.conflict "Collection embedding identity is immutable; create a new collection")
    pure (s, ())
  | .error _ => pure ({ s with collections := s.collections ++ [⟨tenant, collection, model, dimension⟩] }, ())

/-- `grant`. -/
def grant (tenant actor collection agent : String) (allowed : Bool) : Except Err (Store × Unit) := do
  identifier collection
  ensure (isBlank agent = false ∧ agent.length ≤ 128) (.valueError "Explicit agent and boolean grant required")
  let _ ← env.policy tenant agent
  env.requireAuthority tenant "web" actor ["owner"]
  env.requireActive s.db tenant
  let _ ← s.collection tenant collection
  let row : GrantRow := ⟨tenant, collection, agent⟩
  if allowed then
    if row ∈ s.acl then pure (s, ()) else pure ({ s with acl := s.acl ++ [row] }, ())
  else pure ({ s with acl := s.acl.filter fun r => r ≠ row }, ())

/-! ### Documents -/

/-- What `ingest` is called with, besides the document. -/
structure Upload where
  title : String
  content : String
  sourceUrl : String := ""
  vectors : Option Json := none
  model : String := ""

/-- The check of a source reference. -/
def checkSource (url : String) : Except Err Unit := do
  ensure (url.length ≤ 2000 ∧ (url.toList.any fun c => decide (c.toNat < 32)) = false)
    (.valueError "Invalid document source reference")
  if url = "" then pure ()
  else do
    let parts ← lib.urlsplit url
    ensure ((parts.scheme = "https" ∨ parts.scheme = "http") ∧ parts.hostname ≠ "" ∧
      parts.username = "" ∧ parts.password = "")
      (.valueError "Only credential-free HTTP(S) source references allowed")

/-- The embeddings of the chunks. -/
def embeddings (cfg : CollectionRow) (up : Upload) (parts : ℕ) : Except Err (List Json) :=
  if cfg.dimension ≠ 0 then
    match up.vectors with
    | some (.arr vectors) => do
      ensure (up.model = cfg.model ∧ vectors.length = parts)
        (.valueError "Pinned-model embedding required for every document chunk")
      vectors.mapM fun v => lib.vector v cfg.dimension
    | _ => .error (.valueError "Pinned-model embedding required for every document chunk")
  else do
    ensure (up.vectors.isNone = true ∧ up.model = "")
      (.valueError "Lexical collection does not accept embeddings")
    pure (List.replicate parts (.arr []))

/-- The chunk at a position of a version. -/
def chunkRow (key : String × String × String) (version : ℤ) (position : ℕ)
    (x : (ℕ × ℕ × List Char) × Json) : ChunkRow :=
  let text := String.ofList x.1.2.2
  ⟨key.1, key.2.1, key.2.2, chunkId lib.sha256 key version position text, position, x.1.1, x.1.2.1, text,
    x.2⟩

/-- The rows of a version. -/
def chunkRows (key : String × String × String) (version : ℤ) (parts : List (ℕ × ℕ × List Char))
    (vectors : List Json) : List ChunkRow :=
  (parts.zip vectors).mapIdx (chunkRow lib key version)

/-- The upsert of a document. -/
def putDocument (row : DocumentRow) : List DocumentRow :=
  if (s.document? row.key).isSome then
    Table.update (fun d => d.key = row.key) row.overwrite s.documents
  else s.documents ++ [row]

/-- The writes of `ingest`; an identifier that a collection has already is an `IntegrityError`. -/
def writeVersion (key : String × String × String) (version : ℤ) (up : Upload)
    (parts : List (ℕ × ℕ × List Char)) (vectors : List Json) : Except Err Store := do
  let kept := s.chunks.filter fun c => c.key ≠ key
  let rows := chunkRows lib key version parts vectors
  ensure ((rows.map ChunkRow.id).Nodup ∧ ∀ r ∈ rows, ∀ c ∈ kept,
    c.tenant = r.tenant → c.collection = r.collection → c.id ≠ r.id)
    (.other "IntegrityError" "UNIQUE constraint failed: p_kb_chunks")
  pure { s with
    documents := s.putDocument ⟨key.1, key.2.1, key.2.2, version, up.title, up.sourceUrl,
      digest lib.sha256 (.str up.content), env.now, false⟩
    chunks := kept ++ rows
    texts := s.texts ++ [⟨key, version, up.content⟩]
    written := s.written ++ rows }

/-- `ingest`; it returns the version and the source identifiers. -/
def ingest (tenant actor collection document : String) (up : Upload) (expectedVersion : ℤ) :
    Except Err (Store × ℤ × List String) := do
  identifier collection
  identifier document
  ensure (isBlank up.title = false ∧ up.title.length ≤ 200)
    (.valueError "Bounded document title required")
  checkSource lib up.sourceUrl
  ensure (0 ≤ expectedVersion ∧ expectedVersion < 2 ^ 31)
    (.valueError "Explicit expected document version required")
  let parts ← Knowledge.chunks up.content
  env.requireAuthority tenant "web" actor ["owner", "operator", "integrator"]
  env.requireActive s.db tenant
  let cfg ← s.collection tenant collection
  let vectors ← embeddings lib cfg up parts.length
  let key := (tenant, collection, document)
  let actual := s.version key
  ensure (actual = expectedVersion) (.conflict "Document version changed")
  ensure ((s.chunks.countP fun c => decide (c.tenant = tenant) && decide (c.collection = collection) &&
    decide (c.document ≠ document)) + parts.length ≤ maxCollectionChunks)
    (.valueError "Knowledge collection chunk limit reached")
  let t ← writeVersion lib env s key (actual + 1) up parts vectors
  pure (t, actual + 1, (chunkRows lib key (actual + 1) parts vectors).map fun c => "kb:" ++ c.id)

/-- `delete`. -/
def delete (tenant actor collection document : String) (expectedVersion : ℤ) :
    Except Err (Store × Unit) := do
  ensure (1 ≤ expectedVersion) (.valueError "Expected document version required")
  env.requireAuthority tenant "web" actor ["owner"]
  env.requireActive s.db tenant
  let key := (tenant, collection, document)
  let hit := fun d : DocumentRow => decide (d.key = key) && decide (d.version = expectedVersion) &&
    !d.deleted
  ensure (s.documents.countP hit = 1) (.conflict "Document missing or version changed")
  pure ({ s with
    documents := Table.update hit (fun d => { d with
      deleted := true, version := d.version + 1, updated := env.now }) s.documents
    chunks := s.chunks.filter fun c => c.key ≠ key }, ())

/-! ### Searching -/

/-- A chunk with its document. -/
structure Found where
  chunk : ChunkRow
  document : DocumentRow

/-- A match `search` returns. -/
structure Match where
  sourceId : String
  document : String
  version : ℤ
  title : String
  sourceUrl : String
  start : ℕ
  stop : ℕ
  text : String

/-- The join of `search`, in its order. -/
def corpus (tenant collection : String) : List Found :=
  (((s.chunks.filter fun c => decide (c.tenant = tenant) && decide (c.collection = collection)).flatMap
    fun c => (s.documents.filter fun d => decide (d.key = c.key) && !d.deleted).map fun d => ⟨c, d⟩).insertionSort
      fun f g => f.chunk.document.toList < g.chunk.document.toList ∨
        (f.chunk.document = g.chunk.document ∧ f.chunk.position ≤ g.chunk.position)).take
          (maxCollectionChunks + 1)

/-- `sorted(…, key=lambda i: (-scores[i], rows[i]['id']))`. -/
def ordered (rows : List Found) (indices : List ℕ) (score : ℕ → ℚ) : List ℕ :=
  let id := fun i => (rows[i]?.map fun f => f.chunk.id.toList).getD []
  indices.insertionSort fun i j => score j < score i ∨ (score i = score j ∧ id i ≤ id j)

/-- The rows with a positive score. -/
def scored (rows : List Found) (scores : List ℚ) : List ℕ :=
  (List.range rows.length).filter fun i => 0 < scores.getD i 0

/-- The rank of a row among those with a positive score, as its share of the fusion. -/
def fusionShare (rows : List Found) (scores : List ℚ) (i : ℕ) : ℚ :=
  let selected := ordered rows (scored rows scores) fun i => scores.getD i 0
  if i ∈ selected then 1 / (60 + (selected.idxOf i + 1)) else 0

/-- The ranking: by `bm25` alone, or by the fusion of both orders. -/
def ranking (query : String) (queryVector : Option Json) (dimension : ℤ) (rows : List Found) :
    Except Err (List ℕ) := do
  let lexical := lib.bm25 query (rows.map fun f => f.chunk.text)
  match queryVector with
  | none => pure (ordered rows (scored rows lexical) fun i => lexical.getD i 0)
  | some q => do
    let similarities ← rows.mapM fun f => do
      let v ← lib.vector f.chunk.vector dimension
      pure (lib.product q v)
    let ranked := (List.range rows.length).filter fun i =>
      decide (i ∈ scored rows lexical) || decide (i ∈ scored rows similarities)
    pure (ordered rows ranked fun i => fusionShare rows lexical i + fusionShare rows similarities i)

/-- The check of a query's vector. -/
def queryEmbedding (cfg : CollectionRow) (queryVector : Option Json) (model : String) :
    Except Err (Option Json) :=
  match queryVector with
  | some v => do
    ensure (cfg.dimension ≠ 0 ∧ model = cfg.model) (.valueError "Query embedding model mismatch")
    let v ← lib.vector v cfg.dimension
    pure (some v)
  | none => do
    ensure (model = "") (.valueError "Model without query vector denied")
    pure none

/-- The match of a row. -/
def Found.match (f : Found) : Match :=
  ⟨"kb:" ++ f.chunk.id, f.chunk.document, f.document.version, f.document.title, f.document.sourceUrl,
    f.chunk.start, f.chunk.stop, f.chunk.text⟩

/-- `search`; it returns the matches and how many rows matched. -/
def search (tenant agent collection query : String) (limit : ℤ) (queryVector : Option Json)
    (model : String) : Except Err (List Match × ℕ) := do
  identifier collection
  ensure (isBlank query = false ∧ query.length ≤ 500 ∧ lib.hasTokens query = true)
    (.valueError "Bounded nonempty knowledge query required")
  ensure (1 ≤ limit ∧ limit ≤ 5) (.valueError "Knowledge result limit must be 1..5")
  let policy ← env.policy tenant agent
  ensure ((policy.getD "tools" (.arr [])).hasText "knowledge.search" = true)
    (.forbidden "Agent knowledge tool permission required")
  env.requireActive s.db tenant
  ensure ((⟨tenant, collection, agent⟩ : GrantRow) ∈ s.acl)
    (.forbidden "Agent knowledge collection access denied")
  let cfg ← s.collection tenant collection
  let q ← queryEmbedding lib cfg queryVector model
  let rows := s.corpus tenant collection
  ensure (rows.length ≤ maxCollectionChunks) (.valueError "Knowledge corpus exceeds local search limit")
  let order ← ranking lib query q cfg.dimension rows
  pure (((order.take limit.toNat).filterMap fun i => rows[i]?.map Found.match), order.length)

end Store

/-! ### Calls in any order -/

/-- A call, or an operation of the engine under the store. -/
inductive Label
  | createCollection (env : Env) (tenant actor collection model : String) (dimension : ℤ)
  | grant (env : Env) (tenant actor collection agent : String) (allowed : Bool)
  | ingest (env : Env) (tenant actor collection document : String) (up : Store.Upload) (expectedVersion : ℤ)
  | delete (env : Env) (tenant actor collection document : String) (expectedVersion : ℤ)
  | engine (P : Platform) (op : Op)

/-- What a call commits, or the exception it raises. -/
def Store.call (lib : Library) (s : Store) : Label → Except Err Store
  | .createCollection env tenant actor collection model dimension =>
    (s.createCollection env tenant actor collection model dimension).map Prod.fst
  | .grant env tenant actor collection agent allowed =>
    (s.grant env tenant actor collection agent allowed).map Prod.fst
  | .ingest env tenant actor collection document up expectedVersion =>
    (s.ingest lib env tenant actor collection document up expectedVersion).map Prod.fst
  | .delete env tenant actor collection document expectedVersion =>
    (s.delete env tenant actor collection document expectedVersion).map Prod.fst
  | .engine P op => .ok { s with db := s.db.after P op }

/-- The state after a call. -/
def Store.after (lib : Library) (s : Store) (l : Label) : Store :=
  match s.call lib l with
  | .ok t => t
  | .error _ => s

/-- One call. -/
def Step (lib : Library) (s : Store) (l : Label) (t : Store) : Prop := t = s.after lib l

end AgentPlatform.Knowledge
