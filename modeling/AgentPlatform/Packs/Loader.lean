import Mathlib.Data.List.Dedup
import AgentPlatform.Json
import AgentPlatform.Lib.Reads

/-!
# The pack loader and its cache

`load_pack` and `_build_pack` of `app/packs.py`. A build is a program that asks the file system; every look
at a file is a statement of its own, and so is every `stat`, so that other calls and edits of the files fall
between any two of them. The cache is shared by the threads of a process; a call keeps what it read of it.

The files are those behind the resolved paths; resolving a path, YAML, the `Pack` model and the registry of
tools are the library.
-/

namespace AgentPlatform.Packs

open Outcome

/-! ### Packs -/

/-- An agent of a pack: what the loader reads of it, and the rest. -/
structure AgentRef where
  id : String
  persona : String
  prompt : String
  tools : List String
  allowedRecipients : List String
  ladder : String
  orderAgent : String
  notifyRecipient : String
  rest : Json

/-- A validated pack: its agents, the ids of its branches and products, and all fields. -/
structure Pack where
  agents : List AgentRef
  branches : List String
  products : List String
  fields : Json

/-- The libraries. Paths are resolved: `packFile` of a pack's directory, `sibling` of a pack file and a name,
`persona` of a pack file and a relative path; `confined` and `inside` say that `PACKS_DIR` and the pack's
directory are among the parents. -/
structure Library where
  packFile : String → String
  confined : String → Bool
  sibling : String → String → String
  persona : String → String → String
  inside : String → String → Bool
  safeLoad : String → Except String Json
  modelValidate : List (String × Json) → Except String Pack
  knownTools : List String
  repr : String → String

def packError (text : String) : Err := .other "PackError" text

/-! ### Files -/

/-- A file: what reading it as text gives, and its metadata. -/
structure File where
  content : Except String String
  mtime : ℤ
  size : ℕ

/-- What a path leads to. -/
abbrev Version := Option File

/-- What `_file_state` keeps of a path. -/
def stamp (v : Version) : Option (ℤ × ℕ) := v.map fun f => (f.mtime, f.size)

/-- A look at a file. -/
inductive Question
  | isFile (path : String)
  | readText (path : String)

namespace Question

def path : Question → String
  | isFile path | readText path => path

/-- What the answer is. -/
abbrev Answer : Question → Type
  | isFile _ => Bool
  | readText _ => Except String String

/-- The answer, by what the path leads to. -/
def answer : (q : Question) → Version → q.Answer
  | isFile _, v => v.isSome
  | readText _, some f => f.content
  | readText _, none => .error "No such file or directory"

def sameAnswer : (q : Question) → q.Answer → q.Answer → Bool
  | isFile _, a, b => a == b
  | readText _, a, b => decide (a = b)

end Question

/-- An answer that was given. -/
abbrev Given := Σ q : Question, q.Answer

/-- The answers of the files as they are. -/
def answers (fs : String → Version) : ∀ q : Question, q.Answer := fun q => q.answer (fs q.path)

/-- A program that asks the file system and may raise. -/
abbrev Build := ExceptT Err (Reads Question.Answer)

def isFile (path : String) : Build Bool := Reads.want (Question.isFile path)

def readText (path : String) : Build (Except String String) := Reads.want (Question.readText path)

/-- A step of a build that asks nothing. -/
def pureStep {α : Type} (x : Except Err α) : Build α := ExceptT.mk (pure x)

/-! ### `_build_pack` -/

section Build

variable (lib : Library)

/-- `value or {}`. -/
def orEmpty (value : Json) : Json := if value.truthy then value else .obj []

/-- `dict[key] = value`. -/
def setMember (key : String) (value : Json) (members : List (String × Json)) : List (String × Json) :=
  if members.any fun m => m.1 = key then members.map fun m => if m.1 = key then (key, value) else m
  else members ++ [(key, value)]

/-- `dict.setdefault(key, value)`. -/
def setDefault (key : String) (value : Json) (members : List (String × Json)) : List (String × Json) :=
  if members.any fun m => m.1 = key then members else members ++ [(key, value)]

/-- What reading and parsing a file gives. -/
def parsed (text : Except String String) : Except String Json :=
  match text with
  | .ok text => lib.safeLoad text
  | .error e => .error e

/-- `pack.yaml`: a mapping. -/
def packValues (name : String) (text : Except String String) : Except Err (List (String × Json)) :=
  match parsed lib text with
  | .error e => .error (packError ("pack.yaml xato (" ++ name ++ "): " ++ e))
  | .ok data =>
    match orEmpty data with
    | .obj members => .ok members
    | _ => .error (packError ("pack.yaml mapping bo'lishi kerak (" ++ name ++ ")"))

/-- `products.yaml`: a mapping with a list of products. -/
def productRows (name : String) (text : Except String String) : Except Err (List Json) :=
  match parsed lib text with
  | .error e => .error (packError ("products.yaml xato (" ++ name ++ "): " ++ e))
  | .ok data =>
    match (orEmpty data).isDict, (orEmpty data).getD "products" (.arr []) with
    | true, .arr rows => .ok rows
    | _, _ => .error (packError ("products.yaml products list bo'lishi kerak (" ++ name ++ ")"))

/-- `values.get("agents") or []`, as far as the loop over them gets. -/
def checkReserved (name : String) (members : List (String × Json)) : Except Err Unit :=
  match (Json.obj members).getD "agents" .null with
  | .arr entries =>
    ensure (¬ entries.any (fun entry => (entry.get? "prompt").isSome) = true)
      (packError ("pack prompt kalitini o'zi bera olmaydi (" ++ name ++
        "); persona faylini `persona:` orqali ko'rsating"))
  | .int n => ensure (n = 0) (.typeError "'int' object is not iterable")
  | .bool b => ensure (b = false) (.typeError "'bool' object is not iterable")
  | .float literal => ensure ((Json.float literal).truthy = false) (.typeError "'float' object is not iterable")
  | _ => .ok ()

def checkUnique (label name : String) (ids : List String) : Except Err Unit :=
  ensure ids.Nodup (packError ("duplicate " ++ label ++ " (" ++ name ++ ")"))

/-- `unknown_tools`. -/
def unknownTools (names : List String) : List String :=
  ((names.filter fun name => !lib.knownTools.contains name).dedup).insertionSort
    fun a b => a.toList ≤ b.toList

def ladders : List String := ["human_led", "human_assisted", "autonomous"]

def checkAgent (name : String) (agent : AgentRef) : Except Err Unit := do
  ensure (agent.ladder ∈ ladders) (packError ("agent " ++ lib.repr agent.id ++ " ladder " ++
    lib.repr agent.ladder ++ " noto'g'ri (" ++ name ++ "); ruxsat etilgan: " ++ ", ".intercalate ladders))
  ensure (unknownTools lib agent.tools = []) (packError ("agent " ++ lib.repr agent.id ++
    " uchun runtime adapter yo'q (" ++ name ++ "): " ++ ", ".intercalate (unknownTools lib agent.tools)))

/-- `check_conversation_routes`. -/
def checkConversationRoutes (name : String) (agents : List AgentRef) (agent : AgentRef) : Except Err Unit := do
  if agent.orderAgent ≠ "" then
    let target ← need (agents.find? fun a => a.id = agent.orderAgent)
      (packError ("agent " ++ lib.repr agent.id ++ " order_agent " ++ lib.repr agent.orderAgent ++
        " pack'da yo'q (" ++ name ++ ")"))
    ensure ("records.create" ∈ target.tools) (packError ("agent " ++ lib.repr agent.id ++ " order_agent " ++
      lib.repr agent.orderAgent ++ " uchun tools'da records.create bo'lishi shart (" ++ name ++ ")"))
  if agent.notifyRecipient ≠ "" then
    ensure ("telegram.send" ∈ agent.tools) (packError ("agent " ++ lib.repr agent.id ++
      " notify_recipient uchun tools'da telegram.send bo'lishi shart (" ++ name ++ ")"))
    ensure (agent.notifyRecipient ∈ agent.allowedRecipients) (packError ("agent " ++ lib.repr agent.id ++
      " notify_recipient " ++ lib.repr agent.notifyRecipient ++
      " shu agentning allowed_recipients ro'yxatida ham bo'lishi shart (" ++ name ++ ")"))

def tooLong (name : String) (agent : AgentRef) (text : String) : Err :=
  packError ("agent " ++ lib.repr agent.id ++ " persona juda katta (" ++ name ++ "): " ++
    toString text.length ++ " > 8000")

/-- The text of a persona that was read. -/
def personaText (name : String) (agent : AgentRef) (text : Except String String) : Except Err String :=
  match text with
  | .error e => .error (packError ("agent " ++ lib.repr agent.id ++ " persona o'qilmadi (" ++ name ++ "): " ++
      agent.persona ++ " (" ++ e ++ ")"))
  | .ok text => if 8000 < text.length then .error (tooLong lib name agent text) else .ok text

/-- `read_persona`. -/
def readPersona (name packFile : String) (agent : AgentRef) : Build String :=
  if agent.persona = "" then pure ""
  else if lib.inside packFile (lib.persona packFile agent.persona) = false then
    throw (packError ("agent " ++ lib.repr agent.id ++ " persona pack chegarasidan tashqarida (" ++ name ++
      "): " ++ agent.persona))
  else do
    let found ← isFile (lib.persona packFile agent.persona)
    if found = false then
      throw (packError ("agent " ++ lib.repr agent.id ++ " persona fayli topilmadi (" ++ name ++ "): " ++
        agent.persona))
    else do
      let text ← readText (lib.persona packFile agent.persona)
      pureStep (personaText lib name agent text)

/-- The loop over the agents. -/
def promptAgents (name packFile : String) : List AgentRef → Build (List AgentRef)
  | [] => pure []
  | agent :: agents => do
    pureStep (checkAgent lib name agent)
    let prompt ← readPersona lib name packFile agent
    let rest ← promptAgents name packFile agents
    pure ({ agent with prompt := prompt } :: rest)

/-- The products of a pack, where the file is there. -/
def readProducts (name productsFile : String) : Build (List Json) := do
  let found ← isFile productsFile
  if found = false then pure []
  else do
    let text ← readText productsFile
    pureStep (productRows lib name text)

/-- The checked and validated values of a pack. -/
def validated (name : String) (members : List (String × Json)) : Except Err Pack := do
  checkReserved name members
  match lib.modelValidate members with
  | .error e => throw (packError ("pack validatsiyadan o'tmadi (" ++ name ++ "): " ++ e))
  | .ok pack =>
    checkUnique "agent id" name (pack.agents.map AgentRef.id)
    checkUnique "branch id" name pack.branches
    checkUnique "product id" name pack.products
    pure pack

/-- The files a pack is built from. -/
def builtFrom (packFile productsFile : String) (pack : Pack) : List String :=
  [packFile, productsFile] ++
    (pack.agents.filter fun agent => agent.persona ≠ "").map fun agent => lib.persona packFile agent.persona

/-- `_build_pack`. -/
def buildPack (name packFile : String) : Build (Pack × List String) := do
  let found ← isFile packFile
  if found = false then throw (packError ("pack topilmadi: " ++ name))
  else do
    let text ← readText packFile
    let members ← pureStep (packValues lib name text)
    let products ← readProducts lib name (lib.sibling packFile "products.yaml")
    -- the file is looked for again
    let listed ← isFile (lib.sibling packFile "products.yaml")
    let named := setDefault "name" (.str name) members
    let pack ← pureStep (validated lib name
      (if listed then setMember "products" (.arr products) named else named))
    let agents ← promptAgents lib name packFile pack.agents
    pureStep (agents.forM (checkConversationRoutes lib name agents))
    pure ({ pack with agents := agents },
      builtFrom lib packFile (lib.sibling packFile "products.yaml") { pack with agents := agents })

end Build

/-! ### `load_pack` -/

/-- What a call of `load_pack` gives. -/
abbrev Result := Except Err Pack

/-- A path with what it led to when its metadata was read; only the metadata is kept and compared. -/
abbrev Stamped := String × Version

/-- An entry of the cache. -/
structure Entry where
  files : List String
  state : List Stamped
  pack : Pack

/-- `NAME_RE`; `$` also matches before a final line break. -/
def isName (name : String) : Bool :=
  let chars := name.toList
  let body := if chars.getLast? = some '\n' then chars.dropLast else chars
  !body.isEmpty && body.all fun c =>
    ('A' ≤ c && c ≤ 'Z') || ('a' ≤ c && c ≤ 'z') || ('0' ≤ c && c ≤ '9') || c == '_' || c == '-'

def dirname (name : String) : String := if name = "template" then "_template" else name

/-- The checks of `load_pack`, and the path of the pack file. -/
def located (lib : Library) (name : String) : Except Err String := do
  ensure (isName name = true) (packError ("pack nomi noto'g'ri: " ++ lib.repr name))
  ensure (lib.confined (lib.packFile (dirname name)) = true)
    (packError ("pack chegaradan tashqarida: " ++ lib.repr name))
  pure (lib.packFile (dirname name))

/-- Where a call stands. -/
inductive Stage
  /-- `_file_state` of the files of a cached entry: read so far, and left. -/
  | checking (packFile : String) (entry : Entry) (state : List Stamped) (left : List String)
  /-- A build: the answers so far, and how it goes on. -/
  | building (past : List Given) (rest : Reads Question.Answer (Except Err (Pack × List String)))
  /-- `_file_state` of the files of a build. -/
  | stamping (past : List Given) (entry : Entry) (left : List String)
  | returned (result : Result)

/-- A call of `load_pack`. -/
structure Call where
  name : String
  stage : Stage

/-- The files, the cache, by the names of the packs, and the calls so far. -/
structure State where
  fs : String → Version := fun _ => none
  cache : List (String × Entry) := []
  calls : List Call := []

/-- The start of a build. -/
def startBuild (lib : Library) (name packFile : String) : Stage :=
  .building [] (buildPack lib name packFile).run

/-- The start of a call: the checks, and what the cache has. -/
def startLoad (lib : Library) (s : State) (name : String) : Stage :=
  match located lib name with
  | .error e => .returned (.error e)
  | .ok packFile =>
    match s.cache.find? fun c => c.1 = name with
    | some (_, entry) => .checking packFile entry [] entry.files
    | none => startBuild lib name packFile

/-- Whether two states have the same metadata. -/
def sameState (state state' : List Stamped) : Bool :=
  state.map (fun f => (f.1, stamp f.2)) == state'.map fun f => (f.1, stamp f.2)

/-- The next statement of a call, but for what it stores. -/
def advance (lib : Library) (fs : String → Version) (name : String) : Stage → Stage
  | .checking packFile entry state (path :: left) =>
    .checking packFile entry (state ++ [(path, fs path)]) left
  | .checking packFile entry state [] =>
    if sameState state entry.state then .returned (.ok entry.pack) else startBuild lib name packFile
  | .building past (.ask q next) =>
    .building (past ++ [⟨q, answers fs q⟩]) (next (answers fs q))
  | .building past (.done (.ok (pack, files))) => .stamping past ⟨files, [], pack⟩ files
  | .building _ (.done (.error e)) => .returned (.error e)
  | .stamping past entry (path :: left) =>
    .stamping past { entry with state := entry.state ++ [(path, fs path)] } left
  | .stamping _ entry [] => .returned (.ok entry.pack)
  | .returned result => .returned result

/-- `_PACK_CACHE[key] = …`. -/
def stored (cache : List (String × Entry)) (name : String) : Stage → List (String × Entry)
  | .stamping _ entry [] => (name, entry) :: cache.filter fun c => c.1 ≠ name
  | _ => cache

/-- One statement of a call, a new call, or an edit of a file. -/
inductive Label
  | edit (path : String) (version : Version)
  | load (name : String)
  | work (i : ℕ)

def State.after (lib : Library) (s : State) : Label → State
  | .edit path version => { s with fs := Function.update s.fs path version }
  | .load name => { s with calls := s.calls ++ [⟨name, startLoad lib s name⟩] }
  | .work i =>
    match s.calls[i]? with
    | none => s
    | some call =>
      { s with
        cache := stored s.cache call.name call.stage
        calls := s.calls.set i { call with stage := advance lib s.fs call.name call.stage } }

/-- An edit changes the modification time or the size, or creates or removes the file. -/
def changes (s : State) : Label → Bool
  | .edit path version => stamp version != stamp (s.fs path)
  | _ => true

/-- One label. -/
def Step (lib : Library) (s : State) (l : Label) (t : State) : Prop :=
  t = s.after lib l ∧ changes s l = true

/-- `load_pack` without a cache, on the files as they are. -/
def uncached (lib : Library) (fs : String → Version) (name : String) : Result :=
  match located lib name with
  | .error e => .error e
  | .ok packFile => ((buildPack lib name packFile).run.run (answers fs)).map Prod.fst

end AgentPlatform.Packs
