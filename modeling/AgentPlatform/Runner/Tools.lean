import AgentPlatform.Runner.Loop

/-!
# The tools of the desktop runner

`execute` of `runner.js` on Linux. What the file system answers to each call is an input: a path is resolved several
times in one call, and it may resolve differently each time. A tool that throws returns nothing.
-/

namespace AgentPlatform.Runner

/-- The folders of the configuration, resolved, and the words it denies beside those of the program. -/
structure Config where
  roots : List String
  denyAlways : List String

/-- `path.isAbsolute`. -/
def isAbsolute (path : String) : Bool := "/".toList.isPrefixOf path.toList

def sensitive : List String := [".env", ".ssh", ".aws", "credentials", "password", "parol", "cvv"]

/-- `text.includes(part)`. -/
def includes (text part : String) : Bool := text.toList.tails.any fun rest => part.toList.isPrefixOf rest

/-- The names on the way to a resolved path. -/
def steps (path : String) : List (List Char) := (path.toList.splitOn '/').filter (· ≠ [])

/-- A resolved path is its root or lies under it. -/
def isUnder (root real : String) : Bool := (steps root).isPrefixOf (steps real)

/-- `permitted`, where the path resolves to `real`; `lower` is `toLowerCase`. -/
def permitted (lower : String → String) (config : Config) (file : String) (real : Option String) : Bool :=
  isAbsolute file &&
    match real with
    | none => false
    | some real => !((sensitive ++ config.denyAlways).any fun word => includes (lower real) (lower word)) &&
        config.roots.any fun root => isUnder root real

/-- `permitted(fs.realpathSync(...))`, for the path of what is open. -/
def permittedOpen (lower : String → String) (config : Config) (opened : Option String) : Bool :=
  match opened with
  | some path => permitted lower config path opened
  | none => false

/-! ### Listing a directory -/

/-- An entry of a directory, what its path through the open directory resolves to, and its number of links. -/
structure Item where
  name : String
  symlink : Bool
  directory : Bool
  file : Bool
  real : Option String
  links : Option ℕ

/-- What a listing finds: what the path resolves to, whether it opens, what the open directory resolves to, its
entries, and what it resolves to afterwards. -/
structure Listing where
  real : Option String
  opens : Bool
  opened : Option String
  items : List Item
  closed : Option String

/-- The path of an entry through the open directory. -/
def descriptorPath (name : String) : String := "/proc/self/fd/" ++ name

/-- Whether a listing has an entry. -/
def shows (lower : String → String) (config : Config) (item : Item) : Bool :=
  !item.symlink && (item.directory || item.file) && permitted lower config (descriptorPath item.name) item.real &&
    (!item.file || item.links == some 1)

def Item.toJson (item : Item) : Json :=
  .obj [("name", .str item.name), ("type", .str (if item.directory then "directory" else "file"))]

/-- The loop over the entries; `visited` were read and `entries` are listed so far. -/
def listEntries (lower : String → String) (config : Config) (visited : ℕ) (entries : List Item) :
    List Item → List Item × Bool
  | [] => (entries, false)
  | item :: items =>
    if 1000 < visited + 1 ∨ 200 ≤ entries.length then (entries, true)
    else if shows lower config item then listEntries lower config (visited + 1) (entries ++ [item]) items
    else listEntries lower config (visited + 1) entries items

/-- `fs.list`. -/
def list (lower : String → String) (config : Config) (dir : String) (found : Listing) : Option Json :=
  if permitted lower config dir found.real && found.opens && permittedOpen lower config found.opened &&
      permittedOpen lower config found.closed then
    let (entries, truncated) := listEntries lower config 0 [] found.items
    some (.obj [("entries", .arr (entries.map Item.toJson)), ("truncated", .bool truncated)])
  else none

/-! ### Reading a file -/

/-- What a reading finds: what the path resolves to, whether it opens, what the open file resolves to, its kind, its
number of links and its size, what the path resolves to then, whether that is the same file, the bytes that are read,
and what the open file resolves to afterwards. -/
structure Reading where
  real : Option String
  opens : Bool
  opened : Option String
  isFile : Bool
  links : ℕ
  size : ℕ
  again : Option String
  same : Bool
  bytes : List UInt8
  closed : Option String

/-- `new TextDecoder('utf-8', {fatal: true}).decode(bytes)`, which drops a byte order mark. -/
def decode (bytes : List UInt8) : Option String :=
  (String.fromUTF8? ⟨bytes.toArray⟩).map fun text =>
    if text.toList.head? = some '\ufeff' then String.ofList text.toList.tail else text

/-- `fs.read_text`. -/
def readText (lower : String → String) (config : Config) (file : String) (found : Reading) : Option Json :=
  let read := found.bytes.take 16001
  if permitted lower config file found.real && found.opens && permittedOpen lower config found.opened &&
      found.isFile && found.links == 1 && decide (found.size ≤ 16000) && permitted lower config file found.again &&
      found.same && decide (read.length ≤ 16000) && !read.contains 0 &&
      permittedOpen lower config found.closed then
    (decode read).map fun text => .obj [("text", .str text)]
  else none

/-! ### `execute` -/

/-- What a call finds, whichever tool it is. -/
structure Device where
  listing : Listing
  reading : Reading

/-- `execute`. -/
def execute (lower : String → String) (config : Config) (tool : String) (args : Json) (device : Device) :
    Option Json :=
  if tool = "fs.list" then
    match args.getD "dir" .null with
    | .str dir => list lower config dir device.listing
    | _ => none
  else if tool = "fs.read_text" then
    match args.getD "file" .null with
    | .str file => readText lower config file device.reading
    | _ => none
  else none

/-! ### What a listing has -/

section Entries

variable {lower : String → String} {config : Config}

/-- The loop lists what it shows of the first thousand entries, two hundred at most. -/
theorem listEntries_eq (items : List Item) :
    (listEntries lower config 0 [] items).1 = ((items.take 1000).filter (shows lower config)).take 200 := by
  have hloop : ∀ visited entries, visited ≤ 1000 → entries.length ≤ 200 →
      (listEntries lower config visited entries items).1 =
        entries ++ ((items.take (1000 - visited)).filter (shows lower config)).take (200 - entries.length) := by
    induction items with
    | nil =>
      intro visited entries _ _
      simp [listEntries]
    | cons item items ih =>
      intro visited entries hvisited hentries
      rw [listEntries]
      split_ifs with hstop hshows
      · rcases hstop with hstop | hstop
        · have hnone : 1000 - visited = 0 := by omega
          rw [hnone, List.take_zero, List.filter_nil, List.take_nil, List.append_nil]
        · rw [Nat.sub_eq_zero_of_le hstop, List.take_zero, List.append_nil]
      · rw [not_or, not_lt, not_le] at hstop
        have hlength : (entries ++ [item]).length ≤ 200 := by
          rw [List.length_append, List.length_singleton]
          exact hstop.2
        have hleft : 200 - entries.length = 200 - (entries ++ [item]).length + 1 := by
          rw [List.length_append, List.length_singleton] at hlength ⊢
          omega
        have hrest : 1000 - visited = 1000 - (visited + 1) + 1 := by omega
        rw [ih (visited + 1) _ hstop.1 hlength, hrest, hleft, List.take_succ_cons, List.filter_cons, if_pos hshows,
          List.take_succ_cons, List.append_assoc]
        rfl
      · rw [not_or, not_lt, not_le] at hstop
        have hrest : 1000 - visited = 1000 - (visited + 1) + 1 := by omega
        rw [ih (visited + 1) _ hstop.1 hentries, hrest, List.take_succ_cons, List.filter_cons, if_neg hshows]
  rw [hloop 0 [] (Nat.zero_le _) (Nat.zero_le _)]
  rfl

/-- A listing is cut short where an entry comes after the first thousand or after two hundred that are shown. -/
theorem listEntries_truncated (items : List Item) :
    (listEntries lower config 0 [] items).2 = true ↔
      1000 < items.length ∨ 200 ≤ (items.dropLast.filter (shows lower config)).length := by
  have hloop : ∀ visited entries, visited ≤ 1000 → entries.length ≤ 200 →
      ((listEntries lower config visited entries items).2 = true ↔ items ≠ [] ∧
        (1000 < visited + items.length ∨
          200 ≤ entries.length + (items.dropLast.filter (shows lower config)).length)) := by
    induction items with
    | nil =>
      intro visited entries _ _
      simp [listEntries]
    | cons item items ih =>
      intro visited entries hvisited hentries
      rw [listEntries, List.length_cons]
      split_ifs with hstop hshows
      · refine iff_of_true rfl ⟨List.cons_ne_nil _ _, ?_⟩
        omega
      · rw [not_or, not_lt, not_le] at hstop
        have hlength : (entries ++ [item]).length = entries.length + 1 := by simp
        rw [ih (visited + 1) _ hstop.1 (by omega), hlength]
        cases items with
        | nil =>
          refine iff_of_false (fun h => h.1 rfl) ?_
          rintro ⟨-, hmore⟩
          rw [List.dropLast_singleton, List.filter_nil, List.length_nil] at hmore
          omega
        | cons next items =>
          rw [List.dropLast_cons_cons, List.filter_cons, if_pos hshows, List.length_cons, List.length_cons]
          simp only [ne_eq, reduceCtorEq, not_false_eq_true, true_and]
          omega
      · rw [not_or, not_lt, not_le] at hstop
        rw [ih (visited + 1) _ hstop.1 hentries]
        cases items with
        | nil =>
          refine iff_of_false (fun h => h.1 rfl) ?_
          rintro ⟨-, hmore⟩
          rw [List.dropLast_singleton, List.filter_nil, List.length_nil] at hmore
          omega
        | cons next items =>
          rw [List.dropLast_cons_cons, List.filter_cons, if_neg hshows, List.length_cons]
          simp only [ne_eq, reduceCtorEq, not_false_eq_true, true_and]
          omega
  rw [hloop 0 [] (Nat.zero_le _) (Nat.zero_le _)]
  cases items with
  | nil => simp
  | cons item items => simp

end Entries

end AgentPlatform.Runner
