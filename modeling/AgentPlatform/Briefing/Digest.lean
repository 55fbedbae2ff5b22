import Mathlib.Data.List.Infix
import Mathlib.Data.List.Sort
import AgentPlatform.Briefing.Tick

/-!
# The digest of a briefing

`_section_rows`, `_digest` and `_render_row` of `briefing.py`: every section is read through the graph,
each gives a block of lines, and the text is what fits of all lines. A section that could not be read
gives its heading and a notice instead of rows; the names of all such sections end the text.

What a tool of the graph answers is a parameter, and so are `str` and `repr` of a value.
-/

namespace AgentPlatform.Briefing

open Outcome

/-- A section of a schedule, as `_validate_sections` leaves it. -/
structure Section where
  entity : String
  attributeName : String := ""
  equals : String := ""
  conflicts : Bool := false
  label : String := ""
  deriving DecidableEq

/-- An item of the graph's answer: a match, or a conflict with the values of its sources. -/
structure Row where
  id : String
  value : Json := .null
  source : String := ""
  conflict : Bool := false
  values : List Json := []

/-- The answer of `graph.search` or `graph.conflicts`. -/
structure Answer where
  rows : List Row
  complete : Bool

/-- `'ok'`, `'partial'` or `'failed'`. -/
inductive ReadStatus
  | ok
  | incomplete
  | failed
  deriving DecidableEq, Repr

/-- What a schedule says of its digest. -/
structure Plan where
  id : String
  title : String := ""
  sections : List Section
  maxRows : ℕ

structure Library where
  /-- `str(value)` -/
  str : Json → List Char
  /-- `repr(value)` -/
  repr : Json → List Char

/-- A tool of the graph, by its name and arguments. -/
abbrev Graph := String → Json → Except Err Answer

def maxDigestChars : ℕ := 4000

/-- `_section_rows`. -/
def sectionRows (graph : Graph) (maxRows : ℕ) (s : Section) :
    Except Err (List Row × ReadStatus × Option String) :=
  let answer :=
    if s.conflicts then
      graph "graph.conflicts" (.obj [("entity", .str s.entity), ("limit", .int maxRows)])
    else
      graph "graph.search" (.obj [("entity", .str s.entity), ("attribute", .str s.attributeName),
        ("equals", .str s.equals), ("limit", .int maxRows)])
  match answer with
  | .error e =>
    if e.isValueError || e.isLookupError then .ok ([], .failed, some e.typeName) else .error e
  | .ok result =>
    if result.complete then .ok (result.rows, .ok, none)
    else
      .ok (result.rows, if result.rows = [] then .failed else .incomplete, some "source_unreadable")

/-- One value of a conflict. -/
def renderValue (lib : Library) (item : Json) : List Char :=
  if item.isDict then
    lib.str (item.getD "source" (.str "")) ++ ['='] ++ lib.repr (item.getD "value" .null)
  else lib.repr item

/-- `_render_row`. -/
def renderRow (lib : Library) (s : Section) (row : Row) : List Char :=
  if s.conflicts then
    let parts := (row.values.take 3).map (renderValue lib)
    row.id.toList ++ ": ".toList ++
      if parts = [] then "ziddiyat".toList else " | ".toList.intercalate parts
  else
    let flag := if row.conflict then " (ziddiyat)".toList else []
    let origin := if row.source = "" then [] else " [".toList ++ row.source.toList ++ [']']
    row.id.toList ++ " = ".toList ++ lib.repr row.value ++ origin ++ flag

/-- The decimal digits of a number. -/
def digits (n : ℕ) : List Char := Nat.toDigits 10 n

/-- `f'{index}. {label}'`. -/
def heading (index : ℕ) (s : Section) : List Char :=
  digits index ++ ". ".toList ++ (if s.label = "" then s.entity else s.label).toList

def unreadNotice : List Char :=
  "   ! manba o‘qilmadi — bu bo‘lim to‘liq emas, \"yozuv yo‘q\" degani EMAS".toList

def incompleteNotice : List Char := "   ! manba to‘liq o‘qilmadi — natija to‘liq emas".toList

/-- The lines of one section. -/
def block (lib : Library) (index : ℕ) (s : Section) (rows : List Row) (status : ReadStatus) :
    List (List Char) :=
  if status = .failed then [heading index s, unreadNotice, []]
  else
    [heading index s ++ " (".toList ++ digits rows.length ++ [')']] ++
      (if status = .incomplete then [incompleteNotice] else []) ++
      (if rows = [] then ["   - yozuv yo‘q".toList] else []) ++
      rows.map (fun row => "   - ".toList ++ renderRow lib s row) ++ [[]]

/-- A section with what was read of it. -/
abbrev Reading := Section × List Row × ReadStatus

/-- The blocks of the sections, numbered from `index` on. -/
def blocks (lib : Library) : ℕ → List Reading → List (List Char)
  | _, [] => []
  | index, (s, rows, status) :: readings =>
    block lib index s rows status ++ blocks lib (index + 1) readings

/-- `sorted(set(…))` of the entities of the sections with a status. -/
def entities (status : ReadStatus) (readings : List Reading) : List String :=
  ((readings.filter fun r => r.2.2 = status).map fun r => r.1.entity).dedup.insertionSort
    fun a b => ¬ b < a

/-- Two digits. -/
def twoDigits (n : ℕ) : List Char := if n < 10 then '0' :: digits n else digits n

/-- `_stamp`, with the clock in microseconds. -/
def stamp (now : Time) : List Char :=
  let seconds := ((now.tdiv 1000000) % 86400).toNat
  twoDigits (seconds / 3600) ++ [':'] ++ twoDigits (seconds % 3600 / 60) ++ " UTC".toList

/-- The notice that ends the text. -/
def warning (intro : String) (names : List String) : List (List Char) :=
  if names = [] then []
  else [intro.toList ++ ", ".toList.intercalate (names.map String.toList)]

def Plan.header (p : Plan) : List Char :=
  if p.title = "" then "Kunlik brifing — ".toList ++ p.id.toList else p.title.toList

/-- The lines that end the digest. -/
def footer (readings : List Reading) (now : Time) : List (List Char) :=
  ["Tayyorlandi: ".toList ++ stamp now] ++
    warning "Diqqat: quyidagi manbalar to‘liq o‘qilmadi — " (entities .incomplete readings) ++
    warning "Diqqat: quyidagi bo‘limlar o‘qilmadi — " (entities .failed readings)

/-- All lines of the digest. -/
def lines (lib : Library) (p : Plan) (readings : List Reading) (now : Time) : List (List Char) :=
  [p.header, []] ++ blocks lib 1 readings ++ footer readings now

/-- `'\n'.join(lines)`. -/
def joinLines (ls : List (List Char)) : List Char := ['\n'].intercalate ls

structure Stats where
  sections : ℕ
  rows : ℕ
  complete : Bool
  unread : List String
  failed : List String
  deriving DecidableEq

def stats (readings : List Reading) : Stats :=
  let unread := entities .incomplete readings
  let failed := entities .failed readings
  { sections := readings.length
    rows := (readings.map fun r => r.2.1.length).sum
    complete := decide (unread = []) && decide (failed = [])
    unread := unread
    failed := failed }

/-- One section is read. -/
def read (graph : Graph) (p : Plan) (s : Section) : Except Err Reading := do
  let (rows, status, _) ← sectionRows graph p.maxRows s
  pure (s, rows, status)

/-- The text of the digest. -/
def digestText (lib : Library) (p : Plan) (readings : List Reading) (now : Time) : List Char :=
  (joinLines (lines lib p readings now)).take maxDigestChars

/-- `_digest`. -/
def digest (lib : Library) (graph : Graph) (p : Plan) (now : Time) :
    Except Err (List Char × Stats) := do
  let readings ← p.sections.mapM (read graph p)
  pure (digestText lib p readings now, stats readings)

/-! ### What the text names -/

section Named

variable {lib : Library} {graph : Graph} {p : Plan} {before after : List Reading} {s : Section}
  {rows : List Row} {now : Time}

/-- The heading and the notice of a section that could not be read. -/
def unreadLines (index : ℕ) (s : Section) : List (List Char) := [heading index s, unreadNotice]

/-- The lines as far as the notice of a section, after what was read of the sections before it. -/
def linesUpTo (lib : Library) (p : Plan) (before : List Reading) (s : Section) : List (List Char) :=
  [p.header, []] ++ blocks lib 1 before ++ unreadLines (before.length + 1) s

/-- A text names a section as unreadable: it has the digest as far as the section's notice. -/
def Named (lib : Library) (p : Plan) (before : List Reading) (s : Section) (text : List Char) : Prop :=
  joinLines (linesUpTo lib p before s) <+: text

/-- The characters of some lines, each with its newline. -/
def room (ls : List (List Char)) : ℕ := (ls.map fun l => l.length + 1).sum

/-- What the digest needs to come as far as the notice of a section: the header, the blocks of the
sections before it, its heading, and the notice. -/
def reach (lib : Library) (p : Plan) (before : List Reading) (s : Section) : ℕ :=
  room [p.header, []] + room (blocks lib 1 before) + room [heading (before.length + 1) s] +
    unreadNotice.length

theorem blocks_append (lib : Library) (index : ℕ) (rs rs' : List Reading) :
    blocks lib index (rs ++ rs') = blocks lib index rs ++ blocks lib (index + rs.length) rs' := by
  induction rs generalizing index with
  | nil => rfl
  | cons r rs ih =>
    obtain ⟨s, rows, status⟩ := r
    rw [List.cons_append, blocks, blocks, ih, List.append_assoc, List.length_cons]
    congr 3
    omega

theorem joinLines_cons (l : List Char) {ls : List (List Char)} (h : ls ≠ []) :
    joinLines (l :: ls) = l ++ '\n' :: joinLines ls := by
  obtain ⟨l', ls, rfl⟩ := List.exists_cons_of_ne_nil h
  rw [joinLines, List.intercalate_cons_cons]
  simp [joinLines]

theorem joinLines_prefix (ls ls' : List (List Char)) : joinLines ls <+: joinLines (ls ++ ls') := by
  induction ls with
  | nil => exact List.nil_prefix
  | cons l ls ih =>
    by_cases hls : ls = []
    · subst hls
      have hone : joinLines [l] = l := List.intercalate_singleton
      rw [hone, List.singleton_append]
      by_cases hls' : ls' = []
      · rw [hls', hone]
      · rw [joinLines_cons l hls']
        exact List.prefix_append _ _
    · rw [List.cons_append, joinLines_cons l hls, joinLines_cons l (by simp [hls])]
      exact (List.prefix_append_right_inj _).2 (List.cons_prefix_cons.2 ⟨rfl, ih⟩)

theorem length_joinLines (ls : List (List Char)) (l : List Char) :
    (joinLines (ls ++ [l])).length = room ls + l.length := by
  induction ls with
  | nil => simp [joinLines, room]
  | cons l' ls ih =>
    rw [List.cons_append, joinLines_cons l' (by simp), List.length_append, List.length_cons, ih]
    simp [room]
    omega

theorem joinLines_suffix (ls ls' : List (List Char)) (h : ls' ≠ []) :
    joinLines ls' <:+ joinLines (ls ++ ls') := by
  induction ls with
  | nil => exact List.suffix_refl _
  | cons l ls ih =>
    rw [List.cons_append, joinLines_cons l (by simp [h])]
    exact ih.trans ((List.suffix_cons _ _).trans (List.suffix_append _ _))

theorem linesUpTo_prefix :
    ∃ rest, lines lib p (before ++ (s, rows, .failed) :: after) now =
      linesUpTo lib p before s ++ rest := by
  refine ⟨[] :: (blocks lib (before.length + 1 + 1) after ++
    footer (before ++ (s, rows, .failed) :: after) now), ?_⟩
  unfold lines linesUpTo unreadLines
  rw [blocks_append, blocks, block, if_pos rfl, Nat.add_comm 1 before.length]
  simp only [List.append_assoc, List.cons_append, List.nil_append]

theorem length_linesUpTo : (joinLines (linesUpTo lib p before s)).length = reach lib p before s := by
  have hlines : linesUpTo lib p before s =
      ([p.header, []] ++ blocks lib 1 before ++ [heading (before.length + 1) s]) ++ [unreadNotice] := by
    simp [linesUpTo, unreadLines]
  rw [hlines, length_joinLines, reach]
  simp only [room, List.map_append, List.sum_append]

theorem named_iff :
    Named lib p before s (digestText lib p (before ++ (s, rows, .failed) :: after) now) ↔
      reach lib p before s ≤ maxDigestChars := by
  obtain ⟨rest, hrest⟩ : ∃ rest, lines lib p (before ++ (s, rows, .failed) :: after) now =
      linesUpTo lib p before s ++ rest := linesUpTo_prefix
  have hfirst := joinLines_prefix (linesUpTo lib p before s) rest
  unfold Named digestText
  rw [hrest, ← length_linesUpTo, List.prefix_take_iff]
  exact ⟨fun h => h.2, fun h => ⟨hfirst, h⟩⟩

theorem Named.notice {text : List Char} (h : Named lib p before s text) :
    joinLines (unreadLines (before.length + 1) s) <:+: text :=
  ((joinLines_suffix _ _ (by simp [unreadLines])).isInfix).trans h.isInfix

/-- **What could not be read.** For every set of section results: the digest names every section that
could not be read if and only if, for each of them, the header, the blocks before it, its heading and its
notice have room. Where a section is named, its heading and its notice stand in the text. -/
theorem unread_named (lib : Library) (p : Plan) (readings : List Reading) (now : Time) :
    ((∀ before s rows after, readings = before ++ (s, rows, .failed) :: after →
        Named lib p before s (digestText lib p readings now)) ↔
      ∀ before s rows after, readings = before ++ (s, rows, .failed) :: after →
        reach lib p before s ≤ maxDigestChars) ∧
    ∀ before s, Named lib p before s (digestText lib p readings now) →
      joinLines (unreadLines (before.length + 1) s) <:+: digestText lib p readings now := by
  refine ⟨⟨?_, ?_⟩, fun _ _ h => h.notice⟩
  · rintro h before s rows after rfl
    exact named_iff.1 (h before s rows after rfl)
  · rintro h before s rows after rfl
    exact named_iff.2 (h before s rows after rfl)

end Named

/-! ### A section that is cut off -/

section Sample

/-- Values as they print when they are short texts of letters. -/
def sampleLibrary : Library where
  str
    | .str text => text.toList
    | _ => []
  repr
    | .str text => '\'' :: text.toList ++ ['\'']
    | _ => []

def sampleSections : List Section :=
  List.replicate 6 { entity := "orders", attributeName := "status", equals := "new" } ++
    [{ entity := "stock", attributeName := "level", equals := "low" }]

def samplePlan : Plan where
  id := "daily"
  title := "D"
  sections := sampleSections
  maxRows := 50

/-- The source of the orders answers with fifty rows; that of the stock cannot be reached. -/
def sampleGraph : Graph := fun _ args =>
  if (args.getD "entity" .null).same (.str "orders") then
    .ok { rows := List.replicate 50 { id := "o1", value := .str "new" }, complete := true }
  else .error (.conflict "source unavailable")

/-- What is read of the sections. -/
def sampleReadings : List Reading :=
  List.replicate 6 ({ entity := "orders", attributeName := "status", equals := "new" },
      List.replicate 50 { id := "o1", value := .str "new" }, .ok) ++
    [({ entity := "stock", attributeName := "level", equals := "low" }, [], .failed)]

/-- The last section could not be read, and the text does not name it at all. -/
theorem stock_cut_off :
    digest sampleLibrary sampleGraph samplePlan 0 =
      .ok (digestText sampleLibrary samplePlan sampleReadings 0, stats sampleReadings) ∧
    (stats sampleReadings).failed = ["stock"] ∧
    ¬ "stock".toList <:+: digestText sampleLibrary samplePlan sampleReadings 0 := by
  refine ⟨rfl, by decide +kernel, fun hinfix => ?_⟩
  have hletter : (digestText sampleLibrary samplePlan sampleReadings 0).contains 'k' = false := by
    decide +kernel
  have hmem : 'k' ∈ digestText sampleLibrary samplePlan sampleReadings 0 := hinfix.subset (by decide)
  rw [List.contains_iff_mem.2 hmem] at hletter
  cases hletter

end Sample

end AgentPlatform.Briefing
