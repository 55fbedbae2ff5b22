import AgentPlatform.Graph.Config
import AgentPlatform.Texts

/-!
# Asset paths

The levels an operator declares in `assets.py`, and the paths that name an asset or a node above it. A path is
read without the white space and the slashes around it, so many texts are read alike; written again they are
one path (`formatPath_eq`). A text that is read as an asset and is written as it was is its own path
(`Verbatim`).
-/

namespace AgentPlatform.Assets

open Outcome Graph

def maxLevels : ℕ := 8
def maxPathChars : ℕ := 512

def isSegmentChar (c : Char) : Bool := isAlphanumeric c || c == '_' || c == '.' || c == '-'

/-- `SEGMENT_RE`. -/
def segmentRe (text : String) : Bool :=
  Pattern.anchored (Pattern.run isAlphanumeric isSegmentChar 63) text.toList

variable (lib : Parser) (assets : Json)

/-! ### The declared levels -/

/-- One level name, after those in `seen`. -/
def levelName (seen : List String) (value : Json) : Except Err (List String) :=
  match value with
  | .str name => do
    ensure (segmentRe name = true) (.valueError ("invalid asset level name: " ++ lib.repr value))
    ensure (name ∉ seen) (.valueError ("duplicate asset level name: " ++ lib.repr value))
    pure (seen ++ [name])
  | value => .error (.valueError ("invalid asset level name: " ++ lib.repr value))

/-- `_declared_levels`, of what the configuration has under `assets`. -/
def declaredLevels : Except Err (List String) :=
  match assets with
  | .null => .ok []
  | .obj members => do
    let unknown := unknownKeys ["levels", "entity", "measurements"] members
    ensure (unknown = []) (.valueError ("assets has unsupported keys: " ++ reprTexts lib unknown))
    let e : Err := .valueError ("assets.levels must be a list of 1.." ++ toString maxLevels ++ " names")
    match assets.getD "levels" (.arr []) with
    | .arr items => do
      ensure (items.isEmpty = false ∧ items.length ≤ maxLevels) e
      items.foldlM (levelName lib) []
    | _ => throw e
  | _ => .error (.valueError "assets must be an object")

/-- `asset_entity`. -/
def assetEntity : Except Err String :=
  match assets.getD "entity" (.str "asset") with
  | .str entity => do
    ensure (nameRe entity = true) (.valueError "assets.entity must be a valid entity name")
    pure entity
  | _ => .error (.valueError "assets.entity must be a valid entity name")

/-- The levels, where there are any. -/
def hierarchy : Except Err (List String) := do
  let levels ← declaredLevels lib assets
  ensure (levels ≠ []) (.forbidden "No asset hierarchy is declared for this tenant")
  pure levels

/-! ### Paths -/

/-- `text.strip('/')`. -/
def stripSlashes (text : String) : String :=
  String.ofList ((text.toList.dropWhile (· == '/')).rdropWhile (· == '/'))

/-- What a path is read from: `path.strip().strip('/')`. -/
def trimmed (path : String) : String := stripSlashes (strip path)

/-- `text.split('/')`. -/
def split (text : String) : List String := (text.toList.splitOn '/').map String.ofList

/-- `format_path`. -/
def formatPath (segments : List String) : String := "/".intercalate segments

/-- `_segments`. A text always has a segment, so the last check of the source never fails. -/
def segmentsOf (path : String) : Except Err (List String) := do
  ensure (isBlank path = false) (.valueError "path is required")
  let text := trimmed path
  ensure (text.length ≤ maxPathChars) (.valueError
    ("path must be at most " ++ toString maxPathChars ++ " characters"))
  (split text).forM fun s => ensure (segmentRe s = true) (.valueError
    ("invalid path segment: " ++ lib.repr (.str s)))
  pure (split text)

def levelsShown (levels : List String) : String := " / ".intercalate levels

/-- A path of an asset, where these are the levels. -/
def pathOf (levels : List String) (path : String) : Except Err (List String) := do
  let segments ← segmentsOf lib path
  ensure (segments.length = levels.length) (.valueError
    ("path must have " ++ toString levels.length ++ " levels (" ++ levelsShown levels ++ "), got " ++
      toString segments.length))
  pure segments

/-- `parse_path`: the path of an asset. -/
def parsePath (path : String) : Except Err (List String) := do
  let levels ← hierarchy lib assets
  pathOf lib levels path

/-- `prefix_path`: the path of an asset, or of a node above it. -/
def prefixPath (path : String) : Except Err (List String) := do
  let levels ← hierarchy lib assets
  let segments ← segmentsOf lib path
  ensure (segments.length ≤ levels.length) (.valueError
    ("path must have at most " ++ toString levels.length ++ " levels (" ++ levelsShown levels ++ "), got " ++
      toString segments.length))
  pure segments

/-- `_placeable`. All that `parse_path` raises is caught. -/
def placeable (id : String) : Option (List String) := (parsePath lib assets id).toOption

/-- `is_descendant`. -/
def isDescendant (parent candidate : List String) : Bool :=
  decide (parent.length < candidate.length) && candidate.take parent.length == parent

/-! ### What is read, written again -/

variable {lib assets} {path : String} {segments segments' : List String}

theorem segmentRe_body {s : String} (h : segmentRe s = true) :
    ∃ c cs tail, s.toList = c :: cs ++ tail ∧ (∀ d ∈ c :: cs, isSegmentChar d = true) ∧
      (tail = [] ∨ tail = ['\n']) := by
  rcases Pattern.anchored_iff.1 h with h | ⟨t, ht, h⟩
  all_goals
    obtain ⟨c, cs, heq, hfirst, -, hrest⟩ := Pattern.run_iff.1 h
    have hbody : ∀ d ∈ c :: cs, isSegmentChar d = true := by
      intro d hd
      rcases List.mem_cons.1 hd with rfl | hd
      · simp [isSegmentChar, hfirst]
      · exact hrest d hd
  · exact ⟨c, cs, [], by simpa using heq, hbody, .inl rfl⟩
  · exact ⟨c, cs, ['\n'], by rw [ht, heq], hbody, .inr rfl⟩

theorem isSegmentChar_ne {c : Char} (h : isSegmentChar c = true) : c ≠ '/' ∧ isSpace c = false := by
  have hrange : c.toNat = 45 ∨ c.toNat = 46 ∨ c.toNat = 95 ∨ (48 ≤ c.toNat ∧ c.toNat ≤ 57) ∨
      (65 ≤ c.toNat ∧ c.toNat ≤ 90) ∨ (97 ≤ c.toNat ∧ c.toNat ≤ 122) := by
    simp only [isSegmentChar, isAlphanumeric, Char.isDigit, Bool.or_eq_true, Bool.and_eq_true,
      decide_eq_true_eq, beq_iff_eq] at h
    rcases h with (((((⟨hlow, hhigh⟩ | ⟨hlow, hhigh⟩) | ⟨hlow, hhigh⟩) | rfl) | rfl) | rfl)
    · exact .inr (.inr (.inr (.inr (.inr ⟨hlow, hhigh⟩))))
    · exact .inr (.inr (.inr (.inr (.inl ⟨hlow, hhigh⟩))))
    · exact .inr (.inr (.inr (.inl ⟨hlow, hhigh⟩)))
    all_goals decide
  constructor
  · rintro rfl
    revert hrange
    decide
  · simp only [isSpace, Bool.or_eq_false_iff, Bool.and_eq_false_iff, decide_eq_false_iff_not, beq_eq_false_iff_ne]
    omega

theorem slash_not_mem_segment {s : String} (h : segmentRe s = true) : '/' ∉ s.toList := by
  obtain ⟨c, cs, tail, heq, hbody, htail⟩ := segmentRe_body h
  rw [heq]
  intro hmem
  rcases List.mem_append.1 hmem with hmem | hmem
  · exact (isSegmentChar_ne (hbody _ hmem)).1 rfl
  · rcases htail with rfl | rfl
    · cases hmem
    · exact absurd hmem (by decide)

theorem toList_formatPath : (formatPath segments).toList = ['/'].intercalate (segments.map String.toList) :=
  String.toList_intercalate

theorem map_toList_ofList (pieces : List (List Char)) :
    pieces.map (String.toList ∘ String.ofList) = pieces :=
  List.map_id'' (fun _ => String.toList_ofList) pieces

theorem formatPath_split (text : String) : formatPath (split text) = text := by
  apply String.toList_injective
  rw [toList_formatPath, split, List.map_map, map_toList_ofList, List.intercalate_splitOn]

theorem split_formatPath (hne : segments ≠ []) (h : ∀ s ∈ segments, '/' ∉ s.toList) :
    split (formatPath segments) = segments := by
  have hfree : ∀ l ∈ segments.map String.toList, '/' ∉ l := by
    intro l hl
    obtain ⟨s, hs, rfl⟩ := List.mem_map.1 hl
    exact h s hs
  rw [split, toList_formatPath, List.splitOn_intercalate '/' hfree (by simpa using hne), List.map_map]
  exact List.map_id'' (fun _ => String.ofList_toList) segments

theorem segmentsOf_ok (h : segmentsOf lib path = .ok segments) :
    isBlank path = false ∧ (trimmed path).length ≤ maxPathChars ∧ segments = split (trimmed path) ∧
      ∀ s ∈ segments, segmentRe s = true := by
  simp only [segmentsOf, bind_eq_ok, ensure_eq_ok, exists_unit, pure_eq_ok, forM_eq_ok] at h
  obtain ⟨hblank, hlength, hsegments, rfl⟩ := h
  exact ⟨hblank, hlength, rfl, hsegments⟩

theorem segmentsOf_ne_nil (h : segmentsOf lib path = .ok segments) : segments ≠ [] := by
  rw [(segmentsOf_ok h).2.2.1, split, Ne, List.map_eq_nil_iff]
  exact List.splitOn_ne_nil _ _

theorem formatPath_eq (h : segmentsOf lib path = .ok segments) : formatPath segments = trimmed path := by
  rw [(segmentsOf_ok h).2.2.1]
  exact formatPath_split _

/-- Two lists of segments are not written alike. -/
theorem formatPath_inj {path' : String} (h : segmentsOf lib path = .ok segments)
    (h' : segmentsOf lib path' = .ok segments') {n n' : ℕ} (hn : 0 < n) (hn' : 0 < n')
    (heq : formatPath (segments.take n) = formatPath (segments'.take n')) :
    segments.take n = segments'.take n' := by
  have hread : ∀ {path : String} {segments : List String} {n : ℕ}, segmentsOf lib path = .ok segments → 0 < n →
      split (formatPath (segments.take n)) = segments.take n := by
    intro path segments n h hn
    refine split_formatPath ?_ fun s hs => ?_
    · rw [Ne, List.take_eq_nil_iff, not_or]
      exact ⟨by omega, segmentsOf_ne_nil h⟩
    · exact slash_not_mem_segment ((segmentsOf_ok h).2.2.2 s (List.mem_of_mem_take hs))
  rw [← hread h hn, ← hread h' hn', heq]

theorem trimmed_part (path : String) : (trimmed path).toList <:+: path.toList := by
  rw [trimmed, stripSlashes, String.toList_ofList]
  have hslashes := (List.rdropWhile_prefix (· == '/') _).isInfix.trans
    (List.dropWhile_suffix (l := (strip path).toList) (· == '/')).isInfix
  exact hslashes.trans (strip_part path)

theorem trimmed_of_twice (h : trimmed (trimmed path) = path) : trimmed path = path := by
  have houter := (trimmed_part (trimmed path)).length_le
  rw [h] at houter
  exact String.toList_injective ((trimmed_part path).eq_of_length_le houter)

theorem parsePath_ok {levels : List String} (hlevels : hierarchy lib assets = .ok levels) :
    parsePath lib assets path = .ok segments ↔
      segmentsOf lib path = .ok segments ∧ segments.length = levels.length := by
  simp only [parsePath, pathOf, bind_eq_ok, hlevels, Except.ok.injEq, ensure_eq_ok, exists_unit, pure_eq_ok]
  constructor
  · rintro ⟨_, rfl, segments, hsegments, hlength, rfl⟩
    exact ⟨hsegments, hlength⟩
  · rintro ⟨hsegments, hlength⟩
    exact ⟨_, rfl, segments, hsegments, hlength, rfl⟩

theorem placeable_eq_some :
    placeable lib assets path = some segments ↔ parsePath lib assets path = .ok segments := by
  unfold placeable
  cases parsePath lib assets path <;> simp [Except.toOption]

theorem placeable_segments (h : placeable lib assets path = some segments) :
    segmentsOf lib path = .ok segments := by
  obtain ⟨levels, hlevels, hpath⟩ := bind_eq_ok.1 (placeable_eq_some.1 h)
  exact ((parsePath_ok hlevels).1 (placeable_eq_some.1 h)).1

end AgentPlatform.Assets
