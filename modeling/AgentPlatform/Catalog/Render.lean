import AgentPlatform.Catalog.Import
import AgentPlatform.Lib.Yaml

/-!
# The catalogue as YAML

`yaml_str` and `render_yaml` of `scripts/import_catalog.py`: a double-quoted scalar escapes what YAML takes as a line break
or refuses, and a product is a block mapping whose values stand on one line each.

What is rendered reads back as the products (`load_renderYaml`).
-/

namespace AgentPlatform.Catalog

open Yaml

/-- `_ESCAPES`. -/
def shortEscape : Char → Option Char
  | '\\' => some '\\'
  | '"' => some '"'
  | '\n' => some 'n'
  | '\r' => some 'r'
  | '\t' => some 't'
  | '\x00' => some '0'
  | _ => none

/-- A character that is written by its number. -/
def isNumbered (c : Char) : Bool :=
  let code := c.toNat
  code < 0x20 || (0x7f ≤ code && code ≤ 0x9f) || code == 0x2028 || code == 0x2029 || code == 0xfeff ||
    (0xd800 ≤ code && code ≤ 0xdfff) || code == 0xfffe || code == 0xffff

/-- A character in a double-quoted scalar. -/
def escaped (c : Char) : List Char :=
  match shortEscape c with
  | some letter => ['\\', letter]
  | none =>
    if isNumbered c then
      if c.toNat ≤ 0xffff then '\\' :: 'u' :: hexDigits 4 c.toNat else '\\' :: 'U' :: hexDigits 8 c.toNat
    else [c]

/-- `yaml_str`. -/
def yamlStr (value : String) : String := String.ofList ('"' :: (value.toList.flatMap escaped ++ ['"']))

/-- A flow sequence of texts. -/
def flowTexts (texts : List String) : String := "[" ++ ", ".intercalate (texts.map yamlStr) ++ "]"

/-- A flow mapping of texts to numbers. -/
def flowStock (stock : List (String × ℕ)) : String :=
  "\x7b" ++ ", ".intercalate (stock.map fun entry => yamlStr entry.1 ++ ": " ++ toString entry.2) ++ "\x7d"

/-- Keys whose values are not empty. -/
def filled (fields : List (String × String)) : List (String × String) := fields.filter fun field => field.2 ≠ ""

/-- The keys of an item after its id, with what is written of their values. -/
def Item.fields (item : Item) : List (String × String) :=
  [("name", yamlStr item.name), ("price_uzs", toString item.priceUzs), ("sizes", flowTexts item.sizes)] ++
    (if item.stock = [] then [] else [("stock", flowStock item.stock)]) ++
    (filled [("category", item.category), ("gender", item.gender), ("age", item.age)]).map
      (fun field => (field.1, yamlStr field.2)) ++
    (if item.colors = [] then [] else [("colors", flowTexts item.colors)]) ++
    (filled [("description", item.description), ("photo_url", item.photoUrl)]).map
      fun field => (field.1, yamlStr field.2)

/-- The lines of an item. -/
def Item.lines (item : Item) : List String :=
  ("  - id: " ++ yamlStr item.id) :: item.fields.map fun field => "    " ++ field.1 ++ ": " ++ field.2

/-- `HEADER_COMMENT`, a line each. -/
def headerComment : List String :=
  ["# scripts/import_catalog.py yaratgan fayl. Qo‘lda tahrirlamang: CSV’ni o‘zgartirib",
    "# qayta import qiling (--dry-run bilan avval tekshiring)."]

/-- `render_yaml`. -/
def renderYaml (products : List Item) : String :=
  "\n".intercalate (headerComment ++ "products:" :: (sorted products).flatMap Item.lines) ++ "\n"

/-- An item as the dictionary it is. -/
def Item.entries (item : Item) : List (String × Node) :=
  [("id", .str item.id), ("name", .str item.name), ("price_uzs", .int item.priceUzs),
      ("sizes", .seq (item.sizes.map .str))] ++
    (if item.stock = [] then [] else [("stock", .map (item.stock.map fun entry => (entry.1, .int entry.2)))]) ++
    (filled [("category", item.category), ("gender", item.gender), ("age", item.age)]).map
      (fun field => (field.1, .str field.2)) ++
    (if item.colors = [] then [] else [("colors", .seq (item.colors.map .str))]) ++
    (filled [("description", item.description), ("photo_url", item.photoUrl)]).map
      fun field => (field.1, .str field.2)

/-! ### One field -/

theorem escapes_escaped : Escapes escaped := by
  intro c
  unfold escaped
  split
  · rename_i letter hletter
    unfold shortEscape at hletter
    split at hletter <;> first | (obtain rfl := Option.some.inj hletter; exact writes_escape rfl rfl) | cases hletter
  · rename_i hnone
    split_ifs with hnumbered hsmall
    · exact writes_hex rfl (by omega)
    · have hvalid : c.toNat < 1114112 := by
        have := c.valid
        unfold UInt32.isValidChar Nat.isValidChar at this
        show c.val.toNat < _
        omega
      exact writes_hex rfl (by omega)
    · refine writes_plain ?_ ?_
      · rintro rfl
        cases hnone
      · rintro rfl
        cases hnone

theorem toList_yamlStr (value : String) : (yamlStr value).toList = quote escaped value.toList := String.toList_ofList

theorem toList_toString (n : ℕ) : (toString n).toList = Nat.toDigits 10 n := Nat.toList_repr

theorem flow_yamlStr (value : String) : flow (yamlStr value).toList = some (.str value, []) := by
  have hread := flow_quote escapes_escaped value.toList []
  rwa [List.append_nil, String.ofList_toList, ← toList_yamlStr] at hread

theorem flow_toString (n : ℕ) : flow (toString n).toList = some (.int n, []) := by
  have hread : flow (Nat.toDigits 10 n ++ []) = some (.int n, []) := flow_toDigits n (by simp)
  rwa [List.append_nil, ← toList_toString] at hread

theorem toList_flowTexts (texts : List String) : (flowTexts texts).toList =
    '[' :: ([',', ' '].intercalate ((texts.map String.toList).map (quote escaped)) ++ [']']) := by
  have hparts : (texts.map yamlStr).map String.toList = (texts.map String.toList).map (quote escaped) := by
    rw [List.map_map, List.map_map]
    exact List.map_congr_left fun text _ => toList_yamlStr text
  rw [flowTexts, String.toList_append, String.toList_append, String.toList_intercalate, hparts]
  rfl

theorem flow_flowTexts (texts : List String) : flow (flowTexts texts).toList = some (.seq (texts.map .str), []) := by
  have hnodes : (texts.map String.toList).map (fun text => Node.str (String.ofList text)) = texts.map .str := by
    rw [List.map_map]
    exact List.map_congr_left fun text _ => by rw [Function.comp_apply, String.ofList_toList]
  rw [toList_flowTexts, flow_quotes escapes_escaped, hnodes]

theorem length_escaped (c : Char) : (escaped c).length ≤ 10 := by
  unfold escaped
  split
  · exact (by decide : 2 ≤ 10)
  · split_ifs
    · rw [List.length_cons, List.length_cons, length_hexDigits]
      decide
    · rw [List.length_cons, List.length_cons, length_hexDigits]
    · exact (by decide : 1 ≤ 10)

theorem length_quote_escaped {text : List Char} (h : text.length ≤ maxSizeChars) :
    (quote escaped text).length ≤ keyLimit := by
  have hsum : (text.flatMap escaped).length ≤ 10 * text.length := by
    clear h
    induction text with
    | nil => exact Nat.zero_le _
    | cons c text ih =>
      have := length_escaped c
      rw [List.flatMap_cons, List.length_append, List.length_cons]
      omega
  rw [quote, List.length_cons, List.length_append, List.length_singleton]
  unfold maxSizeChars at h
  unfold keyLimit
  omega

/-- The stock, with its sizes as lists of characters. -/
def stockChars (stock : List (String × ℕ)) : List (List Char × ℕ) := stock.map fun e => (e.1.toList, e.2)

theorem toList_flowStock (stock : List (String × ℕ)) : (flowStock stock).toList =
    '\x7b' :: ([',', ' '].intercalate ((stockChars stock).map (entry escaped)) ++ ['\x7d']) := by
  have hparts : (stock.map fun e => yamlStr e.1 ++ ": " ++ toString e.2).map String.toList =
      (stockChars stock).map (entry escaped) := by
    rw [stockChars, List.map_map, List.map_map]
    refine List.map_congr_left fun e _ => ?_
    simp [entry, toList_yamlStr]
  rw [flowStock, String.toList_append, String.toList_append, String.toList_intercalate, hparts]
  rfl

theorem flow_flowStock {stock : List (String × ℕ)} (hne : stock ≠ [])
    (hshort : ∀ e ∈ stock, e.1.length ≤ maxSizeChars) (hnodup : (stock.map Prod.fst).Nodup) :
    flow (flowStock stock).toList = some (.map (stock.map fun e => (e.1, .int e.2)), []) := by
  have hkeys : (stockChars stock).map (fun e => String.ofList e.1) = stock.map Prod.fst := by
    rw [stockChars, List.map_map]
    exact List.map_congr_left fun e _ => String.ofList_toList
  have hnodes : (stockChars stock).map (fun e => (String.ofList e.1, Node.int e.2)) =
      stock.map fun e => (e.1, Node.int e.2) := by
    rw [stockChars, List.map_map]
    exact List.map_congr_left fun e _ => by rw [Function.comp_apply, String.ofList_toList]
  rw [toList_flowStock, flow_entries escapes_escaped (by simpa [stockChars] using hne) ?_ (by rwa [hkeys]), hnodes]
  rintro e he
  obtain ⟨f, hf, rfl⟩ := List.mem_map.1 he
  exact length_quote_escaped (hshort f hf)

/-! ### The fields of an item -/

/-- A key, what is written of its value, and the value. -/
structure Piece where
  key : String
  text : String
  value : Node

def Piece.ofText (field : String × String) : Piece := ⟨field.1, yamlStr field.2, .str field.2⟩

def Item.pieces (item : Item) : List Piece :=
  [.ofText ("id", item.id), .ofText ("name", item.name), ⟨"price_uzs", toString item.priceUzs, .int item.priceUzs⟩,
      ⟨"sizes", flowTexts item.sizes, .seq (item.sizes.map .str)⟩] ++
    (if item.stock = [] then []
      else [⟨"stock", flowStock item.stock, .map (item.stock.map fun e => (e.1, .int e.2))⟩]) ++
    (filled [("category", item.category), ("gender", item.gender), ("age", item.age)]).map .ofText ++
    (if item.colors = [] then [] else [⟨"colors", flowTexts item.colors, .seq (item.colors.map .str)⟩]) ++
    (filled [("description", item.description), ("photo_url", item.photoUrl)]).map .ofText

theorem fields_eq (item : Item) :
    ("id", yamlStr item.id) :: item.fields = item.pieces.map fun p => (p.key, p.text) := by
  simp only [Item.fields, Item.pieces, List.map_append, apply_ite (List.map _), List.map_map, List.map_cons, List.map_nil]
  rfl

theorem entries_eq (item : Item) : item.entries = item.pieces.map fun p => (p.key, p.value) := by
  simp only [Item.entries, Item.pieces, List.map_append, apply_ite (List.map _), List.map_map, List.map_cons, List.map_nil]
  rfl

/-- The keys are columns of the table, in its order. -/
theorem keys_sublist (item : Item) : (item.pieces.map Piece.key).Sublist columns := by
  have htexts : ∀ fields : List (String × String),
      ((filled fields).map fun field => (Piece.ofText field).key).Sublist (fields.map Prod.fst) :=
    fun fields => List.filter_sublist.map Prod.fst
  have hone : ∀ (c : Prop) [Decidable c] (p : Piece),
      ((if c then [] else [p]).map Piece.key).Sublist [p.key] := by
    intro c _ p
    split
    · exact List.nil_sublist _
    · exact List.Sublist.refl _
  simp only [Item.pieces, List.map_append, List.map_map]
  exact ((((List.Sublist.refl ["id", "name", "price_uzs", "sizes"]).append (hone _ _)).append
    (htexts [("category", item.category), ("gender", item.gender), ("age", item.age)])).append (hone _ _)).append
    (htexts [("description", item.description), ("photo_url", item.photoUrl)])

theorem isKey_of_mem {key : String} (h : key ∈ columns) : IsKey key := by
  have hall : ∀ key ∈ columns, key.toList ≠ [] ∧ (∀ c ∈ key.toList, isKeyChar c = true) ∧ key ∉ reserved ∧
      key.toList.length ≤ keyLimit := by decide
  obtain ⟨hne, hchars, hfree, hshort⟩ := hall key h
  exact ⟨hne, hchars, hfree, hshort⟩

variable {item : Item}

/-- What holds of every kind of piece holds of the pieces of an item. -/
theorem forall_pieces {P : Piece → Prop} (htext : ∀ field, P (.ofText field))
    (hnumber : P ⟨"price_uzs", toString item.priceUzs, .int item.priceUzs⟩)
    (htexts : ∀ key texts, P ⟨key, flowTexts texts, .seq (texts.map .str)⟩)
    (hstock : item.stock ≠ [] → P ⟨"stock", flowStock item.stock, .map (item.stock.map fun e => (e.1, .int e.2))⟩) :
    ∀ p ∈ item.pieces, P p := by
  have hall : ∀ fields : List (String × String), ∀ p ∈ fields.map Piece.ofText, P p := by
    intro fields p hp
    obtain ⟨field, -, rfl⟩ := List.mem_map.1 hp
    exact htext field
  intro p hp
  simp only [Item.pieces, List.mem_append] at hp
  rcases hp with (((hp | hp) | hp) | hp) | hp
  · simp only [List.mem_cons, List.not_mem_nil, or_false] at hp
    rcases hp with rfl | rfl | rfl | rfl
    · exact htext _
    · exact htext _
    · exact hnumber
    · exact htexts _ _
  · split at hp
    · cases hp
    · rename_i hne
      obtain rfl := List.mem_singleton.1 hp
      exact hstock hne
  · exact hall _ p hp
  · split at hp
    · cases hp
    · obtain rfl := List.mem_singleton.1 hp
      exact htexts _ _
  · exact hall _ p hp

theorem flow_piece (h : item.Fits) : ∀ p ∈ item.pieces, flow p.text.toList = some (p.value, []) :=
  forall_pieces (fun field => flow_yamlStr field.2) (flow_toString _) (fun _ texts => flow_flowTexts texts)
    fun hne => flow_flowStock hne (fun e he => h.sizes _ (h.stock e he)) h.stockNodup

/-! ### The lines -/

/-- Characters that can stand on a line. -/
def Clean (text : List Char) : Prop := ∀ c ∈ text, isPrintable c = true ∧ c ≠ '\n'

theorem Clean.append {a b : List Char} (ha : Clean a) (hb : Clean b) : Clean (a ++ b) :=
  fun c hc => (List.mem_append.1 hc).elim (ha c) (hb c)

theorem Clean.cons {a : Char} {b : List Char} (ha : isPrintable a = true ∧ a ≠ '\n') (hb : Clean b) : Clean (a :: b) :=
  List.forall_mem_cons.2 ⟨ha, hb⟩

theorem clean_intercalate {parts : List (List Char)} (h : ∀ part ∈ parts, Clean part) :
    Clean ([',', ' '].intercalate parts) := by
  induction parts with
  | nil => exact fun c hc => absurd hc List.not_mem_nil
  | cons part parts ih =>
    have hrest := ih fun q hq => h q (List.mem_cons_of_mem _ hq)
    cases parts with
    | nil =>
      rw [List.intercalate_singleton]
      exact h part List.mem_cons_self
    | cons next parts =>
      rw [List.intercalate_cons_cons]
      exact ((h part List.mem_cons_self).append (by unfold Clean; decide)).append hrest

theorem clean_hexDigits (width n : ℕ) : Clean (hexDigits width n) := by
  have hdigit : ∀ m ∈ List.range 16, isPrintable (Nat.digitChar m) = true ∧ Nat.digitChar m ≠ '\n' := by decide
  induction width generalizing n with
  | zero => exact fun c hc => absurd hc List.not_mem_nil
  | succ width ih =>
    refine (ih (n / 16)).append fun c hc => ?_
    obtain rfl := List.mem_singleton.1 hc
    exact hdigit _ (List.mem_range.2 (Nat.mod_lt n (by decide)))

theorem clean_escaped (c : Char) : Clean (escaped c) := by
  unfold escaped
  split
  · rename_i letter hletter
    unfold shortEscape at hletter
    split at hletter <;> first | (obtain rfl := Option.some.inj hletter; unfold Clean; decide) | cases hletter
  · rename_i hnone
    split_ifs with hnumbered hsmall
    · exact .cons (by decide) (.cons (by decide) (clean_hexDigits 4 _))
    · exact .cons (by decide) (.cons (by decide) (clean_hexDigits 8 _))
    · intro d hd
      obtain rfl := List.mem_singleton.1 hd
      simp only [isNumbered, Bool.or_eq_true, Bool.and_eq_true, decide_eq_true_eq, beq_iff_eq, not_or, not_and] at hnumbered
      constructor
      · simp only [isPrintable, Bool.or_eq_true, Bool.and_eq_true, decide_eq_true_eq, beq_iff_eq, bne_iff_ne]
        omega
      · rintro rfl
        cases hnone

theorem clean_quote (text : List Char) : Clean (quote escaped text) := by
  refine .cons (by decide) (.append (fun c hc => ?_) (by unfold Clean; decide))
  obtain ⟨d, -, hd⟩ := List.mem_flatMap.1 hc
  exact clean_escaped d c hd

theorem clean_toDigits (n : ℕ) : Clean (Nat.toDigits 10 n) := by
  intro c hc
  have hdigit : c.isDigit = true := Nat.isDigit_of_mem_toDigits (by decide) (by decide) hc
  obtain ⟨hlow, hhigh⟩ := Char.isDigit_iff_toNat.1 hdigit
  have hzero : '0'.toNat = 48 := rfl
  have hnine : '9'.toNat = 57 := rfl
  constructor
  · simp only [isPrintable, Bool.or_eq_true, Bool.and_eq_true, decide_eq_true_eq]
    omega
  · rintro rfl
    cases hdigit

theorem clean_flowTexts (texts : List String) : Clean (flowTexts texts).toList := by
  rw [toList_flowTexts]
  refine .cons (by decide) (.append (clean_intercalate fun part hpart => ?_) (by unfold Clean; decide))
  obtain ⟨text, -, rfl⟩ := List.mem_map.1 hpart
  exact clean_quote text

theorem clean_flowStock (stock : List (String × ℕ)) : Clean (flowStock stock).toList := by
  rw [toList_flowStock]
  refine .cons (by decide) (.append (clean_intercalate fun part hpart => ?_) (by unfold Clean; decide))
  obtain ⟨e, -, rfl⟩ := List.mem_map.1 hpart
  exact (clean_quote e.1).append (.cons (by decide) (.cons (by decide) (clean_toDigits e.2)))

theorem clean_yamlStr (value : String) : Clean (yamlStr value).toList := by
  rw [toList_yamlStr]
  exact clean_quote _

theorem clean_toString (n : ℕ) : Clean (toString n).toList := by
  rw [toList_toString]
  exact clean_toDigits n

theorem clean_piece (item : Item) : ∀ p ∈ item.pieces, Clean p.text.toList :=
  forall_pieces (fun field => clean_yamlStr field.2) (clean_toString _) (fun _ texts => clean_flowTexts texts)
    fun _ => clean_flowStock _

/-- A piece on its line, after the spaces. -/
def Piece.content (p : Piece) : List Char := p.key.toList ++ ':' :: ' ' :: p.text.toList

theorem Item.exists_pieces (item : Item) : ∃ p ps, item.pieces = p :: ps ∧ ("id", yamlStr item.id) = (p.key, p.text) ∧
    item.fields = ps.map fun p => (p.key, p.text) := by
  have hfields := fields_eq item
  cases hpieces : item.pieces with
  | nil =>
    rw [hpieces] at hfields
    cases hfields
  | cons p ps =>
    rw [hpieces] at hfields
    obtain ⟨hid, htail⟩ := List.cons.inj hfields
    exact ⟨p, ps, rfl, hid, htail⟩

theorem toList_lines (item : Item) : ∃ p ps, item.pieces = p :: ps ∧ item.lines.map String.toList =
    (List.replicate 2 ' ' ++ '-' :: ' ' :: p.content) :: ps.map fun q => List.replicate 4 ' ' ++ q.content := by
  obtain ⟨p, ps, hpieces, hid, hfields⟩ := item.exists_pieces
  obtain ⟨hkey, htext⟩ := Prod.mk.inj hid
  refine ⟨p, ps, hpieces, ?_⟩
  rw [Item.lines, hfields, List.map_cons, List.map_map, List.map_map]
  refine congrArg₂ List.cons ?_ ?_
  · simp [Piece.content, ← hkey, htext]
  · refine List.map_congr_left fun q _ => ?_
    simp [Piece.content]

variable {p : Piece}

theorem key_of_mem (hp : p ∈ item.pieces) : IsKey p.key :=
  isKey_of_mem ((keys_sublist item).subset (List.mem_map_of_mem hp))

theorem content_head (hp : p ∈ item.pieces) : ∃ c, p.content.head? = some c ∧ isKeyChar c = true := by
  have hkey := key_of_mem hp
  obtain ⟨c, rest, hcons⟩ := List.exists_cons_of_ne_nil hkey.nonempty
  refine ⟨c, ?_, hkey.chars c (hcons ▸ List.mem_cons_self)⟩
  rw [Piece.content, hcons]
  rfl

theorem lineOf_content (hp : p ∈ item.pieces) (n : ℕ) :
    lineOf (List.replicate n ' ' ++ p.content) = some ⟨n, p.content⟩ := by
  obtain ⟨c, hhead, hc⟩ := content_head hp
  refine lineOf_spaces hhead ?_ ?_
  · rintro rfl
    cases hc
  · rintro rfl
    cases hc

/-- The item's lines as a block: an entry of a sequence. -/
def Item.block (item : Item) : List Char × List Line :=
  ('-' :: ' ' :: ((item.pieces.head?.map Piece.content).getD []), item.pieces.tail.map fun q => ⟨4, q.content⟩)

theorem lineOf_lines (item : Item) :
    (item.lines.map String.toList).filterMap lineOf = ⟨2, item.block.1⟩ :: item.block.2 := by
  obtain ⟨p, ps, hpieces, hlines⟩ := toList_lines item
  have hfirst : lineOf (List.replicate 2 ' ' ++ '-' :: ' ' :: p.content) = some ⟨2, '-' :: ' ' :: p.content⟩ :=
    lineOf_spaces rfl (by decide) (by decide)
  have hrest : (ps.map fun q => List.replicate 4 ' ' ++ q.content).filterMap lineOf = ps.map fun q => ⟨4, q.content⟩ := by
    rw [List.filterMap_map]
    refine List.filterMap_eq_map_iff_forall_eq_some.2 fun q hq => ?_
    exact lineOf_content (hpieces ▸ List.mem_cons_of_mem _ hq) 4
  rw [hlines, List.filterMap_cons_some hfirst, hrest, Item.block, hpieces]
  rfl

/-- The block of an item is a mapping. -/
theorem node_block (h : item.Fits) (fuel : ℕ) : ∃ content, item.block.1 = '-' :: ' ' :: content ∧
    (∀ line ∈ item.block.2, 2 < line.indent) ∧
      node (fuel + 1) (⟨2 + 2, content⟩ :: item.block.2) = some (.map item.entries) := by
  obtain ⟨p, ps, hpieces, -⟩ := item.exists_pieces
  refine ⟨p.content, by rw [Item.block, hpieces]; rfl, ?_, ?_⟩
  · intro line hline
    obtain ⟨q, -, rfl⟩ := List.mem_map.1 hline
    exact (by decide : 2 < 4)
  · have hnodup : (item.pieces.map fun p => p.key).Nodup := (keys_sublist item).nodup (by decide)
    have hmap := @node_map fuel 4 _ item.pieces (fun p => (p.content, [])) (fun p => (p.key, p.value))
      (hpieces ▸ List.cons_ne_nil p ps) hnodup fun p hp => by
        refine ⟨fun c hc hdash => ?_, fun line hline => absurd hline List.not_mem_nil, ?_⟩
        · obtain ⟨d, hhead, hd⟩ := content_head hp
          rw [hhead, Option.mem_some] at hc
          subst hc hdash
          cases hd
        · exact blockEntry_field (key_of_mem hp) (flow_piece h p hp) _
    rw [entries_eq, ← hmap]
    refine congrArg (node (fuel + 1)) ?_
    rw [Item.block, hpieces]
    show Line.mk 4 p.content :: ps.map (fun q => Line.mk 4 q.content) = (p :: ps).flatMap fun q => [Line.mk 4 q.content]
    rw [← List.map_eq_flatMap]
    rfl

/-! ### The whole text -/

theorem intercalate_ended {lines : List (List Char)} (h : lines ≠ []) :
    ['\n'].intercalate lines ++ ['\n'] = lines.flatMap fun line => line ++ ['\n'] := by
  induction lines with
  | nil => exact absurd rfl h
  | cons line lines ih =>
    cases lines with
    | nil => simp
    | cons next lines =>
      rw [List.intercalate_cons_cons, List.append_assoc, ih (List.cons_ne_nil next lines)]
      simp

/-- The lines of the whole text. -/
def textLines (products : List Item) : List (List Char) :=
  headerComment.map String.toList ++ "products:".toList :: products.flatMap fun item => item.lines.map String.toList

theorem toList_renderYaml (products : List Item) :
    (renderYaml products).toList = (textLines (sorted products)).flatMap fun line => line ++ ['\n'] := by
  have hlines : (headerComment ++ "products:" :: (sorted products).flatMap Item.lines).map String.toList =
      textLines (sorted products) := by
    rw [textLines, List.map_append, List.map_cons, List.map_flatMap]
  rw [renderYaml, String.toList_append, String.toList_intercalate, hlines]
  exact intercalate_ended (by simp [textLines])

theorem clean_textLines (products : List Item) : ∀ line ∈ textLines products, Clean line := by
  have hheader : ∀ line ∈ headerComment.map String.toList, Clean line := by
    unfold Clean
    decide
  intro line hline
  rcases List.mem_append.1 hline with hline | hline
  · exact hheader line hline
  · rcases List.mem_cons.1 hline with rfl | hline
    · unfold Clean
      decide
    · obtain ⟨item, -, hline⟩ := List.mem_flatMap.1 hline
      obtain ⟨p, ps, hpieces, hlines⟩ := toList_lines item
      have hcontent : ∀ q ∈ item.pieces, Clean q.content := by
        intro q hq c hc
        rcases List.mem_append.1 hc with hkey | htext
        · have hkeys : ∀ key ∈ columns, Clean key.toList := by
            unfold Clean
            decide
          exact hkeys q.key ((keys_sublist item).subset (List.mem_map_of_mem hq)) c hkey
        · exact Clean.cons (by decide) (.cons (by decide) (clean_piece item q hq)) c htext
      rw [hlines] at hline
      rcases List.mem_cons.1 hline with rfl | hline
      · exact Clean.append (by unfold Clean; decide)
          (.cons (by decide) (.cons (by decide) (hcontent p (hpieces ▸ List.mem_cons_self))))
      · obtain ⟨q, hq, rfl⟩ := List.mem_map.1 hline
        exact Clean.append (by unfold Clean; decide) (hcontent q (hpieces ▸ List.mem_cons_of_mem _ hq))

theorem linesOf_renderYaml (products : List Item) : linesOf (renderYaml products).toList =
    ⟨0, "products:".toList⟩ :: (sorted products).flatMap fun item => ⟨2, item.block.1⟩ :: item.block.2 := by
  have hheader : (headerComment.map String.toList).filterMap lineOf = [] := rfl
  rw [toList_renderYaml, linesOf_ended fun line hline hmem => (clean_textLines _ line hline _ hmem).2 rfl, textLines,
    List.filterMap_append, hheader, List.nil_append,
    List.filterMap_cons_some (show lineOf "products:".toList = some ⟨0, "products:".toList⟩ from rfl),
    List.filterMap_flatMap]
  simp only [lineOf_lines]

theorem isPrintable_renderYaml (products : List Item) : (renderYaml products).toList.all isPrintable = true := by
  rw [toList_renderYaml, List.all_eq_true]
  intro c hc
  obtain ⟨line, hline, hc⟩ := List.mem_flatMap.1 hc
  rcases List.mem_append.1 hc with hc | hc
  · exact (clean_textLines _ line hline c hc).1
  · obtain rfl := List.mem_singleton.1 hc
    rfl

/-- What is rendered reads back as the products, each as the dictionary it is. -/
theorem load_renderYaml {products : List Item} (hne : products ≠ []) (h : ∀ item ∈ products, item.Fits) :
    load (renderYaml products) =
      some (.map [("products", .seq ((sorted products).map fun item => .map item.entries))]) := by
  have hperm : (sorted products).Perm products := List.perm_insertionSort _ _
  have hsorted : sorted products ≠ [] := fun hnil => hne (List.nil_perm.1 (hnil ▸ hperm))
  obtain ⟨fuel, hfuel⟩ : ∃ fuel, (renderYaml products).length + 1 = fuel + 3 := by
    have hlong : 2 ≤ (renderYaml products).length := by
      rw [← String.length_toList, toList_renderYaml, textLines]
      simp only [headerComment, List.map_cons, List.cons_append, List.flatMap_cons, List.length_append, List.length_cons]
      omega
    exact ⟨(renderYaml products).length - 2, by omega⟩
  have hseq := @node_seq (fuel + 1) 2 _ (sorted products) Item.block (fun item => .map item.entries) hsorted
    fun item hitem => node_block (h item (hperm.mem_iff.1 hitem)) fuel
  have hdeep : ∀ line ∈ (sorted products).flatMap fun item => (⟨2, item.block.1⟩ :: item.block.2 : List Line),
      0 < line.indent := by
    intro line hline
    obtain ⟨item, hitem, hline⟩ := List.mem_flatMap.1 hline
    obtain ⟨-, -, hdeeper, -⟩ := node_block (h item (hperm.mem_iff.1 hitem)) fuel
    rcases List.mem_cons.1 hline with rfl | hline
    · exact (by decide : 0 < 2)
    · exact (Nat.zero_le 2).trans_lt (hdeeper line hline)
  have hdoc := @node_map (fuel + 2) 0 _ [()]
    (fun _ => ("products:".toList, (sorted products).flatMap fun item => ⟨2, item.block.1⟩ :: item.block.2))
    (fun _ => ("products", .seq ((sorted products).map fun item => .map item.entries))) (by simp) (by simp) fun _ _ => by
      have hfront : ∀ c ∈ "products:".toList.head?, c ≠ '-' := by
        intro c hc
        obtain rfl : 'p' = c := Option.some.inj hc
        decide
      refine ⟨hfront, hdeep, ?_⟩
      show (do some (String.ofList "products".toList, ← node (fuel + 2) _)) = _
      rw [hseq, String.ofList_toList]
      rfl
  rw [load, if_pos (isPrintable_renderYaml products), hfuel, linesOf_renderYaml]
  simpa using hdoc

end AgentPlatform.Catalog
