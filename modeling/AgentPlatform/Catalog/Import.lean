import AgentPlatform.Catalog.Csv
import AgentPlatform.Conversation.Prompt
import AgentPlatform.Lib.Outcome
import Mathlib.Data.Char
import Mathlib.Data.List.Lex

/-!
# The import of a catalogue

`scripts/import_catalog.py`: a row of the spreadsheet becomes an item of `products.yaml`, or an error that names the row.
Nothing is written unless every row is valid. What the script takes from Unicode and from `repr` is the library's.

What an accepted text gives is read off by `parseCatalog_eq_ok`: one item for each row that is not blank, each within the
bounds (`Item.Fits`), and no id twice.
-/

namespace AgentPlatform.Catalog

open Outcome

/-- What the script takes from Python's library. -/
structure Library where
  /-- `text.lower()`. -/
  lower : String → String
  /-- `repr(text)`. -/
  repr : String → String
  /-- The value of a character that `\d` matches. -/
  decimal : Char → Option ℕ

def required : List String := ["id", "name", "price_uzs", "sizes"]

def columns : List String := required ++ ["stock", "category", "gender", "age", "colors", "description", "photo_url"]

def maxNameChars : ℕ := 200

def maxLabelChars : ℕ := 64

def maxDescriptionChars : ℕ := 1000

def maxColors : ℕ := 20

def maxSizes : ℕ := 50

def maxSizeChars : ℕ := 16

def maxUrlChars : ℕ := 2000

def maxPrice : ℕ := 10 ^ 12

def maxStock : ℕ := 10 ^ 9

def maxRows : ℕ := 5000

/-- A product as `products.yaml` has it; what is empty after `sizes` is a key that is left out. -/
structure Item where
  id : String
  name : String
  priceUzs : ℕ
  sizes : List String
  /-- A dictionary. -/
  stock : List (String × ℕ)
  category : String
  gender : String
  age : String
  colors : List String
  description : String
  photoUrl : String
deriving DecidableEq

variable (lib : Library)

/-! ### The cells of a row -/

/-- `ID_RE.fullmatch(pid)`. -/
def isId (pid : String) : Bool :=
  pid.toList.head?.any Char.isAlphanum && decide (pid.length ≤ 64) &&
    pid.toList.all fun c => c.isAlphanum || "_.-".toList.contains c

/-- `' '.join(text.split())`. -/
def joined (text : String) : String := String.ofList (Conversation.flattened text.toList)

/-- `_split`. -/
def split (cell : String) : List String :=
  ((cell.toList.splitOnP fun c => c == ';').map fun part => strip (String.ofList part)).filter fun part => part ≠ ""

/-- The spaces and signs `_whole` takes out of a number. -/
def isGap (c : Char) : Bool := c == ' ' || c.toNat == 0xa0 || c.toNat == 0x202f || c == '_'

/-- `int(digits)`. -/
def intOf (digits : List ℕ) : ℕ := digits.foldl (fun n d => 10 * n + d) 0

/-- `_whole`. -/
def whole (text what : String) (maximum : ℕ) : Except String ℕ :=
  let message := what ++ " butun, manfiy bo‘lmagan son bo‘lishi kerak: " ++ lib.repr text
  match ((strip text).toList.filter fun c => !isGap c).mapM lib.decimal with
  | none => .error message
  | some digits =>
    if 1 ≤ digits.length ∧ digits.length ≤ 13 ∧ intOf digits ≤ maximum then .ok (intOf digits) else .error message

/-- `part.rpartition(':')`, where there is a colon. -/
def rpartition (part : String) : Option (String × String) :=
  if part.toList.contains ':' then
    let after := part.toList.reverse.takeWhile fun c => c != ':'
    some (String.ofList ((part.toList.reverse.drop (after.length + 1)).reverse), String.ofList after.reverse)
  else none

/-- One part of `stock`. -/
def addStock (sizes : List String) (stock : List (String × ℕ)) (part : String) : Except String (List (String × ℕ)) := do
  let message := "stock: " ++ lib.repr part ++ " -- o‘lcham sizes ro‘yxatida bo‘lishi kerak (86:2 shaklida)"
  let halves ← need (rpartition part) message
  let size := strip halves.1
  ensure (size ∈ sizes) message
  ensure (size ∉ stock.map Prod.fst) ("stock: " ++ lib.repr size ++ " ikki marta yozilgan")
  let quantity ← whole lib halves.2 ("stock " ++ size) maxStock
  .ok (stock ++ [(size, quantity)])

/-- One of `category`, `gender` and `age`. -/
def label (row : Row) (key : String) : Except String String := do
  let value := joined (row.get key)
  ensure (value.length ≤ maxLabelChars) (key ++ " " ++ toString maxLabelChars ++ " belgidan oshmasin")
  .ok value

/-- `re.fullmatch(r'https://[^\s/@]+(/\S*)?', url)`. -/
def isHttps (url : String) : Bool :=
  "https://".toList.isPrefixOf url.toList &&
    let rest := url.toList.drop 8
    let front := rest.takeWhile fun c => c != '/'
    front != [] && (front.all fun c => !isSpace c && c != '@') &&
      (rest.dropWhile fun c => c != '/').all fun c => !isSpace c

/-- `_product`. -/
def product (row : Row) : Except String Item := do
  let pid := strip (row.get "id")
  ensure (isId pid = true) ("id noto‘g‘ri (harf/raqam/-_., 1..64): " ++ lib.repr pid)
  let name := joined (row.get "name")
  ensure (1 ≤ name.length ∧ name.length ≤ maxNameChars)
    ("name 1.." ++ toString maxNameChars ++ " belgi bo‘lishi kerak")
  let price ← whole lib (row.get "price_uzs") "price_uzs" maxPrice
  let sizes := split (row.get "sizes")
  ensure (sizes.length ≤ maxSizes ∧ ∀ s ∈ sizes, s.length ≤ maxSizeChars)
    ("sizes: ko‘pi bilan " ++ toString maxSizes ++ " ta, har biri " ++ toString maxSizeChars ++ " belgigacha")
  ensure (sizes.map lib.lower).Nodup "sizes: takrorlangan o‘lcham"
  let stock ← (split (row.get "stock")).foldlM (addStock lib sizes) []
  let category ← label row "category"
  let gender ← label row "gender"
  let age ← label row "age"
  let colors := split (row.get "colors")
  ensure (colors.length ≤ maxColors ∧ ∀ c ∈ colors, c.length ≤ maxLabelChars)
    ("colors: ko‘pi bilan " ++ toString maxColors ++ " ta, har biri " ++ toString maxLabelChars ++ " belgigacha")
  let description := strip (row.get "description")
  ensure (description.length ≤ maxDescriptionChars)
    ("description " ++ toString maxDescriptionChars ++ " belgidan oshmasin")
  let url := strip (row.get "photo_url")
  ensure (url = "" ∨ isHttps url = true ∧ url.length ≤ maxUrlChars) "photo_url faqat https:// manzil bo‘lishi kerak"
  .ok { id := pid, name := name, priceUzs := price, sizes := sizes, stock := stock, category := category,
        gender := gender, age := age, colors := colors, description := description, photoUrl := url }

/-! ### The whole text -/

/-- The import after some rows. -/
structure Import where
  products : List Item := []
  errors : List String := []
  /-- The ids so far, in lower case, with the numbers of their rows. -/
  seen : List (String × ℕ) := []

/-- A row of `csv.DictReader` that holds something. -/
def Row.isFilled (row : Row) : Bool := row.cells.any fun cell => strip cell.2 != ""

/-- An error of a row. -/
def Import.fail (s : Import) (number : ℕ) (message : String) : Import :=
  { s with errors := s.errors ++ ["qator " ++ toString number ++ ": " ++ message] }

/-- One row, by its number. -/
def Import.add (s : Import) (number : ℕ) (row : Row) : Import :=
  if row.surplus then s.fail number "sarlavhadan ko‘p ustun"
  else if !row.isFilled then s
  else
    match product lib row with
    | .error message => s.fail number message
    | .ok item =>
      match s.seen.lookup (lib.lower item.id) with
      | some first =>
        s.fail number ("id " ++ lib.repr item.id ++ " qator " ++ toString first ++ " dagi bilan takrorlanadi")
      | none => { s with products := s.products ++ [item], seen := s.seen ++ [(lib.lower item.id, number)] }

/-- The loop over the rows; a record that is empty is no row. -/
def readRows (header : List String) : ℕ → Import → List (Except String (List String)) → Except String Import
  | _, s, [] => .ok s
  | _, _, .error e :: _ => .error e
  | number, s, .ok [] :: rest => readRows header number s rest
  | number, s, .ok record :: rest =>
    if maxRows < number - 1 then .ok (s.fail number (toString maxRows ++ " dan ortiq mahsulot"))
    else readRows header (number + 1) (s.add lib number (rowOf header record)) rest

/-- `text.lstrip` of the byte order mark. -/
def withoutMark (text : String) : List Char := text.toList.dropWhile fun c => c.toNat == 0xfeff

/-- The delimiter, by the first line. -/
def delimiterOf (text : List Char) : Char :=
  let first := text.takeWhile fun c => c != '\n'
  if first.contains ';' && !first.contains ',' then ';' else ','

/-- The records of a text. -/
def recordsOf (text : String) : List (Except String (List String)) :=
  records (delimiterOf (withoutMark text)) {} (splitLines [] (withoutMark text))

/-- The header's columns, as they are compared. -/
def headerOf (record : List String) : List String := record.map fun h => lib.lower (strip h)

/-- What is wrong with a header. -/
def headerProblems (header : List String) : List String :=
  let missing := required.filter fun c => c ∉ header
  let unknown := header.filter fun h => h ∉ columns
  (if missing = [] then [] else ["yetishmayotgan ustun: " ++ ", ".intercalate missing]) ++
    (if unknown = [] then []
      else ["noma’lum ustun: " ++ ", ".intercalate unknown ++ " (ruxsat: " ++ ", ".intercalate columns ++ ")"]) ++
    (if header.Nodup then [] else ["takrorlangan ustun nomi"])

/-- `sorted(products, key=lambda p: p['id'])`. -/
def sorted (products : List Item) : List Item := products.insertionSort fun a b => a.id.toList ≤ b.id.toList

/-- `parse_catalog`: the products and the errors; `csv.Error` is raised. -/
def parseCatalog (text : String) : Except String (List Item × List String) := do
  let all := recordsOf text
  let first ← all.headD (.ok [])
  let header := headerOf lib first
  if headerProblems header ≠ [] then .ok ([], ["qator 1: " ++ "; ".intercalate (headerProblems header)])
  else
    let s ← readRows lib header 2 {} all.tail
    let errors := if s.products = [] ∧ s.errors = [] then ["qator 2: mahsulot yo‘q"] else s.errors
    .ok (if errors = [] then sorted s.products else [], errors)

/-! ### What is accepted -/

/-- The bounds of an item. -/
structure Item.Fits (item : Item) : Prop where
  sizes : ∀ s ∈ item.sizes, s.length ≤ maxSizeChars
  stock : ∀ entry ∈ item.stock, entry.1 ∈ item.sizes
  stockNodup : (item.stock.map Prod.fst).Nodup
  category : item.category.length ≤ maxLabelChars
  gender : item.gender.length ≤ maxLabelChars
  age : item.age.length ≤ maxLabelChars
  colors : item.colors.length ≤ maxColors
  color : ∀ c ∈ item.colors, c ≠ "" ∧ c.length ≤ maxLabelChars
  description : item.description.length ≤ maxDescriptionChars
  photoUrl : item.photoUrl = "" ∨ isHttps item.photoUrl = true
  photoUrlLength : item.photoUrl.length ≤ maxUrlChars

/-- The rows of a text: the records after the header that are not empty. -/
def rowsOf (text : String) : List Row :=
  match recordsOf text with
  | .ok first :: rest =>
    ((rest.filterMap Except.toOption).filter fun record => record ≠ []).map (rowOf (headerOf lib first))
  | _ => []

/-- The ids of the products are the keys of `seen`, and they differ. -/
structure Import.Distinct (s : Import) : Prop where
  keys : s.seen.map Prod.fst = s.products.map fun item => lib.lower item.id
  nodup : (s.seen.map Prod.fst).Nodup

variable {lib}

theorem ne_of_mem_split {cell part : String} (h : part ∈ split cell) : part ≠ "" := by
  have := (List.mem_filter.1 h).2
  simpa using this

variable {row : Row}

theorem label_eq_ok {key value : String} (h : label row key = .ok value) : value.length ≤ maxLabelChars := by
  simp only [label, bind_eq_ok, ensure_eq_ok, exists_unit] at h
  obtain ⟨hlength, hvalue⟩ := h
  obtain rfl := Except.ok.inj hvalue
  exact hlength

theorem addStock_eq_ok {sizes : List String} {stock stock' : List (String × ℕ)} {part : String}
    (h : addStock lib sizes stock part = .ok stock') :
    ∃ size quantity, stock' = stock ++ [(size, quantity)] ∧ size ∈ sizes ∧ size ∉ stock.map Prod.fst := by
  simp only [addStock, bind_eq_ok, need_eq_ok, ensure_eq_ok, exists_unit] at h
  obtain ⟨halves, -, hsize, hnew, quantity, -, heq⟩ := h
  exact ⟨_, _, (Except.ok.inj heq).symm, hsize, hnew⟩

/-- The whole of `stock`. -/
theorem stock_eq_ok {sizes parts : List String} {stock : List (String × ℕ)}
    (h : parts.foldlM (addStock lib sizes) [] = .ok stock) :
    (∀ entry ∈ stock, entry.1 ∈ sizes) ∧ (stock.map Prod.fst).Nodup := by
  refine foldlM_induct (I := fun stock : List (String × ℕ) => (∀ entry ∈ stock, entry.1 ∈ sizes) ∧
    (stock.map Prod.fst).Nodup) h ⟨fun _ hentry => absurd hentry List.not_mem_nil, List.nodup_nil⟩ ?_
  rintro s t part - ⟨hsizes, hnodup⟩ hstep
  obtain ⟨size, quantity, rfl, hsize, hnew⟩ := addStock_eq_ok hstep
  constructor
  · intro entry hentry
    rcases List.mem_append.1 hentry with hentry | hentry
    · exact hsizes entry hentry
    · obtain rfl := List.mem_singleton.1 hentry
      exact hsize
  · rw [List.map_append, List.map_cons, List.map_nil, List.nodup_append]
    refine ⟨hnodup, List.nodup_singleton _, ?_⟩
    rintro a ha b hb rfl
    obtain rfl := List.mem_singleton.1 hb
    exact hnew ha

theorem product_eq_ok {item : Item} (h : product lib row = .ok item) :
    item.Fits ∧ item.photoUrl = strip (row.get "photo_url") := by
  simp only [product, bind_eq_ok, ensure_eq_ok, exists_unit] at h
  obtain ⟨-, -, price, -, hsizes, -, stock, hstock, category, hcategory, gender, hgender, age, hage, hcolors,
    hdescription, hurl, hitem⟩ := h
  obtain rfl := Except.ok.inj hitem
  have hstock := stock_eq_ok hstock
  refine ⟨?_, rfl⟩
  exact {
    sizes := hsizes.2
    stock := hstock.1
    stockNodup := hstock.2
    category := label_eq_ok hcategory
    gender := label_eq_ok hgender
    age := label_eq_ok hage
    colors := hcolors.1
    color := fun c hc => ⟨ne_of_mem_split hc, hcolors.2 c hc⟩
    description := hdescription
    photoUrl := hurl.imp_right And.left
    photoUrlLength := by
      rcases hurl with hurl | hurl
      · show (strip _).length ≤ _
        rw [hurl]
        exact Nat.zero_le _
      · exact hurl.2 }

/-! ### The loop -/

@[simp] theorem Import.fail_errors (s : Import) (number : ℕ) (message : String) : (s.fail number message).errors ≠ [] := by
  simp [Import.fail]

variable {s : Import} {number : ℕ}

/-- A row that brings no error is blank, or brings an item of a new id. -/
theorem Import.add_errors (h : (s.add lib number row).errors = []) :
    s.errors = [] ∧ (row.isFilled = false ∧ s.add lib number row = s ∨
      row.isFilled = true ∧ ∃ item, product lib row = .ok item ∧ lib.lower item.id ∉ s.seen.map Prod.fst ∧
        s.add lib number row =
          { s with products := s.products ++ [item], seen := s.seen ++ [(lib.lower item.id, number)] }) := by
  unfold Import.add at h ⊢
  split_ifs at h ⊢ with hsurplus hblank
  · exact absurd h (s.fail_errors _ _)
  · exact ⟨h, .inl ⟨by simpa using hblank, rfl⟩⟩
  · cases hproduct : product lib row with
    | error message =>
      rw [hproduct] at h
      exact absurd h (s.fail_errors _ _)
    | ok item =>
      rw [hproduct] at h
      cases hseen : s.seen.lookup (lib.lower item.id) with
      | some first =>
        simp only [hseen] at h
        exact absurd h (s.fail_errors _ _)
      | none =>
        simp only [hseen] at h ⊢
        refine ⟨h, .inr ⟨by simpa using hblank, item, rfl, fun hmem => ?_, rfl⟩⟩
        obtain ⟨entry, hentry, hkey⟩ := List.mem_map.1 hmem
        have := List.lookup_eq_none_iff.1 hseen entry hentry
        simp [hkey] at this

theorem Import.add_distinct (hs : s.Distinct lib) (h : (s.add lib number row).errors = []) :
    (s.add lib number row).Distinct lib := by
  obtain ⟨-, ⟨-, heq⟩ | ⟨-, item, -, hnew, heq⟩⟩ := Import.add_errors h
  · rwa [heq]
  · rw [heq]
    constructor
    · simp [hs.keys]
    · rw [List.map_append, List.map_cons, List.map_nil, List.nodup_append]
      refine ⟨hs.nodup, List.nodup_singleton _, ?_⟩
      rintro a ha b hb rfl
      obtain rfl := List.mem_singleton.1 hb
      exact hnew ha

/-- The rows of the records that are left. -/
def rowsFrom (header : List String) (rest : List (Except String (List String))) : List Row :=
  ((rest.filterMap Except.toOption).filter fun record => record ≠ []).map (rowOf header)

/-- A run without errors: one item for each row that is filled, and ids that differ. -/
theorem readRows_eq_ok {header : List String} {t : Import} {rest : List (Except String (List String))}
    (h : readRows lib header number s rest = .ok t) (ht : t.errors = []) :
    s.errors = [] ∧ (s.Distinct lib → t.Distinct lib) ∧ ∃ items, t.products = s.products ++ items ∧
      List.Forall₂ (fun row item => product lib row = .ok item) ((rowsFrom header rest).filter Row.isFilled) items := by
  induction rest generalizing number s with
  | nil =>
    obtain rfl := Except.ok.inj h
    exact ⟨ht, id, [], (List.append_nil _).symm, .nil⟩
  | cons record rest ih =>
    cases record with
    | error e => cases h
    | ok record =>
      cases record with
      | nil => exact ih h
      | cons cell cells =>
        simp only [readRows] at h
        split_ifs at h with hmany
        · obtain rfl := Except.ok.inj h
          exact absurd ht (s.fail_errors _ _)
        · obtain ⟨hadd, hdistinct, items, hitems, hrows⟩ := ih h
          have hrowsFrom : rowsFrom header (.ok (cell :: cells) :: rest) =
              rowOf header (cell :: cells) :: rowsFrom header rest := rfl
          obtain ⟨hs, hcase⟩ := Import.add_errors hadd
          refine ⟨hs, fun hs => hdistinct (Import.add_distinct hs hadd), ?_⟩
          rw [hrowsFrom, List.filter_cons]
          rcases hcase with ⟨hblank, heq⟩ | ⟨hfilled, item, hitem, -, heq⟩
          · rw [hblank]
            rw [heq] at hitems
            exact ⟨items, hitems, hrows⟩
          · rw [hfilled]
            rw [heq] at hitems
            exact ⟨item :: items, by simpa using hitems, .cons hitem hrows⟩

instance : Std.Total fun a b : Item => a.id.toList ≤ b.id.toList := ⟨fun a b => le_total a.id.toList b.id.toList⟩

instance : IsTrans Item fun a b => a.id.toList ≤ b.id.toList := ⟨fun _ _ _ => le_trans⟩

theorem sorted_sorted (products : List Item) : sorted (sorted products) = sorted products :=
  (List.pairwise_insertionSort _ products).insertionSort_eq

/-- What an accepted text gives: items in the order of their ids, one for each row that is filled, with no id twice. -/
structure Accepts (lib : Library) (text : String) (items : List Item) : Prop where
  nonempty : items ≠ []
  sorted : sorted items = items
  row : ∀ item ∈ items, ∃ row ∈ rowsOf lib text, product lib row = .ok item
  item : ∀ row ∈ rowsOf lib text, row.isFilled = true → ∃ item ∈ items, product lib row = .ok item
  nodup : (items.map Item.id).Nodup

theorem parseCatalog_eq_ok {text : String} {items : List Item} (h : parseCatalog lib text = .ok (items, [])) :
    Accepts lib text items := by
  simp only [parseCatalog, bind_eq_ok] at h
  obtain ⟨first, hfirst, h⟩ := h
  split_ifs at h with hproblems
  · cases h
  · simp only [bind_eq_ok] at h
    obtain ⟨s, hs, h⟩ := h
    obtain ⟨hitems, herrors⟩ := Prod.mk.inj (Except.ok.inj h)
    rw [herrors, if_pos rfl] at hitems
    split_ifs at herrors with hnone
    have hrows : rowsFrom (headerOf lib first) (recordsOf text).tail = rowsOf lib text := by
      unfold rowsOf
      cases hall : recordsOf text with
      | nil =>
        rfl
      | cons record rest =>
        rw [hall] at hfirst
        obtain rfl : record = .ok first := hfirst
        rfl
    obtain ⟨-, hdistinct, kept, hkept, hforall⟩ := readRows_eq_ok hs herrors
    rw [hrows] at hforall
    obtain rfl : s.products = kept := hkept
    have hperm : (sorted s.products).Perm s.products := List.perm_insertionSort _ _
    subst hitems
    refine ⟨?_, ?_, ?_, ?_, ?_⟩
    · intro hempty
      rw [hempty] at hperm
      exact hnone ⟨List.nil_perm.1 hperm, herrors⟩
    · exact sorted_sorted _
    · intro item hitem
      obtain ⟨row, hrow, hproduct⟩ := exists_of_mem_right hforall (hperm.mem_iff.1 hitem)
      exact ⟨row, (List.mem_filter.1 hrow).1, hproduct⟩
    · intro row hrow hfilled
      obtain ⟨item, hitem, hproduct⟩ := exists_of_mem_right hforall.flip (List.mem_filter.2 ⟨hrow, hfilled⟩)
      exact ⟨item, hperm.mem_iff.2 hitem, hproduct⟩
    · have hd := hdistinct ⟨rfl, List.nodup_nil⟩
      have hnodup := hd.nodup
      rw [hd.keys] at hnodup
      refine ((hperm.map Item.id).nodup_iff).2 (List.Nodup.of_map lib.lower ?_)
      rwa [List.map_map]

end AgentPlatform.Catalog
