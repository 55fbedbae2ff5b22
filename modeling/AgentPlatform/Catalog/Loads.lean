import AgentPlatform.Catalog.Render
import AgentPlatform.Packs.Urls

/-!
# An imported catalogue in the loader

What the script writes is read by the loader of packs: `products.yaml` is a mapping with a list of products, each is
validated as a `Product`, and no id comes twice.

Everything the script accepts reads back as it was, and passes, but for one thing: the script takes a photo's address by its
shape, and the loader looks for a host in it (`loads_iff`).
-/

namespace AgentPlatform.Catalog

open Yaml Outcome

/-! ### The loader's side -/

section Loader

variable (entries : List (String × Node))

/-- A field that is a text. -/
def textField (key : String) (default : Option String) : Except String String :=
  match entries.lookup key, default with
  | some (.str text), _ => .ok text
  | some _, _ => .error (key ++ ": Input should be a valid string")
  | none, some text => .ok text
  | none, none => .error (key ++ ": Field required")

/-- An element that is a text. -/
def asText : Node → Except String String
  | .str text => .ok text
  | _ => .error "Input should be a valid string"

/-- A value that is an integer. -/
def asInt : Node → Except String ℤ
  | .int n => .ok n
  | _ => .error "Input should be a valid integer"

/-- A field that is a list. -/
def listField (key : String) : Except String (List Node) :=
  match entries.lookup key with
  | some (.seq items) => .ok items
  | some _ => .error (key ++ ": Input should be a valid list")
  | none => .ok []

/-- The field `stock`. -/
def stockField : Except String (List (String × ℤ)) :=
  match entries.lookup "stock" with
  | some (.map stock) => stock.mapM fun e => do .ok (e.1, ← asInt e.2)
  | some _ => .error "stock: Input should be a valid dictionary"
  | none => .ok []

/-- A dictionary of the types that `Product` declares; a key that it does not declare is an error. -/
def readEntries : Except String (Packs.Product Node) := do
  ensure (∀ e ∈ entries, e.1 ∈ columns) "Extra inputs are not permitted"
  let id ← textField entries "id" none
  let name ← textField entries "name" none
  let price ← need (entries.lookup "price_uzs") "price_uzs: Field required"
  let price ← asInt price
  let sizes ← listField entries "sizes"
  let description ← textField entries "description" (some "")
  let category ← textField entries "category" (some "")
  let gender ← textField entries "gender" (some "")
  let age ← textField entries "age" (some "")
  let colors ← listField entries "colors"
  let colors ← colors.mapM asText
  let stock ← stockField entries
  let photoUrl ← textField entries "photo_url" (some "")
  .ok { id := id, name := name, priceUzs := price, sizes := sizes, description := description, category := category,
        gender := gender, age := age, colors := colors, stock := stock, photoUrl := photoUrl }

end Loader

/-- A product of the list. -/
def readProduct : Node → Except String (Packs.Product Node)
  | .map entries => readEntries entries
  | _ => .error "Input should be a valid dictionary"

/-- The products of `products.yaml`. -/
def readProducts (text : String) : Except String (List (Packs.Product Node)) :=
  match load text with
  | some (.map entries) =>
    match entries.lookup "products" with
    | some (.seq items) => items.mapM readProduct
    | some _ => .error "products.yaml products list bo'lishi kerak"
    | none => .ok []
  | _ => .error "products.yaml xato"

/-- An item as a product. -/
def Item.toProduct (item : Item) : Packs.Product Node where
  id := item.id
  name := item.name
  priceUzs := item.priceUzs
  sizes := item.sizes.map .str
  description := item.description
  category := item.category
  gender := item.gender
  age := item.age
  colors := item.colors
  stock := item.stock.map fun e => (e.1, e.2)
  photoUrl := item.photoUrl

/-- `str` of a value, where `other` is `str` of what is no text. -/
def productLibrary (urls : Packs.UrlLibrary) (other : Node → String) : Packs.ProductLibrary Node where
  str
    | .str text => text
    | node => other node
  urlsplit := Packs.urlsplit urls

variable (lib : Library) (urls : Packs.UrlLibrary) (other : Node → String)

/-- What an import is for: the products pass the loader's validation, their ids differ, and what is written reads back as
the products. -/
structure Loads (items : List Item) : Prop where
  valid : ∀ item ∈ items, item.toProduct.modelValidate (productLibrary urls other) = .ok ()
  unique : ∀ name, Packs.checkUnique "product id" name ((items.map Item.toProduct).map Packs.Product.id) = .ok ()
  readsBack : readProducts (renderYaml items) = .ok (items.map Item.toProduct)

/-! ### Reading back -/

section ReadsBack

variable {item : Item}

theorem lookup_filled {fields : List (String × String)} (h : (fields.map Prod.fst).Nodup) (key : String) :
    ((filled fields).map fun field => (field.1, Node.str field.2)).lookup key =
      (fields.lookup key).bind fun text => if text = "" then none else some (.str text) := by
  induction fields with
  | nil => rfl
  | cons field fields ih =>
    rw [List.map_cons, List.nodup_cons] at h
    have ih := ih h.2
    unfold filled at ih ⊢
    by_cases hkey : key = field.1
    · subst hkey
      have hnone : fields.lookup field.1 = none := by
        rw [List.lookup_eq_none_iff]
        intro other hother
        rw [bne_iff_ne]
        rintro heq
        exact h.1 (heq ▸ List.mem_map_of_mem hother)
      have hself : (field :: fields).lookup field.1 = some field.2 := List.lookup_cons_self
      rw [hself]
      by_cases hempty : field.2 = ""
      · rw [List.filter_cons_of_neg (by simpa using hempty), ih, hnone, Option.bind_some, if_pos hempty]
        rfl
      · rw [List.filter_cons_of_pos (by simpa using hempty), List.map_cons, List.lookup_cons_self]
        simp [hempty]
    · have hbeq : (key == field.1) = false := by simpa using hkey
      have hskip : (field :: fields).lookup key = fields.lookup key := by
        rw [List.lookup_cons, hbeq]
      rw [hskip, ← ih]
      by_cases hempty : field.2 = ""
      · rw [List.filter_cons_of_neg (by simpa using hempty)]
      · rw [List.filter_cons_of_pos (by simpa using hempty), List.map_cons]
        simp only [List.lookup_cons, hbeq]

theorem lookup_optional (c : Prop) [Decidable c] (key own : String) (value : Node) :
    (if c then [] else [(own, value)]).lookup key = if c then none else if key = own then some value else none := by
  split_ifs with hc hkey
  · rfl
  · rw [hkey, List.lookup_cons_self]
  · have hbeq : (key == own) = false := by simpa using hkey
    simp only [List.lookup_cons, hbeq, List.lookup_nil]

theorem textField_of_lookup {entries : List (String × Node)} {key text : String}
    (h : entries.lookup key = if text = "" then none else some (.str text)) :
    textField entries key (some "") = .ok text := by
  unfold textField
  rw [h]
  by_cases hempty : text = ""
  · subst hempty
    rfl
  · rw [if_neg hempty]

theorem lookup_entries (item : Item) (key : String) : item.entries.lookup key =
    (((([("id", Node.str item.id), ("name", .str item.name), ("price_uzs", .int item.priceUzs),
      ("sizes", .seq (item.sizes.map .str))].lookup key).or
      (if item.stock = [] then none else
        if key = "stock" then some (.map (item.stock.map fun e => (e.1, .int e.2))) else none)).or
      (([("category", item.category), ("gender", item.gender), ("age", item.age)].lookup key).bind
        fun text => if text = "" then none else some (.str text))).or
      (if item.colors = [] then none else if key = "colors" then some (.seq (item.colors.map .str)) else none)).or
      (([("description", item.description), ("photo_url", item.photoUrl)].lookup key).bind
        fun text => if text = "" then none else some (.str text)) := by
  simp only [Item.entries, List.lookup_append]
  rw [lookup_filled (by simp), lookup_filled (by simp), lookup_optional, lookup_optional]

theorem readEntries_entries (item : Item) : readEntries item.entries = .ok item.toProduct := by
  have hkeys : ∀ e ∈ item.entries, e.1 ∈ columns := by
    intro e he
    rw [entries_eq] at he
    obtain ⟨p, hp, rfl⟩ := List.mem_map.1 he
    exact (keys_sublist item).subset (List.mem_map_of_mem hp)
  have hid : textField item.entries "id" none = .ok item.id := rfl
  have hname : textField item.entries "name" none = .ok item.name := rfl
  have hprice : item.entries.lookup "price_uzs" = some (.int item.priceUzs) := rfl
  have hsizes : listField item.entries "sizes" = .ok (item.sizes.map .str) := rfl
  have hcategory : textField item.entries "category" (some "") = .ok item.category :=
    textField_of_lookup (by rw [lookup_entries]; simp [List.lookup_cons])
  have hgender : textField item.entries "gender" (some "") = .ok item.gender :=
    textField_of_lookup (by rw [lookup_entries]; simp [List.lookup_cons])
  have hage : textField item.entries "age" (some "") = .ok item.age :=
    textField_of_lookup (by rw [lookup_entries]; simp [List.lookup_cons])
  have hdescription : textField item.entries "description" (some "") = .ok item.description :=
    textField_of_lookup (by rw [lookup_entries]; simp [List.lookup_cons])
  have hphoto : textField item.entries "photo_url" (some "") = .ok item.photoUrl :=
    textField_of_lookup (by rw [lookup_entries]; simp [List.lookup_cons])
  have hcolors : listField item.entries "colors" = .ok (item.colors.map .str) := by
    have hlookup : item.entries.lookup "colors" =
        if item.colors = [] then none else some (.seq (item.colors.map .str)) := by
      rw [lookup_entries]
      simp [List.lookup_cons]
    unfold listField
    rw [hlookup]
    by_cases hempty : item.colors = []
    · rw [if_pos hempty, hempty]
      rfl
    · rw [if_neg hempty]
  have htexts : (item.colors.map Node.str).mapM asText = .ok item.colors := by
    rw [mapM_eq_ok, List.forall₂_map_left_iff]
    exact List.forall₂_same.2 fun _ _ => rfl
  have hstock : stockField item.entries = .ok (item.stock.map fun e => (e.1, e.2)) := by
    have hlookup : item.entries.lookup "stock" =
        if item.stock = [] then none else some (.map (item.stock.map fun e => (e.1, .int e.2))) := by
      rw [lookup_entries]
      simp [List.lookup_cons]
    unfold stockField
    rw [hlookup]
    by_cases hempty : item.stock = []
    · rw [if_pos hempty, hempty]
      rfl
    · rw [if_neg hempty]
      show List.mapM _ _ = _
      rw [mapM_eq_ok, List.forall₂_map_left_iff, List.forall₂_map_right_iff]
      exact List.forall₂_same.2 fun _ _ => rfl
  unfold readEntries
  rw [hid, hname, hprice, hsizes, hdescription, hcategory, hgender, hage, hcolors, hstock, hphoto,
    ensure, if_pos hkeys]
  show (do
    let colors ← (item.colors.map Node.str).mapM asText
    Except.ok _) = _
  rw [htexts]
  rfl

theorem readProducts_renderYaml {items : List Item} (hne : items ≠ []) (h : ∀ item ∈ items, item.Fits) :
    readProducts (renderYaml items) = .ok ((sorted items).map Item.toProduct) := by
  unfold readProducts
  rw [load_renderYaml hne h]
  show ((sorted items).map fun item => Node.map item.entries).mapM readProduct = _
  rw [mapM_eq_ok, List.forall₂_map_left_iff, List.forall₂_map_right_iff]
  exact List.forall₂_same.2 fun item _ => readEntries_entries item

end ReadsBack

/-! ### The loader's validation -/

section Validation

variable {urls other} {item : Item}

theorem exists_isHttps {url : String} (h : isHttps url = true) : ∃ front path, Packs.IsHttps url front path := by
  simp only [isHttps, Bool.and_eq_true, bne_iff_ne, List.all_eq_true] at h
  obtain ⟨hscheme, ⟨-, hfront⟩, hpath⟩ := h
  obtain ⟨rest, hrest⟩ := List.isPrefixOf_iff_prefix.1 hscheme
  have hdrop : url.toList.drop 8 = rest := by
    rw [← hrest]
    rfl
  rw [hdrop] at hfront hpath
  refine ⟨rest.takeWhile fun c => c != '/', rest.dropWhile fun c => c != '/', ?_, fun c hc => ?_, ?_, fun c hc => ?_⟩
  · rw [List.takeWhile_append_dropWhile, hrest]
  · have hboth := hfront c hc
    exact ⟨by simpa using hboth.1, by simpa using List.mem_takeWhile_imp hc, hboth.2⟩
  · cases hrest : rest.dropWhile fun c => c != '/' with
    | nil => exact .inl rfl
    | cons c tail =>
      have hc := List.head?_dropWhile_not (fun c => c != '/') rest
      rw [hrest] at hc
      refine .inr ?_
      simpa using hc
  · simpa using hpath c hc

/-- An item within the bounds passes the model's check where its photo's address names a host. -/
theorem modelValidate_toProduct_iff (h : item.Fits) :
    item.toProduct.modelValidate (productLibrary urls other) = .ok () ↔
      (item.photoUrl ≠ "" → Packs.NamesHost urls item.photoUrl) := by
  have hphoto : Packs.Product.checkPhoto (productLibrary urls other) item.photoUrl = .ok () ↔
      (item.photoUrl ≠ "" → Packs.NamesHost urls item.photoUrl) := by
    by_cases hempty : item.photoUrl = ""
    · rw [Packs.Product.checkPhoto, if_pos hempty]
      exact ⟨fun _ hne => absurd hempty hne, fun _ => rfl⟩
    · obtain ⟨front, path, hshape⟩ := exists_isHttps (h.photoUrl.resolve_left hempty)
      rw [productLibrary, Packs.checkPhoto_https_iff hshape]
      exact ⟨fun hhost _ => hhost, fun hhost => hhost hempty⟩
  rw [Packs.Product.modelValidate_eq_ok_iff]
  constructor
  · intro hvalid
    exact hphoto.1 hvalid.photo
  · intro hhost
    refine ⟨⟨h.description, h.category, h.gender, h.age, h.colors, fun c hc => ?_, h.photoUrlLength⟩, ?_, ?_,
      hphoto.2 hhost⟩
    · obtain ⟨hne, hlength⟩ := h.color c hc
      refine ⟨?_, hlength⟩
      rw [Nat.one_le_iff_ne_zero]
      exact fun hzero => hne (String.length_eq_zero_iff.1 hzero)
    · intro e he
      obtain ⟨f, -, rfl⟩ := List.mem_map.1 he
      exact Int.natCast_nonneg f.2
    · intro e he
      obtain ⟨f, hf, rfl⟩ := List.mem_map.1 he
      have hmem := h.stock f hf
      show f.1 ∈ (item.sizes.map Node.str).map _
      rw [List.map_map]
      exact List.mem_map.2 ⟨f.1, hmem, rfl⟩

end Validation

theorem strip_get_of_not_isFilled {row : Row} (h : row.isFilled = false) (column : String) :
    strip (row.get column) = "" := by
  unfold Row.get
  cases hlookup : row.cells.lookup column with
  | none => rfl
  | some cell =>
    obtain ⟨l₁, l₂, hcells, -⟩ := List.lookup_eq_some_iff.1 hlookup
    rw [Row.isFilled, List.any_eq_false] at h
    have := h (column, cell) (by rw [hcells]; simp)
    simpa using this

/-- An import loads where every address of a photo names a host. -/
theorem loads_iff {text : String} {items : List Item} (h : parseCatalog lib text = .ok (items, [])) :
    Loads urls other items ↔ ∀ row ∈ rowsOf lib text,
      strip (row.get "photo_url") ≠ "" → Packs.NamesHost urls (strip (row.get "photo_url")) := by
  have haccepts := parseCatalog_eq_ok h
  have hfits : ∀ item ∈ items, item.Fits := by
    intro item hitem
    obtain ⟨row, -, hproduct⟩ := haccepts.row item hitem
    exact (product_eq_ok hproduct).1
  constructor
  · intro hloads row hrow hne
    have hfilled : row.isFilled = true := by
      by_contra hblank
      rw [Bool.not_eq_true] at hblank
      exact hne (strip_get_of_not_isFilled hblank _)
    obtain ⟨item, hitem, hproduct⟩ := haccepts.item row hrow hfilled
    obtain ⟨hfit, hphoto⟩ := product_eq_ok hproduct
    have hhost := (modelValidate_toProduct_iff hfit).1 (hloads.valid item hitem)
    rw [hphoto] at hhost
    exact hhost hne
  · intro hhosts
    refine ⟨fun item hitem => ?_, fun name => ?_, ?_⟩
    · obtain ⟨row, hrow, hproduct⟩ := haccepts.row item hitem
      obtain ⟨hfit, hphoto⟩ := product_eq_ok hproduct
      rw [modelValidate_toProduct_iff hfit, hphoto]
      exact hhosts row hrow
    · rw [Packs.checkUnique, ensure, if_pos]
      rw [List.map_map]
      exact haccepts.nodup
    · rw [readProducts_renderYaml haccepts.nonempty hfits, haccepts.sorted]

/-! ### A catalogue of one product -/

/-- Python's library on ASCII texts in lower case. -/
def asciiLibrary : Library where
  lower text := text
  repr text := "'" ++ text ++ "'"
  decimal c := if c.isDigit then some (c.toNat - 48) else none

def asciiUrls : Packs.UrlLibrary where
  lower text := text
  lower_ne _ h := h
  normalize text := text
  checkBracketedHost _ := .error "An IPv4 address cannot be in brackets"

/-- A catalogue of one product with the address of a photo. -/
def oneProduct (url : String) : String :=
  "id,name,price_uzs,sizes,stock,photo_url\na1,dress,99 000,86;92,86:2," ++ url ++ "\n"

/-- The product. -/
def oneItem (url : String) : Item where
  id := "a1"
  name := "dress"
  priceUzs := 99000
  sizes := ["86", "92"]
  stock := [("86", 2)]
  category := ""
  gender := ""
  age := ""
  colors := []
  description := ""
  photoUrl := url

theorem parseCatalog_oneProduct : ∀ url ∈ ["https://shop.uz/a1.jpg", "https://:443"],
    parseCatalog asciiLibrary (oneProduct url) = .ok ([oneItem url], []) := by
  decide +kernel

theorem loads_oneProduct : Loads asciiUrls (fun _ => "") [oneItem "https://shop.uz/a1.jpg"] := by
  refine (loads_iff asciiLibrary asciiUrls (fun _ => "") (parseCatalog_oneProduct _ (by decide))).2 ?_
  have hurls : (rowsOf asciiLibrary (oneProduct "https://shop.uz/a1.jpg")).map
      (fun row => strip (row.get "photo_url")) = ["https://shop.uz/a1.jpg"] := by decide +kernel
  intro row hrow _
  have hurl := List.mem_map_of_mem (f := fun row : Row => strip (row.get "photo_url")) hrow
  rw [hurls] at hurl
  rw [List.mem_singleton.1 hurl]
  exact ⟨by decide +kernel, by decide +kernel, by decide +kernel⟩

/-- The script accepts an address without a host, and the loader does not. -/
theorem not_loads_port : parseCatalog asciiLibrary (oneProduct "https://:443") = .ok ([oneItem "https://:443"], []) ∧
    ¬Loads asciiUrls (fun _ => "") [oneItem "https://:443"] := by
  refine ⟨parseCatalog_oneProduct _ (by decide), fun hloads => ?_⟩
  have hvalid := hloads.valid _ List.mem_cons_self
  have hphoto := ((Packs.Product.modelValidate_eq_ok_iff _).1 hvalid).photo
  revert hphoto
  decide +kernel

end AgentPlatform.Catalog
