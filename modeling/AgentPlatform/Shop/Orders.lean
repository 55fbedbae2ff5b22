import AgentPlatform.Conversation.Prompt
import AgentPlatform.Packs.Products
import AgentPlatform.Shop.Phones
import AgentPlatform.Texts

/-!
# Order drafts

`_find` and `order_draft` of `shop_tools.py`, over a catalogue that the loader accepts. An order is checked against the
shop and priced here; what is wrong with it is reported as problems, and a draft without problems is valid. Products and
sizes are found by their first match without regard to case, while the loader only refuses ids that are the same to the
letter: a draft is for what was asked exactly where no product before the asked one matches it too, and where the size
that is found is not longer than the draft keeps (`forWhatWasAsked_iff`).
-/

namespace AgentPlatform.Shop

open Packs

def minQty : ℤ := 1

def maxQty : ℤ := 99

def minNameChars : ℕ := 2

def maxNameChars : ℕ := 100

def minAddressChars : ℕ := 5

def maxAddressChars : ℕ := 300

def maxProductNameChars : ℕ := 120

def maxSizeChars : ℕ := 16

def maxBranches : ℕ := 10

def maxBranchNameChars : ℕ := 120

def maxBranchAddressChars : ℕ := 200

def currency : String := "UZS"

/-- What the tool takes from Python's library. -/
structure Library (S : Type) where
  products : ProductLibrary S
  unicode : Decimals
  /-- `text.lower()`. -/
  lower : String → String
  /-- `str(value)` of a value that is no text. -/
  text : Json → String

/-- What is read of a branch. -/
structure Branch where
  id : String
  name : String
  address : String

inductive Delivery
  | branch (branchId branchName address : String)
  | address (address : String)

structure Draft where
  currency : String
  qty : Option ℤ
  productId : Option String
  productName : Option String
  size : Option String
  unitPriceUzs : Option ℤ
  totalUzs : Option ℤ
  customerName : Option String
  phone : Option String
  delivery : Option Delivery

inductive Problem
  | qtyOutOfRange (min max : ℤ)
  | unknownProduct
  | sizeRequired (available : List String)
  | sizeUnavailable (available : List String)
  | outOfStock (availableQty : ℤ) (available : List String)
  | nameRequired
  | invalidPhone (format : String)
  | deliveryInvalid (branches : List String)

structure Result where
  draft : Draft
  problems : List Problem

def Result.valid (r : Result) : Bool := r.problems.isEmpty

variable {S : Type} (lib : Library S)

/-- `text[:most]`. -/
def cut (most : ℕ) (text : String) : String := String.ofList (text.toList.take most)

/-- `str(value)`. -/
def pyStr : Json → String
  | .str text => text
  | value => lib.text value

/-- `text.strip().lower()`. -/
def folded (text : String) : String := lib.lower (strip text)

/-- `_find`. -/
def find {α : Type} (idOf : α → String) (items : List α) (wanted : Json) : Option α :=
  match wanted with
  | .str text =>
    if folded lib text = "" then none else items.find? fun item => folded lib (idOf item) = folded lib text
  | _ => none

/-! ### What is asked -/

def askedQty (args : Json) : Option ℤ :=
  match args.getD "qty" .null with
  | .int qty => if minQty ≤ qty ∧ qty ≤ maxQty then some qty else none
  | _ => none

/-- `str(wanted).strip()`. -/
def askedSize (args : Json) : String := strip (pyStr lib (args.getD "size" (.str "")))

/-- `' '.join(str(args.get(key, '')).split())`. -/
def askedText (args : Json) (key : String) : String :=
  String.ofList (Conversation.flattened (pyStr lib (args.getD key (.str ""))).toList)

def askedName (args : Json) : Option String :=
  let name := askedText lib args "customer_name"
  if minNameChars ≤ name.length ∧ name.length ≤ maxNameChars then some name else none

def askedPhone (args : Json) : Option String := normalizeUzPhone lib.unicode (args.getD "phone" .null)

def askedDelivery (branches : List Branch) (args : Json) : Option Delivery :=
  let delivery := askedText lib args "delivery"
  match find lib Branch.id branches (.str delivery) with
  | some branch => some (.branch branch.id (cut maxBranchNameChars branch.name) (cut maxBranchAddressChars branch.address))
  | none =>
    if minAddressChars ≤ delivery.length ∧ delivery.length ≤ maxAddressChars then some (.address delivery) else none

/-! ### The product -/

def sizesOf (p : Product S) : List String := p.sizes.map lib.products.str

def inStock (p : Product S) : List String :=
  (sizesOf lib p).filter fun size => p.stock.isEmpty || decide (0 < stockOf p.stock size)

/-- The first declared size that is the asked one without regard to case. -/
def chosenSize (p : Product S) (args : Json) : Option String :=
  (sizesOf lib p).find? fun size => lib.lower size = lib.lower (askedSize lib args)

def sizeProblems (p : Product S) (args : Json) : List Problem :=
  if (sizesOf lib p).isEmpty then []
  else if askedSize lib args = "" then [.sizeRequired (inStock lib p)]
  else
    match chosenSize lib p args, askedQty args with
    | none, _ => [.sizeUnavailable (inStock lib p)]
    | some size, some qty =>
      if p.stock ≠ [] ∧ stockOf p.stock size < qty then
        [.outOfStock (max (stockOf p.stock size) 0) (inStock lib p)]
      else []
    | some _, none => []

def draftSize (p : Product S) (args : Json) : String :=
  if (sizesOf lib p).isEmpty then "" else cut maxSizeChars ((chosenSize lib p args).getD "")

/-- `order_draft`. -/
def orderDraft (products : List (Product S)) (branches : List Branch) (args : Json) : Result :=
  let product := find lib Product.id products (args.getD "product_id" .null)
  let qty := askedQty args
  { draft :=
      { currency := currency
        qty := qty
        productId := product.map Product.id
        productName := product.map fun p => cut maxProductNameChars p.name
        size := product.map fun p => draftSize lib p args
        unitPriceUzs := product.map Product.priceUzs
        totalUzs := product.bind fun p => qty.map fun qty => p.priceUzs * qty
        customerName := askedName lib args
        phone := askedPhone lib args
        delivery := askedDelivery lib branches args }
    problems :=
      (if qty.isNone then [.qtyOutOfRange minQty maxQty] else []) ++
        (match product with
          | none => [.unknownProduct]
          | some p => sizeProblems lib p args) ++
        (if (askedName lib args).isNone then [.nameRequired] else []) ++
        (if (askedPhone lib args).isNone then [.invalidPhone "+998XXXXXXXXX"] else []) ++
        (if (askedDelivery lib branches args).isNone then
          [.deliveryInvalid ((branches.take maxBranches).map Branch.id)] else []) }

/-! ### What is found -/

/-- The first of some items that is of a kind. -/
def IsFirst {α : Type} (p : α → Prop) (items : List α) (x : α) : Prop :=
  p x ∧ ∃ before after, items = before ++ x :: after ∧ ∀ y ∈ before, ¬p y

theorem find?_eq_some_iff_isFirst {α : Type} {p : α → Prop} [DecidablePred p] {items : List α} {x : α} :
    items.find? (fun y => p y) = some x ↔ IsFirst p items x := by
  rw [List.find?_eq_some_iff_append]
  simp [IsFirst]

/-- A product, found by the text of its id. -/
def Found (products : List (Product S)) (args : Json) (p : Product S) : Prop :=
  ∃ text, args.getD "product_id" .null = .str text ∧ folded lib text ≠ "" ∧
    IsFirst (fun q => folded lib q.id = folded lib text) products p

/-- A declared size, found by its text. -/
def FoundSize (p : Product S) (args : Json) (size : String) : Prop :=
  IsFirst (fun size => lib.lower size = lib.lower (askedSize lib args)) (sizesOf lib p) size

variable {lib} {products : List (Product S)} {branches : List Branch} {args : Json}

variable {p : Product S}

theorem find_eq_some_iff :
    find lib Product.id products (args.getD "product_id" .null) = some p ↔ Found lib products args p := by
  unfold find Found
  split
  · rename_i text heq
    rw [heq]
    split_ifs with hblank
    · simp [hblank]
    · rw [find?_eq_some_iff_isFirst]
      simp [hblank]
  · rename_i hnot
    refine ⟨nofun, ?_⟩
    rintro ⟨text, heq, -⟩
    exact (hnot text heq).elim

theorem chosenSize_eq_some_iff {size : String} :
    chosenSize lib p args = some size ↔ FoundSize lib p args size := find?_eq_some_iff_isFirst

/-- An order that is complete but for its size: the name, the phone and the delivery can be read. -/
structure Complete (lib : Library S) (branches : List Branch) (args : Json) : Prop where
  name : (askedName lib args).isSome = true
  phone : (askedPhone lib args).isSome = true
  delivery : (askedDelivery lib branches args).isSome = true

/-- The size that is found is on hand. -/
structure SizeFits (lib : Library S) (p : Product S) (args : Json) (qty : ℤ) (size : String) : Prop where
  asked : askedSize lib args ≠ ""
  found : FoundSize lib p args size
  stock : p.stock ≠ [] → qty ≤ stockOf p.stock size

theorem sizeProblems_eq_nil_iff {qty : ℤ} (hqty : askedQty args = some qty) :
    sizeProblems lib p args = [] ↔ (sizesOf lib p ≠ [] → ∃ size, SizeFits lib p args qty size) := by
  unfold sizeProblems
  rw [hqty]
  split_ifs with hsizes hasked
  · rw [List.isEmpty_iff] at hsizes
    simp [hsizes]
  · rw [List.isEmpty_iff] at hsizes
    refine ⟨nofun, fun h => ?_⟩
    obtain ⟨size, hsize⟩ := h hsizes
    exact (hsize.asked hasked).elim
  · rw [List.isEmpty_iff] at hsizes
    constructor
    · intro h _
      cases hsize : chosenSize lib p args with
      | none => simp [hsize] at h
      | some size =>
        rw [hsize] at h
        refine ⟨size, hasked, chosenSize_eq_some_iff.1 hsize, fun hstock => ?_⟩
        by_contra hlow
        simp [hstock, not_le.1 hlow] at h
    · intro h
      obtain ⟨size, -, hfound, hstock⟩ := h hsizes
      rw [chosenSize_eq_some_iff.2 hfound]
      dsimp only
      rw [if_neg]
      exact fun hlow => absurd (hstock hlow.1) (not_le.2 hlow.2)

theorem append_ite_eq_nil {α : Type} {c : Bool} {x : α} {xs : List α} :
    xs ++ (if c then [x] else []) = [] ↔ xs = [] ∧ c = false := by
  cases c <;> simp

/-- A draft is valid where everything it asks for is there. -/
theorem valid_iff : (orderDraft lib products branches args).valid = true ↔ Complete lib branches args ∧
    ∃ p qty, Found lib products args p ∧ askedQty args = some qty ∧
      (sizesOf lib p ≠ [] → ∃ size, SizeFits lib p args qty size) := by
  rw [Result.valid, List.isEmpty_iff]
  simp only [orderDraft, append_ite_eq_nil, Option.isNone_eq_false_iff]
  constructor
  · rintro ⟨⟨⟨hproduct, hname⟩, hphone⟩, hdelivery⟩
    refine ⟨⟨hname, hphone, hdelivery⟩, ?_⟩
    cases hqty : askedQty args with
    | none => simp [hqty] at hproduct
    | some qty =>
      cases hfind : find lib Product.id products (args.getD "product_id" .null) with
      | none => simp [hqty, hfind] at hproduct
      | some p =>
        simp only [hqty, hfind, Option.isNone_some, Bool.false_eq_true, if_false, List.nil_append] at hproduct
        exact ⟨p, qty, find_eq_some_iff.1 hfind, rfl, (sizeProblems_eq_nil_iff hqty).1 hproduct⟩
  · rintro ⟨⟨hname, hphone, hdelivery⟩, p, qty, hfound, hqty, hsizes⟩
    refine ⟨⟨⟨?_, hname⟩, hphone⟩, hdelivery⟩
    simp only [find_eq_some_iff.2 hfound, (sizeProblems_eq_nil_iff hqty).2 hsizes, hqty]
    rfl

/-! ### For what was asked -/

/-- What a valid draft says of its product. -/
structure Priced (lib : Library S) (p : Product S) (draft : Draft) : Prop where
  product : draft.productId = some p.id
  size : p.sizes ≠ [] → ∃ size, draft.size = some size ∧ size ∈ sizesOf lib p ∧
    (p.stock ≠ [] → ∃ qty, draft.qty = some qty ∧ qty ≤ stockOf p.stock size)
  total : ∃ qty, draft.qty = some qty ∧ draft.totalUzs = some (p.priceUzs * qty)

/-- A draft names the product whose id is asked for to the letter, and a valid one is priced as the catalogue says. -/
structure ForWhatWasAsked (catalogue : Catalogue lib.products) (branches : List Branch) (args : Json) : Prop where
  named : ∀ text, args.getD "product_id" .null = .str text → ∀ p ∈ catalogue.products, p.id = strip text →
    (orderDraft lib catalogue.products branches args).draft.productId = some p.id
  priced : (orderDraft lib catalogue.products branches args).valid = true → ∃ p ∈ catalogue.products,
    Priced lib p (orderDraft lib catalogue.products branches args).draft

/-- No product before the asked one is found in its place. -/
def NamedFirst (catalogue : Catalogue lib.products) (args : Json) : Prop :=
  ∀ text, args.getD "product_id" .null = .str text → ∀ p ∈ catalogue.products, p.id = strip text →
    folded lib text ≠ "" ∧ ∀ before after, catalogue.products = before ++ p :: after →
      ∀ q ∈ before, folded lib q.id ≠ folded lib text

/-- The size that is found of a complete order is kept as it is, or cut to a size that fits as well. -/
def SizeKept (catalogue : Catalogue lib.products) (branches : List Branch) (args : Json) : Prop :=
  Complete lib branches args → ∀ p qty size, Found lib catalogue.products args p → askedQty args = some qty →
    SizeFits lib p args qty size → cut maxSizeChars size ∈ sizesOf lib p ∧
      (p.stock ≠ [] → qty ≤ stockOf p.stock (cut maxSizeChars size))

theorem mem_of_found (h : Found lib products args p) : p ∈ products := by
  obtain ⟨text, -, -, -, before, after, rfl, -⟩ := h
  exact List.mem_append_right before List.mem_cons_self

theorem productId_eq_some_iff {id : String} : (orderDraft lib products branches args).draft.productId = some id ↔
    ∃ p, Found lib products args p ∧ p.id = id := by
  simp only [orderDraft, Option.map_eq_some_iff, find_eq_some_iff]

theorem draft_of_found (branches : List Branch) {qty : ℤ} (hp : Found lib products args p)
    (hqty : askedQty args = some qty) :
    (orderDraft lib products branches args).draft.productId = some p.id ∧
      (orderDraft lib products branches args).draft.qty = some qty ∧
      (orderDraft lib products branches args).draft.size = some (draftSize lib p args) ∧
      (orderDraft lib products branches args).draft.totalUzs = some (p.priceUzs * qty) := by
  unfold orderDraft
  rw [find_eq_some_iff.2 hp, hqty]
  exact ⟨rfl, rfl, rfl, rfl⟩

theorem draftSize_of_found {size : String} (hsizes : sizesOf lib p ≠ []) (h : FoundSize lib p args size) :
    draftSize lib p args = cut maxSizeChars size := by
  rw [draftSize, if_neg (by rwa [List.isEmpty_iff]), chosenSize_eq_some_iff.2 h]
  rfl

/-- The asked product is named exactly where none before it is found. -/
theorem named_iff {catalogue : Catalogue lib.products} :
    (∀ text, args.getD "product_id" .null = .str text → ∀ p ∈ catalogue.products, p.id = strip text →
      (orderDraft lib catalogue.products branches args).draft.productId = some p.id) ↔ NamedFirst catalogue args := by
  constructor
  · intro h text htext p hp hid
    obtain ⟨q, ⟨text', htext', hblank, hmatch, hfirst⟩, hq⟩ := productId_eq_some_iff.1 (h text htext p hp hid)
    obtain rfl := Json.str.inj (htext.symm.trans htext')
    obtain ⟨before, after, hsplit, hbefore⟩ := hfirst
    have hmem : q ∈ catalogue.products := hsplit ▸ List.mem_append_right before List.mem_cons_self
    obtain rfl := catalogue.eq_of_id lib.products hmem hp hq
    refine ⟨hblank, fun before' after' hsplit' => ?_⟩
    have hnodup : catalogue.products.Nodup := List.Nodup.of_map _ catalogue.nodup
    have hsame : before = before' := by
      rw [hsplit] at hsplit' hnodup
      obtain ⟨hnot, -⟩ := List.nodup_cons.1 (List.nodup_middle.1 hnodup)
      rw [List.mem_append, not_or] at hnot
      exact ((List.append_cons_inj_of_notMem hnot.1 hnot.2).1 hsplit').1
    exact hsame ▸ hbefore
  · intro h text htext p hp hid
    obtain ⟨hblank, hfirst⟩ := h text htext p hp hid
    obtain ⟨before, after, hsplit⟩ := List.append_of_mem hp
    refine productId_eq_some_iff.2 ⟨p, ⟨text, htext, hblank, ?_, before, after, hsplit, hfirst before after hsplit⟩, rfl⟩
    change folded lib p.id = folded lib text
    rw [hid, folded, folded, strip_strip]

/-- A draft is for what was asked exactly where the asked product is the first one found and the size is kept. -/
theorem forWhatWasAsked_iff (lib : Library S) (catalogue : Catalogue lib.products) (branches : List Branch)
    (args : Json) :
    ForWhatWasAsked catalogue branches args ↔ NamedFirst catalogue args ∧ SizeKept catalogue branches args := by
  constructor
  · rintro ⟨hnamed, hpriced⟩
    refine ⟨named_iff.1 hnamed, fun hcomplete p qty size hp hqty hsize => ?_⟩
    have hsizes : sizesOf lib p ≠ [] := by
      obtain ⟨before, after, hsplit, -⟩ := hsize.found.2
      simp [hsplit]
    obtain ⟨q, hq, hpriced⟩ := hpriced (valid_iff.2 ⟨hcomplete, p, qty, hp, hqty, fun _ => ⟨size, hsize⟩⟩)
    obtain ⟨hid, hdraftQty, hdraftSize, -⟩ := draft_of_found branches hp hqty
    obtain rfl := catalogue.eq_of_id lib.products (mem_of_found hp) hq
      (Option.some.inj (hid.symm.trans hpriced.product))
    rw [draftSize_of_found hsizes hsize.found] at hdraftSize
    obtain ⟨size', hsize', hmem, hstock⟩ := hpriced.size (by rintro hnil; simp [sizesOf, hnil] at hsizes)
    obtain rfl := Option.some.inj (hdraftSize.symm.trans hsize')
    refine ⟨hmem, fun hne => ?_⟩
    obtain ⟨qty', hqty', hle⟩ := hstock hne
    obtain rfl := Option.some.inj (hdraftQty.symm.trans hqty')
    exact hle
  · rintro ⟨hnamed, hkept⟩
    refine ⟨named_iff.2 hnamed, fun hvalid => ?_⟩
    obtain ⟨hcomplete, p, qty, hp, hqty, hsizes⟩ := valid_iff.1 hvalid
    obtain ⟨hid, hdraftQty, hdraftSize, htotal⟩ := draft_of_found branches hp hqty
    refine ⟨p, mem_of_found hp, hid, fun hne => ?_, qty, hdraftQty, htotal⟩
    have hne' : sizesOf lib p ≠ [] := by simpa [sizesOf] using hne
    obtain ⟨size, hsize⟩ := hsizes hne'
    obtain ⟨hmem, hstock⟩ := hkept hcomplete p qty size hp hqty hsize
    rw [draftSize_of_found hne' hsize.found] at hdraftSize
    exact ⟨_, hdraftSize, hmem, fun hstocked => ⟨qty, hdraftQty, hstock hstocked⟩⟩

/-- Texts that are their own sizes; no photo is looked at. -/
def plain : Library String where
  products := { str := id, urlsplit := fun _ => .error "" }
  unicode := ⟨Char.isDigit, fun _ _ => rfl⟩
  lower := String.toLower
  text := fun _ => ""

def dress (id : String) (price : ℤ) : Product String :=
  ⟨id, "Kiyim", price, [], "", "", "", "", [], [], ""⟩

theorem valid_dress (id : String) (price : ℤ) : (dress id price).Valid plain.products := by
  refine ⟨⟨?_, ?_, ?_, ?_, ?_, nofun, ?_⟩, nofun, nofun, rfl⟩
  all_goals exact Nat.zero_le _

/-- Two products whose ids differ in one letter's case. -/
def twins : Catalogue plain.products where
  products := [dress "A1" 250000, dress "a1" 90000]
  valid := by
    rintro p (_ | ⟨_, _ | ⟨_, ⟨⟩⟩⟩)
    · exact valid_dress "A1" 250000
    · exact valid_dress "a1" 90000
  nodup := by decide

def askedTwin : Json :=
  .obj [("product_id", .str "a1"), ("qty", .int 1), ("customer_name", .str "Ali Valiyev"),
    ("phone", .str "+998901234567"), ("delivery", .str "Toshkent, Chilonzor 5")]

theorem not_forWhatWasAsked_twins : ¬ForWhatWasAsked twins [] askedTwin := by
  intro h
  have hnamed := h.named "a1" rfl (dress "a1" 90000) (by simp [twins]) (by decide +kernel)
  revert hnamed
  decide +kernel

end AgentPlatform.Shop
