import AgentPlatform.Packs.Loader

/-!
# The products of a pack

The `Product` model of `app/packs.py` and the loader's check of the catalogue. A product is taken with the types its
model declares; a size may be any value of YAML, and is compared as its text. What `str` and `urlsplit` give is the
library's.
-/

namespace AgentPlatform.Packs

open Outcome

/-- What is looked at of `urlsplit(url)`. -/
structure UrlParts where
  scheme : String
  hostname : Option String
  username : Option String
  password : Option String

/-- A row of the catalogue, over any type of sizes. -/
structure Product (S : Type) where
  id : String
  name : String
  priceUzs : ℤ
  sizes : List S
  description : String
  category : String
  gender : String
  age : String
  colors : List String
  /-- A dictionary: the quantity on hand of each size. -/
  stock : List (String × ℤ)
  photoUrl : String

structure ProductLibrary (S : Type) where
  /-- `str(size)`. -/
  str : S → String
  /-- `urlsplit(url)`, which may raise `ValueError`. -/
  urlsplit : String → Except String UrlParts

def maxProductDescriptionChars : ℕ := 1000

def maxProductLabelChars : ℕ := 64

def maxProductColors : ℕ := 20

def maxPhotoUrlChars : ℕ := 2000

variable {S : Type} (lib : ProductLibrary S)

/-- `stock.get(size, 0)`. -/
def stockOf (stock : List (String × ℤ)) (size : String) : ℤ := (stock.lookup size).getD 0

namespace Product

/-- The bounds of the fields. -/
structure FieldsFit (p : Product S) : Prop where
  description : p.description.length ≤ maxProductDescriptionChars
  category : p.category.length ≤ maxProductLabelChars
  gender : p.gender.length ≤ maxProductLabelChars
  age : p.age.length ≤ maxProductLabelChars
  colors : p.colors.length ≤ maxProductColors
  color : ∀ c ∈ p.colors, 1 ≤ c.length ∧ c.length ≤ maxProductLabelChars
  photoUrl : p.photoUrl.length ≤ maxPhotoUrlChars

instance (p : Product S) : Decidable p.FieldsFit :=
  decidable_of_iff (p.description.length ≤ maxProductDescriptionChars ∧ p.category.length ≤ maxProductLabelChars ∧
      p.gender.length ≤ maxProductLabelChars ∧ p.age.length ≤ maxProductLabelChars ∧
      p.colors.length ≤ maxProductColors ∧ (∀ c ∈ p.colors, 1 ≤ c.length ∧ c.length ≤ maxProductLabelChars) ∧
      p.photoUrl.length ≤ maxPhotoUrlChars)
    ⟨fun ⟨h₁, h₂, h₃, h₄, h₅, h₆, h₇⟩ => ⟨h₁, h₂, h₃, h₄, h₅, h₆, h₇⟩,
      fun ⟨h₁, h₂, h₃, h₄, h₅, h₆, h₇⟩ => ⟨h₁, h₂, h₃, h₄, h₅, h₆, h₇⟩⟩

/-- `sorted(texts)`. -/
def sorted (texts : List String) : List String := texts.insertionSort fun a b => a.toList ≤ b.toList

/-- The sizes of negative stock. -/
def negative (p : Product S) : List String := sorted ((p.stock.filter fun entry => entry.2 < 0).map Prod.fst)

/-- The sizes of the stock that the product does not declare. -/
def unknown (p : Product S) : List String :=
  sorted ((p.stock.map Prod.fst).dedup.filter fun size => !(p.sizes.map lib.str).contains size)

/-- `not username and not password`, and the other conditions on a photo's address. -/
def goodPhoto (url : String) (parts : UrlParts) : Bool :=
  parts.scheme == "https" && (parts.hostname.getD "" != "") && (parts.username.getD "" == "") &&
    (parts.password.getD "" == "") && url.toList.all fun c => !isSpace c

/-- The check of a photo's address. -/
def checkPhoto (url : String) : Except String Unit :=
  if url = "" then .ok ()
  else do
    let parts ← lib.urlsplit url
    ensure (goodPhoto url parts = true) "photo_url faqat https:// manzil bo'lishi kerak"

/-- `_stock_and_photo`. -/
def stockAndPhoto (p : Product S) : Except String Unit := do
  ensure (p.negative = []) ("stock manfiy bo'lishi mumkin emas: " ++ ", ".intercalate p.negative)
  ensure (p.unknown lib = []) ("stock sizes ro'yxatida yo'q o'lcham: " ++ ", ".intercalate (p.unknown lib))
  checkPhoto lib p.photoUrl

/-- `Product.model_validate`, of values of the declared types. -/
def modelValidate (p : Product S) : Except String Unit := do
  ensure p.FieldsFit "validation error for Product"
  p.stockAndPhoto lib

/-- What the loader knows of a product. -/
structure Valid (p : Product S) : Prop where
  fields : p.FieldsFit
  stock : ∀ entry ∈ p.stock, 0 ≤ entry.2
  declared : ∀ entry ∈ p.stock, entry.1 ∈ p.sizes.map lib.str
  photo : checkPhoto lib p.photoUrl = .ok ()

theorem sorted_eq_nil_iff {texts : List String} : sorted texts = [] ↔ texts = [] := by
  have hperm : (sorted texts).Perm texts := List.perm_insertionSort _ _
  constructor
  · intro h
    rw [h] at hperm
    exact List.nil_perm.1 hperm
  · rintro rfl
    rfl

theorem negative_eq_nil_iff {p : Product S} : p.negative = [] ↔ ∀ entry ∈ p.stock, 0 ≤ entry.2 := by
  simp [negative, sorted_eq_nil_iff]

theorem unknown_eq_nil_iff {p : Product S} :
    p.unknown lib = [] ↔ ∀ entry ∈ p.stock, entry.1 ∈ p.sizes.map lib.str := by
  rw [unknown, sorted_eq_nil_iff, List.filter_eq_nil_iff]
  simp only [List.mem_dedup, List.mem_map, List.contains_eq_mem, Bool.not_eq_true, Bool.not_eq_false',
    decide_eq_true_eq, forall_exists_index, and_imp, forall_apply_eq_imp_iff₂]

theorem modelValidate_eq_ok_iff {p : Product S} {u : Unit} : p.modelValidate lib = .ok u ↔ p.Valid lib := by
  simp only [modelValidate, stockAndPhoto, bind_eq_ok, ensure_eq_ok, exists_unit, negative_eq_nil_iff,
    unknown_eq_nil_iff]
  constructor
  · rintro ⟨h₁, h₂, h₃, h₄⟩
    exact ⟨h₁, h₂, h₃, h₄⟩
  · rintro ⟨h₁, h₂, h₃, h₄⟩
    exact ⟨h₁, h₂, h₃, h₄⟩

end Product

/-- What the loader checks of the products of a pack. -/
def checkProducts (name : String) (products : List (Product S)) : Except Err Unit := do
  products.forM fun p => (p.modelValidate lib).mapError fun e =>
    packError ("pack validatsiyadan o'tmadi (" ++ name ++ "): " ++ e)
  checkUnique "product id" name (products.map Product.id)

/-- A catalogue that loads. -/
structure Catalogue where
  products : List (Product S)
  valid : ∀ p ∈ products, p.Valid lib
  nodup : (products.map Product.id).Nodup

theorem checkProducts_eq_ok_iff {name : String} {products : List (Product S)} {u : Unit} :
    checkProducts lib name products = .ok u ↔
      (∀ p ∈ products, p.Valid lib) ∧ (products.map Product.id).Nodup := by
  have hone : ∀ p : Product S, ((p.modelValidate lib).mapError fun e =>
      packError ("pack validatsiyadan o'tmadi (" ++ name ++ "): " ++ e)) = .ok () ↔ p.Valid lib := by
    intro p
    rw [← Product.modelValidate_eq_ok_iff lib (u := ())]
    cases p.modelValidate lib <;> simp [Except.mapError]
  simp only [checkProducts, checkUnique, bind_eq_ok, exists_unit, forM_eq_ok, ensure_eq_ok, hone]

/-- What is loaded is a catalogue. -/
def Catalogue.ofCheck {name : String} {products : List (Product S)} (h : checkProducts lib name products = .ok ()) :
    Catalogue lib :=
  ⟨products, ((checkProducts_eq_ok_iff lib).1 h).1, ((checkProducts_eq_ok_iff lib).1 h).2⟩

theorem Catalogue.eq_of_id {catalogue : Catalogue lib} {p q : Product S} (hp : p ∈ catalogue.products)
    (hq : q ∈ catalogue.products) (h : p.id = q.id) : p = q :=
  List.inj_on_of_nodup_map catalogue.nodup hp hq h

end AgentPlatform.Packs
