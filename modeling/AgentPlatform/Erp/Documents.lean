import AgentPlatform.Erp.Dates

/-!
# Documents and their claim keys

`resolve_posting` of `erp.py` turns a document into the fields of a posting; supplier and number are
whatever text the document carries. The claim key writes driver, kind, supplier and number one after the
other, with bars between. `Shifted` says when two identities are written alike: one supplier goes on, past
a bar, with what the other's number begins with.
-/

namespace AgentPlatform.Erp

open Outcome

/-- `DRIVERS`. -/
def drivers : List String := ["onec_http", "custom_http"]

/-- What `resolve_posting` reads of the tenant's configuration. A tenant without one has no driver. -/
structure Register where
  driver : String
  enabled : Bool
  accounts : List (String × String) := []
  counterparties : List (String × String) := []
  declared : driver = "" ∨ driver ∈ drivers

/-- A field of the document; `none` where it is missing or empty. -/
def field {α : Type} (document : Json) (name : String) (read : Json → Except Err α) :
    Except Err (Option α) :=
  match document.getD name .null with
  | .null => .ok none
  | .str "" => .ok none
  | value => (read value).map some

/-- The currency of a document. -/
def currencyText (lib : Library) (value : Json) : Except Err String := do
  let currency ← fieldText lib value "currency" 8 true
  ensure (currency.length = 3 ∧ currency.toList.all Char.isUpper = true)
    (.erpError "currency must be a three-letter code such as UZS" none)
  pure currency

def maxAmountMinor : ℤ := 10 ^ 15

/-- `_amount`. -/
def amount : Json → Except Err ℤ
  | .int value => do
    ensure (0 ≤ value ∧ value ≤ maxAmountMinor)
      (.erpError ("total_minor must be between 0 and " ++ toString maxAmountMinor) none)
    pure value
  | _ => .error (.erpError "total_minor must be an integer count of minor units" none)

/-- What the operator declared under an alias; `none` without an alias. -/
def declaredAs (lib : Library) (register : List (String × String)) (name : String) (value : Json) :
    Except Err (Option String) := do
  let name' ← fieldText lib value name 64 false
  if name' = "" then pure none
  else do
    let entry ← need (register.find? fun e => e.1 = name')
      (.erpError (name ++ " alias " ++ lib.repr name' ++ " is not declared by the operator") none)
    pure (some entry.2)

/-- The refusal of a document that lacks fields. -/
def incomplete (fields : List (String × Bool)) : Err :=
  let missing := ((fields.filter fun f => !f.2).map Prod.fst).insertionSort fun a b => ¬ b < a
  .erpError ("refusing to post an incomplete document: " ++ ", ".intercalate missing ++
    ". The platform will not guess a field a posting needs; supply the missing values from the " ++
    "document or the operator register.") none

/-- `resolve_posting`. -/
def resolvePosting (lib : Library) (settings : Register) (document account counterparty : Json) :
    Except Err Posting := do
  ensure (settings.driver ≠ "") (.forbidden "ERP posting is not configured for this tenant")
  ensure (settings.enabled = true) (.forbidden "ERP posting is disabled for this tenant")
  ensure (document.isDict = true) (.erpError "document must be an object" none)
  let supplier ← field document "supplier" fun value => fieldText lib value "supplier" 200 true
  let number ← field document "number" fun value => fieldText lib value "number" 200 true
  let docDate ← field document "doc_date" (dateText lib)
  let currency ← field document "currency" (currencyText lib)
  let totalMinor ← field document "total_minor" amount
  let account ← declaredAs lib settings.accounts "account" account
  let counterparty ← declaredAs lib settings.counterparties "counterparty" counterparty
  let refusal := incomplete [("supplier", supplier.isSome), ("number", number.isSome),
    ("doc_date", docDate.isSome), ("currency", currency.isSome), ("total_minor", totalMinor.isSome),
    ("account", account.isSome), ("counterparty", counterparty.isSome)]
  let supplier ← need supplier refusal
  let number ← need number refusal
  let docDate ← need docDate refusal
  let currency ← need currency refusal
  let totalMinor ← need totalMinor refusal
  let account ← need account refusal
  let counterparty ← need counterparty refusal
  pure ⟨settings.driver, supplier, number, docDate, currency, totalMinor, account, counterparty⟩

/-- A posting that some document of a tenant resolves to. -/
def Accepted (lib : Library) (posting : Posting) : Prop :=
  ∃ settings document account counterparty,
    resolvePosting lib settings document account counterparty = .ok posting

/-! ### Claim keys -/

section ClaimKeys

variable {lib : Library} {p q : Posting}

theorem Accepted.driver (h : Accepted lib p) : p.driver ∈ drivers := by
  obtain ⟨settings, document, account, counterparty, h⟩ := h
  simp only [resolvePosting, bind_eq_ok, exists_unit, ensure_eq_ok, need_eq_ok, pure_eq_ok] at h
  obtain ⟨hdriver, -, -, _, -, _, -, _, -, _, -, _, -, _, -, _, -, _, -, _, -, _, -, _, -, _, -, _, -, _,
    -, rfl⟩ := h
  exact settings.declared.resolve_left hdriver

/-- The first supplier and number, and the second ones: past the first supplier and a bar, the second
supplier goes on with what the first number begins with. -/
def Overrun (supplier number supplier' number' : String) : Prop :=
  ∃ more, supplier' = supplier ++ "|" ++ more ∧ number = more ++ "|" ++ number'

/-- Two postings to one system whose suppliers and numbers are cut at different bars of one text. -/
def Shifted (p q : Posting) : Prop :=
  p.driver = q.driver ∧
    (Overrun p.supplier p.number q.supplier q.number ∨ Overrun q.supplier q.number p.supplier p.number)

/-- Two lists with one element between that are written alike are alike, or one is overrun. -/
theorem append_cons_eq {α : Type*} {a b a' b' : List α} {c : α} (h : a ++ c :: b = a' ++ c :: b') :
    (a = a' ∧ b = b') ∨ (∃ more, a' = a ++ c :: more ∧ b = more ++ c :: b') ∨
      ∃ more, a = a' ++ c :: more ∧ b' = more ++ c :: b := by
  rcases List.append_eq_append_iff.1 h with ⟨more, ha', hrest⟩ | ⟨more, ha, hrest⟩
  · cases more with
    | nil => exact .inl ⟨by simp [ha'], (List.cons.inj hrest).2⟩
    | cons x more =>
      obtain ⟨rfl, hb⟩ := List.cons.inj hrest
      exact .inr (.inl ⟨more, ha', hb⟩)
  · cases more with
    | nil => exact .inl ⟨by simp [ha], (List.cons.inj hrest).2.symm⟩
    | cons x more =>
      obtain ⟨rfl, hb⟩ := List.cons.inj hrest
      exact .inr (.inr ⟨more, ha, hb⟩)

theorem toList_barred (s n : String) : (s ++ "|" ++ n).toList = s.toList ++ '|' :: n.toList := by
  simp

theorem overrun_iff {s n s' n' : String} : Overrun s n s' n' ↔
    ∃ more, s'.toList = s.toList ++ '|' :: more ∧ n.toList = more ++ '|' :: n'.toList := by
  constructor
  · rintro ⟨more, rfl, rfl⟩
    exact ⟨more.toList, toList_barred s more, toList_barred more n'⟩
  · rintro ⟨more, hs, hn⟩
    refine ⟨String.ofList more, String.toList_inj.1 ?_, String.toList_inj.1 ?_⟩
    · rw [toList_barred, String.toList_ofList, hs]
    · rw [toList_barred, String.toList_ofList, hn]

/-- Two texts with a bar between are written alike where they are alike, or one is overrun. -/
theorem barred_eq {s n s' n' : String} :
    s ++ "|" ++ n = s' ++ "|" ++ n' ↔
      (s = s' ∧ n = n') ∨ Overrun s n s' n' ∨ Overrun s' n' s n := by
  constructor
  · intro h
    have hlists : s.toList ++ '|' :: n.toList = s'.toList ++ '|' :: n'.toList := by
      rw [← toList_barred, ← toList_barred, h]
    rcases append_cons_eq hlists with ⟨hs, hn⟩ | hover | hover
    · exact .inl ⟨String.toList_inj.1 hs, String.toList_inj.1 hn⟩
    · exact .inr (.inl (overrun_iff.2 hover))
    · exact .inr (.inr (overrun_iff.2 hover))
  · rintro (⟨rfl, rfl⟩ | ⟨more, rfl, rfl⟩ | ⟨more, rfl, rfl⟩)
    · rfl
    · simp only [String.append_assoc]
    · simp only [String.append_assoc]

theorem claimKey_identity (p : Posting) :
    (identity p).claimKey = p.driver ++ "|invoice|" ++ (p.supplier ++ "|" ++ p.number) := by
  simp only [identity, Identity.claimKey, String.append_assoc]
  rfl

/-- The key shows the driver. -/
theorem driver_of_claimKey (hp : p.driver ∈ drivers) (hq : q.driver ∈ drivers)
    (h : (identity p).claimKey = (identity q).claimKey) : p.driver = q.driver := by
  have hhead : ∀ r : Posting, r.driver ∈ drivers →
      (identity r).claimKey.toList.head? = r.driver.toList.head? := by
    intro r hr
    rw [claimKey_identity, String.toList_append, String.toList_append, List.append_assoc,
      List.head?_append_of_ne_nil]
    intro hnil
    simp only [drivers, List.mem_cons, List.not_mem_nil, or_false] at hr
    rcases hr with hr | hr <;> rw [hr] at hnil <;> cases hnil
  have heads := (hhead p hp).symm.trans ((congrArg (fun t => t.toList.head?) h).trans (hhead q hq))
  simp only [drivers, List.mem_cons, List.not_mem_nil, or_false] at hp hq
  rcases hp with hp | hp <;> rcases hq with hq | hq <;> rw [hp, hq] at heads ⊢ <;>
    exact absurd heads (by decide)

theorem claimKey_eq (hp : p.driver ∈ drivers) (hq : q.driver ∈ drivers) :
    (identity p).claimKey = (identity q).claimKey ↔ identity p = identity q ∨ Shifted p q := by
  constructor
  · intro h
    have hdriver := driver_of_claimKey hp hq h
    rw [claimKey_identity, claimKey_identity, hdriver, String.append_right_inj] at h
    rcases barred_eq.1 h with ⟨hs, hn⟩ | hover | hover
    · exact .inl (by simp [identity, hdriver, hs, hn])
    · exact .inr ⟨hdriver, .inl hover⟩
    · exact .inr ⟨hdriver, .inr hover⟩
  · rintro (h | ⟨hdriver, hover⟩)
    · rw [h]
    · rw [claimKey_identity, claimKey_identity, hdriver, String.append_right_inj]
      exact barred_eq.2 (.inr hover)

theorem Overrun.ne {s n s' n' : String} (h : Overrun s n s' n') : s ≠ s' := by
  rintro rfl
  obtain ⟨more, hs, -⟩ := overrun_iff.1 h
  have hlen := congrArg List.length hs
  rw [List.length_append, List.length_cons] at hlen
  omega

/-- **Claim keys.** Two accepted documents with different identities have different claim keys if and
only if their suppliers and numbers are not cut at different bars of one text. -/
theorem claimKey_separates (hp : Accepted lib p) (hq : Accepted lib q) :
    (identity p ≠ identity q → (identity p).claimKey ≠ (identity q).claimKey) ↔ ¬ Shifted p q := by
  rw [Ne, Ne, claimKey_eq hp.driver hq.driver, not_or]
  constructor
  · rintro h hshifted
    have hne : identity p ≠ identity q := by
      intro heq
      have hsupplier : p.supplier = q.supplier := congrArg Identity.supplier heq
      rcases hshifted.2 with hover | hover
      · exact hover.ne hsupplier
      · exact hover.ne hsupplier.symm
    exact (h hne).2 hshifted
  · intro hshifted hne
    exact ⟨hne, hshifted⟩

theorem reserve_blocked {rows : List Row} {r : Row} {active : Except Err Unit}
    {tenant document : String} {plan body : Json} {now : Time} (hr : r ∈ rows)
    (htenant : r.tenant = tenant) (hkey : r.claimKey = some (identity q).claimKey) :
    ∀ res, reserve lib rows active tenant q document plan body now ≠ .ok res := by
  intro res h
  simp only [reserve, bind_eq_ok, exists_unit, ensure_eq_ok] at h
  have hfree := List.all_eq_true.1 h.2.1 r hr
  simp [clashes, htenant, hkey] at hfree

end ClaimKeys

/-! ### Two documents written alike -/

section Sample

def documentLibrary : Library where
  sha256 text := text
  str _ := ""
  repr text := "'" ++ text ++ "'"

def sampleRegister : Register where
  driver := "onec_http"
  enabled := true
  accounts := [("goods", "6010")]
  counterparties := [("main", "C-1")]
  declared := by decide

def sampleDocument (supplier number : String) : Json :=
  .obj [("supplier", .str supplier), ("number", .str number), ("doc_date", .str "2026-01-02"),
    ("currency", .str "UZS"), ("total_minor", .int 100)]

def samplePosting (supplier number : String) : Posting :=
  ⟨"onec_http", supplier, number, "2026-01-02", "UZS", 100, "6010", "C-1"⟩

/-- Whether the sample document resolves to the sample posting. -/
def resolves (supplier number : String) : Prop :=
  resolvePosting documentLibrary sampleRegister (sampleDocument supplier number) (.str "goods")
    (.str "main") = .ok (samplePosting supplier number)

instance (supplier number : String) : Decidable (resolves supplier number) := by
  unfold resolves
  infer_instance

theorem claimKey_separates_sample :
    (identity (samplePosting "A" "1")).claimKey ≠ (identity (samplePosting "B" "1")).claimKey := by
  have hp : resolves "A" "1" := by decide +kernel
  have hq : resolves "B" "1" := by decide +kernel
  refine (claimKey_separates ⟨_, _, _, _, hp⟩ ⟨_, _, _, _, hq⟩).2 ?_ (by decide)
  -- a supplier of one letter runs over none
  rintro ⟨-, hover | hover⟩
  · obtain ⟨more, hmore, -⟩ := overrun_iff.1 hover
    have hlen := congrArg List.length hmore
    rw [List.length_append, List.length_cons] at hlen
    exact absurd hlen (by simp [samplePosting])
  · obtain ⟨more, hmore, -⟩ := overrun_iff.1 hover
    have hlen := congrArg List.length hmore
    rw [List.length_append, List.length_cons] at hlen
    exact absurd hlen (by simp [samplePosting])

/-- Supplier `A|B` with number `1`, and supplier `A` with number `B|1`: two accepted documents, and once
the one is reserved the other is refused as posted. -/
theorem barred_documents_collide :
    resolves "A|B" "1" ∧ resolves "A" "B|1" ∧
    identity (samplePosting "A|B" "1") ≠ identity (samplePosting "A" "B|1") ∧
    (identity (samplePosting "A|B" "1")).claimKey = (identity (samplePosting "A" "B|1")).claimKey ∧
    ∀ lib tenant document plan body now rows id,
      reserve lib [] (.ok ()) tenant (samplePosting "A|B" "1") document plan body now = .ok (rows, id) →
      ∀ res, reserve lib rows (.ok ()) tenant (samplePosting "A" "B|1") document plan body now ≠
        .ok res := by
  have hkey : (identity (samplePosting "A|B" "1")).claimKey =
      (identity (samplePosting "A" "B|1")).claimKey := by decide +kernel
  refine ⟨by decide +kernel, by decide +kernel, by decide, hkey, ?_⟩
  intro lib tenant document plan body now rows id h
  simp only [reserve, bind_eq_ok, exists_unit, ensure_eq_ok, pure_eq_ok, Prod.mk.injEq] at h
  obtain ⟨-, -, rfl, -⟩ := h
  exact reserve_blocked (List.mem_append_right _ (List.mem_singleton_self _)) rfl (congrArg some hkey)

end Sample

end AgentPlatform.Erp
