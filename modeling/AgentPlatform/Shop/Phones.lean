import AgentPlatform.Crm.Contract

/-!
# The phone of an order

`normalize_uz_phone` of `shop_tools.py` beside `normalize_phone` of the CRM contract. The first counts the decimal
digits of every script and supplies `998` to nine of them; the second drops what is not ASCII and supplies a plus sign
only. So a number of nine digits becomes two numbers, unless a plus sign stands where the second refuses it, and a digit
of another script is kept by the first and dropped by the second (`agree_iff`).
-/

namespace AgentPlatform.Shop

open Outcome

/-- Unicode: `\d`, which on ASCII is a digit. -/
structure Decimals where
  isDecimal : Char → Bool
  ascii : ∀ c : Char, c.toNat < 128 → isDecimal c = c.isDigit

variable (unicode : Decimals)

/-- A character of `PHONE_CHARS`. -/
def isPhoneChar (c : Char) : Bool := unicode.isDecimal c || isSpace c || "+()-.".toList.contains c

/-- `re.sub(r'\D', '', value)`. -/
def decimals (value : String) : List Char := value.toList.filter unicode.isDecimal

/-- The digits with the country code, where there are nine. -/
def withUzCode (digits : List Char) : List Char :=
  if digits.length = 9 then "998".toList ++ digits else digits

/-- `normalize_uz_phone`. -/
def normalizeUzPhone : Json → Option String
  | .str value =>
    if (strip value).toList = [] ∨ (strip value).toList.all (isPhoneChar unicode) = false then none
    else
      let digits := withUzCode (decimals unicode value)
      if digits.length ≠ 12 ∨ "998".toList.isPrefixOf digits = false then none
      else some (String.ofList ('+' :: digits))
  | _ => none

/-- `+998` and nine ASCII digits. -/
def IsUzNumber (phone : String) : Prop :=
  ∃ digits : List Char, phone = String.ofList ("+998".toList ++ digits) ∧ digits.length = 9 ∧
    digits.all Char.isDigit = true

/-- The two normalisers agree on a text. -/
structure Agree (value : String) : Prop where
  number : ∀ phone, normalizeUzPhone unicode (.str value) = some phone → IsUzNumber phone
  same : ∀ phone other, normalizeUzPhone unicode (.str value) = some phone →
    Crm.normalizePhone (.str value) = .ok other → phone = other

/-- A text of phone characters with nine digits, or with twelve that begin with the country code. -/
structure UzPhone (value : String) : Prop where
  nonempty : (strip value).toList ≠ []
  chars : (strip value).toList.all (isPhoneChar unicode) = true
  digits : (decimals unicode value).length = 9 ∨
    (decimals unicode value).length = 12 ∧ "998".toList <+: decimals unicode value

/-- What `normalize_phone` keeps of a text. -/
def kept (value : String) : List Char := (strip value).toList.filter fun c => c.isDigit || c == '+'

variable {unicode}

variable {value : String}

theorem normalizeUzPhone_eq_some_iff {phone : String} :
    normalizeUzPhone unicode (.str value) = some phone ↔
      UzPhone unicode value ∧ phone = String.ofList ('+' :: withUzCode (decimals unicode value)) := by
  have hcode : ("998".toList ++ decimals unicode value).length = 12 ↔ (decimals unicode value).length = 9 := by
    rw [List.length_append]
    change 3 + _ = 12 ↔ _
    omega
  simp only [normalizeUzPhone]
  constructor
  · intro h
    split_ifs at h with hchars hdigits
    rw [not_or, Bool.not_eq_false] at hchars
    rw [not_or, not_not, Bool.not_eq_false, List.isPrefixOf_iff_prefix] at hdigits
    refine ⟨⟨hchars.1, hchars.2, ?_⟩, (Option.some.inj h).symm⟩
    unfold withUzCode at hdigits
    split_ifs at hdigits with hnine
    · exact .inl hnine
    · exact .inr hdigits
  · rintro ⟨⟨hne, hchars, hdigits⟩, rfl⟩
    rw [if_neg (by simp [hne, hchars]), if_neg]
    rw [not_or, not_not, Bool.not_eq_false, List.isPrefixOf_iff_prefix]
    unfold withUzCode
    split_ifs with hnine
    · exact ⟨hcode.2 hnine, List.prefix_append _ _⟩
    · exact hdigits.resolve_left hnine

/-! ### What is kept -/

theorem filter_dropWhile {p q : Char → Bool} (h : ∀ c, q c = true → p c = false) (l : List Char) :
    (l.dropWhile q).filter p = l.filter p := by
  induction l with
  | nil => rfl
  | cons c l ih =>
    by_cases hq : q c = true
    · rw [List.dropWhile_cons_of_pos hq, ih, List.filter_cons_of_neg (by simp [h c hq])]
    · rw [List.dropWhile_cons_of_neg hq]

theorem filter_strip {p : Char → Bool} (h : ∀ c, isSpace c = true → p c = false) (value : String) :
    (strip value).toList.filter p = value.toList.filter p := by
  rw [strip, String.toList_ofList, List.filter_reverse, filter_dropWhile h, List.filter_reverse, List.reverse_reverse,
    filter_dropWhile h]

variable {c : Char}

theorem isDigit_of_isSpace (h : isSpace c = true) : c.isDigit = false := by
  by_contra hdigit
  rw [Bool.not_eq_false, Char.isDigit_iff_toNat] at hdigit
  have h0 : '0'.toNat = 48 := rfl
  have h9 : '9'.toNat = 57 := rfl
  simp only [isSpace, Bool.or_eq_true, Bool.and_eq_true, decide_eq_true_eq, beq_iff_eq] at h
  omega

theorem toNat_lt_of_isDigit (h : c.isDigit = true) : c.toNat < 128 := by
  rw [Char.isDigit_iff_toNat] at h
  have h9 : '9'.toNat = 57 := rfl
  omega

/-- Where the decimal digits are ASCII, both normalisers keep them. -/
theorem filter_kept (h : (decimals unicode value).all Char.isDigit = true) :
    (kept value).filter Char.isDigit = decimals unicode value := by
  have hkept : (kept value).filter Char.isDigit = (strip value).toList.filter Char.isDigit := by
    unfold kept
    rw [List.filter_filter]
    refine List.filter_congr fun c _ => ?_
    cases c.isDigit <;> rfl
  rw [hkept, filter_strip fun c => isDigit_of_isSpace]
  refine List.filter_congr fun c hc => ?_
  rw [List.all_eq_true] at h
  cases hdecimal : unicode.isDecimal c with
  | true => exact h c (List.mem_filter.2 ⟨hc, hdecimal⟩)
  | false =>
    by_contra hdigit
    rw [Bool.not_eq_false] at hdigit
    have := unicode.ascii c (toNat_lt_of_isDigit hdigit)
    rw [hdecimal, hdigit] at this
    cases this

theorem mem_kept (h : c ∈ kept value) : c.isDigit = true ∨ c = '+' := by
  simpa using (List.mem_filter.1 h).2

/-- Without a plus sign behind the first character, what is kept are the digits, with or without one before them. -/
theorem kept_eq (h : (decimals unicode value).all Char.isDigit = true) (hplus : '+' ∉ (kept value).tail) :
    kept value = decimals unicode value ∨ kept value = '+' :: decimals unicode value := by
  have hfilter := filter_kept h
  cases hkept : kept value with
  | nil =>
    rw [hkept] at hfilter
    exact .inl hfilter
  | cons c rest =>
    rw [hkept] at hfilter hplus
    have hrest : rest.filter Char.isDigit = rest := by
      rw [List.filter_eq_self]
      intro d hd
      refine (mem_kept (hkept ▸ List.mem_cons_of_mem c hd)).resolve_right ?_
      rintro rfl
      exact hplus hd
    rcases mem_kept (hkept ▸ List.mem_cons_self : c ∈ kept value) with hc | rfl
    · rw [List.filter_cons_of_pos hc, hrest] at hfilter
      exact .inl hfilter
    · rw [List.filter_cons_of_neg (by decide), hrest] at hfilter
      exact .inr (congrArg ('+' :: ·) hfilter)

/-! ### `normalize_phone` -/

theorem normalizePhone_eq_ok_iff {other : String} :
    Crm.normalizePhone (.str value) = .ok other ↔ kept value ≠ [] ∧
      Crm.isPhone (Crm.withCountryCode (kept value)) = true ∧
      String.ofList (Crm.withCountryCode (kept value)) = other := by
  simp only [Crm.normalizePhone, bind_eq_ok, ensure_eq_ok, exists_unit, pure_eq_ok]
  rfl

theorem isPhone_iff {text : List Char} : Crm.isPhone text = true ↔
    ∃ digits, text = '+' :: digits ∧ 7 ≤ digits.length ∧ digits.length ≤ 15 ∧ digits.all Char.isDigit = true := by
  unfold Crm.isPhone
  split
  · simp [and_assoc]
  · rename_i h
    refine ⟨nofun, ?_⟩
    rintro ⟨digits, rfl, -⟩
    exact (h digits rfl).elim

theorem mem_tail_withCountryCode {cleaned : List Char} (h : '+' ∈ cleaned.tail) :
    '+' ∈ (Crm.withCountryCode cleaned).tail ∨ Crm.withCountryCode cleaned = cleaned := by
  unfold Crm.withCountryCode
  split_ifs
  · exact .inr rfl
  · exact .inl (List.mem_of_mem_tail h)
  · refine .inl ?_
    rw [List.drop_one]
    exact List.mem_append_right ['7'] h
  · exact .inl (List.mem_of_mem_tail h)
  · exact .inr rfl

theorem normalizePhone_of_misplaced {other : String} (h : '+' ∈ (kept value).tail) :
    Crm.normalizePhone (.str value) ≠ .ok other := by
  intro hok
  obtain ⟨-, hphone, -⟩ := normalizePhone_eq_ok_iff.1 hok
  have htail : '+' ∈ (Crm.withCountryCode (kept value)).tail := by
    rcases mem_tail_withCountryCode h with htail | heq
    · exact htail
    · rwa [heq]
  obtain ⟨digits, heq, -, -, hdigits⟩ := isPhone_iff.1 hphone
  rw [heq] at htail
  have := List.all_eq_true.1 hdigits '+' htail
  cases this

theorem withCountryCode_plus (digits : List Char) : Crm.withCountryCode ('+' :: digits) = '+' :: digits := rfl

theorem withCountryCode_digits {digits : List Char} (hdigits : digits.all Char.isDigit = true)
    (h : digits.length = 9 ∨ digits.length = 12) : Crm.withCountryCode digits = '+' :: digits := by
  have hplus : "+".toList.isPrefixOf digits = false := by
    cases digits with
    | nil => rfl
    | cons c digits =>
      have hne : ('+' == c) = false := by
        rw [beq_eq_false_iff_ne]
        rintro rfl
        cases hdigits
      simp [List.isPrefixOf, hne]
  unfold Crm.withCountryCode
  rw [hplus]
  rcases h with h | h <;> simp [h]

/-- Nine digits, or twelve, are accepted where no plus sign is misplaced. -/
theorem normalizePhone_of_digits (hdigits : (decimals unicode value).all Char.isDigit = true)
    (hlen : (decimals unicode value).length = 9 ∨ (decimals unicode value).length = 12)
    (hplus : '+' ∉ (kept value).tail) :
    Crm.normalizePhone (.str value) = .ok (String.ofList ('+' :: decimals unicode value)) := by
  have hcode : Crm.withCountryCode (kept value) = '+' :: decimals unicode value := by
    rcases kept_eq hdigits hplus with h | h
    · rw [h, withCountryCode_digits hdigits hlen]
    · rw [h, withCountryCode_plus]
  refine normalizePhone_eq_ok_iff.2 ⟨?_, ?_, ?_⟩
  · intro hnil
    rw [hnil] at hcode
    cases hcode
  · rw [hcode]
    exact isPhone_iff.2 ⟨_, rfl, by omega, by omega, hdigits⟩
  · rw [hcode]

/-! ### Agreement -/

theorem isUzNumber_iff {digits : List Char} (hlen : digits.length = 12) (hcode : "998".toList <+: digits) :
    IsUzNumber (String.ofList ('+' :: digits)) ↔ digits.all Char.isDigit = true := by
  obtain ⟨rest, rfl⟩ := hcode
  constructor
  · rintro ⟨local', heq, -, hdigits⟩
    have hlist := String.ofList_injective heq
    obtain rfl := List.append_cancel_left (List.cons.inj hlist).2
    rw [List.all_append, hdigits]
    rfl
  · intro hdigits
    refine ⟨rest, rfl, ?_, ?_⟩
    · rw [List.length_append] at hlen
      change 3 + _ = 12 at hlen
      omega
    · rw [List.all_append, Bool.and_eq_true] at hdigits
      exact hdigits.2

/-- The normalisers agree exactly where the digits of what the first accepts are ASCII, and no number of nine digits is
one that the second accepts: a plus sign stands behind its first character. -/
theorem agree_iff (unicode : Decimals) (value : String) :
    Agree unicode value ↔ (UzPhone unicode value → (decimals unicode value).all Char.isDigit = true ∧
      ((decimals unicode value).length = 9 → '+' ∈ (kept value).tail)) := by
  have hshape : UzPhone unicode value → (withUzCode (decimals unicode value)).length = 12 ∧
      "998".toList <+: withUzCode (decimals unicode value) ∧
      (withUzCode (decimals unicode value)).all Char.isDigit = (decimals unicode value).all Char.isDigit := by
    intro h
    unfold withUzCode
    split_ifs with hnine
    · refine ⟨?_, List.prefix_append _ _, ?_⟩
      · rw [List.length_append, hnine]
        rfl
      · rw [List.all_append]
        rfl
    · exact ⟨(h.digits.resolve_left hnine).1, (h.digits.resolve_left hnine).2, rfl⟩
  constructor
  · rintro ⟨hnumber, hsame⟩ h
    have hphone := normalizeUzPhone_eq_some_iff.2 ⟨h, rfl⟩
    obtain ⟨hlen, hcode, hall⟩ := hshape h
    have hdigits : (decimals unicode value).all Char.isDigit = true := by
      rw [← hall, ← isUzNumber_iff hlen hcode]
      exact hnumber _ hphone
    refine ⟨hdigits, fun hnine => ?_⟩
    by_contra hplus
    have hother := normalizePhone_of_digits hdigits (.inl hnine) hplus
    have heq := (List.cons.inj (String.ofList_injective (hsame _ _ hphone hother))).2
    rw [heq, hnine] at hlen
    omega
  · intro h
    refine ⟨fun phone hphone => ?_, fun phone other hphone hother => ?_⟩
    · obtain ⟨hvalue, rfl⟩ := normalizeUzPhone_eq_some_iff.1 hphone
      obtain ⟨hlen, hcode, hall⟩ := hshape hvalue
      rw [isUzNumber_iff hlen hcode, hall]
      exact (h hvalue).1
    · obtain ⟨hvalue, rfl⟩ := normalizeUzPhone_eq_some_iff.1 hphone
      have hnot : '+' ∉ (kept value).tail := fun hplus => normalizePhone_of_misplaced hplus hother
      have hlong : (decimals unicode value).length ≠ 9 := fun hnine => hnot ((h hvalue).2 hnine)
      rw [normalizePhone_of_digits (h hvalue).1 (.inr (hvalue.digits.resolve_left hlong).1) hnot] at hother
      rw [withUzCode, if_neg hlong]
      exact Except.ok.inj hother

/-- Nine digits, as they are dialled locally. -/
theorem not_agree_local : ¬∀ unicode : Decimals, Agree unicode "901234567" := by
  intro h
  have hagree := (h ⟨Char.isDigit, fun _ _ => rfl⟩).same "+998901234567" "+901234567" (by decide +kernel) (by decide +kernel)
  revert hagree
  decide +kernel

end AgentPlatform.Shop
