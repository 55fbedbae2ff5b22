import Mathlib.Data.List.Induction
import Mathlib.Data.List.TakeWhile
import AgentPlatform.Erp.Postings
import AgentPlatform.Lib.Split

/-!
# Posting dates

`_text`, `_real_date` and `_date_text` of `erp.py`. A date is read in one of three layouts: the year first
with hyphens, or the day or the month first with the year last. `Layout.Reads` says what a text spells in a
layout, `RealDate` which dates the calendar has, and `dateText` is what a posting accepts.
-/

namespace AgentPlatform.Erp

open Outcome Split

/-- `_text`. -/
def fieldText (lib : Library) (value : Json) (name : String) (maximum : ℕ) (required : Bool) :
    Except Err String :=
  let missing : Except Err String :=
    if required then
      .error (.erpError (name ++ " is required for a posting and the document did not carry it") none)
    else .ok ""
  let bounded (text : String) : Except Err String :=
    if text = "" then missing
    else if maximum < text.length then
      .error (.erpError (name ++ " exceeds " ++ toString maximum ++ " characters") none)
    else .ok text
  match value with
  | .null => missing
  | .str text => if text = "" then missing else bounded (strip text)
  | value => bounded (strip (lib.str value))

/-! ### The calendar -/

/-- `calendar.isleap`. -/
def isLeap (year : ℕ) : Bool := year % 4 = 0 && (year % 100 != 0 || year % 400 = 0)

/-- `calendar.monthrange(year, month)[1]`. -/
def monthLength (year month : ℕ) : ℕ :=
  if month = 2 then if isLeap year then 29 else 28
  else if month = 4 ∨ month = 6 ∨ month = 9 ∨ month = 11 then 30
  else 31

/-- `_real_date`. -/
def realDate (year month day : ℕ) : Bool :=
  if ¬ (1 ≤ month ∧ month ≤ 12) ∨ ¬ (1 ≤ day ∧ day ≤ 31) ∨ ¬ (1900 ≤ year ∧ year ≤ 2999) then false
  else day ≤ monthLength year month

/-! ### Numbers -/

/-- `int` of a run of ASCII digits. -/
def valueOf (digits : List Char) : ℕ := Nat.ofDigitChars 10 digits 0

/-- A number in at least so many digits. -/
def padded (width n : ℕ) : List Char :=
  List.replicate (width - (Nat.toDigits 10 n).length) '0' ++ Nat.toDigits 10 n

/-- `f'{year:04d}-{month:02d}-{day:02d}'`. -/
def isoText (year month day : ℕ) : List Char :=
  padded 4 year ++ '-' :: padded 2 month ++ '-' :: padded 2 day

/-- The separators of a numeric triple. -/
def isSeparator (c : Char) : Bool := c == '.' || c == '/' || c == '-'

/-- The text is `[0-9]{low,high}`. -/
def isDigits (low high : ℕ) (text : List Char) : Bool :=
  decide (low ≤ text.length) && decide (text.length ≤ high) && text.all Char.isDigit

/-- The groups of runs of four, two and two digits, with hyphens between. -/
def isoGroups (text : List Char) : Option (ℕ × ℕ × ℕ) :=
  match text.splitOn '-' with
  | [year, month, day] =>
    if isDigits 4 4 year && isDigits 2 2 month && isDigits 2 2 day then
      some (valueOf year, valueOf month, valueOf day)
    else none
  | _ => none

/-- The groups of two runs of one or two digits and one of four, with separators between. -/
def numericGroups (text : List Char) : Option (ℕ × ℕ × ℕ) :=
  match text.splitOnP isSeparator with
  | [first, second, year] =>
    if isDigits 1 2 first && isDigits 1 2 second && isDigits 4 4 year then
      some (valueOf first, valueOf second, valueOf year)
    else none
  | _ => none

/-- The day and the month of a numeric triple, where exactly one of its parts can be the month. -/
def dayAndMonth (lib : Library) (text : String) (first second : ℕ) : Except Err (ℕ × ℕ) :=
  if 12 < first ∧ second ≤ 12 then .ok (first, second)
  else if 12 < second ∧ first ≤ 12 then .ok (second, first)
  else if 12 < first then
    .error (.erpError ("doc_date " ++ lib.repr text ++ " names no month: both parts are greater than " ++
      "12. The platform will not guess a posting date; send an ISO date (YYYY-MM-DD)") none)
  else
    .error (.erpError ("doc_date " ++ lib.repr text ++ " is ambiguous: both parts could be a month. " ++
      "The platform will not guess a posting date. Send an ISO date (YYYY-MM-DD) or a form where one " ++
      "part is greater than 12") none)

/-- The part of `_date_text` after `_text`. -/
def readDate (lib : Library) (text : String) : Except Err String := do
  let bare := text.toList.filter fun c => !isSeparator c
  ensure (bare ≠ [] ∧ bare.all Char.isDigit = true)
    (.erpError ("doc_date " ++ lib.repr text ++ " is not written in ASCII digits. The platform will not " ++
      "read a date it cannot echo back exactly: a document posted into the wrong period is a tax " ++
      "problem") none)
  let unreal := Err.erpError ("doc_date " ++ lib.repr text ++ " is not a real calendar date") none
  match isoGroups text.toList with
  | some (year, month, day) =>
    ensure (realDate year month day = true) unreal
    pure text
  | none =>
    let (first, second, year) ← need (numericGroups text.toList)
      (.erpError ("doc_date " ++ lib.repr text ++ " is unsupported. The platform will not guess a " ++
        "posting date: a document posted into the wrong period is a tax problem") none)
    let (day, month) ← dayAndMonth lib text first second
    ensure (realDate year month day = true) unreal
    pure (String.ofList (isoText year month day))

/-- `_date_text`. -/
def dateText (lib : Library) (value : Json) : Except Err String := do
  let text ← fieldText lib value "doc_date" 32 true
  readDate lib text

/-! ### Readings -/

/-- The supported layouts. -/
inductive Layout
  | yearFirst
  | dayFirst
  | monthFirst
  deriving DecidableEq, Repr

/-- A calendar date: year, month and day. -/
abbrev Date := ℕ × ℕ × ℕ

/-- Three runs of digits with separators between. -/
structure Triple where
  first : List Char
  second : List Char
  third : List Char
  sep : Char
  sep' : Char

def Triple.text (t : Triple) : List Char := t.first ++ t.sep :: t.second ++ t.sep' :: t.third

/-- A text spells a date in a layout. -/
inductive Layout.Reads (text : List Char) : Layout → Date → Prop
  | yearFirst {t : Triple} (h : text = t.text) (hsep : t.sep = '-' ∧ t.sep' = '-')
      (hfirst : isDigits 4 4 t.first = true) (hsecond : isDigits 2 2 t.second = true)
      (hthird : isDigits 2 2 t.third = true) :
      Layout.Reads text .yearFirst (valueOf t.first, valueOf t.second, valueOf t.third)
  | dayFirst {t : Triple} (h : text = t.text)
      (hsep : isSeparator t.sep = true ∧ isSeparator t.sep' = true)
      (hfirst : isDigits 1 2 t.first = true) (hsecond : isDigits 1 2 t.second = true)
      (hthird : isDigits 4 4 t.third = true) :
      Layout.Reads text .dayFirst (valueOf t.third, valueOf t.second, valueOf t.first)
  | monthFirst {t : Triple} (h : text = t.text)
      (hsep : isSeparator t.sep = true ∧ isSeparator t.sep' = true)
      (hfirst : isDigits 1 2 t.first = true) (hsecond : isDigits 1 2 t.second = true)
      (hthird : isDigits 4 4 t.third = true) :
      Layout.Reads text .monthFirst (valueOf t.third, valueOf t.first, valueOf t.second)

/-- The calendar has the date, in the years a posting may have. -/
def RealDate (d : Date) : Prop :=
  (1900 ≤ d.1 ∧ d.1 ≤ 2999) ∧ (1 ≤ d.2.1 ∧ d.2.1 ≤ 12) ∧ 1 ≤ d.2.2 ∧ d.2.2 ≤ monthLength d.1 d.2.1

/-- A text has a date as a valid reading. -/
def Reading (text : List Char) (d : Date) : Prop := (∃ l, Layout.Reads text l d) ∧ RealDate d

/-! ### Digits -/

section Digits

variable {low high : ℕ} {digits text : List Char} {c : Char}

theorem not_separator_of_isDigit (h : c.isDigit = true) : isSeparator c = false := by
  by_contra hsep
  simp only [isSeparator, Bool.not_eq_false, Bool.or_eq_true, beq_iff_eq] at hsep
  rcases hsep with (rfl | rfl) | rfl <;> cases h

theorem isDigits_iff : isDigits low high text = true ↔
    (low ≤ text.length ∧ text.length ≤ high) ∧ ∀ c ∈ text, c.isDigit = true := by
  simp [isDigits]

theorem digitChar_value (h : c.isDigit = true) : (c.toNat - '0'.toNat).digitChar = c ∧
    c.toNat - '0'.toNat < 10 := by
  obtain ⟨hlow, hhigh⟩ := Char.isDigit_iff_toNat.1 h
  have hzero : '0'.toNat = 48 := rfl
  have hnine : '9'.toNat = 57 := rfl
  have hlt : c.toNat - '0'.toNat < 10 := by omega
  refine ⟨Char.toNat_inj.1 ?_, hlt⟩
  rw [Nat.toNat_digitChar_of_lt_ten hlt]
  omega

theorem valueOf_concat (digits : List Char) (c : Char) :
    valueOf (digits ++ [c]) = 10 * valueOf digits + (c.toNat - '0'.toNat) := by
  simp [valueOf, Nat.ofDigitChars_eq_foldl]

/-- **Digits and their number.** Padded to its width, the number of some digits is those digits. -/
theorem padded_valueOf (hne : digits ≠ []) (h : ∀ c ∈ digits, c.isDigit = true) :
    padded digits.length (valueOf digits) = digits := by
  induction digits using List.reverseRecOn with
  | nil => exact absurd rfl hne
  | append_singleton init c ih =>
    obtain ⟨hchar, hlt⟩ := digitChar_value (h c (by simp))
    rw [valueOf_concat]
    generalize c.toNat - '0'.toNat = d at hchar hlt
    by_cases hinit : init = []
    · subst hinit
      simp [padded, valueOf, Nat.toDigits_of_lt_base hlt, hchar]
    · have hpad := ih hinit fun c hc => h c (List.mem_append_left _ hc)
      have hlen : 0 < init.length := List.length_pos_iff.2 hinit
      have hlast : Nat.toDigits 10 d = [c] := by rw [Nat.toDigits_of_lt_base hlt, hchar]
      unfold padded at hpad ⊢
      rw [List.length_append, List.length_singleton]
      rcases Nat.eq_zero_or_pos (valueOf init) with hzero | hpos
      · -- only zeros so far
        rw [hzero, Nat.toDigits_zero, List.length_singleton, ← List.replicate_succ',
          Nat.sub_add_cancel hlen] at hpad
        rw [hzero, Nat.mul_zero, Nat.zero_add, hlast, List.length_singleton, Nat.add_sub_cancel, hpad]
      · rw [← Nat.toDigits_append_toDigits (by decide) hpos hlt, hlast, List.length_append,
          List.length_singleton, Nat.add_sub_add_right, ← List.append_assoc, hpad]

end Digits

/-! ### The readings of a text -/

section Readings

variable {lib : Library} {text : List Char} {a b c : ℕ} {d : Date} {t : Triple}

theorem parts_of_triple {p : Char → Bool} (h : text = t.text) (hsep : p t.sep = true ∧ p t.sep' = true)
    (hfree : ∀ part ∈ [t.first, t.second, t.third], ∀ c ∈ part, p c = false) :
    text.splitOnP p = [t.first, t.second, t.third] :=
  splitOnP_eq_three.2 ⟨⟨t.sep, t.sep', hsep.1, hsep.2, h⟩, hfree⟩

theorem triple_of_parts {p : Char → Bool} {x y z : List Char} (h : text.splitOnP p = [x, y, z]) :
    ∃ t : Triple, text = t.text ∧ (p t.sep = true ∧ p t.sep' = true) ∧ t.first = x ∧ t.second = y ∧
      t.third = z := by
  obtain ⟨⟨sep, sep', hsep, hsep', htext⟩, -⟩ := splitOnP_eq_three.1 h
  exact ⟨⟨x, y, z, sep, sep'⟩, htext, ⟨hsep, hsep'⟩, rfl, rfl, rfl⟩

theorem digits_parts {l₁ h₁ l₂ h₂ l₃ h₃ : ℕ} {x y z : List Char} (hx : isDigits l₁ h₁ x = true)
    (hy : isDigits l₂ h₂ y = true) (hz : isDigits l₃ h₃ z = true) :
    ∀ part ∈ [x, y, z], ∀ c ∈ part, c.isDigit = true := by
  intro part hpart
  simp only [List.mem_cons, List.not_mem_nil, or_false] at hpart
  rcases hpart with rfl | rfl | rfl
  · exact (isDigits_iff.1 hx).2
  · exact (isDigits_iff.1 hy).2
  · exact (isDigits_iff.1 hz).2

theorem hyphen_free {c : Char} (h : c.isDigit = true) : (c == '-') = false := by
  rw [beq_eq_false_iff_ne]
  rintro rfl
  cases h

theorem isoGroups_eq_some : isoGroups text = some d ↔ Layout.Reads text .yearFirst d := by
  constructor
  · intro h
    unfold isoGroups at h
    split at h
    · rename_i x y z hparts
      split at h
      · rename_i hdigits
        obtain rfl := Option.some.inj h
        simp only [Bool.and_eq_true] at hdigits
        obtain ⟨t, htext, hsep, rfl, rfl, rfl⟩ := triple_of_parts hparts
        exact .yearFirst htext (by simpa using hsep) hdigits.1.1 hdigits.1.2 hdigits.2
      · cases h
    · cases h
  · rintro (⟨htext, hsep, hfirst, hsecond, hthird⟩ | _ | _)
    have hparts := parts_of_triple (p := fun c => c == '-') htext (by simpa using hsep)
      fun part hpart c hc => hyphen_free (digits_parts hfirst hsecond hthird part hpart c hc)
    rw [isoGroups, List.splitOn_eq_splitOnP, hparts]
    simp [hfirst, hsecond, hthird]

/-- A reading with the year last shows the groups of a numeric triple. -/
theorem numericGroups_of_reads
    (h : Layout.Reads text .dayFirst (c, b, a) ∨ Layout.Reads text .monthFirst (c, a, b)) :
    numericGroups text = some (a, b, c) := by
  have hgroups : ∀ t : Triple, text = t.text → (isSeparator t.sep = true ∧ isSeparator t.sep' = true) →
      isDigits 1 2 t.first = true → isDigits 1 2 t.second = true → isDigits 4 4 t.third = true →
      numericGroups text = some (valueOf t.first, valueOf t.second, valueOf t.third) := by
    intro t htext hsep hfirst hsecond hthird
    have hparts := parts_of_triple (p := isSeparator) htext hsep fun part hpart c hc =>
      not_separator_of_isDigit (digits_parts hfirst hsecond hthird part hpart c hc)
    rw [numericGroups, hparts]
    simp [hfirst, hsecond, hthird]
  rcases h with h | h
  · cases h with
    | dayFirst htext hsep hfirst hsecond hthird => exact hgroups _ htext hsep hfirst hsecond hthird
  · cases h with
    | monthFirst htext hsep hfirst hsecond hthird => exact hgroups _ htext hsep hfirst hsecond hthird

/-- The groups of a numeric triple, as the day first and the month first. -/
theorem numericGroups_eq_some : numericGroups text = some (a, b, c) ↔
    Layout.Reads text .dayFirst (c, b, a) ∧ Layout.Reads text .monthFirst (c, a, b) := by
  constructor
  · intro h
    unfold numericGroups at h
    split at h
    · rename_i x y z hparts
      split at h
      · rename_i hdigits
        obtain ⟨rfl, rfl, rfl⟩ : valueOf x = a ∧ valueOf y = b ∧ valueOf z = c := by simpa using h
        simp only [Bool.and_eq_true] at hdigits
        obtain ⟨t, htext, hsep, rfl, rfl, rfl⟩ := triple_of_parts hparts
        exact ⟨.dayFirst htext hsep hdigits.1.1 hdigits.1.2 hdigits.2,
          .monthFirst htext hsep hdigits.1.1 hdigits.1.2 hdigits.2⟩
      · cases h
    · cases h
  · rintro ⟨h, -⟩
    exact numericGroups_of_reads (.inl h)

theorem not_numeric (h : Layout.Reads text .yearFirst d) : numericGroups text = none := by
  cases h with
  | @yearFirst t htext hsep hfirst hsecond hthird =>
    have hparts := parts_of_triple (p := isSeparator) htext (by rw [hsep.1, hsep.2]; decide)
      fun part hpart c hc => not_separator_of_isDigit (digits_parts hfirst hsecond hthird part hpart c hc)
    have hlong : isDigits 1 2 t.first = false := by
      by_contra hshort
      have hlen := (isDigits_iff.1 hfirst).1.1
      have hlen' := (isDigits_iff.1 (by simpa using hshort)).1.2
      exact absurd (hlen.trans hlen') (by decide)
    rw [numericGroups, hparts]
    simp [hlong]

theorem realDate_iff : realDate a b c = true ↔ RealDate (a, b, c) := by
  have hlength : monthLength a b ≤ 31 := by
    unfold monthLength
    split_ifs <;> decide
  unfold realDate RealDate
  dsimp only
  split
  · constructor
    · intro h
      cases h
    · intro h
      omega
  · rename_i hbounds
    rw [decide_eq_true_eq]
    omega

/-- All readings of a numeric triple. -/
theorem reading_of_numeric (h : numericGroups text = some (a, b, c)) :
    Reading text d ↔ (d = (c, b, a) ∨ d = (c, a, b)) ∧ RealDate d := by
  obtain ⟨hday, hmonth⟩ := numericGroups_eq_some.1 h
  refine and_congr_left fun _ => ⟨?_, ?_⟩
  · rintro ⟨l, hl⟩
    obtain ⟨year, month, day⟩ := d
    cases l with
    | yearFirst =>
      rw [not_numeric hl] at h
      cases h
    | dayFirst =>
      have hgroups := (numericGroups_of_reads (.inl hl)).symm.trans h
      simp only [Option.some.injEq, Prod.mk.injEq] at hgroups
      obtain ⟨rfl, rfl, rfl⟩ := hgroups
      exact .inl rfl
    | monthFirst =>
      have hgroups := (numericGroups_of_reads (.inr hl)).symm.trans h
      simp only [Option.some.injEq, Prod.mk.injEq] at hgroups
      obtain ⟨rfl, rfl, rfl⟩ := hgroups
      exact .inr rfl
  · rintro (rfl | rfl)
    · exact ⟨_, hday⟩
    · exact ⟨_, hmonth⟩

theorem reading_of_iso (h : isoGroups text = some d) {d' : Date} :
    Reading text d' ↔ d' = d ∧ RealDate d' := by
  have hreads := isoGroups_eq_some.1 h
  refine and_congr_left fun _ => ⟨?_, ?_⟩
  · rintro ⟨l, hl⟩
    obtain ⟨year, month, day⟩ := d'
    cases l with
    | yearFirst => exact Option.some.inj ((isoGroups_eq_some.2 hl).symm.trans h)
    | dayFirst =>
      have hnone := not_numeric hreads
      rw [numericGroups_of_reads (.inl hl)] at hnone
      cases hnone
    | monthFirst =>
      have hnone := not_numeric hreads
      rw [numericGroups_of_reads (.inr hl)] at hnone
      cases hnone
  · rintro rfl
    exact ⟨_, hreads⟩

theorem iso_text (h : Layout.Reads text .yearFirst (a, b, c)) : text = isoText a b c := by
  cases h with
  | @yearFirst t htext hsep hfirst hsecond hthird =>
    have hpadded : ∀ {n : ℕ} {part : List Char}, 0 < n → isDigits n n part = true →
        padded n (valueOf part) = part := by
      intro n part hn hpart
      obtain ⟨⟨hlow, hhigh⟩, hdigits⟩ := isDigits_iff.1 hpart
      obtain rfl := Nat.le_antisymm hlow hhigh
      exact padded_valueOf (List.length_pos_iff.1 hn) hdigits
    rw [isoText, hpadded (by decide) hfirst, hpadded (by decide) hsecond, hpadded (by decide) hthird,
      htext, Triple.text, hsep.1, hsep.2]

theorem dayAndMonth_ok {s : String} {first second day month : ℕ}
    (h : dayAndMonth lib s first second = .ok (day, month)) :
    (day = first ∧ month = second ∨ day = second ∧ month = first) ∧ 12 < day := by
  unfold dayAndMonth at h
  split at h
  · rename_i hfirst
    obtain ⟨rfl, rfl⟩ := Prod.mk.inj (Except.ok.inj h)
    exact ⟨.inl ⟨rfl, rfl⟩, hfirst.1⟩
  · split at h
    · rename_i hsecond
      obtain ⟨rfl, rfl⟩ := Prod.mk.inj (Except.ok.inj h)
      exact ⟨.inr ⟨rfl, rfl⟩, hsecond.1⟩
    · split at h <;> cases h

/-- **An accepted date** is the only valid reading of its text. -/
theorem readDate_ok {s iso : String} (h : readDate lib s = .ok iso) :
    (∀ c ∈ s.toList, c.isDigit = true ∨ isSeparator c = true) ∧
    ∃ year month day, iso.toList = isoText year month day ∧ Reading s.toList (year, month, day) ∧
      ∀ d, Reading s.toList d → d = (year, month, day) := by
  simp only [readDate, bind_eq_ok, exists_unit, ensure_eq_ok] at h
  obtain ⟨⟨-, hascii⟩, h⟩ := h
  refine ⟨fun c hc => ?_, ?_⟩
  · by_cases hsep : isSeparator c = true
    · exact .inr hsep
    · exact .inl (List.all_eq_true.1 hascii c (List.mem_filter.2 ⟨hc, by simpa using hsep⟩))
  · split at h
    · rename_i year month day hgroups
      simp only [bind_eq_ok, exists_unit, ensure_eq_ok, pure_eq_ok] at h
      obtain ⟨hreal, rfl⟩ := h
      refine ⟨year, month, day, iso_text (isoGroups_eq_some.1 hgroups), ?_, fun d hd => ?_⟩
      · exact (reading_of_iso hgroups).2 ⟨rfl, realDate_iff.1 hreal⟩
      · exact ((reading_of_iso hgroups).1 hd).1
    · simp only [bind_eq_ok, exists_unit, need_eq_ok, ensure_eq_ok, pure_eq_ok] at h
      obtain ⟨⟨first, second, year⟩, hgroups, ⟨day, month⟩, hpair, hreal, rfl⟩ := h
      obtain ⟨hwhich, hlarge⟩ := dayAndMonth_ok hpair
      have hreal' := realDate_iff.1 hreal
      refine ⟨year, month, day, by simp, ?_, fun d hd => ?_⟩
      · refine (reading_of_numeric hgroups).2 ⟨?_, hreal'⟩
        rcases hwhich with ⟨rfl, rfl⟩ | ⟨rfl, rfl⟩
        · exact .inl rfl
        · exact .inr rfl
      · -- the other reading would have a month past December
        obtain ⟨hd, hdreal⟩ := (reading_of_numeric hgroups).1 hd
        have hmonth := hdreal.2.1.2
        rcases hwhich with ⟨rfl, rfl⟩ | ⟨rfl, rfl⟩ <;> rcases hd with rfl | rfl <;>
          first
            | rfl
            | exact absurd hlarge (Nat.not_lt.2 hmonth)

end Readings

theorem mem_dropWhile {p : Char → Bool} {text : List Char} {c : Char} (h : c ∈ text)
    (hc : p c = false) : c ∈ text.dropWhile p := by
  rw [← List.takeWhile_append_dropWhile (p := p) (l := text), List.mem_append] at h
  rcases h with h | h
  · rw [List.mem_takeWhile_imp h] at hc
    cases hc
  · exact h

theorem mem_strip {s : String} {c : Char} (h : c ∈ s.toList) (hc : isSpace c = false) :
    c ∈ (strip s).toList := by
  rw [strip, String.toList_ofList, List.mem_reverse]
  exact mem_dropWhile (List.mem_reverse.2 (mem_dropWhile h hc)) hc

theorem dateText_ok {lib : Library} {s iso : String} (h : dateText lib (.str s) = .ok iso) :
    readDate lib (strip s) = .ok iso := by
  rw [dateText, bind_eq_ok] at h
  obtain ⟨text, htext, h⟩ := h
  have hstrip : text = strip s := by
    simp only [fieldText, if_true] at htext
    split at htext
    · cases htext
    · split at htext
      · cases htext
      · split at htext
        · cases htext
        · exact (Except.ok.inj htext).symm
  rw [hstrip] at h
  exact h

/-- **Dates are unambiguous.** A date that is accepted is an ISO date of the calendar and the only valid
reading of the text; a text with two valid readings, without one, or with a character that is neither an
ASCII digit nor a separator is refused. -/
theorem date_unambiguous (lib : Library) (s : String) :
    (∀ iso, dateText lib (.str s) = .ok iso → ∃ year month day,
      iso.toList = isoText year month day ∧ RealDate (year, month, day) ∧
      Reading (strip s).toList (year, month, day) ∧
      ∀ d, Reading (strip s).toList d → d = (year, month, day)) ∧
    ((∃ d d', d ≠ d' ∧ Reading (strip s).toList d ∧ Reading (strip s).toList d') →
      ∃ e, dateText lib (.str s) = .error e) ∧
    ((∀ d, ¬ Reading (strip s).toList d) → ∃ e, dateText lib (.str s) = .error e) ∧
    ((∃ c ∈ s.toList, c.isDigit = false ∧ isSeparator c = false ∧ isSpace c = false) →
      ∃ e, dateText lib (.str s) = .error e) := by
  have hok : ∀ iso, dateText lib (.str s) = .ok iso → _ := fun iso h => readDate_ok (dateText_ok h)
  have hrefused : (∀ iso, dateText lib (.str s) ≠ .ok iso) → ∃ e, dateText lib (.str s) = .error e := by
    intro hno
    cases hdate : dateText lib (.str s) with
    | ok iso => exact absurd hdate (hno iso)
    | error e => exact ⟨e, rfl⟩
  refine ⟨fun iso h => ?_, fun hambiguous => hrefused fun iso h => ?_,
    fun himpossible => hrefused fun iso h => ?_, fun hforeign => hrefused fun iso h => ?_⟩
  · obtain ⟨-, year, month, day, hiso, hreading, hunique⟩ := hok iso h
    exact ⟨year, month, day, hiso, hreading.2, hreading, hunique⟩
  · obtain ⟨d, d', hne, hd, hd'⟩ := hambiguous
    obtain ⟨-, year, month, day, -, -, hunique⟩ := hok iso h
    exact hne ((hunique d hd).trans (hunique d' hd').symm)
  · obtain ⟨-, year, month, day, -, hreading, -⟩ := hok iso h
    exact himpossible _ hreading
  · obtain ⟨c, hc, hdigit, hsep, hspace⟩ := hforeign
    rcases (hok iso h).1 c (mem_strip hc hspace) with h' | h'
    · rw [hdigit] at h'
      cases h'
    · rw [hsep] at h'
      cases h'

end AgentPlatform.Erp
