import AgentPlatform.Base
import AgentPlatform.Lib.Binary64
import AgentPlatform.Lib.Decimal

/-!
# The comparison form of an observed value

`canonical` of `business_graph.py`: two observations agree when their keys are the same. A number and a text
that looks like one become a double; what a double cannot hold is compared as text.

`denoted?` is the number a value denotes, as it is written. Up to `2 ^ 53` the key of an integer is that
integer; from there on different integers share a double, and `canonical_exact_iff` says when.
-/

namespace AgentPlatform.Graph

/-- A value of a row, as a read tool returns it: what is neither a number nor a text by what `str` makes of
it. -/
inductive Cell
  | none
  | bool (value : Bool)
  | int (value : ℤ)
  | float (value : Binary64)
  | str (value : String)
  | other (shown : String)
  deriving DecidableEq

/-- Python's texts: `repr` of a float, and `casefold` outside ASCII. -/
structure Texts where
  floatText : Binary64 → String
  fold : Char → List Char

variable (lib : Texts)

/-- `text.casefold()`. -/
def casefold (text : String) : String :=
  String.ofList (text.toList.flatMap fun c => if c.toNat < 128 then [c.toLower] else lib.fold c)

/-- `str(value)`. -/
def Cell.text : Cell → String
  | .none => "None"
  | .bool b => if b then "True" else "False"
  | .int n => toString n
  | .float x => lib.floatText x
  | .str s => s
  | .other s => s

/-- What `canonical` returns. -/
inductive Key
  | bool (value : Bool)
  | number (value : Binary64)
  | text (value : String)
  deriving DecidableEq

/-- `key == key'`. -/
def Key.same : Key → Key → Bool
  | .number x, .number y => x.same y
  | k, k' => decide (k = k')

/-- `_NUMERIC`. -/
def numeric? (text : List Char) : Option Decimal :=
  (Decimal.read (· == '.') text).filter fun d => d.whole == ['0'] || d.whole.head? != some '0'

/-- A number where it is finite, the text otherwise. -/
def finiteOr (x : Binary64) (text : String) : Key :=
  match x with
  | .finite q fits => .number (.finite q fits)
  | _ => .text (casefold lib text)

/-- The form of a text. -/
def canonicalText (text : String) : Key :=
  match numeric? (strip text).toList with
  | some d => finiteOr lib (Binary64.ofRat d.value) (strip text)
  | none => .text (casefold lib (strip text))

/-- `canonical`. -/
def canonical : Cell → Key
  | .bool b => .bool b
  | .int n => finiteOr lib (Binary64.ofRat n) (strip (toString n))
  | .float x => .number x
  | v => canonicalText lib (v.text lib)

/-! ### Exact numbers -/

/-- The number a value denotes exactly. -/
def denoted? : Cell → Option ℚ
  | .bool _ => Option.none
  | .int n => some n
  | .float x => x.value?
  | v => (numeric? (strip (v.text lib)).toList).map Decimal.value

variable {lib}

theorem digit_plain {c : Char} (h : c.isDigit = true) :
    c.toNat < 128 ∧ c.toLower = c ∧ isSpace c = false := by
  rw [Char.isDigit, Bool.and_eq_true, decide_eq_true_eq, decide_eq_true_eq] at h
  have hlow : 48 ≤ c.toNat := h.1
  have hhigh : c.toNat ≤ 57 := h.2
  refine ⟨by omega, ?_, ?_⟩
  · unfold Char.toLower
    rw [dif_neg]
    intro hupper
    have : 65 ≤ c.toNat := hupper.1
    omega
  · unfold isSpace
    grind

variable {text : String}

theorem strip_eq_self (h : ∀ c ∈ text.toList, isSpace c = false) : strip text = text := by
  have hdrop : ∀ l : List Char, (∀ c ∈ l, isSpace c = false) → l.dropWhile isSpace = l := by
    intro l hl
    cases l with
    | nil => rfl
    | cons c l => rw [List.dropWhile_cons_of_neg (by simp [hl c List.mem_cons_self])]
  unfold strip
  rw [hdrop _ h, hdrop _ (by simpa using h), List.reverse_reverse, String.ofList_toList]

theorem casefold_eq_self (h : ∀ c ∈ text.toList, c = '-' ∨ c.isDigit = true ∨ (c == '.') = true) :
    casefold lib text = text := by
  have hself : ∀ c ∈ text.toList, (if c.toNat < 128 then [c.toLower] else lib.fold c) = [c] := by
    intro c hc
    have hplain : c.toNat < 128 ∧ c.toLower = c := by
      rcases h c hc with rfl | hdigit | hdot
      · decide
      · exact ⟨(digit_plain hdigit).1, (digit_plain hdigit).2.1⟩
      · rw [eq_of_beq hdot]
        decide
    rw [if_pos hplain.1, hplain.2]
  unfold casefold
  rw [List.flatMap_congr hself, List.flatMap_singleton', String.ofList_toList]

theorem casefold_of_read {d : Decimal} (h : Decimal.read (· == '.') text.toList = some d) :
    casefold lib text = text :=
  casefold_eq_self fun _ hc => Decimal.mem_of_read h hc

theorem toString_read (n : ℤ) :
    ∃ d, Decimal.read (· == '.') (toString n).toList = some d ∧ d.value = n :=
  Option.map_eq_some_iff.1 (Decimal.read_toString n)

theorem strip_toString (n : ℤ) : strip (toString n) = toString n := by
  refine strip_eq_self fun c hc => ?_
  have hvalue : (Decimal.read (fun _ => false) (toString n).toList).map Decimal.value = some (n : ℚ) :=
    Decimal.read_toString n
  obtain ⟨d, hread, -⟩ := Option.map_eq_some_iff.1 hvalue
  rcases Decimal.mem_of_read hread hc with rfl | hdigit | hnone
  · decide
  · exact (digit_plain hdigit).2.2
  · cases hnone

/-- A text that spells a number. -/
def Spells (text : String) (q : ℚ) : Prop :=
  ∃ d, Decimal.read (· == '.') text.toList = some d ∧ d.value = q

variable {q : ℚ}

theorem Spells.unique {r : ℚ} (hq : Spells text q) (hr : Spells text r) : q = r := by
  obtain ⟨d, hd, rfl⟩ := hq
  obtain ⟨d', hd', rfl⟩ := hr
  rw [hd] at hd'
  cases hd'
  rfl

theorem finiteOr_small (h : |Binary64.nearest q| < Binary64.pow2 1024) :
    finiteOr lib (Binary64.ofRat q) text = .number (Binary64.ofRat q) := by
  rw [Binary64.ofRat, dif_pos h]
  rfl

theorem finiteOr_large (h : ¬|Binary64.nearest q| < Binary64.pow2 1024) (hread : Spells text q) :
    finiteOr lib (Binary64.ofRat q) text = .text text := by
  obtain ⟨d, hd, -⟩ := hread
  rw [Binary64.ofRat, dif_neg h]
  exact congrArg Key.text (casefold_of_read hd)

theorem canonicalText_of_number (h : (numeric? (strip text).toList).map Decimal.value = some q) :
    Spells (strip text) q ∧
      canonicalText lib text = finiteOr lib (Binary64.ofRat q) (strip text) := by
  obtain ⟨d, hd, rfl⟩ := Option.map_eq_some_iff.1 h
  have hread : Decimal.read (· == '.') (strip text).toList = some d := (Option.filter_eq_some_iff.1 hd).1
  exact ⟨⟨d, hread, rfl⟩, by rw [canonicalText, hd]⟩

/-- The key of an exact number: its double, or past the largest double a text that spells it. -/
theorem canonical_of_exact {v : Cell} (h : denoted? lib v = some q) :
    (|Binary64.nearest q| < Binary64.pow2 1024 → canonical lib v = .number (Binary64.ofRat q)) ∧
      (¬|Binary64.nearest q| < Binary64.pow2 1024 →
        ∃ text, canonical lib v = .text text ∧ Spells text q) := by
  have htext : ∀ text, (numeric? (strip text).toList).map Decimal.value = some q →
      (|Binary64.nearest q| < Binary64.pow2 1024 →
        canonicalText lib text = .number (Binary64.ofRat q)) ∧
      (¬|Binary64.nearest q| < Binary64.pow2 1024 →
        ∃ t, canonicalText lib text = .text t ∧ Spells t q) := by
    intro text hq
    obtain ⟨hspell, hkey⟩ : _ ∧ canonicalText lib text = _ := canonicalText_of_number hq
    rw [hkey]
    exact ⟨finiteOr_small, fun hbig => ⟨_, finiteOr_large hbig hspell, hspell⟩⟩
  cases v with
  | bool b => cases h
  | int n =>
    obtain rfl : (n : ℚ) = q := Option.some.inj h
    have hspell : Spells (strip (toString n)) n := by
      rw [strip_toString]
      exact toString_read n
    exact ⟨finiteOr_small, fun hbig => ⟨_, finiteOr_large hbig hspell, hspell⟩⟩
  | float x =>
    cases x with
    | finite r fits =>
      obtain rfl : r = q := Option.some.inj h
      refine ⟨fun _ => ?_, fun hbig => absurd ?_ hbig⟩
      · rw [Binary64.ofRat_of_fits fits]
        rfl
      · rw [fits.1]
        exact fits.2
    | infinite negative => cases h
    | nan => cases h
  | none => exact htext (Cell.none.text lib) h
  | str s => exact htext ((Cell.str s).text lib) h
  | other s => exact htext ((Cell.other s).text lib) h

theorem same_ofRat {r : ℚ} (hq : |Binary64.nearest q| < Binary64.pow2 1024)
    (hr : |Binary64.nearest r| < Binary64.pow2 1024) :
    (Binary64.ofRat q).same (Binary64.ofRat r) = true ↔ Binary64.nearest q = Binary64.nearest r := by
  simp [Binary64.ofRat, hq, hr, Binary64.same]

/-- **Two values that denote integers have different keys unless the integers are equal: exactly where the
integers are equal, their nearest doubles differ, or they are past the largest double.** -/
theorem canonical_exact_iff {v w : Cell} {m n : ℤ} (hv : denoted? lib v = some (m : ℚ))
    (hw : denoted? lib w = some (n : ℚ)) :
    ((canonical lib v).same (canonical lib w) = true → m = n) ↔
      m = n ∨ Binary64.nearest m ≠ Binary64.nearest n ∨
        Binary64.pow2 1024 ≤ |Binary64.nearest (m : ℚ)| := by
  obtain ⟨hvsmall, hvlarge⟩ := canonical_of_exact hv
  obtain ⟨hwsmall, hwlarge⟩ := canonical_of_exact hw
  by_cases hm : |Binary64.nearest (m : ℚ)| < Binary64.pow2 1024
  · rw [hvsmall hm]
    by_cases hn : |Binary64.nearest (n : ℚ)| < Binary64.pow2 1024
    · rw [hwsmall hn, Key.same, same_ofRat hm hn]
      rw [or_iff_left (not_le.2 hm)]
      exact imp_iff_or_not
    -- a text and a number
    · obtain ⟨text, htext, -⟩ := hwlarge hn
      rw [htext]
      refine iff_of_true (fun h => by simp [Key.same] at h) (.inr (.inl fun h => hn ?_))
      rwa [← h]
  · refine iff_of_true (fun hsame => ?_) (.inr (.inr (not_lt.1 hm)))
    obtain ⟨text, htext, hspell⟩ := hvlarge hm
    rw [htext] at hsame
    by_cases hn : |Binary64.nearest (n : ℚ)| < Binary64.pow2 1024
    · rw [hwsmall hn] at hsame
      simp [Key.same] at hsame
    · obtain ⟨text', htext', hspell'⟩ := hwlarge hn
      rw [htext'] at hsame
      obtain rfl : text = text' := by simpa [Key.same] using hsame
      exact_mod_cast hspell.unique hspell'

/-- Two account numbers, one read as a text and one as a number. -/
theorem canonical_exact_iff_sample :
    let lib : Texts := ⟨fun _ => "", fun c => [c]⟩
    ((canonical lib (.str "40817810")).same (canonical lib (.int 40817811)) = true →
      (40817810 : ℤ) = 40817811) ↔
      (40817810 : ℤ) = 40817811 ∨
        Binary64.nearest (40817810 : ℤ) ≠ Binary64.nearest (40817811 : ℤ) ∨
        Binary64.pow2 1024 ≤ |Binary64.nearest ((40817810 : ℤ) : ℚ)| :=
  canonical_exact_iff (by decide +kernel) (by decide +kernel)

/-- Two document numbers of sixteen digits have one key: a double holds the even one only. -/
theorem canonical_merges_integers :
    ¬∀ (lib : Texts) (v w : Cell) (m n : ℤ), denoted? lib v = some (m : ℚ) → denoted? lib w = some (n : ℚ) →
      (canonical lib v).same (canonical lib w) = true → m = n := by
  intro h
  have hmerged := h ⟨fun _ => "", fun c => [c]⟩ (.str "9007199254740993") (.str "9007199254740992")
    9007199254740993 9007199254740992 (by decide +kernel) (by decide +kernel) (by decide +kernel)
  exact absurd hmerged (by decide)

end AgentPlatform.Graph
