import AgentPlatform.Base
import AgentPlatform.Lib.Binary64
import AgentPlatform.Lib.Outcome
import AgentPlatform.Lib.Regex
import Mathlib.Data.List.Sort

/-!
# The numbers of a reply

The grounding gate of `conversation.py`: the numbers a text names, in every written form, the identifiers it holds, and the
numbers of a reply that the grounding text does not contain. What the customer typed grounds identifiers only: an
identifier of the reply that the customer wrote is blanked out before the numbers are read.

The expressions are those of the source. A case-insensitive letter matches what Python lets it match, so a word may match
and not be a key of `_SCALE` (`mıng`): then `_scaled` raises `KeyError`.
-/

namespace AgentPlatform.Grounding

open Outcome Regex

/-- Unicode's decimal digits, and `\w`. -/
structure Unicode where
  digit : Char → Option ℕ
  isWord : Char → Bool
  digit_ascii : ∀ c, c.toNat < 128 → digit c = if c.isDigit then some (c.toNat - 48) else none
  /-- White space, the letters of the scale words and the Kelvin sign are no digits. -/
  digit_other : ∀ c, isSpace c = true ∨ (0x400 ≤ c.toNat ∧ c.toNat ≤ 0x45f) ∨ c.toNat = 0x212a → digit c = none

/-- What gets out of `ungrounded_numbers`. -/
inductive Failure
  | keyError
  /-- `decimal.Overflow`. -/
  | overflow
deriving DecidableEq

def minGroundedDigits : ℕ := 4

def longNumberDigits : ℕ := 9

def yearRange : ℕ × ℕ := (1900, 2100)

def moneyLookbehindChars : ℕ := 8

/-! ### The expressions -/

section Expressions

/-- The code of the upper case of a letter of the expressions. -/
def upperCode (p : Char) : ℕ := if p.toNat = 0x45e then 0x40e else p.toNat - 32

/-- What else a letter matches where case is ignored. -/
def otherCodes (p : Char) : List ℕ :=
  match p with
  | 'i' => [0x130, 0x131]
  | 'k' => [0x212a]
  | 's' => [0x17f]
  | 'д' => [0x1c81]
  | 'о' => [0x1c82]
  | 'с' => [0x1c83]
  | _ => []

/-- A character matches a letter where case is ignored. -/
def sameCase (p c : Char) : Bool := c == p || c.toNat == upperCode p || (otherCodes p).contains c.toNat

/-- `c.lower()`, of a character that matches a letter. -/
def lowerChar (c : Char) : List Char :=
  if 65 ≤ c.toNat ∧ c.toNat ≤ 90 ∨ 0x410 ≤ c.toNat ∧ c.toNat ≤ 0x42f then [Char.ofNat (c.toNat + 32)]
  else if c.toNat = 0x40e then ['ў']
  else if c.toNat = 0x212a then ['k']
  else if c.toNat = 0x130 then ['i', Char.ofNat 0x307]
  else [c]

def letter (p : Char) : Re Char := .cls (sameCase p)

def word (text : String) : Re Char := .all (text.toList.map letter)

def sign (c : Char) : Re Char := .cls fun d => d == c

def space : Re Char := .cls isSpace

/-- `[ ,.\u00a0\u202f]`. -/
def isGroupMark (c : Char) : Bool := c == ' ' || c == ',' || c == '.' || c.toNat == 0xa0 || c.toNat == 0x202f

/-- `[ \-.\u00a0\u202f]`. -/
def isPhoneMark (c : Char) : Bool := c == ' ' || c == '-' || c == '.' || c.toNat == 0xa0 || c.toNat == 0x202f

/-- `_CURRENCY`. -/
def currency : Re Char :=
  .anyOf [.all [letter 's', letter 'o', .opt (.cls fun c => c != '\n'), letter 'm'], word "сум", word "сўм", word "uzs",
    word "usd", word "eur", word "rub", word "dollar", sign '$', sign '€', sign '₽']

/-- `_MONEY_AFTER`. -/
def moneyAfter : Re Char := .seq (.star space) currency

/-- `_MONEY_BEFORE`. -/
def moneyBefore : Re Char :=
  .all [.anyOf [sign '$', sign '€', sign '₽', word "uzs", word "usd", word "eur", word "rub"], .star space,
    .atEnd fun c => c == '\n']

/-- The words of `_SCALED`, in the order they are tried. -/
def scaleWords : List String := ["ming", "минг", "mln", "million", "млн", "mlrd", "milliard", "млрд"]

/-- `_SCALE`. -/
def scale : List (List Char × ℕ) :=
  [("k".toList, 1000), ("ming".toList, 1000), ("минг".toList, 1000), ("mln".toList, 10 ^ 6),
    ("million".toList, 10 ^ 6), ("млн".toList, 10 ^ 6), ("mlrd".toList, 10 ^ 9), ("milliard".toList, 10 ^ 9),
    ("млрд".toList, 10 ^ 9)]

variable (unicode : Unicode)

def isDecimal (c : Char) : Bool := (unicode.digit c).isSome

def digit : Re Char := .cls (isDecimal unicode)

/-- `\d{1,n+1}`. -/
def digitsUpTo (n : ℕ) : Re Char := .seq (digit unicode) (.upTo (digit unicode) n)

/-- A group mark and three digits. -/
def threeMore : Re Char := .seq (.cls isGroupMark) (.times (digit unicode) 3)

/-- `_GROUPED`. -/
def grouped : Re Char :=
  .alt (.all [digitsUpTo unicode 2, .plus (threeMore unicode), .notAhead (digit unicode)]) (.plus (digit unicode))

/-- `_SCALED`. -/
def scaledAmount : Re Char :=
  .all [.cap 1 (.seq (.plus (digit unicode)) (.opt (.seq (.cls fun c => c == '.' || c == ',') (.plus (digit unicode))))),
    .star space,
    .alt (.seq (.cap 2 (letter 'k')) (.notAhead (.cls unicode.isWord))) (.cap 3 (.anyOf (scaleWords.map word)))]

/-- `_PLAIN_FOUR`. -/
def plainFour : Re Char :=
  .all [.notBehind fun c => isDecimal unicode c || c == '.' || c == ',', .cap 1 (.times (digit unicode) 4),
    .notAhead (.alt (digit unicode) (threeMore unicode)), .notAhead moneyAfter]

/-- `_DIGIT_RUN`. -/
def digitRun : Re Char := .all [.notBehind (isDecimal unicode), .plus (digit unicode), .notAhead (digit unicode)]

/-- A group of a phone number, which may stand in brackets. -/
def phoneGroup : Re Char := .all [.opt (sign '('), digitsUpTo unicode 3, .opt (sign ')')]

/-- `_PHONE_SPAN`. -/
def phoneSpan : Re Char :=
  .all [.notBehind fun c => isDecimal unicode c || c == '+', .opt (sign '+'), phoneGroup unicode,
    .plus (.seq (.cls isPhoneMark) (phoneGroup unicode)), .notAhead (digit unicode)]

/-- `_THOUSANDS`. -/
def thousands : Re Char := .seq (digitsUpTo unicode 2) (.plus (threeMore unicode))

end Expressions

/-- The digits and letters of ASCII. -/
def ascii : Unicode where
  digit c := if c.isDigit then some (c.toNat - 48) else none
  isWord c := c.isAlphanum || c == '_'
  digit_ascii _ _ := rfl
  digit_other c h := by
    refine if_neg fun hc => ?_
    obtain ⟨hlow, hhigh⟩ := Char.isDigit_iff_toNat.1 hc
    have hlow : 48 ≤ c.toNat := hlow
    have hhigh : c.toNat ≤ 57 := hhigh
    obtain h | h | h := h
    · simp only [isSpace, Bool.or_eq_true, Bool.and_eq_true, decide_eq_true_eq, beq_iff_eq] at h
      omega
    · omega
    · omega

/-! ### The numbers of a text -/

variable (unicode : Unicode)

/-- `re.sub(r'\D', '', text)`. -/
def digitsOf (text : List Char) : List Char := text.filter (isDecimal unicode)

/-- `int(digits)`. -/
def valueOf (digits : List Char) : ℕ := digits.foldl (fun n c => 10 * n + (unicode.digit c).getD 0) 0

/-- An amount as it is written: its digits as one number, and how many stand after the mark. -/
def amountOf (raw : List Char) : ℕ × ℕ :=
  let whole := raw.takeWhile (isDecimal unicode)
  let places := raw.drop (whole.length + 1)
  (valueOf unicode (whole ++ places), places.length)

/-- The precision of decimal arithmetic: a number in at most that many digits, and the power of ten it is to be multiplied
by. -/
def roundedTo28 (n : ℕ) : ℕ × ℕ :=
  let digits := (Nat.toDigits 10 n).length
  if digits ≤ 28 then (n, 0) else ((roundEven ((n : ℚ) / 10 ^ (digits - 28))).toNat, digits - 28)

/-- `str(n)`, which raises `ValueError` beyond 4300 digits. -/
def strOf (n : ℕ) : Option (List Char) := if 4300 < (Nat.toDigits 10 n).length then none else some (Nat.toDigits 10 n)

/-- `str(int(Decimal(raw) * scale))`; a `ValueError` leaves the amount out. -/
def decimalAmount (raw : List Char) (scale : ℕ) : Except Failure (Option (List Char)) :=
  let (n, places) := amountOf unicode raw
  let (m, e) := roundedTo28 (n * scale)
  if 999999 + places < (Nat.toDigits 10 m).length - 1 + e then .error .overflow
  else .ok (strOf (if places ≤ e then m * 10 ^ (e - places) else m / 10 ^ (places - e)))

/-- The amount of a match of `_SCALED`, by what makes an amount of a number and a scale. -/
def scaledMatch (amount : List Char → ℕ → Except Failure (Option (List Char))) (m : Cursor Char × Cursor Char) :
    Except Failure (Option (List Char)) := do
  let name := ((m.2.group 2).getD ((m.2.group 3).getD [])).flatMap lowerChar
  let factor ← need (scale.lookup name) .keyError
  amount ((m.2.group 1).getD []) factor

/-- `_scaled`. -/
def scaledWith (amount : List Char → ℕ → Except Failure (Option (List Char))) (text : List Char) :
    Except Failure (List (List Char)) := do
  let found ← (findIter (scaledAmount unicode) text).mapM (scaledMatch amount)
  .ok (found.filterMap id)

/-- `_numbers`, by what makes an amount. -/
def numbersWith (amount : List Char → ℕ → Except Failure (Option (List Char))) (text : List Char) :
    Except Failure (List (List Char)) := do
  let scaled ← scaledWith unicode amount text
  .ok ((findIter (grouped unicode) text).map (fun m => digitsOf unicode (m.1.taken m.2)) ++ scaled)

/-- `_numbers`. -/
def numbers : List Char → Except Failure (List (List Char)) := numbersWith unicode (decimalAmount unicode)

/-- `_years`. -/
def years (text : List Char) : List (List Char) :=
  ((findIter (plainFour unicode) text).map fun m => (m.2.group 1).getD []).filter fun digits =>
    yearRange.1 ≤ valueOf unicode digits && valueOf unicode digits ≤ yearRange.2

/-- `re.findall(r'\d+', text)`. -/
def digitRuns (text : List Char) : List (List Char) :=
  (findIter (.plus (digit unicode)) text).map fun m => m.1.taken m.2

/-! ### Identifiers -/

/-- An identifier of a text: where it starts and ends, and its digits. -/
structure Span where
  first : ℕ
  last : ℕ
  digits : List Char
deriving DecidableEq

/-- A match is written as money, or is too short for an identifier. -/
def isNoIdentifier (text : List Char) (m : Cursor Char × Cursor Char) : Bool :=
  let raw := m.1.taken m.2
  decide ((digitsOf unicode raw).length < longNumberDigits) ||
    fullMatch (thousands unicode) (raw.dropWhile fun c => c == '+') || (matchAt moneyAfter m.2).isSome ||
    let before := (text.take m.1.pos).drop (m.1.pos - moneyLookbehindChars)
    searches moneyBefore before.length (start before)

/-- `_identifier_spans`. -/
def identifierSpans (text : List Char) : List Span :=
  [digitRun unicode, phoneSpan unicode].flatMap fun pattern =>
    ((findIter pattern text).filter fun m => !isNoIdentifier unicode text m).map fun m =>
      { first := m.1.pos, last := m.2.pos, digits := digitsOf unicode (m.1.taken m.2) }

/-- `chars[start:end] = ' ' * (end - start)`. -/
def blankOut (text : List Char) (span : Span) : List Char :=
  text.take span.first ++ List.replicate (span.last - span.first) ' ' ++ text.drop span.last

/-- `any(digits in item for item in items)`. -/
def isWithin (digits : List Char) (items : List (List Char)) : Bool := items.any fun item => decide (digits <:+: item)

/-- The identifiers of the reply that the customer typed. -/
def echoedSpans (reply customer : List Char) : List Span :=
  (identifierSpans unicode reply).filter fun span =>
    isWithin span.digits ((identifierSpans unicode customer).map Span.digits)

/-- `_without_customer_identifiers`. -/
def withoutCustomerIdentifiers (reply customer : List Char) : List Char :=
  (echoedSpans unicode reply customer).foldl blankOut reply

/-! ### The gate -/

/-- A number that a gate looks up: it is long enough, not a year, and neither allowed nor part of an allowed identifier. -/
def isUngrounded (allowed years : List (List Char)) (n : List Char) : Bool :=
  decide (minGroundedDigits ≤ n.length) && !allowed.contains n && !years.contains n &&
    !isWithin n (allowed.filter fun item => longNumberDigits ≤ item.length)

/-- `sorted` of a set. -/
def sortedSet (items : List (List Char)) : List (List Char) := items.dedup.insertionSort fun a b => a ≤ b

/-- `ungrounded_numbers`. -/
def ungroundedNumbers (reply grounding customer : List Char) : Except Failure (List (List Char)) := do
  let text := withoutCustomerIdentifiers unicode reply customer
  let named ← numbers unicode grounding
  let allowed := named ++ digitRuns unicode grounding
  let found ← numbers unicode text
  .ok (sortedSet (found.filter (isUngrounded allowed (years unicode text))))

/-! ### What a gate reports -/

/-- A number is allowed, or stands within a long number that is. -/
def IsGrounded (allowed : List (List Char)) (n : List Char) : Prop :=
  n ∈ allowed ∨ isWithin n (allowed.filter fun item => longNumberDigits ≤ item.length) = true

section Reports

variable {allowed years : List (List Char)} {n item : List Char}

theorem mem_sortedSet {items : List (List Char)} : n ∈ sortedSet items ↔ n ∈ items := by
  rw [sortedSet, List.mem_insertionSort, List.mem_dedup]

theorem isWithin_iff {items : List (List Char)} : isWithin n items = true ↔ ∃ item ∈ items, n <:+: item := by
  simp [isWithin]

theorem isUngrounded_iff :
    isUngrounded allowed years n = true ↔ minGroundedDigits ≤ n.length ∧ n ∉ years ∧ ¬IsGrounded allowed n := by
  simp only [isUngrounded, IsGrounded, Bool.and_eq_true, decide_eq_true_eq, Bool.not_eq_true', List.contains_eq_mem,
    decide_eq_false_iff_not, not_or, Bool.not_eq_true]
  tauto

theorem IsGrounded.part (h : IsGrounded allowed item) (hlong : longNumberDigits ≤ item.length) (hn : n <:+: item) :
    IsGrounded allowed n := by
  refine .inr (isWithin_iff.2 ?_)
  obtain h | h := h
  · exact ⟨item, List.mem_filter.2 ⟨h, decide_eq_true hlong⟩, hn⟩
  · obtain ⟨item', hmem, hitem⟩ := isWithin_iff.1 h
    exact ⟨item', hmem, hn.trans hitem⟩

theorem IsGrounded.exists_allowed (h : IsGrounded allowed n) : ∃ item ∈ allowed, n <:+: item := by
  obtain h | h := h
  · exact ⟨n, h, List.infix_refl n⟩
  · obtain ⟨item, hmem, hn⟩ := isWithin_iff.1 h
    exact ⟨item, (List.mem_filter.1 hmem).1, hn⟩

theorem IsGrounded.trans {allowed' : List (List Char)} (h : IsGrounded allowed n) (hlength : minGroundedDigits ≤ n.length)
    (hall : ∀ item ∈ allowed, minGroundedDigits ≤ item.length → IsGrounded allowed' item) : IsGrounded allowed' n := by
  obtain h | h := h
  · exact hall n h hlength
  · obtain ⟨item, hmem, hn⟩ := isWithin_iff.1 h
    obtain ⟨hmem, hlong⟩ := List.mem_filter.1 hmem
    have hlong := of_decide_eq_true hlong
    exact (hall item hmem (Nat.le_trans (by decide) hlong)).part hlong hn

end Reports

section Gate

variable {unicode : Unicode} {reply customer business : List Char}

theorem numbersWith_eq_ok {amount : List Char → ℕ → Except Failure (Option (List Char))} {text : List Char}
    {found : List (List Char)} : numbersWith unicode amount text = .ok found ↔
      ∃ amounts, scaledWith unicode amount text = .ok amounts ∧
        found = (findIter (grouped unicode) text).map (fun m => digitsOf unicode (m.1.taken m.2)) ++ amounts := by
  rw [numbersWith, bind_eq_ok]
  refine exists_congr fun amounts => and_congr_right fun _ => ?_
  rw [Except.ok.injEq, eq_comm]

theorem ungroundedNumbers_eq_ok {reported : List (List Char)} :
    ungroundedNumbers unicode reply business customer = .ok reported ↔ ∃ named found,
      numbers unicode business = .ok named ∧
        numbers unicode (withoutCustomerIdentifiers unicode reply customer) = .ok found ∧
        reported = sortedSet (found.filter (isUngrounded (named ++ digitRuns unicode business)
          (years unicode (withoutCustomerIdentifiers unicode reply customer)))) := by
  constructor
  · intro h
    obtain ⟨named, hnamed, h⟩ := bind_eq_ok.1 h
    obtain ⟨found, hfound, h⟩ := bind_eq_ok.1 h
    exact ⟨named, found, hnamed, hfound, (Except.ok.inj h).symm⟩
  · rintro ⟨named, found, hnamed, hfound, rfl⟩
    rw [ungroundedNumbers, hnamed, hfound]
    rfl

end Gate

end AgentPlatform.Grounding
