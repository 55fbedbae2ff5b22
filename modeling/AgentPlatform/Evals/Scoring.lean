import AgentPlatform.Conversation.Numbers

/-!
# The grounding check of the evaluation

`sales_eval_scoring.py` holds a port of the platform's grounding gate. It reads the same expressions, blanks out every
identifier of the reply before it reads the other numbers, and counts each identifier as one number; it scales an amount
with floats.

It is to be at least as strict as the gate. It is not (`not_strict`): what it blanks out can be part of a larger number. For a
reply and a customer's text it is so, whatever the business wrote, exactly where every number the gate reads is read by it or
stands within a long number that is (`strict_iff`).
-/

namespace AgentPlatform.Evals

open Outcome Regex Grounding

variable (unicode : Unicode)

/-- `str(int(float(raw) * scale))`; an infinity leaves the amount out. -/
def floatAmount (raw : List Char) (scale : ℕ) : Option (List Char) :=
  let (n, places) := amountOf unicode raw
  (((Binary64.ofRat ((n : ℚ) / 10 ^ places)).mul (Binary64.ofRat scale)).value?).map fun v =>
    Nat.toDigits 10 ⌊v⌋.toNat

/-- `_scaled`. -/
def scaled : List Char → Except Failure (List (List Char)) :=
  scaledWith unicode fun raw scale => .ok (floatAmount unicode raw scale)

/-- `number_set`. -/
def numberSet : List Char → Except Failure (List (List Char)) :=
  numbersWith unicode fun raw scale => .ok (floatAmount unicode raw scale)

/-- `facts['allowed_numbers']`, of one piece of business text. -/
def allowedNumbers (business : List Char) : Except Failure (List (List Char)) := do
  .ok ((← numberSet unicode business) ++ digitRuns unicode business)

/-- The numbers that are looked up: those outside the identifiers, and the identifiers. -/
def foundIn (text : List Char) : Except Failure (List (List Char)) := do
  let spans := identifierSpans unicode text
  .ok ((← numberSet unicode (spans.foldl blankOut text)) ++ spans.map Span.digits)

/-- `ungrounded_numbers`. -/
def ungroundedNumbers (reply : List Char) (allowed : List (List Char)) (customer : List Char) :
    Except Failure (List (List Char)) := do
  let text := withoutCustomerIdentifiers unicode reply customer
  let found ← foundIn unicode text
  .ok (sortedSet (found.filter (isUngrounded allowed (years unicode text))))

/-- Where the gate reports a number of a reply, the evaluation does. -/
def Strict (reply customer business : List Char) : Prop :=
  ∀ reported, Grounding.ungroundedNumbers unicode reply business customer = .ok reported → reported ≠ [] →
    ∃ allowed reported', allowedNumbers unicode business = .ok allowed ∧
      ungroundedNumbers unicode reply allowed customer = .ok reported' ∧ reported' ≠ []

/-- The amounts the evaluation reads in the business text are grounded for the gate too. -/
def Agrees (business : List Char) : Prop :=
  ∀ named amounts, numbers unicode business = .ok named → scaled unicode business = .ok amounts →
    ∀ n ∈ amounts, minGroundedDigits ≤ n.length → IsGrounded (named ++ digitRuns unicode business) n

/-- Every number of the reply that the gate may look up is found by the evaluation, or stands within a long number that it
finds. -/
def Caught (reply customer : List Char) : Prop :=
  ∀ named, numbers unicode (withoutCustomerIdentifiers unicode reply customer) = .ok named → ∀ n ∈ named,
    minGroundedDigits ≤ n.length → n ∉ years unicode (withoutCustomerIdentifiers unicode reply customer) →
      ∃ found, foundIn unicode (withoutCustomerIdentifiers unicode reply customer) = .ok found ∧ IsGrounded found n

/-! ### Lines of digits -/

section Lines

variable {unicode : Unicode}

variable {c : Char}

theorem digit_none (h : c.toNat < 128) (hc : c.isDigit = false) : isDecimal unicode c = false := by
  rw [isDecimal, unicode.digit_ascii c h, hc]
  rfl

theorem isDecimal_ascii (hc : c.isDigit = true) : isDecimal unicode c = true := by
  have h : c.toNat < 128 := Nat.lt_of_le_of_lt (Char.isDigit_iff_toNat.1 hc).2 (by decide)
  rw [isDecimal, unicode.digit_ascii c h, hc]
  rfl

/-- Some words, each with the end of its line. -/
def lines (words : List (List Char)) : List Char := words.flatMap fun w => w ++ ['\n']

/-- A digit, or the end of a line. -/
def IsPlain (unicode : Unicode) (c : Char) : Prop := isDecimal unicode c = true ∨ c = '\n'

theorem newline_not_decimal : isDecimal unicode '\n' = false := digit_none (by decide) rfl

theorem not_decimal_of_ascii {d : Char} (hc : c.toNat = d.toNat) (hd : d.toNat < 128)
    (hdigit : d.isDigit = false) : isDecimal unicode c = false := by
  obtain rfl : c = d := Char.ext (UInt32.toNat_inj.1 hc)
  exact digit_none hd hdigit

theorem not_decimal_other (h : isSpace c = true ∨ (0x400 ≤ c.toNat ∧ c.toNat ≤ 0x45f) ∨ c.toNat = 0x212a) :
    isDecimal unicode c = false := by
  rw [isDecimal, unicode.digit_other c h]
  rfl

theorem isGroupMark_plain (h : IsPlain unicode c) : isGroupMark c = false := by
  rw [Bool.eq_false_iff]
  intro hmark
  have hspace : isSpace c = true ∨ c = ',' ∨ c = '.' := by
    simp only [isGroupMark, Bool.or_eq_true, beq_iff_eq] at hmark
    obtain (((rfl | rfl) | rfl) | h) | h := hmark
    · exact .inl (by decide)
    · exact .inr (.inl rfl)
    · exact .inr (.inr rfl)
    · exact .inl (by simp [isSpace, h])
    · exact .inl (by simp [isSpace, h])
  obtain h | rfl := h
  · have hnot : isDecimal unicode c = false := by
      obtain hspace | rfl | rfl := hspace
      · exact not_decimal_other (.inl hspace)
      · exact digit_none (by decide) rfl
      · exact digit_none (by decide) rfl
    rw [h] at hnot
    cases hnot
  · exact absurd hmark (by decide)

/-- No scale word begins with a digit. -/
theorem sameCase_plain {p : Char} (hp : p = 'k' ∨ p = 'm' ∨ p = 'м') (h : IsPlain unicode c) :
    sameCase p c = false := by
  rw [Bool.eq_false_iff]
  intro hsame
  simp only [sameCase, Bool.or_eq_true, beq_iff_eq, List.contains_iff_mem] at hsame
  have hletter : c.toNat = 'k'.toNat ∨ c.toNat = 'K'.toNat ∨ c.toNat = 0x212a ∨ c.toNat = 'm'.toNat ∨
      c.toNat = 'M'.toNat ∨ c.toNat = 0x43c ∨ c.toNat = 0x41c := by
    obtain rfl | rfl | rfl := hp
    · obtain (rfl | h) | h := hsame
      · exact .inl rfl
      · exact .inr (.inl h)
      · exact .inr (.inr (.inl (List.mem_singleton.1 h)))
    · obtain (rfl | h) | h := hsame
      · exact .inr (.inr (.inr (.inl rfl)))
      · exact .inr (.inr (.inr (.inr (.inl h))))
      · cases h
    · obtain (rfl | h) | h := hsame
      · exact .inr (.inr (.inr (.inr (.inr (.inl rfl)))))
      · exact .inr (.inr (.inr (.inr (.inr (.inr h)))))
      · cases h
  have hnot : isDecimal unicode c = false := by
    obtain h | h | h | h | h | h | h := hletter
    · exact not_decimal_of_ascii h (by decide) rfl
    · exact not_decimal_of_ascii h (by decide) rfl
    · exact not_decimal_other (.inr (.inr h))
    · exact not_decimal_of_ascii h (by decide) rfl
    · exact not_decimal_of_ascii h (by decide) rfl
    · exact not_decimal_other (.inr (.inl (by omega)))
    · exact not_decimal_other (.inr (.inl (by omega)))
  obtain h | rfl := h
  · rw [h] at hnot
    cases hnot
  · revert hletter
    decide

variable {s : Cursor Char}

/-- What is ahead are digits and ends of lines. -/
def PlainAhead (unicode : Unicode) (s : Cursor Char) : Prop := ∀ c ∈ s.ahead, IsPlain unicode c

theorem PlainAhead.forward {t : Cursor Char} {r : Re Char} (h : PlainAhead unicode s) (ht : t ∈ ends r s) :
    PlainAhead unicode t := fun c hc => h c ((ends_forward ht).subset hc)

theorem ends_cls_plain (h : PlainAhead unicode s) {p : Char → Bool} (hp : ∀ c, IsPlain unicode c → p c = false) :
    ends (.cls p) s = [] :=
  ends_cls_eq_nil fun c hc => hp c (h c (List.mem_of_mem_head? hc))

theorem ends_word_plain (h : PlainAhead unicode s) {p : Char} (hp : p = 'k' ∨ p = 'm' ∨ p = 'м') {text : String}
    (htext : text.toList.head? = some p) : ends (word text) s = [] := by
  obtain ⟨tail, htail⟩ := List.head?_eq_some_iff.1 htext
  rw [word, htail]
  exact ends_all_nil (ends_cls_plain h fun c hc => sameCase_plain hp hc)

theorem scaleWords_head : ∀ text ∈ scaleWords, text.toList.head? = some 'm' ∨ text.toList.head? = some 'м' := by
  decide

/-- Nothing is scaled. -/
theorem ends_scaledAmount (h : PlainAhead unicode s) : ends (scaledAmount unicode) s = [] := by
  refine ends_seq_nil fun t ht => ends_seq_nil fun u hu => ?_
  have hu := (h.forward ht).forward hu
  have hk : ends (letter 'k') u = [] := ends_cls_plain hu fun c hc => sameCase_plain (.inl rfl) hc
  have hwords : ends (.anyOf (scaleWords.map word)) u = [] := by
    refine ends_anyOf_nil (by decide) fun r hr => ?_
    obtain ⟨text, htext, rfl⟩ := List.mem_map.1 hr
    exact (scaleWords_head text htext).elim (fun h => ends_word_plain hu (.inr (.inl rfl)) h)
      fun h => ends_word_plain hu (.inr (.inr rfl)) h
  change ends (.seq (.cap 2 (letter 'k')) _) u ++ ends (.cap 3 (.anyOf (scaleWords.map word))) u = []
  rw [ends_seq_left (by rw [ends, hk]; rfl), ends, hwords]
  rfl

variable {rest w : List Char}

theorem run_line (hw : ∀ c ∈ w, isDecimal unicode c = true) (hs : s.ahead = w ++ '\n' :: rest) :
    s.run (isDecimal unicode) = w.length := by
  rw [Cursor.run, hs, List.takeWhile_append_of_pos hw, List.takeWhile_cons_of_neg]
  · rw [List.append_nil]
  · rw [newline_not_decimal]
    exact Bool.false_ne_true

theorem advance_run (hw : ∀ c ∈ w, isDecimal unicode c = true) (hs : s.ahead = w ++ '\n' :: rest) :
    (s.advance (s.run (isDecimal unicode))).ahead = '\n' :: rest := by
  rw [run_line hw hs, Cursor.advance_ahead, hs, List.drop_left]

theorem matchAt_digits (hne : w ≠ []) (hw : ∀ c ∈ w, isDecimal unicode c = true)
    (hs : s.ahead = w ++ '\n' :: rest) :
    matchAt (.plus (digit unicode)) s = some (s.advance (s.run (isDecimal unicode))) := by
  have hrun : s.run (isDecimal unicode) ≠ 0 := by
    rw [run_line hw hs]
    exact fun h => hne (List.length_eq_zero_iff.1 h)
  exact (matchAt_plus_cls _ s).trans (if_neg hrun)

theorem mem_ends_digitsUpTo {n : ℕ} {t : Cursor Char} (h : t ∈ ends (digitsUpTo unicode n) s) :
    ∃ k ≤ s.run (isDecimal unicode), t = s.advance k := by
  obtain ⟨u, hu, ht⟩ := List.mem_flatMap.1 h
  cases hahead : s.ahead with
  | nil =>
    rw [digit, ends_cls_eq_nil (by simp [hahead])] at hu
    cases hu
  | cons c rest =>
    cases hc : isDecimal unicode c with
    | false =>
      rw [digit, ends_cls_eq_nil (by simp [hahead, hc])] at hu
      cases hu
    | true =>
      rw [digit, ends_cls_pos hahead hc, List.mem_singleton] at hu
      subst hu
      obtain ⟨k, hk, rfl⟩ := mem_ends_upTo_cls ht
      refine ⟨1 + k, ?_, Cursor.advance_advance s 1 k⟩
      rw [Cursor.run_advance_one hahead hc]
      omega

/-- On a line nothing is grouped. -/
theorem matchAt_grouped (hne : w ≠ []) (hw : ∀ c ∈ w, isDecimal unicode c = true)
    (hs : s.ahead = w ++ '\n' :: rest) :
    matchAt (grouped unicode) s = some (s.advance (s.run (isDecimal unicode))) := by
  have hnone : ends (.all [digitsUpTo unicode 2, .plus (threeMore unicode), .notAhead (digit unicode)]) s = [] := by
    refine ends_seq_nil fun t ht => ends_seq_left (ends_seq_left (ends_seq_left (ends_cls_eq_nil fun c hc => ?_)))
    obtain ⟨k, hk, rfl⟩ := mem_ends_digitsUpTo ht
    rw [run_line hw hs] at hk
    rw [Cursor.advance_ahead, hs, List.drop_append_of_le_length hk] at hc
    refine @isGroupMark_plain unicode c ?_
    cases hdrop : w.drop k with
    | nil =>
      rw [hdrop] at hc
      exact .inr (Option.some.inj hc).symm
    | cons d tail =>
      rw [hdrop] at hc
      obtain rfl := Option.some.inj hc
      exact .inl (hw d (List.mem_of_mem_drop (hdrop ▸ List.mem_cons_self)))
  rw [matchAt, grouped, ends, hnone, List.nil_append]
  exact matchAt_digits hne hw hs

/-- Words of digits. -/
def AllDigits (unicode : Unicode) (words : List (List Char)) : Prop :=
  ∀ w ∈ words, w ≠ [] ∧ ∀ c ∈ w, isDecimal unicode c = true

theorem ends_digit_newline (hs : s.ahead = '\n' :: rest) : ends (digit unicode) s = [] :=
  ends_cls_eq_nil fun c hc => by
    rw [hs] at hc
    obtain rfl := Option.some.inj hc
    exact newline_not_decimal

variable {words : List (List Char)}

theorem digitRuns_lines (h : AllDigits unicode words) : digitRuns unicode (lines words) = words := by
  refine findFrom_lines (fun w hw => (h w hw).1) (fun w hw s rest hs => ?_) (fun s rest hs => ?_) rfl le_rfl
  · exact ⟨_, matchAt_digits (h w hw).1 (h w hw).2 hs, advance_run (h w hw).2 hs⟩
  · rw [matchAt, Re.plus, ends_seq_left (ends_digit_newline hs)]
    rfl

theorem grouped_lines (h : AllDigits unicode words) :
    (findIter (grouped unicode) (lines words)).map (fun m => m.1.taken m.2) = words := by
  refine findFrom_lines (fun w hw => (h w hw).1) (fun w hw s rest hs => ?_) (fun s rest hs => ?_) rfl le_rfl
  · exact ⟨_, matchAt_grouped (h w hw).1 (h w hw).2 hs, advance_run (h w hw).2 hs⟩
  · have hnone : ends (digit unicode) s = [] := ends_digit_newline hs
    have hfirst : ends (.all [digitsUpTo unicode 2, .plus (threeMore unicode), .notAhead (digit unicode)]) s = [] :=
      ends_seq_left (ends_seq_left hnone)
    rw [matchAt, grouped, ends, hfirst, Re.plus, ends_seq_left hnone]
    rfl

theorem plain_lines (h : AllDigits unicode words) : ∀ c ∈ lines words, IsPlain unicode c := by
  intro c hc
  obtain ⟨w, hw, hc⟩ := List.mem_flatMap.1 hc
  obtain hc | hc := List.mem_append.1 hc
  · exact .inl ((h w hw).2 c hc)
  · exact .inr (List.mem_singleton.1 hc)

theorem scaledWith_lines (h : AllDigits unicode words) (amount : List Char → ℕ → Except Failure (Option (List Char))) :
    scaledWith unicode amount (lines words) = .ok [] := by
  have hnone : findIter (scaledAmount unicode) (lines words) = [] := findFrom_eq_nil fun t ht => by
    rw [matchAt, ends_scaledAmount fun c hc => plain_lines h c (ht.subset hc)]
    rfl
  rw [scaledWith, hnone]
  rfl

theorem digitsOf_eq_self (hw : ∀ c ∈ w, isDecimal unicode c = true) : digitsOf unicode w = w :=
  List.filter_eq_self.2 hw

/-- The numbers of lines of digits. -/
theorem numbersWith_lines (h : AllDigits unicode words)
    (amount : List Char → ℕ → Except Failure (Option (List Char))) :
    numbersWith unicode amount (lines words) = .ok words := by
  have hwords : (findIter (grouped unicode) (lines words)).map (fun m => digitsOf unicode (m.1.taken m.2)) = words := by
    have hself : words.map (digitsOf unicode) = words :=
      (List.map_inj_left.2 fun w hw => digitsOf_eq_self (h w hw).2).trans (List.map_id _)
    calc _ = ((findIter (grouped unicode) (lines words)).map fun m => m.1.taken m.2).map (digitsOf unicode) := by
          rw [List.map_map]
          rfl
      _ = words := by rw [grouped_lines h, hself]
  rw [numbersWith, scaledWith_lines h, hwords]
  change Except.ok (words ++ []) = _
  rw [List.append_nil]

end Lines

/-! ### The two gates -/

section Gates

variable {unicode : Unicode} {reply customer business : List Char}

variable {text : List Char}

/-- The scale words are looked up alike. -/
theorem scaledWith_ok {amount : List Char → ℕ → Except Failure (Option (List Char))}
    {amounts : List (List Char)} (h : scaledWith unicode amount text = .ok amounts) :
    ∃ amounts', scaled unicode text = .ok amounts' := by
  obtain ⟨found, hfound, -⟩ := bind_eq_ok.1 h
  obtain ⟨found', hfound'⟩ : ∃ found', (findIter (scaledAmount unicode) text).mapM
      (scaledMatch fun raw scale => .ok (floatAmount unicode raw scale)) = .ok found' := by
    refine mapM_ok_iff.2 fun m hm => ?_
    obtain ⟨x, hx⟩ := mapM_ok_iff.1 ⟨found, hfound⟩ m hm
    obtain ⟨factor, hfactor, -⟩ := bind_eq_ok.1 hx
    exact ⟨_, bind_eq_ok.2 ⟨factor, hfactor, rfl⟩⟩
  exact ⟨_, bind_eq_ok.2 ⟨found', hfound', rfl⟩⟩

variable {found : List (List Char)}

theorem evaluation_eq_ok {allowed : List (List Char)}
    (h : foundIn unicode (withoutCustomerIdentifiers unicode reply customer) = .ok found) :
    ungroundedNumbers unicode reply allowed customer = .ok (sortedSet (found.filter
      (isUngrounded allowed (years unicode (withoutCustomerIdentifiers unicode reply customer))))) := by
  rw [ungroundedNumbers, h]
  rfl

/-- A year has four digits. -/
theorem length_years {n : List Char} (h : n ∈ years unicode text) : n.length = 4 := by
  obtain ⟨h, -⟩ := List.mem_filter.1 h
  obtain ⟨⟨s, t⟩, hmatch, rfl⟩ := List.mem_map.1 h
  have hends := mem_ends_of_matchAt (matchAt_of_mem_findIter hmatch)
  obtain ⟨u, hu, hcap⟩ := List.mem_flatMap.1 hends
  obtain rfl := eq_of_mem_notBehind hu
  obtain ⟨v, hv, hdigit⟩ := List.mem_flatMap.1 hcap
  obtain ⟨w, hw, rfl⟩ := List.mem_map.1 hv
  obtain ⟨x, hx, hmoney⟩ := List.mem_flatMap.1 hdigit
  obtain rfl := eq_of_mem_notAhead hx
  obtain rfl := eq_of_mem_notAhead hmoney
  obtain ⟨hlength, rfl⟩ := mem_ends_times_cls hw
  change (u.taken (u.advance 4)).length = 4
  rw [Cursor.taken, Cursor.advance_ahead, List.length_drop, List.length_take]
  omega

/-- What is found are digits, as the expressions read them. -/
theorem allDigits_numberSet (h : numberSet unicode text = .ok found) :
    ∀ w ∈ found, ∀ c ∈ w, isDecimal unicode c = true := by
  obtain ⟨amounts, hamounts, rfl⟩ := numbersWith_eq_ok.1 h
  obtain ⟨made, hmade, heq⟩ := bind_eq_ok.1 hamounts
  obtain rfl := Except.ok.inj heq
  intro w hw c hc
  obtain hw | hw := List.mem_append.1 hw
  · obtain ⟨m, -, rfl⟩ := List.mem_map.1 hw
    exact (List.mem_filter.1 hc).2
  · obtain ⟨amount, hmem, ham⟩ := List.mem_filterMap.1 hw
    obtain ⟨m, -, hm⟩ := exists_of_mem_right (mapM_eq_ok.1 hmade) hmem
    obtain ⟨factor, -, hm⟩ := bind_eq_ok.1 hm
    obtain ⟨v, -, rfl⟩ := Option.map_eq_some_iff.1 ((Except.ok.inj hm).trans ham)
    exact isDecimal_ascii (Nat.isDigit_of_mem_toDigits (by decide) (by decide) hc)

theorem allDigits_foundIn (h : foundIn unicode text = .ok found) :
    ∀ w ∈ found, ∀ c ∈ w, isDecimal unicode c = true := by
  obtain ⟨named, hnamed, heq⟩ := bind_eq_ok.1 h
  obtain rfl := Except.ok.inj heq
  intro w hw c hc
  obtain hw | hw := List.mem_append.1 hw
  · exact allDigits_numberSet hnamed w hw c hc
  · obtain ⟨span, hspan, rfl⟩ := List.mem_map.1 hw
    obtain ⟨pattern, -, hspan⟩ := List.mem_flatMap.1 hspan
    obtain ⟨m, -, rfl⟩ := List.mem_map.1 hspan
    exact (List.mem_filter.1 hc).2

/-- What the evaluation allows is grounded for the gate, where both scale the business text alike. -/
theorem grounded_of_allowed (hagrees : Agrees unicode business) {named allowed : List (List Char)}
    (hnamed : numbers unicode business = .ok named) (hallowed : allowedNumbers unicode business = .ok allowed) :
    ∀ n ∈ allowed, minGroundedDigits ≤ n.length → IsGrounded (named ++ digitRuns unicode business) n := by
  obtain ⟨set, hset, heq⟩ := bind_eq_ok.1 hallowed
  obtain rfl := Except.ok.inj heq
  obtain ⟨amounts, hamounts, rfl⟩ := numbersWith_eq_ok.1 hset
  have hagree := hagrees named amounts hnamed hamounts
  obtain ⟨decimals, -, rfl⟩ := numbersWith_eq_ok.1 hnamed
  intro n hn hlength
  obtain hn | hn := List.mem_append.1 hn
  · obtain hn | hn := List.mem_append.1 hn
    · exact .inl (List.mem_append_left _ (List.mem_append_left _ hn))
    · exact hagree n hn hlength
  · exact .inl (List.mem_append_right _ hn)

theorem strict_of_caught (hcaught : Caught unicode reply customer) (hagrees : Agrees unicode business) :
    Strict unicode reply customer business := by
  intro reported hreported hne
  obtain ⟨named, found, hnamed, hfound, rfl⟩ := Grounding.ungroundedNumbers_eq_ok.1 hreported
  obtain ⟨n, hn⟩ := List.exists_mem_of_ne_nil _ hne
  obtain ⟨hn, hungrounded⟩ := List.mem_filter.1 (mem_sortedSet.1 hn)
  obtain ⟨hlength, hyears, hungrounded⟩ := isUngrounded_iff.1 hungrounded
  obtain ⟨found', hfound', hcatch⟩ := hcaught found hfound n hn hlength hyears
  obtain ⟨set, hset⟩ : ∃ set, numberSet unicode business = .ok set := by
    obtain ⟨_, hdecimals, -⟩ := numbersWith_eq_ok.1 hnamed
    obtain ⟨amounts, hamounts⟩ := scaledWith_ok hdecimals
    exact ⟨_, numbersWith_eq_ok.2 ⟨amounts, hamounts, rfl⟩⟩
  have hallowed : allowedNumbers unicode business = .ok (set ++ digitRuns unicode business) := by
    rw [allowedNumbers, hset]
    rfl
  have hgrounded := grounded_of_allowed hagrees hnamed hallowed
  -- `n`, or a long number that it stands in, is looked up and not allowed
  obtain ⟨item, hitem, hlong, hitemYears, hitemNot⟩ : ∃ item ∈ found', minGroundedDigits ≤ item.length ∧
      item ∉ years unicode (withoutCustomerIdentifiers unicode reply customer) ∧
        ¬IsGrounded (set ++ digitRuns unicode business) item := by
    obtain hmem | hwithin := hcatch
    · exact ⟨n, hmem, hlength, hyears, fun h => hungrounded (h.trans hlength hgrounded)⟩
    · obtain ⟨item, hmem, hinfix⟩ := isWithin_iff.1 hwithin
      obtain ⟨hmem, hlong⟩ := List.mem_filter.1 hmem
      have hlong := of_decide_eq_true hlong
      have hfour : minGroundedDigits ≤ item.length := Nat.le_trans (by decide) hlong
      refine ⟨item, hmem, hfour, fun h => ?_, fun h => hungrounded ((h.trans hfour hgrounded).part hlong hinfix)⟩
      rw [length_years h] at hlong
      exact absurd hlong (by decide)
  have hreported' : ungroundedNumbers unicode reply (set ++ digitRuns unicode business) customer = .ok _ :=
    evaluation_eq_ok hfound'
  exact ⟨_, _, hallowed, hreported', List.ne_nil_of_mem (mem_sortedSet.2 (List.mem_filter.2
    ⟨hitem, isUngrounded_iff.2 ⟨hlong, hitemYears, hitemNot⟩⟩))⟩

/-- The business text that names what the evaluation finds, and nothing else. -/
theorem caught_of_strict (h : ∀ business, Agrees unicode business → Strict unicode reply customer business) :
    Caught unicode reply customer := by
  intro named hnamed n hn hlength hyears
  have hreports : ∀ words, AllDigits unicode words → ¬IsGrounded (words ++ words) n →
      ∃ found, foundIn unicode (withoutCustomerIdentifiers unicode reply customer) = .ok found ∧
        ∃ w ∈ found, minGroundedDigits ≤ w.length ∧ w ∉ words := by
    intro words hwords hnot
    have hagrees : Agrees unicode (lines words) := by
      intro _ amounts _ hamounts
      obtain rfl := Except.ok.inj ((scaledWith_lines hwords _).symm.trans hamounts)
      exact fun n hn => by cases hn
    have hgate : Grounding.ungroundedNumbers unicode reply (lines words) customer = .ok _ :=
      Grounding.ungroundedNumbers_eq_ok.2 ⟨words, named, numbersWith_lines hwords _, hnamed, rfl⟩
    rw [digitRuns_lines hwords] at hgate
    have hmem := mem_sortedSet.2 (List.mem_filter.2 ⟨hn, isUngrounded_iff.2 ⟨hlength, hyears, hnot⟩⟩)
    obtain ⟨allowed, reported, hallowed, hreported, hne⟩ := h (lines words) hagrees _ hgate (List.ne_nil_of_mem hmem)
    obtain ⟨set, hset, heq⟩ := bind_eq_ok.1 hallowed
    obtain rfl := Except.ok.inj ((numbersWith_lines hwords _).symm.trans hset)
    rw [digitRuns_lines hwords] at heq
    obtain rfl := Except.ok.inj heq
    obtain ⟨found, hfound, heq⟩ := bind_eq_ok.1 hreported
    obtain rfl := Except.ok.inj heq
    obtain ⟨w, hw⟩ := List.exists_mem_of_ne_nil _ hne
    obtain ⟨hw, hungrounded⟩ := List.mem_filter.1 (mem_sortedSet.1 hw)
    obtain ⟨hfour, -, hnot⟩ := isUngrounded_iff.1 hungrounded
    exact ⟨found, hfound, w, hw, hfour, fun hmem => hnot (.inl (List.mem_append_left _ hmem))⟩
  obtain ⟨found, hfound, -⟩ := hreports [] (fun w hw => by cases hw) fun h => by
    obtain ⟨item, hitem, -⟩ := h.exists_allowed
    cases hitem
  refine ⟨found, hfound, by_contra fun hnot => ?_⟩
  have hwords : AllDigits unicode (found.filter fun w => minGroundedDigits ≤ w.length) := by
    intro w hw
    obtain ⟨hw, hfour⟩ := List.mem_filter.1 hw
    refine ⟨?_, allDigits_foundIn hfound w hw⟩
    rintro rfl
    exact absurd (of_decide_eq_true hfour) (by decide)
  obtain ⟨found', hfound', w, hw, hfour, hmem⟩ := hreports _ hwords fun h => hnot (h.trans hlength fun item hitem _ =>
    .inl ((List.mem_append.1 hitem).elim List.mem_of_mem_filter List.mem_of_mem_filter))
  obtain rfl := Except.ok.inj (hfound.symm.trans hfound')
  exact hmem (List.mem_filter.2 ⟨hw, decide_eq_true hfour⟩)

/-- For a reply and a customer's text, the evaluation is as strict as the gate, whatever the business wrote, exactly where it
catches what the gate reads. -/
theorem strict_iff : (∀ business, Agrees unicode business → Strict unicode reply customer business) ↔
    Caught unicode reply customer :=
  ⟨caught_of_strict, fun h _ hagrees => strict_of_caught h hagrees⟩

/-- The gate reads `123456789 ming` as a number of twelve digits, which the business text does not name. The evaluation
blanks out the first nine as an identifier, which it does name. -/
theorem not_strict : ¬Strict ascii "123456789 ming".toList [] "123456789".toList := by
  have hgate : Grounding.ungroundedNumbers ascii "123456789 ming".toList "123456789".toList [] =
      .ok ["123456789000".toList] := by decide +kernel
  have hallowed : allowedNumbers ascii "123456789".toList = .ok ["123456789".toList, "123456789".toList] := by
    decide +kernel
  have heval : ungroundedNumbers ascii "123456789 ming".toList ["123456789".toList, "123456789".toList] [] = .ok [] := by
    decide +kernel
  intro h
  obtain ⟨allowed, reported, h1, h2, hne⟩ := h _ hgate (List.cons_ne_nil _ _)
  obtain rfl := Except.ok.inj (hallowed.symm.trans h1)
  exact hne (Except.ok.inj (heval.symm.trans h2)).symm

end Gates

end AgentPlatform.Evals
