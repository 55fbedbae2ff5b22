import AgentPlatform.Documents.Normalize

/-!
# Amount texts

`_amount_minor` reads what `format_amount` writes. A text has at most fifteen digits before the point, and an
amount is at most `10 ^ 15` major units, which has sixteen: that one amount is written as a text that is not
read, and every other is read as it was written (`amountMinor_format_iff`).
-/

namespace AgentPlatform.Documents

open Outcome

/-! ### The text of an amount -/

variable {n : ℕ} {currency : String}

theorem toList_toString_nat (n : ℕ) : (toString (n : ℤ)).toList = Nat.toDigits 10 n := by
  rw [Int.toString_eq_repr, Int.repr_eq_if, if_pos (Int.natCast_nonneg n), Int.toNat_natCast, Nat.toList_repr]

theorem isDigit_toDigits {c : Char} (h : c ∈ Nat.toDigits 10 n) : c.isDigit = true :=
  Nat.isDigit_of_mem_toDigits (by decide) (by decide) h

theorem isSpace_of_isDigit {c : Char} (h : c.isDigit = true) : isSpace c = false := by
  obtain ⟨hlow, hhigh⟩ := Char.isDigit_iff_toNat.1 h
  have hzero : '0'.toNat = 48 := rfl
  have hnine : '9'.toNat = 57 := rfl
  unfold isSpace
  simp only [Bool.or_eq_false_iff, Bool.and_eq_false_iff, decide_eq_false_iff_not, beq_eq_false_iff_ne]
  omega

theorem length_toDigits_le_iff : (Nat.toDigits 10 n).length ≤ 15 ↔ n < 10 ^ 15 :=
  Nat.length_toDigits_le_iff (by decide) (by decide)

theorem valueOf_toDigits : Erp.valueOf (Nat.toDigits 10 n) = n := Nat.ofDigitChars_ten_toDigits

theorem toList_zfill (n : ℕ) (width : ℕ) :
    (zfill n width).toList = List.replicate (width - (Nat.toDigits 10 n).length) '0' ++ Nat.toDigits 10 n := by
  have hlength : (toString (n : ℤ)).length = (Nat.toDigits 10 n).length := by
    rw [← String.length_toList, toList_toString_nat]
  rw [zfill, String.toList_append, String.toList_ofList, toList_toString_nat, hlength]

theorem valueOf_zfill (n width : ℕ) : Erp.valueOf (zfill n width).toList = n := by
  rw [toList_zfill, Erp.valueOf, Nat.ofDigitChars_append, Nat.ofDigitChars_replicate_zero, Nat.mul_zero]
  exact valueOf_toDigits

theorem length_zfill {width : ℕ} (hwidth : 0 < width) (h : n < 10 ^ width) :
    (zfill n width).toList.length = width := by
  have hle := (Nat.length_toDigits_le_iff (b := 10) (by decide) hwidth).2 h
  rw [toList_zfill, List.length_append, List.length_replicate]
  omega

theorem isDigit_zfill {width : ℕ} {c : Char} (h : c ∈ (zfill n width).toList) : c.isDigit = true := by
  rw [toList_zfill, List.mem_append] at h
  rcases h with h | h
  · rw [List.eq_of_mem_replicate h]
    rfl
  · exact isDigit_toDigits h

theorem strip_of_digits {s : String} {c d : Char} (hhead : s.toList.head? = some c)
    (hlast : s.toList.getLast? = some d) (hc : c.isDigit = true) (hd : d.isDigit = true) : strip s = s := by
  apply strip_of_ends
  · intro c' hc'
    rw [hhead] at hc'
    rw [← Option.some.inj hc']
    exact isSpace_of_isDigit hc
  · intro d' hd'
    rw [hlast] at hd'
    rw [← Option.some.inj hd']
    exact isSpace_of_isDigit hd

/-! ### Reading it back -/

theorem formatAmount_uzs : formatAmount n "UZS" = toString (n : ℤ) := rfl

theorem minorUnits_of_ne (h : currency ≠ "UZS") : minorUnits currency = 100 := if_neg h

theorem digitsOf_of_ne (h : currency ≠ "UZS") : digitsOf currency = 2 := by
  rw [digitsOf, minorUnits_of_ne h]
  decide

theorem toList_formatAmount (h : currency ≠ "UZS") :
    (formatAmount n currency).toList = Nat.toDigits 10 (n / 100) ++ '.' :: (zfill (n % 100 : ℕ) 2).toList := by
  have hne : minorUnits currency ≠ 1 := by
    rw [minorUnits_of_ne h]
    decide
  unfold formatAmount
  rw [if_neg hne, minorUnits_of_ne h, digitsOf_of_ne h, String.toList_append, String.toList_append]
  have hdiv : (n : ℤ) / 100 = ((n / 100 : ℕ) : ℤ) := by omega
  have hmod : (n : ℤ) % 100 = ((n % 100 : ℕ) : ℤ) := by omega
  rw [hdiv, hmod, toList_toString_nat, List.append_assoc]
  rfl

/-- What a decimal text is read as. -/
theorem minorOfText_of_unsigned {text whole fraction : List Char}
    (h : Decimal.unsigned (· == '.') text = some (whole, fraction)) :
    minorOfText text currency =
      if whole.length ≤ 15 ∧ fraction.length ≤ 6 then
        .ok (Erp.valueOf whole * minorUnits currency + if digitsOf currency = 0 then 0 else
          (Erp.valueOf ((fraction ++ List.replicate (digitsOf currency) '0').take (digitsOf currency)) : ℤ))
      else .error (.valueError "amount string must be ASCII digits with an optional decimal part") := by
  rw [minorOfText, h, Option.filter_some]
  by_cases hshape : whole.length ≤ 15 ∧ fraction.length ≤ 6
  · rw [if_pos hshape, if_pos (by simpa using hshape)]
  · rw [if_neg hshape, if_neg (by simpa using hshape)]

theorem unsigned_point {whole fraction : List Char} (hwhole : whole ≠ [])
    (hdigits : ∀ c ∈ whole, c.isDigit = true) (hfraction : fraction ≠ [])
    (hdigits' : ∀ c ∈ fraction, c.isDigit = true) :
    Decimal.unsigned (· == '.') (whole ++ '.' :: fraction) = some (whole, fraction) := by
  have htake : (whole ++ '.' :: fraction).takeWhile Char.isDigit = whole := by
    rw [List.takeWhile_append_of_pos hdigits, List.takeWhile_cons_of_neg (by decide), List.append_nil]
  have hdrop : (whole ++ '.' :: fraction).dropWhile Char.isDigit = '.' :: fraction := by
    rw [List.dropWhile_append_of_pos hdigits, List.dropWhile_cons_of_neg (by decide)]
  unfold Decimal.unsigned
  rw [htake, hdrop]
  exact if_pos ⟨hwhole, rfl, hfraction, List.all_eq_true.2 hdigits'⟩

theorem strip_format : strip (formatAmount n currency) = formatAmount n currency := by
  obtain ⟨c, hc⟩ := Option.isSome_iff_exists.1
    (List.isSome_head?.2 (Nat.toDigits_ne_nil (n := if currency = "UZS" then n else n / 100) (b := 10)))
  have hdigit := isDigit_toDigits (List.mem_of_head? hc)
  by_cases hcurrency : currency = "UZS"
  · rw [if_pos hcurrency] at hc
    obtain ⟨d, hd⟩ := Option.isSome_iff_exists.1
      (List.getLast?_isSome.2 (Nat.toDigits_ne_nil (n := n) (b := 10)))
    have htext : (formatAmount n currency).toList = Nat.toDigits 10 n := by
      rw [hcurrency, formatAmount_uzs, toList_toString_nat]
    exact strip_of_digits (htext ▸ hc) (htext ▸ hd) hdigit (isDigit_toDigits (List.mem_of_getLast? hd))
  · rw [if_neg hcurrency] at hc
    have hlength : (zfill (n % 100 : ℕ) 2).toList.length = 2 :=
      length_zfill (by decide) (Nat.mod_lt _ (by decide))
    have hne : (zfill (n % 100 : ℕ) 2).toList ≠ [] := by
      rintro hnil
      rw [hnil] at hlength
      cases hlength
    obtain ⟨d, hd⟩ := Option.isSome_iff_exists.1 (List.getLast?_isSome.2 hne)
    have hhead : (formatAmount n currency).toList.head? = some c := by
      rw [toList_formatAmount hcurrency, List.head?_append, hc]
      rfl
    have hlast : (formatAmount n currency).toList.getLast? = some d := by
      rw [toList_formatAmount hcurrency, List.getLast?_append, List.getLast?_cons, hd]
      rfl
    exact strip_of_digits hhead hlast hdigit (isDigit_zfill (List.mem_of_getLast? hd))

/-- The text of an amount is read as the amount, where it is under `10 ^ 15` major units; it is not read where
it is not. -/
theorem minorOf_format :
    minorOf (.str (formatAmount n currency)) currency =
      if (n : ℤ) < maxAmount * minorUnits currency then .ok (n : ℤ) else
        .error (.valueError "amount string must be ASCII digits with an optional decimal part") := by
  change minorOfText (strip (formatAmount n currency)).toList currency = _
  rw [strip_format]
  by_cases hcurrency : currency = "UZS"
  · have hread : Decimal.unsigned (· == '.') (Nat.toDigits 10 n) = some (Nat.toDigits 10 n, []) :=
      Decimal.unsigned_toDigits n
    rw [hcurrency, formatAmount_uzs, toList_toString_nat, minorOfText_of_unsigned hread, valueOf_toDigits]
    have hbound : n < 10 ^ 15 ↔ (n : ℤ) < maxAmount * minorUnits "UZS" := by
      change _ ↔ (n : ℤ) < 10 ^ 15 * 1
      omega
    by_cases hn : n < 10 ^ 15
    · rw [if_pos ⟨length_toDigits_le_iff.2 hn, Nat.zero_le 6⟩, if_pos (hbound.1 hn)]
      change Except.ok ((n : ℤ) * 1 + 0) = _
      rw [mul_one, add_zero]
    · rw [if_neg fun h => hn (length_toDigits_le_iff.1 h.1), if_neg fun h => hn (hbound.2 h)]
  · have hlength : (zfill (n % 100 : ℕ) 2).toList.length = 2 :=
      length_zfill (by decide) (Nat.mod_lt _ (by decide))
    have hne : (zfill (n % 100 : ℕ) 2).toList ≠ [] := by
      rintro hnil
      rw [hnil] at hlength
      cases hlength
    have hread := unsigned_point Nat.toDigits_ne_nil (fun _ => isDigit_toDigits (n := n / 100)) hne
      fun _ => isDigit_zfill
    rw [toList_formatAmount hcurrency, minorOfText_of_unsigned hread, valueOf_toDigits,
      digitsOf_of_ne hcurrency, minorUnits_of_ne hcurrency, if_neg two_ne_zero,
      List.take_append_of_le_length hlength.ge, List.take_of_length_le hlength.le, valueOf_zfill]
    have hbound : n / 100 < 10 ^ 15 ↔ (n : ℤ) < maxAmount * 100 := by
      change _ ↔ (n : ℤ) < 10 ^ 15 * 100
      omega
    by_cases hn : n / 100 < 10 ^ 15
    · rw [if_pos ⟨length_toDigits_le_iff.2 hn, hlength.le.trans (by decide)⟩, if_pos (hbound.1 hn)]
      refine congrArg Except.ok ?_
      omega
    · rw [if_neg fun h => hn (length_toDigits_le_iff.1 h.1), if_neg fun h => hn (hbound.2 h)]

variable {value : Json} {m : ℤ} {fields : Json} {d : Document}

theorem amountMinor_ok (h : amountMinor value currency = .ok m) :
    0 ≤ m ∧ m ≤ maxAmount * minorUnits currency := by
  obtain ⟨minor, -, h⟩ := bind_eq_ok.1 h
  obtain ⟨_, hrange, h⟩ := bind_eq_ok.1 h
  rw [← pure_eq_ok.1 h]
  exact ensure_eq_ok.1 hrange

theorem amountMinor_format (h0 : 0 ≤ m) (hmax : m ≤ maxAmount * minorUnits currency) :
    amountMinor (.str (formatAmount m currency)) currency = .ok m ↔ m ≠ maxAmount * minorUnits currency := by
  obtain ⟨n, rfl⟩ := Int.eq_ofNat_of_zero_le h0
  unfold amountMinor
  rw [minorOf_format]
  by_cases hlt : (n : ℤ) < maxAmount * minorUnits currency
  · rw [if_pos hlt]
    exact iff_of_true (bind_eq_ok.2 ⟨_, rfl, bind_eq_ok.2 ⟨(), ensure_eq_ok.2 ⟨h0, hmax⟩, rfl⟩⟩) hlt.ne
  · rw [if_neg hlt]
    refine iff_of_false (fun h => ?_) (fun hne => hlt (lt_of_le_of_ne hmax hne))
    obtain ⟨_, h, -⟩ := bind_eq_ok.1 h
    cases h

theorem valueOf_lt {digits : List Char} (h : ∀ c ∈ digits, c.isDigit = true) :
    Erp.valueOf digits < 10 ^ digits.length := by
  induction digits using List.reverseRecOn with
  | nil => decide
  | append_singleton digits c ih =>
    have hc := (Erp.digitChar_value (h c (by simp))).2
    have hrest := ih fun c' hc' => h c' (List.mem_append_left _ hc')
    rw [Erp.valueOf_concat, List.length_append, List.length_singleton, pow_succ]
    omega

theorem digits_of_unsigned {text whole fraction : List Char}
    (h : Decimal.unsigned (· == '.') text = some (whole, fraction)) :
    (∀ c ∈ whole, c.isDigit = true) ∧ ∀ c ∈ fraction, c.isDigit = true := by
  unfold Decimal.unsigned at h
  dsimp only at h
  split at h
  · split_ifs at h
    cases h
    exact ⟨fun c hc => List.mem_takeWhile_imp hc, fun c hc => absurd hc List.not_mem_nil⟩
  · split_ifs at h with hshape
    cases h
    exact ⟨fun c hc => List.mem_takeWhile_imp hc, List.all_eq_true.1 hshape.2.2.2⟩

/-- A text is not the largest amount. -/
theorem amountMinor_of_text {text : String} (h : amountMinor (.str text) currency = .ok m) :
    m < maxAmount * minorUnits currency := by
  obtain ⟨minor, hminor, h⟩ := bind_eq_ok.1 h
  obtain ⟨_, -, h⟩ := bind_eq_ok.1 h
  rw [← pure_eq_ok.1 h]
  change minorOfText (strip text).toList currency = .ok minor at hminor
  cases hread : Decimal.unsigned (· == '.') (strip text).toList with
  | none =>
    rw [minorOfText, hread] at hminor
    cases hminor
  | some parts =>
    obtain ⟨whole, fraction⟩ := parts
    obtain ⟨hwhole, hfraction⟩ := digits_of_unsigned hread
    rw [minorOfText_of_unsigned hread] at hminor
    split_ifs at hminor with hshape hdigits
    -- a currency without minor units
    · have hcurrency : currency = "UZS" := by
        by_contra hne
        rw [digitsOf_of_ne hne] at hdigits
        cases hdigits
      have hlt : Erp.valueOf whole < 10 ^ 15 :=
        (valueOf_lt hwhole).trans_le (Nat.pow_le_pow_right (by decide) hshape.1)
      rw [← Except.ok.inj hminor, hcurrency]
      change (Erp.valueOf whole : ℤ) * 1 + 0 < 10 ^ 15 * 1
      omega
    · have hcurrency : currency ≠ "UZS" := by
        rintro rfl
        exact hdigits rfl
      have hlt : Erp.valueOf whole < 10 ^ 15 :=
        (valueOf_lt hwhole).trans_le (Nat.pow_le_pow_right (by decide) hshape.1)
      rw [← Except.ok.inj hminor, digitsOf_of_ne hcurrency, minorUnits_of_ne hcurrency]
      have hcut : Erp.valueOf ((fraction ++ List.replicate 2 '0').take 2) < 10 ^ 2 := by
        refine (valueOf_lt fun c hc => ?_).trans_le
          (Nat.pow_le_pow_right (by decide) (List.length_take_le _ _))
        rcases List.mem_append.1 (List.mem_of_mem_take hc) with hc | hc
        · exact hfraction c hc
        · rw [List.eq_of_mem_replicate hc]
          rfl
      change (Erp.valueOf whole : ℤ) * 100 + _ < 10 ^ 15 * 100
      omega

/-! ### The amounts of a document -/

/-- The amounts of a normalized document: its total, and the prices and the totals of its lines. -/
def amounts (d : Document) : List ℤ :=
  d.totalMinor :: d.lineItems.flatMap fun item => [item.amount, item.lineTotal]

theorem lineItem_ok {item : Json × ℕ} {line : LineItem} (h : lineItem currency item = .ok line) :
    (0 ≤ line.amount ∧ line.amount ≤ maxAmount * minorUnits currency) ∧ 0 ≤ line.lineTotal := by
  unfold lineItem at h
  obtain ⟨_, -, h⟩ := bind_eq_ok.1 h
  obtain ⟨_, -, h⟩ := bind_eq_ok.1 h
  obtain ⟨description, -, h⟩ := bind_eq_ok.1 h
  obtain ⟨quantity, hquantity, h⟩ := bind_eq_ok.1 h
  obtain ⟨amount, hamount, h⟩ := bind_eq_ok.1 h
  rw [← pure_eq_ok.1 h]
  have hrange := amountMinor_ok hamount
  refine ⟨hrange, mul_nonneg ?_ hrange.1⟩
  unfold quantityOf at hquantity
  split at hquantity
  · obtain ⟨_, hle, hquantity⟩ := bind_eq_ok.1 hquantity
    rw [← pure_eq_ok.1 hquantity]
    exact ensure_eq_ok.1 hle
  · cases hquantity

theorem lineItems_ok {lines : List LineItem} (h : lineItems value currency = .ok lines) :
    ∀ line ∈ lines, (0 ≤ line.amount ∧ line.amount ≤ maxAmount * minorUnits currency) ∧ 0 ≤ line.lineTotal := by
  intro line hline
  unfold lineItems at h
  dsimp only at h
  split at h
  · rw [← Except.ok.inj h] at hline
    cases hline
  · split_ifs at h
    rw [← Except.ok.inj h] at hline
    cases hline
  · obtain ⟨_, -, h⟩ := bind_eq_ok.1 h
    obtain ⟨item, -, hitem⟩ := exists_of_mem_right (mapM_eq_ok.1 h) hline
    exact lineItem_ok hitem
  · cases h

theorem le_sum_of_mem {xs : List ℤ} (h : ∀ x ∈ xs, 0 ≤ x) (hm : m ∈ xs) : m ≤ xs.sum :=
  List.single_le_sum h m hm

/-- An amount of a normalized document is one that is accepted. -/
theorem amounts_range (h : normalize fields = .ok d) (hm : m ∈ amounts d) :
    0 ≤ m ∧ m ≤ maxAmount * minorUnits d.currency := by
  unfold normalize at h
  obtain ⟨_, -, h⟩ := bind_eq_ok.1 h
  obtain ⟨_, -, h⟩ := bind_eq_ok.1 h
  obtain ⟨kind, -, h⟩ := bind_eq_ok.1 h
  obtain ⟨supplier, -, h⟩ := bind_eq_ok.1 h
  obtain ⟨number, -, h⟩ := bind_eq_ok.1 h
  obtain ⟨currency, -, h⟩ := bind_eq_ok.1 h
  obtain ⟨docDate, -, h⟩ := bind_eq_ok.1 h
  obtain ⟨total, htotal, h⟩ := bind_eq_ok.1 h
  obtain ⟨items, hitems, h⟩ := bind_eq_ok.1 h
  obtain ⟨_, hsum, h⟩ := bind_eq_ok.1 h
  obtain ⟨bankAccount, -, h⟩ := bind_eq_ok.1 h
  obtain rfl := pure_eq_ok.1 h
  have hlines := lineItems_ok hitems
  have hrange := amountMinor_ok htotal
  rcases List.mem_cons.1 hm with rfl | hm
  · exact hrange
  · obtain ⟨line, hline, hm⟩ := List.mem_flatMap.1 hm
    have hvalues := hlines line hline
    rcases List.mem_cons.1 hm with rfl | hm
    · exact hvalues.1
    · obtain rfl := List.mem_singleton.1 hm
      refine ⟨hvalues.2, le_trans ?_ hrange.2⟩
      have hle : line.lineTotal ≤ (items.map LineItem.lineTotal).sum := by
        apply le_sum_of_mem _ (List.mem_map_of_mem hline)
        intro x hx
        obtain ⟨other, hother, rfl⟩ := List.mem_map.1 hx
        exact (hlines other hother).2
      rcases ensure_eq_ok.1 hsum with hnil | hsum
      · rw [hnil] at hline
        cases hline
      · rw [← hsum]
        exact hle

/-- **The amounts of a normalized document and the amounts of accepted texts are written so that they are read
again, if and only if the amount is not the largest one.** -/
theorem amountMinor_format_iff (h : normalize fields = .ok d) (hm : m ∈ amounts d) :
    (amountMinor (.str (formatAmount m d.currency)) d.currency = .ok m ∧
        ∀ text n, amountMinor (.str text) d.currency = .ok n →
          amountMinor (.str (formatAmount n d.currency)) d.currency = .ok n) ↔
      m ≠ maxAmount * minorUnits d.currency := by
  obtain ⟨h0, hmax⟩ := amounts_range h hm
  rw [← amountMinor_format h0 hmax, and_iff_left_iff_imp]
  intro _ text n hread
  have hrange := amountMinor_ok hread
  exact (amountMinor_format hrange.1 hrange.2).2 (amountMinor_of_text hread).ne

/-- The fields of an invoice over `total` so'm. -/
def largeFields (total : ℤ) : Json :=
  .obj [("kind", .str "invoice"), ("supplier", .str "acme"), ("number", .str "INV-1"),
    ("currency", .str "UZS"), ("total", .int total)]

theorem amountMinor_format_iff_sample :
    ∃ d, normalize (largeFields 189000) = .ok d ∧
      ((amountMinor (.str (formatAmount d.totalMinor d.currency)) d.currency = .ok d.totalMinor ∧
          ∀ text n, amountMinor (.str text) d.currency = .ok n →
            amountMinor (.str (formatAmount n d.currency)) d.currency = .ok n) ↔
        d.totalMinor ≠ maxAmount * minorUnits d.currency) := by
  have hrun : (do
      let d ← normalize (largeFields 189000)
      pure d.totalMinor) = Except.ok 189000 := by
    decide +kernel
  obtain ⟨d, hd, -⟩ := bind_eq_ok.1 hrun
  exact ⟨d, hd, amountMinor_format_iff hd List.mem_cons_self⟩

/-- The largest amount is accepted as a number, and its text of sixteen digits is not read. -/
theorem largest_not_read :
    ¬∀ (fields : Json) (d : Document) (m : ℤ), normalize fields = .ok d → m ∈ amounts d →
      amountMinor (.str (formatAmount m d.currency)) d.currency = .ok m := by
  intro h
  have hrun : (do
      let d ← normalize (largeFields (10 ^ 15))
      pure (d.totalMinor, (amountMinor (.str (formatAmount d.totalMinor d.currency)) d.currency).toOption)) =
        Except.ok (10 ^ 15, none) := by
    decide +kernel
  obtain ⟨d, hd, hrun⟩ := bind_eq_ok.1 hrun
  have hfacts := pure_eq_ok.1 hrun
  rw [Prod.mk.injEq] at hfacts
  rw [h _ d _ hd List.mem_cons_self] at hfacts
  cases hfacts.2

end AgentPlatform.Documents
