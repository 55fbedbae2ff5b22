import AgentPlatform.Crm.Contract

/-!
# Encoded values are told apart

`quote` writes a text so that its bytes can be read back (`unquote_quote`), so two texts are never encoded alike
(`quote_injective`).
-/

namespace AgentPlatform.Crm

/-- The value of a hexadecimal digit. -/
def hexValue (c : Char) : ℕ := if c.isDigit then c.toNat - 48 else c.toNat - 55

/-- The bytes of an encoded text. -/
def unquote : List Char → List UInt8
  | [] => []
  | '%' :: high :: low :: rest => UInt8.ofNat (16 * hexValue high + hexValue low) :: unquote rest
  | c :: rest => UInt8.ofNat c.toNat :: unquote rest

theorem hexValue_digit : ∀ n < 16, hexValue (Nat.digitChar n).toUpper = n := by decide

theorem unquote_percent (bytes : List UInt8) (rest : List Char) :
    unquote (bytes.flatMap percent ++ rest) = bytes ++ unquote rest := by
  induction bytes with
  | nil => rfl
  | cons b bytes ih =>
    have hb := b.toNat_lt
    rw [List.flatMap_cons, List.append_assoc, percent, List.cons_append, List.cons_append, List.cons_append,
      List.nil_append, unquote, ih, hexValue_digit _ (by omega), hexValue_digit _ (by omega), Nat.div_add_mod]
    simp

theorem lt_of_isAlphanum {c : Char} (h : c.isAlphanum = true) : c.toNat < 128 := by
  delta Char.isAlphanum Char.isAlpha Char.isUpper Char.isLower Char.isDigit at h
  simp only [Bool.or_eq_true, Bool.and_eq_true, decide_eq_true_eq, UInt32.le_iff_toNat_le, ge_iff_le] at h
  change c.val.toNat < 128
  simp only [UInt32.reduceToNat, Char.reduceVal] at h
  omega

theorem unquote_plain {c : Char} (hascii : c.toNat < 128) (hc : c ≠ '%') (rest : List Char) :
    unquote (c :: rest) = String.utf8EncodeChar c ++ unquote rest := by
  have hbytes : String.utf8EncodeChar c = [UInt8.ofNat c.toNat] := by
    have hsize : c.utf8Size = 1 := by
      rw [Char.utf8Size, if_pos]
      exact UInt32.le_iff_toNat_le.2 (Nat.le_of_lt_succ hascii)
    rw [String.utf8EncodeChar_eq_singleton hsize]
    rfl
  rw [hbytes, unquote.eq_3]
  · rfl
  · intro high low rest heq _
    exact hc heq

/-- The bytes of a text can be read from what it is encoded as. -/
theorem unquote_quote (text : String) {safe : List Char} (hsafe : ∀ c ∈ safe, c.toNat < 128 ∧ c ≠ '%') :
    unquote (quote text safe).toList = text.toList.flatMap String.utf8EncodeChar := by
  rw [quote, String.toList_ofList]
  induction text.toList with
  | nil => rfl
  | cons c text ih =>
    rw [List.flatMap_cons, List.flatMap_cons, ← ih]
    split_ifs with hplain
    · simp only [Bool.or_eq_true, List.contains_eq_mem, decide_eq_true_eq] at hplain
      have hmarks : ∀ c ∈ ['_', '.', '-', '~'], c.toNat < 128 ∧ c ≠ '%' := by decide
      rw [List.singleton_append]
      rcases hplain with (halphanum | hmark) | hmem
      · refine unquote_plain (lt_of_isAlphanum halphanum) ?_ _
        rintro rfl
        revert halphanum
        decide
      · exact unquote_plain (hmarks c hmark).1 (hmarks c hmark).2 _
      · exact unquote_plain (hsafe c hmem).1 (hsafe c hmem).2 _
    · exact unquote_percent _ _

theorem quote_injective {safe : List Char} (hsafe : ∀ c ∈ safe, c.toNat < 128 ∧ c ≠ '%') {s t : String}
    (h : quote s safe = quote t safe) : s = t := by
  have hbytes := congrArg (fun text : String => unquote text.toList) h
  simp only [unquote_quote _ hsafe] at hbytes
  rw [← String.toByteArray_inj, ← String.utf8Encode_toList, ← String.utf8Encode_toList, List.utf8Encode, hbytes,
    ← List.utf8Encode]

end AgentPlatform.Crm
