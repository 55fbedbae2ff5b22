import AgentPlatform.Json

/-!
# Reading a quoted text back

`quote` writes a text between quotation marks with some characters escaped. What follows the closing
mark is determined, and so is the text: `quote_append_inj`. A number ends at the comma after it:
`nat_append_inj`.
-/

namespace AgentPlatform.Json

/-- The value of a hexadecimal digit as `escape` writes it. -/
def hexValue (c : Char) : ℕ :=
  if c.isDigit then c.toNat - '0'.toNat else c.toNat - 'a'.toNat + 10

/-- The first character of an escaped text, and what follows it. -/
def unescape : List Char → Option (Char × List Char)
  | '\\' :: '"' :: rest => some ('"', rest)
  | '\\' :: '\\' :: rest => some ('\\', rest)
  | '\\' :: 'n' :: rest => some ('\n', rest)
  | '\\' :: 'r' :: rest => some ('\r', rest)
  | '\\' :: 't' :: rest => some ('\t', rest)
  | '\\' :: 'b' :: rest => some ('\x08', rest)
  | '\\' :: 'f' :: rest => some ('\x0c', rest)
  | '\\' :: 'u' :: '0' :: '0' :: high :: low :: rest =>
    some (Char.ofNat (16 * hexValue high + hexValue low), rest)
  | c :: rest => some (c, rest)
  | [] => none

theorem hex_roundtrip : ∀ n < 32,
    16 * hexValue (Nat.digitChar (n / 16)) + hexValue (Nat.digitChar (n % 16)) = n := by
  decide

theorem unescape_escape (c : Char) (rest : List Char) :
    unescape (escape c ++ rest) = some (c, rest) := by
  unfold escape
  split
  · rfl
  · rfl
  · rfl
  · rfl
  · rfl
  · rfl
  · rfl
  · rename_i hquote hslash _ _ _ _ _
    split
    · rename_i hsmall
      change some (Char.ofNat _, rest) = some (c, rest)
      rw [hex_roundtrip _ hsmall, Char.ofNat_toNat]
    · change unescape (c :: rest) = some (c, rest)
      unfold unescape
      split
      all_goals rename_i heq
      -- a backslash begins every other pattern
      all_goals first
        | cases heq; rfl
        | exact absurd (List.cons.inj heq).1 hslash
        | cases heq

theorem escape_append_inj {c d : Char} {rest rest' : List Char}
    (h : escape c ++ rest = escape d ++ rest') : c = d ∧ rest = rest' := by
  have hread := congrArg unescape h
  rw [unescape_escape, unescape_escape, Option.some.injEq, Prod.mk.injEq] at hread
  exact hread

theorem escape_ne_quote (c : Char) (rest rest' : List Char) : escape c ++ rest ≠ '"' :: rest' := by
  intro h
  have hread := congrArg unescape h
  rw [unescape_escape] at hread
  have hmark : unescape ('"' :: rest') = some ('"', rest') := rfl
  rw [hmark, Option.some.injEq, Prod.mk.injEq] at hread
  obtain ⟨rfl, rfl⟩ := hread
  have hlength := congrArg List.length h
  simp [escape] at hlength

theorem escaped_append_inj {text text' rest rest' : List Char}
    (h : text.flatMap escape ++ '"' :: rest = text'.flatMap escape ++ '"' :: rest') :
    text = text' ∧ rest = rest' := by
  induction text generalizing text' with
  | nil =>
    cases text' with
    | nil => exact ⟨rfl, (List.cons.inj h).2⟩
    | cons d text' =>
      rw [List.flatMap_nil, List.nil_append, List.flatMap_cons, List.append_assoc] at h
      exact absurd h.symm (escape_ne_quote _ _ _)
  | cons c text ih =>
    cases text' with
    | nil =>
      rw [List.flatMap_nil, List.nil_append, List.flatMap_cons, List.append_assoc] at h
      exact absurd h (escape_ne_quote _ _ _)
    | cons d text' =>
      rw [List.flatMap_cons, List.flatMap_cons, List.append_assoc, List.append_assoc] at h
      obtain ⟨rfl, hrest⟩ := escape_append_inj h
      obtain ⟨rfl, rfl⟩ := ih hrest
      exact ⟨rfl, rfl⟩

theorem quote_toList (text : String) :
    (quote text).toList = '"' :: (text.toList.flatMap escape ++ ['"']) := by
  simp [quote]

theorem quote_append_inj {text text' : String} {rest rest' : String}
    (h : quote text ++ rest = quote text' ++ rest') : text = text' ∧ rest = rest' := by
  have hchars := congrArg String.toList h
  rw [String.toList_append, String.toList_append, quote_toList, quote_toList, List.cons_append,
    List.cons_append, List.append_assoc, List.append_assoc, List.cons_append, List.cons_append,
    List.nil_append, List.nil_append] at hchars
  obtain ⟨htext, hrest⟩ := escaped_append_inj (List.cons.inj hchars).2
  exact ⟨String.toList_inj.1 htext, String.toList_inj.1 hrest⟩

/-- Two lists without a character, with that character and what follows it. -/
theorem append_mark_inj {mark : Char} {xs ys rest rest' : List Char} (hx : mark ∉ xs) (hy : mark ∉ ys)
    (h : xs ++ mark :: rest = ys ++ mark :: rest') : xs = ys ∧ rest = rest' := by
  induction xs generalizing ys with
  | nil =>
    cases ys with
    | nil => exact ⟨rfl, (List.cons.inj h).2⟩
    | cons y ys =>
      obtain ⟨rfl, -⟩ := List.cons.inj h
      exact absurd List.mem_cons_self hy
  | cons x xs ih =>
    cases ys with
    | nil =>
      obtain ⟨rfl, -⟩ := List.cons.inj h
      exact absurd List.mem_cons_self hx
    | cons y ys =>
      obtain ⟨rfl, htail⟩ := List.cons.inj h
      obtain ⟨rfl, rfl⟩ := ih (fun hm => hx (List.mem_cons_of_mem _ hm))
        (fun hm => hy (List.mem_cons_of_mem _ hm)) htail
      exact ⟨rfl, rfl⟩

theorem comma_not_mem_toString (n : ℕ) : ',' ∉ (toString (n : ℤ)).toList := by
  intro h
  have hdigits : (toString (n : ℤ)).toList = Nat.toDigits 10 n := by
    show (Nat.repr n).toList = _
    simp [Nat.repr]
  rw [hdigits] at h
  have hdigit := Nat.isDigit_of_mem_toDigits (by decide) (by decide) h
  exact absurd hdigit (by decide)

theorem nat_append_inj {m n : ℕ} {rest rest' : String}
    (h : toString (m : ℤ) ++ ("," ++ rest) = toString (n : ℤ) ++ ("," ++ rest')) : rest = rest' := by
  have hchars := congrArg String.toList h
  rw [String.toList_append, String.toList_append, String.toList_append, String.toList_append] at hchars
  exact String.toList_inj.1 (append_mark_inj (comma_not_mem_toString m) (comma_not_mem_toString n) hchars).2

end AgentPlatform.Json
