import AgentPlatform.Json

/-!
# The size of an encoded value

`encode` writes a character of a text as itself, as two characters, or as six; so the size of what it writes is a sum
over the characters of the value (`weigh_encode`). A size is taken with a weight for each character: with the weight
one it is the number of characters (`length_encode`), with the number of bytes of a character that of bytes
(`utf8ByteSize_encode`).
-/

namespace AgentPlatform

/-- The weight of a text. -/
def weigh (w : Char → ℕ) (text : List Char) : ℕ := (text.map w).sum

variable {w : Char → ℕ} {s t : List Char}

theorem weigh_append : weigh w (s ++ t) = weigh w s + weigh w t := by
  rw [weigh, List.map_append, List.sum_append, weigh, weigh]

theorem weigh_cons {c : Char} : weigh w (c :: s) = w c + weigh w s := by
  rw [weigh, List.map_cons, List.sum_cons, weigh]

theorem weigh_one : weigh (fun _ => 1) s = s.length := by simp [weigh]

theorem weigh_utf8Size (s : String) : weigh Char.utf8Size s.toList = s.utf8ByteSize := by
  have hlist : ∀ cs : List Char, weigh Char.utf8Size cs = (String.ofList cs).utf8ByteSize := by
    intro cs
    induction cs with
    | nil => rfl
    | cons c cs ih =>
      rw [weigh_cons, ih, String.ofList_cons, String.utf8ByteSize_append, String.utf8ByteSize_singleton]
  rw [hlist, String.ofList_toList]

/-- The sizes of parts with a comma between any two. -/
def separated (sizes : List ℕ) : ℕ := sizes.sum + (sizes.length - 1)

namespace Json

/-- The characters that are written as two. -/
def shortEscapes : List Char := ['"', '\\', '\n', '\r', '\t', '\x08', '\x0c']

/-- The weight of a character of a JSON string. -/
def escapedSize (w : Char → ℕ) (c : Char) : ℕ :=
  if c ∈ shortEscapes then 2 else if c.toNat < 32 then 6 else w c

/-- The weight of a JSON string. -/
def quotedSize (w : Char → ℕ) (s : String) : ℕ := 2 + (s.toList.map (escapedSize w)).sum

mutual

/-- The weight of an encoded value. -/
def size (w : Char → ℕ) : Json → ℕ
  | null => 4
  | bool true => 4
  | bool false => 5
  | int n => weigh w (toString n).toList
  | float literal => weigh w literal.toList
  | str s => quotedSize w s
  | arr items => 2 + separated (sizeItems w items)
  | obj members => 2 + separated (sizeMembers w members)

def sizeItems (w : Char → ℕ) : List Json → List ℕ
  | [] => []
  | item :: items => size w item :: sizeItems w items

def sizeMembers (w : Char → ℕ) : List (String × Json) → List ℕ
  | [] => []
  | (key, value) :: members => (quotedSize w key + 1 + size w value) :: sizeMembers w members

end

/-- An ASCII character weighs one. -/
def IsWeight (w : Char → ℕ) : Prop := ∀ c : Char, c.toNat < 128 → w c = 1

theorem isWeight_one : IsWeight fun _ => 1 := fun _ _ => rfl

theorem isWeight_utf8Size : IsWeight Char.utf8Size := by
  intro c hc
  rw [Char.utf8Size_eq_one_iff, UInt32.le_iff_toNat_le]
  exact Nat.le_of_lt_succ hc

theorem weigh_ascii (hw : IsWeight w) (h : ∀ c ∈ s, c.toNat < 128) : weigh w s = s.length := by
  induction s with
  | nil => rfl
  | cons c s ih =>
    rw [List.forall_mem_cons] at h
    rw [weigh_cons, hw c h.1, ih h.2, List.length_cons, Nat.add_comm]

theorem escape_of_mem {c : Char} (h : c ∈ shortEscapes) :
    (escape c).length = 2 ∧ ∀ d ∈ escape c, 32 ≤ d.toNat ∧ d.toNat < 128 := by
  revert h
  revert c
  decide

theorem escape_of_not_mem {c : Char} (h : c ∉ shortEscapes) : escape c = if c.toNat < 32 then
    ['\\', 'u', '0', '0', Nat.digitChar (c.toNat / 16), Nat.digitChar (c.toNat % 16)] else [c] := by
  unfold escape
  split <;> first | rfl | exact absurd (by decide) h

theorem escape_of_low {c : Char} (h : c.toNat < 32) :
    ∀ d ∈ ['\\', 'u', '0', '0', Nat.digitChar (c.toNat / 16), Nat.digitChar (c.toNat % 16)],
      32 ≤ d.toNat ∧ d.toNat < 128 := by
  have hdigit : ∀ n < 16, 32 ≤ (Nat.digitChar n).toNat ∧ (Nat.digitChar n).toNat < 128 := by decide
  have hhigh := hdigit (c.toNat / 16) (by omega)
  have hrest := hdigit (c.toNat % 16) (by omega)
  simp only [List.forall_mem_cons]
  exact ⟨by decide, by decide, by decide, by decide, hhigh, hrest, List.forall_mem_nil _⟩

theorem printable_escape {c d : Char} (h : d ∈ escape c) : 32 ≤ d.toNat := by
  by_cases hmem : c ∈ shortEscapes
  · exact ((escape_of_mem hmem).2 d h).1
  · rw [escape_of_not_mem hmem] at h
    split_ifs at h with hlow
    · exact (escape_of_low hlow d h).1
    · rw [List.mem_singleton.1 h]
      omega

theorem weigh_escape (hw : IsWeight w) (c : Char) : weigh w (escape c) = escapedSize w c := by
  by_cases hmem : c ∈ shortEscapes
  · rw [escapedSize, if_pos hmem, weigh_ascii hw fun d hd => ((escape_of_mem hmem).2 d hd).2, (escape_of_mem hmem).1]
  · rw [escapedSize, if_neg hmem, escape_of_not_mem hmem]
    split_ifs with hlow
    · exact weigh_ascii hw fun d hd => (escape_of_low hlow d hd).2
    · rw [weigh_cons]
      rfl

theorem weigh_quote (hw : IsWeight w) (s : String) : weigh w (quote s).toList = quotedSize w s := by
  have hquote : (quote s).toList = '"' :: (s.toList.flatMap escape ++ ['"']) := by simp [quote]
  have hbody : weigh w (s.toList.flatMap escape) = (s.toList.map (escapedSize w)).sum := by
    induction s.toList with
    | nil => rfl
    | cons c cs ih => rw [List.flatMap_cons, weigh_append, ih, weigh_escape hw, List.map_cons, List.sum_cons]
  have hmark : weigh w ['"'] = 1 := weigh_ascii hw (by decide)
  rw [hquote, weigh_cons, weigh_append, hbody, hmark, hw '"' (by decide), quotedSize]
  omega

theorem weigh_intercalate (hw : IsWeight w) (parts : List String) :
    weigh w (",".intercalate parts).toList = separated (parts.map fun s => weigh w s.toList) := by
  have hcomma : weigh w ",".toList = 1 := weigh_ascii hw (by decide)
  rw [String.toList_intercalate]
  induction parts with
  | nil => rfl
  | cons part parts ih =>
    cases parts with
    | nil => simp [separated]
    | cons part' parts =>
      rw [List.map_cons, List.map_cons, List.intercalate_cons_cons, weigh_append, weigh_append, ← List.map_cons, ih,
        hcomma]
      simp only [separated, List.map_cons, List.sum_cons, List.length_cons]
      omega

mutual

theorem weigh_encode (hw : IsWeight w) : (v : Json) → weigh w v.encode.toList = v.size w
  | null => weigh_ascii hw (by decide)
  | bool true => weigh_ascii hw (by decide)
  | bool false => weigh_ascii hw (by decide)
  | int n => rfl
  | float literal => rfl
  | str s => weigh_quote hw s
  | arr items => by
    have hopen : weigh w "[".toList = 1 := weigh_ascii hw (by decide)
    have hclose : weigh w "]".toList = 1 := weigh_ascii hw (by decide)
    rw [encode, String.toList_append, String.toList_append, weigh_append, weigh_append, hopen, hclose,
      weigh_intercalate hw, weigh_encodeItems hw items, size]
    omega
  | obj members => by
    have hopen : weigh w "\x7b".toList = 1 := weigh_ascii hw (by decide)
    have hclose : weigh w "\x7d".toList = 1 := weigh_ascii hw (by decide)
    have hsorted := (List.perm_insertionSort (fun m m' : String × String => m.1.toList ≤ m'.1.toList)
      (encodeMembers members)).map fun m => weigh w (quote m.1 ++ ":" ++ m.2).toList
    rw [encode, String.toList_append, String.toList_append, weigh_append, weigh_append, hopen, hclose,
      weigh_intercalate hw, List.map_map, size, ← weigh_encodeMembers hw members, separated, separated]
    simp only [Function.comp_def]
    rw [hsorted.sum_nat, hsorted.length_eq]
    omega

theorem weigh_encodeItems (hw : IsWeight w) :
    (items : List Json) → (encodeItems items).map (fun s => weigh w s.toList) = sizeItems w items
  | [] => rfl
  | item :: items => by
    rw [encodeItems, List.map_cons, weigh_encode hw item, weigh_encodeItems hw items, sizeItems]

theorem weigh_encodeMembers (hw : IsWeight w) :
    (members : List (String × Json)) →
      (encodeMembers members).map (fun m => weigh w (quote m.1 ++ ":" ++ m.2).toList) = sizeMembers w members
  | [] => rfl
  | (key, value) :: members => by
    have hcolon : weigh w ":".toList = 1 := weigh_ascii hw (by decide)
    rw [encodeMembers, List.map_cons, String.toList_append, String.toList_append, weigh_append, weigh_append,
      weigh_quote hw, hcolon, weigh_encode hw value, weigh_encodeMembers hw members, sizeMembers]

end

theorem utf8ByteSize_encode (v : Json) : v.encode.utf8ByteSize = v.size Char.utf8Size := by
  rw [← weigh_utf8Size, weigh_encode isWeight_utf8Size]

theorem length_encode (v : Json) : v.encode.length = v.size fun _ => 1 := by
  rw [← weigh_encode isWeight_one, weigh_one, String.length_toList]

end Json

end AgentPlatform
