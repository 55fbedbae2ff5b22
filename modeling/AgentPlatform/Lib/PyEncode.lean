import Mathlib.Data.List.Lex
import Mathlib.Data.List.Sort
import AgentPlatform.Lib.PyJson

/-!
# Canonical JSON text

`encode` is `json.dumps` with `sort_keys`, without spaces, `ensure_ascii` and `allow_nan`: the members of every
dictionary are written in the order of their keys. `loads_encode` is the round trip: what is written of a value reads
as the value, its members in order (`Value.sorted`). Hence `encode` is injective up to the order of members
(`encode_injective`).
-/

namespace PyJson

open Outcome

variable {F : Type}

/-! ### Values in order -/

/-- The code point of a character. -/
def Code.point : Code → ℕ
  | .char c => c.toNat
  | .surrogate unit => 0xD800 + unit

/-- The order of texts. -/
def textLe (s t : Text) : Bool := decide (s.map Code.point ≤ t.map Code.point)

/-- Members in the order of their keys. -/
def inOrder (members : List (Text × Value F)) : List (Text × Value F) :=
  members.insertionSort fun m m' => textLe m.1 m'.1 = true

mutual

/-- A value with the members of its dictionaries in order. -/
def Value.sorted : Value F → Value F
  | .arr items => .arr (itemsSorted items)
  | .obj members => .obj (inOrder (membersSorted members))
  | v => v

def itemsSorted : List (Value F) → List (Value F)
  | [] => []
  | item :: items => item.sorted :: itemsSorted items

def membersSorted : List (Text × Value F) → List (Text × Value F)
  | [] => []
  | (key, value) :: members => (key, value.sorted) :: membersSorted members

end

mutual

/-- How many arrays and objects lie in each other. -/
def Value.levels : Value F → ℕ
  | .arr items => itemsLevels items + 1
  | .obj members => membersLevels members + 1
  | _ => 0

def itemsLevels : List (Value F) → ℕ
  | [] => 0
  | item :: items => max item.levels (itemsLevels items)

def membersLevels : List (Text × Value F) → ℕ
  | [] => 0
  | (_, value) :: members => max value.levels (membersLevels members)

end

mutual

/-- No dictionary of a value has a key twice. -/
def Value.Distinct : Value F → Prop
  | .arr items => itemsDistinct items
  | .obj members => (members.map Prod.fst).Nodup ∧ membersDistinct members
  | _ => True

def itemsDistinct : List (Value F) → Prop
  | [] => True
  | item :: items => item.Distinct ∧ itemsDistinct items

def membersDistinct : List (Text × Value F) → Prop
  | [] => True
  | (_, value) :: members => value.Distinct ∧ membersDistinct members

end

/-! ### Writing -/

mutual

/-- `json.dumps(value, ensure_ascii=False, separators=(',', ':'), allow_nan=False)`. -/
def write (repr : F → Option Text) : Value F → Option Text
  | .null => some (ofString "null")
  | .bool true => some (ofString "true")
  | .bool false => some (ofString "false")
  | .int n => if Short n then some (ofString (toString n)) else none
  | .float x => repr x
  | .str s => some (quote s)
  | .arr items => (writeItems repr items).map fun parts => .char '[' :: ([.char ','].intercalate parts ++ [.char ']'])
  | .obj members => (writeMembers repr members).map fun parts =>
    .char '\x7b' :: ([.char ','].intercalate parts ++ [.char '\x7d'])

def writeItems (repr : F → Option Text) : List (Value F) → Option (List Text)
  | [] => some []
  | item :: items => do
    let part ← write repr item
    let parts ← writeItems repr items
    pure (part :: parts)

def writeMembers (repr : F → Option Text) : List (Text × Value F) → Option (List Text)
  | [] => some []
  | (key, value) :: members => do
    let part ← write repr value
    let parts ← writeMembers repr members
    pure ((quote key ++ .char ':' :: part) :: parts)

end

/-- `encode`, into `limit` levels of arrays and objects. -/
def encode (limit : ℕ) (repr : F → Option Text) (v : Value F) : Option Text :=
  if v.levels ≤ limit then write repr v.sorted else none

/-! ### Bytes -/

/-- `text.encode('utf-8')`; a surrogate has no encoding. -/
def utf8 : Text → Option (List UInt8)
  | [] => some []
  | .char c :: rest => (utf8 rest).map (String.utf8EncodeChar c ++ ·)
  | .surrogate _ :: _ => none

inductive Encoding
  | utf8
  | utf8Sig
  | utf16
  | utf16be
  | utf16le
  | utf32
  | utf32be
  | utf32le
  deriving DecidableEq

/-- `json.detect_encoding`. -/
def detectEncoding (raw : List UInt8) : Encoding :=
  if [0, 0, 0xfe, 0xff].isPrefixOf raw || [0xff, 0xfe, 0, 0].isPrefixOf raw then .utf32
  else if [0xfe, 0xff].isPrefixOf raw || [0xff, 0xfe].isPrefixOf raw then .utf16
  else if [0xef, 0xbb, 0xbf].isPrefixOf raw then .utf8Sig
  else
    match raw with
    | a :: b :: c :: d :: _ =>
      if a = 0 then if b = 0 then .utf32be else .utf16be
      else if b = 0 then if c = 0 ∧ d = 0 then .utf32le else .utf16le
      else .utf8
    | [a, b] => if a = 0 then .utf16be else if b = 0 then .utf16le else .utf8
    | _ => .utf8

/-- `json.loads` of bytes. -/
def loadsBytes (codec : Encoding → List UInt8 → Option Text) (limit : ℕ) (hooks : Hooks F) (raw : List UInt8) :
    Except Error (Value F) := do
  let text ← need (codec (detectEncoding raw) raw) Error.decode
  loads limit hooks text

/-! ### Reading what is written -/

/-- What follows a number does not continue it. -/
def Stops (rest : Text) : Prop :=
  ∀ c ∈ rest.head?, c ≠ .char '.' ∧ c ≠ .char 'e' ∧ c ≠ .char 'E' ∧ ∀ d : Char, c = .char d → d.isDigit = false

/-- `float` reads what `repr` writes, which is a number with a fraction or an exponent; and a dictionary may have any
keys once. -/
structure Hooks.Inverts (hooks : Hooks F) (repr : F → Option Text) : Prop where
  float : ∀ x text, repr x = some text → ∃ l : Literal, l.isFloat = true ∧ hooks.parseFloat l = x ∧
    ∀ rest, Stops rest → scanLiteral (text ++ rest) = some (l, rest)
  pairs : ∀ keys, keys.Nodup → hooks.pairs keys = .ok ()

section Strings

theorem hexDigit_digitChar : ∀ n < 16, hexDigit (.char (Nat.digitChar n)) = some n := by decide

theorem joined_cons_unit {n : ℕ} (hn : n < 0xD800) (rest : List Written) :
    joined (.unit n :: rest) = .char (Char.ofNat n) :: joined rest := by
  have hself : ofUnit n = .char (Char.ofNat n) := by
    rw [ofUnit, if_neg (by omega)]
  cases rest with
  | nil => simp [joined, hself]
  | cons w rest =>
    cases w with
    | code c => simp [joined, hself]
    | unit low =>
      rw [joined, ofPair, if_neg (by omega), hself]

theorem scanWritten_unescape {c d : Char} (hc : c ≠ 'u') (h : unescape c = some d) (rest : Text) :
    scanWritten (.char '\\' :: .char c :: rest) =
      (scanWritten rest).map fun p => (.code (.char d) :: p.1, p.2) := by
  rw [scanWritten]
  · rw [h]
  · intro _ _ _ _ _ _
    exact hc

theorem scanWritten_plain {code : Code} (hquote : code ≠ .char '"') (hslash : code ≠ .char '\\')
    (hcontrol : isControl code = false) (rest : Text) :
    scanWritten (code :: rest) = (scanWritten rest).map fun p => (.code code :: p.1, p.2) := by
  rw [scanWritten, hcontrol]
  · rfl
  · exact hquote
  · intro _ _ _ _ _ h _
    exact hslash h
  · intro _ _ h _
    exact hslash h
  · exact hslash

/-- What is written of a character is read as it. -/
theorem scanWritten_writeCode (code : Code) (rest : Text) :
    ∃ w : Written, scanWritten (writeCode code ++ rest) = (scanWritten rest).map (fun p => (w :: p.1, p.2)) ∧
      ∀ ws, joined (w :: ws) = code :: joined ws := by
  cases code with
  | surrogate unit => exact ⟨.code (.surrogate unit), rfl, fun _ => rfl⟩
  | char c =>
    rw [writeCode]
    unfold writeEscape
    split
    case h_8 hquote hslash _ _ _ _ _ =>
      split_ifs with hcontrol
      · refine ⟨.unit c.toNat, ?_, fun ws => ?_⟩
        · have hunit : hexUnit (.char '0') (.char '0') (.char (Nat.digitChar (c.toNat / 16)))
              (.char (Nat.digitChar (c.toNat % 16))) = some c.toNat := by
            have hsum : c.toNat / 16 * 16 + c.toNat % 16 = c.toNat := Nat.div_add_mod' _ _
            have hzero : hexDigit (.char '0') = some 0 := rfl
            simp [hexUnit, hzero, hexDigit_digitChar _ (show c.toNat / 16 < 16 by omega),
              hexDigit_digitChar _ (Nat.mod_lt c.toNat (show 0 < 16 by decide)), hsum]
          change scanWritten (.char '\\' :: .char 'u' :: .char '0' :: .char '0' :: _ :: _ :: rest) = _
          rw [scanWritten, hunit]
        · rw [joined_cons_unit (by omega), Char.ofNat_toNat]
      · refine ⟨.code (.char c), scanWritten_plain (fun h => hquote (Code.char.inj h))
          (fun h => hslash (Code.char.inj h)) ?_ rest, fun _ => rfl⟩
        exact decide_eq_false hcontrol
    all_goals exact ⟨_, scanWritten_unescape (by decide) rfl rest, fun _ => rfl⟩

/-- A string is read as it is written. -/
theorem scanString_quote (s rest : Text) :
    scanString (s.flatMap writeCode ++ .char '"' :: rest) = .ok (s, rest) := by
  have hwritten : ∃ ws, scanWritten (s.flatMap writeCode ++ .char '"' :: rest) = .ok (ws, rest) ∧ joined ws = s := by
    induction s with
    | nil => exact ⟨[], rfl, rfl⟩
    | cons code s ih =>
      obtain ⟨ws, hws, hjoined⟩ := ih
      obtain ⟨w, hw, hcons⟩ := scanWritten_writeCode code (s.flatMap writeCode ++ .char '"' :: rest)
      refine ⟨w :: ws, ?_, ?_⟩
      · rw [List.flatMap_cons, List.append_assoc, hw, hws]
        rfl
      · rw [hcons, hjoined]
  obtain ⟨ws, hws, hjoined⟩ := hwritten
  rw [scanString, hws]
  change Except.ok (joined ws, rest) = _
  rw [hjoined]

end Strings

section Numbers

variable {rest : Text}

theorem scanDigits_append {digits : List Char} (hdigits : ∀ c ∈ digits, c.isDigit = true)
    (hrest : ∀ c ∈ rest.head?, ∀ d : Char, c = .char d → d.isDigit = false) :
    scanDigits (digits.map .char ++ rest) = (digits, rest) := by
  induction digits with
  | nil =>
    cases rest with
    | nil => rfl
    | cons code rest =>
      cases code with
      | surrogate unit => rfl
      | char d => simp [scanDigits, hrest _ rfl d rfl]
  | cons c digits ih =>
    have hc := hdigits c List.mem_cons_self
    rw [List.map_cons, List.cons_append, scanDigits, if_pos hc,
      ih fun d hd => hdigits d (List.mem_cons_of_mem _ hd)]

theorem head_toDigits {n : ℕ} (hn : 0 < n) : ∃ c cs, Nat.toDigits 10 n = c :: cs ∧ c ≠ '0' := by
  have hsmall : ∀ n < 10, 0 < n → Nat.digitChar n ≠ '0' := by decide
  induction n using Nat.strongRecOn with
  | _ n ih =>
    by_cases hlt : n < 10
    · exact ⟨Nat.digitChar n, [], Nat.toDigits_of_lt_base hlt, hsmall n hlt hn⟩
    · obtain ⟨c, cs, hdigits, hc⟩ := ih (n / 10) (by omega) (by omega)
      refine ⟨c, cs ++ [Nat.digitChar (n % 10)], ?_, hc⟩
      rw [Nat.toDigits_of_base_le (by decide) (not_lt.1 hlt), hdigits, List.cons_append]

theorem scanWhole_toDigits (n : ℕ) (hrest : Stops rest) :
    scanWhole ((Nat.toDigits 10 n).map .char ++ rest) = some (Nat.toDigits 10 n, rest) := by
  have hdigits : ∀ c ∈ Nat.toDigits 10 n, c.isDigit = true := fun c hc =>
    Nat.isDigit_of_mem_toDigits (by decide) (by decide) hc
  have hscan := scanDigits_append hdigits fun c hc => (hrest c hc).2.2.2
  rcases Nat.eq_zero_or_pos n with rfl | hn
  · rfl
  · obtain ⟨c, cs, heq, hc⟩ := head_toDigits hn
    rw [heq] at hscan ⊢
    rw [scanWhole, hscan]
    · intro _ h
      exact hc (Code.char.inj (List.cons.inj h).1)

theorem scanFraction_stops (h : Stops rest) : scanFraction rest = (none, rest) := by
  cases rest with
  | nil => rfl
  | cons code rest =>
    rw [scanFraction]
    intro _ heq
    exact (h code rfl).1 (List.cons.inj heq).1

theorem scanExponent_stops (h : Stops rest) : scanExponent rest = (none, rest) := by
  cases rest with
  | nil => rfl
  | cons code rest =>
    cases code with
    | surrogate unit => rfl
    | char c =>
      obtain ⟨-, he, hE, -⟩ := h _ rfl
      unfold scanExponent
      refine if_neg ?_
      rintro (rfl | rfl)
      · exact he rfl
      · exact hE rfl

/-- The literal of an integer. -/
def intLiteral (n : ℤ) : Literal := ⟨decide (n < 0), Nat.toDigits 10 n.natAbs, none, none⟩

theorem ofString_repr (n : ℕ) : ofString (Nat.repr n) = (Nat.toDigits 10 n).map .char := by
  rw [ofString, Nat.toList_repr]

theorem scanLiteral_int (n : ℤ) (h : Stops rest) :
    scanLiteral (ofString (toString n) ++ rest) = some (intLiteral n, rest) := by
  cases n with
  | ofNat m =>
    have htext : ofString (toString (Int.ofNat m)) = (Nat.toDigits 10 m).map .char := ofString_repr m
    have hsign : scanSign ((Nat.toDigits 10 m).map .char ++ rest) =
        (false, (Nat.toDigits 10 m).map .char ++ rest) := by
      obtain ⟨c, cs, heq⟩ := List.exists_cons_of_ne_nil (Nat.toDigits_ne_nil (n := m) (b := 10))
      have hdigit : c.isDigit = true :=
        Nat.isDigit_of_mem_toDigits (by decide) (by decide) (heq ▸ List.mem_cons_self)
      rw [heq, List.map_cons, List.cons_append, scanSign]
      intro _ hcons
      rw [Code.char.inj (List.cons.inj hcons).1] at hdigit
      cases hdigit
    rw [htext, scanLiteral, hsign]
    simp only [scanWhole_toDigits m h, Option.map_some, scanFraction_stops h, scanExponent_stops h]
    rfl
  | negSucc m =>
    have htext : ofString (toString (Int.negSucc m)) = .char '-' :: (Nat.toDigits 10 (m + 1)).map .char := by
      change ("-" ++ Nat.repr (m + 1)).toList.map Code.char = _
      rw [String.toList_append, Nat.toList_repr]
      rfl
    have hneg : decide (Int.negSucc m < 0) = true := decide_eq_true (Int.negSucc_lt_zero m)
    rw [htext, scanLiteral]
    simp only [List.cons_append, scanSign, scanWhole_toDigits _ h, Option.map_some, scanFraction_stops h,
      scanExponent_stops h]
    rw [intLiteral, hneg]
    rfl

theorem toInt_intLiteral {n : ℤ} (h : Short n) : (intLiteral n).toInt = .ok n := by
  have hlength : (Nat.toDigits 10 n.natAbs).length ≤ maxDigits :=
    (Nat.length_toDigits_le_iff (by decide) (by decide)).2 h
  rw [intLiteral, Literal.toInt, if_neg (not_lt.2 hlength)]
  simp only [Nat.ofDigitChars_ten_toDigits, decide_eq_true_eq]
  split_ifs with hneg
  · rw [Int.ofNat_natAbs_of_nonpos hneg.le, neg_neg]
  · rw [Int.natAbs_of_nonneg (not_lt.1 hneg)]

end Numbers

section Values

variable {hooks : Hooks F} {repr : F → Option Text} {rest : Text}

theorem scanWhole_head {p : List Char × Text} (h : scanWhole rest = some p) :
    ∃ d t, rest = .char d :: t ∧ d.isDigit = true := by
  cases rest with
  | nil => cases h
  | cons code t =>
    cases code with
    | surrogate unit => cases h
    | char d =>
      refine ⟨d, t, rfl, ?_⟩
      cases hd : d.isDigit with
      | true => rfl
      | false =>
        have hscan : scanDigits (.char d :: t) = ([], .char d :: t) := by simp [scanDigits, hd]
        rw [scanWhole, hscan] at h
        · cases h
        · intro _ heq
          rw [Code.char.inj (List.cons.inj heq).1] at hd
          cases hd

variable {p : Literal × Text}

theorem scanLiteral_head (h : scanLiteral rest = some p) :
    ∃ d t, d.isDigit = true ∧ (rest = .char d :: t ∨ rest = .char '-' :: .char d :: t) := by
  have hwhole : ∃ q, scanWhole (scanSign rest).2 = some q := by
    unfold scanLiteral at h
    obtain ⟨q, hq, -⟩ := Option.map_eq_some_iff.1 h
    exact ⟨q, hq⟩
  obtain ⟨q, hq⟩ := hwhole
  obtain ⟨d, t, heq, hd⟩ := scanWhole_head hq
  refine ⟨d, t, hd, ?_⟩
  unfold scanSign at heq
  split at heq
  · subst heq
    exact .inr rfl
  · exact .inl heq

variable {c : Char}

theorem ne_of_isDigit {d : Char} (hd : d.isDigit = true) (hc : c.isDigit = false) : c ≠ d := by
  rintro rfl
  rw [hd] at hc
  cases hc

theorem scanWord_number (h : scanLiteral rest = some p) : scanWord hooks rest = scanNumber hooks rest := by
  obtain ⟨d, t, hd, rfl | rfl⟩ := scanLiteral_head h
  · have hn := ne_of_isDigit hd (c := 'n') rfl
    have ht := ne_of_isDigit hd (c := 't') rfl
    have hf := ne_of_isDigit hd (c := 'f') rfl
    have hN := ne_of_isDigit hd (c := 'N') rfl
    have hI := ne_of_isDigit hd (c := 'I') rfl
    have hm := ne_of_isDigit hd (c := '-') rfl
    simp [scanWord, after, ofString, hn, ht, hf, hN, hI, hm]
  · have hI := ne_of_isDigit hd (c := 'I') rfl
    simp [scanWord, after, ofString, hI]

/-- The text of a value begins with its first character, a plain one and no space. -/
def Begins (text : Text) : Prop :=
  ∃ c t, text = .char c :: t ∧ isSpace (.char c) = false ∧ c ≠ ']' ∧ 0 < c.toNat ∧ c.toNat < 128

theorem toNat_of_isDigit {d : Char} (hd : d.isDigit = true) : 0 < d.toNat ∧ d.toNat < 128 := by
  obtain ⟨hlow, hhigh⟩ := Char.isDigit_iff_toNat.1 hd
  exact ⟨Nat.lt_of_lt_of_le (by decide) hlow, Nat.lt_of_le_of_lt hhigh (by decide)⟩

variable {text : Text}

theorem begins_of_scanLiteral (h : scanLiteral text = some p) : Begins text := by
  obtain ⟨d, t, hd, rfl | rfl⟩ := scanLiteral_head h
  · refine ⟨d, t, rfl, ?_, ?_, ?_⟩
    · have h1 := ne_of_isDigit hd (c := ' ') rfl
      have h2 := ne_of_isDigit hd (c := '\t') rfl
      have h3 := ne_of_isDigit hd (c := '\n') rfl
      have h4 := ne_of_isDigit hd (c := '\r') rfl
      simp [isSpace, h1.symm, h2.symm, h3.symm, h4.symm]
    · exact (ne_of_isDigit hd rfl).symm
    · exact toNat_of_isDigit hd
  · exact ⟨'-', _, rfl, by decide, by decide, by decide⟩

theorem begins_write (hhooks : hooks.Inverts repr) (v : Value F) (h : write repr v = some text) :
    Begins text := by
  cases v with
  | null | str =>
    obtain rfl := Option.some.inj h
    exact ⟨_, _, rfl, by decide, by decide, by decide⟩
  | bool b =>
    cases b with
    | true | false =>
      obtain rfl := Option.some.inj h
      exact ⟨_, _, rfl, by decide, by decide, by decide⟩
  | int n =>
    rw [write, Option.ite_none_right_eq_some] at h
    obtain rfl := Option.some.inj h.2
    have hscan := scanLiteral_int n (show Stops [] from fun c hc => by cases hc)
    rw [List.append_nil] at hscan
    exact begins_of_scanLiteral hscan
  | float x =>
    obtain ⟨l, -, -, hscan⟩ := hhooks.float x text h
    have hscan := hscan [] fun c hc => by cases hc
    rw [List.append_nil] at hscan
    exact begins_of_scanLiteral hscan
  | arr | obj =>
    obtain ⟨parts, -, rfl⟩ := Option.map_eq_some_iff.1 h
    exact ⟨_, _, rfl, by decide, by decide, by decide⟩

theorem Begins.skip (h : Begins text) : skip (text ++ rest) = text ++ rest := by
  obtain ⟨c, t, rfl, hspace, -⟩ := h
  rw [PyJson.skip, List.cons_append, List.dropWhile_cons_of_neg]
  simp [hspace]

variable {α : Type}

theorem intercalate_cons_cons (sep part part' : List α) (parts : List (List α)) :
    sep.intercalate (part :: part' :: parts) = part ++ (sep ++ sep.intercalate (part' :: parts)) := by
  simp [List.intercalate]

theorem length_intercalate (c : α) (parts : List (List α)) :
    parts.length ≤ ([c].intercalate parts).length + 1 := by
  induction parts with
  | nil => exact Nat.zero_le _
  | cons part parts ih =>
    cases parts with
    | nil => exact Nat.succ_le_succ (Nat.zero_le _)
    | cons part' parts =>
      rw [intercalate_cons_cons]
      simp only [List.length_cons, List.length_append, List.length_nil] at ih ⊢
      omega

variable {items : List (Value F)} {parts : List Text}

theorem writeItems_cons {item : Value F} (h : writeItems repr (item :: items) = some parts) :
    ∃ part parts', write repr item = some part ∧ writeItems repr items = some parts' ∧ parts = part :: parts' := by
  simp only [writeItems, Option.bind_eq_bind, Option.bind_eq_some_iff, Option.pure_def, Option.some.injEq] at h
  obtain ⟨part, hpart, parts', hparts, rfl⟩ := h
  exact ⟨part, parts', hpart, hparts, rfl⟩

variable {key : Text} {members : List (Text × Value F)}

theorem writeMembers_cons {value : Value F} (h : writeMembers repr ((key, value) :: members) = some parts) :
    ∃ part parts', write repr value = some part ∧ writeMembers repr members = some parts' ∧
      parts = (quote key ++ .char ':' :: part) :: parts' := by
  simp only [writeMembers, Option.bind_eq_bind, Option.bind_eq_some_iff, Option.pure_def, Option.some.injEq] at h
  obtain ⟨part, hpart, parts', hparts, rfl⟩ := h
  exact ⟨part, parts', hpart, hparts, rfl⟩

theorem stops_char (h : c = ',' ∨ c = ']' ∨ c = '\x7d') : Stops (.char c :: rest) := by
  intro code hcode
  obtain rfl := Option.some.inj hcode
  rcases h with rfl | rfl | rfl
  all_goals
    refine ⟨by decide, by decide, by decide, ?_⟩
    rintro _ ⟨⟩
    rfl

theorem skip_char (h : isSpace (.char c) = false) : skip (.char c :: rest) = .char c :: rest := by
  rw [skip, List.dropWhile_cons_of_neg]
  simp [h]

theorem scanWith_number {inner : Option (Text → Except Error (Value F × Text))}
    (h : scanLiteral rest = some p) : scanWith hooks inner rest = scanNumber hooks rest := by
  rw [← scanWord_number h]
  obtain ⟨d, t, hd, rfl | rfl⟩ := scanLiteral_head h
  · rw [scanWith]
    all_goals
      intro _ heq
      rw [Code.char.inj (List.cons.inj heq).1] at hd
      cases hd
  · rfl

theorem scanOnce_eq_of {r : Except Error (Value F × Text)} (limit : ℕ)
    (h : ∀ inner, scanWith hooks inner rest = r) : scanOnce hooks limit rest = r := by
  cases limit with
  | zero => exact h _
  | succ limit => exact h _

theorem scanOnce_int {n : ℤ} (hshort : Short n) (hrest : Stops rest) (limit : ℕ) :
    scanOnce hooks limit (ofString (toString n) ++ rest) = .ok (.int n, rest) := by
  have hscan := scanLiteral_int n hrest
  refine scanOnce_eq_of limit fun _ => ?_
  rw [scanWith_number hscan, scanNumber, hscan]
  change (do let n ← (intLiteral n).toInt; pure (Value.int n, rest)) = _
  rw [toInt_intLiteral hshort]
  rfl

theorem scanOnce_float (hhooks : hooks.Inverts repr) {x : F} (hwrite : repr x = some text)
    (hrest : Stops rest) (limit : ℕ) : scanOnce hooks limit (text ++ rest) = .ok (.float x, rest) := by
  obtain ⟨l, hfloat, hx, hscan⟩ := hhooks.float x text hwrite
  have hscan := hscan rest hrest
  refine scanOnce_eq_of limit fun _ => ?_
  rw [scanWith_number hscan, scanNumber, hscan]
  change (if l.isFloat = true then _ else _) = _
  rw [if_pos hfloat, hx]
  rfl

theorem scanOnce_str (s : Text) (limit : ℕ) : scanOnce hooks limit (quote s ++ rest) = .ok (.str s, rest) := by
  refine scanOnce_eq_of limit fun _ => ?_
  rw [quote, List.cons_append, List.append_assoc]
  change (scanString (s.flatMap writeCode ++ .char '"' :: rest)).map _ = _
  rw [scanString_quote]
  rfl

/-- The text of a value that has no parts is read as it. -/
theorem scanOnce_scalar (hhooks : hooks.Inverts repr) {v : Value F} (hscalar : v.levels = 0)
    (hwrite : write repr v = some text) (hrest : Stops rest) (limit : ℕ) :
    scanOnce hooks limit (text ++ rest) = .ok (v, rest) := by
  cases v with
  | null =>
    obtain rfl := Option.some.inj hwrite
    exact scanOnce_eq_of limit fun _ => rfl
  | bool b =>
    cases b with
    | true | false =>
      obtain rfl := Option.some.inj hwrite
      exact scanOnce_eq_of limit fun _ => rfl
  | int n =>
    rw [write, Option.ite_none_right_eq_some] at hwrite
    obtain ⟨hshort, htext⟩ := hwrite
    obtain rfl := Option.some.inj htext
    exact scanOnce_int hshort hrest limit
  | float x => exact scanOnce_float hhooks hwrite hrest limit
  | str s =>
    obtain rfl := Option.some.inj hwrite
    exact scanOnce_str s limit
  | arr | obj => cases hscalar

theorem intercalate_singleton (sep part : List α) : sep.intercalate [part] = part := by
  simp [List.intercalate]

theorem Begins.append (h : Begins text) (later : Text) : Begins (text ++ later) := by
  obtain ⟨c, t, rfl, hc⟩ := h
  exact ⟨c, t ++ later, rfl, hc⟩

theorem Begins.intercalate {part : Text} (h : Begins part) (sep : Text) (parts : List Text) :
    Begins (sep.intercalate (part :: parts)) := by
  cases parts with
  | nil =>
    rw [intercalate_singleton]
    exact h
  | cons part' parts =>
    rw [intercalate_cons_cons]
    exact h.append _

/-- A scanner reads the text of a value as it, whatever follows. -/
structure Reads (scan : Text → Except Error (Value F × Text)) (v : Value F) (text : Text) : Prop where
  begins : Begins text
  scan : ∀ rest, Stops rest → scan (text ++ rest) = .ok (v, rest)

variable {scan : Text → Except Error (Value F × Text)} {text later : Text} {v : Value F}

theorem scanItems_last (h : scan text = .ok (v, .char ']' :: rest)) (n : ℕ) :
    scanItems scan (n + 1) text = .ok ([v], rest) := by
  simp only [scanItems, h, bind, Except.bind, skip_char (show isSpace (.char ']') = false from rfl)]
  rfl

variable {n : ℕ}

theorem scanItems_more (h : scan text = .ok (v, .char ',' :: later)) (hskip : skip later = later)
    (hlater : scanItems scan n later = .ok (items, rest)) :
    scanItems scan (n + 1) text = .ok (v :: items, rest) := by
  simp only [scanItems, h, bind, Except.bind, skip_char (show isSpace (.char ',') = false from rfl), hskip, hlater]
  rfl

theorem scanItems_of_reads (h : List.Forall₂ (Reads scan) items parts) (hne : items ≠ [])
    (hn : items.length ≤ n) :
    scanItems scan n ([.char ','].intercalate parts ++ .char ']' :: rest) = .ok (items, rest) := by
  induction h generalizing n with
  | nil => exact absurd rfl hne
  | @cons item part items parts hone h ih =>
    obtain ⟨n, rfl⟩ : ∃ m, n = m + 1 := ⟨n - 1, by rw [List.length_cons] at hn; omega⟩
    cases h with
    | nil =>
      rw [intercalate_singleton]
      exact scanItems_last (hone.scan _ (stops_char (.inr (.inl rfl)))) n
    | @cons item' part' items parts hone' h =>
      rw [intercalate_cons_cons, List.append_assoc]
      exact scanItems_more (hone.scan _ (stops_char (.inl rfl))) (hone'.begins.intercalate _ _).skip
        (ih (List.cons_ne_nil _ _) (Nat.le_of_succ_le_succ hn))

theorem scanMembers_last (h : scan text = .ok (v, .char '\x7d' :: rest)) (hskip : skip text = text) (n : ℕ) :
    scanMembers scan (n + 1) (quote key ++ .char ':' :: text) = .ok ([(key, v)], rest) := by
  rw [quote, List.cons_append, List.append_assoc, scanMembers]
  simp only [List.singleton_append, scanString_quote, bind, Except.bind,
    skip_char (show isSpace (.char ':') = false from rfl), hskip, h,
    skip_char (show isSpace (.char '\x7d') = false from rfl)]
  rfl

theorem scanMembers_more (h : scan text = .ok (v, .char ',' :: later)) (hskip : skip text = text)
    (hskip' : skip later = later) (hlater : scanMembers scan n later = .ok (members, rest)) :
    scanMembers scan (n + 1) (quote key ++ .char ':' :: text) = .ok ((key, v) :: members, rest) := by
  rw [quote, List.cons_append, List.append_assoc, scanMembers]
  simp only [List.singleton_append, scanString_quote, bind, Except.bind,
    skip_char (show isSpace (.char ':') = false from rfl), hskip, h,
    skip_char (show isSpace (.char ',') = false from rfl), hskip', hlater]
  rfl

/-- The text of a member. -/
def ReadsMember (scan : Text → Except Error (Value F × Text)) (m : Text × Value F) (part : Text) : Prop :=
  ∃ text, Reads scan m.2 text ∧ part = quote m.1 ++ .char ':' :: text

theorem ReadsMember.begins {m : Text × Value F} {part : Text} (h : ReadsMember scan m part) : Begins part := by
  obtain ⟨text, -, rfl⟩ := h
  exact ⟨_, _, rfl, by decide, by decide, by decide⟩

theorem scanMembers_of_reads (h : List.Forall₂ (ReadsMember scan) members parts) (hne : members ≠ [])
    (hn : members.length ≤ n) :
    scanMembers scan n ([.char ','].intercalate parts ++ .char '\x7d' :: rest) = .ok (members, rest) := by
  induction h generalizing n with
  | nil => exact absurd rfl hne
  | @cons m part members parts hone h ih =>
    obtain ⟨n, rfl⟩ : ∃ m, n = m + 1 := ⟨n - 1, by rw [List.length_cons] at hn; omega⟩
    obtain ⟨text, hreads, rfl⟩ := hone
    cases h with
    | nil =>
      rw [intercalate_singleton, List.append_assoc, List.cons_append]
      exact scanMembers_last (hreads.scan _ (stops_char (.inr (.inr rfl)))) hreads.begins.skip n
    | @cons m' part' members parts hone' h =>
      rw [intercalate_cons_cons, List.append_assoc, List.append_assoc, List.cons_append]
      exact scanMembers_more (hreads.scan _ (stops_char (.inl rfl))) hreads.begins.skip
        (hone'.begins.intercalate _ _).skip (ih (List.cons_ne_nil _ _) (Nat.le_of_succ_le_succ hn))

variable {limit : ℕ}

theorem scanOnce_arr (hbegins : Begins text)
    (h : scanItems (scanOnce hooks limit) text.length text = .ok (items, rest)) :
    scanOnce hooks (limit + 1) (.char '[' :: text) = .ok (.arr items, rest) := by
  obtain ⟨c, t, rfl, hspace, hc, -⟩ := hbegins
  rw [scanOnce, scanWith]
  simp only [need, bind, Except.bind, skip_char hspace]
  split
  · rename_i heq
    exact absurd (Code.char.inj (List.cons.inj heq).1) hc
  · rw [h]
    rfl

theorem scanOnce_obj (hhooks : hooks.Inverts repr) (hkeys : (members.map Prod.fst).Nodup)
    (h : scanMembers (scanOnce hooks limit) (text.length + 1) (.char '"' :: text) = .ok (members, rest)) :
    scanOnce hooks (limit + 1) (.char '\x7b' :: .char '"' :: text) = .ok (.obj members, rest) := by
  rw [scanOnce, scanWith]
  simp only [need, bind, Except.bind, skip_char (show isSpace (.char '"') = false from rfl)]
  split
  · rename_i heq
    cases heq
  · rw [List.length_cons, h]
    simp only [raised, hhooks.pairs _ hkeys]
    rfl

theorem length_le_of_forall₂ {R : α → Text → Prop} {xs : List α} (h : List.Forall₂ R xs parts) (c d : Code)
    (rest : Text) : xs.length ≤ ([c].intercalate parts ++ d :: rest).length := by
  have hparts := length_intercalate c parts
  rw [h.length_eq, List.length_append, List.length_cons]
  omega

theorem Reads.scalar (hhooks : hooks.Inverts repr) (hscalar : v.levels = 0)
    (hwrite : write repr v = some text) : Reads (scanOnce hooks limit) v text :=
  ⟨begins_write hhooks v hwrite, fun _ h => scanOnce_scalar hhooks hscalar hwrite h limit⟩

theorem Reads.arr (h : List.Forall₂ (Reads (scanOnce hooks limit)) items parts) :
    Reads (scanOnce hooks (limit + 1)) (.arr items) (.char '[' :: ([.char ','].intercalate parts ++ [.char ']'])) := by
  refine ⟨⟨_, _, rfl, by decide, by decide, by decide⟩, fun rest _ => ?_⟩
  have hlength := length_le_of_forall₂ h (.char ',') (.char ']') rest
  rw [List.cons_append, List.append_assoc, List.singleton_append]
  cases h with
  | nil => rfl
  | cons hone h =>
    exact scanOnce_arr ((hone.begins.intercalate _ _).append _)
      (scanItems_of_reads (.cons hone h) (List.cons_ne_nil _ _) hlength)

theorem Reads.obj (hhooks : hooks.Inverts repr) (hkeys : (members.map Prod.fst).Nodup)
    (h : List.Forall₂ (ReadsMember (scanOnce hooks limit)) members parts) :
    Reads (scanOnce hooks (limit + 1)) (.obj members)
      (.char '\x7b' :: ([.char ','].intercalate parts ++ [.char '\x7d'])) := by
  refine ⟨⟨_, _, rfl, by decide, by decide, by decide⟩, fun rest _ => ?_⟩
  have hlength := length_le_of_forall₂ h (.char ',') (.char '\x7d') rest
  rw [List.cons_append, List.append_assoc, List.singleton_append]
  cases h with
  | nil =>
    have hnil := hhooks.pairs [] List.nodup_nil
    rw [scanOnce, scanWith]
    change (do raised (hooks.pairs []); pure (Value.obj [], rest)) = _
    rw [hnil]
    rfl
  | @cons m part members parts hone h =>
    have hmembers : scanMembers (scanOnce hooks limit) _
        ([.char ','].intercalate (part :: parts) ++ .char '\x7d' :: rest) = .ok (m :: members, rest) :=
      scanMembers_of_reads (.cons hone h) (List.cons_ne_nil _ _) hlength
    obtain ⟨text, ht⟩ : ∃ text,
        [.char ','].intercalate (part :: parts) ++ .char '\x7d' :: rest = .char '"' :: text := by
      obtain ⟨t, -, rfl⟩ := hone
      cases parts with
      | nil => exact ⟨_, congrArg (· ++ _) (intercalate_singleton _ _)⟩
      | cons part' parts => exact ⟨_, congrArg (· ++ _) (intercalate_cons_cons _ _ _ _)⟩
    rw [ht] at hmembers ⊢
    exact scanOnce_obj hhooks hkeys hmembers

mutual

/-- What is written of a value reads as it. -/
theorem reads_write (hhooks : hooks.Inverts repr) : (v : Value F) → ∀ (limit : ℕ) (text : Text),
    write repr v = some text → v.levels ≤ limit → v.Distinct → Reads (scanOnce hooks limit) v text
  | .null => fun _ _ hwrite _ _ => .scalar hhooks rfl hwrite
  | .bool _ => fun _ _ hwrite _ _ => .scalar hhooks rfl hwrite
  | .int _ => fun _ _ hwrite _ _ => .scalar hhooks rfl hwrite
  | .float _ => fun _ _ hwrite _ _ => .scalar hhooks rfl hwrite
  | .str _ => fun _ _ hwrite _ _ => .scalar hhooks rfl hwrite
  | .arr items => by
    intro limit text hwrite hlevels hdistinct
    obtain ⟨parts, hparts, rfl⟩ := Option.map_eq_some_iff.1 hwrite
    cases limit with
    | zero => exact absurd hlevels (Nat.not_succ_le_zero _)
    | succ limit => exact .arr (reads_writeItems hhooks items hparts (Nat.le_of_succ_le_succ hlevels) hdistinct)
  | .obj members => by
    intro limit text hwrite hlevels hdistinct
    obtain ⟨parts, hparts, rfl⟩ := Option.map_eq_some_iff.1 hwrite
    cases limit with
    | zero => exact absurd hlevels (Nat.not_succ_le_zero _)
    | succ limit =>
      exact .obj hhooks hdistinct.1
        (reads_writeMembers hhooks members hparts (Nat.le_of_succ_le_succ hlevels) hdistinct.2)

theorem reads_writeItems (hhooks : hooks.Inverts repr) : (items : List (Value F)) → ∀ {limit : ℕ} {parts : List Text},
    writeItems repr items = some parts → itemsLevels items ≤ limit → itemsDistinct items →
      List.Forall₂ (Reads (scanOnce hooks limit)) items parts
  | [], _, _, hparts, _, _ => by
    obtain rfl := Option.some.inj hparts
    exact .nil
  | item :: items, _, _, hparts, hlevels, hdistinct => by
    obtain ⟨part, parts, hpart, hlater, rfl⟩ := writeItems_cons hparts
    obtain ⟨hlevel, hlevels⟩ := Nat.max_le.1 hlevels
    exact .cons (reads_write hhooks item _ _ hpart hlevel hdistinct.1)
      (reads_writeItems hhooks items hlater hlevels hdistinct.2)

theorem reads_writeMembers (hhooks : hooks.Inverts repr) : (members : List (Text × Value F)) →
    ∀ {limit : ℕ} {parts : List Text}, writeMembers repr members = some parts → membersLevels members ≤ limit →
      membersDistinct members → List.Forall₂ (ReadsMember (scanOnce hooks limit)) members parts
  | [], _, _, hparts, _, _ => by
    obtain rfl := Option.some.inj hparts
    exact .nil
  | (_, value) :: members, _, _, hparts, hlevels, hdistinct => by
    obtain ⟨part, parts, hpart, hlater, rfl⟩ := writeMembers_cons hparts
    obtain ⟨hlevel, hlevels⟩ := Nat.max_le.1 hlevels
    exact .cons ⟨part, reads_write hhooks value _ _ hpart hlevel hdistinct.1, rfl⟩
      (reads_writeMembers hhooks members hlater hlevels hdistinct.2)

end

end Values

/-! ### Order -/

section Sorted

theorem inOrder_perm (members : List (Text × Value F)) : (inOrder members).Perm members :=
  List.perm_insertionSort _ members

variable {members : List (Text × Value F)}

theorem levels_mem {limit : ℕ} : membersLevels members ≤ limit ↔ ∀ m ∈ members, m.2.levels ≤ limit := by
  induction members with
  | nil => simp [membersLevels]
  | cons m members ih =>
    obtain ⟨key, value⟩ := m
    rw [membersLevels, Nat.max_le, ih, List.forall_mem_cons]

theorem distinct_mem : membersDistinct members ↔ ∀ m ∈ members, m.2.Distinct := by
  induction members with
  | nil => simp [membersDistinct]
  | cons m members ih =>
    obtain ⟨key, value⟩ := m
    rw [membersDistinct, ih, List.forall_mem_cons]

theorem keys_membersSorted (members : List (Text × Value F)) :
    (membersSorted members).map Prod.fst = members.map Prod.fst := by
  induction members with
  | nil => rfl
  | cons m members ih =>
    obtain ⟨key, value⟩ := m
    rw [membersSorted, List.map_cons, List.map_cons, ih]

mutual

theorem levels_sorted : (v : Value F) → v.sorted.levels = v.levels
  | .null | .bool _ | .int _ | .float _ | .str _ => rfl
  | .arr items => congrArg (· + 1) (itemsLevels_sorted items)
  | .obj members => by
    have hperm := inOrder_perm (membersSorted members)
    have hiff : ∀ limit, membersLevels (inOrder (membersSorted members)) ≤ limit ↔
        membersLevels (membersSorted members) ≤ limit := fun limit => by
      rw [levels_mem, levels_mem]
      exact forall_congr' fun m => imp_congr_left hperm.mem_iff
    have heq := Nat.le_antisymm ((hiff _).2 le_rfl) ((hiff _).1 le_rfl)
    exact congrArg (· + 1) (heq.trans (membersLevels_sorted members))

theorem itemsLevels_sorted : (items : List (Value F)) → itemsLevels (itemsSorted items) = itemsLevels items
  | [] => rfl
  | item :: items => by rw [itemsSorted, itemsLevels, itemsLevels, levels_sorted item, itemsLevels_sorted items]

theorem membersLevels_sorted :
    (members : List (Text × Value F)) → membersLevels (membersSorted members) = membersLevels members
  | [] => rfl
  | (key, value) :: members => by
    rw [membersSorted, membersLevels, membersLevels, levels_sorted value, membersLevels_sorted members]

end

mutual

theorem distinct_sorted : (v : Value F) → v.Distinct → v.sorted.Distinct
  | .null | .bool _ | .int _ | .float _ | .str _ => id
  | .arr items => itemsDistinct_sorted items
  | .obj members => fun h => by
    have hperm := inOrder_perm (membersSorted members)
    refine ⟨?_, ?_⟩
    · rw [(hperm.map Prod.fst).nodup_iff, keys_membersSorted]
      exact h.1
    · rw [distinct_mem]
      intro m hm
      exact distinct_mem.1 (membersDistinct_sorted members h.2) m (hperm.mem_iff.1 hm)

theorem itemsDistinct_sorted : (items : List (Value F)) → itemsDistinct items → itemsDistinct (itemsSorted items)
  | [] => id
  | item :: items => fun h => ⟨distinct_sorted item h.1, itemsDistinct_sorted items h.2⟩

theorem membersDistinct_sorted :
    (members : List (Text × Value F)) → membersDistinct members → membersDistinct (membersSorted members)
  | [] => id
  | (_, value) :: members => fun h => ⟨distinct_sorted value h.1, membersDistinct_sorted members h.2⟩

end

theorem textLe_total (s t : Text) : textLe s t = true ∨ textLe t s = true := by
  simpa [textLe] using le_total (s.map Code.point) (t.map Code.point)

theorem textLe_trans {s t u : Text} (h : textLe s t = true) (h' : textLe t u = true) : textLe s u = true := by
  simp only [textLe, decide_eq_true_eq] at h h' ⊢
  exact le_trans h h'

instance : Std.Total fun m m' : Text × Value F => textLe m.1 m'.1 = true := ⟨fun m m' => textLe_total m.1 m'.1⟩

instance : IsTrans (Text × Value F) fun m m' => textLe m.1 m'.1 = true := ⟨fun _ _ _ => textLe_trans⟩

theorem pairwise_inOrder (members : List (Text × Value F)) :
    (inOrder members).Pairwise fun m m' => textLe m.1 m'.1 = true :=
  List.pairwise_insertionSort _ members

theorem inOrder_of_pairwise (h : members.Pairwise fun m m' => textLe m.1 m'.1 = true) :
    inOrder members = members :=
  h.insertionSort_eq

theorem membersSorted_eq_map (members : List (Text × Value F)) :
    membersSorted members = members.map fun m => (m.1, m.2.sorted) := by
  induction members with
  | nil => rfl
  | cons m members ih =>
    obtain ⟨key, value⟩ := m
    rw [membersSorted, ih, List.map_cons]

mutual

/-- A value in order stays as it is. -/
theorem sorted_sorted : (v : Value F) → v.sorted.sorted = v.sorted
  | .null | .bool _ | .int _ | .float _ | .str _ => rfl
  | .arr items => congrArg Value.arr (itemsSorted_sorted items)
  | .obj members => by
    have hself : ∀ m ∈ membersSorted members, (m.1, m.2.sorted) = m := by
      have h := membersSorted_sorted members
      rw [membersSorted_eq_map (membersSorted members)] at h
      exact List.map_inj_left.1 (h.trans (List.map_id _).symm)
    have hmap : membersSorted (inOrder (membersSorted members)) = inOrder (membersSorted members) := by
      rw [membersSorted_eq_map]
      exact (List.map_inj_left.2 fun m hm => hself m ((inOrder_perm _).mem_iff.1 hm)).trans (List.map_id _)
    change Value.obj (inOrder (membersSorted (inOrder (membersSorted members)))) = _
    rw [hmap, inOrder_of_pairwise (pairwise_inOrder _)]
    rfl

theorem itemsSorted_sorted : (items : List (Value F)) → itemsSorted (itemsSorted items) = itemsSorted items
  | [] => rfl
  | item :: items => by rw [itemsSorted, itemsSorted, sorted_sorted item, itemsSorted_sorted items]

theorem membersSorted_sorted :
    (members : List (Text × Value F)) → membersSorted (membersSorted members) = membersSorted members
  | [] => rfl
  | (key, value) :: members => by rw [membersSorted, membersSorted, sorted_sorted value, membersSorted_sorted members]

end

end Sorted

section RoundTrip

variable {hooks : Hooks F} {repr : F → Option Text} {limit depth : ℕ}

variable {v : Value F} {text : Text}

theorem encode_eq_some :
    encode limit repr v = some text ↔ v.levels ≤ limit ∧ write repr v.sorted = some text :=
  Option.ite_none_right_eq_some

/-- What is encoded of a value reads as the value, its members in order. -/
theorem loads_encode (hhooks : hooks.Inverts repr) (hdepth : limit ≤ depth) (hv : v.Distinct)
    (h : encode limit repr v = some text) : loads depth hooks text = .ok v.sorted := by
  obtain ⟨hlevels, hwrite⟩ := encode_eq_some.1 h
  have hreads := reads_write hhooks v.sorted depth text hwrite ((levels_sorted v).trans_le (hlevels.trans hdepth))
    (distinct_sorted v hv)
  have hskip : skip (text ++ []) = text ++ [] := hreads.begins.skip
  have hscan := hreads.scan [] fun c hc => by cases hc
  rw [List.append_nil] at hskip hscan
  obtain ⟨c, t, rfl, -, -, -, hascii⟩ := hreads.begins
  have hhead : ensure ((Code.char c :: t).head? ≠ some (.char '\uFEFF')) Error.decode = .ok () := by
    refine if_pos ?_
    rintro ⟨⟩
    exact absurd hascii (by decide)
  rw [loads, hhead, hskip, hscan]
  rfl

theorem encode_injective (hhooks : hooks.Inverts repr) {w : Value F} (hv : v.Distinct) (hw : w.Distinct)
    (h : encode limit repr v = some text) (h' : encode limit repr w = some text) : v.sorted = w.sorted :=
  Except.ok.inj ((loads_encode hhooks le_rfl hv h).symm.trans (loads_encode hhooks le_rfl hw h'))

theorem encode_congr {w : Value F} (h : v.sorted = w.sorted) : encode limit repr v = encode limit repr w := by
  rw [encode, encode, ← levels_sorted v, ← levels_sorted w, h]

end RoundTrip

section Plain

theorem writeCode_plain {c : Char} (hlow : 32 ≤ c.toNat) (hquote : c ≠ '"') (hslash : c ≠ '\\') :
    writeCode (.char c) = [.char c] := by
  have hne : ∀ d : Char, d.toNat < 32 → c ≠ d := by
    rintro d hd rfl
    omega
  rw [writeCode, writeEscape]
  · exact if_neg (not_lt.2 hlow)
  · exact hquote
  · exact hslash
  all_goals exact hne _ (by decide)

theorem quote_plain {s : Text} (h : ∀ code ∈ s, writeCode code = [code]) :
    quote s = .char '"' :: (s ++ [.char '"']) := by
  have hself : s.flatMap writeCode = s := by
    induction s with
    | nil => rfl
    | cons code s ih =>
      rw [List.flatMap_cons, h code List.mem_cons_self, ih fun c hc => h c (List.mem_cons_of_mem _ hc)]
      rfl
  rw [quote, hself]

end Plain

section Bytes

theorem isSome_utf8 (text : Text) : (utf8 text).isSome = text.all Code.isChar := by
  induction text with
  | nil => rfl
  | cons code text ih =>
    cases code with
    | char c => rw [utf8, Option.isSome_map, ih]; rfl
    | surrogate unit => rfl

theorem head_utf8EncodeChar {c : Char} (hc : c ≠ '\x00') : ∀ b ∈ (String.utf8EncodeChar c).head?, b ≠ 0 := by
  have hpos : 0 < c.val.toNat := by
    refine Nat.pos_of_ne_zero fun h => hc (Char.ext (UInt32.toNat_inj.1 ?_))
    rw [h]
    rfl
  have hbyte : ∀ n : ℕ, 0 < n → n < 256 → UInt8.ofNat n ≠ 0 := fun n hn hlt h => by
    have h := congrArg UInt8.toNat h
    rw [UInt8.toNat_ofNat_of_lt' hlt] at h
    exact absurd h hn.ne'
  intro b hb
  dsimp only [String.utf8EncodeChar] at hb
  split_ifs at hb with h1 h2 h3 <;> obtain rfl := Option.some.inj hb <;> apply hbyte <;> omega

variable {text : Text} {raw : List UInt8}

theorem head_utf8 (h : utf8 text = some raw) (hhead : ∀ c ∈ text.head?, c ≠ .char '\x00') :
    ∀ b ∈ raw.head?, b ≠ 0 := by
  cases text with
  | nil =>
    obtain rfl := Option.some.inj h
    exact fun b hb => by cases hb
  | cons code text =>
    cases code with
    | surrogate unit => cases h
    | char c =>
      obtain ⟨later, -, rfl⟩ := Option.map_eq_some_iff.1 h
      have hc := head_utf8EncodeChar fun heq => hhead _ rfl (congrArg Code.char heq)
      cases hbytes : String.utf8EncodeChar c with
      | nil => exact absurd hbytes String.utf8EncodeChar_ne_nil
      | cons b bytes =>
        rw [hbytes] at hc
        rintro _ ⟨⟩
        exact hc b rfl

theorem detectEncoding_plain {a : UInt8} (hpos : a ≠ 0) (hlt : a.toNat < 128)
    (hsecond : ∀ b ∈ raw.head?, b ≠ 0) : detectEncoding (a :: raw) = .utf8 := by
  have hne : ∀ b : UInt8, 128 ≤ b.toNat → ¬b = a := by
    rintro b hb rfl
    omega
  have h1 := hne 0xff (by decide)
  have h2 := hne 0xfe (by decide)
  have h3 := hne 0xef (by decide)
  unfold detectEncoding
  rw [if_neg (by simp [hpos.symm, h1]), if_neg (by simp [h1, h2]), if_neg (by simp [h3])]
  split
  · rename_i heq
    obtain ⟨rfl, rfl⟩ := List.cons.inj heq
    rw [if_neg hpos, if_neg (hsecond _ rfl)]
  · rename_i heq
    obtain ⟨rfl, rfl⟩ := List.cons.inj heq
    rw [if_neg hpos, if_neg (hsecond _ rfl)]
  · rfl

variable {hooks : Hooks F} {repr : F → Option Text}

/-- What ends a number is not a part of it. -/
theorem scanLiteral_digit {d : Char} (hd : d.isDigit = true) (t : Text) :
    ∃ l, scanLiteral (.char d :: .char '\x00' :: t) = some (l, .char '\x00' :: t) := by
  have hminus : d ≠ '-' := (ne_of_isDigit hd rfl).symm
  have hsign : scanSign (.char d :: .char '\x00' :: t) = (false, .char d :: .char '\x00' :: t) := by
    rw [scanSign]
    intro _ heq
    exact hminus (Code.char.inj (List.cons.inj heq).1)
  have hwhole : scanWhole (.char d :: .char '\x00' :: t) = some ([d], .char '\x00' :: t) := by
    by_cases hzero : d = '0'
    · subst hzero
      rfl
    · have hdigits : scanDigits (.char d :: .char '\x00' :: t) = ([d], .char '\x00' :: t) := by
        rw [scanDigits, if_pos hd]
        rfl
      rw [scanWhole, hdigits]
      intro _ heq
      exact hzero (Code.char.inj (List.cons.inj heq).1)
  rw [scanLiteral, hsign]
  simp only [hwhole]
  exact ⟨_, rfl⟩

theorem second_of_scanLiteral {code : Code} {t : Text} {l : Literal} (h : scanLiteral (code :: t) = some (l, [])) :
    ∀ c ∈ t.head?, c ≠ .char '\x00' := by
  rintro c hc rfl
  obtain ⟨t, rfl⟩ : ∃ t', t = .char '\x00' :: t' := by
    cases t with
    | nil => cases hc
    | cons c t =>
      obtain rfl := Option.some.inj hc
      exact ⟨t, rfl⟩
  obtain ⟨d, t', hd, heq | heq⟩ := scanLiteral_head h
  · rw [(List.cons.inj heq).1] at h
    obtain ⟨l', hl'⟩ := scanLiteral_digit hd t
    rw [hl'] at h
    cases h
  · rw [← Code.char.inj (List.cons.inj (List.cons.inj heq).2).1] at hd
    cases hd

theorem begins_second (h : Begins text) (later : Text) : ∀ c ∈ (text ++ later).head?, c ≠ .char '\x00' := by
  obtain ⟨c, t, rfl, -, -, hpos, -⟩ := h
  rintro _ ⟨⟩ heq
  rw [Code.char.inj heq] at hpos
  exact absurd hpos (by decide)

theorem head_writeCode (code : Code) (rest : Text) : ∀ c ∈ (writeCode code ++ rest).head?, c ≠ .char '\x00' := by
  cases code with
  | surrogate unit =>
    rintro _ ⟨⟩
    exact Code.noConfusion
  | char c =>
    rw [writeCode]
    unfold writeEscape
    split
    iterate 7
      rintro _ ⟨⟩
      decide
    split_ifs with hcontrol
    · rintro _ ⟨⟩
      decide
    · rintro _ ⟨⟩ heq
      rw [Code.char.inj heq] at hcontrol
      exact hcontrol (by decide)

theorem second_write (hhooks : hooks.Inverts repr) (v : Value F) {code : Code} {t : Text}
    (h : write repr v = some (code :: t)) : ∀ c ∈ t.head?, c ≠ .char '\x00' := by
  cases v with
  | null => 
    obtain ⟨-, rfl⟩ := List.cons.inj (Option.some.inj h)
    decide
  | bool b =>
    cases b with
    | true | false =>
      obtain ⟨-, rfl⟩ := List.cons.inj (Option.some.inj h)
      decide
  | int n =>
    rw [write, Option.ite_none_right_eq_some] at h
    have hscan := scanLiteral_int n (show Stops [] from fun c hc => by cases hc)
    rw [Option.some.inj h.2, List.append_nil] at hscan
    exact second_of_scanLiteral hscan
  | float x =>
    obtain ⟨l, -, -, hscan⟩ := hhooks.float x _ h
    have hscan := hscan [] fun c hc => by cases hc
    rw [List.append_nil] at hscan
    exact second_of_scanLiteral hscan
  | str s =>
    obtain ⟨-, rfl⟩ := List.cons.inj (Option.some.inj h)
    cases s with
    | nil => decide
    | cons c s =>
      rw [List.flatMap_cons, List.append_assoc]
      exact head_writeCode c _
  | arr items =>
    obtain ⟨parts, hparts, heq⟩ := Option.map_eq_some_iff.1 h
    obtain ⟨-, rfl⟩ := List.cons.inj heq
    cases items with
    | nil =>
      obtain rfl := Option.some.inj hparts
      decide
    | cons item items =>
      obtain ⟨part, parts, hpart, -, rfl⟩ := writeItems_cons hparts
      exact begins_second ((begins_write hhooks item hpart).intercalate _ _) _
  | obj members =>
    obtain ⟨parts, hparts, heq⟩ := Option.map_eq_some_iff.1 h
    obtain ⟨-, rfl⟩ := List.cons.inj heq
    cases members with
    | nil =>
      obtain rfl := Option.some.inj hparts
      decide
    | cons m members =>
      obtain ⟨part, parts, hpart, -, rfl⟩ := writeMembers_cons hparts
      have hbegins : Begins (quote m.1 ++ .char ':' :: part) := ⟨_, _, rfl, by decide, by decide, by decide, by decide⟩
      exact begins_second (hbegins.intercalate _ _) _

/-- What is encoded, in bytes, reads as the value. -/
theorem loadsBytes_encode {codec : Encoding → List UInt8 → Option Text} (hhooks : hooks.Inverts repr)
    {limit depth : ℕ} (hdepth : limit ≤ depth) {v : Value F} (hv : v.Distinct)
    (h : encode limit repr v = some text) (hraw : utf8 text = some raw) (hcodec : codec .utf8 raw = some text) :
    loadsBytes codec depth hooks raw = .ok v.sorted := by
  have hwrite := (encode_eq_some.1 h).2
  obtain ⟨c, t, rfl, -, -, hpos, hascii⟩ := begins_write hhooks _ hwrite
  obtain ⟨later, hlater, rfl⟩ := Option.map_eq_some_iff.1 hraw
  have hbyte : String.utf8EncodeChar c = [UInt8.ofNat c.toNat] := if_pos (Nat.le_of_lt_succ hascii)
  have htoNat : (UInt8.ofNat c.toNat).toNat = c.toNat := UInt8.toNat_ofNat_of_lt' (hascii.trans (by decide))
  have hdetect : detectEncoding (String.utf8EncodeChar c ++ later) = .utf8 := by
    rw [hbyte]
    refine detectEncoding_plain ?_ (htoNat.trans_lt hascii) (head_utf8 hlater (second_write hhooks _ hwrite))
    intro hzero
    rw [hzero] at htoNat
    exact absurd htoNat.symm hpos.ne'
  rw [loadsBytes, hdetect, hcodec]
  exact loads_encode hhooks hdepth hv h

end Bytes

end PyJson
