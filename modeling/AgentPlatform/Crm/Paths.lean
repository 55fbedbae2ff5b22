import AgentPlatform.Crm.Adapters
import AgentPlatform.Lib.Split

/-!
# The addresses of CRM records

What `build_path` makes of a template that `safe_relative_path` accepts: one text for each placeholder, with its value
encoded. An encoded value has no separator in it, so a path has the segments of its template; but a dot is left as it
is, so a segment may become empty, `.` or `..` where dots are all there is in it (`kept_buildPath_iff`). The 1C and custom HTTP
adapters address a note so; Kommo puts the lead's id into the path as it stands (`addressing_iff`).
-/

namespace AgentPlatform.Crm

open Outcome Split

/-! ### Templates -/

/-- A character of a template, or a placeholder. -/
inductive Piece
  | char (c : Char)
  | hole (token : String)
  deriving DecidableEq

/-- The pieces of a template; `token` is what was read since the open brace, backwards. -/
def pieces (token : Option (List Char)) : List Char → List Piece
  | [] =>
    match token with
    | none => []
    | some read => ('{' :: read.reverse).map .char
  | c :: rest =>
    match token with
    | none => if c = '{' then pieces (some []) rest else .char c :: pieces none rest
    | some read =>
      if c = '}' then .hole (String.ofList read.reverse) :: pieces none rest else pieces (some (c :: read)) rest

/-- A placeholder as it is written. -/
def mark (token : String) : List Char := '{' :: token.toList ++ ['}']

/-- A piece, with a text in the place of each placeholder. -/
def Piece.put (text : String → List Char) : Piece → List Char
  | char c => [c]
  | hole token => text token

def Piece.isSlash : Piece → Bool
  | char c => c == '/'
  | hole _ => false

def Piece.token? : Piece → Option String
  | char _ => none
  | hole token => some token

/-- What was read of an open placeholder. -/
def opened : Option (List Char) → List Char
  | none => []
  | some read => '{' :: read.reverse

theorem flatMap_char (text : String → List Char) (cs : List Char) :
    (cs.map Piece.char).flatMap (Piece.put text) = cs := by
  rw [List.flatMap_map]
  exact List.flatMap_singleton' cs

theorem put_mark (token : Option (List Char)) (text : List Char) :
    (pieces token text).flatMap (Piece.put mark) = opened token ++ text := by
  induction text generalizing token with
  | nil =>
    cases token with
    | none => rfl
    | some read =>
      rw [pieces, flatMap_char, List.append_nil]
      rfl
  | cons c rest ih =>
    cases token with
    | none =>
      rw [pieces]
      split_ifs with hc
      · rw [ih, hc]
        rfl
      · rw [List.flatMap_cons, ih]
        rfl
    | some read =>
      rw [pieces]
      split_ifs with hc
      · rw [List.flatMap_cons, ih, hc]
        simp [Piece.put, mark, opened]
      · rw [ih]
        simp [opened]

theorem tokens_eq (token : Option (List Char)) (text : List Char) :
    placeholders token text = (pieces token text).filterMap Piece.token? := by
  induction text generalizing token with
  | nil =>
    cases token with
    | none => rfl
    | some read => simp [placeholders, pieces, Piece.token?]
  | cons c rest ih =>
    cases token with
    | none =>
      rw [placeholders, pieces]
      split_ifs with hc
      · exact ih _
      · rw [List.filterMap_cons]
        exact ih _
    | some read =>
      rw [placeholders, pieces]
      split_ifs with hc
      · rw [List.filterMap_cons, ih]
        rfl
      · exact ih _

theorem hole_mem_iff {template : List Char} {token : String} :
    .hole token ∈ pieces none template ↔ token ∈ placeholders none template := by
  rw [tokens_eq, List.mem_filterMap]
  constructor
  · intro h
    exact ⟨_, h, rfl⟩
  · rintro ⟨p, hp, htoken⟩
    cases p with
    | char c => cases htoken
    | hole t => exact Option.some.inj htoken ▸ hp

/-- An open brace begins a placeholder, or is never closed. -/
theorem pieces_braces (token : Option (List Char)) (text : List Char) (h : '}' ∉ opened token) :
    ∃ (front : List Piece) (tail : List Char), pieces token text = front ++ tail.map .char ∧ .char '{' ∉ front ∧
      '}' ∉ tail := by
  induction text generalizing token with
  | nil =>
    refine ⟨[], opened token, ?_, List.not_mem_nil, h⟩
    cases token <;> rfl
  | cons c rest ih =>
    cases token with
    | none =>
      rw [pieces]
      split_ifs with hc
      · exact ih (some []) (by decide)
      · obtain ⟨front, tail, heq, hfront, htail⟩ := ih none h
        refine ⟨.char c :: front, tail, by rw [heq, List.cons_append], ?_, htail⟩
        simpa [Ne.symm hc] using hfront
    | some read =>
      rw [pieces]
      split_ifs with hc
      · obtain ⟨front, tail, heq, hfront, htail⟩ := ih none List.not_mem_nil
        exact ⟨.hole _ :: front, tail, by rw [heq, List.cons_append], by simpa using hfront, htail⟩
      · refine ih (some (c :: read)) ?_
        simp only [opened, List.reverse_cons, List.mem_cons, List.mem_append, List.mem_reverse, not_or] at h ⊢
        exact ⟨h.1, h.2, by simpa using Ne.symm hc⟩

/-! ### Replacing a placeholder -/

section Replacing

variable {token : String} {new text xs rest : List Char}

theorem not_isPrefixOf_mark (h : text.head? ≠ some '{') : (mark token).isPrefixOf text = false := by
  cases text with
  | nil => rfl
  | cons c text =>
    have hne : ('{' == c) = false := by
      rw [beq_eq_false_iff_ne]
      rintro rfl
      exact h rfl
    simp [mark, List.isPrefixOf, hne]

theorem replacePart_append (h : '{' ∉ xs) :
    replacePart (mark token) new 0 (xs ++ rest) = xs ++ replacePart (mark token) new 0 rest := by
  induction xs with
  | nil => rfl
  | cons c xs ih =>
    rw [List.mem_cons, not_or] at h
    rw [List.cons_append, replacePart, not_isPrefixOf_mark (by simpa using Ne.symm h.1), if_neg (by decide), ih h.2]
    rfl

theorem replacePart_skip (part : List Char) :
    replacePart part new xs.length (xs ++ rest) = replacePart part new 0 rest := by
  induction xs with
  | nil => rfl
  | cons c xs ih =>
    rw [List.length_cons, List.cons_append, replacePart, ih]

theorem replacePart_mark :
    replacePart (mark token) new 0 (mark token ++ rest) = new ++ replacePart (mark token) new 0 rest := by
  have hprefix : (mark token).isPrefixOf (mark token ++ rest) = true :=
    List.isPrefixOf_iff_prefix.2 (List.prefix_append _ _)
  have hlen : (mark token).length - 1 = (token.toList ++ ['}']).length := by
    rw [mark, List.cons_append, List.length_cons, Nat.add_sub_cancel]
  have hmark : mark token ++ rest = '{' :: ((token.toList ++ ['}']) ++ rest) := rfl
  rw [hmark, replacePart, ← hmark, hprefix, if_pos rfl, hlen, replacePart_skip]

theorem takeWhile_brace (h : '}' ∉ xs) : (xs ++ '}' :: rest).takeWhile (· != '}') = xs := by
  rw [List.takeWhile_append_of_pos]
  · simp
  · intro c hc
    simpa using fun heq : c = '}' => h (heq ▸ hc)

/-- Another placeholder is passed over. -/
theorem replacePart_other {other : String} (hne : other ≠ token) (htoken : '}' ∉ token.toList)
    (hclose : '}' ∉ other.toList) (hopen : '{' ∉ other.toList) :
    replacePart (mark token) new 0 (mark other ++ rest) = mark other ++ replacePart (mark token) new 0 rest := by
  have hprefix : (mark token).isPrefixOf (mark other ++ rest) = false := by
    by_contra hprefix
    rw [Bool.not_eq_false, List.isPrefixOf_iff_prefix] at hprefix
    obtain ⟨later, heq⟩ := hprefix
    have htail : token.toList ++ '}' :: later = other.toList ++ '}' :: rest := by
      have := (List.cons.inj heq).2
      simpa using this
    have hsame := congrArg (List.takeWhile (· != '}')) htail
    rw [takeWhile_brace htoken, takeWhile_brace hclose] at hsame
    exact hne (String.toList_injective hsame.symm)
  have hmark : mark other ++ rest = '{' :: ((other.toList ++ ['}']) ++ rest) := rfl
  have hrest : '{' ∉ other.toList ++ ['}'] := by simpa using hopen
  rw [hmark, replacePart, ← hmark, hprefix, if_neg (by decide), replacePart_append hrest]
  rfl

theorem replacePart_of_not_mem (h : '}' ∉ text) : replacePart (mark token) new 0 text = text := by
  induction text with
  | nil => rfl
  | cons c text ih =>
    have hfront : (mark token).isPrefixOf (c :: text) = false := by
      by_contra hfront
      rw [Bool.not_eq_false, List.isPrefixOf_iff_prefix] at hfront
      exact h (hfront.subset (by simp [mark]))
    rw [replacePart, hfront, if_neg (by decide), ih fun hmem => h (List.mem_cons_of_mem c hmem)]

end Replacing

/-! ### Filling a template -/

/-- The characters an encoded value may have. -/
def isEncoded (c : Char) : Bool := c.isAlphanum || ['_', '.', '-', '~', '%'].contains c

/-- A character, encoded with no character safe. -/
def encoded (c : Char) : List Char :=
  if c.isAlphanum || ['_', '.', '-', '~'].contains c || ([] : List Char).contains c then [c]
  else (String.utf8EncodeChar c).flatMap percent

theorem toList_quote (text : String) : (quote text []).toList = text.toList.flatMap encoded := by
  rw [quote, String.toList_ofList]
  rfl

theorem isEncoded_digit : ∀ n < 16, isEncoded (Nat.digitChar n).toUpper = true := by decide

theorem isEncoded_of_mem {c d : Char} (h : d ∈ encoded c) : isEncoded d = true := by
  unfold encoded at h
  split_ifs at h with hsafe
  · obtain rfl := List.mem_singleton.1 h
    simp only [List.contains_nil, Bool.or_false, Bool.or_eq_true] at hsafe
    rw [isEncoded, Bool.or_eq_true]
    refine hsafe.imp id fun hmem => ?_
    simp only [List.contains_eq_mem, decide_eq_true_eq, List.mem_cons, List.not_mem_nil, or_false] at hmem ⊢
    tauto
  · obtain ⟨b, -, hb⟩ := List.mem_flatMap.1 h
    have hbyte := b.toNat_lt
    simp only [percent, List.mem_cons, List.not_mem_nil, or_false] at hb
    rcases hb with rfl | rfl | rfl
    · rfl
    · exact isEncoded_digit _ (by omega)
    · exact isEncoded_digit _ (by omega)

theorem not_mem_quote {c : Char} (h : isEncoded c = false) (text : String) : c ∉ (quote text []).toList := by
  rw [toList_quote]
  intro hmem
  obtain ⟨d, -, hd⟩ := List.mem_flatMap.1 hmem
  rw [isEncoded_of_mem hd] at h
  cases h

/-- The text of a value. -/
def valueOf (values : List (String × String)) (token : String) : String :=
  ((values.find? fun v => v.1 = token).map Prod.snd).getD ""

/-- The text of a placeholder, once those of `done` are replaced. -/
def filled (values : List (String × String)) (done : List String) (token : String) : List Char :=
  if token ∈ done then (quote (valueOf values token) []).toList else mark token

/-- A text without braces. -/
def NoBrace (token : String) : Prop := '{' ∉ token.toList ∧ '}' ∉ token.toList

theorem noBrace_of_known {token : String} (h : token ∈ customHttpPlaceholders) : NoBrace token := by
  have hall : ∀ t ∈ customHttpPlaceholders, '{' ∉ t.toList ∧ '}' ∉ t.toList := by decide
  exact hall token h

/-- One more placeholder is replaced. -/
theorem replacePart_filled (values : List (String × String)) (done : List String) {token : String}
    (htoken : NoBrace token) {front : List Piece} {tail : List Char} (hopen : .char '{' ∉ front)
    (hknown : ∀ t, .hole t ∈ front → NoBrace t) (htail : '}' ∉ tail) :
    replacePart (mark token) (quote (valueOf values token) []).toList 0
        (front.flatMap (Piece.put (filled values done)) ++ tail) =
      front.flatMap (Piece.put (filled values (token :: done))) ++ tail := by
  induction front with
  | nil => exact replacePart_of_not_mem htail
  | cons p front ih =>
    have hrest := ih (fun h => hopen (List.mem_cons_of_mem p h)) fun t ht => hknown t (List.mem_cons_of_mem p ht)
    rw [List.flatMap_cons, List.flatMap_cons, List.append_assoc, List.append_assoc, ← hrest]
    cases p with
    | char c =>
      refine replacePart_append ?_
      intro hmem
      obtain rfl := List.mem_singleton.1 hmem
      exact hopen List.mem_cons_self
    | hole t =>
      have ht := hknown t List.mem_cons_self
      simp only [Piece.put, filled, List.mem_cons]
      by_cases hdone : t ∈ done
      · rw [if_pos hdone, if_pos (.inr hdone)]
        exact replacePart_append (not_mem_quote (by decide) _)
      · rw [if_neg hdone]
        by_cases heq : t = token
        · rw [if_pos (.inl heq), heq]
          exact replacePart_mark
        · rw [if_neg (not_or.2 ⟨heq, hdone⟩)]
          exact replacePart_other heq htoken.2 ht.2 ht.1

/-- A template that `safe_relative_path` accepts. -/
def Accepted (path : String) : Prop := ∃ value name maximum, safeRelativePath value name maximum = .ok path

theorem known_of_accepted {path : String} (h : Accepted path) :
    ∀ token ∈ placeholders none path.toList, token ∈ customHttpPlaceholders := by
  obtain ⟨value, name, maximum, h⟩ := h
  cases value with
  | str text =>
    simp only [safeRelativePath, bind_eq_ok, ensure_eq_ok, exists_unit, forM_eq_ok, pure_eq_ok] at h
    obtain ⟨-, -, -, -, -, -, -, -, hknown, -, rfl⟩ := h
    rw [String.toList_ofList]
    exact hknown
  | _ => cases h

/-- `build_path` puts the encoded values into the places of their placeholders. -/
theorem toList_of_buildPath {template path : String} {values : List (String × String)} (ht : Accepted template)
    (h : buildPath template values = .ok path) :
    path.toList = (pieces none template.toList).flatMap
      (Piece.put fun token => (quote (valueOf values token) []).toList) := by
  obtain ⟨front, tail, heq, hopen, htail⟩ := pieces_braces none template.toList List.not_mem_nil
  have hknown : ∀ token ∈ placeholders none template.toList, NoBrace token := fun token htoken =>
    noBrace_of_known (known_of_accepted ht token htoken)
  have hfront : ∀ token, .hole token ∈ front → token ∈ placeholders none template.toList := by
    intro token hmem
    rw [← hole_mem_iff, heq]
    exact List.mem_append_left _ hmem
  -- After some of the tokens, the placeholders of these are replaced.
  have hloop : ∀ (tokens done : List String) (out : List Char), (∀ token ∈ tokens, NoBrace token) →
      tokens.foldlM (fun rendered token => do
        let text ← need ((values.find? fun v => v.1 = token).map Prod.snd) (Err.valueError
          ("Missing value for placeholder \x7b" ++ token ++ "\x7d"))
        ensure (text.length ≤ 512) (.valueError ("Placeholder \x7b" ++ token ++ "\x7d exceeds 512 characters"))
        pure (replacePart ('{' :: token.toList ++ ['}']) (quote text []).toList 0 rendered))
        (front.flatMap (Piece.put (filled values done)) ++ tail) = Except.ok out →
      out = front.flatMap (Piece.put (filled values (tokens.reverse ++ done))) ++ tail := by
    intro tokens
    induction tokens with
    | nil =>
      intro done out _ hout
      exact (pure_eq_ok.1 hout).symm
    | cons token tokens ih =>
      intro done out hbraces hout
      rw [List.foldlM_cons, bind_eq_ok] at hout
      obtain ⟨next, hnext, hout⟩ := hout
      simp only [bind_eq_ok, need_eq_ok, ensure_eq_ok, exists_unit, pure_eq_ok] at hnext
      obtain ⟨text, htext, -, rfl⟩ := hnext
      have hvalue : text = valueOf values token := by rw [valueOf, htext, Option.getD_some]
      have hstep := replacePart_filled values done (hbraces token List.mem_cons_self) hopen
        (fun t ht => hknown t (hfront t ht)) htail
      rw [hvalue] at hout
      rw [← mark, hstep] at hout
      rw [ih (token :: done) out (fun t ht => hbraces t (List.mem_cons_of_mem token ht)) hout]
      simp
  simp only [buildPath, bind_eq_ok, pure_eq_ok] at h
  obtain ⟨out, hout, rfl⟩ := h
  have hstart : template.toList = front.flatMap (Piece.put (filled values [])) ++ tail := by
    have hmark := put_mark none template.toList
    rw [heq, List.flatMap_append, flatMap_char] at hmark
    exact hmark.symm
  have hend := hloop (placeholders none template.toList) [] out hknown (by rw [← hstart]; exact hout)
  rw [String.toList_ofList, hend, heq, List.flatMap_append, flatMap_char, List.append_nil]
  refine congrArg (· ++ tail) (List.flatMap_congr fun p hp => ?_)
  cases p with
  | char c => rw [Piece.put, Piece.put]
  | hole token => exact if_pos (List.mem_reverse.2 (hfront token hp))

/-! ### Segments -/

/-- Nothing, or the dots that lead to the same or the upper level. -/
def IsDots (segment : List Char) : Prop := segment = [] ∨ segment = ['.'] ∨ segment = ['.', '.']

instance (segment : List Char) : Decidable (IsDots segment) := inferInstanceAs (Decidable (_ ∨ _))

/-- The segments of an address. -/
def segments (address : List Char) : List (List Char) := address.splitOnP (· == '/')

/-- What stands in front of the query. -/
def beforeQuery (address : List Char) : List Char := address.takeWhile (· != '?')

/-- As many segments as declared, and none that is empty or dots unless it was declared so. -/
def SegmentsKept (declared own : List (List Char)) : Prop :=
  List.Forall₂ (fun segment written => IsDots written → IsDots segment) declared own

/-- An address has the structure of its template: of the whole, of the part in front of the query, and no separator
more. -/
structure Structured (template address : List Char) : Prop where
  whole : SegmentsKept (segments template) (segments address)
  path : SegmentsKept (segments (beforeQuery template)) (segments (beforeQuery address))
  separators : ∀ c ∈ ['/', '?', '#'], address.count c = template.count c

/-- A segment with a placeholder in it is empty or dots, once the texts stand in it. -/
def Collapses (text : String → List Char) (segment : List Piece) : Prop :=
  (∃ token, .hole token ∈ segment) ∧ IsDots (segment.flatMap (Piece.put text))

/-- The segments of a template, and those of what stands in front of its query. -/
def segmentsOf (template : List Piece) : List (List Piece) :=
  template.splitOnP Piece.isSlash ++ (template.takeWhile (· ≠ .char '?')).splitOnP Piece.isSlash

/-- A text in the place of each placeholder, none with a separator in it. -/
def Unseparated (text : String → List Char) (template : List Piece) : Prop :=
  ∀ token, .hole token ∈ template → ∀ c ∈ ['/', '?', '#'], c ∉ text token

section Segments

variable {template : List Piece} {text : String → List Char}

theorem Unseparated.sublist {front : List Piece} (h : Unseparated text template) (hsub : front.Sublist template) :
    Unseparated text front := fun token htoken => h token (hsub.subset htoken)

theorem segments_put (h : Unseparated text template) :
    segments (template.flatMap (Piece.put text)) =
      (template.splitOnP Piece.isSlash).map fun segment => segment.flatMap (Piece.put text) := by
  refine splitOnP_flatMap ?_ ?_
  · intro p hp
    cases p with
    | char c => exact ⟨c, rfl, hp⟩
    | hole token => cases hp
  · intro p hmem hp c hc
    cases p with
    | char d =>
      obtain rfl := List.mem_singleton.1 hc
      exact hp
    | hole token =>
      rw [beq_eq_false_iff_ne]
      rintro rfl
      exact h token hmem '/' (by decide) hc

theorem beforeQuery_put (h : Unseparated text template) :
    beforeQuery (template.flatMap (Piece.put text)) =
      (template.takeWhile (· ≠ .char '?')).flatMap (Piece.put text) := by
  induction template with
  | nil => rfl
  | cons p template ih =>
    have hrest := ih (h.sublist (List.sublist_cons_self p template))
    cases p with
    | char c =>
      rw [List.flatMap_cons, List.takeWhile_cons, Piece.put, List.singleton_append, beforeQuery, List.takeWhile_cons]
      by_cases hc : c = '?'
      · simp [hc]
      · simp only [ne_eq, Piece.char.injEq, hc, not_false_eq_true, decide_true, if_true, bne_iff_ne]
        rw [List.flatMap_cons, ← hrest]
        rfl
    | hole token =>
      have htext : ∀ c ∈ text token, (c != '?') = true := by
        intro c hc
        rw [bne_iff_ne]
        rintro rfl
        exact h token List.mem_cons_self '?' (by decide) hc
      rw [List.flatMap_cons, List.takeWhile_cons, if_pos (by simp), List.flatMap_cons, ← hrest]
      exact List.takeWhile_append_of_pos htext

theorem count_put (h : Unseparated text template) {c : Char} (hc : c ∈ ['/', '?', '#']) :
    (template.flatMap (Piece.put text)).count c = template.count (.char c) := by
  induction template with
  | nil => rfl
  | cons p template ih =>
    rw [List.flatMap_cons, List.count_append, ih (h.sublist (List.sublist_cons_self p template)), List.count_cons,
      Nat.add_comm]
    cases p with
    | char d => simp [Piece.put, List.count_singleton]
    | hole token => simp [Piece.put, List.count_eq_zero_of_not_mem (h token List.mem_cons_self c hc)]

theorem not_isDots_mark {token : String} {segment : List Piece} (h : .hole token ∈ segment) :
    ¬ IsDots (segment.flatMap (Piece.put mark)) := by
  intro hdots
  have hbrace : '{' ∈ segment.flatMap (Piece.put mark) := List.mem_flatMap.2 ⟨_, h, List.mem_cons_self⟩
  rcases hdots with heq | heq | heq <;> rw [heq] at hbrace <;> revert hbrace <;> decide

theorem segmentsKept_iff {list : List (List Piece)} :
    SegmentsKept (list.map fun segment => segment.flatMap (Piece.put mark))
        (list.map fun segment => segment.flatMap (Piece.put text)) ↔
      ∀ segment ∈ list, ¬ Collapses text segment := by
  rw [SegmentsKept, List.forall₂_map_left_iff, List.forall₂_map_right_iff, List.forall₂_same]
  refine forall₂_congr fun segment _ => ?_
  by_cases hhole : ∃ token, .hole token ∈ segment
  · obtain ⟨token, htoken⟩ := hhole
    constructor
    · exact fun h hcollapses => not_isDots_mark htoken (h hcollapses.2)
    · exact fun h hdots => absurd ⟨⟨token, htoken⟩, hdots⟩ h
  · have hsame : segment.flatMap (Piece.put mark) = segment.flatMap (Piece.put text) := by
      refine List.flatMap_congr fun p hp => ?_
      cases p with
      | char c => rfl
      | hole token => exact absurd ⟨token, hp⟩ hhole
    rw [hsame]
    exact iff_of_true id fun h => hhole h.1

theorem unseparated_mark (h : ∀ token, .hole token ∈ template → token ∈ customHttpPlaceholders) :
    Unseparated mark template := by
  have hall : ∀ t ∈ customHttpPlaceholders, ∀ c ∈ ['/', '?', '#'], c ∉ mark t := by decide
  exact fun token htoken => hall token (h token htoken)

/-- Texts without separators keep the structure of a template, unless one collapses a segment. -/
theorem kept_put_iff (hknown : ∀ token, .hole token ∈ template → token ∈ customHttpPlaceholders)
    (h : Unseparated text template) :
    Structured (template.flatMap (Piece.put mark)) (template.flatMap (Piece.put text)) ↔
      ∀ segment ∈ segmentsOf template, ¬ Collapses text segment := by
  have hmark := unseparated_mark hknown
  have hsub : (template.takeWhile (· ≠ .char '?')).Sublist template := (List.takeWhile_prefix _).sublist
  simp only [segmentsOf, List.mem_append, or_imp, forall_and]
  rw [← segmentsKept_iff, ← segmentsKept_iff, ← segments_put h, ← segments_put hmark,
    ← segments_put (h.sublist hsub), ← segments_put (hmark.sublist hsub), ← beforeQuery_put h, ← beforeQuery_put hmark]
  constructor
  · exact fun hkept => ⟨hkept.whole, hkept.path⟩
  · rintro ⟨hwhole, hpath⟩
    exact ⟨hwhole, hpath, fun c hc => by rw [count_put h hc, count_put hmark hc]⟩

end Segments

/-! ### Encoded values -/

section Quoted

variable {values : List (String × String)} {segment : List Piece}

/-- The text `build_path` writes for a placeholder. -/
def quoted (values : List (String × String)) (token : String) : List Char := (quote (valueOf values token) []).toList

/-- The value of a placeholder, as it is given. -/
def plain (values : List (String × String)) (token : String) : List Char := (valueOf values token).toList

theorem unseparated_quoted (values : List (String × String)) (template : List Piece) :
    Unseparated (quoted values) template := by
  have hall : ∀ c ∈ ['/', '?', '#'], isEncoded c = false := by decide
  exact fun token _ c hc => not_mem_quote (hall c hc) _

theorem exists_encoded {c : Char} (h : c ≠ '.') : ∃ d rest, encoded c = d :: rest ∧ d ≠ '.' := by
  unfold encoded
  split_ifs with hsafe
  · exact ⟨c, [], rfl, h⟩
  · cases hbytes : String.utf8EncodeChar c with
    | nil =>
      have hlen := String.length_utf8EncodeChar c
      rw [hbytes] at hlen
      exact absurd hlen.symm (Char.utf8Size_pos c).ne'
    | cons b bytes => exact ⟨'%', _, rfl, by decide⟩

variable {n : ℕ}

theorem encode_eq_dots {text : List Char} :
    text.flatMap encoded = List.replicate n '.' ↔ text = List.replicate n '.' := by
  induction text generalizing n with
  | nil => rfl
  | cons c text ih =>
    rw [List.flatMap_cons]
    by_cases hc : c = '.'
    · have hdot : encoded '.' = ['.'] := by decide
      rw [hc, hdot, List.singleton_append]
      cases n with
      | zero => exact iff_of_false (List.cons_ne_nil _ _) (List.cons_ne_nil _ _)
      | succ n =>
        rw [List.replicate_succ, List.cons_inj_right, List.cons_inj_right]
        exact ih
    · obtain ⟨d, rest, heq, hd⟩ := exists_encoded hc
      rw [heq, List.cons_append]
      cases n with
      | zero => exact iff_of_false (List.cons_ne_nil _ _) (List.cons_ne_nil _ _)
      | succ n => exact iff_of_false (fun h => hd (List.cons.inj h).1) fun h => hc (List.cons.inj h).1

theorem append_eq_dots {xs ys : List Char} : xs ++ ys = List.replicate n '.' ↔
    ∃ i j, i + j = n ∧ xs = List.replicate i '.' ∧ ys = List.replicate j '.' := by
  constructor
  · intro h
    obtain ⟨hlen, hxs, hys⟩ := List.append_eq_replicate_iff.1 h
    exact ⟨_, _, hlen, hxs, hys⟩
  · rintro ⟨i, j, rfl, rfl, rfl⟩
    exact List.replicate_append_replicate

theorem isDots_iff {segment : List Char} : IsDots segment ↔ ∃ n ≤ 2, segment = List.replicate n '.' := by
  constructor
  · rintro (rfl | rfl | rfl)
    · exact ⟨0, by decide, rfl⟩
    · exact ⟨1, by decide, rfl⟩
    · exact ⟨2, by decide, rfl⟩
  · rintro ⟨n, hn, rfl⟩
    obtain rfl | rfl | rfl : n = 0 ∨ n = 1 ∨ n = 2 := by omega
    · decide
    · decide
    · decide

theorem put_quoted_eq_dots :
    segment.flatMap (Piece.put (quoted values)) = List.replicate n '.' ↔
      segment.flatMap (Piece.put (plain values)) = List.replicate n '.' := by
  induction segment generalizing n with
  | nil => rw [List.flatMap_nil, List.flatMap_nil]
  | cons p segment ih =>
    rw [List.flatMap_cons, List.flatMap_cons, append_eq_dots, append_eq_dots]
    refine exists₂_congr fun i j => and_congr_right fun _ => and_congr ?_ ih
    cases p with
    | char c => rw [Piece.put, Piece.put]
    | hole token =>
      rw [Piece.put, Piece.put, quoted, toList_quote]
      exact encode_eq_dots

theorem collapses_quoted_iff : Collapses (quoted values) segment ↔ Collapses (plain values) segment := by
  simp only [Collapses, isDots_iff, put_quoted_eq_dots]

end Quoted

/-- A path `build_path` returns has the structure of its template, unless a segment collapses. -/
theorem kept_buildPath_iff {template path : String} {values : List (String × String)} (ht : Accepted template)
    (h : buildPath template values = .ok path) :
    Structured template.toList path.toList ↔
      ∀ segment ∈ segmentsOf (pieces none template.toList), ¬ Collapses (plain values) segment := by
  have hknown : ∀ token, .hole token ∈ pieces none template.toList → token ∈ customHttpPlaceholders :=
    fun token htoken => known_of_accepted ht token (hole_mem_iff.1 htoken)
  have hmark := put_mark none template.toList
  have hkept := kept_put_iff hknown (unseparated_quoted values _)
  rw [hmark] at hkept
  rw [toList_of_buildPath ht h]
  simp only [collapses_quoted_iff] at hkept
  exact hkept

/-! ### Attaching to a lead -/

/-- `attach_call_record` or `attach_message`. -/
inductive Attachment
  | call (record : CallRecord)
  | chat (message : ChatMessage)

def Attachment.leadId : Attachment → String
  | call record => record.leadId
  | chat message => message.leadId

/-- The operation a custom connection uses. -/
def Attachment.operation (adapter : Adapter) : Attachment → String
  | call _ =>
    match adapter with
    | .customHttp _ declared _ =>
      if (declared.operation? "attach_call_record").isSome then "attach_call_record" else "attach_message"
    | _ => "attach_call_record"
  | chat _ => "attach_message"

def Attachment.request (lib : Library) (adapter : Adapter) : Attachment → Except Err Request
  | call record => adapter.attachCallRecord lib record
  | chat message => adapter.attachMessage lib message

theorem Attachment.exists_note (lib : Library) (adapter : Adapter) (attachment : Attachment) :
    ∃ comment, attachment.request lib adapter =
      adapter.note lib (attachment.operation adapter) attachment.leadId comment := by
  cases attachment with
  | call record =>
    cases adapter <;> exact ⟨_, rfl⟩
  | chat message => exact ⟨_, rfl⟩

/-- Where an adapter sends a note: what is fixed, and the template under it. Bitrix24 names the lead in the body. -/
def Adapter.noteAddress (adapter : Adapter) (operation : String) : Option (String × String) :=
  match adapter with
  | .bitrix24 .. => none
  | .kommo host _ => some ("https://" ++ host ++ "/api/v4/", "leads/{lead_id}/notes")
  | .onec host basePath _ _ paths => some ("https://" ++ host ++ basePath, paths.comment)
  | .customHttp host declared _ =>
    (declared.operation? operation).map fun o => ("https://" ++ host ++ declared.basePath, o.path)

theorem cleanText_lead {leadId id : String} (h : cleanText (.str leadId) "lead_id" 64 = .ok id) :
    id = strip leadId ∧ id ≠ "" := by
  by_cases hempty : leadId = ""
  · rw [hempty] at h
    cases h
  · simp only [cleanText, true_and, bind_eq_ok, ensure_eq_ok, exists_unit, pure_eq_ok] at h
    obtain ⟨hne, -, rfl⟩ := h
    exact ⟨rfl, hne⟩

variable {lib : Library} {environ : String → String} {raw : Json} {adapter : Adapter}

theorem accepted_onec (h : onecAdapter lib environ raw = .ok adapter) :
    ∃ host basePath headers responseMap paths, adapter = .onec host basePath headers responseMap paths ∧
      Accepted paths.find ∧ Accepted paths.contacts ∧ Accepted paths.comment := by
  simp only [onecAdapter, onecPath, bind_eq_ok, ensure_eq_ok, exists_unit, pure_eq_ok] at h
  obtain ⟨_, -, _, -, -, _, -, find, ⟨-, hfind⟩, contacts, ⟨-, hcontacts⟩, _, -, comment, ⟨-, hcomment⟩, -, rfl⟩ := h
  exact ⟨_, _, _, _, _, rfl, ⟨_, _, _, hfind⟩, ⟨_, _, _, hcontacts⟩, _, _, _, hcomment⟩

/-- So are those of a custom connection. -/
theorem accepted_customHttp (h : customHttpAdapter lib environ raw = .ok adapter) :
    ∃ host declared headers, adapter = .customHttp host declared headers ∧
      ∀ operation o, declared.operation? operation = some o → Accepted o.path := by
  simp only [customHttpAdapter, bind_eq_ok, ensure_eq_ok, exists_unit, pure_eq_ok] at h
  obtain ⟨_, -, declared, hdeclared, -, -, _, -, rfl⟩ := h
  refine ⟨_, _, _, rfl, fun operation o ho => ?_⟩
  simp only [validateCustomHttpConfig, bind_eq_ok, ensure_eq_ok, exists_unit, pure_eq_ok] at hdeclared
  obtain ⟨-, _, -, -, -, operations, hoperations, rfl⟩ := hdeclared
  obtain ⟨entry, hentry, rfl⟩ := Option.map_eq_some_iff.1 ho
  obtain ⟨source, -, hsource⟩ := exists_of_mem_right (mapM_eq_ok.1 hoperations) (List.mem_of_find?_eq_some hentry)
  simp only [validateOperation, bind_eq_ok, ensure_eq_ok, exists_unit, pure_eq_ok] at hsource
  obtain ⟨-, -, path, hpath, rfl⟩ := hsource
  exact ⟨_, _, _, hpath⟩

/-- The template of a note is accepted; Kommo's is a part of the program. -/
theorem accepted_noteAddress {driver : String} (h : adapterOf lib environ driver raw = some (.ok adapter))
    {operation base template : String} (haddress : adapter.noteAddress operation = some (base, template)) :
    (∃ host headers, adapter = .kommo host headers) ∨ Accepted template := by
  unfold adapterOf at h
  split_ifs at h with hbitrix hkommo honec hcustom
  · have h := Option.some.inj h
    simp only [bitrix24Adapter, bind_eq_ok, pure_eq_ok] at h
    obtain ⟨_, -, _, -, _, -, rfl⟩ := h
    cases haddress
  · have h := Option.some.inj h
    simp only [kommoAdapter, bind_eq_ok, pure_eq_ok] at h
    obtain ⟨_, -, _, -, _, -, _, -, _, -, rfl⟩ := h
    exact .inl ⟨_, _, rfl⟩
  · obtain ⟨_, _, _, _, _, rfl, -, -, haccepted⟩ := accepted_onec (Option.some.inj h)
    obtain ⟨rfl, rfl⟩ := Prod.mk.inj (Option.some.inj haddress)
    exact .inr haccepted
  · obtain ⟨_, _, _, rfl, haccepted⟩ := accepted_customHttp (Option.some.inj h)
    obtain ⟨o, ho, heq⟩ := Option.map_eq_some_iff.1 haddress
    obtain ⟨rfl, rfl⟩ := Prod.mk.inj heq
    exact .inr (haccepted _ _ ho)

/-! ### Addressing -/

/-- A path rendered from an accepted template. -/
structure Rendering where
  template : String
  accepted : Accepted template
  values : List (String × String)
  path : String
  rendered : buildPath template values = .ok path

/-- The rendered path has the structure of its template. -/
def Rendering.Kept (r : Rendering) : Prop := Structured r.template.toList r.path.toList

/-- No segment of a template is empty, `.` or `..` with the values in it. -/
def Fits (template : String) (values : List (String × String)) : Prop :=
  ∀ segment ∈ segmentsOf (pieces none template.toList), ¬ Collapses (plain values) segment

/-- A note that an adapter sent under a template. -/
structure Attached (lib : Library) where
  environ : String → String
  driver : String
  raw : Json
  adapter : Adapter
  built : adapterOf lib environ driver raw = some (.ok adapter)
  attachment : Attachment
  base : String
  template : String
  addressed : adapter.noteAddress (attachment.operation adapter) = some (base, template)
  request : Request
  sent : attachment.request lib adapter = .ok request

/-- What the request adds to the fixed part of its address has the structure of the template. -/
def Attached.Kept {lib : Library} (a : Attached lib) : Prop :=
  ∃ address, a.request.url = a.base ++ address ∧ Structured a.template.toList address.toList

/-- Kommo's lead has no separator and is not dots; for the other adapters the lead collapses no segment. -/
def Attached.Fits {lib : Library} (a : Attached lib) : Prop :=
  let id := strip a.attachment.leadId
  match a.adapter with
  | .kommo .. => (∀ c ∈ ['/', '?', '#'], c ∉ id.toList) ∧ id ≠ "." ∧ id ≠ ".."
  | _ => Crm.Fits a.template [("lead_id", id)]

theorem url_of_send {url method : String} {headers : List (String × String)} {body : Option Json}
    {request : Request} (h : send lib url method headers body = .ok request) : request.url = url := by
  simp only [send, bind_eq_ok, ensure_eq_ok, exists_unit, pure_eq_ok] at h
  obtain ⟨_, -, -, rfl⟩ := h
  rfl

theorem dropLeadingSlashes_leads (id : String) :
    dropLeadingSlashes ("leads/" ++ id ++ "/notes") = "leads/" ++ id ++ "/notes" := by
  apply String.toList_injective
  rw [dropLeadingSlashes, String.toList_ofList, String.append_assoc, String.toList_append]
  rfl

/-- The template is one of a connection, or Kommo's; the address is what `build_path` makes of it, or Kommo's with the
lead's id. -/
theorem Attached.cases (a : Attached lib) :
    (∃ host headers, a.adapter = .kommo host headers ∧ a.template = "leads/{lead_id}/notes" ∧
      strip a.attachment.leadId ≠ "" ∧
      a.request.url = a.base ++ ("leads/" ++ strip a.attachment.leadId ++ "/notes")) ∨
    (∀ host headers, a.adapter ≠ .kommo host headers) ∧ Accepted a.template ∧
      ∃ path, buildPath a.template [("lead_id", strip a.attachment.leadId)] = .ok path ∧
        a.request.url = a.base ++ path := by
  obtain ⟨comment, hnote⟩ := a.attachment.exists_note lib a.adapter
  have hsent := a.sent
  have haddress := a.addressed
  have haccepted := accepted_noteAddress a.built a.addressed
  rw [hnote] at hsent
  simp only [Adapter.note, bind_eq_ok] at hsent
  obtain ⟨id, hid, hsent⟩ := hsent
  obtain ⟨rfl, hne⟩ := cleanText_lead hid
  generalize a.adapter = adapter at hsent haddress haccepted ⊢
  generalize a.base = base at haddress ⊢
  generalize a.template = template at haddress haccepted ⊢
  cases adapter with
  | bitrix24 => cases haddress
  | kommo host headers =>
    obtain ⟨rfl, rfl⟩ := Prod.mk.inj (Option.some.inj haddress)
    have hsend : ∃ body, kommoCall lib host headers ("leads/" ++ strip a.attachment.leadId ++ "/notes") "POST" body =
        .ok a.request := by
      dsimp only at hsent
      split at hsent
      · obtain ⟨_, -, hsend⟩ := bind_eq_ok.1 hsent
        exact ⟨_, hsend⟩
      · obtain ⟨_, -, hsend⟩ := bind_eq_ok.1 hsent
        exact ⟨_, hsend⟩
    obtain ⟨body, hsend⟩ := hsend
    refine .inl ⟨host, headers, rfl, rfl, hne, ?_⟩
    rw [url_of_send hsend, dropLeadingSlashes_leads]
  | onec host basePath headers responseMap paths =>
    obtain ⟨rfl, rfl⟩ := Prod.mk.inj (Option.some.inj haddress)
    simp only [bind_eq_ok, onecCall] at hsent
    obtain ⟨path, hpath, hsent⟩ := hsent
    exact .inr ⟨fun _ _ h => (by cases h), haccepted.resolve_left (by rintro ⟨_, _, h⟩; cases h), path, hpath,
      url_of_send hsent⟩
  | customHttp host declared headers =>
    obtain ⟨o, ho, heq⟩ := Option.map_eq_some_iff.1 haddress
    obtain ⟨rfl, rfl⟩ := Prod.mk.inj heq
    simp only [bind_eq_ok, customHttpCall, CustomHttp.operation, need_eq_ok] at hsent
    obtain ⟨o', ho', path, hpath, hsent⟩ := hsent
    obtain rfl := Option.some.inj (ho.symm.trans ho')
    exact .inr ⟨fun _ _ h => (by cases h), haccepted.resolve_left (by rintro ⟨_, _, h⟩; cases h), path, hpath,
      url_of_send hsent⟩

/-- Kommo's address has the structure of its template unless the id brings a separator or is dots. -/
theorem kept_kommo_iff {id : String} (hne : id ≠ "") :
    Structured "leads/{lead_id}/notes".toList ("leads/" ++ id ++ "/notes").toList ↔
      (∀ c ∈ ['/', '?', '#'], c ∉ id.toList) ∧ id ≠ "." ∧ id ≠ ".." := by
  let template := pieces none "leads/{lead_id}/notes".toList
  have hpieces : template = "leads/".toList.map .char ++ [.hole "lead_id"] ++ "/notes".toList.map .char := by decide
  have hlead : ∀ c : Char, ("leads/" ++ id ++ "/notes").toList.count c =
      "leads/".toList.count c + id.toList.count c + "/notes".toList.count c := by
    intro c
    rw [String.toList_append, String.toList_append, List.count_append, List.count_append]
  by_cases hseparators : ∀ c ∈ ['/', '?', '#'], c ∉ id.toList
  · have hput : template.flatMap (Piece.put fun _ => id.toList) = ("leads/" ++ id ++ "/notes").toList := by
      rw [String.toList_append, String.toList_append, hpieces, List.flatMap_append, List.flatMap_append, flatMap_char,
        flatMap_char, List.flatMap_singleton]
      rfl
    have hknown : ∀ token, .hole token ∈ template → token ∈ customHttpPlaceholders := by
      have hall : ∀ token ∈ placeholders none "leads/{lead_id}/notes".toList, token ∈ customHttpPlaceholders := by decide
      exact fun token htoken => hall token (hole_mem_iff.1 htoken)
    have hsegments : segmentsOf template = ["leads".toList.map .char, [.hole "lead_id"], "notes".toList.map .char] ++
        ["leads".toList.map .char, [.hole "lead_id"], "notes".toList.map .char] := by decide
    have hfixed : ∀ cs : List Char, ¬ Collapses (fun _ => id.toList) (cs.map .char) := by
      rintro cs ⟨⟨token, htoken⟩, -⟩
      simp at htoken
    have hid : Collapses (fun _ => id.toList) [.hole "lead_id"] ↔ IsDots id.toList := by
      rw [Collapses, List.flatMap_singleton]
      exact and_iff_right ⟨_, List.mem_singleton_self _⟩
    have hunseparated : Unseparated (fun _ => id.toList) template := fun _ _ => hseparators
    have hkept := kept_put_iff hknown hunseparated
    rw [put_mark, hput, hsegments] at hkept
    rw [and_iff_right hseparators]
    refine hkept.trans ?_
    simp only [List.forall_mem_append, List.forall_mem_cons, hfixed, hid, not_false_eq_true, true_and,
      List.not_mem_nil, false_implies, implies_true, and_true, and_self]
    have hdots : IsDots id.toList ↔ id = "." ∨ id = ".." := by
      have hempty : id.toList ≠ [] := fun h => hne (String.toList_injective h)
      have hone : id.toList = ['.'] ↔ id = "." := @String.toList_inj id "."
      have htwo : id.toList = ['.', '.'] ↔ id = ".." := @String.toList_inj id ".."
      rw [IsDots, hone, htwo, or_iff_right hempty]
    rw [hdots, not_or]
  · refine iff_of_false ?_ fun h => hseparators h.1
    intro hkept
    push Not at hseparators
    obtain ⟨c, hc, hmem⟩ := hseparators
    have hcount := hkept.separators c hc
    have hpos := List.count_pos_iff.2 hmem
    have hall : ∀ c ∈ ['/', '?', '#'], "leads/{lead_id}/notes".toList.count c =
        "leads/".toList.count c + "/notes".toList.count c := by decide
    rw [hlead, hall c hc] at hcount
    omega

/-- A rendered path keeps the structure of its template exactly where the values collapse no segment; so does the
address of a note, but for Kommo, where the lead's id must have no separator either. -/
theorem addressing_iff {lib : Library} (r : Rendering) (a : Attached lib) :
    (r.Kept ↔ Fits r.template r.values) ∧ (a.Kept ↔ a.Fits) := by
  refine ⟨kept_buildPath_iff r.accepted r.rendered, ?_⟩
  have hkept : ∀ {address}, a.request.url = a.base ++ address →
      (a.Kept ↔ Structured a.template.toList address.toList) := by
    intro address hurl
    constructor
    · rintro ⟨written, heq, hkept⟩
      rw [hurl, String.append_right_inj] at heq
      exact heq ▸ hkept
    · exact fun hkept => ⟨address, hurl, hkept⟩
  rcases a.cases with ⟨host, headers, hadapter, htemplate, hne, hurl⟩ | ⟨hadapter, haccepted, path, hpath, hurl⟩
  · rw [hkept hurl, htemplate, kept_kommo_iff hne, Attached.Fits, hadapter]
  · rw [hkept hurl, kept_buildPath_iff haccepted hpath, Attached.Fits]
    generalize a.adapter = adapter at hadapter
    cases adapter with
    | kommo host headers => exact absurd rfl (hadapter host headers)
    | _ => rfl

/-- A value of two dots leads one level up. -/
theorem not_kept_dots : ¬ ((∀ r : Rendering, r.Kept) ∧ ∀ (lib : Library) (a : Attached lib), a.Kept) := by
  intro h
  have haccepted : Accepted "/leads/{lead_id}/comment" :=
    ⟨.str "/leads/{lead_id}/comment", "comment_path", 512, by decide +kernel⟩
  have hrendered : buildPath "/leads/{lead_id}/comment" [("lead_id", "..")] = .ok "/leads/../comment" := by
    decide +kernel
  have hkept := (h.1 ⟨_, haccepted, _, _, hrendered⟩).whole
  have hsegments : segments "/leads/{lead_id}/comment".toList =
      [[], "leads".toList, "{lead_id}".toList, "comment".toList] := by decide
  have hwritten : segments "/leads/../comment".toList = [[], "leads".toList, "..".toList, "comment".toList] := by decide
  simp only [SegmentsKept, hsegments, hwritten, List.forall₂_cons] at hkept
  exact absurd (hkept.2.2.1 (by decide)) (by decide)

end AgentPlatform.Crm
