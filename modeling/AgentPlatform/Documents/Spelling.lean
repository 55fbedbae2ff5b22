import AgentPlatform.Documents.Normalize

/-!
# Spellings of a number

Which accepted documents share a key. A pattern that is matched with `re.match` accepts a text of its shape
and the same text with a line break after it; nothing else that begins or ends with white space is accepted
(`eq_strip_append`). So a supplier and a number are in their declared alphabets exactly where they do not end
with a line break, and two documents that look the same have one key, and are reported as duplicates, exactly
where both or neither end with it (`spelling_iff`).
-/

namespace AgentPlatform.Documents

open Outcome

/-- The text ends with a line break. -/
def endsWithBreak (text : String) : Bool := text.toList.getLast? == some '\n'

/-- The supplier and the number are in the alphabets their patterns declare. -/
def Clean (d : Document) : Prop :=
  (∀ c ∈ d.supplier.toList, isPartyChar c = true) ∧ ∀ c ∈ d.number.toList, isNumberChar c = true

/-- Both or neither end with a line break, the suppliers and the numbers. -/
def SameBreaks (d d' : Document) : Prop :=
  endsWithBreak d'.supplier = endsWithBreak d.supplier ∧ endsWithBreak d'.number = endsWithBreak d.number

/-! ### Accepted texts -/

theorem number_of_alphanumeric {c : Char} (h : isAlphanumeric c = true) : isNumberChar c = true := by
  simp [isNumberChar, h]

theorem party_of_start {c : Char} (h : isPartyStart c = true) : isPartyChar c = true := by
  simp [isPartyChar, h]

theorem number_of_party {c : Char} (h : isPartyChar c = true) : isNumberChar c = true := by
  simp only [isPartyChar, isPartyStart, Graph.isLower, Bool.or_eq_true, Bool.and_eq_true] at h
  simp only [isNumberChar, isAlphanumeric, Bool.or_eq_true, Bool.and_eq_true]
  tauto

theorem plain_of_number {c : Char} (h : isNumberChar c = true) : isSpace c = false := by
  have hrange : 45 ≤ c.toNat ∧ c.toNat < 128 := by
    simp only [isNumberChar, isAlphanumeric, Char.isDigit, Bool.or_eq_true, Bool.and_eq_true,
      decide_eq_true_eq, beq_iff_eq, Char.le_def, UInt32.le_iff_toNat_le, ge_iff_le] at h
    rcases h with (((((⟨h₁, h₂⟩ | ⟨h₁, h₂⟩) | ⟨h₁, h₂⟩) | rfl) | rfl) | rfl) | rfl
    all_goals first | decide | skip
    all_goals
      simp at h₁ h₂
      omega
  unfold isSpace
  simp only [Bool.or_eq_false_iff, Bool.and_eq_false_iff, decide_eq_false_iff_not, beq_eq_false_iff_ne]
  omega

theorem number_of_shape {text : List Char} (h : numberShape text = true) :
    text ≠ [] ∧ ∀ c ∈ text, isNumberChar c = true := by
  obtain ⟨c, cs, rfl, hc, -, hcs⟩ := Pattern.run_iff.1 h
  exact ⟨List.cons_ne_nil c cs, List.forall_mem_cons.2 ⟨number_of_alphanumeric hc, hcs⟩⟩

theorem party_of_shape {text : List Char} (h : partyShape text = true) :
    text ≠ [] ∧ ∀ c ∈ text, isPartyChar c = true := by
  obtain ⟨c, cs, rfl, hc, -, hcs⟩ := Pattern.run_iff.1 h
  exact ⟨List.cons_ne_nil c cs, List.forall_mem_cons.2 ⟨party_of_start hc, hcs⟩⟩

section Accepted

variable {shape : List Char → Bool} {ok : Char → Bool} {text text' : String}

theorem alphabet_iff (hshape : ∀ t, shape t = true → t ≠ [] ∧ ∀ c ∈ t, ok c = true)
    (hbreak : ok '\n' = false) (h : Pattern.anchored shape text.toList = true) :
    (∀ c ∈ text.toList, ok c = true) ↔ endsWithBreak text = false := by
  unfold endsWithBreak
  rcases Pattern.anchored_iff.1 h with h | ⟨t, ht, h⟩
  · obtain ⟨-, hok⟩ := hshape _ h
    refine iff_of_true hok ?_
    rw [beq_eq_false_iff_ne]
    intro hlast
    have := hok _ (List.mem_of_getLast? hlast)
    rw [hbreak] at this
    cases this
  · rw [ht]
    refine iff_of_false (fun hall => ?_) (by simp)
    have := hall '\n' (by simp)
    rw [hbreak] at this
    cases this

/-- An accepted text is its stripped text, with or without a line break. -/
theorem eq_strip_append (hshape : ∀ t, shape t = true → t ≠ [] ∧ ∀ c ∈ t, ok c = true)
    (hplain : ∀ c, ok c = true → isSpace c = false) (h : Pattern.anchored shape text.toList = true) :
    text.toList = (strip text).toList ++ if endsWithBreak text then ['\n'] else [] := by
  unfold endsWithBreak
  rcases Pattern.anchored_iff.1 h with h | ⟨t, ht, h⟩
  · obtain ⟨-, hok⟩ := hshape _ h
    have hfree : ∀ c ∈ text.toList, isSpace c = false := fun c hc => hplain c (hok c hc)
    have hlast : (text.toList.getLast? == some '\n') = false := by
      rw [beq_eq_false_iff_ne]
      intro hlast
      exact absurd (hfree _ (List.mem_of_getLast? hlast)) (by decide)
    rw [hlast, strip_of_ends (fun c hc => hfree c (List.mem_of_mem_head? hc))
      fun c hc => hfree c (List.mem_of_getLast? hc)]
    simp
  · obtain ⟨hne, hok⟩ := hshape _ h
    have hfree : ∀ c ∈ t, isSpace c = false := fun c hc => hplain c (hok c hc)
    have hstrip : (strip text).toList = t := by
      obtain ⟨c, cs, rfl⟩ := List.exists_cons_of_ne_nil hne
      have hhead : isSpace c = false := hfree c List.mem_cons_self
      rw [toList_strip, ht, List.cons_append, List.dropWhile_cons_of_neg (by simp [hhead]),
        ← List.cons_append, List.rdropWhile_concat_pos _ _ _ (by decide), List.rdropWhile_eq_self_iff]
      intro hcons hspace
      rw [hfree _ (List.getLast_mem hcons)] at hspace
      cases hspace
    rw [hstrip, ht]
    simp

theorem eq_iff_breaks (hshape : ∀ t, shape t = true → t ≠ [] ∧ ∀ c ∈ t, ok c = true)
    (hplain : ∀ c, ok c = true → isSpace c = false) (h : Pattern.anchored shape text.toList = true)
    (h' : Pattern.anchored shape text'.toList = true) (hsame : strip text' = strip text) :
    text' = text ↔ endsWithBreak text' = endsWithBreak text := by
  constructor
  · rintro rfl
    rfl
  · intro hbreaks
    apply String.toList_injective
    rw [eq_strip_append hshape hplain h, eq_strip_append hshape hplain h', hsame, hbreaks]

end Accepted

/-! ### Accepted documents -/

theorem party_ok {value : Json} {name s : String} (h : party value name = .ok s) :
    Pattern.anchored partyShape s.toList = true := by
  unfold party at h
  cases value with
  | str text =>
    obtain ⟨u, hshape, h⟩ := bind_eq_ok.1 h
    obtain rfl := pure_eq_ok.1 h
    exact ensure_eq_ok.1 hshape
  | _ => cases h

theorem number_ok {value : Json} {s : String} (h : number value = .ok s) :
    Pattern.anchored numberShape s.toList = true := by
  unfold number at h
  cases value with
  | str text =>
    obtain ⟨u, hshape, h⟩ := bind_eq_ok.1 h
    obtain rfl := pure_eq_ok.1 h
    exact ensure_eq_ok.1 hshape
  | _ => cases h

/-- What the patterns accepted of a document. -/
theorem normalize_ok {fields : Json} {d : Document} (h : normalize fields = .ok d) :
    Pattern.anchored partyShape d.supplier.toList = true ∧
      Pattern.anchored numberShape d.number.toList = true := by
  unfold normalize at h
  obtain ⟨u, -, h⟩ := bind_eq_ok.1 h
  obtain ⟨u, -, h⟩ := bind_eq_ok.1 h
  obtain ⟨kind, -, h⟩ := bind_eq_ok.1 h
  obtain ⟨supplier, hsupplier, h⟩ := bind_eq_ok.1 h
  obtain ⟨number, hnumber, h⟩ := bind_eq_ok.1 h
  obtain ⟨currency, -, h⟩ := bind_eq_ok.1 h
  obtain ⟨docDate, -, h⟩ := bind_eq_ok.1 h
  obtain ⟨total, -, h⟩ := bind_eq_ok.1 h
  obtain ⟨items, -, h⟩ := bind_eq_ok.1 h
  obtain ⟨u, -, h⟩ := bind_eq_ok.1 h
  obtain ⟨bankAccount, -, h⟩ := bind_eq_ok.1 h
  obtain rfl := pure_eq_ok.1 h
  exact ⟨party_ok hsupplier, number_ok hnumber⟩

variable {s t : Store} {tenant : String} {now : Time} {d d' : Document} {fields fields' : Json}
  {key : String × String × String}

/-- A document that is remembered is found; nothing else is that was not. -/
theorem remember_find {answer : Remembered} (h : remember s now tenant d = .ok (answer, t)) :
    (t.find tenant key).isSome = true ↔ (s.find tenant key).isSome = true ∨ key = documentKey d := by
  unfold remember at h
  obtain ⟨u, -, h⟩ := bind_eq_ok.1 h
  cases hfound : s.find tenant (documentKey d) with
  | some row =>
    rw [hfound] at h
    cases pure_eq_ok.1 h
    constructor
    · exact .inl
    · rintro (h | rfl)
      · exact h
      · rw [hfound]
        rfl
  | none =>
    rw [hfound] at h
    cases pure_eq_ok.1 h
    unfold Store.find
    rw [List.find?_append, Option.isSome_or, Bool.or_eq_true]
    refine or_congr Iff.rfl ?_
    by_cases hkey : key = documentKey d
    · simp [hkey]
    · have hne : documentKey d ≠ key := fun h => hkey h.symm
      simp [hkey, hne]

theorem duplicates_eq (h : normalize fields = .ok d) :
    ∃ report, duplicates s tenant fields = .ok report ∧
      report.duplicate = (s.find tenant (documentKey d)).isSome := by
  unfold duplicates
  rw [h]
  refine ⟨_, rfl, ?_⟩
  simp [Duplicates.duplicate]

/-- **An accepted document's supplier and number are in their alphabets exactly where neither ends with a line
break. Of two accepted documents of one kind whose suppliers and numbers look the same up to white space
around them, the keys are the same exactly where both or neither end with it; and when one is remembered, the
other is reported as a duplicate exactly there, or where it was known before.** -/
theorem spelling_iff (h : normalize fields = .ok d) :
    (Clean d ↔ endsWithBreak d.supplier = false ∧ endsWithBreak d.number = false) ∧
      ∀ fields' d', normalize fields' = .ok d' → d'.kind = d.kind → strip d'.supplier = strip d.supplier →
        strip d'.number = strip d.number →
        (documentKey d' = documentKey d ↔ SameBreaks d d') ∧
          ∀ s now tenant answer t, remember s now tenant d = .ok (answer, t) →
            ∃ report, duplicates t tenant fields' = .ok report ∧
              (report.duplicate = true ↔
                (s.find tenant (documentKey d')).isSome = true ∨ SameBreaks d d') := by
  obtain ⟨hsupplier, hnumber⟩ := normalize_ok h
  refine ⟨and_congr (alphabet_iff (fun _ => party_of_shape) (by decide) hsupplier)
    (alphabet_iff (fun _ => number_of_shape) (by decide) hnumber), ?_⟩
  intro fields' d' h' hkind hsameSupplier hsameNumber
  obtain ⟨hsupplier', hnumber'⟩ := normalize_ok h'
  have hkeys : documentKey d' = documentKey d ↔ SameBreaks d d' := by
    rw [documentKey, documentKey, Prod.mk.injEq, Prod.mk.injEq, and_iff_right hkind]
    exact and_congr
      (eq_iff_breaks (fun _ => party_of_shape) (fun c hc => plain_of_number (number_of_party hc)) hsupplier
        hsupplier' hsameSupplier)
      (eq_iff_breaks (fun _ => number_of_shape) (fun c => plain_of_number) hnumber hnumber' hsameNumber)
  refine ⟨hkeys, fun s now tenant answer t hremember => ?_⟩
  obtain ⟨report, hreport, hduplicate⟩ : ∃ report, duplicates t tenant fields' = .ok report ∧ _ :=
    duplicates_eq h'
  refine ⟨report, hreport, ?_⟩
  rw [hduplicate, remember_find hremember, hkeys]

/-! ### An invoice number with a line break -/

/-- The fields of an invoice. -/
def invoiceFields (number : String) (total : ℤ) : Json :=
  .obj [("kind", .str "invoice"), ("supplier", .str "acme"), ("number", .str number),
    ("currency", .str "UZS"), ("total", .int total)]

theorem spelling_iff_sample :
    ∃ d, normalize (invoiceFields "INV-1" 1000) = .ok d ∧
      (Clean d ↔ endsWithBreak d.supplier = false ∧ endsWithBreak d.number = false) :=
  ⟨_, rfl, (@spelling_iff _ (invoiceFields "INV-1" 1000) rfl).1⟩

/-- The same invoice with a line break after its number is accepted, and is not reported. -/
theorem line_break_evades :
    ¬∀ (s t : Store) (now : Time) (tenant : String) (fields fields' : Json) (d d' : Document)
      (answer : Remembered) (report : Duplicates), normalize fields = .ok d → normalize fields' = .ok d' →
      d'.kind = d.kind → strip d'.supplier = strip d.supplier → strip d'.number = strip d.number →
      remember s now tenant d = .ok (answer, t) → duplicates t tenant fields' = .ok report →
        Clean d' ∧ documentKey d' = documentKey d ∧ report.duplicate = true := by
  intro h
  obtain ⟨-, hkey, -⟩ := h ⟨[], fun _ => .ok ()⟩ _ 0 "t" (invoiceFields "INV-1" 1000)
    (invoiceFields "INV-1\n" 1000) _ _ _ _ rfl rfl rfl rfl rfl rfl rfl
  revert hkey
  decide

end AgentPlatform.Documents
