import AgentPlatform.Documents.Posting

/-!
# The bank account of a supplier

`bank_account_changed` of `fraud_signals`. The account of a document is compared with the account of one other
document: the first of the supplier's newest documents that is in its currency and is not itself
(`raised_iff`). Where that one carries no account the signal is not raised, whatever an earlier one carried;
so it is raised of a changed account, and stays where documents without an account are added, exactly where
the one it is compared with carries an account (`account_signal_iff`).
-/

namespace AgentPlatform.Documents

open Outcome

/-! ### Sorting a part of a list -/

section Sorting

variable {α : Type} {r : α → α → Prop} [DecidableRel r] {p : α → Bool}

theorem filter_orderedInsert (htrans : ∀ a b c, r a b → r b c → r a c) {a : α} {xs : List α}
    (h : xs.Pairwise r) :
    (xs.orderedInsert r a).filter p =
      if p a then (xs.filter p).orderedInsert r a else xs.filter p := by
  induction xs with
  | nil =>
    rw [List.orderedInsert_nil, List.filter_cons]
    rfl
  | cons b xs ih =>
    obtain ⟨hb, hxs⟩ := List.pairwise_cons.1 h
    by_cases hab : r a b
    · rw [List.orderedInsert_cons_of_le _ _ hab, List.filter_cons]
      split_ifs with hpa
      · -- everything after `b` is after `a`
        have hall : ∀ x ∈ (b :: xs).filter p, r a x := by
          intro x hx
          rcases List.mem_cons.1 (List.mem_of_mem_filter hx) with rfl | hx
          · exact hab
          · exact htrans _ _ _ hab (hb x hx)
        cases hfilter : (b :: xs).filter p with
        | nil => rfl
        | cons x ys =>
          rw [hfilter] at hall
          rw [List.orderedInsert_cons_of_le _ _ (hall x List.mem_cons_self)]
      · rfl
    · rw [List.orderedInsert_of_not_le _ _ hab, List.filter_cons, ih hxs, List.filter_cons]
      by_cases hpb : p b = true
      · rw [if_pos hpb, if_pos hpb]
        split_ifs with hpa
        · rw [List.orderedInsert_of_not_le _ _ hab]
        · rfl
      · rw [if_neg hpb, if_neg hpb]

theorem filter_insertionSort (htotal : ∀ a b, r a b ∨ r b a) (htrans : ∀ a b c, r a b → r b c → r a c)
    (xs : List α) : (xs.insertionSort r).filter p = (xs.filter p).insertionSort r := by
  have : Std.Total r := ⟨htotal⟩
  have : IsTrans α r := ⟨htrans⟩
  induction xs with
  | nil => rfl
  | cons a xs ih =>
    rw [List.insertionSort_cons, filter_orderedInsert htrans (List.pairwise_insertionSort r xs), ih,
      List.filter_cons]
    split_ifs
    · rw [List.insertionSort_cons]
    · rfl

theorem find?_and_of_find? {q : α → Bool} {xs : List α} {a : α} (h : xs.find? p = some a) (ha : q a = true) :
    (xs.filter q).find? p = some a := by
  obtain ⟨hp, ys, zs, rfl, hys⟩ := List.find?_eq_some_iff_append.1 h
  rw [List.filter_append, List.filter_cons_of_pos ha]
  exact List.find?_eq_some_iff_append.2
    ⟨hp, ys.filter q, zs.filter q, rfl, fun b hb => hys b (List.mem_of_mem_filter hb)⟩

end Sorting

/-! ### The signal -/

variable {s : Store} {tenant : String} {fields : Json} {ratio limit : ℤ} {d : Document} {fraud fraud' : Fraud}
  {extra : List Row} {r : Row}

/-- Whether the signal is raised. -/
def Fraud.accountChanged (fraud : Fraud) : Prop := ∃ m ∈ fraud.signals, m.signal = "bank_account_changed"

/-- The document whose account is compared. -/
def newest (s : Store) (tenant : String) (limit : ℤ) (d : Document) : Option Row :=
  (supplierHistory s tenant d.supplier limit).find? fun r =>
    r.document.currency = d.currency ∧ documentKey r.document ≠ documentKey d

/-- A document carries an account, and so does the stored one, another one. -/
def Differs (r : Row) (d : Document) : Prop :=
  d.bankAccount.truthy = true ∧ r.document.bankAccount.truthy = true ∧
    r.document.bankAccount.same d.bankAccount = false

/-- The account last seen of a supplier, in the documents other than the one under test. -/
def lastSeen (s : Store) (tenant : String) (d : Document) : Option Json :=
  (((s.documents.filter fun r => r.tenant = tenant ∧ r.document.supplier = d.supplier).insertionSort
      fun r r' => r'.created ≤ r.created).find? fun r =>
    decide (documentKey r.document ≠ documentKey d) && r.document.bankAccount.truthy).map
    fun r => r.document.bankAccount

theorem head?_priorOf {history : List Row} :
    (priorOf d history).head? =
      history.find? fun r => r.document.currency = d.currency ∧ documentKey r.document ≠ documentKey d := by
  rw [priorOf, List.head?_filter]

theorem bankAccountChanged_iff {prior : List Row} :
    (∃ m ∈ bankAccountChanged d prior, m.signal = "bank_account_changed") ↔
      ∃ r, prior.head? = some r ∧ Differs r d := by
  unfold bankAccountChanged Differs
  cases prior with
  | nil => simp
  | cons latest prior =>
    simp only [List.head?_cons, Option.some.injEq, exists_eq_left']
    rw [← and_assoc]
    split_ifs with h
    · simpa using h
    · simpa using h

theorem signal_of_mem {c : Prop} [Decidable c] {m x : Signal} (h : m ∈ if c then [x] else []) :
    m.signal = x.signal := by
  split_ifs at h
  · rw [List.mem_singleton.1 h]
  · cases h

/-- The other signals have other names. -/
theorem not_accountChanged {prior : List Row} {duplicate : Duplicates} {m : Signal}
    (h : m ∈ noHistory d prior ∨ m ∈ amountOutlier d ratio prior ∨ m ∈ roundNumber d ∨
      m ∈ weekendDate d prior ∨ m ∈ duplicateAltered duplicate) : m.signal ≠ "bank_account_changed" := by
  rcases h with h | h | h | h | h
  · have hname : m.signal = "no_history" := signal_of_mem h
    rw [hname]
    decide
  · have hname : m.signal = "amount_outlier" := signal_of_mem h
    rw [hname]
    decide
  · have hname : m.signal = "round_number" := signal_of_mem h
    rw [hname]
    decide
  · unfold weekendDate at h
    dsimp only at h
    split at h
    · have hname : m.signal = "weekend_date" := signal_of_mem h
      rw [hname]
      decide
    · cases h
  · unfold duplicateAltered at h
    split at h
    · have hname : m.signal = "duplicate_altered" := signal_of_mem h
      rw [hname]
      decide
    · cases h

/-- The signal is the comparison with one document. -/
theorem raised_iff (h : fraudSignals s tenant fields ratio limit = .ok fraud)
    (hd : normalize fields = .ok d) :
    fraud.accountChanged ↔ ∃ r, newest s tenant limit d = some r ∧ Differs r d := by
  unfold fraudSignals at h
  obtain ⟨_, -, h⟩ := bind_eq_ok.1 h
  obtain ⟨d', hd', h⟩ := bind_eq_ok.1 h
  obtain rfl := Except.ok.inj (hd'.symm.trans hd)
  obtain ⟨duplicate, -, h⟩ := bind_eq_ok.1 h
  rw [← pure_eq_ok.1 h, newest, ← head?_priorOf, ← bankAccountChanged_iff]
  unfold Fraud.accountChanged
  dsimp only
  constructor
  · rintro ⟨m, hm, hsignal⟩
    refine ⟨m, ?_, hsignal⟩
    have hother := @not_accountChanged ratio d' (priorOf d' (supplierHistory s tenant d'.supplier limit))
      duplicate m
    simp only [List.mem_append] at hm
    tauto
  · rintro ⟨m, hm, hsignal⟩
    refine ⟨m, ?_, hsignal⟩
    simp only [List.mem_append]
    tauto

/-! ### Documents without an account -/

/-- A store with further documents. -/
def Store.add (s : Store) (extra : List Row) : Store := { s with documents := s.documents ++ extra }

/-- The documents of a supplier that carry an account are the same where others are added, in the same
order. -/
theorem filter_history (hextra : ∀ r ∈ extra, r.document.bankAccount.truthy = false) :
    ((((s.add extra).documents.filter fun r => r.tenant = tenant ∧ r.document.supplier = d.supplier).insertionSort
        fun r r' => r'.created ≤ r.created).filter fun r => r.document.bankAccount.truthy) =
      (((s.documents.filter fun r => r.tenant = tenant ∧ r.document.supplier = d.supplier).insertionSort
        fun r r' => r'.created ≤ r.created).filter fun r => r.document.bankAccount.truthy) := by
  have hnone : (extra.filter fun r => r.tenant = tenant ∧ r.document.supplier = d.supplier).filter
      (fun r => r.document.bankAccount.truthy) = [] := by
    rw [List.filter_eq_nil_iff]
    intro r hr
    rw [hextra r (List.mem_of_mem_filter hr)]
    decide
  have htotal : ∀ r r' : Row, r'.created ≤ r.created ∨ r.created ≤ r'.created := fun r r' => le_total _ _
  have htrans : ∀ r r' r'' : Row, r'.created ≤ r.created → r''.created ≤ r'.created →
      r''.created ≤ r.created := fun _ _ _ h h' => h'.trans h
  rw [filter_insertionSort htotal htrans, filter_insertionSort htotal htrans, Store.add, List.filter_append,
    List.filter_append, hnone, List.append_nil]

/-- The document that is compared, where it carries an account, is the first of those that do. -/
theorem newest_filter (h : newest s tenant limit d = some r) (hr : r.document.bankAccount.truthy = true) :
    ((((s.documents.filter fun r => r.tenant = tenant ∧ r.document.supplier = d.supplier).insertionSort
        fun r r' => r'.created ≤ r.created).filter fun r => r.document.bankAccount.truthy).find? fun r =>
      r.document.currency = d.currency ∧ documentKey r.document ≠ documentKey d) = some r := by
  apply find?_and_of_find? (q := fun r : Row => r.document.bankAccount.truthy) _ hr
  unfold newest supplierHistory at h
  obtain ⟨hp, ys, zs, heq, hys⟩ := List.find?_eq_some_iff_append.1 h
  rw [← List.take_append_drop (min (max 1 limit) 500).toNat
    ((s.documents.filter fun r => r.tenant = tenant ∧ r.document.supplier = d.supplier).insertionSort
      fun r r' => r'.created ≤ r.created), heq]
  exact List.find?_eq_some_iff_append.2 ⟨hp, ys, zs ++ _, by rw [List.append_assoc, List.cons_append], hys⟩

/-- How the signal watches an account: it is raised where the account differs from the one last seen, and it is
not lost where documents without an account are added. -/
structure Watched (s : Store) (tenant : String) (d : Document) (before after : Fraud) : Prop where
  raised : d.bankAccount.truthy = true →
    (∀ account, lastSeen s tenant d = some account → account.same d.bankAccount = false →
      before.accountChanged)
  kept : before.accountChanged → after.accountChanged

/-- The document that is compared carries an account: another one where the account differs from the one last
seen, and still one where documents are added. -/
structure Carried (s t : Store) (tenant : String) (limit : ℤ) (d : Document) : Prop where
  raised : d.bankAccount.truthy = true →
    (∀ account, lastSeen s tenant d = some account → account.same d.bankAccount = false →
      ∃ r, newest s tenant limit d = some r ∧ Differs r d)
  kept : ∀ r, newest s tenant limit d = some r → Differs r d →
    ∃ r', newest t tenant limit d = some r' ∧ r'.document.bankAccount.truthy = true

/-- **The signal watches the account of a supplier if and only if the document it is compared with carries
one.** -/
theorem account_signal_iff (hextra : ∀ r ∈ extra, r.document.bankAccount.truthy = false)
    (hd : normalize fields = .ok d) (h : fraudSignals s tenant fields ratio limit = .ok fraud)
    (h' : fraudSignals (s.add extra) tenant fields ratio limit = .ok fraud') :
    Watched s tenant d fraud fraud' ↔ Carried s (s.add extra) tenant limit d := by
  have hraised := raised_iff h hd
  have hraised' := raised_iff h' hd
  constructor
  · intro hwatched
    refine ⟨fun hd account hlast hdiffers => hraised.1 (hwatched.raised hd account hlast hdiffers), ?_⟩
    intro r hr hdiffers
    obtain ⟨r', hr', hdiffers'⟩ := hraised'.1 (hwatched.kept (hraised.2 ⟨r, hr, hdiffers⟩))
    exact ⟨r', hr', hdiffers'.2.1⟩
  · intro hcarried
    refine ⟨fun hd account hlast hdiffers => hraised.2 (hcarried.raised hd account hlast hdiffers), ?_⟩
    intro hbefore
    obtain ⟨r, hr, hdiffers⟩ := hraised.1 hbefore
    obtain ⟨r', hr', haccount⟩ := hcarried.kept r hr hdiffers
    have hfirst := newest_filter hr hdiffers.2.1
    have hfirst' := newest_filter hr' haccount
    rw [filter_history hextra, hfirst] at hfirst'
    exact hraised'.2 ⟨r', hr', Option.some.inj hfirst' ▸ hdiffers⟩

/-! ### A delivery note between two invoices -/

/-- A stored document of a supplier. -/
def storedRow (kind number account : String) (created : Time) : Row :=
  ⟨"t", kind ++ ":acme:" ++ number, ⟨kind, "acme", number, "", "UZS", 1234, [], .str account⟩, created⟩

/-- One stored invoice. -/
def invoiceStore : Store := ⟨[storedRow "invoice" "INV-1" "1111111111" 1], fun _ => .ok ()⟩

/-- A new invoice with another account. -/
def movedFields : Json :=
  .obj [("kind", .str "invoice"), ("supplier", .str "acme"), ("number", .str "INV-2"),
    ("currency", .str "UZS"), ("total", .int 1234), ("bank_account", .str "2222222222")]

/-- The delivery note of the first invoice. -/
def deliveryRow : Row := storedRow "delivery_note" "DN-1" "" 2

theorem moved_facts :
    ∃ d before after, normalize movedFields = .ok d ∧
      fraudSignals invoiceStore "t" movedFields 3 50 = .ok before ∧
      fraudSignals (invoiceStore.add [deliveryRow]) "t" movedFields 3 50 = .ok after ∧
      "bank_account_changed" ∈ before.signals.map Signal.signal ∧
      "bank_account_changed" ∉ after.signals.map Signal.signal := by
  have hrun : (do
      let d ← normalize movedFields
      let before ← fraudSignals invoiceStore "t" movedFields 3 50
      let after ← fraudSignals (invoiceStore.add [deliveryRow]) "t" movedFields 3 50
      pure (d.kind, before.signals.map Signal.signal, after.signals.map Signal.signal)) =
        Except.ok ("invoice", ["bank_account_changed"], []) := by
    decide +kernel
  obtain ⟨d, hd, hrun⟩ := bind_eq_ok.1 hrun
  obtain ⟨before, hbefore, hrun⟩ := bind_eq_ok.1 hrun
  obtain ⟨after, hafter, hrun⟩ := bind_eq_ok.1 hrun
  have hfacts := pure_eq_ok.1 hrun
  rw [Prod.mk.injEq, Prod.mk.injEq] at hfacts
  refine ⟨d, before, after, hd, hbefore, hafter, ?_, ?_⟩
  · rw [hfacts.2.1]
    decide
  · rw [hfacts.2.2]
    decide

theorem account_signal_iff_sample :
    ∃ d before after, normalize movedFields = .ok d ∧
      (Watched invoiceStore "t" d before after ↔
        Carried invoiceStore (invoiceStore.add [deliveryRow]) "t" 50 d) := by
  obtain ⟨d, before, after, hd, hbefore, hafter, -⟩ := moved_facts
  refine ⟨d, before, after, hd, account_signal_iff ?_ hd hbefore hafter⟩
  intro r hr
  rw [List.mem_singleton.1 hr]
  decide

/-- The delivery note is newer than the invoice and carries no account: the signal of the changed account is
not raised any more. -/
theorem delivery_note_hides_account :
    ¬∀ (s : Store) (extra : List Row) (tenant : String) (fields : Json) (ratio limit : ℤ) (d : Document)
        (before after : Fraud), (∀ r ∈ extra, r.document.bankAccount.truthy = false) →
      normalize fields = .ok d → fraudSignals s tenant fields ratio limit = .ok before →
      fraudSignals (s.add extra) tenant fields ratio limit = .ok after → Watched s tenant d before after := by
  intro h
  obtain ⟨d, before, after, hd, hbefore, hafter, hraised, hlost⟩ := moved_facts
  have hwatched := h invoiceStore [deliveryRow] "t" movedFields 3 50 d before after
    (fun r hr => by rw [List.mem_singleton.1 hr]; decide) hd hbefore hafter
  obtain ⟨m, hm, hsignal⟩ := hwatched.kept (List.mem_map.1 hraised)
  exact hlost (List.mem_map.2 ⟨m, hm, hsignal⟩)

end AgentPlatform.Documents
