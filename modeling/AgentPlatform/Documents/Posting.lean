import Mathlib.Data.List.Dedup
import AgentPlatform.Documents.Normalize

/-!
# Posting plans

`match`, `fraud_signals` and `posting_plan` of `documents.py`. An invoice is compared with its purchase order
and its delivery note; the supplier's history and the duplicate check raise signals, of which some are
material; the plan recommends from the three what is to be done first.

Where no counterpart or both are there, a plan is ready for approval exactly where nothing needs attention:
the amounts agree within the tolerance, there is no duplicate and no material signal (`ready_iff`). A weak
signal is reported and holds nothing.
-/

namespace AgentPlatform.Documents

open Outcome

/-! ### The three-way match -/

/-- The statuses of a match; `oneMissing` is a match of which one counterpart is missing and the other
agrees. -/
inductive MatchStatus
  | matched
  | oneMissing
  | mismatch
  | incomplete
  deriving DecidableEq

/-- The comparison with one counterpart. -/
structure Check where
  against : String
  ok : Bool
  reason : String
  currencies : Option (String × String)
  counterpartTotal : Option String
  difference : Option String

/-- What `match` returns. -/
structure Match where
  status : MatchStatus
  currency : String
  invoiceTotal : String
  tolerance : String
  checks : List Check
  missing : List String
  complete : Bool

/-- `counterpart in (None, {})`. -/
def isMissing (counterpart : Json) : Bool :=
  match counterpart with
  | .null => true
  | .obj members => members.isEmpty
  | _ => false

/-- The comparison with a counterpart that was read. -/
def compare (d other : Document) (tolerance : ℤ) (label : String) : Check :=
  if other.currency ≠ d.currency then
    ⟨label, false, "currency", some (other.currency, d.currency), none, none⟩
  else
    let delta := d.totalMinor - other.totalMinor
    let within := decide (|delta| ≤ tolerance)
    { against := label
      ok := within
      reason := if within then "within tolerance" else if 0 < delta then "invoice above" else "invoice below"
      currencies := none
      counterpartTotal := some (formatAmount other.totalMinor d.currency)
      difference := some (formatAmount |delta| d.currency) }

/-- The comparison with a counterpart; nothing where it is missing. -/
def checkAgainst (d : Document) (tolerance : ℤ) (label : String) (counterpart : Json) :
    Except Err (Option Check) :=
  if isMissing counterpart then .ok none
  else (normalize counterpart).map fun other => some (compare d other tolerance label)

/-- The status of a match. -/
def statusOf (checks : List Check) (missing : List String) : MatchStatus :=
  if missing.length = 2 then .incomplete
  else if missing ≠ [] then if checks.all Check.ok then .oneMissing else .mismatch
  else if checks.all Check.ok then .matched else .mismatch

/-- `match`. -/
def matchInvoice (invoice purchaseOrder deliveryNote : Json) (tolerance : ℤ) : Except Err Match := do
  ensure (0 ≤ tolerance) (.valueError "tolerance_minor must be a non-negative integer")
  let d ← normalize invoice
  let order ← checkAgainst d tolerance "purchase_order" purchaseOrder
  let note ← checkAgainst d tolerance "delivery_note" deliveryNote
  let checks := order.toList ++ note.toList
  let missing := (if order.isNone then ["purchase_order"] else []) ++
    if note.isNone then ["delivery_note"] else []
  pure ⟨statusOf checks missing, d.currency, formatAmount d.totalMinor d.currency,
    formatAmount tolerance d.currency, checks, missing, missing.isEmpty⟩

/-! ### Fraud controls -/

def materialSignals : List String := ["amount_outlier", "bank_account_changed", "duplicate_altered"]

def weakSignals : List String := ["no_history", "round_number", "weekend_date"]

def roundTrailingZeros : ℕ := 3

/-- A signal with the observation that produced it. -/
structure Signal where
  signal : String
  detail : String
  evidence : Json

/-- `supplier_history`: the latest documents of a supplier, the newest first. -/
def supplierHistory (s : Store) (tenant supplier : String) (limit : ℤ) : List Row :=
  ((s.documents.filter fun r => r.tenant = tenant ∧ r.document.supplier = supplier).insertionSort
    fun r r' => r'.created ≤ r.created).take (min (max 1 limit) 500).toNat

/-- `_median`. -/
def median (values : List ℤ) : ℤ :=
  let ordered := values.insertionSort (· ≤ ·)
  let middle := ordered.length / 2
  if ordered.length % 2 = 1 then ordered.getD middle 0
  else (ordered.getD (middle - 1) 0 + ordered.getD middle 0) / 2

/-- The documents a document is compared with: those in its currency, itself left out. -/
def priorOf (d : Document) (history : List Row) : List Row :=
  history.filter fun r => r.document.currency = d.currency ∧ documentKey r.document ≠ documentKey d

/-- `no_history`. -/
def noHistory (d : Document) (prior : List Row) : List Signal :=
  if prior = [] then
    [⟨"no_history", "no prior " ++ d.currency ++ " document from \"" ++ d.supplier ++ "\" to compare against",
      .obj []⟩]
  else []

/-- `amount_outlier`. -/
def amountOutlier (d : Document) (outlierRatio : ℤ) (prior : List Row) : List Signal :=
  let middle := median (prior.map fun r => r.document.totalMinor)
  if prior ≠ [] ∧ 0 < middle ∧ middle * outlierRatio ≤ d.totalMinor then
    [⟨"amount_outlier", formatAmount d.totalMinor d.currency ++ " is at least " ++ toString outlierRatio ++
        "x this supplier's median of " ++ formatAmount middle d.currency ++ " over " ++
        toString prior.length ++ " prior document(s)",
      .obj [("median", .str (formatAmount middle d.currency)), ("count", .int prior.length)]⟩]
  else []

/-- `bank_account_changed`. -/
def bankAccountChanged (d : Document) (prior : List Row) : List Signal :=
  match prior with
  | [] => []
  | latest :: _ =>
    let previous := latest.document.bankAccount
    if d.bankAccount.truthy && previous.truthy && !previous.same d.bankAccount then
      [⟨"bank_account_changed", "the supplier bank account differs from the most recent stored document: " ++
          "confirm with the supplier by a channel other than the document itself",
        .obj [("mismatch", .bool true)]⟩]
    else []

/-- How many zeros a number ends with. -/
def trailingZeros (n : ℤ) : ℕ := ((toString n).toList.reverse.takeWhile (· == '0')).length

/-- `round_number`. -/
def roundNumber (d : Document) : List Signal :=
  let factor := minorUnits d.currency
  let trailing := trailingZeros (d.totalMinor / factor)
  if 0 < d.totalMinor ∧ d.totalMinor % factor = 0 ∧ roundTrailingZeros ≤ trailing then
    [⟨"round_number", "the amount is exactly round to " ++ toString trailing ++
        " trailing zero(s) in whole " ++ d.currency ++ ", which is unusual for an invoice",
      .obj [("trailing_zeros", .int trailing), ("threshold", .int roundTrailingZeros)]⟩]
  else []

/-- The three numbers of a date in ASCII digits. -/
def dateParts (text : List Char) : Option (ℕ × ℕ × ℕ) :=
  let bare := text.filter fun c => c != '-'
  if bare ≠ [] ∧ bare.all Char.isDigit = true then
    match text.splitOn '-' with
    | [year, month, day] =>
      if year ≠ [] ∧ month ≠ [] ∧ day ≠ [] then some (Erp.valueOf year, Erp.valueOf month, Erp.valueOf day)
      else none
    | _ => none
  else none

/-- `date(year, month, day).weekday()`, Monday as zero. -/
def weekday (year month day : ℕ) : ℕ :=
  let years := year - 1
  let before := years * 365 + years / 4 - years / 100 + years / 400
  let months := ((List.range (month - 1)).map fun m => Erp.monthLength year (m + 1)).sum
  (before + months + day + 6) % 7

/-- The weekday of a date, where it is one. -/
def weekdayOf (parts : ℕ × ℕ × ℕ) : Option ℕ :=
  if isCalendarDate parts.1 parts.2.1 parts.2.2 then some (weekday parts.1 parts.2.1 parts.2.2) else none

/-- `weekend_date`. -/
def weekendDate (d : Document) (prior : List Row) : List Signal :=
  let dated := prior.filterMap fun r => dateParts r.document.docDate.toList
  let weekends := dated.countP fun parts => (weekdayOf parts).any fun n => 5 ≤ n
  match (dateParts d.docDate.toList).bind weekdayOf with
  | some n =>
    if 5 ≤ n ∧ dated ≠ [] ∧ weekends = 0 then
      [⟨"weekend_date", "the document date falls on a weekend, but none of this supplier's last " ++
          toString dated.length ++ " document(s) did",
        .obj [("weekday", .int n), ("prior_weekend", .int weekends)]⟩]
    else []
  | none => []

/-- A change of the amount as evidence. -/
def AmountChange.evidence (c : AmountChange) : Json :=
  .obj ([("from", .str c.old), ("to", .str c.new)] ++ (c.note.map fun n => ("note", Json.str n)).toList)

/-- `duplicate_altered`. -/
def duplicateAltered (duplicate : Duplicates) : List Signal :=
  match duplicate.found with
  | some found =>
    if found.altered then
      [⟨"duplicate_altered", "a document with this number already exists and the amount differs: a " ++
          "re-issued or altered invoice is more suspicious than an exact repeat",
        (found.amountChanged.map AmountChange.evidence).getD (.obj [])⟩]
    else []
  | none => []

/-- What `fraud_signals` returns. -/
structure Fraud where
  signals : List Signal
  material : List String
  weak : List String
  supplier : String
  historyRows : ℕ
  historyConsidered : ℕ

/-- The names of the signals that are among some, sorted, each once. -/
def named (signals : List Signal) (among : List String) : List String :=
  Graph.sortTexts ((signals.map Signal.signal).dedup.filter fun n => among.contains n)

/-- `fraud_signals`. -/
def fraudSignals (s : Store) (tenant : String) (fields : Json) (outlierRatio historyLimit : ℤ) :
    Except Err Fraud := do
  ensure (1 ≤ outlierRatio) (.valueError "outlier_ratio must be an integer of at least 1")
  let d ← normalize fields
  let history := supplierHistory s tenant d.supplier historyLimit
  let prior := priorOf d history
  let duplicate ← duplicates s tenant fields
  let signals := noHistory d prior ++ amountOutlier d outlierRatio prior ++ bankAccountChanged d prior ++
    roundNumber d ++ weekendDate d prior ++ duplicateAltered duplicate
  pure ⟨signals, named signals materialSignals, named signals weakSignals, d.supplier, history.length,
    prior.length⟩

/-! ### The plan -/

inductive Recommendation
  | holdForDuplicateReview
  | holdForMismatchReview
  | attachMissingDocument
  | reviewFraudSignals
  | readyForApproval
  deriving DecidableEq

/-- What `posting_plan` returns. -/
structure Plan where
  document : Document
  duplicate : Duplicates
  matching : Match
  fraud : Fraud
  needsAttention : Bool
  recommendation : Recommendation

/-- The recommendation of a plan. -/
def recommend (duplicate : Bool) (status : MatchStatus) (material : Bool) : Recommendation :=
  if duplicate then .holdForDuplicateReview
  else if status = .mismatch then .holdForMismatchReview
  else if status = .incomplete then .attachMissingDocument
  else if material then .reviewFraudSignals
  else .readyForApproval

/-- `posting_plan`. -/
def postingPlan (s : Store) (tenant : String) (fields purchaseOrder deliveryNote : Json)
    (tolerance outlierRatio : ℤ) : Except Err Plan := do
  let d ← normalize fields
  let duplicate ← duplicates s tenant fields
  let matching ← matchInvoice fields purchaseOrder deliveryNote tolerance
  let fraud ← fraudSignals s tenant fields outlierRatio 50
  let material := !fraud.material.isEmpty
  pure ⟨d, duplicate, matching, fraud,
    duplicate.duplicate || decide (matching.status ≠ .matched) || material,
    recommend duplicate.duplicate matching.status material⟩

/-! ### When a match is complete -/

/-- A document agrees with a counterpart: their currency is the same, and their totals are within the
tolerance. -/
def Within (d other : Document) (tolerance : ℤ) : Prop :=
  other.currency = d.currency ∧ |d.totalMinor - other.totalMinor| ≤ tolerance

/-- A counterpart is given, is a document, and agrees. -/
def Agrees (d : Document) (counterpart : Json) (tolerance : ℤ) : Prop :=
  ∃ other, normalize counterpart = .ok other ∧ Within d other tolerance

variable {s : Store} {tenant label : String} {fields counterpart purchaseOrder deliveryNote : Json}
  {tolerance outlierRatio : ℤ} {d other : Document} {m : Match} {plan : Plan}

theorem compare_ok_iff : (compare d other tolerance label).ok = true ↔ Within d other tolerance := by
  unfold compare Within
  by_cases hcurrency : other.currency = d.currency
  · simp [hcurrency]
  · simp [hcurrency]

theorem normalize_of_missing (h : isMissing counterpart = true) : normalize counterpart ≠ .ok other := by
  unfold isMissing at h
  cases counterpart with
  | null =>
    intro hok
    cases hok
  | obj members =>
    cases members with
    | nil =>
      intro hok
      cases hok
    | cons member members => cases h
  | _ => cases h

theorem checkAgainst_iff {c : Option Check} (h : checkAgainst d tolerance label counterpart = .ok c) :
    (c.isSome = true ∧ ∀ check ∈ c, check.ok = true) ↔ Agrees d counterpart tolerance := by
  unfold checkAgainst at h
  split_ifs at h with hmissing
  · obtain rfl := Except.ok.inj h
    refine iff_of_false (fun hsome => Bool.false_ne_true hsome.1) ?_
    rintro ⟨other, hother, -⟩
    exact normalize_of_missing hmissing hother
  · obtain ⟨other, hother, rfl⟩ := map_eq_ok.1 h
    unfold Agrees
    simp [hother, compare_ok_iff]

theorem statusOf_eq_matched_iff {checks : List Check} {missing : List String} :
    statusOf checks missing = .matched ↔ missing = [] ∧ ∀ c ∈ checks, c.ok = true := by
  unfold statusOf
  rw [← List.all_eq_true]
  cases missing with
  | nil => cases checks.all Check.ok <;> simp
  | cons name names =>
    refine iff_of_false ?_ (fun h => List.cons_ne_nil _ _ h.1)
    split_ifs <;> simp_all

theorem matched_iff (h : matchInvoice fields purchaseOrder deliveryNote tolerance = .ok m)
    (hd : normalize fields = .ok d) :
    m.status = .matched ↔ Agrees d purchaseOrder tolerance ∧ Agrees d deliveryNote tolerance := by
  unfold matchInvoice at h
  obtain ⟨u, -, h⟩ := bind_eq_ok.1 h
  obtain ⟨d', hd', h⟩ := bind_eq_ok.1 h
  obtain rfl := Except.ok.inj (hd'.symm.trans hd)
  obtain ⟨order, horder, h⟩ := bind_eq_ok.1 h
  obtain ⟨note, hnote, h⟩ := bind_eq_ok.1 h
  obtain rfl := pure_eq_ok.1 h
  rw [← checkAgainst_iff horder, ← checkAgainst_iff hnote]
  change statusOf _ _ = .matched ↔ _
  rw [statusOf_eq_matched_iff]
  cases order <;> cases note <;> simp

/-! ### When a plan is ready -/

theorem named_eq_nil_iff {signals : List Signal} {among : List String} :
    named signals among = [] ↔ ∀ m ∈ signals, m.signal ∉ among := by
  rw [named, List.eq_nil_iff_forall_not_mem]
  simp only [Graph.sortTexts, List.mem_insertionSort, List.mem_filter, List.mem_dedup, List.mem_map,
    List.contains_iff_mem, not_and]
  constructor
  · intro h m hm
    exact h m.signal ⟨m, hm, rfl⟩
  · rintro h name ⟨m, hm, rfl⟩
    exact h m hm

/-- What a plan is made of. -/
theorem postingPlan_ok
    (h : postingPlan s tenant fields purchaseOrder deliveryNote tolerance outlierRatio = .ok plan) :
    normalize fields = .ok plan.document ∧
      matchInvoice fields purchaseOrder deliveryNote tolerance = .ok plan.matching ∧
      plan.fraud.material = named plan.fraud.signals materialSignals ∧
      plan.needsAttention = (plan.duplicate.duplicate || decide (plan.matching.status ≠ .matched) ||
        !plan.fraud.material.isEmpty) ∧
      plan.recommendation =
        recommend plan.duplicate.duplicate plan.matching.status (!plan.fraud.material.isEmpty) := by
  unfold postingPlan at h
  obtain ⟨d, hd, h⟩ := bind_eq_ok.1 h
  obtain ⟨duplicate, -, h⟩ := bind_eq_ok.1 h
  obtain ⟨matching, hmatch, h⟩ := bind_eq_ok.1 h
  obtain ⟨fraud, hfraud, h⟩ := bind_eq_ok.1 h
  obtain rfl := pure_eq_ok.1 h
  refine ⟨hd, hmatch, ?_, rfl, rfl⟩
  unfold fraudSignals at hfraud
  obtain ⟨u, -, hfraud⟩ := bind_eq_ok.1 hfraud
  obtain ⟨d', -, hfraud⟩ := bind_eq_ok.1 hfraud
  obtain ⟨duplicate', -, hfraud⟩ := bind_eq_ok.1 hfraud
  obtain rfl := pure_eq_ok.1 hfraud
  rfl

theorem recommend_eq_ready_iff {duplicate material : Bool} {status : MatchStatus} :
    recommend duplicate status material = .readyForApproval ↔
      duplicate = false ∧ (status = .matched ∨ status = .oneMissing) ∧ material = false := by
  cases duplicate <;> cases status <;> cases material <;> decide

/-- **Unless exactly one counterpart is missing and the other agrees, a plan is ready for approval exactly
where nothing needs attention: the purchase order and the delivery note are both there and agree within the
tolerance, no duplicate was found, and no material signal was raised.** -/
theorem ready_iff
    (h : postingPlan s tenant fields purchaseOrder deliveryNote tolerance outlierRatio = .ok plan)
    (hstatus : plan.matching.status ≠ .oneMissing) :
    (plan.recommendation = .readyForApproval ↔ plan.needsAttention = false) ∧
      (plan.recommendation = .readyForApproval ↔
        (Agrees plan.document purchaseOrder tolerance ∧ Agrees plan.document deliveryNote tolerance) ∧
          plan.duplicate.duplicate = false ∧ ∀ m ∈ plan.fraud.signals, m.signal ∉ materialSignals) := by
  obtain ⟨hd, hmatch, hmaterial, hattention, hrecommendation⟩ := postingPlan_ok h
  have hready : plan.recommendation = .readyForApproval ↔
      plan.duplicate.duplicate = false ∧ plan.matching.status = .matched ∧
        plan.fraud.material = [] := by
    rw [hrecommendation, recommend_eq_ready_iff]
    simp [hstatus]
  constructor
  · rw [hready, hattention]
    simp [and_assoc]
  · rw [hready, matched_iff hmatch hd, hmaterial, named_eq_nil_iff]
    tauto

/-! ### The first invoice of a supplier -/

/-- The fields of an invoice and of its counterparts. -/
def tradeFields (kind number : String) (total : ℤ) : Json :=
  .obj [("kind", .str kind), ("supplier", .str "acme"), ("number", .str number), ("currency", .str "UZS"),
    ("total", .int total)]

/-- A first invoice of a supplier, with its purchase order and its delivery note. -/
def firstPlan : Except Err Plan :=
  postingPlan ⟨[], fun _ => .ok ()⟩ "t" (tradeFields "invoice" "INV-1" 1234)
    (tradeFields "purchase_order" "PO-1" 1234) (tradeFields "delivery_note" "DN-1" 1234) 0 3

theorem ready_iff_sample :
    ∃ plan, firstPlan = .ok plan ∧ (plan.recommendation = .readyForApproval ↔ plan.needsAttention = false) := by
  have hrun : (do
      let plan ← firstPlan
      pure (decide (plan.matching.status = .oneMissing))) = Except.ok false := by
    decide +kernel
  obtain ⟨plan, hplan, hrun⟩ := bind_eq_ok.1 hrun
  exact ⟨plan, hplan, (ready_iff hplan (of_decide_eq_false (pure_eq_ok.1 hrun))).1⟩

/-- The first invoice of a supplier is ready for approval, though the signal that it has no history was
raised. -/
theorem weak_signal_is_ready :
    ¬∀ (s : Store) (tenant : String) (fields purchaseOrder deliveryNote : Json) (tolerance outlierRatio : ℤ)
      (plan : Plan), postingPlan s tenant fields purchaseOrder deliveryNote tolerance outlierRatio = .ok plan →
        (plan.recommendation = .readyForApproval ↔
          plan.matching.status = .matched ∧ plan.duplicate.duplicate = false ∧ plan.fraud.signals = []) := by
  intro h
  have hrun : (do
      let plan ← firstPlan
      pure (decide (plan.recommendation = .readyForApproval), plan.fraud.signals.isEmpty)) =
        Except.ok (true, false) := by
    decide +kernel
  obtain ⟨plan, hplan, hrun⟩ := bind_eq_ok.1 hrun
  have hfacts := pure_eq_ok.1 hrun
  rw [Prod.mk.injEq, decide_eq_true_eq] at hfacts
  obtain ⟨hready, hsignals⟩ := hfacts
  obtain ⟨-, -, hnone⟩ := (h _ _ _ _ _ _ _ plan hplan).1 hready
  rw [hnone] at hsignals
  cases hsignals

end AgentPlatform.Documents
