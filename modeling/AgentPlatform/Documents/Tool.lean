import AgentPlatform.Documents.Posting

/-!
# The posting-plan tool

`documents_config`, `_payload` and `_plan_tool` of `documents.py`. The operator declares the tolerance of a
match; the argument `tolerance_minor` of a call takes its place, whatever it is. A larger tolerance matches
more (`matched_mono`), so a call is held to the operator's tolerance exactly where it does not name a larger
one (`tolerance_iff`).
-/

namespace AgentPlatform.Documents

open Outcome

/-! ### Configuration -/

structure Settings where
  toleranceMinor : ℤ
  outlierRatio : ℤ
  approverRole : String
  residency : String
  currencies : List String

/-- `DEFAULTS`. -/
def defaults : Settings := ⟨0, 3, "owner", "uz", currencies⟩

def settingKeys : List String :=
  ["tolerance_minor", "outlier_ratio", "approver_role", "residency", "currencies"]

/-- An integer of at least `low`. -/
def wholeOf (value : Json) (low : ℤ) (message : String) : Except Err ℤ :=
  match value with
  | .int n => do
    ensure (low ≤ n) (.valueError message)
    pure n
  | _ => .error (.valueError message)

/-- One of two texts. -/
def choiceOf (value : Json) (name first second : String) : Except Err String :=
  let e := Err.valueError (name ++ " must be " ++ first ++ " or " ++ second)
  match value with
  | .str s => do
    ensure (s = first ∨ s = second) e
    pure s
  | _ => .error e

/-- One declared currency. -/
def declaredCurrency (lib : Graph.Parser) (value : Json) : Except Err String :=
  let e := Err.valueError ("unsupported currency " ++ lib.repr value)
  match value with
  | .str s => do
    ensure (s ∈ currencies) e
    pure s
  | _ => .error e

/-- The declared currencies. -/
def currenciesOf (lib : Graph.Parser) (value : Json) : Except Err (List String) :=
  let e := Err.valueError "currencies must be a non-empty list"
  match value with
  | .arr items => do
    ensure (items ≠ []) e
    items.mapM (declaredCurrency lib)
  | _ => .error e

/-- The declared value of a setting, or its default. -/
def setting {α : Type} (members : List (String × Json)) (key : String) (clean : Json → Except Err α)
    (default : α) : Except Err α :=
  match (Json.obj members).get? key with
  | some value => clean value
  | none => .ok default

/-- `documents_config`, for the declared block; none where there is none or it cannot be read. -/
def documentsConfig (lib : Graph.Parser) (block : Option Json) : Except Err Settings :=
  match block with
  | none | some .null => .ok defaults
  | some (.obj members) => do
    let unknown := Graph.unknownKeys settingKeys members
    ensure (unknown = []) (.valueError ("unknown documents keys: " ++ ", ".intercalate unknown))
    let tolerance ← setting members "tolerance_minor"
      (fun v => wholeOf v 0 "tolerance_minor must be a non-negative integer") defaults.toleranceMinor
    let ratio ← setting members "outlier_ratio"
      (fun v => wholeOf v 1 "outlier_ratio must be an integer of at least 1") defaults.outlierRatio
    let role ← setting members "approver_role" (fun v => choiceOf v "approver_role" "owner" "operator")
      defaults.approverRole
    let residency ← setting members "residency" (fun v => choiceOf v "residency" "uz" "any")
      defaults.residency
    let currencies ← setting members "currencies" (currenciesOf lib) defaults.currencies
    pure ⟨tolerance, ratio, role, residency, currencies⟩
  | some _ => .error (.valueError "documents configuration must be an object")

/-! ### The tool -/

/-- `_payload`. -/
def payload (lib : Graph.Parser) (args : Json) (key : String) (required : Bool) : Except Err Json :=
  let absent : Except Err Json :=
    if required then .error (.valueError (key ++ " is required")) else .ok .null
  match args.getD key .null with
  | .null => absent
  | .obj members => .ok (.obj members)
  | .str s =>
    if s = "" then absent
    else
      match lib.loads s with
      | none => .error (.valueError (key ++ " must be valid JSON"))
      | some (.obj members) => .ok (.obj members)
      | some _ => .error (.valueError (key ++ " must be a JSON object"))
  | _ => .error (.valueError (key ++ " must be a JSON object"))

/-- The tolerance of a call. -/
def toleranceOf (settings : Settings) (args : Json) : Except Err ℤ :=
  wholeOf (args.getD "tolerance_minor" (.int settings.toleranceMinor)) 0
    "tolerance_minor must be a non-negative integer"

/-- A row of `p_posting_plans`. -/
structure PlanRow where
  tenant : String
  id : String
  document : String
  run : String
  plan : Plan
  status : String
  created : Time

/-- The documents and the plans. -/
structure Ledger extends Store where
  plans : List PlanRow

/-- `record_plan`, with the drawn id. -/
def recordPlan (s : Ledger) (now : Time) (tenant id document run : String) (plan : Plan) :
    Except Err Ledger := do
  s.requireActive tenant
  pure { s with plans := s.plans ++ [⟨tenant, id, document, run, plan, "prepared", now⟩] }

/-- What the tool answers. -/
structure Prepared where
  planId : String
  documentId : String
  recommendation : Recommendation
  needsAttention : Bool
  executesPayment : Bool

/-- `_plan_tool`. -/
def planTool (lib : Graph.Parser) (block : Option Json) (s : Ledger) (now : Time) (tenant id step : String)
    (args : Json) : Except Err (Prepared × Ledger) := do
  let settings ← documentsConfig lib block
  let tolerance ← toleranceOf settings args
  let fields ← payload lib args "fields" true
  let order ← payload lib args "purchase_order" false
  let note ← payload lib args "delivery_note" false
  let plan ← postingPlan s.toStore tenant fields order note tolerance settings.outlierRatio
  let document ← normalize fields
  let (record, store) ← remember s.toStore now tenant document
  let t ← recordPlan ⟨store, s.plans⟩ now tenant id record.id step plan
  pure (⟨id, record.id, plan.recommendation, plan.needsAttention, false⟩, t)

/-! ### Tolerances -/

variable {lib : Graph.Parser} {block : Option Json} {s t : Ledger} {now : Time} {tenant id step : String}
  {args fields order note : Json} {settings : Settings} {answer : Prepared} {tolerance tolerance' : ℤ}
  {d : Document} {m m' : Match} {counterpart : Json}

theorem Within.mono {other : Document} (h : Within d other tolerance) (hle : tolerance ≤ tolerance') :
    Within d other tolerance' :=
  ⟨h.1, h.2.trans hle⟩

theorem Agrees.mono (h : Agrees d counterpart tolerance) (hle : tolerance ≤ tolerance') :
    Agrees d counterpart tolerance' := by
  obtain ⟨other, hother, hwithin⟩ := h
  exact ⟨other, hother, hwithin.mono hle⟩

theorem matched_mono (h : matchInvoice fields order note tolerance = .ok m)
    (h' : matchInvoice fields order note tolerance' = .ok m') (hle : tolerance ≤ tolerance')
    (hmatched : m.status = .matched) : m'.status = .matched := by
  have hfields : ∃ d, normalize fields = .ok d := by
    unfold matchInvoice at h
    obtain ⟨_, -, h⟩ := bind_eq_ok.1 h
    obtain ⟨d, hd, -⟩ := bind_eq_ok.1 h
    exact ⟨d, hd⟩
  obtain ⟨d, hd⟩ := hfields
  obtain ⟨horder, hnote⟩ := (matched_iff h hd).1 hmatched
  exact (matched_iff h' hd).2 ⟨horder.mono hle, hnote.mono hle⟩

theorem wholeOf_ok {value : Json} {low n : ℤ} {message : String} (h : wholeOf value low message = .ok n) :
    value = .int n ∧ low ≤ n := by
  unfold wholeOf at h
  cases value with
  | int k =>
    obtain ⟨_, hle, h⟩ := bind_eq_ok.1 h
    obtain rfl := pure_eq_ok.1 h
    exact ⟨rfl, ensure_eq_ok.1 hle⟩
  | _ => cases h

theorem toleranceOf_ok (h : toleranceOf settings args = .ok tolerance) :
    args.get? "tolerance_minor" = some (.int tolerance) ∨
      args.get? "tolerance_minor" = none ∧ tolerance = settings.toleranceMinor := by
  have hvalue := (wholeOf_ok h).1
  unfold Json.getD at hvalue
  cases hget : args.get? "tolerance_minor" with
  | none =>
    rw [hget, Option.getD_none] at hvalue
    exact .inr ⟨rfl, (Json.int.inj hvalue).symm⟩
  | some value =>
    rw [hget, Option.getD_some] at hvalue
    exact .inl (congrArg some hvalue)

/-- What a call of the tool does: it records the plan of its documents under its tolerance. -/
theorem planTool_ok (h : planTool lib block s now tenant id step args = .ok (answer, t)) :
    ∃ settings tolerance fields order note plan,
      documentsConfig lib block = .ok settings ∧ toleranceOf settings args = .ok tolerance ∧
      payload lib args "fields" true = .ok fields ∧ payload lib args "purchase_order" false = .ok order ∧
      payload lib args "delivery_note" false = .ok note ∧
      postingPlan s.toStore tenant fields order note tolerance settings.outlierRatio = .ok plan ∧
      t.plans = s.plans ++ [⟨tenant, id, answer.documentId, step, plan, "prepared", now⟩] := by
  unfold planTool at h
  obtain ⟨settings, hsettings, h⟩ := bind_eq_ok.1 h
  obtain ⟨tolerance, htolerance, h⟩ := bind_eq_ok.1 h
  obtain ⟨fields, hfields, h⟩ := bind_eq_ok.1 h
  obtain ⟨order, horder, h⟩ := bind_eq_ok.1 h
  obtain ⟨note, hnote, h⟩ := bind_eq_ok.1 h
  obtain ⟨plan, hplan, h⟩ := bind_eq_ok.1 h
  obtain ⟨document, -, h⟩ := bind_eq_ok.1 h
  obtain ⟨⟨record, store⟩, -, h⟩ := bind_eq_ok.1 h
  obtain ⟨ledger, hledger, h⟩ := bind_eq_ok.1 h
  obtain ⟨_, -, hledger⟩ := bind_eq_ok.1 hledger
  have heq := pure_eq_ok.1 h
  rw [Prod.mk.injEq] at heq
  obtain ⟨rfl, rfl⟩ := heq
  refine ⟨settings, tolerance, fields, order, note, plan, hsettings, htolerance, hfields, horder, hnote, hplan, ?_⟩
  rw [← pure_eq_ok.1 hledger]

theorem checkAgainst_of_ok {label : String} {c : Option Check}
    (h : checkAgainst d tolerance label counterpart = .ok c) :
    ∃ c', checkAgainst d tolerance' label counterpart = .ok c' := by
  unfold checkAgainst at h ⊢
  split_ifs at h ⊢ with hmissing
  · exact ⟨none, rfl⟩
  · obtain ⟨other, hother, -⟩ := map_eq_ok.1 h
    exact ⟨_, map_eq_ok.2 ⟨other, hother, rfl⟩⟩

/-- What is compared under a tolerance can be compared under another one. -/
theorem matchInvoice_of_ok (h : matchInvoice fields order note tolerance = .ok m) (h0 : 0 ≤ tolerance') :
    ∃ m', matchInvoice fields order note tolerance' = .ok m' := by
  unfold matchInvoice at h ⊢
  obtain ⟨_, -, h⟩ := bind_eq_ok.1 h
  obtain ⟨d, hd, h⟩ := bind_eq_ok.1 h
  obtain ⟨first, hfirst, h⟩ := bind_eq_ok.1 h
  obtain ⟨second, hsecond, -⟩ := bind_eq_ok.1 h
  obtain ⟨first', hfirst'⟩ : ∃ c, checkAgainst d tolerance' _ order = .ok c := checkAgainst_of_ok hfirst
  obtain ⟨second', hsecond'⟩ : ∃ c, checkAgainst d tolerance' _ note = .ok c := checkAgainst_of_ok hsecond
  exact ⟨_, bind_eq_ok.2 ⟨(), ensure_eq_ok.2 h0, bind_eq_ok.2 ⟨d, hd, bind_eq_ok.2 ⟨first', hfirst',
    bind_eq_ok.2 ⟨second', hsecond', rfl⟩⟩⟩⟩⟩

theorem setting_ok {α : Type} {members : List (String × Json)} {key : String} {clean : Json → Except Err α}
    {default a : α} (h : setting members key clean default = .ok a) :
    (∃ value, clean value = .ok a) ∨ a = default := by
  unfold setting at h
  split at h
  · exact .inl ⟨_, h⟩
  · exact .inr (Except.ok.inj h).symm

/-- A declared tolerance is not negative. -/
theorem tolerance_nonneg (h : documentsConfig lib block = .ok settings) : 0 ≤ settings.toleranceMinor := by
  unfold documentsConfig at h
  split at h
  · rw [← Except.ok.inj h]
    exact le_rfl
  · rw [← Except.ok.inj h]
    exact le_rfl
  · obtain ⟨_, -, h⟩ := bind_eq_ok.1 h
    obtain ⟨tolerance, htolerance, h⟩ := bind_eq_ok.1 h
    obtain ⟨ratio, -, h⟩ := bind_eq_ok.1 h
    obtain ⟨role, -, h⟩ := bind_eq_ok.1 h
    obtain ⟨residency, -, h⟩ := bind_eq_ok.1 h
    obtain ⟨declared, -, h⟩ := bind_eq_ok.1 h
    rw [← pure_eq_ok.1 h]
    rcases setting_ok htolerance with ⟨value, hvalue⟩ | hdefault
    · exact (wholeOf_ok hvalue).2
    · exact hdefault.ge
  · cases h

/-- How a call is held to the operator: the tolerance it applies is at most the declared one, and an invoice it
matches is matched under the declared one. -/
structure HeldTo (settings : Settings) (tolerance : ℤ) (applied declared : Match) : Prop where
  tolerance_le : tolerance ≤ settings.toleranceMinor
  matched : applied.status = .matched → declared.status = .matched

/-- **A call of the tool is held to the operator's tolerance if and only if it does not name a larger one.** -/
theorem tolerance_iff (h : planTool lib block s now tenant id step args = .ok (answer, t)) :
    ∃ settings tolerance fields order note row declared,
      documentsConfig lib block = .ok settings ∧ toleranceOf settings args = .ok tolerance ∧
      payload lib args "fields" true = .ok fields ∧ payload lib args "purchase_order" false = .ok order ∧
      payload lib args "delivery_note" false = .ok note ∧ t.plans = s.plans ++ [row] ∧
      matchInvoice fields order note tolerance = .ok row.plan.matching ∧
      matchInvoice fields order note settings.toleranceMinor = .ok declared ∧
      (HeldTo settings tolerance row.plan.matching declared ↔
        ∀ n, args.get? "tolerance_minor" = some (.int n) → n ≤ settings.toleranceMinor) := by
  obtain ⟨settings, tolerance, fields, order, note, plan, hsettings, htolerance, hfields, horder, hnote, hplan,
    hrow⟩ := planTool_ok h
  obtain ⟨-, hmatch, -⟩ := postingPlan_ok hplan
  obtain ⟨declared, hdeclared⟩ := matchInvoice_of_ok hmatch (tolerance_nonneg hsettings)
  refine ⟨settings, tolerance, fields, order, note, _, declared, hsettings, htolerance, hfields, horder, hnote,
    hrow, hmatch, hdeclared, ?_⟩
  constructor
  · intro hheld n hn
    rcases toleranceOf_ok htolerance with hnamed | ⟨hnone, -⟩
    · rw [hn] at hnamed
      obtain rfl := Json.int.inj (Option.some.inj hnamed)
      exact hheld.tolerance_le
    · rw [hn] at hnone
      cases hnone
  · intro hargument
    have hle : tolerance ≤ settings.toleranceMinor := by
      rcases toleranceOf_ok htolerance with hnamed | ⟨-, hdefault⟩
      · exact hargument _ hnamed
      · exact hdefault.le
    exact ⟨hle, matched_mono hmatch hdeclared hle⟩

/-! ### An order of a thousand less -/

def dearInvoice : Json := tradeFields "invoice" "INV-1" 2000
def cheapOrder : Json := tradeFields "purchase_order" "PO-1" 1000
def cheapNote : Json := tradeFields "delivery_note" "DN-1" 1000

/-- The texts of an invoice over 2000, and of an order and a delivery over 1000. -/
def dearParser : Graph.Parser :=
  ⟨fun _ => "", fun text => ([dearInvoice, cheapOrder, cheapNote].map fun j => (j.encode, j)).lookup text⟩

/-- A call with the three documents, under a tolerance it names. -/
def dearArgs (tolerance : ℤ) : Json :=
  .obj [("fields", .str dearInvoice.encode), ("purchase_order", .str cheapOrder.encode),
    ("delivery_note", .str cheapNote.encode), ("tolerance_minor", .int tolerance)]

/-- That call, where the operator declares no tolerance and nothing is stored. -/
def dearCall (tolerance : ℤ) : Except Err (Prepared × Ledger) :=
  planTool dearParser none ⟨⟨[], fun _ => .ok ()⟩, []⟩ 0 "t" "plan-1" "run-1" (dearArgs tolerance)

theorem tolerance_iff_sample :
    ∃ settings tolerance applied declared, toleranceOf settings (dearArgs 0) = .ok tolerance ∧
      (HeldTo settings tolerance applied declared ↔
        ∀ n, (dearArgs 0).get? "tolerance_minor" = some (.int n) → n ≤ settings.toleranceMinor) := by
  have hrun : (do
      let r ← dearCall 0
      pure r.1.executesPayment) = Except.ok false := by
    decide +kernel
  obtain ⟨⟨answer, t⟩, hcall, -⟩ := bind_eq_ok.1 hrun
  obtain ⟨settings, tolerance, fields, order, note, row, declared, -, htolerance, -, -, -, -, -, -, hiff⟩ :=
    tolerance_iff hcall
  exact ⟨settings, tolerance, row.plan.matching, declared, htolerance, hiff⟩

/-- With a tolerance of 1000 named by the call, the invoice is matched; under the declared tolerance it is not. -/
theorem call_widens_tolerance :
    ¬∀ (lib : Graph.Parser) (block : Option Json) (s t : Ledger) (now : Time) (tenant id step : String)
        (args fields order note : Json) (answer : Prepared) (settings : Settings) (tolerance : ℤ)
        (row : PlanRow) (declared : Match),
      planTool lib block s now tenant id step args = .ok (answer, t) →
      documentsConfig lib block = .ok settings → toleranceOf settings args = .ok tolerance →
      payload lib args "fields" true = .ok fields → payload lib args "purchase_order" false = .ok order →
      payload lib args "delivery_note" false = .ok note → t.plans = s.plans ++ [row] →
      matchInvoice fields order note settings.toleranceMinor = .ok declared →
        HeldTo settings tolerance row.plan.matching declared := by
  intro h
  have hrun : (do
      let r ← dearCall 1000
      let declared ← matchInvoice dearInvoice cheapOrder cheapNote 0
      pure (r.2.plans.map fun row => row.plan.matching.status, declared.status)) =
        Except.ok ([.matched], .mismatch) := by
    decide +kernel
  obtain ⟨⟨answer, t⟩, hcall, hrun⟩ := bind_eq_ok.1 hrun
  obtain ⟨declared, hdeclared, hrun⟩ := bind_eq_ok.1 hrun
  have hfacts := pure_eq_ok.1 hrun
  rw [Prod.mk.injEq] at hfacts
  obtain ⟨happlied, hstatus⟩ := hfacts
  obtain ⟨row, hrow, hmatched⟩ : ∃ row, t.plans = [] ++ [row] ∧ row.plan.matching.status = .matched := by
    cases hplans : t.plans with
    | nil =>
      rw [hplans] at happlied
      cases happlied
    | cons row rows =>
      rw [hplans] at happlied
      cases rows with
      | nil => exact ⟨row, rfl, (List.cons.inj happlied).1⟩
      | cons row' rows =>
        have := (List.cons.inj happlied).2
        cases this
  have hpayload : payload dearParser (dearArgs 1000) "fields" true = .ok dearInvoice ∧
      payload dearParser (dearArgs 1000) "purchase_order" false = .ok cheapOrder ∧
      payload dearParser (dearArgs 1000) "delivery_note" false = .ok cheapNote :=
    ⟨rfl, rfl, rfl⟩
  have hheld := h _ _ _ _ _ _ _ _ _ _ _ _ _ defaults 1000 row declared hcall rfl rfl hpayload.1 hpayload.2.1
    hpayload.2.2 hrow hdeclared
  rw [hheld.matched hmatched] at hstatus
  cases hstatus

end AgentPlatform.Documents
