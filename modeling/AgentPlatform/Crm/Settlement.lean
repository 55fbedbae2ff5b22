import AgentPlatform.Crm.Reconcile
import AgentPlatform.Engine.TaskStatus

/-!
# A settled task stays where it was

The settling transaction writes the step and nothing else. The task of an uncertain step is stored as
`uncertain`, and no task has two uncertain steps, so every settlement leaves a task that shows
`uncertain` over steps none of which is: the task is not active, and `claim` offers no step of it.

`Behind` is what engine operations and settlements keep: a task shows its steps, or it shows `uncertain`
although no step is.
-/

namespace AgentPlatform.Crm

open Outcome Engine Table Pipeline Runs

/-- A stored status: the summary of the steps, or an `uncertain` that a settlement left behind. -/
def Behind (status : Engine.Status) (states : List Engine.Status) : Prop :=
  status = summary states ∨ status = .uncertain ∧ .uncertain ∉ states

theorem Behind.of_uncertain {status : Engine.Status} {states : List Engine.Status} (h : Behind status states)
    (huncertain : .uncertain ∈ states) : status = .uncertain := by
  rcases h with hsummary | ⟨-, hnone⟩
  · rw [hsummary, summary_eq_uncertain.2 huncertain]
  · exact absurd huncertain hnone

/-- What engine operations and settlements keep. -/
structure Kept (db : Db) : Prop where
  orderly : Orderly db
  behind : InLine Behind db

theorem kept_empty : Kept {} where
  orderly := orderly_empty
  behind := fun _ ht => absurd ht List.not_mem_nil

/-! ### One settlement -/

section Settlement

variable {db db' : Db} {call : Call} {leadId receipt : Json} {answer : Answer} {r : StepRow}

theorem settle_cases (h : settle db call leadId receipt = .ok (db', answer)) :
    db' = settleRow db call receipt ∧
      ∃ r ∈ db.steps, r.tenant = call.tenant ∧ r.id = call.step ∧ r.status = .uncertain := by
  simp only [settle, bind_eq_ok, exists_unit, ensure_eq_ok, pure_eq_ok, Prod.mk.injEq,
    List.any_eq_true, Bool.and_eq_true, decide_eq_true_eq] at h
  obtain ⟨⟨r, hr, ⟨htenant, hid⟩, huncertain⟩, rfl, -⟩ := h
  exact ⟨rfl, r, hr, htenant, hid, huncertain⟩

theorem settleRow_moves (hwf : Wf db) (hr : r ∈ db.steps) (hid : r.id = call.step)
    (huncertain : r.status = .uncertain) :
    Moves (fun _ _ => False) db (settleRow db call receipt) := by
  refine moves_update rfl rfl rfl (fun _ => rfl) fun s hs hp => ?_
  simp only [Bool.and_eq_true, decide_eq_true_eq] at hp
  obtain rfl := hwf.steps.eq_of_key hs hr (hp.2.trans hid.symm)
  exact .settle huncertain (.inl rfl)

/-- The settled step was its task's only uncertain one. -/
theorem settleRow_states (ho : Orderly db) (hr : r ∈ db.steps) (htenant : r.tenant = call.tenant)
    (hid : r.id = call.step) (huncertain : r.status = .uncertain) (tenant : String) :
    .uncertain ∉ (settleRow db call receipt).states tenant r.task := by
  intro hmem
  obtain ⟨s', hs', -, htask, hstatus⟩ := mem_states.1 hmem
  obtain ⟨s, hs, hspec, ⟨-, rfl⟩ | ⟨hp, rfl⟩⟩ := row_update hs' fun _ => rfl
  · cases hstatus
  · have hsame : s'.id = r.id := by
      refine ho.sequential.one_opened ho.placed (ho.wf.board_eq hs) (ho.wf.board_eq hr) htask ?_ ?_
      · simp [StepRow.cell, hstatus, Status.opened]
      · simp [StepRow.cell, huncertain, Status.opened]
    obtain rfl := ho.wf.steps.eq_of_key hs hr hsame
    simp [htenant, hid] at hp

theorem Kept.stored (h : Kept db) (hr : r ∈ db.steps) (huncertain : r.status = .uncertain)
    {t : TaskRow} (ht : t ∈ db.tasks) (htask : t.id = r.task) : t.status = .uncertain := by
  obtain ⟨t', ht', hid, htenant⟩ := h.orderly.wf.owned r hr
  obtain rfl := h.orderly.wf.tasks.eq_of_key ht ht' (htask.trans hid.symm)
  refine (h.behind t ht).of_uncertain (mem_states.2 ⟨r, hr, htenant.symm, htask.symm, huncertain⟩)

theorem Kept.settle (h : Kept db) (hs : settle db call leadId receipt = .ok (db', answer)) :
    Kept db' := by
  obtain ⟨rfl, r, hr, htenant, hid, huncertain⟩ := settle_cases hs
  refine ⟨h.orderly.moves (settleRow_moves h.orderly.wf hr hid huncertain), fun t ht => ?_⟩
  by_cases htask : t.id = r.task
  · refine .inr ⟨h.stored hr huncertain ht htask, ?_⟩
    rw [htask]
    exact settleRow_states h.orderly hr htenant hid huncertain t.tenant
  · have hsame : (settleRow db call receipt).states t.tenant t.id = db.states t.tenant t.id := by
      refine states_update (f := fun r => { r with status := .succeeded, result := receipt })
        (fun _ => rfl) rfl fun s hs hp _ => ?_
      simp only [Bool.and_eq_true, decide_eq_true_eq] at hp
      obtain rfl := h.orderly.wf.steps.eq_of_key hs hr (hp.2.trans hid.symm)
      exact fun heq => htask heq.symm
    rw [hsame]
    exact h.behind t ht

end Settlement

/-! ### Runs -/

section Runs

variable {lib : Library} {P : Platform} {τs : List (Transition State Label)} {s t : State}

/-- What changes the database: an engine operation, or a settlement. -/
theorem Step.cases {l : Label} (h : Step lib P s l t) :
    (∃ op, l = .op op ∧ Engine.Step P s.db op t.db) ∨
    (∃ w env call leadId receipt, l = .settle w env ∧ s.workers w = .matched call leadId receipt ∧
      t.db = commit s.db (Crm.settle s.db call leadId receipt)) ∨ t.db = s.db := by
  unfold Step at h
  subst h
  cases l with
  | op op => exact .inl ⟨op, rfl, rfl⟩
  | settle w env =>
    dsimp only [State.after]
    split
    · rename_i call leadId receipt hstage
      exact .inr (.inl ⟨w, env, call, leadId, receipt, rfl, hstage, rfl⟩)
    · exact .inr (.inr rfl)
  | read | lookup =>
    refine .inr (.inr ?_)
    dsimp only [State.after]
    split <;> rfl
  | crash => exact .inr (.inr rfl)

theorem Step.kept {l : Label} (h : Kept s.db) (hs : Step lib P s l t) : Kept t.db := by
  rcases hs.cases with ⟨op, -, hop⟩ | ⟨w, env, call, leadId, receipt, -, -, hdb⟩ | hdb
  · obtain ⟨out, he, -⟩ := hop.effect
    exact ⟨he.orderly h.orderly, he.inLine (fun _ => .inl rfl) h.orderly h.behind⟩
  · rw [hdb]
    exact commit_keeps (p := Kept) h fun db' answer hsettle => h.settle hsettle
  · exact hdb ▸ h

/-- What the engine's own reconciliations leave: the task shows its steps, the step is nobody's, the
tenant is active, the actor has authority, and the next step can be claimed. -/
structure InOrder (env : Env) (call : Call) (r : StepRow) (db : Db) : Prop where
  status : ∀ t ∈ db.tasks, t.id = r.task → t.status = summary (db.states t.tenant t.id)
  unclaimed : r.claim = none ∧ r.lease = 0
  active : env.requireActive db call.tenant = .ok ()
  authority : env.requireAuthority call.tenant "web" call.actor = .ok ()
  next : ∀ n ∈ db.steps, n.task = r.task → n.status.pending = true →
    (∀ prev ∈ db.steps, prev.task = r.task → prev.spec.position < n.spec.position →
      prev.status = .succeeded) → (candidate? db call.tenant n.spec.device n).isSome = true

/-- **No settlement leaves its task in order.** In every run, whoever settles a step leaves its task
stored as `uncertain` with no uncertain step, and no step of the task is a candidate of any claim. -/
theorem settled_out_of_order (h : Run (Step lib P) {} τs s) {τ : Transition State Label}
    (hτ : τ ∈ τs) {w : ℕ} {env : Env} {call : Call} {leadId receipt : Json}
    (hlabel : τ.label = .settle w env) (hstage : τ.src.workers w = .matched call leadId receipt)
    (hsettled : (settle τ.src.db call leadId receipt).isOk = true) :
    ∃ r ∈ τ.dst.db.steps, r.tenant = call.tenant ∧ r.id = call.step ∧ r.status = .succeeded ∧
      ¬ InOrder env call r τ.dst.db ∧
      (∀ t ∈ τ.dst.db.tasks, t.id = r.task →
        t.status = .uncertain ∧ .uncertain ∉ τ.dst.db.states t.tenant t.id) ∧
      ∀ device, ∀ c ∈ candidates τ.dst.db call.tenant device, c.step.task ≠ r.task := by
  obtain ⟨hstep, hkept⟩ := h.always (I := fun s => Kept s.db) kept_empty (fun _ _ _ => Step.kept) hτ
  -- the database of the transition is the settled one
  have hdst : τ.dst.db = commit τ.src.db (settle τ.src.db call leadId receipt) := by
    unfold Step at hstep
    rw [hstep, hlabel]
    unfold State.after
    dsimp only
    rw [hstage]
    rfl
  obtain ⟨db', answer, hsettle⟩ : ∃ db' answer, settle τ.src.db call leadId receipt =
      .ok (db', answer) := by
    cases hx : settle τ.src.db call leadId receipt with
    | ok done => exact ⟨done.1, done.2, rfl⟩
    | error e =>
      rw [hx] at hsettled
      cases hsettled
  rw [hsettle, commit_ok] at hdst
  obtain ⟨rfl, r, hr, htenant, hid, huncertain⟩ := settle_cases hsettle
  have hwf := hkept.orderly.wf
  have hstored : ∀ t ∈ τ.dst.db.tasks, t.id = r.task →
      t.status = .uncertain ∧ .uncertain ∉ τ.dst.db.states t.tenant t.id := by
    intro t ht htask
    rw [hdst] at ht ⊢
    rw [htask]
    exact ⟨hkept.stored hr huncertain ht htask,
      settleRow_states hkept.orderly hr htenant hid huncertain t.tenant⟩
  refine ⟨{ r with status := .succeeded, result := receipt }, ?_, htenant, hid, rfl, ?_, hstored, ?_⟩
  · rw [hdst]
    exact mem_update_of_pos hr (by simp [htenant, hid])
  · intro horder
    obtain ⟨t, ht, htask, -⟩ := hwf.owned r hr
    have ht' : t ∈ τ.dst.db.tasks := hdst ▸ ht
    obtain ⟨hstatus, hnone⟩ := hstored t ht' htask
    have hsummary := horder.status t ht' htask
    rw [hstatus] at hsummary
    exact hnone (summary_eq_uncertain.1 hsummary.symm)
  · intro device c hc htask
    have hlive := candidates_live hc
    have hactive := hlive.active
    rw [(hstored c.row hlive.row (hlive.owner.trans htask)).1] at hactive
    cases hactive

end Runs

/-! ### A settled lead -/

section Sample

def sampleLibrary : Library where
  sha256 := id
  str := Json.encode
  repr := Json.quote
  upper := String.toUpper
  isWord := fun c => c.isAlphanum || c == '_'
  digits := fun text =>
    if isRunOf Char.isDigit 1 64 text then some (.ok (ofDigits text.toList)) else none
  wholePrice := fun _ => none
  urlparse := fun url => .ok (String.ofList (url.toList.takeWhile (· != ':')),
    some (String.ofList ((url.toList.drop 8).takeWhile (· != '/'))))

def textSchema (maximum : ℕ) : Schema := .mk .string none [] [] none 0 100 0 maximum 0 0

/-- The fields of `crm.lead.create` the sample uses. -/
def leadSchema : Schema :=
  .mk .object none [("connection", textSchema 128),
    ("request", .mk .object none [("title", textSchema 256), ("phone", textSchema 32)] ["title"] none
      0 100 0 20000 0 0),
    ("plan_fingerprint", textSchema 64)] ["connection", "request", "plan_fingerprint"] none 0 100 0
    20000 0 0

def crmPlatform : Platform where
  registry := [⟨"note", .read, emptySchema, false⟩, ⟨"crm.lead.create", .write, leadSchema, false⟩]
  sha256 := id

/-- The second of the reading, and whether the tenant's owner may still act. -/
def crmEnv (second : ℕ) (authorized : Bool := true) : Env where
  policy := fun _ _ => .ok (.obj [("approval", .arr []), ("ladder", .str "human_assisted"),
    ("tools", .arr [.str "note", .str "crm.lead.create"])])
  authority := fun _ _ _ _ => if authorized then .ok () else .error (.forbidden "Authority revoked")
  bindings := fun _ _ _ _ => .ok []
  now := seconds second
  parentNow := fun _ => seconds second

def leadArgs : Json :=
  .obj [("connection", .str "crm"),
    ("request", .obj [("title", .str "Order 7"), ("phone", .str "+998901234567")]),
    ("plan_fingerprint", .str "f")]

/-- A lead to create, then a note; the worker does not learn what became of the lead. -/
def leadOps : List Op :=
  [.submit (crmEnv 0) "acme" "web" "k1" "sales" [.obj [("tool", .str "crm.lead.create"),
      ("args", leadArgs)], .obj [("tool", .str "note")]] "dana",
    .approve (crmEnv 1) "acme" 1 "dana" "approved" "owner",
    .claim (crmEnv 2) "acme" "w1" "" 60,
    .finish (crmEnv 3) "acme" 1 (some 3) (.obj []) .uncertain "timeout"]

def crmConfig : Json :=
  .obj [("connections", .obj [("crm", .obj [("driver", .str "bitrix24"),
    ("host", .str "acme.bitrix24.uz"), ("allowed_hosts", .arr [.str "acme.bitrix24.uz"]),
    ("token_env", .str "B24_TOKEN")])])]

/-- Bitrix24 lists one lead. -/
def oneLead : Json :=
  .obj [("result", .arr [.obj [("ID", .str "41"), ("TITLE", .str "Order 7")]])]

def leadCall : Call := ⟨"acme", 1, "dana"⟩

/-- The reconciliation; the owner loses the right to act, and the tenant is frozen, while Bitrix24
answers. -/
def leadLabels : List Label :=
  leadOps.map .op ++ [.read 0 (crmEnv 4) leadCall,
    .lookup 0 (fun _ => "secret") (.ok crmConfig) (.ok oneLead),
    .op (.freeze (crmEnv 5) "acme" true "dana")]

/-- The transition of `l` after some labels. -/
def sampleLast (labels : List Label) (l : Label) : Transition State Label :=
  ⟨labels.foldl (State.after sampleLibrary crmPlatform) {}, l,
    (labels.foldl (State.after sampleLibrary crmPlatform) {}).after sampleLibrary crmPlatform l⟩

theorem sample_run (labels : List Label) (l : Label) :
    ∃ τs, Run (Step sampleLibrary crmPlatform) {} τs (sampleLast labels l).dst ∧
      sampleLast labels l ∈ τs := by
  have hrun : Run (Step sampleLibrary crmPlatform) {}
      (trace (State.after sampleLibrary crmPlatform) {} labels)
      (labels.foldl (State.after sampleLibrary crmPlatform) {}) := Run.nil.calls labels
  exact ⟨_, hrun.snoc rfl, List.mem_append_right _ List.mem_cons_self⟩

/-- The settling transition. -/
def leadSettled : Transition State Label := sampleLast leadLabels (.settle 0 (crmEnv 6 false))

/-- A settlement of the step, and of a lead that can be settled. -/
def leadMatched : Stage → Bool
  | .matched call leadId receipt => decide (call.tenant = "acme") && decide (call.step = 1) &&
    decide (call.actor = "dana") && (settle leadSettled.src.db call leadId receipt).isOk
  | _ => false

theorem leadSettled_stage : ∃ leadId receipt,
    leadSettled.src.workers 0 = .matched leadCall leadId receipt ∧
      (settle leadSettled.src.db leadCall leadId receipt).isOk = true := by
  have hmatched : leadMatched (leadSettled.src.workers 0) = true := by decide +kernel
  unfold leadMatched at hmatched
  split at hmatched
  · rename_i call leadId receipt hstage
    simp only [Bool.and_eq_true, decide_eq_true_eq] at hmatched
    obtain ⟨⟨⟨htenant, hstep⟩, hactor⟩, hok⟩ := hmatched
    obtain rfl : call = leadCall := by
      cases call
      simp_all [leadCall]
    exact ⟨leadId, receipt, hstage, hok⟩
  · cases hmatched

theorem settled_out_of_order_sample :
    ∃ r ∈ leadSettled.dst.db.steps, r.id = 1 ∧ ¬ InOrder (crmEnv 6 false) leadCall r
      leadSettled.dst.db := by
  obtain ⟨τs, hrun, hmem⟩ : ∃ τs, Run (Step sampleLibrary crmPlatform) {} τs leadSettled.dst ∧
      leadSettled ∈ τs := sample_run _ _
  obtain ⟨leadId, receipt, hstage, hok⟩ := leadSettled_stage
  have hlabel : leadSettled.label = .settle 0 (crmEnv 6 false) := rfl
  obtain ⟨r, hr, -, hid, -, hnot, -⟩ := settled_out_of_order hrun hmem hlabel hstage hok
  exact ⟨r, hr, hid, hnot⟩

/-- The lead was found, so its step is settled: the tenant is frozen, the actor's authority is gone, and
the task shows `uncertain` over a succeeded and a queued step, out of the reach of any claim. -/
theorem reconciled_task_stuck :
    leadSettled.src.db.states "acme" 0 = [.uncertain, .queued] ∧
    (leadSettled.dst.db.tasks.map fun t =>
      (t.status, leadSettled.dst.db.states t.tenant t.id,
        summary (leadSettled.dst.db.states t.tenant t.id))) =
      [(.uncertain, [.succeeded, .queued], .queued)] ∧
    (crmEnv 6 false).requireActive leadSettled.dst.db "acme" ≠ .ok () ∧
    (crmEnv 6 false).requireAuthority "acme" "web" "dana" ≠ .ok () ∧
    (candidates leadSettled.dst.db "acme" "").length = 0 ∧
    ∀ r ∈ leadSettled.dst.db.steps, ¬ InOrder (crmEnv 6 false) leadCall r leadSettled.dst.db := by
  have hactive : (crmEnv 6 false).requireActive leadSettled.dst.db "acme" ≠ .ok () := by
    intro h
    exact absurd (congrArg Except.isOk h) (by decide +kernel)
  have hauthority : (crmEnv 6 false).requireAuthority "acme" "web" "dana" ≠ .ok () := by
    intro h
    exact absurd (congrArg Except.isOk h) (by decide +kernel)
  refine ⟨by decide +kernel, by decide +kernel, hactive, hauthority, by decide +kernel, ?_⟩
  intro r _ horder
  exact hauthority horder.authority

end Sample

end AgentPlatform.Crm
