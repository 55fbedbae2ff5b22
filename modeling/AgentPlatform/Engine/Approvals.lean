import AgentPlatform.Engine.Frames
import AgentPlatform.Engine.Sequencing

/-!
# What an approval binds

A step that needs an approval is handed out against the approved, unexpired approval of exactly this
step, whose fingerprint is the one the step has had since it was submitted and has again under the
current policy; the approval is consumed in the same transaction (`Authorises`). No approval is
consumed twice.

Whether the approver is independent of the task's creator is only asked when the approval is decided,
under the policy of that moment. `Independent` names the decisions after which the two may coincide
although the policy the fingerprint binds asks for independent approval.
-/

namespace AgentPlatform.Engine

open Outcome Table Pipeline Runs

/-! ### The fingerprint of a step -/

section Fingerprints

variable {P : Platform} {env : Env} {db : Db} {tenant agent : String}

/-- What the validation of a step checked and returned. -/
theorem validatedStep_cases {policy : Json} {o : Option Origin} {step : Json} {v : Validated}
    (h : validatedStep P env tenant agent policy o step = .ok v) :
    toolName step = .ok v.tool ∧ v.args = step.getD "args" (.obj []) ∧
      stepDevice step = .ok v.device ∧
      (∃ tool, P.registry.get v.tool = .ok tool ∧ v.risk = tool.risk) ∧
      v.needed = approvalNeeded policy (o.any fun o => o.channel = operatorChannel) v.tool v.args
        v.risk o ∧
      ∃ bindings, v.fingerprint =
        (Canonical.mk v.tool v.args v.risk v.needed v.device policy bindings).fingerprint P := by
  simp only [validatedStep, bind_eq_ok, exists_unit, ensure_eq_ok] at h
  obtain ⟨-, name, hname, tool, htool, -, -, -, h⟩ := h
  have hrest : ∃ bindings device, stepDevice step = .ok device ∧
      (⟨name, step.getD "args" (.obj []), tool.risk,
        approvalNeeded policy (o.any fun o => o.channel = operatorChannel) name
          (step.getD "args" (.obj [])) tool.risk o,
        (Canonical.mk name (step.getD "args" (.obj [])) tool.risk
          (approvalNeeded policy (o.any fun o => o.channel = operatorChannel) name
            (step.getD "args" (.obj [])) tool.risk o) device policy bindings).fingerprint P,
        device⟩ : Validated) = v := by
    split at h
    · simp only [bind_eq_ok, exists_unit, ensure_eq_ok, pure_eq_ok] at h
      obtain ⟨_, -, -, bindings, -, device, hdevice, -, -, hv⟩ := h
      exact ⟨bindings, device, hdevice, hv⟩
    · simp only [bind_eq_ok, exists_unit, ensure_eq_ok, pure_eq_ok] at h
      obtain ⟨bindings, -, device, hdevice, -, -, hv⟩ := h
      exact ⟨bindings, device, hdevice, hv⟩
  obtain ⟨bindings, device, hdevice, rfl⟩ := hrest
  exact ⟨hname, rfl, hdevice, ⟨tool, htool, rfl⟩, rfl, bindings, rfl⟩

theorem validated_cases {steps : List Json} {o : Option Origin} {plan : List Validated}
    (h : validated P env tenant agent steps o = .ok plan) :
    ∃ policy, env.policy tenant agent = .ok policy ∧
      List.Forall₂ (fun step v => validatedStep P env tenant agent policy o step = .ok v) steps
        plan := by
  simp only [validated, bind_eq_ok, exists_unit, ensure_eq_ok, mapM_eq_ok] at h
  obtain ⟨policy, hpolicy, -, -, -, hplan⟩ := h
  exact ⟨policy, hpolicy, hplan⟩

variable {c : Candidate}

/-- `claim` validates exactly the step's tool, arguments and device again, under the current policy
and against the origin of its task. -/
theorem revalidate_cases {fingerprint : String} (h : revalidate P env db tenant c = .ok (.ok fingerprint)) :
    ∃ policy o tool bindings, env.policy tenant c.row.agent = .ok policy ∧
      taskOrigin db tenant c = .ok o ∧ P.registry.get c.step.spec.tool = .ok tool ∧
      fingerprint = (Canonical.mk c.step.spec.tool c.step.spec.args tool.risk
        (approvalNeeded policy (o.any fun o => o.channel = operatorChannel) c.step.spec.tool
          c.step.spec.args tool.risk o) c.step.spec.device policy bindings).fingerprint P := by
  unfold revalidate at h
  split at h
  · split at h
    · cases h
    · split at h <;> cases h
  · split at h
    · split at h
      · cases h
      · split at h <;> cases h
    · rename_i v hv
      simp only [Except.ok.injEq] at h
      subst h
      obtain ⟨o, ho, hvalidated⟩ := bind_eq_ok.1 hv
      obtain ⟨policy, hpolicy, hplan⟩ := validated_cases hvalidated
      obtain ⟨hstep, -⟩ := List.forall₂_cons.1 hplan
      obtain ⟨hname, hargs, hdevice, ⟨tool, htool, hrisk⟩, hneeded, bindings, hfingerprint⟩ :=
        validatedStep_cases hstep
      have hname' : c.step.spec.tool = v.tool := Except.ok.inj hname
      have hargs' : v.args = c.step.spec.args := hargs
      have hdevice' : c.step.spec.device = v.device := by
        change (ensure (c.step.spec.device.length ≤ 128) (Err.valueError "Invalid device") >>=
          fun _ => pure c.step.spec.device) = Except.ok v.device at hdevice
        simp only [bind_eq_ok, exists_unit, pure_eq_ok] at hdevice
        exact hdevice.2
      refine ⟨policy, o, tool, bindings, hpolicy, ho, hname' ▸ htool, ?_⟩
      rw [hfingerprint, hneeded, hrisk, hname', hargs', hdevice']
    · cases h

/-- The approval behind a granted candidate. -/
theorem reviewApproval_granted (h : reviewApproval env db tenant c = .ok .granted) :
    ∃ a ∈ db.approvals, a.step = c.step.id ∧ a.status = .approved ∧ env.now < a.expires ∧
      a.fingerprint = c.step.spec.fingerprint := by
  unfold reviewApproval at h
  split at h
  · cases h
  · rename_i a ha
    have hid : a.step = c.step.id := by
      have hfound := List.find?_some ha
      simp only [Bool.and_eq_true, decide_eq_true_eq] at hfound
      exact hfound.2
    split at h
    · cases h
    · rename_i hvalid
      split at h
      · cases h
      · rename_i hstatus
        simp only [not_or, not_not, not_le] at hvalid
        exact ⟨a, List.mem_of_find?_eq_some ha, hid, not_not.1 hstatus, hvalid.2, hvalid.1⟩

theorem review_granted (h : review P env db tenant c = .ok .granted) :
    env.requireTaskParent db tenant c.step.task = .ok () ∧
      revalidate P env db tenant c = .ok (.ok c.step.spec.fingerprint) ∧
      (c.step.spec.approvalNeeded = true → reviewApproval env db tenant c = .ok .granted) := by
  unfold review at h
  split at h
  · split at h <;> cases h
  · rename_i hparent
    split at h
    · cases h
    · cases h
    · rename_i fingerprint hfingerprint
      split at h
      · cases h
      · rename_i hsame
        rw [not_not.1 hsame] at hfingerprint
        refine ⟨hparent, hfingerprint, fun hneeded => ?_⟩
        rwa [if_pos hneeded] at h

end Fingerprints

/-! ### What an operation does to the approvals -/

/-- How an approval comes to be in the database after an operation. -/
inductive Ruled (P : Platform) (db : Db) (op : Op) (out : Reply) (db' : Db) (a : ApprovalRow) : Prop
  | kept (hmem : a ∈ db.approvals)
  | closed (hstatus : a.status = .pending ∨ a.status = .rejected)
  | decided {env : Env} {tenant role : String} {s : StepRow} {t : TaskRow}
      (hstatus : a.status = .approved)
      (hop : op = .approve env tenant s.id a.actor "approved" role) (hs : s ∈ db.steps)
      (hid : s.id = a.step) (ht : t ∈ db.tasks) (htask : t.id = s.task)
  | preapproved {env : Env} {tenant channel conversationId text role key agent : String}
      {s : StepRow} {t : TaskRow} {c : Canonical} (hstatus : a.status = .approved)
      (hop : op = .operatorReply env tenant channel conversationId text a.actor role key agent)
      (hpolicy : env.policy tenant agent = .ok c.policy)
      (hindependent : independentApproval c.policy = false) (htool : c.tool = channel ++ ".send")
      (hargs : c.args = replyArgs channel conversationId text) (hs : s ∈ db'.steps)
      (hid : s.id = a.step) (ht : t ∈ db'.tasks) (htask : t.id = s.task)
      (hfingerprint : s.spec.fingerprint = c.fingerprint P)
  | consumed {spec : StepSpec} {token : Uuid} (hstatus : a.status = .consumed)
      (hout : out = .claimed spec token) (hid : spec.id = a.step)

section Rulings

variable {P : Platform} {env : Env} {db db' : Db} {tenant : String} {op : Op} {out : Reply}

variable {a : ApprovalRow}

theorem rejected_or_kept {p : ApprovalRow → Bool} {actor : ApprovalRow → String}
    (ha : a ∈ Table.update p (fun a => { a with status := .rejected, actor := actor a })
      db.approvals) : a ∈ db.approvals ∨ a.status = .rejected := by
  obtain ⟨b, hb, rfl⟩ := mem_update.1 ha
  split
  · exact .inr rfl
  · exact .inl hb

theorem refreshAll_approvals {tasks : List Uuid} :
    (db.refreshAll tenant tasks).approvals = db.approvals := by
  unfold Db.refreshAll
  induction tasks generalizing db with
  | nil => rfl
  | cons task tasks ih => exact ih

theorem mem_newApprovals {first : Uuid} {plan : List Validated} {approver : String} {now : Time}
    (ha : a ∈ newApprovals tenant first plan approver now) :
    ∃ (i : ℕ) (v : Validated), plan[i]? = some v ∧ a.step = first + i ∧ a.actor = approver ∧
      a.status = if approver = "" then .pending else .approved := by
  unfold newApprovals at ha
  obtain ⟨⟨step, v⟩, hmem, hsome⟩ := List.mem_filterMap.1 ha
  obtain ⟨i, hi, heq⟩ := List.mem_mapIdx.1 hmem
  obtain ⟨rfl, rfl⟩ := Prod.mk.inj heq
  simp only [Option.ite_none_right_eq_some, Option.some.injEq] at hsome
  obtain ⟨-, rfl⟩ := hsome
  exact ⟨i, plan[i], List.getElem?_eq_getElem hi, rfl, rfl, rfl⟩

/-- The review of candidates only rejects approvals. -/
theorem reviewed_approvals (device : String) {cs rest : List Candidate} {db₁ : Db} (ho : Orderly db)
    (hskipped : Skipped P env tenant (db.expireLeases tenant env.now) cs db₁)
    (hcs : (cs ++ rest).Sublist (candidates (db.expireLeases tenant env.now) tenant device)) :
    ∀ a ∈ db₁.approvals, a ∈ db.approvals ∨ a.status = .rejected := by
  refine (reviewed_induct device rest ho.wf ho.placed hskipped hcs
    (p := fun db₁ => ∀ a ∈ db₁.approvals, a ∈ db.approvals ∨ a.status = .rejected) ?_ ?_).2.1
  · exact expireLeases_induct (p := fun db₁ => ∀ a ∈ db₁.approvals, a ∈ db.approvals ∨
      a.status = .rejected) ho.wf (fun a ha => .inl ha) fun _ _ _ _ _ _ h => h
  · intro db₁ c _ v _ _ _ h a ha
    cases v with
    | inactive =>
      rcases rejected_or_kept ha with hb | hb
      · exact h a hb
      · exact .inr hb
    | failed | waiting | granted => exact h a ha

theorem Ruled.of_kept_or_rejected (h : a ∈ db.approvals ∨ a.status = .rejected) :
    Ruled P db op out db' a := by
  rcases h with h | h
  · exact .kept h
  · exact .closed (.inr h)

/-- The approval of an operator's reply, decided by the operator. -/
theorem preapproved_ruled {channel conversationId text role key agent fingerprint : String} {policy : Json}
    {o : Origin} {plan : List Validated} (hpolicy : env.policy tenant agent = .ok policy)
    (hplan : validated P env tenant agent (replySteps channel conversationId text) (some o) = .ok plan)
    (hindependent : independentApproval policy = false) (hstatus : a.status = .approved) {i : ℕ}
    {v : Validated} (hi : plan[i]? = some v) (hstep : a.step = db.drawn + 1 + i) :
    Ruled P db (.operatorReply env tenant channel conversationId text a.actor role key agent) out
      (db.insertTask tenant operatorChannel (operatorReplyPrefix ++ key) fingerprint agent a.actor plan
        a.actor env.now) a := by
  obtain ⟨policy', hpolicy', hforall⟩ := validated_cases hplan
  obtain rfl : policy = policy' := Except.ok.inj (hpolicy.symm.trans hpolicy')
  -- the reply is one step
  obtain ⟨w, hw, rest, hrest, rfl⟩ : ∃ w, validatedStep P env tenant agent policy (some o)
      (.obj [("tool", .str (channel ++ ".send")), ("args", replyArgs channel conversationId text)]) =
        .ok w ∧ ∃ rest, List.Forall₂ _ [] rest ∧ plan = w :: rest := by
    cases hforall with
    | cons hstep hrest => exact ⟨_, hstep, _, hrest, rfl⟩
  obtain rfl := List.forall₂_nil_left_iff.1 hrest
  obtain ⟨htool, hargs, -, -, -, bindings, hfingerprint⟩ := validatedStep_cases hw
  obtain ⟨rfl, rfl⟩ : i = 0 ∧ w = v := by
    cases i with
    | zero => exact ⟨rfl, Option.some.inj hi⟩
    | succ i => simp at hi
  obtain ⟨status, htask⟩ := insertTask_row db tenant operatorChannel (operatorReplyPrefix ++ key)
    fingerprint agent a.actor [w] a.actor env.now
  refine .preapproved hstatus rfl hpolicy hindependent (Except.ok.inj htool).symm hargs
    (List.mem_append_right _ (mem_newSteps.2 ⟨0, w, rfl, rfl⟩)) hstep.symm htask rfl hfingerprint

/-- Every approval after an operation is ruled. -/
theorem Effect.ruled (ho : Orderly db) (he : Effect P db op out db') (ha : a ∈ db'.approvals) :
    Ruled P db op out db' a := by
  cases he with
  | same => exact .kept ha
  | submitted =>
    rcases List.mem_append.1 ha with ha | ha
    · exact .kept ha
    · obtain ⟨i, v, -, -, -, hstatus⟩ := mem_newApprovals ha
      exact .closed (.inl hstatus)
  | @replied env tenant channel conversationId text actor role key agent fingerprint policy o plan
      hpolicy hplan hnew =>
    rcases List.mem_append.1 ha with ha | ha
    · exact .kept ha
    · obtain ⟨i, v, hi, hstep, hactor, hstatus⟩ := mem_newApprovals ha
      by_cases happrover : (if independentApproval policy = true then "" else actor) = ""
      · rw [if_pos happrover] at hstatus
        exact .closed (.inl hstatus)
      · rw [if_neg happrover] at hstatus
        have hindependent : independentApproval policy = false := by
          by_contra hind
          exact happrover (if_pos (by simpa using hind))
        rw [hindependent] at hactor
        obtain rfl : a.actor = actor := hactor
        rw [hindependent]
        exact preapproved_ruled hpolicy hplan hindependent hstatus hi hstep
  | @approved env tenant actor decision role b s t policy hdecision hb hs ht =>
    obtain ⟨b', hb', rfl⟩ := mem_update.1 ha
    split
    · rename_i hp
      simp only [Bool.and_eq_true, decide_eq_true_eq] at hp
      rcases hdecision with rfl | rfl
      · refine .decided rfl rfl hs hp.2.symm (List.mem_of_find?_eq_some ht) ?_
        simpa using List.find?_some ht
      · exact .closed (.inr rfl)
    · exact .kept hb'
  | @unclaimed env tenant worker device leaseSeconds cs _ hcs hskipped =>
    have hsub : (cs ++ []).Sublist (candidates (db.expireLeases tenant env.now) tenant device) := by
      rcases hcs with rfl | rfl
      · exact List.nil_sublist _
      · exact (List.append_nil _).symm ▸ List.Sublist.refl _
    exact .of_kept_or_rejected (reviewed_approvals device ho hskipped hsub a ha)
  | @claimed env tenant worker device leaseSeconds skipped rest c db₁ hcs hskipped hreview =>
    have hsub : (skipped ++ c :: rest).Sublist
        (candidates (db.expireLeases tenant env.now) tenant device) := by rw [hcs]
    have hkept := reviewed_approvals device ho hskipped hsub
    have hmem : a ∈ (db₁.consume c).approvals := ha
    unfold Db.consume at hmem
    split at hmem
    · obtain ⟨b, hb, hcase⟩ := mem_update.1 hmem
      split at hcase
      · rename_i hp
        obtain rfl := hcase
        exact .consumed rfl rfl (of_decide_eq_true hp).symm
      · obtain rfl := hcase
        exact .of_kept_or_rejected (hkept b hb)
    · exact .of_kept_or_rejected (hkept a hmem)
  | froze =>
    unfold Db.freezeSteps at ha
    rw [refreshAll_approvals] at ha
    exact .kept ha
  | cancelled => exact .of_kept_or_rejected (rejected_or_kept ha)
  | @enrolled env tenant device actor =>
    have hmem : a ∈ (db.detach tenant device actor).approvals := ha
    unfold Db.detach at hmem
    rw [refreshAll_approvals] at hmem
    exact .of_kept_or_rejected (rejected_or_kept hmem)
  | @stopped tenant run task status status' reason actor linked _ =>
    have hmem : a ∈ (stopTask db tenant task linked status reason actor).1.approvals := ha
    have hsame : ∀ db' : Db, db'.approvals = db.approvals → a ∈ (db'.rejectApprovals tenant
        ((db'.steps.filter fun s => decide (s.tenant = tenant) && decide (s.task = task)).map
          StepRow.id) (some actor)).approvals → a ∈ db.approvals ∨ a.status = .rejected := by
      intro db' happrovals hmem
      rw [← happrovals]
      exact rejected_or_kept hmem
    refine .of_kept_or_rejected (hsame _ ?_ hmem)
    split <;> rfl
  | finished | reconciled | provided | resumed | ended | elsewhere => exact .kept ha

end Rulings

/-! ### The approval behind a step that is handed out -/

/-- The approval `a` authorises the step `spec` of the task `t` in a transition by `claim`. -/
structure Authorises (P : Platform) (env : Env) (τ : Transition Db Op) (spec : StepSpec) (t : TaskRow)
    (policy : Json) (a : ApprovalRow) : Prop where
  label : ∃ worker device leaseSeconds, τ.label = .claim env spec.tenant worker device leaseSeconds
  row : a ∈ τ.src.approvals
  step : a.step = spec.id
  approved : a.status = .approved
  unexpired : env.now < a.expires
  fingerprint : a.fingerprint = spec.fingerprint
  task : t ∈ τ.src.tasks ∧ t.id = spec.task
  read : env.policy spec.tenant t.agent = .ok policy
  current : ∃ risk needed bindings, spec.fingerprint =
    (Canonical.mk spec.tool spec.args risk needed spec.device policy bindings).fingerprint P
  consumed : ∀ a' ∈ τ.dst.approvals, a'.step = spec.id → a'.status = .consumed

/-- The approvals of a step are consumed in a transition. -/
def Consumes (id : Uuid) (τ : Transition Db Op) : Prop :=
  (∀ a ∈ τ.src.approvals, a.step = id → a.status ≠ .consumed) ∧
    ∃ a ∈ τ.dst.approvals, a.step = id ∧ a.status = .consumed

instance (id : Uuid) : DecidablePred (Consumes id) := fun _ => by
  unfold Consumes
  infer_instance

section Steps

variable {P : Platform} {db db' : Db} {op : Op} {out : Reply}

/-- What `claim` found about the step it hands out: the candidate `c`, reviewed in `db₁`, is the step
with the row of its task `t`. -/
structure Granted (P : Platform) (env : Env) (db : Db) (spec : StepSpec) (db₁ : Db) (c : Candidate)
    (t : TaskRow) : Prop where
  step : c.step.spec = spec
  review : review P env db₁ spec.tenant c = .ok .granted
  task : t ∈ db.tasks ∧ t.id = spec.task
  row : ∃ status, c.row = { t with status := status }
  events : db₁.events = db.events
  runs : db₁.runs = db.runs ∧ db₁.agentTurns = db.agentTurns
  approvals : ∀ a ∈ db₁.approvals, a ∈ db.approvals ∨ a.status = .rejected

variable {spec : StepSpec} {token : Uuid}

theorem Effect.granted (ho : Orderly db) (he : Effect P db op (.claimed spec token) db') :
    ∃ env worker device leaseSeconds db₁ c t,
      op = .claim env spec.tenant worker device leaseSeconds ∧ Granted P env db spec db₁ c t ∧
        db' = db₁.start spec.tenant c worker (env.now + seconds leaseSeconds) := by
  cases he with
  | same _ hout => exact absurd rfl (hout spec token)
  | @claimed env tenant worker device leaseSeconds skipped rest c db₁ hcs hskipped hreview hfrozen =>
    have hsub : (skipped ++ c :: rest).Sublist
        (candidates (db.expireLeases tenant env.now) tenant device) := by rw [hcs]
    have hreviewed : Wf db₁ ∧ Moves (fun _ _ => True) db db₁ ∧ ∀ d ∈ c :: rest, Live db₁ tenant d :=
      reviewed_moves device (c :: rest) ho.wf ho.placed hskipped hsub fun _ _ _ _ => trivial
    obtain ⟨hwf₁, hmoves, hlive⟩ := hreviewed
    have hc := hlive c List.mem_cons_self
    have htenant : c.step.spec.tenant = tenant := hc.tenant
    have he : Effect P db (.claim env tenant worker device leaseSeconds)
        (.claimed c.step.spec db₁.drawn) _ := .claimed hcs hskipped hreview hfrozen
    obtain ⟨⟨s, hs, hspec, -⟩, -⟩ := he.handed ho
    -- the task's row before the call differs at most in its status
    obtain ⟨t, ht, htask, -⟩ := ho.wf.owned s hs
    obtain ⟨status, ht₁⟩ := hmoves.task ht
    have htask' : t.id = c.step.task := htask.trans (congrArg StepSpec.task hspec)
    have hrow := hwf₁.tasks.eq_of_key hc.row ht₁ (hc.owner.trans htask'.symm)
    refine ⟨env, worker, device, leaseSeconds, db₁, c, t, by rw [htenant], ⟨rfl, ?_, ⟨ht, htask'⟩,
      ⟨status, hrow⟩, ?_, ⟨?_, ?_⟩, fun a ha => reviewed_approvals device ho hskipped hsub a ha⟩,
      by rw [htenant]⟩
    · rw [htenant]
      exact hreview
    · exact (events_unmoved.skipped hskipped).trans (events_unmoved.expireLeases _ _ _)
    · exact (runs_unmoved.skipped hskipped).trans (runs_unmoved.expireLeases _ _ _)
    · exact (agentTurns_unmoved.skipped hskipped).trans (agentTurns_unmoved.expireLeases _ _ _)

theorem Effect.parent (ho : Orderly db) (he : Effect P db op (.claimed spec token) db') :
    ∃ env : Env, env.requireTaskParent db spec.tenant spec.task = .ok () := by
  obtain ⟨env, worker, device, leaseSeconds, db₁, c, t, rfl, hgranted, rfl⟩ := he.granted ho
  obtain rfl := hgranted.step
  obtain ⟨hparent, -⟩ := review_granted hgranted.review
  refine ⟨env, ?_⟩
  unfold Env.requireTaskParent at hparent ⊢
  rw [hgranted.runs.1, hgranted.runs.2] at hparent
  exact hparent

/-- A step that needs an approval is handed out against its approval. -/
theorem Effect.authorises (ho : Orderly db) (he : Effect P db op (.claimed spec token) db')
    (hneeded : spec.approvalNeeded = true) :
    ∃ env t policy a, Authorises P env ⟨db, op, db'⟩ spec t policy a := by
  obtain ⟨env, worker, device, leaseSeconds, db₁, c, t, rfl, hgranted, rfl⟩ := he.granted ho
  obtain rfl := hgranted.step
  obtain ⟨-, hfingerprint, happroval⟩ := review_granted hgranted.review
  obtain ⟨policy, o, tool, bindings, hpolicy, -, -, hcurrent⟩ := revalidate_cases hfingerprint
  obtain ⟨a, ha, hid, hstatus, hexpires, hsame⟩ := reviewApproval_granted (happroval hneeded)
  obtain ⟨status, hrow⟩ := hgranted.row
  rw [hrow] at hpolicy
  have hrow_a : a ∈ db.approvals := by
    rcases hgranted.approvals a ha with ha | hrejected
    · exact ha
    · rw [hstatus] at hrejected
      cases hrejected
  refine ⟨env, t, policy, a, ⟨_, _, _, rfl⟩, hrow_a, hid, hstatus, hexpires, hsame, hgranted.task,
    hpolicy, ⟨_, _, bindings, hcurrent⟩, fun a' ha' hstep => ?_⟩
  have hmem : a' ∈ (db₁.consume c).approvals := ha'
  unfold Db.consume at hmem
  rw [if_pos hneeded] at hmem
  obtain ⟨b, -, hcase⟩ := mem_update.1 hmem
  split at hcase
  · obtain rfl := hcase
    rfl
  · rename_i hp
    obtain rfl := hcase
    exact absurd (decide_eq_true hstep) hp

theorem Effect.handed_of_consumes (ho : Orderly db) (he : Effect P db op out db') {id : Uuid}
    (hc : Consumes id ⟨db, op, db'⟩) : ∃ spec token, out = .claimed spec token ∧ spec.id = id := by
  obtain ⟨hnone, a, ha, rfl, hstatus⟩ := hc
  cases he.ruled ho ha with
  | kept hmem => exact absurd hstatus (hnone a hmem rfl)
  | closed h => rcases h with h | h <;> rw [hstatus] at h <;> cases h
  | decided h | preapproved h => rw [hstatus] at h; cases h
  | consumed _ hout hid => exact ⟨_, _, hout, hid⟩

/-! ### Independence -/

/-- The fingerprint was taken under a policy that asks for independent approval. -/
def Bound (P : Platform) (fingerprint : String) : Prop :=
  ∃ c : Canonical, c.fingerprint P = fingerprint ∧ independentApproval c.policy = true

/-- The operation is not the approval, by the creator of its task, of a step whose fingerprint was
taken under a policy that asks for independent approval: neither by `approve`, nor by an operator's
reply that approves itself. -/
def Independent (P : Platform) (db : Db) : Op → Prop
  | .approve _ _ step actor decision _ => decision = "approved" → ∀ s ∈ db.steps, s.id = step →
    ∀ t ∈ db.tasks, t.id = s.task → t.actor = actor → ¬ Bound P s.spec.fingerprint
  | .operatorReply env tenant channel conversationId text _ _ _ agent =>
    ∀ c : Canonical, env.policy tenant agent = .ok c.policy → independentApproval c.policy = false →
      c.tool = channel ++ ".send" → c.args = replyArgs channel conversationId text →
        ¬ Bound P (c.fingerprint P)
  | _ => True

/-- Where the fingerprint asks for it, the approver is not the creator of the task. -/
def Impartial (P : Platform) (db : Db) : Prop :=
  ∀ a ∈ db.approvals, a.status = .approved → ∃ s ∈ db.steps, s.id = a.step ∧
    ∃ t ∈ db.tasks, t.id = s.task ∧ (Bound P s.spec.fingerprint → a.actor ≠ t.actor)

theorem Effect.impartial (ho : Orderly db) (hi : Impartial P db) (hop : Independent P db op)
    (he : Effect P db op out db') : Impartial P db' := by
  have hmoves := he.moves ho.wf ho.placed
  -- the step and the task of an approval are still there
  have hlater : ∀ {a : ApprovalRow} {s : StepRow} {t : TaskRow}, s ∈ db.steps → s.id = a.step →
      t ∈ db.tasks → t.id = s.task → (Bound P s.spec.fingerprint → a.actor ≠ t.actor) →
        ∃ s ∈ db'.steps, s.id = a.step ∧ ∃ t ∈ db'.tasks, t.id = s.task ∧
          (Bound P s.spec.fingerprint → a.actor ≠ t.actor) := by
    intro a s t hs hid ht htask hactor
    obtain ⟨s', hs', hspec⟩ := hmoves.spec hs
    obtain ⟨status, ht'⟩ := hmoves.task ht
    refine ⟨s', hs', (congrArg StepSpec.id hspec).trans hid, _, ht',
      htask.trans (congrArg StepSpec.task hspec).symm, fun hb => ?_⟩
    rw [hspec] at hb
    exact hactor hb
  intro a ha happroved
  cases he.ruled ho ha with
  | kept hmem =>
    obtain ⟨s, hs, hid, t, ht, htask, hactor⟩ := hi a hmem happroved
    exact hlater hs hid ht htask hactor
  | closed h => rcases h with h | h <;> rw [happroved] at h <;> cases h
  | @decided env tenant role s t _ hop' hs hid ht htask =>
    subst hop'
    exact hlater hs hid ht htask fun hb hactor => hop rfl s hs rfl t ht htask hactor.symm hb
  | @preapproved env tenant channel conversationId text role key agent s t c _ hop' hpolicy
      hindependent htool hargs hs hid ht htask hfingerprint =>
    subst hop'
    refine ⟨s, hs, hid, t, ht, htask, fun hb => ?_⟩
    rw [hfingerprint] at hb
    exact absurd hb (hop c hpolicy hindependent htool hargs)
  | consumed h => rw [happroved] at h; cases h

end Steps

/-! ### Runs -/

section Runs

variable {P : Platform} {τs : List (Transition Db Op)} {db : Db}

variable {spec : StepSpec}

theorem handedOut_authorised (h : Run (Step P) {} τs db) {τ : Transition Db Op} (hτ : τ ∈ τs)
    (hspec : handedOut P τ = some spec) (hneeded : spec.approvalNeeded = true) :
    ∃ env t policy a, Authorises P env τ spec t policy a := by
  obtain ⟨hs, ho⟩ := h.always orderly_empty (fun _ _ _ => Step.orderly) hτ
  obtain ⟨out, he, hout⟩ := hs.effect
  obtain ⟨token, rfl⟩ := (hout spec).1 hspec
  exact he.authorises ho hneeded

theorem impartial_step {s t : Db} {op : Op} (h : Orderly s ∧ Impartial P s)
    (hs : guarded (Independent P) (Step P) s op t) : Orderly t ∧ Impartial P t := by
  obtain ⟨out, he, -⟩ := hs.1.effect
  exact ⟨he.orderly h.1, he.impartial h.1 h.2 hs.2⟩

/-- In a run without approvals by the creator of a task against its policy, the approver of a step
that is handed out is not the creator where the current policy asks for independent approval. -/
theorem independent_approver (h : Run (guarded (Independent P) (Step P)) {} τs db) {τ : Transition Db Op}
    (hτ : τ ∈ τs) {env : Env} {t : TaskRow} {policy : Json} {a : ApprovalRow}
    (hspec : handedOut P τ = some spec) (ha : Authorises P env τ spec t policy a)
    (hindependent : independentApproval policy = true) : a.actor ≠ t.actor := by
  obtain ⟨hstep, ho, hi⟩ := h.always (I := fun db => Orderly db ∧ Impartial P db)
    ⟨orderly_empty, fun _ ha => absurd ha List.not_mem_nil⟩ (fun _ _ _ => impartial_step) hτ
  obtain ⟨out, he, hout⟩ := hstep.1.effect
  obtain ⟨token, rfl⟩ := (hout spec).1 hspec
  obtain ⟨⟨r, hr, rfl, -⟩, -⟩ := he.handed ho
  obtain ⟨s, hs, hid, t', ht', htask, hactor⟩ := hi a ha.row ha.approved
  obtain rfl := ho.wf.steps.eq_of_key hs hr (hid.trans ha.step)
  obtain rfl := ho.wf.tasks.eq_of_key ht' ha.task.1 (htask.trans ha.task.2.symm)
  obtain ⟨risk, needed, bindings, hcurrent⟩ := ha.current
  exact hactor ⟨_, hcurrent.symm, hindependent⟩

/-- **Approval binding.** Whenever `claim` hands out a step that needs an approval, the approval of
exactly this step is approved and unexpired, has the fingerprint of the step, which is the one of its
tool and arguments under the current policy, and is consumed in the same transaction. In a run the
approvals of a step are consumed at most once, and no step is ever edited. Where the current policy
asks for independent approval the approver is not the creator of the task, if no decision of the run
was an approval by the creator of a step whose fingerprint asks for it. -/
theorem approval_binding (h : Run (Step P) {} τs db) :
    (∀ τ ∈ τs, ∀ spec, handedOut P τ = some spec → spec.approvalNeeded = true →
      ∃ env t policy a, Authorises P env τ spec t policy a) ∧
    (∀ id, τs.countP (fun τ => Consumes id τ) ≤ 1) ∧
    (∀ τ ∈ τs, ∀ s, s ∈ τ.src.steps ∨ s ∈ τ.dst.steps → ∀ s' ∈ db.steps, s'.id = s.id →
      s'.spec = s.spec) ∧
    ((∀ τ ∈ τs, Independent P τ.src τ.label) → ∀ τ ∈ τs, ∀ spec env t policy a,
      handedOut P τ = some spec → Authorises P env τ spec t policy a →
        independentApproval policy = true → a.actor ≠ t.actor) := by
  have hstep : ∀ τ ∈ τs, Step P τ.src τ.label τ.dst ∧ Orderly τ.src := fun τ hτ =>
    h.always orderly_empty (fun _ _ _ => Step.orderly) hτ
  refine ⟨fun τ hτ spec hspec hneeded => handedOut_authorised h hτ hspec hneeded, fun id => ?_,
    fun τ hτ s hs s' hs' hid => ?_, fun hok τ hτ spec env t policy a hspec ha hind =>
      independent_approver (h.guard hok) hτ hspec ha hind⟩
  · refine Nat.le_trans (List.countP_mono_left fun τ hτ hc => ?_) (handedOut_countP_le h id)
    obtain ⟨hs, ho⟩ := hstep τ hτ
    obtain ⟨out, he, hout⟩ := hs.effect
    obtain ⟨spec, token, rfl, hid⟩ := he.handed_of_consumes ho (of_decide_eq_true hc)
    rw [(hout spec).2 ⟨token, rfl⟩]
    exact decide_eq_true hid
  · have hrun := h.strengthen orderly_empty fun _ _ _ => Step.orderly
    have hlater := hrun.later (q := fun db db' => ∀ s ∈ db.steps, ∃ s' ∈ db'.steps,
      s'.spec = s.spec) (fun _ s hs => ⟨s, hs, rfl⟩) (fun _ _ _ h₁ h₂ s hs => ?_)
      (fun db op db' ⟨hs, ho⟩ s hmem => ?_) hτ
    · obtain ⟨x, hx, hspec⟩ := hs.elim (hlater.1 s) (hlater.2 s)
      have heq := (reachable_orderly orderly_empty h).wf.steps.eq_of_key hs' hx
        (hid.trans (congrArg StepSpec.id hspec).symm)
      rw [heq, hspec]
    · obtain ⟨x, hx, hspec⟩ := h₁ s hs
      obtain ⟨y, hy, hspec'⟩ := h₂ x hx
      exact ⟨y, hy, hspec'.trans hspec⟩
    · obtain ⟨out, he, -⟩ := hs.effect
      exact (he.moves ho.wf ho.placed).spec hmem

/-- A payment, submitted and claimed under a policy with independent approval, and approved by `actor`
under one with or without it. -/
def payOps (actor : String) (independent : Bool) : List Op :=
  [sampleSubmit ["pay"] true,
    .approve (sampleEnv 1 independent) "acme" 1 actor "approved" "owner", sampleClaim 2 true]

/-- The call of `claim`. -/
def payClaim (actor : String) (independent : Bool) : Transition Db Op :=
  ⟨sampleDb ((payOps actor independent).take 2), sampleClaim 2 true,
    sampleDb (payOps actor independent)⟩

theorem payClaim_mem (actor : String) (independent : Bool) :
    payClaim actor independent ∈ sampleTrace (payOps actor independent) :=
  .tail _ (.tail _ (.head _))

theorem payClaim_policy {actor : String} {independent : Bool} {env : Env} {t : TaskRow} {policy : Json}
    {a : ApprovalRow} (ha : Authorises samplePlatform env (payClaim actor independent) spec t policy a) :
    independentApproval policy = true := by
  obtain ⟨worker, device, leaseSeconds, hlabel⟩ := ha.label
  obtain ⟨rfl, -⟩ := Op.claim.inj hlabel
  obtain rfl : samplePolicy true = policy := Except.ok.inj ha.read
  rfl

theorem approval_binding_sample :
    ∃ τ ∈ sampleTrace (payOps "eve" true), ∃ spec env t policy a,
      handedOut samplePlatform τ = some spec ∧ Authorises samplePlatform env τ spec t policy a ∧
        independentApproval policy = true ∧ a.actor ≠ t.actor := by
  obtain ⟨hauthorised, -, -, hindependent⟩ := approval_binding (sample_run (payOps "eve" true))
  have hout : ((handedOut samplePlatform (payClaim "eve" true)).any StepSpec.approvalNeeded) = true :=
    by decide +kernel
  obtain ⟨spec, hspec, hneeded⟩ := Option.any_eq_true _ _ |>.1 hout
  obtain ⟨env, t, policy, a, ha⟩ := hauthorised _ (payClaim_mem "eve" true) spec hspec hneeded
  refine ⟨_, payClaim_mem "eve" true, spec, env, t, policy, a, hspec, ha, payClaim_policy ha,
    hindependent (fun τ hτ => ?_) _ (payClaim_mem "eve" true) spec env t policy a hspec ha
      (payClaim_policy ha)⟩
  -- the creator decides nothing
  have hactors : ∀ t ∈ (sampleDb ((payOps "eve" true).take 1)).tasks, t.actor ≠ "eve" := by
    decide +kernel
  rcases hτ with _ | ⟨_, _ | ⟨_, _ | ⟨_, hτ⟩⟩⟩
  · trivial
  · exact fun _ s _ _ t ht _ hactor => absurd hactor (hactors t ht)
  · trivial
  · cases hτ

/-- The creator of a task approves a step while the policy does not ask for independent approval; the
step is handed out under the policy it was submitted with, which does. -/
theorem creator_approves :
    ¬ ∀ (P : Platform) (τs : List (Transition Db Op)) (db : Db), Run (Step P) {} τs db →
      ∀ τ ∈ τs, ∀ spec env t policy a, handedOut P τ = some spec → spec.approvalNeeded = true →
        Authorises P env τ spec t policy a → independentApproval policy = true →
          a.actor ≠ t.actor := by
  intro h
  have hrun := sample_run (payOps "dana" false)
  have hout : ((handedOut samplePlatform (payClaim "dana" false)).any StepSpec.approvalNeeded) =
      true := by decide +kernel
  obtain ⟨spec, hspec, hneeded⟩ := Option.any_eq_true _ _ |>.1 hout
  have hmem := payClaim_mem "dana" false
  obtain ⟨env, t, policy, a, ha⟩ := handedOut_authorised hrun hmem hspec hneeded
  have happrovals : ∀ a ∈ (payClaim "dana" false).src.approvals, a.actor = "dana" := by
    decide +kernel
  have htasks : ∀ t ∈ (payClaim "dana" false).src.tasks, t.actor = "dana" := by decide +kernel
  exact h samplePlatform _ _ hrun _ hmem spec env t policy a hspec hneeded ha (payClaim_policy ha)
    ((happrovals a ha.row).trans (htasks t ha.task.1).symm)

end Runs

end AgentPlatform.Engine
