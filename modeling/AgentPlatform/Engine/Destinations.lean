import AgentPlatform.Engine.Approvals
import AgentPlatform.Engine.Idempotency

/-!
# Where a step that is handed out may go

A step that `claim` hands out was inserted by a submission or an operator's reply of the run, after
the checks `Inserted` lists.

* `outbound_destination`: an outbound step goes to a recipient on the pack's allowlist, to the
  conversation of the verified event its task answers, or to a conversation of the tenant an operator
  replied to.
* `unattended_dispatch`: a step without an approval only reads, or goes out on the autonomous ladder
  to an allowlisted recipient or to the conversation its task answers.
-/

namespace AgentPlatform.Engine

open Outcome Table Pipeline Runs

/-! ### What the checks of a destination say -/

section Checks

variable {env : Env} {db : Db} {tenant channel eventKey agent : String} {o : Origin}

theorem origin_eq_some (h : origin db tenant channel eventKey = some o) :
    o.channel = channel ∧ ∃ e, db.event? tenant channel eventKey = some e ∧
      o.conversationId = e.payload.getD "conversation_id" .null := by
  unfold origin at h
  split at h
  · obtain ⟨e, he, rfl⟩ := Option.map_eq_some_iff.1 h
    exact ⟨rfl, e, he, rfl⟩
  · cases h

theorem outboundAllowed_cases {v : Validated} {field : String}
    {o : Option Origin} (h : outboundAllowed env tenant channel agent o v = .ok ())
    (hfield : directDestinationField v.tool = some field) :
    (∃ c, o = some c ∧ v.tool = channel ++ ".send" ∧
        c.conversationId.same (v.args.getD field .null) = true) ∨
      ∃ policy, env.policy tenant agent = .ok policy ∧
        (policy.getD "allowed_recipients" (.arr [])).items.any (v.args.getD field .null).same =
          true := by
  unfold outboundAllowed at h
  rw [hfield] at h
  dsimp only at h
  split at h
  · rw [ensure_eq_ok] at h
    obtain ⟨c, hc, hguard⟩ := Option.any_eq_true _ _ |>.1 h
    rw [Bool.and_eq_true, decide_eq_true_eq] at hguard
    exact .inl ⟨c, hc, hguard⟩
  · simp only [bind_eq_ok, ensure_eq_ok] at h
    obtain ⟨policy, hpolicy, hlisted⟩ := h
    exact .inr ⟨policy, hpolicy, hlisted⟩

theorem sendChannel_send : sendChannel (channel ++ ".send") = channel := by
  unfold sendChannel
  simp

theorem operatorOrigin_cases {tool : String} {args : Json}
    (h : operatorOrigin db tenant tool args = .ok o) :
    o = ⟨operatorChannel, sendChannel tool,
        args.getD ((directDestinationField tool).getD "") .null⟩ ∧
      ∃ e ∈ db.events, e.tenant = tenant ∧ e.channel = sendChannel tool ∧
        (e.payload.getD "conversation_id" .null).same
          (args.getD ((directDestinationField tool).getD "") .null) = true := by
  simp only [operatorOrigin, bind_eq_ok, exists_unit, ensure_eq_ok, pure_eq_ok] at h
  obtain ⟨-, -, -, hknown, rfl⟩ := h
  obtain ⟨e, he, hguard⟩ := List.any_eq_true.1 hknown
  simp only [Bool.and_eq_true, decide_eq_true_eq] at hguard
  exact ⟨rfl, e, he, hguard.1.1, hguard.1.2, hguard.2⟩

end Checks

/-! ### What inserts a step -/

/-- The step belongs to the task of a key. -/
def OfTask (db : Db) (spec : StepSpec) (channel eventKey : String) : Prop :=
  (spec.task, spec.tenant, channel, eventKey) ∈ db.owners

/-- A step as its validation under a policy left it, in a task with the origin `o`. -/
structure Vetted (P : Platform) (policy : Json) (o : Option Origin) (spec : StepSpec) : Prop where
  risk : ∃ tool, P.registry.get spec.tool = .ok tool ∧ spec.risk = tool.risk
  needed : spec.approvalNeeded = approvalNeeded policy (o.any fun o => o.channel = operatorChannel)
    spec.tool spec.args spec.risk o
  fingerprint : ∃ bindings, spec.fingerprint = (Canonical.mk spec.tool spec.args spec.risk
    spec.approvalNeeded spec.device policy bindings).fingerprint P

/-- An operation inserts a step, after its checks. -/
inductive Inserted (P : Platform) (db : Db) (spec : StepSpec) (db' : Db) : Op → Prop
  | submitted {env : Env} {channel eventKey agent actor : String} {steps : List Json} {policy : Json}
      (hpolicy : env.policy spec.tenant agent = .ok policy)
      (hvetted : Vetted P policy (origin db spec.tenant channel eventKey) spec)
      (hdestination : ∀ field, directDestinationField spec.tool = some field →
        (∃ o, origin db spec.tenant channel eventKey = some o ∧ spec.tool = channel ++ ".send" ∧
          o.conversationId.same (spec.args.getD field .null) = true) ∨
        ∃ policy, env.policy spec.tenant agent = .ok policy ∧
          (policy.getD "allowed_recipients" (.arr [])).items.any (spec.args.getD field .null).same =
            true)
      (htask : OfTask db' spec channel eventKey) :
      Inserted P db spec db' (.submit env spec.tenant channel eventKey agent steps actor)
  | replied {env : Env} {channel conversationId text actor role key agent : String} {policy : Json}
      {o : Origin} (hpolicy : env.policy spec.tenant agent = .ok policy)
      (hvetted : Vetted P policy (some o) spec) (hchannel : o.channel = operatorChannel)
      (htool : spec.tool = channel ++ ".send")
      (hargs : spec.args = replyArgs channel conversationId text)
      (hknown : ∃ e ∈ db.events, e.tenant = spec.tenant ∧ e.channel = channel ∧
        (e.payload.getD "conversation_id" .null).same
          (spec.args.getD ((directDestinationField spec.tool).getD "") .null) = true) :
      Inserted P db spec db'
        (.operatorReply env spec.tenant channel conversationId text actor role key agent)

section Inserted

variable {P : Platform} {env : Env} {db db' : Db} {tenant agent : String} {op : Op} {out : Reply}
  {spec : StepSpec}

theorem added_unmoved : Unmoved fun db => (db.specs, db.owners) := specs_unmoved.prod owners_unmoved

/-- A step of a new task is a step of its plan. -/
theorem mem_specs_insertTask {channel eventKey fingerprint actor approver : String}
    {plan : List Validated} {now : Time}
    (h : spec ∈ (db.insertTask tenant channel eventKey fingerprint agent actor plan approver
      now).specs) :
    spec ∈ db.specs ∨ spec.task = db.drawn ∧ spec.tenant = tenant ∧ ∃ v ∈ plan,
      spec.tool = v.tool ∧ spec.args = v.args ∧ spec.risk = v.risk ∧ spec.approvalNeeded = v.needed ∧
        spec.fingerprint = v.fingerprint ∧ spec.device = v.device := by
  obtain ⟨r, hr, rfl⟩ := List.mem_map.1 h
  rcases List.mem_append.1 hr with hr | hr
  · exact .inl (List.mem_map_of_mem hr)
  · obtain ⟨i, v, hi, rfl⟩ := mem_newSteps.1 hr
    exact .inr ⟨rfl, rfl, v, List.mem_of_getElem? hi, rfl, rfl, rfl, rfl, rfl, rfl⟩

/-- The step a validated plan leaves. -/
theorem vetted_of_validatedStep {policy step : Json} {o : Option Origin} {v : Validated}
    (h : validatedStep P env tenant agent policy o step = .ok v) (htool : spec.tool = v.tool)
    (hargs : spec.args = v.args) (hrisk : spec.risk = v.risk)
    (hneeded : spec.approvalNeeded = v.needed) (hfingerprint : spec.fingerprint = v.fingerprint)
    (hdevice : spec.device = v.device) : Vetted P policy o spec := by
  obtain ⟨-, -, -, hregistered, hneeded', bindings, hfingerprint'⟩ := validatedStep_cases h
  refine ⟨?_, ?_, bindings, ?_⟩
  · rw [htool, hrisk]
    exact hregistered
  · rw [hneeded, htool, hargs, hrisk]
    exact hneeded'
  · rw [hfingerprint, htool, hargs, hrisk, hneeded, hdevice]
    exact hfingerprint'

/-- **Every step was checked when it was inserted.** -/
theorem Effect.inserted (he : Effect P db op out db') (hspec : spec ∈ db'.specs) :
    spec ∈ db.specs ∨ Inserted P db spec db' op := by
  obtain ⟨db₀, hw, heq⟩ := he.written added_unmoved (fun _ _ _ _ _ h => h) fun _ _ _ _ _ _ h => h
  obtain ⟨hspecs, howners⟩ := Prod.mk.inj heq
  rw [hspecs] at hspec
  cases hw with
  | same | froze | enrolled | ended | elsewhere => exact .inl hspec
  | submitted _ hplan houtbound _ =>
    rcases mem_specs_insertTask hspec with hold | ⟨htask, rfl, v, hv, htool, hargs, hrest⟩
    · exact .inl hold
    · obtain ⟨hrisk, hneeded, hfingerprint, hdevice⟩ := hrest
      obtain ⟨policy, hpolicy, hforall⟩ := validated_cases hplan
      obtain ⟨step, -, hstep⟩ := exists_of_mem_right hforall hv
      refine .inr (.submitted hpolicy
        (vetted_of_validatedStep hstep htool hargs hrisk hneeded hfingerprint hdevice)
        (fun field hfield => ?_) ?_)
      · rw [htool] at hfield ⊢
        rw [hargs]
        exact outboundAllowed_cases (houtbound v hv) hfield
      · unfold OfTask
        rw [howners, owners_insertTask, htask]
        exact List.mem_append_right _ List.mem_cons_self
  | replied _ horigin hplan _ =>
    rcases mem_specs_insertTask hspec with hold | ⟨-, rfl, v, hv, htool, hargs, hrest⟩
    · exact .inl hold
    · obtain ⟨hrisk, hneeded, hfingerprint, hdevice⟩ := hrest
      obtain ⟨policy, hpolicy, hforall⟩ := validated_cases hplan
      obtain ⟨step, hmem, hstep⟩ := exists_of_mem_right hforall hv
      obtain rfl := List.mem_singleton.1 hmem
      obtain ⟨hname, hargs', -⟩ := validatedStep_cases hstep
      have htool' : spec.tool = _ := htool.trans (Except.ok.inj hname).symm
      have hargs'' : spec.args = replyArgs _ _ _ := hargs.trans hargs'
      obtain ⟨rfl, e, he, htenant, hchannel, hsame⟩ := operatorOrigin_cases horigin
      refine .inr (.replied hpolicy
        (vetted_of_validatedStep hstep htool hargs hrisk hneeded hfingerprint hdevice) rfl htool'
        hargs'' ⟨e, he, htenant, ?_, ?_⟩)
      · rw [hchannel, sendChannel_send]
      · rw [hargs'', htool']
        exact hsame

end Inserted

/-! ### Outbound destinations -/

/-- What entitled an operation to insert an outbound step to `recipient`. -/
inductive Destined (db : Db) (spec : StepSpec) (recipient : Json) (db' : Db) : Op → Prop
  | allowlisted {env : Env} {channel eventKey agent actor : String} {steps : List Json} {policy : Json}
      (hpolicy : env.policy spec.tenant agent = .ok policy)
      (hlisted : (policy.getD "allowed_recipients" (.arr [])).items.any recipient.same = true) :
      Destined db spec recipient db' (.submit env spec.tenant channel eventKey agent steps actor)
  | verified {env : Env} {channel eventKey agent actor : String} {steps : List Json} {e : EventRow}
      (hevent : db.event? spec.tenant channel eventKey = some e)
      (htask : OfTask db' spec channel eventKey) (htool : spec.tool = channel ++ ".send")
      (hsame : (e.payload.getD "conversation_id" .null).same recipient = true) :
      Destined db spec recipient db' (.submit env spec.tenant channel eventKey agent steps actor)
  | known {env : Env} {channel conversationId text actor role key agent : String} {e : EventRow}
      (hevent : e ∈ db.events) (htenant : e.tenant = spec.tenant) (hchannel : e.channel = channel)
      (htool : spec.tool = channel ++ ".send") (hrecipient : recipient = .str conversationId)
      (hsame : (e.payload.getD "conversation_id" .null).same recipient = true) :
      Destined db spec recipient db'
        (.operatorReply env spec.tenant channel conversationId text actor role key agent)

theorem Inserted.destined {P : Platform} {db db' : Db} {op : Op} {spec : StepSpec} {field : String}
    (h : Inserted P db spec db' op) (hfield : directDestinationField spec.tool = some field) :
    Destined db spec (spec.args.getD field .null) db' op := by
  cases h with
  | submitted _ _ hdestination htask =>
    rcases hdestination field hfield with ⟨o, ho, htool, hsame⟩ | ⟨policy, hpolicy, hlisted⟩
    · obtain ⟨-, e, he, hconversation⟩ := origin_eq_some ho
      exact .verified he htask htool (hconversation ▸ hsame)
    · exact .allowlisted hpolicy hlisted
  | replied _ _ _ htool hargs hknown =>
    obtain ⟨e, he, htenant, hchannel, hsame⟩ := hknown
    rw [hfield] at hsame
    refine .known he htenant hchannel htool ?_ hsame
    rw [hargs, replyArgs, ← htool, hfield]
    simp [Json.getD, Json.get?]

/-! ### Dispatch without an approval -/

/-- What lets a step go without an approval, under a policy and in a task with the origin `o`. -/
inductive Narrow (policy : Json) (o : Option Origin) (spec : StepSpec) : Prop
  | read (hrisk : spec.risk = .read)
  | outbound {field : String} (hladder : (policy.getD "ladder" .null).isText "autonomous" = true)
      (hfield : directDestinationField spec.tool = some field)
      (hrecipient : (policy.getD "allowed_recipients" (.arr [])).items.any
          (spec.args.getD field .null).same = true ∨
        ∃ c, o = some c ∧ spec.tool = c.channel ++ ".send" ∧
          (spec.args.getD field .null).same c.conversationId = true)

theorem narrow_of_approvalNeeded {policy : Json} {o : Option Origin} {operator : Bool}
    (spec : StepSpec)
    (h : approvalNeeded policy operator spec.tool spec.args spec.risk o = false) :
    operator = false ∧ spec.risk ≠ .destructive ∧ spec.risk ≠ .physical ∧ Narrow policy o spec := by
  simp only [approvalNeeded, Bool.or_eq_false_iff, decide_eq_false_iff_not, Bool.and_eq_false_iff,
    Bool.not_eq_false', ne_eq, not_not] at h
  obtain ⟨⟨⟨⟨-, hoperator⟩, -⟩, hdestructive, hphysical⟩, hrisk⟩ := h
  refine ⟨hoperator, hdestructive, hphysical, ?_⟩
  rcases hrisk with hrisk | hpre
  · exact .read hrisk
  · unfold preauthorized at hpre
    split at hpre
    · cases hpre
    · rename_i field hfield
      simp only [Bool.and_eq_true, Bool.or_eq_true, Option.any_eq_true, decide_eq_true_eq] at hpre
      obtain ⟨hladder, hlisted | ⟨c, hc, hguard⟩⟩ := hpre
      · exact .outbound hladder hfield (.inl hlisted)
      · exact .outbound hladder hfield (.inr ⟨c, hc, hguard⟩)

section Runs

variable {P : Platform} {τs : List (Transition Db Op)} {db db' : Db} {env : Env}
  {tenant worker device : String} {leaseSeconds : ℤ} {spec : StepSpec} {token : Uuid}

/-- A step that is handed out was inserted in the run. -/
theorem inserted_of_claimed (h : Run (Step P) {} τs db)
    (hclaim : exec P db (.claim env tenant worker device leaseSeconds) =
      .ok (db', .claimed spec token)) :
    ∃ σ ∈ τs, (spec ∉ σ.src.specs ∧ spec ∈ σ.dst.specs) ∧
      Inserted P σ.src spec σ.dst σ.label := by
  have ho := reachable_orderly orderly_empty h
  obtain ⟨⟨r, hr, hspec, -⟩, -⟩ := (exec_effect hclaim).handed ho
  refine h.since (p := fun db => spec ∈ db.specs) (q := fun σ =>
    (spec ∉ σ.src.specs ∧ spec ∈ σ.dst.specs) ∧ Inserted P σ.src spec σ.dst σ.label)
    List.not_mem_nil (fun s op t hs ht => ?_) (hspec ▸ List.mem_map_of_mem hr)
  obtain ⟨out, he, -⟩ := hs.effect
  by_cases hold : spec ∈ s.specs
  · exact .inl hold
  · exact .inr ⟨⟨hold, ht⟩, (he.inserted ht).resolve_left hold⟩

/-- The policy under which `claim` hands a step out gives it the fingerprint it was submitted with. -/
structure Rebound (P : Platform) (env : Env) (db : Db) (spec : StepSpec) (t : TaskRow)
    (c : Canonical) : Prop where
  task : t ∈ db.tasks ∧ t.id = spec.task
  policy : env.policy spec.tenant t.agent = .ok c.policy
  step : c.tool = spec.tool ∧ c.args = spec.args ∧ c.device = spec.device
  risk : ∃ tool, P.registry.get spec.tool = .ok tool ∧ c.risk = tool.risk
  fingerprint : c.fingerprint P = spec.fingerprint
  narrow : c.approval = false →
    Narrow c.policy (origin db spec.tenant t.channel t.eventKey) { spec with risk := c.risk }

theorem Effect.rebound {op : Op} (ho : Orderly db) (he : Effect P db op (.claimed spec token) db') :
    ∃ env worker device leaseSeconds t c, op = .claim env spec.tenant worker device leaseSeconds ∧
      Rebound P env db spec t c := by
  obtain ⟨env, worker, device, leaseSeconds, db₁, c, t, rfl, hgranted, -⟩ := he.granted ho
  obtain rfl := hgranted.step
  obtain ⟨-, hfingerprint, -⟩ := review_granted hgranted.review
  obtain ⟨policy, o, tool, bindings, hpolicy, horigin, htool, hcurrent⟩ :=
    revalidate_cases hfingerprint
  obtain ⟨status, hrow⟩ := hgranted.row
  rw [hrow] at hpolicy
  refine ⟨env, worker, device, leaseSeconds, t, _, rfl, hgranted.task, hpolicy, ⟨rfl, rfl, rfl⟩,
    ⟨tool, htool, rfl⟩, hcurrent.symm, fun hneeded => ?_⟩
  obtain ⟨hoperator, -, -, hnarrow⟩ :=
    narrow_of_approvalNeeded { c.step.spec with risk := tool.risk } hneeded
  have hsame : o = origin db c.step.spec.tenant t.channel t.eventKey := by
    unfold taskOrigin at horigin
    split at horigin
    · -- an operator's reply always needs its approval
      cases hx : operatorOrigin db₁ c.step.spec.tenant c.step.spec.tool c.step.spec.args with
      | error e => rw [hx] at horigin; cases horigin
      | ok o' =>
        rw [hx] at horigin
        obtain ⟨rfl, -⟩ := operatorOrigin_cases hx
        obtain rfl := Except.ok.inj horigin
        simp at hoperator
    · obtain rfl := Except.ok.inj horigin
      rw [hrow]
      unfold origin Db.event?
      rw [hgranted.events]
  rw [← hsame]
  exact hnarrow

/-- What entitled an operation to insert a step that needs no approval. -/
inductive Unattended (P : Platform) (db : Db) (spec : StepSpec) (db' : Db) : Op → Prop
  | submitted {env : Env} {channel eventKey agent actor : String} {steps : List Json} {policy : Json}
      (hpolicy : env.policy spec.tenant agent = .ok policy)
      (htask : OfTask db' spec channel eventKey)
      (hnarrow : Narrow policy (origin db spec.tenant channel eventKey) spec)
      (hfingerprint : ∃ bindings, spec.fingerprint = (Canonical.mk spec.tool spec.args spec.risk
        false spec.device policy bindings).fingerprint P) :
      Unattended P db spec db' (.submit env spec.tenant channel eventKey agent steps actor)

theorem Inserted.unattended {op : Op} (h : Inserted P db spec db' op)
    (hneeded : spec.approvalNeeded = false) : Unattended P db spec db' op ∧
      ∃ tool, P.registry.get spec.tool = .ok tool ∧ tool.risk ≠ .destructive ∧
        tool.risk ≠ .physical := by
  cases h with
  | submitted hpolicy hvetted _ htask =>
    obtain ⟨-, hdestructive, hphysical, hnarrow⟩ :=
      narrow_of_approvalNeeded _ (hvetted.needed.symm.trans hneeded)
    obtain ⟨tool, htool, hrisk⟩ := hvetted.risk
    refine ⟨.submitted hpolicy htask hnarrow (hneeded ▸ hvetted.fingerprint), tool, htool, ?_, ?_⟩
    · rwa [← hrisk]
    · rwa [← hrisk]
  | replied _ hvetted hchannel =>
    obtain ⟨hoperator, -⟩ := narrow_of_approvalNeeded _ (hvetted.needed.symm.trans hneeded)
    simp [hchannel] at hoperator

/-- **Outbound destinations are bound.** In any run, whatever was submitted: an outbound step that
`claim` hands out was inserted to a recipient on the allowlist of the agent's pack, to the
conversation of the verified event its task answers, or to a conversation of the tenant that an
operator replied to. -/
theorem outbound_destination (h : Run (Step P) {} τs db)
    (hclaim : exec P db (.claim env tenant worker device leaseSeconds) =
      .ok (db', .claimed spec token)) {field : String}
    (hfield : directDestinationField spec.tool = some field) :
    ∃ σ ∈ τs, (spec ∉ σ.src.specs ∧ spec ∈ σ.dst.specs) ∧
      Destined σ.src spec (spec.args.getD field .null) σ.dst σ.label := by
  obtain ⟨σ, hσ, hnew, hinserted⟩ := inserted_of_claimed h hclaim
  exact ⟨σ, hσ, hnew, hinserted.destined hfield⟩

/-- **Unattended dispatch is narrow.** In any run, whatever was submitted and under whatever policy: a
step that `claim` hands out is authorised by an approved approval, or it needs none. Then its tool is
neither destructive nor physical, it was inserted under a policy that lets it go (it only reads, or it
goes out on the autonomous ladder to an allowlisted recipient or the conversation its task answers),
and it has the same fingerprint under the policy of the moment. -/
theorem unattended_dispatch (h : Run (Step P) {} τs db)
    (hclaim : exec P db (.claim env tenant worker device leaseSeconds) =
      .ok (db', .claimed spec token)) :
    (∃ env' t policy a,
      Authorises P env' ⟨db, .claim env tenant worker device leaseSeconds, db'⟩ spec t policy a) ∨
    spec.approvalNeeded = false ∧
      (∃ tool, P.registry.get spec.tool = .ok tool ∧ tool.risk ≠ .destructive ∧
        tool.risk ≠ .physical) ∧
      (∃ σ ∈ τs, (spec ∉ σ.src.specs ∧ spec ∈ σ.dst.specs) ∧
        Unattended P σ.src spec σ.dst σ.label) ∧
      ∃ t c, Rebound P env db spec t c := by
  have ho := reachable_orderly orderly_empty h
  have he := exec_effect hclaim
  cases hneeded : spec.approvalNeeded with
  | true => exact .inl (he.authorises ho hneeded)
  | false =>
    obtain ⟨σ, hσ, hnew, hinserted⟩ := inserted_of_claimed h hclaim
    obtain ⟨hunattended, htool⟩ := hinserted.unattended hneeded
    obtain ⟨env', worker', device', leaseSeconds', t, c, hop, hrebound⟩ := he.rebound ho
    obtain ⟨rfl, -⟩ := Op.claim.inj hop
    exact .inr ⟨rfl, htool, ⟨σ, hσ, hnew, hunattended⟩, t, c, hrebound⟩

/-! A clerk on the autonomous ladder who answers a customer. -/

def replySchema : Schema :=
  .mk .object none [("conversation_id", .mk .string none [] [] none 0 100 1 256 0 0),
    ("text", .mk .string none [] [] none 0 100 1 4000 0 0)] ["conversation_id", "text"] none 0 100 0
    20000 0 0

def replyPlatform : Platform where
  registry := [⟨"telegram.send", .write, replySchema, false⟩]
  sha256 := id

def replyEnv (second : ℕ) : Env :=
  { sampleEnv second with
    policy := fun _ _ => .ok (.obj [("ladder", .str "autonomous"),
      ("tools", .arr [.str "telegram.send"])]) }

/-- A customer writes, and the answer is submitted under the key of the event. -/
def replyOps (recipient : String) : List Op :=
  [.elsewhere [⟨"acme", "telegram", "e1", "", .obj [("conversation_id", .str "42")], .processing, none,
      0, .none, ""⟩] [] [],
    .submit (replyEnv 1) "acme" "telegram" "e1" "clerk"
      [.obj [("tool", .str "telegram.send"),
        ("args", .obj [("conversation_id", .str recipient), ("text", .str "Salom")])]] "dana"]

def replyDb (recipient : String) : Db := (replyOps recipient).foldl (Db.after replyPlatform) {}

/-- What `claim` hands out then. -/
def replyClaim (recipient : String) : Option StepSpec :=
  match exec replyPlatform (replyDb recipient) (.claim (replyEnv 2) "acme" "w1" "" 60) with
  | .ok (_, .claimed spec _) => some spec
  | _ => none

theorem replyClaim_eq_some {recipient : String} {spec : StepSpec}
    (h : replyClaim recipient = some spec) : ∃ db' token,
      exec replyPlatform (replyDb recipient) (.claim (replyEnv 2) "acme" "w1" "" 60) =
        .ok (db', .claimed spec token) := by
  unfold replyClaim at h
  split at h
  · rename_i db' spec' token hx
    obtain rfl := Option.some.inj h
    exact ⟨db', token, hx⟩
  · cases h

/-- The answer goes to the customer's conversation; no step goes to another one. -/
theorem outbound_destination_sample :
    (replyClaim "7").isNone = true ∧ ∃ (spec : StepSpec) (σ : Transition Db Op),
      replyClaim "42" = some spec ∧
        Destined σ.src spec (spec.args.getD "conversation_id" .null) σ.dst σ.label := by
  have hout : ((replyClaim "42").any fun spec => spec.tool = "telegram.send") = true := by
    decide +kernel
  obtain ⟨spec, hspec, htool⟩ := Option.any_eq_true _ _ |>.1 hout
  obtain ⟨db', token, hclaim⟩ := replyClaim_eq_some hspec
  have hfield : directDestinationField spec.tool = some "conversation_id" := by
    rw [of_decide_eq_true htool]
    rfl
  obtain ⟨σ, -, -, hdestined⟩ :=
    outbound_destination (Run.nil.calls (f := Db.after replyPlatform) (replyOps "42")) hclaim hfield
  exact ⟨by decide +kernel, spec, σ, hspec, hdestined⟩

/-- The answer goes out without an approval. -/
theorem unattended_dispatch_sample :
    ∃ spec t c, replyClaim "42" = some spec ∧ spec.approvalNeeded = false ∧
      Rebound replyPlatform (replyEnv 2) (replyDb "42") spec t c := by
  have hout : ((replyClaim "42").any fun spec => !spec.approvalNeeded) = true := by decide +kernel
  obtain ⟨spec, hspec, hneeded⟩ := Option.any_eq_true _ _ |>.1 hout
  obtain ⟨db', token, hclaim⟩ := replyClaim_eq_some hspec
  have happrovals : (replyDb "42").approvals.length = 0 := by decide +kernel
  rcases unattended_dispatch (Run.nil.calls (f := Db.after replyPlatform) (replyOps "42")) hclaim with
    ⟨env', t, policy, a, ha⟩ | ⟨hfalse, -, -, t, c, hrebound⟩
  · have hrow : a ∈ (replyDb "42").approvals := ha.row
    rw [List.length_eq_zero_iff.1 happrovals] at hrow
    cases hrow
  · exact ⟨spec, t, c, hspec, hfalse, hrebound⟩

end Runs

end AgentPlatform.Engine
