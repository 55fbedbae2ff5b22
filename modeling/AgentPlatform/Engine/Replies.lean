import AgentPlatform.Engine.SingleStep

/-!
# Operators' replies

A task under the channel `operator` comes from `operator_reply` alone. So it has one step, which sends a
text to a conversation of an outbound channel (`Replying`), and a reply that was sent stays sent.
-/

namespace AgentPlatform.Engine

open Outcome Table Pipeline Runs

/-- The step sends a text to a conversation. -/
structure IsReply (spec : StepSpec) (channel conversationId text : String) : Prop where
  outbound : channel ∈ outboundChannels
  identity : isIdentity conversationId = true
  position : spec.position = 0
  tool : spec.tool = channel ++ ".send"
  args : spec.args = replyArgs channel conversationId text

/-- The task is one step, which sends a text. -/
def Sends (db : Db) (tenant : String) (task : Uuid) : Prop :=
  ∃ spec ∈ db.specs, spec.task = task ∧ spec.tenant = tenant ∧
    (∀ spec' ∈ db.specs, spec'.task = task → spec' = spec) ∧
      ∃ channel conversationId text, IsReply spec channel conversationId text

/-- The tasks with their tenants, channels and actors. -/
def Db.authors (db : Db) : List (Uuid × String × String × String) :=
  db.tasks.map fun t => (t.id, t.tenant, t.channel, t.actor)

/-- Every task of the reserved channel is the reply of an operator. -/
def Replying (db : Db) : Prop :=
  ∀ k ∈ db.authors, k.2.2.1 = operatorChannel → isIdentity k.2.2.2 = true ∧ Sends db k.2.1 k.1

theorem Sends.solo {db : Db} {tenant : String} {task : Uuid} (h : Sends db tenant task) :
    Solo db task := by
  obtain ⟨spec, hspec, htask, -, honly, -⟩ := h
  exact ⟨spec, hspec, htask, honly⟩

section Checks

variable {P : Platform} {env : Env} {db db' : Db} {tenant channel agent actor : String} {id : Uuid}

theorem submit_checks {eventKey : String} {steps : List Json}
    (h : submit P env db tenant channel eventKey agent steps actor = .ok (db', id)) :
    channel ≠ operatorChannel := by
  simp only [submit, bind_eq_ok, exists_unit, ensure_eq_ok] at h
  exact h.2.1

theorem operatorReply_checks {conversationId text role key : String}
    (h : operatorReply P env db tenant channel conversationId text actor role key agent =
      .ok (db', id)) :
    channel ∈ outboundChannels ∧ isIdentity actor = true ∧ isIdentity conversationId = true := by
  simp only [operatorReply, bind_eq_ok, exists_unit, ensure_eq_ok, List.all_cons, List.all_nil,
    Bool.and_true, Bool.and_eq_true] at h
  obtain ⟨houtbound, -, hidentity, -⟩ := h
  exact ⟨houtbound, hidentity.1, hidentity.2.2⟩

end Checks

section Columns

variable {P : Platform} {db db' : Db} {tenant : String}

theorem authors_unmoved : Unmoved Db.authors where
  setSteps _ _ _ _ := rfl
  setApprovals _ _ _ := rfl
  refresh _ _ _ := map_update fun _ _ _ => rfl
  drawn _ _ := rfl

variable {actor agent approver channel eventKey fingerprint : String} {plan : List Validated} {now : Time}

theorem authors_insertTask :
    (db.insertTask tenant channel eventKey fingerprint agent actor plan approver now).authors =
      db.authors ++ [(db.drawn, tenant, channel, actor)] := by
  unfold Db.insertTask
  rw [authors_unmoved.refresh]
  exact List.map_append

/-- A new task takes nothing from the ones there are. -/
theorem Sends.insertTask (hwf : Wf db) {task : Uuid} (h : Sends db tenant task) {tenant' : String} :
    Sends (db.insertTask tenant' channel eventKey fingerprint agent actor plan approver now) tenant
      task := by
  obtain ⟨spec, hspec, htask, htenant, honly, hreply⟩ := h
  have hmem : spec ∈ (db.insertTask tenant' channel eventKey fingerprint agent actor plan approver
      now).specs := by
    unfold Db.insertTask
    rw [specs_unmoved.refresh]
    obtain ⟨r, hr, rfl⟩ := List.mem_map.1 hspec
    exact List.mem_map_of_mem (List.mem_append_left _ hr)
  refine ⟨spec, hmem, htask, htenant, fun spec' hspec' htask' => ?_, hreply⟩
  rcases mem_specs_insertTask hspec' with hold | ⟨hnew, -⟩
  · exact honly spec' hold htask'
  · -- the task was there before, so it is not the new one
    have hlt := hwf.spec_drawn hspec
    rw [htask, ← htask', hnew] at hlt
    exact absurd hlt (Nat.lt_irrefl _)

theorem Replying.insertTask (hwf : Wf db) (h : Replying db)
    (hnew : channel = operatorChannel → isIdentity actor = true ∧
      Sends (db.insertTask tenant channel eventKey fingerprint agent actor plan approver now) tenant
        db.drawn) :
    Replying (db.insertTask tenant channel eventKey fingerprint agent actor plan approver now) := by
  intro k hk hchannel
  rw [authors_insertTask] at hk
  rcases List.mem_append.1 hk with hk | hk
  · exact (h k hk hchannel).imp_right fun hsends => hsends.insertTask hwf
  · obtain rfl := List.mem_singleton.1 hk
    exact hnew hchannel

/-- The task of an operator's reply sends its text. -/
theorem sends_insertTask (hwf : Wf db) {env : Env} {o : Option Origin} {conversationId text : String}
    (hplan : validated P env tenant agent (replySteps channel conversationId text) o = .ok plan)
    (houtbound : channel ∈ outboundChannels) (hidentity : isIdentity conversationId = true) :
    Sends (db.insertTask tenant operatorChannel eventKey fingerprint agent actor plan approver now)
      tenant db.drawn := by
  obtain ⟨policy, -, hforall⟩ := validated_cases hplan
  obtain ⟨v, hstep, rfl⟩ : ∃ v, validatedStep P env tenant agent policy o
      (.obj [("tool", .str (channel ++ ".send")), ("args", replyArgs channel conversationId text)]) =
        .ok v ∧ plan = [v] := by
    cases hforall with
    | cons hstep hrest =>
      cases hrest
      exact ⟨_, hstep, rfl⟩
  obtain ⟨hname, hargs, -⟩ := validatedStep_cases hstep
  refine ⟨⟨db.drawn + 1 + 0, db.drawn, tenant, 0, v.tool, v.args, v.risk, v.needed, v.fingerprint,
    v.device⟩, ?_, rfl, rfl, fun spec hspec htask => specs_of_insertTask_one hwf hspec htask, channel,
    conversationId, text, houtbound, hidentity, rfl, (Except.ok.inj hname).symm, hargs⟩
  rw [specs_insertTask_one]
  exact List.mem_append_right _ List.mem_cons_self

end Columns

/-! ### Along a run -/

/-- What every reachable database keeps. -/
structure Regular (db : Db) : Prop where
  orderly : Orderly db
  synced : Synced db
  replying : Replying db

theorem regular_empty : Regular {} := ⟨orderly_empty, synced_empty, fun _ hk => by cases hk⟩

section Steps

variable {P : Platform} {db db' : Db} {op : Op} {τs : List (Transition Db Op)}

theorem Step.replying (ho : Orderly db) (h : Replying db) (hs : Step P db op db') :
    Replying db' := by
  rw [Step, Db.after] at hs
  cases hx : exec P db op with
  | error e =>
    rw [hx] at hs
    exact hs ▸ h
  | ok r =>
    obtain ⟨db'', out⟩ := r
    rw [hx] at hs
    obtain rfl : db' = db'' := hs
    obtain ⟨db₀, hw, heq⟩ := (exec_effect hx).written (specs_unmoved.prod authors_unmoved)
      (fun _ _ _ _ _ h => h) fun _ _ _ _ _ _ h => h
    obtain ⟨hspecs, hauthors⟩ := Prod.mk.inj heq
    have hwritten : Replying db₀ := by
      cases hw with
      | same | froze | enrolled | ended | elsewhere => exact h
      | submitted =>
        obtain ⟨id, hsubmit, -⟩ := task_of_map hx
        exact h.insertTask ho.wf fun hchannel => absurd hchannel (submit_checks hsubmit)
      | replied _ _ hplan =>
        obtain ⟨id, hreply, -⟩ := task_of_map hx
        obtain ⟨houtbound, hactor, hidentity⟩ := operatorReply_checks hreply
        exact h.insertTask ho.wf fun _ => ⟨hactor, sends_insertTask ho.wf hplan houtbound hidentity⟩
    unfold Replying Sends at hwritten ⊢
    rw [hspecs, hauthors]
    exact hwritten

theorem Step.regular (h : Regular db) (hs : Step P db op db') : Regular db' := by
  obtain ⟨horderly, hsynced⟩ := Step.synced ⟨h.orderly, h.synced⟩ hs
  exact ⟨horderly, hsynced, Step.replying h.orderly h.replying hs⟩

theorem reachable_regular (h : Run (Step P) {} τs db) : Regular db :=
  h.invariant regular_empty fun _ _ _ => Step.regular

theorem Regular.sends (h : Regular db) {t : TaskRow} (ht : t ∈ db.tasks)
    (hchannel : t.channel = operatorChannel) :
    isIdentity t.actor = true ∧ Sends db t.tenant t.id :=
  h.replying _ (List.mem_map_of_mem ht) hchannel

theorem Regular.reply_kept (h : Regular db) (hr : Run (Step P) db τs db') {t : TaskRow}
    (ht : t ∈ db.tasks) (hchannel : t.channel = operatorChannel)
    (hterminal : t.status.terminal = true) : Regular db' ∧ t ∈ db'.tasks := by
  refine hr.invariant (I := fun db => Regular db ∧ t ∈ db.tasks) ⟨h, ht⟩ ?_
  rintro db op db' ⟨h, ht⟩ hs
  obtain ⟨out, he, -⟩ := hs.effect
  exact ⟨hs.regular h, he.solo_kept h.orderly h.synced (h.sends ht hchannel).2.solo ht rfl hterminal⟩

theorem Regular.specs_kept (h : Regular db) (hr : Run (Step P) db τs db') {spec : StepSpec}
    (hspec : spec ∈ db.specs) : spec ∈ db'.specs := by
  refine (hr.invariant (I := fun db => Regular db ∧ spec ∈ db.specs) ⟨h, hspec⟩ ?_).2
  rintro db op db' ⟨h, hspec⟩ hs
  obtain ⟨out, he, -⟩ := hs.effect
  exact ⟨hs.regular h, he.specs_kept h.orderly hspec⟩

end Steps

end AgentPlatform.Engine
