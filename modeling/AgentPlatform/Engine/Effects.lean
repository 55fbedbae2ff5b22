import AgentPlatform.Engine.Moves

/-!
# What one operation can do

`Effect` lists the committed effects of the operations with the guards each one checked and its
reply; `exec_effect` is the only place where the operations are taken apart.
-/

namespace AgentPlatform.Engine

open Outcome Table Pipeline Runs

/-- The writes for a candidate that was not granted. -/
def Db.skip (db : Db) (tenant : String) (c : Candidate) : Review → Db
  | .inactive => db.retire tenant c
  | .failed error => db.failStep tenant c error
  | .waiting => db.park tenant c
  | .granted => db

/-- Candidates reviewed one after the other, none of them granted. -/
inductive Skipped (P : Platform) (env : Env) (tenant : String) : Db → List Candidate → Db → Prop
  | nil (db : Db) : Skipped P env tenant db [] db
  | cons {db db' : Db} {c : Candidate} {rest : List Candidate} {v : Review}
      (hreview : review P env db tenant c = .ok v) (hv : v ≠ .granted)
      (hrest : Skipped P env tenant (db.skip tenant c v) rest db') :
      Skipped P env tenant db (c :: rest) db'

/-- The arguments of an operator's reply. -/
def replyArgs (channel conversationId text : String) : Json :=
  .obj [((directDestinationField (channel ++ ".send")).getD "", .str conversationId),
    ("text", .str text)]

/-- The steps of an operator's reply. -/
def replySteps (channel conversationId text : String) : List Json :=
  [.obj [("tool", .str (channel ++ ".send")), ("args", replyArgs channel conversationId text)]]

/-- The committed effects of an operation, with its reply. -/
inductive Effect (P : Platform) (db : Db) : Op → Reply → Db → Prop
  | same (op : Op) {out : Reply} (hout : ∀ spec token, out ≠ .claimed spec token) :
      Effect P db op out db
  | submitted {env : Env} {tenant channel eventKey agent fingerprint : String} {steps : List Json}
      {actor : String} {plan : List Validated}
      (hplan : validated P env tenant agent steps (origin db tenant channel eventKey) = .ok plan)
      (hnew : db.taskOf? tenant channel eventKey = none)
      (hactive : env.requireActive db tenant = .ok ())
      (houtbound : ∀ v ∈ plan, outboundAllowed env tenant channel agent
        (origin db tenant channel eventKey) v = .ok ()) :
      Effect P db (.submit env tenant channel eventKey agent steps actor) (.task db.drawn)
        (db.insertTask tenant channel eventKey fingerprint agent actor plan "" env.now)
  | replied {env : Env} {tenant channel conversationId text actor role key agent : String}
      {fingerprint : String} {policy : Json} {o : Origin} {plan : List Validated}
      (hpolicy : env.policy tenant agent = .ok policy)
      (hplan : validated P env tenant agent (replySteps channel conversationId text) (some o) =
        .ok plan)
      (hnew : db.taskOf? tenant operatorChannel (operatorReplyPrefix ++ key) = none)
      (hactive : env.requireActive db tenant = .ok ())
      (horigin : operatorOrigin db tenant (channel ++ ".send")
        (replyArgs channel conversationId text) = .ok o) :
      Effect P db (.operatorReply env tenant channel conversationId text actor role key agent)
        (.task db.drawn)
        (db.insertTask tenant operatorChannel (operatorReplyPrefix ++ key) fingerprint agent actor
          plan (if independentApproval policy then "" else actor) env.now)
  | approved {env : Env} {tenant actor decision role : String} {a : ApprovalRow} {s : StepRow}
      {t : TaskRow} {policy : Json} (hdecision : decision = "approved" ∨ decision = "rejected")
      (ha : db.approval? tenant s.id = some a) (hs : s ∈ db.steps)
      (ht : db.owner? s = some t) (hpolicy : env.policy tenant t.agent = .ok policy)
      (hindependent : ¬ (decision = "approved" ∧ independentApproval policy = true ∧
        actor = t.actor))
      (hpending : a.status = .pending) (hexpires : env.now < a.expires)
      (hstep : s.status.pending = true) :
      Effect P db (.approve env tenant s.id actor decision role) .none
        (db.decideStep tenant s.id s.task actor decision)
  | unclaimed {env : Env} {tenant worker device : String} {leaseSeconds : ℤ}
      {cs : List Candidate} {db' : Db}
      (hcs : cs = [] ∨ cs = candidates (db.expireLeases tenant env.now) tenant device)
      (hskipped : Skipped P env tenant (db.expireLeases tenant env.now) cs db') :
      Effect P db (.claim env tenant worker device leaseSeconds) .none db'
  | claimed {env : Env} {tenant worker device : String} {leaseSeconds : ℤ}
      {skipped rest : List Candidate} {c : Candidate} {db₁ : Db}
      (hcs : candidates (db.expireLeases tenant env.now) tenant device = skipped ++ c :: rest)
      (hskipped : Skipped P env tenant (db.expireLeases tenant env.now) skipped db₁)
      (hreview : review P env db₁ tenant c = .ok .granted)
      (hactive : (db.expireLeases tenant env.now).frozen tenant = false) :
      Effect P db (.claim env tenant worker device leaseSeconds) (.claimed c.step.spec db₁.drawn)
        (db₁.start tenant c worker (env.now + seconds leaseSeconds))
  | finished {env : Env} {r : StepRow} {token : Option Uuid} {result : Json} {status : Status}
      {error : String} (hr : r ∈ db.steps) (hrunning : r.status = .running)
      (hstatus : status = .succeeded ∨ status = .failed ∨ status = .uncertain) :
      Effect P db (.finish env r.tenant r.id token result status error) .none
        (db.complete r.tenant r.id r.task result status error)
  | cancelled {env : Env} {tenant : String} {t : TaskRow} {actor : String}
      (ht : db.task? tenant t.id = some t) (hterminal : t.status.terminal = false) :
      Effect P db (.cancel env tenant t.id actor) .none (db.cancelTask tenant t.id)
  | reconciled {env : Env} {r : StepRow} {actor role outcome evidence : String}
      (houtcome : outcome = "succeeded" ∨ outcome = "failed") (hr : r ∈ db.steps)
      (huncertain : r.status = .uncertain) :
      Effect P db (.reconcile env r.tenant r.id actor role outcome evidence) .none
        (db.settleStep r.tenant r.id r.task
          (if outcome = "succeeded" then .succeeded else .failed))
  | provided {r : StepRow} {receipt : Json} (hr : r ∈ db.steps) (huncertain : r.status = .uncertain) :
      Effect P db (.googleReconcile r.tenant r.id receipt) .none
        (db.provideStep r.tenant r.id r.task receipt)
  | froze {env : Env} {tenant actor : String} :
      Effect P db (.freeze env tenant true actor) .none
        ((db.setFreeze tenant true).freezeSteps tenant)
  | resumed {env : Env} {tenant actor : String} :
      Effect P db (.freeze env tenant false actor) .none (db.setFreeze tenant false)
  | enrolled {env : Env} {tenant device actor : String} {revoked : Bool} {generation : ℕ} :
      Effect P db (.device env tenant device revoked actor) (.generation generation)
        ((db.detach tenant device actor).setDevice tenant device revoked)
  | ended {tenant : String} {run : Uuid} {status status' : RunStatus}
      {reason reason' actor : String} :
      Effect P db (.stop tenant run status reason actor) (.run status')
        (db.endRun tenant run status' reason')
  | stopped {tenant : String} {run task : Uuid} {status status' : RunStatus}
      {reason actor : String} {linked : TaskRow} (hlinked : db.task? tenant task = some linked) :
      Effect P db (.stop tenant run status reason actor) (.run status')
        ((stopTask db tenant task linked status reason actor).1.endRun tenant run status' reason)
  | elsewhere {events : List EventRow} {runs : List AgentRunRow}
      {agentTurns : List AgentTurnRow} :
      Effect P db (.elsewhere events runs agentTurns) .none
        { db with events := events, runs := runs, agentTurns := agentTurns }

section Cases

variable {P : Platform} {env : Env} {db db' : Db} {tenant : String} {out : Reply}

variable {actor agent channel : String} {id : Uuid}

theorem createTask_cases {eventKey approver : String} {steps : List Json} {plan : List Validated}
    (h : createTask P env db tenant channel eventKey agent steps actor plan approver =
      .ok (db', id)) :
    (∃ old, db.taskOf? tenant channel eventKey = some old ∧ db' = db ∧ id = old.id) ∨
      db.taskOf? tenant channel eventKey = none ∧ id = db.drawn ∧
        env.requireActive db tenant = .ok () ∧ ∃ fingerprint,
          db' = db.insertTask tenant channel eventKey fingerprint agent actor plan approver env.now := by
  simp only [createTask, bind_eq_ok, exists_unit] at h
  obtain ⟨-, h⟩ := h
  split at h
  · rename_i old hold
    simp only [bind_eq_ok, exists_unit, ensure_eq_ok, pure_eq_ok, Prod.mk.injEq] at h
    exact .inl ⟨old, hold, h.2.1.symm, h.2.2.symm⟩
  · rename_i hnew
    simp only [bind_eq_ok, exists_unit, ensure_eq_ok, pure_eq_ok, Prod.mk.injEq] at h
    obtain ⟨hactive, -, rfl, rfl⟩ := h
    exact .inr ⟨hnew, rfl, hactive, _, rfl⟩

theorem task_ne_claimed : ∀ spec token, Reply.task id ≠ .claimed spec token := by
  intro spec token h
  cases h

theorem submit_effect {eventKey : String} {steps : List Json}
    (h : submit P env db tenant channel eventKey agent steps actor = .ok (db', id)) :
    Effect P db (.submit env tenant channel eventKey agent steps actor) (.task id) db' := by
  simp only [submit, bind_eq_ok, exists_unit, ensure_eq_ok] at h
  obtain ⟨-, -, plan, hplan, houtbound, h⟩ := h
  rcases createTask_cases h with ⟨old, -, rfl, -⟩ | ⟨hnew, rfl, hactive, fingerprint, rfl⟩
  · exact .same _ task_ne_claimed
  · exact .submitted hplan hnew hactive (forM_eq_ok.1 houtbound)

variable {role : String}

theorem operatorReply_effect {conversationId text key : String}
    (h : operatorReply P env db tenant channel conversationId text actor role key agent =
      .ok (db', id)) :
    Effect P db (.operatorReply env tenant channel conversationId text actor role key agent)
      (.task id) db' := by
  simp only [operatorReply, bind_eq_ok, exists_unit, ensure_eq_ok] at h
  obtain ⟨-, -, -, -, -, policy, hpolicy, -, -, o, horigin, plan, hplan, h⟩ := h
  rcases createTask_cases h with ⟨old, -, rfl, -⟩ | ⟨hnew, rfl, hactive, fingerprint, rfl⟩
  · exact .same _ task_ne_claimed
  · exact .replied hpolicy hplan hnew hactive horigin

variable {step : Uuid}

theorem approve_effect {decision : String}
    (h : approve env db tenant step actor decision role = .ok (db', out)) :
    Effect P db (.approve env tenant step actor decision role) out db' := by
  simp only [approve, bind_eq_ok, exists_unit, ensure_eq_ok, need_eq_ok, pure_eq_ok,
    Prod.mk.injEq] at h
  obtain ⟨-, hdecision, a, ha, s, hs, t, ht, -, -, policy, hpolicy, -, hindependent, -, -,
    ⟨hpending, hstep, hexpires⟩, rfl, rfl⟩ := h
  have hid : s.id = step := by simpa using List.find?_some hs
  subst hid
  exact .approved hdecision ha (List.mem_of_find?_eq_some hs) ht hpolicy hindependent hpending
    hexpires hstep

/-- The loop of `claim` skips all its candidates, or some and grants the next. -/
theorem claimNext_cases {worker : String} {lease : Time} {cs : List Candidate}
    (h : claimNext P env tenant worker lease db cs = .ok (db', out)) :
    out = .none ∧ Skipped P env tenant db cs db' ∨
      ∃ skipped c rest db₁, cs = skipped ++ c :: rest ∧ Skipped P env tenant db skipped db₁ ∧
        review P env db₁ tenant c = .ok .granted ∧ db' = db₁.start tenant c worker lease ∧
          out = .claimed c.step.spec db₁.drawn := by
  induction cs generalizing db with
  | nil =>
    simp only [claimNext, Except.ok.injEq, Prod.mk.injEq] at h
    obtain ⟨rfl, rfl⟩ := h
    exact .inl ⟨rfl, .nil _⟩
  | cons c cs ih =>
    have hnext : ∀ v, review P env db tenant c = .ok v → v ≠ .granted →
        claimNext P env tenant worker lease (db.skip tenant c v) cs = .ok (db', out) →
        out = .none ∧ Skipped P env tenant db (c :: cs) db' ∨
          ∃ skipped c' rest db₁, c :: cs = skipped ++ c' :: rest ∧
            Skipped P env tenant db skipped db₁ ∧ review P env db₁ tenant c' = .ok .granted ∧
              db' = db₁.start tenant c' worker lease ∧ out = .claimed c'.step.spec db₁.drawn := by
      intro v hreview hv h
      rcases ih h with ⟨rfl, hskipped⟩ | ⟨skipped, c', rest, db₁, rfl, hskipped, hgranted, rfl, rfl⟩
      · exact .inl ⟨rfl, .cons hreview hv hskipped⟩
      · exact .inr ⟨c :: skipped, c', rest, db₁, rfl, .cons hreview hv hskipped, hgranted, rfl, rfl⟩
    rw [claimNext] at h
    split at h
    · cases h
    · exact hnext .inactive ‹_› (by simp) h
    · exact hnext (.failed _) ‹_› (by simp) h
    · exact hnext .waiting ‹_› (by simp) h
    · rename_i hgranted
      simp only [Except.ok.injEq, Prod.mk.injEq] at h
      obtain ⟨rfl, rfl⟩ := h
      exact .inr ⟨[], c, cs, db, rfl, .nil _, hgranted, rfl, rfl⟩

theorem claim_effect {worker device : String} {leaseSeconds : ℤ}
    (h : claim P env db tenant worker device leaseSeconds = .ok (db', out)) :
    Effect P db (.claim env tenant worker device leaseSeconds) out db' := by
  simp only [claim, bind_eq_ok, exists_unit, ensure_eq_ok] at h
  obtain ⟨-, h⟩ := h
  split at h
  · simp only [pure_eq_ok, Prod.mk.injEq] at h
    obtain ⟨rfl, rfl⟩ := h
    exact .unclaimed (.inl rfl) (.nil _)
  · rename_i hfrozen
    split at h
    · split at h
      · simp only [pure_eq_ok, Prod.mk.injEq] at h
        obtain ⟨rfl, rfl⟩ := h
        exact .unclaimed (.inl rfl) (.nil _)
      · cases h
    · have hnext : claimNext P env tenant worker (env.now + seconds leaseSeconds)
          (db.expireLeases tenant env.now)
          (candidates (db.expireLeases tenant env.now) tenant device) = .ok (db', out) := by
        split at h
        · simp only [bind_eq_ok] at h
          obtain ⟨_, -, h⟩ := h
          exact h
        · exact h
      rcases claimNext_cases hnext with ⟨rfl, hskipped⟩ | ⟨skipped, c, rest, db₁, hcs, hskipped,
        hgranted, rfl, rfl⟩
      · exact .unclaimed (.inr rfl) hskipped
      · exact .claimed hcs hskipped hgranted (by simpa using hfrozen)

theorem finish_effect {token : Option Uuid} {result : Json} {status : Status} {error : String}
    (h : finish env db tenant step token result status error = .ok (db', out)) :
    Effect P db (.finish env tenant step token result status error) out db' := by
  simp only [finish, bind_eq_ok, exists_unit, ensure_eq_ok, need_eq_ok, pure_eq_ok,
    Prod.mk.injEq] at h
  obtain ⟨hstatus, -, r, hr, rfl, rfl⟩ := h
  have hfound := List.find?_some hr
  simp only [Bool.and_eq_true, decide_eq_true_eq] at hfound
  obtain ⟨⟨⟨⟨rfl, rfl⟩, -⟩, hrunning⟩, -⟩ := hfound
  exact .finished (List.mem_of_find?_eq_some hr) hrunning hstatus

theorem cancel_effect {task : Uuid} (h : cancel env db tenant task actor = .ok (db', out)) :
    Effect P db (.cancel env tenant task actor) out db' := by
  simp only [cancel, bind_eq_ok, exists_unit, ensure_eq_ok, need_eq_ok, pure_eq_ok,
    Prod.mk.injEq] at h
  obtain ⟨-, t, ht, hterminal, rfl, rfl⟩ := h
  have hfound := List.find?_some ht
  simp only [Bool.and_eq_true, decide_eq_true_eq] at hfound
  obtain rfl := hfound.2
  exact .cancelled ht hterminal

theorem reconcile_effect {outcome evidence : String}
    (h : reconcile env db tenant step actor role outcome evidence = .ok (db', out)) :
    Effect P db (.reconcile env tenant step actor role outcome evidence) out db' := by
  simp only [reconcile, bind_eq_ok, exists_unit, ensure_eq_ok, need_eq_ok, pure_eq_ok,
    Prod.mk.injEq] at h
  obtain ⟨-, ⟨houtcome, -⟩, -, r, hr, rfl, rfl⟩ := h
  have hfound := List.find?_some hr
  simp only [Bool.and_eq_true, decide_eq_true_eq] at hfound
  obtain ⟨⟨rfl, rfl⟩, huncertain⟩ := hfound
  exact .reconciled houtcome (List.mem_of_find?_eq_some hr) huncertain

theorem googleReconcile_effect {receipt : Json} (h : googleReconcile db tenant step receipt = .ok (db', out)) :
    Effect P db (.googleReconcile tenant step receipt) out db' := by
  simp only [googleReconcile, bind_eq_ok, exists_unit, ensure_eq_ok, need_eq_ok, pure_eq_ok,
    Prod.mk.injEq] at h
  obtain ⟨r, hr, huncertain, rfl, rfl⟩ := h
  have hfound := List.find?_some hr
  simp only [Bool.and_eq_true, decide_eq_true_eq] at hfound
  obtain ⟨rfl, rfl⟩ := hfound
  exact .provided (List.mem_of_find?_eq_some hr) huncertain

theorem freeze_effect {stopped : Bool} (h : freeze env db tenant stopped actor = .ok (db', out)) :
    Effect P db (.freeze env tenant stopped actor) out db' := by
  simp only [freeze, bind_eq_ok, exists_unit] at h
  obtain ⟨-, h⟩ := h
  cases stopped with
  | true =>
    simp only [if_true, pure_eq_ok, Prod.mk.injEq] at h
    obtain ⟨rfl, rfl⟩ := h
    exact .froze
  | false =>
    simp only [Bool.false_eq_true, if_false, pure_eq_ok, Prod.mk.injEq] at h
    obtain ⟨rfl, rfl⟩ := h
    exact .resumed

/-- What `device` writes, and the row whose generation it returns. -/
theorem device_row {name : String} {revoked : Bool}
    (h : device env db tenant name revoked actor = .ok (db', out)) :
    db' = (db.detach tenant name actor).setDevice tenant name revoked ∧ ∃ row,
      db'.devices.find? (fun d => decide (d.tenant = tenant) && decide (d.id = name)) = some row ∧
        out = .generation row.generation := by
  simp only [device, bind_eq_ok, exists_unit, ensure_eq_ok] at h
  obtain ⟨-, -, h⟩ := h
  have hrest : ∃ row, ((db.detach tenant name actor).setDevice tenant name revoked).devices.find?
      (fun d => decide (d.tenant = tenant) && decide (d.id = name)) = some row ∧
        ((db.detach tenant name actor).setDevice tenant name revoked,
          Reply.generation row.generation) = (db', out) := by
    split at h
    · obtain ⟨_, -, h⟩ := bind_eq_ok.1 h
      simpa only [bind_eq_ok, need_eq_ok, pure_eq_ok] using h
    · simpa only [bind_eq_ok, need_eq_ok, pure_eq_ok] using h
  obtain ⟨row, hrow, hout⟩ := hrest
  obtain ⟨rfl, rfl⟩ := Prod.mk.inj hout
  exact ⟨rfl, row, hrow, rfl⟩

theorem device_effect {name : String} {revoked : Bool}
    (h : device env db tenant name revoked actor = .ok (db', out)) :
    Effect P db (.device env tenant name revoked actor) out db' := by
  obtain ⟨rfl, row, -, rfl⟩ := device_row h
  exact .enrolled

theorem stop_effect {run : Uuid} {status : RunStatus} {reason : String}
    (h : stop db tenant run status reason actor = .ok (db', out)) :
    Effect P db (.stop tenant run status reason actor) out db' := by
  simp only [stop, bind_eq_ok, need_eq_ok] at h
  obtain ⟨row, hrow, h⟩ := h
  have htenant : row.tenant = tenant := by
    have hfound := List.find?_some hrow
    simp only [Bool.and_eq_true, decide_eq_true_eq] at hfound
    exact hfound.1
  split at h
  · simp only [pure_eq_ok, Prod.mk.injEq] at h
    obtain ⟨rfl, rfl⟩ := h
    exact .ended
  · split at h
    · simp only [pure_eq_ok, Prod.mk.injEq] at h
      obtain ⟨rfl, rfl⟩ := h
      exact .ended
    · rename_i linked hlinked
      simp only [pure_eq_ok, Prod.mk.injEq] at h
      obtain ⟨rfl, rfl⟩ := h
      refine .stopped ?_
      unfold Db.linked? at hlinked
      split at hlinked
      · rwa [htenant] at hlinked
      · cases hlinked

end Cases

variable {db' : Db}

theorem task_of_map {x : Except Err (Db × Uuid)} {out : Reply}
    (h : (x.map fun (db, id) => (db, Reply.task id)) = .ok (db', out)) :
    ∃ id, x = .ok (db', id) ∧ out = .task id := by
  cases x with
  | error e => cases h
  | ok y =>
    simp only [Except.map, Except.ok.injEq, Prod.mk.injEq] at h
    exact ⟨y.2, by rw [← h.1], h.2.symm⟩

/-- Every committed operation has one of the effects. -/
theorem exec_effect {P : Platform} {db : Db} {op : Op} {out : Reply} (h : exec P db op = .ok (db', out)) :
    Effect P db op out db' := by
  cases op with
  | submit =>
    obtain ⟨id, hx, rfl⟩ := task_of_map h
    exact submit_effect hx
  | operatorReply =>
    obtain ⟨id, hx, rfl⟩ := task_of_map h
    exact operatorReply_effect hx
  | approve => exact approve_effect h
  | claim => exact claim_effect h
  | finish => exact finish_effect h
  | cancel => exact cancel_effect h
  | reconcile => exact reconcile_effect h
  | googleReconcile => exact googleReconcile_effect h
  | freeze => exact freeze_effect h
  | device => exact device_effect h
  | stop => exact stop_effect h
  | elsewhere =>
    simp only [exec, Except.ok.injEq, Prod.mk.injEq] at h
    obtain ⟨rfl, rfl⟩ := h
    exact .elsewhere

/-- The step that `claim` returned in a transition. -/
def handedOut (P : Platform) (τ : Transition Db Op) : Option StepSpec :=
  match exec P τ.src τ.label with
  | .ok (_, .claimed spec _) => some spec
  | _ => none

theorem Step.effect {P : Platform} {db : Db} {op : Op} (h : Step P db op db') :
    ∃ out, Effect P db op out db' ∧
      ∀ spec, handedOut P ⟨db, op, db'⟩ = some spec ↔ ∃ token, out = .claimed spec token := by
  rw [Step, Db.after] at h
  unfold handedOut
  cases hx : exec P db op with
  | ok r =>
    obtain ⟨db'', out⟩ := r
    rw [hx] at h
    obtain rfl : db' = db'' := h
    refine ⟨out, exec_effect hx, fun spec => ?_⟩
    cases out <;> simp
  | error e =>
    rw [hx] at h
    obtain rfl : db' = db := h
    exact ⟨.none, .same op (fun _ _ h => by cases h), fun spec => by simp⟩

end AgentPlatform.Engine
