import AgentPlatform.Engine.Effects

/-!
# What an operation leaves alone

Most writes of an operation are on the status of steps and tasks, on approvals and on the counter of
identifiers. A reading of the database that sees none of these is `Unmoved`, and an operation changes
it only by its other writes, which `Written` lists: one for each operation at most.
-/

namespace AgentPlatform.Engine

open Outcome Table Pipeline Runs

/-- A reading of the database that no write on the state of the steps, the approvals, the status of
the tasks or the counter of identifiers changes. -/
structure Unmoved {α : Type} (f : Db → α) : Prop where
  setSteps : ∀ db p g, (∀ r, (g r).spec = r.spec) → f (db.setSteps p g) = f db
  setApprovals : ∀ db p g, f (db.setApprovals p g) = f db
  refresh : ∀ db tenant task, f (db.refresh tenant task) = f db
  drawn : ∀ (db : Db) n, f { db with drawn := n } = f db

/-- The other writes of an operation. -/
inductive Written (P : Platform) (db : Db) : Op → Db → Prop
  | same (op : Op) : Written P db op db
  | submitted {env : Env} {tenant channel eventKey agent fingerprint : String} {steps : List Json}
      {actor : String} {plan : List Validated}
      (hactive : env.requireActive db tenant = .ok ())
      (hplan : validated P env tenant agent steps (origin db tenant channel eventKey) = .ok plan)
      (houtbound : ∀ v ∈ plan, outboundAllowed env tenant channel agent
        (origin db tenant channel eventKey) v = .ok ())
      (hnew : db.taskOf? tenant channel eventKey = none) :
      Written P db (.submit env tenant channel eventKey agent steps actor)
        (db.insertTask tenant channel eventKey fingerprint agent actor plan "" env.now)
  | replied {env : Env} {tenant channel conversationId text actor role key agent : String}
      {fingerprint approver : String} {o : Origin} {plan : List Validated}
      (hactive : env.requireActive db tenant = .ok ())
      (horigin : operatorOrigin db tenant (channel ++ ".send") (replyArgs channel conversationId text) =
        .ok o)
      (hplan : validated P env tenant agent (replySteps channel conversationId text) (some o) =
        .ok plan)
      (hnew : db.taskOf? tenant operatorChannel (operatorReplyPrefix ++ key) = none) :
      Written P db (.operatorReply env tenant channel conversationId text actor role key agent)
        (db.insertTask tenant operatorChannel (operatorReplyPrefix ++ key) fingerprint agent actor
          plan approver env.now)
  | froze {env : Env} {tenant actor : String} {stopped : Bool} :
      Written P db (.freeze env tenant stopped actor) (db.setFreeze tenant stopped)
  | enrolled {env : Env} {tenant device actor : String} {revoked : Bool} :
      Written P db (.device env tenant device revoked actor) (db.setDevice tenant device revoked)
  | ended {tenant : String} {run : Uuid} {status status' : RunStatus}
      {reason reason' actor : String} :
      Written P db (.stop tenant run status reason actor) (db.endRun tenant run status' reason')
  | elsewhere {events : List EventRow} {runs : List AgentRunRow} {agentTurns : List AgentTurnRow} :
      Written P db (.elsewhere events runs agentTurns)
        { db with events := events, runs := runs, agentTurns := agentTurns }

theorem refreshAll_steps {db : Db} {tenant : String} {tasks : List Uuid} :
    (db.refreshAll tenant tasks).steps = db.steps := by
  unfold Db.refreshAll
  induction tasks generalizing db with
  | nil => rfl
  | cons task tasks ih => exact ih

section Unmoved

variable {α : Type} {f : Db → α} {P : Platform} {env : Env} {db db' : Db} {tenant : String}

theorem Unmoved.prod {β : Type} {g : Db → β} (hf : Unmoved f) (hg : Unmoved g) :
    Unmoved fun db => (f db, g db) where
  setSteps db p h hh := Prod.ext (hf.setSteps db p h hh) (hg.setSteps db p h hh)
  setApprovals db p h := Prod.ext (hf.setApprovals db p h) (hg.setApprovals db p h)
  refresh db tenant task := Prod.ext (hf.refresh db tenant task) (hg.refresh db tenant task)
  drawn db n := Prod.ext (hf.drawn db n) (hg.drawn db n)

theorem Unmoved.refreshAll (hf : Unmoved f) (db : Db) (tenant : String) (tasks : List Uuid) :
    f (db.refreshAll tenant tasks) = f db := by
  unfold Db.refreshAll
  induction tasks generalizing db with
  | nil => rfl
  | cons task tasks ih => exact (ih _).trans (hf.refresh db tenant task)

theorem Unmoved.skip (hf : Unmoved f) (db : Db) (tenant : String) (c : Candidate) (v : Review) :
    f (db.skip tenant c v) = f db := by
  cases v with
  | inactive =>
    simp only [Db.skip, Db.retire, hf.refresh, hf.setApprovals, hf.setSteps, implies_true]
  | failed error =>
    simp only [Db.skip, Db.failStep, Db.setStep, hf.refresh, hf.setSteps, implies_true]
  | waiting => simp only [Db.skip, Db.park, Db.setStep, hf.refresh, hf.setSteps, implies_true]
  | granted => rfl

theorem Unmoved.start (hf : Unmoved f) (db : Db) (tenant : String) (c : Candidate) (worker : String)
    (lease : Time) : f (db.start tenant c worker lease) = f db := by
  have hconsume : f (db.consume c) = f db := by
    unfold Db.consume
    split
    · exact hf.setApprovals _ _ _
    · rfl
  simp only [Db.start, Db.setStep, hf.refresh, hf.setSteps, implies_true, hf.drawn, hconsume]

theorem Unmoved.skipped (hf : Unmoved f) {cs : List Candidate}
    (h : Skipped P env tenant db cs db') : f db' = f db := by
  induction h with
  | nil => rfl
  | cons _ _ _ ih => exact ih.trans (hf.skip _ _ _ _)

theorem Unmoved.expireLeases (hf : Unmoved f) (db : Db) (tenant : String) (now : Time) :
    f (db.expireLeases tenant now) = f db := by
  unfold Db.expireLeases
  generalize db.steps.filter _ = rs
  induction rs generalizing db with
  | nil => rfl
  | cons r rs ih =>
    refine (ih _).trans ?_
    simp only [Db.expire, hf.refresh, hf.setSteps, implies_true]

theorem Unmoved.detach (hf : Unmoved f) (db : Db) (tenant device actor : String) :
    f (db.detach tenant device actor) = f db := by
  simp only [Db.detach, Db.rejectApprovals, hf.refreshAll, hf.setSteps, implies_true,
    hf.setApprovals]

theorem Unmoved.freezeSteps (hf : Unmoved f) (db : Db) (tenant : String) :
    f (db.freezeSteps tenant) = f db := by
  simp only [Db.freezeSteps, hf.refreshAll, hf.setSteps, implies_true]

theorem Unmoved.stopTask (hf : Unmoved f) (db : Db) (tenant : String) (task : Uuid) (linked : TaskRow)
    (status : RunStatus) (reason actor : String) :
    f (stopTask db tenant task linked status reason actor).1 = f db := by
  unfold Engine.stopTask
  refine (hf.setApprovals _ _ _).trans ?_
  split
  · simp only [Db.stopSteps, hf.refresh, hf.setSteps, implies_true]
  · rfl

/-- **Frame rule.** An operation changes an unmoved reading only by its other writes. An operation
that ends a run or detaches a device reads as if it did so first. -/
theorem Effect.written {op : Op} {out : Reply} (hf : Unmoved f)
    (hdevice : ∀ db db' tenant device revoked, f db' = f db →
      f (db'.setDevice tenant device revoked) = f (db.setDevice tenant device revoked))
    (hrun : ∀ db db' tenant run status reason, f db' = f db →
      f (db'.endRun tenant run status reason) = f (db.endRun tenant run status reason))
    (he : Effect P db op out db') : ∃ db₀, Written P db op db₀ ∧ f db' = f db₀ := by
  cases he with
  | submitted hplan hnew hactive houtbound => exact ⟨_, .submitted hactive hplan houtbound hnew, rfl⟩
  | replied _ hplan hnew hactive horigin => exact ⟨_, .replied hactive horigin hplan hnew, rfl⟩
  | elsewhere => exact ⟨_, .elsewhere, rfl⟩
  | same => exact ⟨_, .same _, rfl⟩
  | approved =>
    refine ⟨_, .same _, ?_⟩
    simp only [Db.decideStep, hf.refresh, hf.setSteps, implies_true, hf.setApprovals]
  | unclaimed _ hskipped =>
    exact ⟨_, .same _, (hf.skipped hskipped).trans (hf.expireLeases _ _ _)⟩
  | claimed _ hskipped =>
    refine ⟨_, .same _, (hf.start _ _ _ _ _).trans ?_⟩
    exact (hf.skipped hskipped).trans (hf.expireLeases _ _ _)
  | finished =>
    refine ⟨_, .same _, ?_⟩
    simp only [Db.complete, Db.setStep, hf.refresh, hf.setSteps, implies_true]
  | cancelled =>
    refine ⟨_, .same _, ?_⟩
    simp only [Db.cancelTask, Db.rejectApprovals, hf.refresh, hf.setApprovals, hf.setSteps,
      implies_true]
  | reconciled =>
    refine ⟨_, .same _, ?_⟩
    simp only [Db.settleStep, hf.refresh, hf.setSteps, implies_true]
  | provided =>
    refine ⟨_, .same _, ?_⟩
    simp only [Db.provideStep, hf.refresh, hf.setSteps, implies_true]
  | froze => exact ⟨_, .froze, hf.freezeSteps _ _⟩
  | resumed => exact ⟨_, .froze, rfl⟩
  | enrolled => exact ⟨_, .enrolled, hdevice _ _ _ _ _ (hf.detach _ _ _ _)⟩
  | ended => exact ⟨_, .ended, rfl⟩
  | stopped => exact ⟨_, .ended, hrun _ _ _ _ _ _ (hf.stopTask _ _ _ _ _ _ _)⟩

end Unmoved

/-! ### The columns that are unmoved -/

theorem events_unmoved : Unmoved Db.events := by
  constructor <;> intros <;> rfl

theorem freeze_unmoved : Unmoved Db.freeze := by
  constructor <;> intros <;> rfl

theorem devices_unmoved : Unmoved Db.devices := by
  constructor <;> intros <;> rfl

theorem runs_unmoved : Unmoved Db.runs := by
  constructor <;> intros <;> rfl

theorem agentTurns_unmoved : Unmoved Db.agentTurns := by
  constructor <;> intros <;> rfl

/-- What the steps were submitted with. -/
def Db.specs (db : Db) : List StepSpec := db.steps.map StepRow.spec

theorem specs_unmoved : Unmoved Db.specs where
  setSteps _ _ _ hg := map_update fun r _ _ => hg r
  setApprovals _ _ _ := rfl
  refresh _ _ _ := rfl
  drawn _ _ := rfl

section Columns

variable {P : Platform} {db db' : Db} {op : Op} {out : Reply}

theorem Effect.events (he : Effect P db op out db') :
    db'.events = db.events ∨ ∃ events runs agentTurns, op = .elsewhere events runs agentTurns := by
  obtain ⟨db₀, hw, heq⟩ := he.written events_unmoved (fun _ _ _ _ _ h => h) fun _ _ _ _ _ _ h => h
  rw [heq]
  cases hw with
  | elsewhere => exact .inr ⟨_, _, _, rfl⟩
  | _ => exact .inl rfl

theorem Effect.freeze (he : Effect P db op out db') :
    db'.freeze = db.freeze ∨ ∃ env tenant stopped actor, op = .freeze env tenant stopped actor ∧
      db'.freeze = (db.setFreeze tenant stopped).freeze := by
  obtain ⟨db₀, hw, heq⟩ := he.written freeze_unmoved (fun _ _ _ _ _ h => h) fun _ _ _ _ _ _ h => h
  rw [heq]
  cases hw with
  | froze => exact .inr ⟨_, _, _, _, rfl, rfl⟩
  | _ => exact .inl rfl

theorem Effect.devices (he : Effect P db op out db') :
    db'.devices = db.devices ∨ ∃ env tenant device revoked actor,
      op = .device env tenant device revoked actor ∧
        db'.devices = (db.setDevice tenant device revoked).devices := by
  obtain ⟨db₀, hw, heq⟩ := he.written devices_unmoved
    (fun db db' tenant device revoked h => by simp only [Db.setDevice, h])
    fun _ _ _ _ _ _ h => h
  rw [heq]
  cases hw with
  | enrolled => exact .inr ⟨_, _, _, _, _, rfl, rfl⟩
  | _ => exact .inl rfl

end Columns

end AgentPlatform.Engine
