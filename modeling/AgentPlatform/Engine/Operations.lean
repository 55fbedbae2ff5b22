import Mathlib.Data.List.Dedup
import Mathlib.Data.List.Sort
import AgentPlatform.Engine.Policy

/-!
# The operations of the engine

Each operation is one write transaction: it raises, or returns the database it commits and its reply.

* `submit` and `operatorReply` insert a validated plan, once for each key;
* `approve` decides an approval, `claim` hands out the next step, `finish` records its result;
* `cancel`, `reconcile`, `freeze` and `device` are the operator's; `stop` is `AgentLoop._stop`, and
  `googleReconcile` settles a step from what the provider shows.

`claim` reviews its candidates in order (`claimNext`): it retires, fails or parks a candidate and goes
on, until one is granted.
-/

namespace AgentPlatform.Engine

open Outcome

/-- What an operation returns. -/
inductive Reply
  | none
  | task (id : Uuid)
  /-- The step `claim` hands out, with its token. -/
  | claimed (spec : StepSpec) (token : Uuid)
  | generation (n : ℕ)
  | run (status : RunStatus)

/-- A nonempty text of at most 256 characters. -/
def isIdentity (value : String) : Bool := decide (value ≠ "") && decide (value.length ≤ 256)

/-! ### Submitting -/

/-- The steps of a new task; their identifiers are drawn from `first` on. -/
def newSteps (tenant : String) (task first : Uuid) (plan : List Validated) : List StepRow :=
  plan.mapIdx fun position v =>
    { spec := ⟨first + position, task, tenant, position, v.tool, v.args, v.risk, v.needed,
        v.fingerprint, v.device⟩
      status := .queued, claim := none, worker := "", lease := 0, attempts := 0, result := .obj []
      error := "" }

/-- The approvals of a new task, already decided where there is an `approver`. -/
def newApprovals (tenant : String) (first : Uuid) (plan : List Validated) (approver : String)
    (now : Time) : List ApprovalRow :=
  (plan.mapIdx fun position v => (first + position, v)).filterMap fun (step, v) =>
    if v.needed then
      some ⟨step, tenant, v.fingerprint, if approver = "" then .pending else .approved, approver,
        now + seconds 86400⟩
    else none

/-- The rows of a new task, and its first `_refresh`. -/
def Db.insertTask (db : Db) (tenant channel eventKey fingerprint agent actor : String)
    (plan : List Validated) (approver : String) (now : Time) : Db :=
  Db.refresh { db with
    tasks := db.tasks ++ [⟨db.drawn, tenant, channel, eventKey, fingerprint, agent, actor, .queued,
      now⟩]
    steps := db.steps ++ newSteps tenant db.drawn (db.drawn + 1) plan
    approvals := db.approvals ++ newApprovals tenant (db.drawn + 1) plan approver now
    drawn := db.drawn + 1 + plan.length } tenant db.drawn

/-- `_create_task`. -/
def createTask (P : Platform) (env : Env) (db : Db) (tenant channel eventKey agent : String)
    (steps : List Json) (actor : String) (plan : List Validated) (approver : String := "") :
    Except Err (Db × Uuid) := do
  let fingerprint := digest P.sha256 (.obj [("agent", .str agent), ("steps", .arr steps)])
  env.requireAuthority tenant channel actor
  match db.taskOf? tenant channel eventKey with
  | some old =>
    ensure (old.fingerprint = fingerprint)
      (.conflict "Idempotency key reused with different payload")
    pure (db, old.id)
  | none =>
    env.requireActive db tenant
    ensure (db.tasks.countP (fun t => decide (t.tenant = tenant) && t.status.active) < 1000)
      (.rateLimited "Task queue full")
    pure (db.insertTask tenant channel eventKey fingerprint agent actor plan approver env.now,
      db.drawn)

/-- The destination check of one outbound step. -/
def outboundAllowed (env : Env) (tenant channel agent : String) (origin : Option Origin)
    (v : Validated) : Except Err Unit :=
  match directDestinationField v.tool with
  | none => pure ()
  | some field => do
    let recipient := v.args.getD field .null
    if channel ∈ outboundChannels then
      ensure ((origin.any fun o => decide (v.tool = channel ++ ".send") &&
          o.conversationId.same recipient) = true)
        (.forbidden "Outbound destination differs from verified inbound event")
    else do
      let policy ← env.policy tenant agent
      ensure (((policy.getD "allowed_recipients" (.arr [])).items.any recipient.same) = true)
        (.forbidden "Direct outbound destination must be pack-allowlisted")

/-- `_submit`. -/
def submit (P : Platform) (env : Env) (db : Db) (tenant channel eventKey agent : String)
    (steps : List Json) (actor : String) : Except Err (Db × Uuid) := do
  ensure ([tenant, channel, eventKey, agent, actor].all isIdentity = true)
    (.valueError "Invalid identity")
  ensure (channel ≠ operatorChannel) (.forbidden "Channel reserved for operator replies")
  let origin := origin db tenant channel eventKey
  let plan ← validated P env tenant agent steps origin
  plan.forM (outboundAllowed env tenant channel agent origin)
  createTask P env db tenant channel eventKey agent steps actor plan

/-- The roles that may approve under a policy. -/
def approverRoles (policy : Json) : List String :=
  if (policy.getD "approver_role" .null).isText "owner" then ["owner"] else ["owner", "operator"]

/-- `policy.get('independent_approval', False)`. -/
def independentApproval (policy : Json) : Bool :=
  (policy.getD "independent_approval" (.bool false)).truthy

/-- `operator_reply`. -/
def operatorReply (P : Platform) (env : Env) (db : Db)
    (tenant channel conversationId text actor role key agent : String) :
    Except Err (Db × Uuid) := do
  ensure (channel ∈ outboundChannels) (.valueError "Channel cannot carry an operator reply")
  ensure (role = "owner" ∨ role = "operator")
    (.forbidden "Operator reply requires an owner or operator")
  ensure ([actor, agent, conversationId].all isIdentity = true) (.valueError "Invalid identity")
  ensure (key ≠ "" ∧ (operatorReplyPrefix ++ key).length ≤ 256)
    (.valueError "Invalid idempotency key")
  ensure (isBlank text = false ∧ text.length ≤ 4000)
    (.valueError "Reply text must be 1..4000 characters")
  let tool := channel ++ ".send"
  let args : Json :=
    .obj [((directDestinationField tool).getD "", .str conversationId), ("text", .str text)]
  let steps : List Json := [.obj [("tool", .str tool), ("args", args)]]
  let policy ← env.policy tenant agent
  ensure (role ∈ approverRoles policy) (.forbidden "Owner-only approval")
  env.requireAuthority tenant "approval" actor (approverRoles policy)
  let origin ← operatorOrigin db tenant tool args
  let plan ← validated P env tenant agent steps (some origin)
  let approver := if independentApproval policy then "" else actor
  createTask P env db tenant operatorChannel (operatorReplyPrefix ++ key) agent steps actor plan
    approver

/-! ### Approving -/

/-- The writes of `approve`. -/
def Db.decideStep (db : Db) (tenant : String) (step task : Uuid) (actor decision : String) : Db :=
  ((db.setApprovals (fun a => decide (a.tenant = tenant) && decide (a.step = step))
    fun a => { a with
      status := if decision = "approved" then .approved else .rejected
      actor := actor }).setSteps
    (fun s => decide (s.tenant = tenant) && decide (s.id = step))
    fun s => { s with status := if decision = "approved" then .queued else .cancelled }).refresh
      tenant task

/-- `approve`. -/
def approve (env : Env) (db : Db) (tenant : String) (step : Uuid) (actor decision role : String) :
    Except Err (Db × Reply) := do
  ensure (role = "owner" ∨ role = "operator" ∨ role = "super-admin")
    (.forbidden "Approval role required")
  ensure (decision = "approved" ∨ decision = "rejected") (.valueError "Invalid decision")
  let a ← need (db.approval? tenant step) (.notFound "Approval not found")
  let s ← need (db.steps.find? fun s => s.id = step) (.notFound "Approval not found")
  let t ← need (db.tasks.find? fun t => t.id = s.task) (.notFound "Approval not found")
  env.requireActive db tenant
  env.requireTaskParent db tenant s.task
  let policy ← env.policy tenant t.agent
  let required := policy.getD "approver_role" (.str "operator")
  env.requireAuthority tenant "approval" actor (approverRoles policy)
  ensure (¬ (decision = "approved" ∧ independentApproval policy = true ∧ actor = t.actor))
    (.forbidden "Independent approver required")
  ensure (required.isText "operator" = true ∨ required.isText "owner" = true)
    (.forbidden "Unsupported approver policy")
  ensure (required.isText "owner" = true → role = "owner" ∨ role = "super-admin")
    (.forbidden "Owner-only approval")
  ensure (a.status = .pending ∧ s.status.pending = true ∧ env.now < a.expires)
    (.conflict "Approval already decided, expired or step not pending")
  pure (db.decideStep tenant step s.task actor decision, .none)

/-! ### Claiming -/

/-- A step `claim` may hand out, with its task. -/
structure Candidate where
  step : StepRow
  row : TaskRow

/-- The task row of a step, in the join of `p_steps` and `p_tasks`. -/
def Db.owner? (db : Db) (s : StepRow) : Option TaskRow := db.tasks.find? fun t => t.id = s.task

/-- A step with its task, where it is pending, with only succeeded steps before it, in a task that is
still active. -/
def candidate? (db : Db) (tenant device : String) (s : StepRow) : Option Candidate :=
  match db.owner? s with
  | some t =>
    if decide (s.tenant = tenant) && decide (s.spec.device = device) && s.status.pending &&
        t.status.active && db.steps.all (fun prev => !(decide (prev.task = s.task) &&
          decide (prev.spec.position < s.spec.position) && decide (prev.status ≠ .succeeded)))
    then some ⟨s, t⟩ else none
  | none => none

/-- The queue, in its order. -/
def candidates (db : Db) (tenant device : String) : List Candidate :=
  (db.steps.filterMap (candidate? db tenant device)).insertionSort fun c d =>
    c.row.created < d.row.created ∨
      (c.row.created = d.row.created ∧ c.step.spec.position ≤ d.step.spec.position)

/-- What `claim` finds about a candidate. -/
inductive Review
  | inactive
  | failed (error : String)
  | waiting
  | granted
  deriving DecidableEq, Repr

/-- `_task_origin`. -/
def taskOrigin (db : Db) (tenant : String) (c : Candidate) : Except Err (Option Origin) :=
  if c.row.channel = operatorChannel then
    (operatorOrigin db tenant c.step.spec.tool c.step.spec.args).map some
  else pure (origin db tenant c.row.channel c.row.eventKey)

/-- The plan of one step, as `claim` validates it again. -/
def Candidate.plan (c : Candidate) : List Json :=
  [.obj [("tool", .str c.step.spec.tool), ("args", c.step.spec.args),
    ("device", .str c.step.spec.device)]]

/-- The fingerprint of a candidate under the current policy, or the error `claim` fails it with. -/
def revalidate (P : Platform) (env : Env) (db : Db) (tenant : String) (c : Candidate) :
    Except Err (Except String String) :=
  match env.requireAuthority tenant c.row.channel c.row.actor with
  | .error e =>
    if e.isNotFound then .ok (.error "conversation_unknown")
    else if e.isValueError || e.isLookupError || e.isPermissionError then
      .ok (.error "authority_revoked")
    else .error e
  | .ok () =>
    match (taskOrigin db tenant c).bind fun o => validated P env tenant c.row.agent c.plan o with
    | .error e =>
      if e.isNotFound then .ok (.error "conversation_unknown")
      else if e.isValueError || e.isLookupError || e.isPermissionError then
        .ok (.error "policy_changed")
      else .error e
    | .ok [v] => .ok (.ok v.fingerprint)
    | .ok _ => .error (.lookupError "list index out of range")

/-- The approval of a candidate, checked. -/
def reviewApproval (env : Env) (db : Db) (tenant : String) (c : Candidate) : Except Err Review :=
  match db.approval? tenant c.step.id with
  | none => .ok (.failed "approval_expired_or_invalid")
  | some a =>
    if a.fingerprint ≠ c.step.spec.fingerprint ∨ a.expires ≤ env.now then
      .ok (.failed "approval_expired_or_invalid")
    else if a.status ≠ .approved then .ok .waiting
    else
      match (env.policy tenant c.row.agent).bind fun policy =>
        env.requireAuthority tenant "approval" a.actor (approverRoles policy) with
      | .ok () => .ok .granted
      | .error e => if e.isForbidden then .ok (.failed "approver_revoked") else .error e

/-- One turn of the loop of `claim`, up to its writes. -/
def review (P : Platform) (env : Env) (db : Db) (tenant : String) (c : Candidate) :
    Except Err Review :=
  match env.requireTaskParent db tenant c.step.task with
  | .error e => if e.isForbidden then .ok .inactive else .error e
  | .ok () =>
    match revalidate P env db tenant c with
    | .error e => .error e
    | .ok (.error error) => .ok (.failed error)
    | .ok (.ok fingerprint) =>
      if fingerprint ≠ c.step.spec.fingerprint then .ok (.failed "policy_changed")
      else if c.step.spec.approvalNeeded then reviewApproval env db tenant c
      else .ok .granted

namespace Db

/-- The writes for a candidate whose agent run is over. -/
def retire (db : Db) (tenant : String) (c : Candidate) : Db :=
  ((db.setSteps (fun s => decide (s.tenant = tenant) && decide (s.id = c.step.id))
      fun s => { s with
        status := .cancelled, claim := none, lease := 0, error := "agent_run_inactive" }).setApprovals
    (fun a => decide (a.tenant = tenant) && decide (a.step = c.step.id) &&
      (decide (a.status = .pending) || decide (a.status = .approved)))
    fun a => { a with status := .rejected, actor := "agent-loop" }).refresh tenant c.step.task

/-- The writes for a candidate that fails its review. -/
def failStep (db : Db) (tenant : String) (c : Candidate) (error : String) : Db :=
  (db.setStep c.step.id fun s => { s with status := .failed, error := error }).refresh tenant
    c.step.task

/-- The writes for a candidate that waits for its approval. -/
def park (db : Db) (tenant : String) (c : Candidate) : Db :=
  (db.setStep c.step.id fun s => { s with status := .waiting }).refresh tenant c.step.task

/-- The consumption of the candidate's approval. -/
def consume (db : Db) (c : Candidate) : Db :=
  if c.step.spec.approvalNeeded then
    db.setApprovals (fun a => a.step = c.step.id) fun a => { a with status := .consumed }
  else db

/-- The writes for the step `claim` hands out. -/
def start (db : Db) (tenant : String) (c : Candidate) (worker : String) (lease : Time) : Db :=
  let db := db.consume c
  (Db.setStep { db with drawn := db.drawn + 1 } c.step.id fun s =>
    { s with
      status := .running, claim := some db.drawn, worker := worker, lease := lease
      attempts := s.attempts + 1 }).refresh tenant c.step.task

/-- The writes for an expired lease. -/
def expire (db : Db) (tenant : String) (r : StepRow) : Db :=
  (db.setSteps (fun s => decide (s.tenant = tenant) && decide (s.id = r.id))
    fun s => { s with status := .uncertain, error := "lease_expired", claim := none }).refresh
      tenant r.task

/-- The expired leases become `uncertain`. -/
def expireLeases (db : Db) (tenant : String) (now : Time) : Db :=
  (db.steps.filter fun s => decide (s.tenant = tenant) && decide (s.status = .running) &&
    decide (s.lease ≤ now)).foldl (fun db r => db.expire tenant r) db

end Db

/-- The loop of `claim` over its candidates. -/
def claimNext (P : Platform) (env : Env) (tenant worker : String) (lease : Time) (db : Db) :
    List Candidate → Except Err (Db × Reply)
  | [] => .ok (db, .none)
  | c :: rest =>
    match review P env db tenant c with
    | .error e => .error e
    | .ok .inactive => claimNext P env tenant worker lease (db.retire tenant c) rest
    | .ok (.failed error) => claimNext P env tenant worker lease (db.failStep tenant c error) rest
    | .ok .waiting => claimNext P env tenant worker lease (db.park tenant c) rest
    | .ok .granted => .ok (db.start tenant c worker lease, .claimed c.step.spec db.drawn)

/-- `claim`. -/
def claim (P : Platform) (env : Env) (db : Db) (tenant worker device : String)
    (leaseSeconds : ℤ) : Except Err (Db × Reply) := do
  ensure (worker ≠ "" ∧ 5 ≤ leaseSeconds ∧ leaseSeconds ≤ 600) (.valueError "Invalid lease")
  let db := db.expireLeases tenant env.now
  if db.frozen tenant then pure (db, .none)
  else
    match env.requireAuthority tenant with
    | .error e => if e.isForbidden then pure (db, .none) else .error e
    | .ok () => do
      if device ≠ "" then
        ensure ((db.devices.any fun d => decide (d.tenant = tenant) && decide (d.id = device) &&
          !d.revoked) = true) (.forbidden "Device revoked or unknown")
      claimNext P env tenant worker (env.now + seconds leaseSeconds) db
        (candidates db tenant device)

/-! ### Finishing and stopping -/

/-- `text[:n]`. -/
def truncate (n : ℕ) (text : String) : String := String.ofList (text.toList.take n)

/-- The writes of `finish`. -/
def Db.complete (db : Db) (tenant : String) (step task : Uuid) (result : Json) (status : Status)
    (error : String) : Db :=
  (db.setStep step fun s =>
    { s with
      status := status, result := result, error := truncate 200 error, claim := none
      lease := 0 }).refresh tenant task

/-- `finish`. -/
def finish (env : Env) (db : Db) (tenant : String) (step : Uuid) (token : Option Uuid)
    (result : Json) (status : Status) (error : String) : Except Err (Db × Reply) := do
  ensure (status = .succeeded ∨ status = .failed ∨ status = .uncertain)
    (.valueError "Invalid result status")
  ensure (result.encode.length ≤ 100000) (.valueError "Result too large")
  let r ← need (db.steps.find? fun s => decide (s.tenant = tenant) && decide (s.id = step) &&
    decide (s.claim = token) && decide (s.status = .running) && decide (env.now < s.lease))
    (.conflict "Stale claim or expired lease")
  pure (db.complete tenant step r.task result status error, .none)

/-- `CASE WHEN status='running' THEN 'uncertain' ELSE 'cancelled' END`. -/
def stoppedStatus (status : Status) : Status :=
  if status = .running then .uncertain else .cancelled

/-- The pending or approved approvals among `steps` are rejected. -/
def Db.rejectApprovals (db : Db) (tenant : String) (steps : List Uuid) (actor : Option String) :
    Db :=
  db.setApprovals (fun a => decide (a.tenant = tenant) && steps.contains a.step &&
      (decide (a.status = .pending) || decide (a.status = .approved)))
    fun a => { a with status := .rejected, actor := actor.getD a.actor }

/-- The writes of `cancel`. -/
def Db.cancelTask (db : Db) (tenant : String) (task : Uuid) : Db :=
  let db := db.setSteps (fun s => decide (s.tenant = tenant) && decide (s.task = task) &&
      s.status.active) fun s => { s with status := stoppedStatus s.status, claim := none }
  (db.rejectApprovals tenant ((db.steps.filter fun s => s.task = task).map StepRow.id) none).refresh
    tenant task

/-- `cancel`. -/
def cancel (env : Env) (db : Db) (tenant : String) (task : Uuid) (actor : String) :
    Except Err (Db × Reply) := do
  env.requireAuthority tenant "web" actor
  let r ← need (db.task? tenant task) (.notFound "Task not found")
  ensure (r.status.terminal = false) (.conflict "Terminal task")
  pure (db.cancelTask tenant task, .none)

/-- The writes of `reconcile`. -/
def Db.settleStep (db : Db) (tenant : String) (step task : Uuid) (status : Status) : Db :=
  (db.setSteps (fun s => decide (s.tenant = tenant) && decide (s.id = step))
    fun s => { s with status := status, error := "operator_reconciled" }).refresh tenant task

/-- `reconcile`. -/
def reconcile (env : Env) (db : Db) (tenant : String) (step : Uuid)
    (actor role outcome evidence : String) : Except Err (Db × Reply) := do
  ensure (role = "owner" ∨ role = "super-admin") (.forbidden "Owner required")
  ensure ((outcome = "succeeded" ∨ outcome = "failed") ∧ isBlank evidence = false ∧
    evidence.length ≤ 500) (.valueError "Evidence required, maximum 500 characters")
  env.requireAuthority tenant "web" actor ["owner"]
  let r ← need (db.steps.find? fun s => decide (s.tenant = tenant) && decide (s.id = step) &&
    decide (s.status = .uncertain)) (.conflict "Step is not uncertain")
  pure (db.settleStep tenant step r.task (if outcome = "succeeded" then .succeeded else .failed),
    .none)

/-- The writes of `GoogleReconciler.reconcile`. -/
def Db.provideStep (db : Db) (tenant : String) (step task : Uuid) (receipt : Json) : Db :=
  (db.setSteps (fun s => decide (s.tenant = tenant) && decide (s.id = step) &&
      decide (s.status = .uncertain)) fun s =>
    { s with
      status := .succeeded, result := receipt, error := "provider_reconciled", claim := none
      lease := 0 }).refresh tenant task

/-- The settling transaction of `GoogleReconciler.reconcile`, past its checks of the journal, the
policy and the credential. -/
def googleReconcile (db : Db) (tenant : String) (step : Uuid) (receipt : Json) :
    Except Err (Db × Reply) := do
  let r ← need (db.steps.find? fun s => decide (s.tenant = tenant) && decide (s.id = step))
    (.notFound "Step not found")
  ensure (r.status = .uncertain) (.conflict "Uncertain Google write required")
  pure (db.provideStep tenant step r.task receipt, .none)

/-- `INSERT INTO p_freeze … ON CONFLICT DO UPDATE`. -/
def Db.setFreeze (db : Db) (tenant : String) (stopped : Bool) : Db :=
  { db with
    freeze := if db.freeze.any fun f => f.tenant = tenant then
      Table.update (fun f => f.tenant = tenant) (fun f => { f with stopped := stopped }) db.freeze
    else db.freeze ++ [⟨tenant, stopped⟩] }

/-- The writes of `freeze` on the steps. -/
def Db.freezeSteps (db : Db) (tenant : String) : Db :=
  let running := db.steps.filter fun s => decide (s.tenant = tenant) && decide (s.status = .running)
  (db.setSteps (fun s => decide (s.tenant = tenant) && decide (s.status = .running))
    fun s => { s with
      status := .uncertain, claim := none, error := "tenant_frozen_during_execution" }).refreshAll
    tenant (running.map StepRow.task).dedup

/-- `freeze`. -/
def freeze (env : Env) (db : Db) (tenant : String) (stopped : Bool) (actor : String) :
    Except Err (Db × Reply) := do
  env.requireAuthority tenant "web" actor ["owner"]
  let db := db.setFreeze tenant stopped
  if stopped then
    pure (db.freezeSteps tenant, .none)
  else pure (db, .none)

/-- `INSERT INTO p_devices … ON CONFLICT DO UPDATE`. -/
def Db.setDevice (db : Db) (tenant device : String) (revoked : Bool) : Db :=
  { db with
    devices := if db.devices.any fun d => decide (d.tenant = tenant) && decide (d.id = device) then
      Table.update (fun d => decide (d.tenant = tenant) && decide (d.id = device))
        (fun d => { d with revoked := revoked, generation := d.generation + 1 }) db.devices
    else db.devices ++ [⟨tenant, device, revoked, 1⟩] }

/-- The characters of a device identity. -/
def isDeviceChar (c : Char) : Bool :=
  ('A' ≤ c && c ≤ 'Z') || ('a' ≤ c && c ≤ 'z') || ('0' ≤ c && c ≤ '9') || c == '_' || c == '-'

/-- The writes of `device` on the approvals and steps bound to it. -/
def Db.detach (db : Db) (tenant device actor : String) : Db :=
  let affected := db.steps.filter fun s => decide (s.tenant = tenant) &&
    decide (s.spec.device = device) && s.status.active
  ((db.rejectApprovals tenant (affected.map StepRow.id) (some actor)).setSteps
    (fun s => decide (s.tenant = tenant) && decide (s.spec.device = device) && s.status.active)
    fun s => { s with
      status := stoppedStatus s.status, claim := none, lease := 0
      error := "device_enrollment_changed" }).refreshAll tenant (affected.map StepRow.task).dedup

/-- `device`. -/
def device (env : Env) (db : Db) (tenant device : String) (revoked : Bool) (actor : String) :
    Except Err (Db × Reply) := do
  ensure (isRunOf isDeviceChar 1 128 device = true) (.valueError "Invalid device identity")
  env.requireAuthority tenant "web" actor ["owner"]
  if revoked = false then env.requireActive db tenant
  let db := (db.detach tenant device actor).setDevice tenant device revoked
  let row ← need (db.devices.find? fun d => decide (d.tenant = tenant) && decide (d.id = device))
    (.typeError "'NoneType' object is not subscriptable")
  pure (db, .generation row.generation)

/-! ### `AgentLoop._stop` -/

/-- The task of a run, where the run is linked to it. -/
def Db.linked? (db : Db) (run : AgentRunRow) (task : Uuid) : Option TaskRow :=
  if db.agentTurns.any fun l => decide (l.tenant = run.tenant) && decide (l.run = run.id) &&
      decide (l.task = task) then db.task? run.tenant task
  else none

/-- The writes of `_stop` on the steps of the run's task. -/
def Db.stopSteps (db : Db) (tenant : String) (task : Uuid) (reason : String) : Db :=
  (db.setSteps (fun s => decide (s.tenant = tenant) && decide (s.task = task) && s.status.active)
    fun s => { s with
      status := stoppedStatus s.status, claim := none, lease := 0, error := reason }).refresh tenant
    task

/-- `_stop` on the task a run is linked to, with the status it leaves the run in. -/
def stopTask (db : Db) (tenant : String) (task : Uuid) (linked : TaskRow) (status : RunStatus)
    (reason actor : String) : Db × RunStatus :=
  let db' := if linked.status.active then db.stopSteps tenant task reason else db
  let uncertain := if linked.status.active then
      (db'.task? tenant task).any fun t => decide (t.status = .uncertain)
    else decide (linked.status = .uncertain)
  (db'.rejectApprovals tenant ((db'.steps.filter fun s =>
    decide (s.tenant = tenant) && decide (s.task = task)).map StepRow.id) (some actor),
    if uncertain then .uncertain else status)

/-- `UPDATE p_agent_runs SET …` of `_stop`. -/
def Db.endRun (db : Db) (tenant : String) (run : Uuid) (status : RunStatus) (reason : String) : Db :=
  { db with
    runs := Table.update (fun r => decide (r.tenant = tenant) && decide (r.id = run))
      (fun r => { r with status := status, error := reason, claim := none, lease := 0 }) db.runs }

/-- `_stop`, on the row of the run the caller read in its transaction. -/
def stop (db : Db) (tenant : String) (run : Uuid) (status : RunStatus) (reason actor : String) :
    Except Err (Db × Reply) := do
  let row ← need (db.runs.find? fun r => decide (r.tenant = tenant) && decide (r.id = run))
    (.notFound "Agent run not found")
  match row.currentTask with
  | none => pure (db.endRun tenant run status reason, .run status)
  | some task =>
    match db.linked? row task with
    | none => pure (db.endRun tenant run .escalated "run_task_link_invalid", .run .escalated)
    | some linked =>
      let (db, status) := stopTask db tenant task linked status reason actor
      pure (db.endRun tenant run status reason, .run status)

/-! ### Callers in any interleaving -/

/-- One operation by anyone. `elsewhere` is any change of the tables the engine only reads here: the
inbound events and the agent loop's runs and turns. -/
inductive Op
  | submit (env : Env) (tenant channel eventKey agent : String) (steps : List Json) (actor : String)
  | operatorReply (env : Env) (tenant channel conversationId text actor role key agent : String)
  | approve (env : Env) (tenant : String) (step : Uuid) (actor decision role : String)
  | claim (env : Env) (tenant worker device : String) (leaseSeconds : ℤ)
  | finish (env : Env) (tenant : String) (step : Uuid) (token : Option Uuid) (result : Json)
      (status : Status) (error : String)
  | cancel (env : Env) (tenant : String) (task : Uuid) (actor : String)
  | reconcile (env : Env) (tenant : String) (step : Uuid) (actor role outcome evidence : String)
  | googleReconcile (tenant : String) (step : Uuid) (receipt : Json)
  | freeze (env : Env) (tenant : String) (stopped : Bool) (actor : String)
  | device (env : Env) (tenant device : String) (revoked : Bool) (actor : String)
  | stop (tenant : String) (run : Uuid) (status : RunStatus) (reason actor : String)
  | elsewhere (events : List EventRow) (runs : List AgentRunRow) (agentTurns : List AgentTurnRow)

/-- The transaction of an operation. -/
def exec (P : Platform) (db : Db) : Op → Except Err (Db × Reply)
  | .submit env tenant channel eventKey agent steps actor =>
    (submit P env db tenant channel eventKey agent steps actor).map fun (db, id) => (db, .task id)
  | .operatorReply env tenant channel conversationId text actor role key agent =>
    (operatorReply P env db tenant channel conversationId text actor role key agent).map
      fun (db, id) => (db, .task id)
  | .approve env tenant step actor decision role => approve env db tenant step actor decision role
  | .claim env tenant worker device leaseSeconds => claim P env db tenant worker device leaseSeconds
  | .finish env tenant step token result status error =>
    finish env db tenant step token result status error
  | .cancel env tenant task actor => cancel env db tenant task actor
  | .reconcile env tenant step actor role outcome evidence =>
    reconcile env db tenant step actor role outcome evidence
  | .googleReconcile tenant step receipt => googleReconcile db tenant step receipt
  | .freeze env tenant stopped actor => freeze env db tenant stopped actor
  | .device env tenant device revoked actor => Engine.device env db tenant device revoked actor
  | .stop tenant run status reason actor => stop db tenant run status reason actor
  | .elsewhere events runs agentTurns =>
    .ok ({ db with events := events, runs := runs, agentTurns := agentTurns }, .none)

/-- The database after an operation; an operation that raises is rolled back. -/
def Db.after (P : Platform) (db : Db) (op : Op) : Db := commit db (exec P db op)

/-- One operation by any party. -/
def Step (P : Platform) (db : Db) (op : Op) (db' : Db) : Prop := db' = db.after P op

end AgentPlatform.Engine
