import AgentPlatform.Google.Reconcile
import AgentPlatform.Lib.Journal
import AgentPlatform.OAuth.Calls

/-!
# External writes, interleaved

Workers run `execute`, `tool_write` and `reconcile` while the engine and the OAuth manager do anything
they can; each statement that reads or writes a table, and each request, is an event of its own. A
worker that crashes stays where it was or is idle again.

The system keeps every request that left, and what the provider showed to each reconciliation.
-/

namespace AgentPlatform.Google

open Outcome Engine OAuth Table Runs

/-- Which journal a step's write is recorded in. -/
inductive Ledger
  | google
  | database
  deriving DecidableEq, Repr

/-- The write of a step. -/
structure Key where
  ledger : Ledger
  tenant : String
  step : Uuid
  deriving DecidableEq, Repr

/-- A request that left. -/
inductive Request
  /-- Of `execute`. -/
  | api (x : Execution)
  /-- Of `tool_write`. -/
  | database (y : DatabaseWrite)
  /-- Of `reconcile`. -/
  | evidence (i : Inquiry) (method : Method) (url : String)
  /-- To the token endpoint, when `access` refreshes for a call of `execute` or `reconcile`. -/
  | token (tenant : String) (step : Uuid) (method : Method)

/-- The external write a request is. -/
def Request.write : Request → Option Key
  | api x => if x.write then some ⟨.google, x.tenant, x.step⟩ else none
  | database y => some ⟨.database, y.tenant, y.step⟩
  | _ => none

/-- What a provider answers to a read. -/
inductive Answer
  | body (response : Json)
  /-- `GoogleHTTPError`. -/
  | http (status : ℤ)
  | lost (e : Err)

/-- A response read for a reconciliation, under a generation of the credential. -/
structure Shown where
  inquiry : Inquiry
  generation : ℕ
  url : String
  response : Json

/-- Where a worker stands: before the event the comment names. -/
inductive Stage
  | idle
  /-- The read of the first `_active_step`. -/
  | called (x : Execution)
  | checking (x : Execution) (row : Joined)
  /-- `access`. -/
  | cleared (x : Execution)
  | refreshing (x : Execution)
  /-- The read of the second `_active_step`. -/
  | granted (x : Execution) (grant : Grant)
  | rechecking (x : Execution) (row : Joined) (grant : Grant)
  | fencing (x : Execution) (row : Joined) (grant : Grant)
  | journaling (x : Execution) (row : Joined) (grant : Grant)
  /-- The last fence and the request. -/
  | ready (x : Execution) (grant : Grant)
  | sent (x : Execution)
  | failing (x : Execution)
  /-- The first transaction of `tool_write`. -/
  | writing (y : DatabaseWrite)
  /-- The transport of `tool_write`. -/
  | holding (y : DatabaseWrite)
  | waiting (y : DatabaseWrite)
  | settling (y : DatabaseWrite) (result : Except Err Json)
  /-- `access`, for a reconciliation. -/
  | inquiring (i : Inquiry) (l : Loaded)
  | renewing (i : Inquiry) (l : Loaded)
  /-- The fence before a read. -/
  | asking (r : Reading) (ask : Ask)
  | fenced (r : Reading) (ask : Ask)
  | asked (r : Reading) (ask : Ask)
  /-- The last transaction of `reconcile`. -/
  | concluding (r : Reading) (external : Option String)

/-- The write a worker recorded and has not sent. -/
def Stage.held : Stage → Option Key
  | ready x _ => if x.write then some ⟨.google, x.tenant, x.step⟩ else none
  | holding y => some ⟨.database, y.tenant, y.step⟩
  | _ => none

/-- The OAuth manager with the engine's tables, the two journals, the workers, and what was requested
and shown. -/
structure State where
  oauth : OAuth.State := {}
  google : List Dispatch := []
  database : List DatabaseDispatch := []
  calls : ℕ → Stage := fun _ => .idle
  requests : List Request := []
  shown : List Shown := []

/-- One event. -/
inductive Label
  | op (op : Op)
  /-- An uncertain step goes back to the queue. No operation of the engine does that. -/
  | requeue (tenant : String) (step : Uuid)
  | oauth (l : OAuth.Label)
  | execute (w : ℕ) (config : Except Err Json) (manager : Except Err Manager)
      (tenant agent name : String) (args : Json) (step : Uuid)
  | read (w : ℕ)
  | check (w : ℕ) (env : Env)
  | access (w : ℕ) (env : Env) (attempt : String)
  | renewed (w : ℕ) (env : Env) (body : Except Err Json) (identity : Except Err String)
  | fence (w : ℕ) (env : Env)
  | journal (w : ℕ) (env : Env)
  | send (w : ℕ) (env : Env)
  | answer (w : ℕ) (response : Except Err Json)
  | fail (w : ℕ)
  | write (w : ℕ) (env : Env) (prepared : Except Err Prepared) (tenant agent : String) (args : Json)
      (step : Uuid)
  | journalWrite (w : ℕ) (env : Env)
  | transport (w : ℕ)
  | answered (w : ℕ) (result : Except Err Json)
  | settleWrite (w : ℕ)
  | reconcile (w : ℕ) (env : Env) (i : Inquiry) (guard : Except Err Unit)
  | ask (w : ℕ) (env : Env) (guard : Except Err Unit)
  | shown (w : ℕ) (env : Env) (answer : Answer)
  | settle (w : ℕ) (env : Env) (guard : Except Err Unit)
  | crash (w : ℕ)

/-- The first read of a reconciliation. -/
def firstAsk (tool : String) : Ask := if tool = "google.calendar.create" then .event else .search

/-- What a reconciliation makes of a response: the next read, or the identifier it found. -/
def concluded (lib : Library) (r : Reading) (ask : Ask) (response : Json) :
    Except Err (Ask ⊕ Option String) :=
  let args := r.loaded.row.step.spec.args
  match ask with
  | .event => (calendarEvidence lib args r.loaded.out (lib.hex r.inquiry.step) response).map .inr
  | .search => (searchEvidence response).map fun
      | some mid => .inl (.message mid)
      | none => .inr none
  | .message mid =>
    (messageEvidence lib args r.inquiry.resources r.loaded.out mid response).map .inr

/-- `fence`, for a reconciliation. -/
def Reading.fence (r : Reading) (env : Env) (db : Db) (t : Tables) : Except Err Unit :=
  OAuth.fence r.inquiry.manager env db t r.inquiry.tenant r.loaded.connection r.loaded.row.agent
    r.loaded.required r.grant

namespace State

def db (s : State) : Db := s.oauth.db

/-- The worker goes on to a stage. -/
def goto (s : State) (w : ℕ) (stage : Stage) : State :=
  { s with calls := Function.update s.calls w stage }

/-- The engine's tables change. -/
def engine (s : State) (db : Db) : State := { s with oauth := { s.oauth with db := db } }

/-- The engine's tables change together with the journal of `execute`. -/
def settled (s : State) (db : Db) (book : List Dispatch) : State :=
  { s with oauth := { s.oauth with db := db }, google := book }

/-- An event of the OAuth manager, which never writes the engine's tables. -/
def manage (s : State) (l : OAuth.Label) : State :=
  { s with oauth := { s.oauth.after l with db := s.db } }

def request (s : State) (r : Request) : State := { s with requests := s.requests ++ [r] }

def witness (s : State) (r : Shown) : State := { s with shown := s.shown ++ [r] }

/-- `access`, on behalf of a worker: it goes on with the grant, or waits for a refresh. -/
def access (s : State) (w : ℕ) (m : Manager) (env : Env) (tenant connection agent : String)
    (step : Uuid) (required : List String) (attempt : String) (granted : Grant → Stage)
    (refreshing : Stage) : State :=
  let s' := s.manage (.access w m env tenant connection agent required attempt)
  match startAccess m env s.db s.oauth.tables tenant connection agent required attempt with
  | .ok (_, .granted grant) => s'.goto w (granted grant)
  | .ok (_, .refreshing ..) => (s'.request (.token tenant step .post)).goto w refreshing
  | .error _ => s'.goto w .idle

/-- The answer to a refresh: the worker goes on with the new grant, or `access` raises. -/
def renew (s : State) (w : ℕ) (env : Env) (body : Except Err Json) (identity : Except Err String)
    (granted : Grant → Stage) : State :=
  let s' := s.manage (.answer w env (.ok ()) body identity)
  match s.oauth.calls w with
  | .waiting c =>
    match c.settle env s.db s.oauth.tables (.ok ()) body identity with
    | .ok (_, grant) => s'.goto w (granted grant)
    | .error _ => s'.goto w .idle
  | _ => s'.goto w .idle

/-- A reconciliation with its grant. -/
def reading (i : Inquiry) (l : Loaded) (grant : Grant) : Stage :=
  if grant.generation = l.dispatch.generation then
    .asking ⟨i, l, grant⟩ (firstAsk l.row.step.spec.tool)
  else .idle

/-- The state after an event; a transaction that raises is rolled back. -/
def after (lib : Library) (s : State) : Label → State
  | .op op =>
    match op with
    | .googleReconcile .. => s
    | op => s.engine (s.db.after lib.toPlatform op)
  | .requeue tenant step =>
    s.engine (s.db.setSteps (fun r => decide (r.tenant = tenant) && decide (r.id = step) &&
      decide (r.status = .uncertain)) fun r => { r with status := .queued })
  | .oauth l => s.manage l
  | .execute w config manager tenant agent name args step =>
    match startExecution lib config manager tenant agent name args step with
    | .ok x => s.goto w (.called x)
    | .error _ => s.goto w .idle
  | .read w =>
    match s.calls w with
    | .called x =>
      match activeRow s.db x with
      | .ok row => s.goto w (.checking x row)
      | .error _ => s.goto w .idle
    | .granted x grant =>
      match activeRow s.db x with
      | .ok row => s.goto w (.rechecking x row grant)
      | .error _ => s.goto w .idle
    | _ => s
  | .check w env =>
    match s.calls w with
    | .checking x row =>
      match checkActive lib env s.db x row with
      | .ok () => s.goto w (.cleared x)
      | .error _ => s.goto w .idle
    | .rechecking x row grant =>
      match checkActive lib env s.db x row with
      | .ok () => s.goto w (.fencing x row grant)
      | .error _ => s.goto w .idle
    | _ => s
  | .access w env attempt =>
    match s.calls w with
    | .cleared x =>
      match scopeOf x.name with
      | .ok scope => s.access w x.manager env x.tenant x.connection x.agent x.step [scope] attempt
          (.granted x) (.refreshing x)
      | .error _ => s.goto w .idle
    | .inquiring i l =>
      s.access w i.manager env i.tenant l.connection l.row.agent i.step l.required attempt
        (reading i l) (.renewing i l)
    | _ => s
  | .renewed w env body identity =>
    match s.calls w with
    | .refreshing x => s.renew w env body identity (.granted x)
    | .renewing i l => s.renew w env body identity (reading i l)
    | _ => s
  | .fence w env =>
    match s.calls w with
    | .fencing x row grant =>
      match x.fence env s.db s.oauth.tables grant with
      | .ok () => s.goto w (.journaling x row grant)
      | .error _ => s.goto w .idle
    | .asking r ask =>
      match r.fence env s.db s.oauth.tables with
      | .ok () => s.goto w (.fenced r ask)
      | .error _ => s.goto w .idle
    | _ => s
  | .journal w env =>
    match s.calls w with
    | .journaling x row grant =>
      if x.write then
        match Google.journal lib env s.db s.oauth.tables s.google x row grant with
        | .ok book => { s with google := book }.goto w (.ready x grant)
        | .error _ => s.goto w .idle
      else s.goto w (.ready x grant)
    | _ => s
  | .send w env =>
    match s.calls w with
    | .ready x grant =>
      match x.fence env s.db s.oauth.tables grant with
      | .ok () => (s.request (.api x)).goto w (.sent x)
      | .error _ => s.goto w (.failing x)
    | _ => s
  | .answer w response =>
    match s.calls w with
    | .sent x =>
      if x.write then
        match (response.bind x.receipt).bind (saveReceipt s.google x.key) with
        | .ok book => { s with google := book }.goto w .idle
        | .error _ => s.goto w (.failing x)
      else s.goto w .idle
    | _ => s
  | .fail w =>
    match s.calls w with
    | .failing x =>
      { s with google := if x.write then settleDispatch s.google x.key fun d =>
          { d with status := .uncertain } else s.google }.goto w .idle
    | _ => s
  | .write w env prepared tenant agent args step =>
    match startWrite env prepared tenant agent args step with
    | .ok y => s.goto w (.writing y)
    | .error _ => s.goto w .idle
  | .journalWrite w env =>
    match s.calls w with
    | .writing y =>
      match Google.journalWrite lib env s.db s.database y with
      | .ok book => { s with database := book }.goto w (.holding y)
      | .error _ => s.goto w .idle
    | _ => s
  | .transport w =>
    match s.calls w with
    | .holding y => (s.request (.database y)).goto w (.waiting y)
    | _ => s
  | .answered w result =>
    match s.calls w with
    | .waiting y => s.goto w (.settling y result)
    | _ => s
  | .settleWrite w =>
    match s.calls w with
    | .settling y result => { s with database := Google.settleWrite lib s.database y result }.goto w .idle
    | _ => s
  | .reconcile w env i guard =>
    match load lib env s.db s.oauth.tables s.google i guard with
    | .ok l => s.goto w (.inquiring i l)
    | .error _ => s.goto w .idle
  | .ask w env guard =>
    match s.calls w with
    | .fenced r ask =>
      match load lib env s.db s.oauth.tables s.google r.inquiry guard,
          ask.url r.loaded.row.step.spec.args r.loaded.out with
      | .ok _, .ok url => (s.request (.evidence r.inquiry .get url)).goto w (.asked r ask)
      | _, _ => s.goto w .idle
    | _ => s
  | .shown w env answer =>
    match s.calls w with
    | .asked r ask =>
      match answer with
      | .body response =>
        match checkBounded response "Invalid bounded provider evidence",
            r.fence env s.db s.oauth.tables, ask.url r.loaded.row.step.spec.args r.loaded.out,
            concluded lib r ask response with
        | .ok (), .ok (), .ok url, .ok next =>
          (s.witness ⟨r.inquiry, r.grant.generation, url, response⟩).goto w (next.elim (.asking r)
            (.concluding r))
        | _, _, _, _ => s.goto w .idle
      | .http status =>
        s.goto w (if status = 404 ∨ status = 410 then .concluding r none else .idle)
      | .lost _ => s.goto w .idle
    | _ => s
  | .settle w env guard =>
    match s.calls w with
    | .concluding r external =>
      match Google.settle lib env s.db s.oauth.tables s.google r guard external with
      | .ok (db, book) => (s.settled db book).goto w .idle
      | .error _ => s.goto w .idle
    | _ => s
  | .crash w => s.goto w .idle

/-- The steps with a journal row. -/
def journaled (s : State) : Set Key :=
  {k | ∃ d ∈ s.google, k = ⟨.google, d.tenant, d.step⟩} ∪
    {k | ∃ d ∈ s.database, k = ⟨.database, d.tenant, d.step⟩}

/-- The external writes that left, in order. -/
def writes (s : State) : List Key := s.requests.filterMap Request.write

/-- The two journals with their workers, as one book. -/
def book (s : State) : Journal.Book Key :=
  ⟨s.journaled, Stage.held ∘ s.calls, s.writes⟩

end State

/-- One event, as a step. -/
def Step (lib : Library) (s : State) (l : Label) (t : State) : Prop := t = s.after lib l

end AgentPlatform.Google
