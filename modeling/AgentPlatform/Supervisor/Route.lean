import AgentPlatform.Agent.Loop
import AgentPlatform.Coordinator

/-!
# The supervisor

`Supervisor`: the sections an operator declares, and `route`, which hands a question to the agent of one
section as an ordinary run of the agent loop and keeps a ledger row per request key. Every transaction
and every read of a call is a label of its own, so that calls interleave as they do; what a call reads of
the policies is in the environment of the label that reads it.
-/

namespace AgentPlatform.Supervisor

open Outcome Engine Coordinator

/-- A row of `p_supervisor_section`, with its keywords decoded. -/
structure SectionRow where
  tenant : String
  id : String
  actor : String
  agent : String
  title : String
  keywords : List String
  enabled : Bool

/-- The primary key of a section. -/
def SectionRow.key (r : SectionRow) : String × String := (r.tenant, r.id)

/-- The status column of the ledger. -/
inductive RouteStatus
  | routed
  | refused
  | unrouted
  deriving DecidableEq, Repr

/-- A row of `p_supervisor_route`. An empty `run_id` is `none`. -/
structure RouteRow where
  tenant : String
  requestKey : String
  question : String
  actor : String
  sectionId : String
  agent : String
  run : Option Uuid := none
  matched : String := ""
  hops : ℕ := 0
  status : RouteStatus
  reason : String := ""

/-- The primary key of the ledger. -/
def RouteRow.key (r : RouteRow) : String × String := (r.tenant, r.requestKey)

def routeTool : String := "supervisor.route"

def runKeyPrefix : String := "supervisor:"

def maxRequestKey : ℕ := 256 - runKeyPrefix.length

def maxSections : ℕ := 20

def maxQuestion : ℕ := 2000

def maxKeywords : ℕ := 20

def maxKeywordLength : ℕ := 60

def maxHopsCeiling : ℤ := 3

def maxStepsCeiling : ℤ := 12

def defaultMaxHops : ℤ := 1

def defaultMaxSteps : ℤ := 6

/-- `NAME_RE`. -/
def isName (text : String) : Bool :=
  match text.toList with
  | [] => false
  | c :: rest =>
    isLowerOrDigit c && decide (rest.length ≤ 127) &&
      rest.all fun c => isLowerOrDigit c || "_.-".toList.contains c

/-- `_name`. -/
def name (value label : String) (maximum : ℕ) : Except Err String := do
  ensure (isBlank value = false ∧ value.length ≤ maximum)
    (.valueError (label ++ " must be a non-empty string of at most " ++ toString maximum ++
      " characters"))
  ensure (isName (strip value) = true)
    (.valueError (label ++ " must be lowercase letters, digits, dot, dash or underscore"))
  pure (strip value)

/-- `policy.get('ladder') in {…}`. -/
def hasLadder (policy : Json) : Bool :=
  ["human_led", "human_assisted", "autonomous"].any fun l => (policy.getD "ladder" .null).isText l

/-! ### A request -/

/-- The arguments of `route`. -/
structure Call where
  tenant : String
  requestKey : String
  question : String
  actor : String
  sectionId : String := ""
  maxHops : Option ℤ := none
  maxSteps : ℤ := defaultMaxSteps
  maxSeconds : ℤ := 1800
  allowChained : Bool := false

/-- A call that passed the checks of its arguments. -/
structure Request where
  tenant : String
  requestKey : String
  question : String
  actor : String
  sectionId : String
  maxHops : ℤ
  maxSteps : ℤ
  maxSeconds : ℤ
  allowChained : Bool

/-- The ledger key of a request. -/
def Request.key (q : Request) : String × String := (q.tenant, q.requestKey)

/-- The hop cap of a call. -/
def Call.hops (c : Call) : Except Err ℤ :=
  match c.maxHops with
  | none => pure defaultMaxHops
  | some hops => do
    bounded hops "max_hops" 1 maxHopsCeiling
    pure hops

/-- The section a call pins; the empty text where it pins none. -/
def Call.pinned (c : Call) : Except Err String :=
  if c.sectionId = "" then pure "" else name c.sectionId "section" 64

/-- The checks `route` makes of its arguments. -/
def Call.validate (c : Call) : Except Err Request := do
  ensure (isBlank c.requestKey = false ∧ c.requestKey.length ≤ maxRequestKey)
    (.valueError ("request_key must be a non-empty string of at most " ++ toString maxRequestKey ++
      " characters"))
  ensure (isBlank c.question = false ∧ c.question.length ≤ maxQuestion)
    (.valueError ("question must contain 1.." ++ toString maxQuestion ++ " characters"))
  let actor ← name c.actor "actor" 128
  let maxHops ← c.hops
  bounded c.maxSteps "max_steps" 1 maxStepsCeiling
  ensure (60 ≤ c.maxSeconds ∧ c.maxSeconds ≤ 86400)
    (.valueError "max_seconds must be an integer 60..86400")
  let sectionId ← c.pinned
  pure ⟨c.tenant, c.requestKey, c.question, actor, sectionId, maxHops, c.maxSteps, c.maxSeconds,
    c.allowChained⟩

/-! ### Sections -/

/-- `_keywords`, under the case folding `fold`. -/
def checkKeywords (fold : String → String) (keywords : List String) : Except Err (List String) := do
  ensure (keywords.length ≤ maxKeywords)
    (.valueError ("keywords must be a list of at most " ++ toString maxKeywords))
  keywords.forM fun k => ensure (isBlank k = false ∧ k.length ≤ maxKeywordLength)
    (.valueError ("each keyword must be a non-empty string of at most " ++ toString maxKeywordLength ++
      " characters"))
  pure (keywords.map fun k => fold (strip k))

/-- `declare`. -/
def declareSection (fold : String → String) (env : Env) (db : Db) (sections : List SectionRow)
    (tenant id agent actor title : String) (keywords : List String) (enabled : Bool) :
    Except Err (List SectionRow × Unit) := do
  let id ← name id "section id" 64
  let agent ← name agent "agent" 128
  let actor ← name actor "actor" 128
  ensure (title.length ≤ 120) (.valueError "title must be a string of at most 120 characters")
  let keywords ← checkKeywords fold keywords
  let policy ← env.policy tenant agent
  ensure (hasLadder policy = true) (.forbidden "Target agent policy unavailable for routing")
  env.requireActive db tenant
  env.requireAuthority tenant "cron" actor ["owner"]
  let row : SectionRow := ⟨tenant, id, actor, agent, title, keywords, enabled⟩
  -- the ceiling is of new sections only
  ensure ((∃ r ∈ sections, r.key = row.key) ∨
      sections.countP (fun r => decide (r.tenant = tenant)) < maxSections)
    (.valueError ("at most " ++ toString maxSections ++ " supervisor sections may be declared"))
  pure (sections.filter (fun r => decide (r.key ≠ row.key)) ++ [row], ())

/-- `sections`: in the order of their identifiers. -/
def sectionsOf (rows : List SectionRow) (tenant : String) : List SectionRow :=
  (rows.filter fun r => decide (r.tenant = tenant)).insertionSort fun r r' =>
    r.id.toList ≤ r'.id.toList

/-- A section a question may go to. -/
structure Candidate where
  sectionId : String
  agent : String
  title : String
  keywords : List String
  isRouter : Bool

/-- `_routable`. -/
def routable (env : Env) (rows : List SectionRow) (tenant : String) : List Candidate :=
  (sectionsOf rows tenant).filterMap fun r =>
    if r.enabled then
      match env.policy tenant r.agent with
      | .error _ => none
      | .ok policy =>
        if hasLadder policy then
          some ⟨r.id, r.agent, r.title, r.keywords, (policy.getD "tools" (.arr [])).hasText routeTool⟩
        else none
    else none

/-- `keyword and keyword in text`. -/
def occurs (keyword text : String) : Bool :=
  keyword != "" && decide (keyword.toList <:+: text.toList)

/-- `_match`: the longest keyword, the first section among equals. -/
def matchQuestion (fold : String → String) (candidates : List Candidate) (question : String) :
    Option (Candidate × String) :=
  let found := candidates.flatMap fun c =>
    (c.keywords.filter fun k => occurs k (fold question)).map fun k => (c, k)
  found.foldl (fun best x =>
    match best with
    | none => some x
    | some b => if b.2.length < x.2.length then some x else some b) none

/-! ### The ledger -/

/-- `_lookup`. -/
def lookup (routes : List RouteRow) (k : String × String) : Option RouteRow :=
  Table.get RouteRow.key k routes

/-- `_depth`: the request keys routed to the agent. -/
def depth (routes : List RouteRow) (tenant target : String) : ℕ :=
  ((routes.filter fun r => decide (r.tenant = tenant) && decide (r.agent = target) &&
    decide (r.status = .routed) && r.run.isSome).map RouteRow.requestKey).dedup.length

/-- The upsert of `_record`: a row that exists keeps its question and its actor. -/
def recordRoute (routes : List RouteRow) (new : RouteRow) : List RouteRow :=
  match lookup routes new.key with
  | none => routes ++ [new]
  | some _ =>
    Table.update (fun r => decide (r.key = new.key))
      (fun r => { r with
        sectionId := new.sectionId, agent := new.agent, run := new.run, matched := new.matched
        hops := new.hops, status := new.status, reason := new.reason }) routes

/-- The row a call writes where it declines. -/
def Request.decline (q : Request) (sectionId agent matched : String) (status : RouteStatus)
    (reason : String) : RouteRow :=
  { tenant := q.tenant, requestKey := q.requestKey, question := strip q.question, actor := q.actor
    sectionId := sectionId, agent := agent, matched := matched, status := status, reason := reason }

/-- The row a call writes where it delegates. -/
def Request.delegate (q : Request) (c : Candidate) (matched : String) (run : Uuid) : RouteRow :=
  { tenant := q.tenant, requestKey := q.requestKey, question := strip q.question, actor := q.actor
    sectionId := c.sectionId, agent := c.agent, run := some run, matched := matched, hops := 1
    status := .routed }

/-- The request a delegated run is created for. -/
def runRequest (k : String × String) : String × String := (k.1, runKeyPrefix ++ k.2)

/-- The creation of the delegated run. -/
def openRun (P : Platform) (env : Env) (agent : Agent.State) (q : Request) (target : String) :
    Except Err (Agent.State × Uuid) :=
  Agent.create P env agent q.tenant (runKeyPrefix ++ q.requestKey) target (strip q.question) q.actor
    q.maxSteps q.maxSeconds Agent.dashboardChannel

/-- The exceptions of the creation after which a refusal is recorded. -/
def isRefusal : Err → Bool
  | .forbidden _ | .rateLimited _ | .conflict _ | .valueError _ => true
  | _ => false

/-! ### Calls in any interleaving -/

/-- Where a call of `route` stands. -/
inductive Stage
  | idle
  /-- The arguments are checked; the ledger is read next. -/
  | accepted (q : Request)
  /-- The ledger has no row for the key; the tenant is checked next. -/
  | looked (q : Request)
  /-- The sections are read next. -/
  | active (q : Request)
  /-- Nothing is pinned; the keywords are matched next. -/
  | matching (q : Request)
  /-- A section is chosen; the depth is read next. -/
  | chosen (q : Request) (c : Candidate) (matched : String)
  /-- The policy of the target is checked next. -/
  | counted (q : Request) (c : Candidate) (matched : String)
  /-- The run is created next. -/
  | opening (q : Request) (c : Candidate) (matched : String)
  /-- The row is written next; then the call raises the error, or returns. -/
  | recording (q : Request) (row : RouteRow) (raises : Option Err)
  /-- The row is written, and read back next. -/
  | recorded (q : Request)
  | done (result : Except Err (Option RouteRow))

/-- The agent loop, the supervisor's tables, and where every call stands. -/
structure State where
  agent : Agent.State := {}
  sections : List SectionRow := []
  routes : List RouteRow := []
  callers : ℕ → Stage := fun _ => .idle

/-- One statement of a call, one crash, or a statement of somebody else. -/
inductive Label
  | route (caller : ℕ) (c : Call)
  | look (caller : ℕ)
  | authorise (caller : ℕ) (env : Env)
  | choose (caller : ℕ) (env : Env)
  | pick (caller : ℕ) (env : Env)
  | count (caller : ℕ)
  | policy (caller : ℕ) (env : Env)
  | create (caller : ℕ) (env : Env)
  | record (caller : ℕ)
  | reread (caller : ℕ)
  | crash (caller : ℕ)
  | declareSection (env : Env) (tenant id agent actor title : String) (keywords : List String)
      (enabled : Bool)
  /-- A statement of the agent loop, or of the engine, by anyone. -/
  | loop (l : Agent.Label)

namespace State

/-- Moves a call. -/
def goto (s : State) (caller : ℕ) (stage : Stage) : State :=
  { s with callers := Function.update s.callers caller stage }

/-- Ends a call by an exception. -/
def raise (s : State) (caller : ℕ) (e : Err) : State := s.goto caller (.done (.error e))

end State

/-- What a chosen section leads to: a router is refused unless chaining is allowed. -/
def choice (q : Request) (c : Candidate) (matched : String) : Stage :=
  if c.isRouter && !q.allowChained then
    .recording q (q.decline c.sectionId c.agent matched .refused "chained_router_not_allowed")
      (some (.forbidden "Target section is itself a router; chaining is not allowed"))
  else .chosen q c matched

/-- The end of the pinned choice, and the way to the keywords. -/
def chooseSection (q : Request) (candidates : List Candidate) : Stage :=
  if candidates.isEmpty then
    .done (.error (.forbidden "No supervisor section is declared for this tenant"))
  else if q.sectionId = "" then .matching q
  else
    match candidates.find? fun c => decide (c.sectionId = q.sectionId) with
    | none => .done (.error (.forbidden
        ("Supervisor section '" ++ q.sectionId ++ "' is not declared or is disabled")))
    | some c => choice q c ""

/-- The choice by keyword. -/
def pickSection (fold : String → String) (q : Request) (candidates : List Candidate) : Stage :=
  match matchQuestion fold candidates q.question with
  | none => .recording q (q.decline "" "" "" .unrouted "no_section_matched")
      (some (.forbidden "No section matched this question"))
  | some (c, matched) => choice q c matched

/-- The hop cap. -/
def capHops (routes : List RouteRow) (q : Request) (c : Candidate) (matched : String) : Stage :=
  let n := depth routes q.tenant c.agent
  if q.maxHops < n + 1 then
    .recording q (q.decline c.sectionId c.agent matched .refused "hop_cap_reached")
      (some (.forbidden ("Hop cap reached: '" ++ c.agent ++ "' has already been routed to " ++
        toString n ++ " time(s) under max_hops=" ++ toString q.maxHops)))
  else .counted q c matched

/-- The creation of the run, and the row its outcome is recorded by. -/
def createOne (P : Platform) (env : Env) (s : State) (w : ℕ) (q : Request) (c : Candidate)
    (matched : String) : State :=
  match openRun P env s.agent q c.agent with
  | .ok (agent, run) =>
    { s with agent := agent }.goto w (.recording q (q.delegate c matched run) none)
  | .error e =>
    if isRefusal e then
      s.goto w (.recording q (q.decline c.sectionId c.agent matched .refused e.typeName) (some e))
    else s.raise w e

/-- The state after a label; a label whose call stands elsewhere changes nothing. -/
def State.after (P : Platform) (fold : String → String) (s : State) : Label → State
  | .route w c =>
    match s.callers w with
    | .idle | .done _ =>
      match c.validate with
      | .ok q => s.goto w (.accepted q)
      | .error e => s.raise w e
    | _ => s
  | .look w =>
    match s.callers w with
    | .accepted q =>
      match lookup s.routes q.key with
      | none => s.goto w (.looked q)
      | some row =>
        if row.question = strip q.question then s.goto w (.done (.ok (some row)))
        else s.raise w (.conflict "Route key reused with a different question")
    | _ => s
  | .authorise w env =>
    match s.callers w with
    | .looked q =>
      match env.requireActive s.agent.view q.tenant with
      | .ok _ => s.goto w (.active q)
      | .error e => s.raise w e
    | _ => s
  | .choose w env =>
    match s.callers w with
    | .active q => s.goto w (chooseSection q (routable env s.sections q.tenant))
    | _ => s
  | .pick w env =>
    match s.callers w with
    | .matching q => s.goto w (pickSection fold q (routable env s.sections q.tenant))
    | _ => s
  | .count w =>
    match s.callers w with
    | .chosen q c matched => s.goto w (capHops s.routes q c matched)
    | _ => s
  | .policy w env =>
    match s.callers w with
    | .counted q c matched =>
      match env.policy q.tenant c.agent with
      | .error e => s.raise w e
      | .ok policy =>
        if hasLadder policy then s.goto w (.opening q c matched)
        else s.raise w (.forbidden "Target agent policy unavailable")
    | _ => s
  | .create w env =>
    match s.callers w with
    | .opening q c matched => createOne P env s w q c matched
    | _ => s
  | .record w =>
    match s.callers w with
    | .recording q row raises =>
      { s with routes := recordRoute s.routes row }.goto w
        (match raises with
          | some e => .done (.error e)
          | none => .recorded q)
    | _ => s
  | .reread w =>
    match s.callers w with
    | .recorded q => s.goto w (.done (.ok (lookup s.routes q.key)))
    | _ => s
  | .crash w => s.goto w .idle
  | .declareSection env tenant id agent actor title keywords enabled =>
    { s with
      sections := Outcome.commit s.sections
        (Supervisor.declareSection fold env s.agent.view s.sections tenant id agent actor title keywords
          enabled) }
  | .loop l => { s with agent := s.agent.after P l }

/-- One label. -/
def Step (P : Platform) (fold : String → String) (s : State) (l : Label) (t : State) : Prop :=
  t = s.after P fold l

end AgentPlatform.Supervisor
