import AgentPlatform.Engine.SingleStep
import AgentPlatform.Google.Calls

/-!
# What one event does

`Stage.Justified` says what a worker has established when it stands at a stage; `Change` lists the
committed effects of the events, and `Step.change` is the only place where they are taken apart.
-/

namespace AgentPlatform.Google

open Outcome Engine OAuth Table

/-! ### Evidence -/

/-- The event read back is the requested one, field by field. -/
structure EventAgrees (lib : Library) (args event : Json) (step id : String) : Prop where
  id : (event.getD "id" .null).isText id = true
  standing : (event.getD "status" .null).isText "cancelled" = false
  step : (((event.getD "extendedProperties" (.obj [])).getD "private" (.obj [])).getD
    "platform_step" .null).isText (stepDigest lib step) = true
  unattended : (event.getD "attendees" .null).truthy = false
  summary : (event.getD "summary" .null).same (args.getD "summary" .null) = true
  description : (event.getD "description" (.str "")).same (args.getD "description" (.str "")) = true
  start : sameInstant lib args event "start" = true
  finish : sameInstant lib args event "end" = true

/-- The message read back is the requested one, header by header and line by line. -/
structure MailAgrees (lib : Library) (args : Json) (resources : Resources) (reference : String)
    (mail : Mail) : Prop where
  whole : mail.defects = false ∧ mail.multipart = false ∧ mail.contentType = "text/plain"
  messageId : mail.getAll "Message-ID" = [messageId reference]
  recipient : ∃ address, textArg args "to" = .ok address ∧ mail.getAll "To" = [address]
  subject : ∃ subject, textArg args "subject" = .ok subject ∧ mail.getAll "Subject" = [subject]
  copies : mail.getAll "Cc" = [] ∧ mail.getAll "Bcc" = []
  /-- The text is that of the message the request would send. -/
  text : ∃ expected body bytes shown sent,
    authorizeArgs lib "google.gmail.send" args resources "unused" = .ok expected ∧
    textArg expected.body "raw" = .ok body ∧ lib.urlsafeB64decode body = .ok bytes ∧
    mail.content = .ok shown ∧ (lib.parsebytes bytes).content = .ok sent ∧
    normalizeLines shown.toList = normalizeLines sent.toList

/-- What was read back agrees with every field of the request. -/
inductive Agrees (lib : Library) (spec : StepSpec) (resources : Resources) (step : String)
    (out : Outgoing) (external : String) : String → Json → Prop
  | event {url : String} {event : Json} (htool : spec.tool = "google.calendar.create")
      (hurl : Ask.event.url spec.args out = .ok url) (hid : out.text "event_id" = .ok external)
      (hagrees : EventAgrees lib spec.args event step external) :
      Agrees lib spec resources step out external url event
  | mail {url raw reference : String} {message : Json} {binary : Bytes}
      (htool : spec.tool ≠ "google.calendar.create")
      (hurl : (Ask.message external).url spec.args out = .ok url)
      (hid : (message.getD "id" .null).isText external = true)
      (hlabel : ((message.getD "labelIds" (.arr [])).items.any fun l => l.isText "SENT") = true)
      (hreference : out.text "message_reference" = .ok reference)
      (hraw : message.getD "raw" .null = .str raw) (hbinary : lib.b64decode (padded raw) = .ok binary)
      (hagrees : MailAgrees lib spec.args resources reference (lib.parsebytes binary)) :
      Agrees lib spec resources step out external url message

section Evidence

variable {lib : Library} {args event : Json} {out : Outgoing} {step : String}

theorem calendarEvidence_agrees {external : String}
    (h : calendarEvidence lib args out step event = .ok (some external)) :
    out.text "event_id" = .ok external ∧ EventAgrees lib args event step external := by
  simp only [calendarEvidence, bind_eq_ok] at h
  obtain ⟨id, hid, h⟩ := h
  split at h
  · rename_i hall
    obtain rfl := Option.some.inj (pure_eq_ok.1 h)
    obtain ⟨h₁, h₂, h₃, h₄, h₅, h₆, h₇, h₈⟩ := hall
    exact ⟨hid, ⟨h₁, h₂, h₃, h₄, h₅, h₆, h₇, h₈⟩⟩
  · cases pure_eq_ok.1 h

theorem oneHeader_iff {mail : Mail} {name expected : String} :
    oneHeader mail name expected = true ↔ mail.getAll name = [expected] := by
  simp [oneHeader]

theorem mailMatches_agrees {resources : Resources} {raw : String}
    (h : mailMatches lib args resources out raw = .ok true) :
    ∃ binary reference, lib.b64decode raw = .ok binary ∧ out.text "message_reference" = .ok reference ∧
      MailAgrees lib args resources reference (lib.parsebytes binary) := by
  simp only [mailMatches, bind_eq_ok] at h
  obtain ⟨binary, hbinary, h⟩ := h
  split at h
  · cases pure_eq_ok.1 h
  rename_i hwhole
  simp only [bind_eq_ok] at h
  obtain ⟨reference, hreference, recipient, hrecipient, subject, hsubject, h⟩ := h
  split at h
  · cases pure_eq_ok.1 h
  rename_i hheaders
  simp only [bind_eq_ok, pure_eq_ok, decide_eq_true_eq] at h
  obtain ⟨expected, hexpected, body, hbody, bytes, hbytes, shown, hshown, sent, hsent, hlines⟩ := h
  simp only [Bool.or_eq_true, not_or, Bool.not_eq_true, bne_eq_false_iff_eq] at hwhole
  simp only [Bool.or_eq_true, Bool.not_eq_true', not_or, Bool.not_eq_false, Bool.and_eq_true,
    oneHeader_iff, List.isEmpty_iff] at hheaders
  obtain ⟨⟨⟨⟨hid, hto⟩, hsub⟩, hcc⟩, hbcc⟩ := hheaders
  refine ⟨binary, reference, hbinary, hreference, ⟨hwhole.1.1, hwhole.1.2, hwhole.2⟩, hid,
    ⟨recipient, hrecipient, hto⟩, ⟨subject, hsubject, hsub⟩, ⟨hcc, hbcc⟩, ?_⟩
  exact ⟨expected, body, bytes, shown, sent, hexpected, hbody, hbytes, hshown, hsent, hlines⟩

theorem messageEvidence_agrees {resources : Resources} {mid external : String} {message : Json}
    (h : messageEvidence lib args resources out mid message = .ok (some external)) :
    external = mid ∧ (message.getD "id" .null).isText mid = true ∧
      ((message.getD "labelIds" (.arr [])).items.any fun l => l.isText "SENT") = true ∧
      ∃ raw binary reference, message.getD "raw" .null = .str raw ∧
        lib.b64decode (padded raw) = .ok binary ∧ out.text "message_reference" = .ok reference ∧
        MailAgrees lib args resources reference (lib.parsebytes binary) := by
  unfold messageEvidence at h
  split at h
  · rename_i labels raw hlabels hraw
    split at h
    · rename_i hchecks
      obtain ⟨-, hid, hlabel, -⟩ := hchecks
      split at h
      · rename_i hmatches
        obtain rfl := Option.some.inj (pure_eq_ok.1 h)
        obtain ⟨binary, reference, hbinary, hreference, hagrees⟩ := mailMatches_agrees hmatches
        refine ⟨rfl, hid, ?_, raw, binary, reference, hraw, hbinary, hreference, hagrees⟩
        rw [hlabels]
        exact hlabel
      · cases pure_eq_ok.1 h
      · split at h <;> cases h
    · cases pure_eq_ok.1 h
  · cases pure_eq_ok.1 h

end Evidence

/-! ### What a worker has established -/

/-- The row was read for this call. -/
structure Rooted (db : Db) (x : Execution) (row : Joined) : Prop where
  spec : row.step.spec ∈ db.specs
  tenant : row.step.spec.tenant = x.tenant
  id : row.step.spec.id = x.step
  tool : row.step.spec.tool = x.name

/-- The row was read for this reconciliation, and gives the request it compares with. -/
structure Founded (lib : Library) (db : Db) (i : Inquiry) (l : Loaded) : Prop where
  spec : l.row.step.spec ∈ db.specs
  tenant : l.row.step.spec.tenant = i.tenant
  id : l.row.step.spec.id = i.step
  tool : l.row.step.spec.tool ∈ writes
  connection : textArg l.row.step.spec.args "connection" = .ok l.connection
  out : authorizeArgs lib l.row.step.spec.tool l.row.step.spec.args i.resources (lib.hex i.step) =
    .ok l.out

/-- A reconciliation reads only what its tool asks for, under the generation of the dispatch. -/
structure Reads (lib : Library) (s : State) (r : Reading) : Prop where
  founded : Founded lib s.db r.inquiry r.loaded
  generation : r.grant.generation = r.loaded.dispatch.generation

/-- The reads of a tool. -/
def Ask.suits (tool : String) : Ask → Prop
  | .event => tool = "google.calendar.create"
  | .search | .message _ => tool ≠ "google.calendar.create"

/-- The identifier was found in a response that agrees with the request. -/
def Concluded (lib : Library) (s : State) (r : Reading) (external : String) : Prop :=
  ∃ sh ∈ s.shown, sh.inquiry = r.inquiry ∧ sh.generation = r.grant.generation ∧
    Agrees lib r.loaded.row.step.spec r.inquiry.resources (lib.hex r.inquiry.step) r.loaded.out external
      sh.url sh.response

/-- What a worker at a stage has established. -/
def Stage.Justified (lib : Library) (s : State) : Stage → Prop
  | .checking x row | .rechecking x row _ | .fencing x row _ | .journaling x row _ => Rooted s.db x row
  | .inquiring i l | .renewing i l => Founded lib s.db i l
  | .asking r ask | .fenced r ask | .asked r ask =>
    Reads lib s r ∧ ask.suits r.loaded.row.step.spec.tool
  | .concluding r external => Reads lib s r ∧ ∀ e ∈ external, Concluded lib s r e
  | _ => True

/-- What a stage rests on is never taken back. -/
theorem Stage.Justified.mono {lib : Library} {s t : State} {stage : Stage}
    (h : stage.Justified lib s) (hspecs : ∀ spec ∈ s.db.specs, spec ∈ t.db.specs)
    (hshown : ∀ r ∈ s.shown, r ∈ t.shown) : stage.Justified lib t := by
  have hrooted : ∀ {x row}, Rooted s.db x row → Rooted t.db x row := fun h =>
    ⟨hspecs _ h.spec, h.tenant, h.id, h.tool⟩
  have hfounded : ∀ {i l}, Founded lib s.db i l → Founded lib t.db i l := fun h =>
    ⟨hspecs _ h.spec, h.tenant, h.id, h.tool, h.connection, h.out⟩
  have hreads : ∀ {r}, Reads lib s r → Reads lib t r := fun h => ⟨hfounded h.founded, h.generation⟩
  cases stage with
  | checking | rechecking | fencing | journaling => exact hrooted h
  | inquiring | renewing => exact hfounded h
  | asking | fenced | asked => exact ⟨hreads h.1, h.2⟩
  | concluding r external =>
    refine ⟨hreads h.1, fun e he => ?_⟩
    obtain ⟨sh, hsh, hrest⟩ := h.2 e he
    exact ⟨sh, hshown sh hsh, hrest⟩
  | _ => trivial

/-! ### The transactions -/

section Transactions

variable {lib : Library} {env : Env} {db : Db} {t : Tables}

variable {row : Joined}

theorem joined?_some {tenant : String} {step : Uuid} (h : joined? db tenant step = some row) :
    row.step ∈ db.steps ∧ row.step.tenant = tenant ∧ row.step.id = step := by
  simp only [joined?, Option.bind_eq_some_iff, Option.map_eq_some_iff] at h
  obtain ⟨s, hs, task, -, rfl⟩ := h
  have hfound := List.find?_some hs
  simp only [Bool.and_eq_true, decide_eq_true_eq] at hfound
  exact ⟨List.mem_of_find?_eq_some hs, hfound⟩

theorem activeRow_rooted {x : Execution} (h : activeRow db x = .ok row) : Rooted db x row := by
  simp only [activeRow, bind_eq_ok, exists_unit, ensure_eq_ok, need_eq_ok, pure_eq_ok] at h
  obtain ⟨row', hrow, ⟨htool, -, -⟩, rfl⟩ := h
  obtain ⟨hmem, htenant, hid⟩ := joined?_some hrow
  exact ⟨List.mem_map_of_mem hmem, htenant, hid, htool⟩

variable {book : List Dispatch}

theorem journal_cases {book' : List Dispatch} {x : Execution} {grant : Grant}
    (h : journal lib env db t book x row grant = .ok book') :
    x.key ∉ book.map Dispatch.key ∧ book' = book ++ [x.dispatch lib row grant] := by
  simp only [journal, bind_eq_ok, exists_unit, ensure_eq_ok, pure_eq_ok] at h
  obtain ⟨v, -, -, scope, -, credential, -, -, -, -, -, hnew, rfl⟩ := h
  exact ⟨hnew, rfl⟩

theorem journalWrite_cases {book book' : List DatabaseDispatch} {y : DatabaseWrite}
    (h : journalWrite lib env db book y = .ok book') :
    ∃ row d, joined? db y.tenant y.step = some row ∧ row.step.spec.tool = "database.write" ∧
      y.key ∉ book.map DatabaseDispatch.key ∧ d.tenant = y.tenant ∧ d.step = y.step ∧
      book' = book ++ [d] := by
  simp only [journalWrite, bind_eq_ok, exists_unit, ensure_eq_ok, need_eq_ok, pure_eq_ok] at h
  obtain ⟨-, row, hrow, hactive, -, -, v, -, -, -, hnew, rfl⟩ := h
  exact ⟨row, _, hrow, hactive.1, hnew, rfl, rfl, rfl⟩

theorem saveReceipt_keys {book' : List Dispatch} {key : String × Uuid} {receipt : Json}
    (h : saveReceipt book key receipt = .ok book') : book'.map Dispatch.key = book.map Dispatch.key := by
  simp only [saveReceipt, bind_eq_ok, exists_unit, ensure_eq_ok, pure_eq_ok] at h
  obtain ⟨-, rfl⟩ := h
  exact map_update fun r _ _ => rfl

theorem settleWrite_keys {book : List DatabaseDispatch} {y : DatabaseWrite}
    {result : Except Err Json} :
    (settleWrite lib book y result).map DatabaseDispatch.key = book.map DatabaseDispatch.key := by
  cases result <;> exact map_update fun r _ _ => rfl

/-- What `_load` established. -/
structure Loads (lib : Library) (env : Env) (db : Db) (t : Tables) (book : List Dispatch) (i : Inquiry)
    (guard : Except Err Unit) (l : Loaded) : Prop where
  active : env.requireActive db i.tenant = .ok ()
  authority : env.requireAuthority i.tenant "web" i.actor ["owner"] = .ok ()
  guarded : guard = .ok ()
  row : joined? db i.tenant i.step = some l.row
  tool : l.row.step.spec.tool ∈ writes
  uncertain : l.row.step.status = .uncertain
  dispatch : get Dispatch.key i.key book = some l.dispatch
  connection : textArg l.row.step.spec.args "connection" = .ok l.connection
  dispatched : l.dispatch.connection = l.connection
  out : authorizeArgs lib l.row.step.spec.tool l.row.step.spec.args i.resources (lib.hex i.step) =
    .ok l.out
  required : requiredScopes l.row.step.spec.tool = .ok l.required
  credential : ∃ c, i.manager.agent env db t i.tenant l.connection l.row.agent l.required = .ok c ∧
    c.generation = l.dispatch.generation
  /-- The step's fingerprint, computed again. -/
  step : ∃ v, current lib env i.tenant l.row.agent l.row.step.spec.tool l.row.step.spec.args = .ok v ∧
    v.fingerprint = l.row.step.spec.fingerprint
  /-- The dispatch's fingerprint, computed again. -/
  fingerprint : dispatchFingerprint lib l.out l.row.step.spec.fingerprint l.connection
    l.dispatch.generation i.manager i.resources = l.dispatch.fingerprint

theorem load_cases {i : Inquiry} {guard : Except Err Unit} {l : Loaded}
    (h : load lib env db t book i guard = .ok l) : Loads lib env db t book i guard l := by
  simp only [load, bind_eq_ok, exists_unit, ensure_eq_ok, need_eq_ok, pure_eq_ok] at h
  obtain ⟨hactive, hauthority, hguard, row, hrow, ⟨htool, huncertain⟩, dispatch, hdispatch, -,
    connection, hconnection, hdispatched, out, hout, required, hrequired, c, hc, hgeneration, v, hv,
    hstep, hfingerprint, rfl⟩ := h
  exact ⟨hactive, hauthority, hguard, hrow, htool, huncertain, hdispatch, hconnection, hdispatched, hout,
    hrequired, ⟨c, hc, hgeneration⟩, ⟨v, hv, hstep⟩, hfingerprint⟩

theorem Loads.founded {i : Inquiry} {guard : Except Err Unit} {l : Loaded}
    (h : Loads lib env db t book i guard l) : Founded lib db i l := by
  obtain ⟨hmem, htenant, hid⟩ := joined?_some h.row
  exact ⟨List.mem_map_of_mem hmem, htenant, hid, h.tool, h.connection, h.out⟩

end Transactions

/-! ### The effects -/

/-- The committed effects of an event. -/
inductive Change (lib : Library) (s : State) : Label → State → Prop
  | stay (l : Label) : Change lib s l s
  | engine {op : Op} (hop : ∀ tenant step receipt, op ≠ .googleReconcile tenant step receipt) :
      Change lib s (.op op) (s.engine (s.db.after lib.toPlatform op))
  | requeued {tenant : String} {step : Uuid} :
      Change lib s (.requeue tenant step) (s.engine (s.db.setSteps (fun r =>
        decide (r.tenant = tenant) && decide (r.id = step) && decide (r.status = .uncertain))
        fun r => { r with status := .queued }))
  | managed {l : OAuth.Label} : Change lib s (.oauth l) (s.manage l)
  /-- A worker goes on, and no step, no journal key and no external write is new. -/
  | moved {l : Label} {s' : State} {w : ℕ} {stage : Stage} (hdb : s'.db = s.db)
      (hcalls : s'.calls = s.calls) (hgoogle : s'.google.map Dispatch.key = s.google.map Dispatch.key)
      (hdatabase : s'.database.map DatabaseDispatch.key = s.database.map DatabaseDispatch.key)
      (hwrites : s'.writes = s.writes) (hshown : ∀ r ∈ s.shown, r ∈ s'.shown)
      (hheld : stage.held = none) (hstage : stage.Justified lib s') : Change lib s l (s'.goto w stage)
  | recorded {w : ℕ} {env : Env} {x : Execution} {row : Joined} {grant : Grant}
      (hcall : s.calls w = .journaling x row grant) (hwrite : x.write = true)
      (hnew : x.key ∉ s.google.map Dispatch.key) :
      Change lib s (.journal w env)
        ({ s with google := s.google ++ [x.dispatch lib row grant] }.goto w (.ready x grant))
  | recordedWrite {w : ℕ} {env : Env} {y : DatabaseWrite} {row : Joined} {d : DatabaseDispatch}
      (hcall : s.calls w = .writing y) (hrow : joined? s.db y.tenant y.step = some row)
      (htool : row.step.spec.tool = "database.write")
      (hnew : y.key ∉ s.database.map DatabaseDispatch.key) (htenant : d.tenant = y.tenant)
      (hstep : d.step = y.step) :
      Change lib s (.journalWrite w env) ({ s with database := s.database ++ [d] }.goto w (.holding y))
  | sent {w : ℕ} {env : Env} {x : Execution} {grant : Grant} (hcall : s.calls w = .ready x grant) :
      Change lib s (.send w env) ((s.request (.api x)).goto w (.sent x))
  | transported {w : ℕ} {y : DatabaseWrite} (hcall : s.calls w = .holding y) :
      Change lib s (.transport w) ((s.request (.database y)).goto w (.waiting y))
  | settled {w : ℕ} {env : Env} {guard : Except Err Unit} {r : Reading} {e : String} {db : Db}
      {book : List Dispatch} (hcall : s.calls w = .concluding r (some e))
      (hsettle : settle lib env s.db s.oauth.tables s.google r guard (some e) = .ok (db, book)) :
      Change lib s (.settle w env guard) ((s.settled db book).goto w .idle)

section Change

variable {lib : Library} {s t : State} {l : Label} {w : ℕ} {stage : Stage}

theorem Change.along (s' : State) (hdb : s'.db = s.db) (hcalls : s'.calls = s.calls)
    (hgoogle : s'.google.map Dispatch.key = s.google.map Dispatch.key)
    (hdatabase : s'.database.map DatabaseDispatch.key = s.database.map DatabaseDispatch.key)
    (hwrites : s'.writes = s.writes) (hshown : ∀ r ∈ s.shown, r ∈ s'.shown)
    (hheld : stage.held = none) (hstage : stage.Justified lib s') : Change lib s l (s'.goto w stage) :=
  .moved hdb hcalls hgoogle hdatabase hwrites hshown hheld hstage

theorem Change.goto (hheld : stage.held = none) (hstage : stage.Justified lib s) :
    Change lib s l (s.goto w stage) :=
  .moved rfl rfl rfl rfl rfl (fun _ h => h) hheld hstage

theorem Change.request {r : Request} (hr : r.write = none) (hheld : stage.held = none)
    (hstage : stage.Justified lib s) : Change lib s l ((s.request r).goto w stage) := by
  refine .along (s.request r) rfl rfl rfl rfl ?_ (fun _ h => h) hheld
    (hstage.mono (fun _ h => h) fun _ h => h)
  simp [State.writes, State.request, hr]

theorem Change.idle : Change lib s l (s.goto w .idle) := .goto rfl trivial

theorem Change.manage {m : OAuth.Label} (hheld : stage.held = none)
    (hstage : stage.Justified lib s) : Change lib s l ((s.manage m).goto w stage) :=
  .along (s.manage m) rfl rfl rfl rfl rfl (fun _ h => h) hheld
    (hstage.mono (fun _ h => h) fun _ h => h)

variable {env : Env}

theorem access_change {m : Manager} {tenant connection agent attempt : String} {step : Uuid}
    {required : List String} {granted : Grant → Stage} {refreshing : Stage}
    (hgranted : ∀ g, (granted g).held = none ∧ (granted g).Justified lib s) (hheld : refreshing.held = none)
    (hstage : refreshing.Justified lib s) :
    Change lib s l (s.access w m env tenant connection agent step required attempt granted
      refreshing) := by
  unfold State.access
  split
  · exact .manage (hgranted _).1 (hgranted _).2
  · refine .along ((s.manage _).request _) rfl rfl rfl rfl ?_ (fun _ h => h) hheld
      (hstage.mono (fun _ h => h) fun _ h => h)
    simp [State.writes, State.request, State.manage, Request.write]
  · exact .manage rfl trivial

theorem renew_change {body : Except Err Json} {identity : Except Err String} {granted : Grant → Stage}
    (hgranted : ∀ g, (granted g).held = none ∧ (granted g).Justified lib s) :
    Change lib s l (s.renew w env body identity granted) := by
  unfold State.renew
  split
  · split
    · exact .manage (hgranted _).1 (hgranted _).2
    · exact .manage rfl trivial
  · exact .manage rfl trivial

theorem reading_stage {i : Inquiry} {loaded : Loaded} (h : Founded lib s.db i loaded) (g : Grant) :
    (State.reading i loaded g).held = none ∧ (State.reading i loaded g).Justified lib s := by
  unfold State.reading
  split
  · rename_i hgeneration
    refine ⟨rfl, ⟨h, hgeneration⟩, ?_⟩
    unfold firstAsk
    split <;> simp_all [Ask.suits]
  · exact ⟨rfl, trivial⟩

/-- What a response leads to is justified once the response is kept. -/
theorem concluded_justified {r : Reading} {ask : Ask} {url : String} {response : Json}
    {next : Ask ⊕ Option String} (hreads : Reads lib s r)
    (hsuits : ask.suits r.loaded.row.step.spec.tool)
    (hurl : ask.url r.loaded.row.step.spec.args r.loaded.out = .ok url)
    (h : concluded lib r ask response = .ok next) :
    (next.elim (Stage.asking r) (Stage.concluding r)).Justified lib
      (s.witness ⟨r.inquiry, r.grant.generation, url, response⟩) := by
  have hreads' : Reads lib (s.witness ⟨r.inquiry, r.grant.generation, url, response⟩) r :=
    ⟨hreads.founded, hreads.generation⟩
  have hfound : ∀ {e}, Agrees lib r.loaded.row.step.spec r.inquiry.resources (lib.hex r.inquiry.step)
      r.loaded.out e url response →
      Concluded lib (s.witness ⟨r.inquiry, r.grant.generation, url, response⟩) r e := fun h =>
    ⟨_, List.mem_append_right _ List.mem_cons_self, rfl, rfl, h⟩
  cases ask with
  | event =>
    obtain ⟨external, hexternal, rfl⟩ := map_eq_ok.1 h
    refine ⟨hreads', fun e he => hfound ?_⟩
    obtain rfl := Option.mem_def.1 he
    obtain ⟨hid, hagrees⟩ := calendarEvidence_agrees hexternal
    exact .event hsuits hurl hid hagrees
  | search =>
    obtain ⟨mid, -, rfl⟩ := map_eq_ok.1 h
    cases mid with
    | none => exact ⟨hreads', by simp⟩
    | some mid => exact ⟨hreads', hsuits⟩
  | message mid =>
    obtain ⟨external, hexternal, rfl⟩ := map_eq_ok.1 h
    refine ⟨hreads', fun e he => hfound ?_⟩
    obtain rfl := Option.mem_def.1 he
    obtain ⟨rfl, hid, hlabel, raw, binary, reference, hraw, hbinary, hreference, hagrees⟩ :=
      messageEvidence_agrees hexternal
    exact .mail hsuits hurl hid hlabel hreference hraw hbinary hagrees

theorem Change.witness {sh : Shown} (hheld : stage.held = none)
    (hstage : stage.Justified lib (s.witness sh)) : Change lib s l ((s.witness sh).goto w stage) :=
  .along (s.witness sh) rfl rfl rfl rfl rfl (fun _ h => List.mem_append_left _ h) hheld hstage

theorem Change.google {book : List Dispatch} (hkeys : book.map Dispatch.key = s.google.map Dispatch.key) :
    Change lib s l ({ s with google := book }.goto w .idle) :=
  .along { s with google := book } rfl rfl hkeys rfl rfl (fun _ h => h) rfl trivial

theorem settle_none {r : Reading} {guard : Except Err Unit} {db : Db} {book : List Dispatch}
    (h : settle lib env s.db s.oauth.tables s.google r guard none = .ok (db, book)) :
    db = s.db ∧ book = s.google := by
  simp only [settle, bind_eq_ok, exists_unit, ensure_eq_ok, pure_eq_ok, Prod.mk.injEq] at h
  obtain ⟨_, -, _, -, -, rfl, rfl⟩ := h
  exact ⟨rfl, rfl⟩

section Calls

theorem read_change : Change lib s (.read w) (s.after lib (.read w)) := by
  dsimp only [State.after]
  split
  · split
    · exact .goto rfl (activeRow_rooted ‹_›)
    · exact .idle
  · split
    · exact .goto rfl (activeRow_rooted ‹_›)
    · exact .idle
  · exact .stay _

variable {env : Env}

theorem check_change (hj : ∀ w, (s.calls w).Justified lib s) :
    Change lib s (.check w env) (s.after lib (.check w env)) := by
  have hjw := hj w
  dsimp only [State.after]
  split
  · split
    · exact .goto rfl trivial
    · exact .idle
  · rename_i hcall
    rw [hcall] at hjw
    split
    · exact .goto rfl hjw
    · exact .idle
  · exact .stay _

theorem accessing_change {attempt : String} (hj : ∀ w, (s.calls w).Justified lib s) :
    Change lib s (.access w env attempt) (s.after lib (.access w env attempt)) := by
  have hjw := hj w
  dsimp only [State.after]
  split
  · split
    · exact access_change (fun _ => ⟨rfl, trivial⟩) rfl trivial
    · exact .idle
  · rename_i hcall
    rw [hcall] at hjw
    exact access_change (reading_stage hjw) rfl hjw
  · exact .stay _

theorem renewed_change {body : Except Err Json} {identity : Except Err String}
    (hj : ∀ w, (s.calls w).Justified lib s) :
    Change lib s (.renewed w env body identity) (s.after lib (.renewed w env body identity)) := by
  have hjw := hj w
  dsimp only [State.after]
  split
  · exact renew_change fun _ => ⟨rfl, trivial⟩
  · rename_i hcall
    rw [hcall] at hjw
    exact renew_change (reading_stage hjw)
  · exact .stay _

theorem fence_change (hj : ∀ w, (s.calls w).Justified lib s) :
    Change lib s (.fence w env) (s.after lib (.fence w env)) := by
  have hjw := hj w
  dsimp only [State.after]
  split
  · rename_i hcall
    rw [hcall] at hjw
    split
    · exact .goto rfl hjw
    · exact .idle
  · rename_i hcall
    rw [hcall] at hjw
    split
    · exact .goto rfl hjw
    · exact .idle
  · exact .stay _

theorem journal_change : Change lib s (.journal w env) (s.after lib (.journal w env)) := by
  dsimp only [State.after]
  split
  · rename_i x row grant hcall
    split
    · rename_i hwrite
      split
      · rename_i book hbook
        obtain ⟨hnew, rfl⟩ := journal_cases hbook
        exact .recorded hcall hwrite hnew
      · exact .idle
    · rename_i hwrite
      exact .goto (by simp [Stage.held, hwrite]) trivial
  · exact .stay _

theorem send_change : Change lib s (.send w env) (s.after lib (.send w env)) := by
  dsimp only [State.after]
  split
  · rename_i hcall
    split
    · exact .sent hcall
    · exact .goto rfl trivial
  · exact .stay _

theorem answer_change {response : Except Err Json} :
    Change lib s (.answer w response) (s.after lib (.answer w response)) := by
  dsimp only [State.after]
  split
  · split
    · split
      · rename_i book hbook
        obtain ⟨receipt, -, hsave⟩ := bind_eq_ok.1 hbook
        exact .google (saveReceipt_keys hsave)
      · exact .goto rfl trivial
    · exact .idle
  · exact .stay _

theorem fail_change : Change lib s (.fail w) (s.after lib (.fail w)) := by
  dsimp only [State.after]
  split
  · refine .google ?_
    split
    · exact map_update fun r _ _ => rfl
    · rfl
  · exact .stay _

theorem database_change (hl : (∃ env, l = .journalWrite w env) ∨ l = .transport w ∨
    (∃ result, l = .answered w result) ∨ l = .settleWrite w) : Change lib s l (s.after lib l) := by
  rcases hl with ⟨env, rfl⟩ | rfl | ⟨result, rfl⟩ | rfl
  · dsimp only [State.after]
    split
    · rename_i hcall
      split
      · rename_i book hbook
        obtain ⟨row, d, hrow, htool, hnew, htenant, hstep, rfl⟩ := journalWrite_cases hbook
        exact .recordedWrite hcall hrow htool hnew htenant hstep
      · exact .idle
    · exact .stay _
  · dsimp only [State.after]
    split
    · rename_i hcall
      exact .transported hcall
    · exact .stay _
  · dsimp only [State.after]
    split
    · exact .goto rfl trivial
    · exact .stay _
  · dsimp only [State.after]
    split
    · exact .along { s with database := _ } rfl rfl rfl settleWrite_keys rfl (fun _ h => h) rfl
        trivial
    · exact .stay _

theorem ask_change {guard : Except Err Unit} (hj : ∀ w, (s.calls w).Justified lib s) :
    Change lib s (.ask w env guard) (s.after lib (.ask w env guard)) := by
  have hjw := hj w
  dsimp only [State.after]
  split
  · rename_i hcall
    rw [hcall] at hjw
    split
    · exact .request rfl rfl hjw
    · exact .idle
  · exact .stay _

theorem shown_change {answer : Answer} (hj : ∀ w, (s.calls w).Justified lib s) :
    Change lib s (.shown w env answer) (s.after lib (.shown w env answer)) := by
  have hjw := hj w
  dsimp only [State.after]
  split
  · rename_i r ask hcall
    rw [hcall] at hjw
    split
    · split
      · rename_i url next _ _ hurl hnext
        refine .witness ?_ (concluded_justified hjw.1 hjw.2 hurl hnext)
        cases next <;> rfl
      · exact .idle
    · split
      · exact .goto rfl ⟨hjw.1, by simp⟩
      · exact .idle
    · exact .idle
  · exact .stay _

theorem settle_change {guard : Except Err Unit} :
    Change lib s (.settle w env guard) (s.after lib (.settle w env guard)) := by
  dsimp only [State.after]
  split
  · rename_i r external hcall
    split
    · rename_i db book hsettle
      cases external with
      | none =>
        obtain ⟨rfl, rfl⟩ := settle_none hsettle
        exact .idle
      | some e => exact .settled hcall hsettle
    · exact .idle
  · exact .stay _

/-- What one event does. -/
theorem Step.change (hj : ∀ w, (s.calls w).Justified lib s) (h : Step lib s l t) : Change lib s l t := by
  subst h
  delta State.after
  cases l with
  | op op =>
    cases op with
    | googleReconcile => exact .stay _
    | _ => exact .engine (by intros; simp)
  | requeue => exact .requeued
  | oauth => exact .managed
  | execute =>
    dsimp only
    split
    · exact .goto rfl trivial
    · exact .idle
  | read => exact read_change
  | check => exact check_change hj
  | access => exact accessing_change hj
  | renewed => exact renewed_change hj
  | fence => exact fence_change hj
  | journal => exact journal_change
  | send => exact send_change
  | answer => exact answer_change
  | fail => exact fail_change
  | write =>
    dsimp only
    split
    · exact .goto rfl trivial
    · exact .idle
  | journalWrite w env => exact database_change (.inl ⟨env, rfl⟩)
  | transport => exact database_change (.inr (.inl rfl))
  | answered w result => exact database_change (.inr (.inr (.inl ⟨result, rfl⟩)))
  | settleWrite => exact database_change (.inr (.inr (.inr rfl)))
  | reconcile =>
    dsimp only
    split
    · exact .goto rfl (load_cases ‹_›).founded
    · exact .idle
  | ask => exact ask_change hj
  | shown => exact shown_change hj
  | settle => exact settle_change
  | crash => exact .idle

end Calls

end Change

end AgentPlatform.Google
