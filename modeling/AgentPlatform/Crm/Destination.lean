import AgentPlatform.Crm.Gateway
import AgentPlatform.Crm.Settlement
import AgentPlatform.Engine.Approvals
import AgentPlatform.JsonText

/-!
# Where an approved CRM write goes

A `Route` is what a configuration says of a write tool's destination: the base path, the operation's
path, the method and the credential references. `WriteTool.run_reaches` connects it to the adapters:
whatever the process environment, a request goes to the configured host along the route of the
configuration it was built from, and is made with nothing of the environment but the route's references.

`plan_crm_fingerprint` covers the driver and the host of a connection, so a lead or a deal goes to the
host it was planned for. It covers nothing else of the route, and the fingerprint of a timeline step
nothing of the connection at all: `destination_bound` says what has to stay, and `moved_write` shows a
planned lead on another base path.
-/

namespace AgentPlatform.Crm

open Outcome Engine Runs

/-! ### Routes -/

/-- What a request's address begins with. -/
inductive Base
  /-- A path on the configured host. -/
  | path (text : String)
  /-- The address in an environment variable. -/
  | webhook (ref : String)
  deriving DecidableEq

/-- How the rest of a request's address is made. -/
inductive Path
  | fixed (text : String)
  /-- What `build_path` makes of a template. -/
  | template (text : String)
  /-- An identifier between two texts. -/
  | between (head tail : String)
  deriving DecidableEq

/-- What a configuration says of a write tool's destination, its host apart. -/
structure Route where
  base : Base
  path : Path
  method : String
  credential : List String
  deriving DecidableEq

/-- The address a base stands for on a host. -/
def Base.Begins (lib : Library) (environ : String → String) (host address : String) : Base → Prop
  | .path text => address = "https://" ++ host ++ text
  | .webhook ref => lib.urlparse (strip (environ ref)) = .ok ("https", some host) ∧
      address = dropSlashes (strip (environ ref)) ++ "/"

/-- A text the path stands for. -/
def Path.Fills (rendered : String) : Path → Prop
  | .fixed text => rendered = text
  | .template text => ∃ values, buildPath text values = .ok rendered
  | .between head tail => ∃ id, rendered = head ++ id ++ tail

/-- The request goes to the host along the route. -/
structure Request.Reaches (lib : Library) (environ : String → String) (host : String) (ρ : Route)
    (request : Request) : Prop where
  method : request.method = ρ.method
  url : ∃ address rendered, ρ.base.Begins lib environ host address ∧ ρ.path.Fills rendered ∧
    request.url = address ++ rendered

namespace WriteTool

def bitrix24Path : WriteTool → Path
  | leadCreate => .fixed "crm.lead.add.json"
  | dealCreate => .fixed "crm.deal.add.json"
  | attachCall | attachMessage => .fixed "crm.timeline.comment.add.json"

def kommoPath : WriteTool → Path
  | leadCreate => .fixed "leads/complex"
  | dealCreate => .fixed "leads"
  | attachCall | attachMessage => .between "leads/" "/notes"

def onecPath (comment : String) : WriteTool → Path
  | leadCreate => .fixed "/leads"
  | dealCreate => .fixed "/deals"
  | attachCall | attachMessage => .template comment

/-- The operation of a custom connection. -/
def operation (declared : CustomHttp) : WriteTool → String
  | leadCreate => "create_lead"
  | dealCreate => "create_deal"
  | attachCall =>
    if (declared.operation? "attach_call_record").isSome then "attach_call_record"
    else "attach_message"
  | attachMessage => "attach_message"

end WriteTool

/-- The name of an environment variable. -/
def refOf : Json → Except Err String := envOf id

def bitrix24Route (raw : Json) (tool : WriteTool) : Except Err Route :=
  let webhook := raw.getD "webhook_url_env" .null
  if webhook.truthy then do
    let ref ← refOf webhook
    pure ⟨.webhook ref, tool.bitrix24Path, "POST", [ref]⟩
  else do
    let ref ← refOf (raw.getD "token_env" .null)
    pure ⟨.path "/rest/", tool.bitrix24Path, "POST", [ref]⟩

def kommoRoute (raw : Json) (tool : WriteTool) : Except Err Route := do
  let ref ← refOf (raw.getD "token_env" .null)
  pure ⟨.path "/api/v4/", tool.kommoPath, "POST", [ref]⟩

def onecRoute (lib : Library) (raw : Json) (tool : WriteTool) : Except Err Route := do
  let basePath ← safeRelativePath (raw.getD "base_path" (.str "/agent-platform/hs/leads"))
    "base_path" 200
  let auth ← onecAuth lib raw
  let ref ← refOf auth.2
  let comment ← onecPath raw "comment_path" "/leads/{lead_id}/comment"
  let trimmed := dropSlashes basePath
  pure ⟨.path (if trimmed = "" then "/" else trimmed), tool.onecPath comment, "POST", [ref]⟩

/-- The references of a custom connection's headers. -/
def headerRefs (headers : List (String × Json)) : List String :=
  headers.filterMap fun e =>
    match e.2.getD "env" .null with
    | .str ref => some ref
    | _ => none

def customHttpRoute (lib : Library) (raw : Json) (tool : WriteTool) : Except Err Route := do
  let declared ← validateCustomHttpConfig lib raw
  let spec ← declared.operation (tool.operation declared)
  pure ⟨.path declared.basePath, .template spec.path, spec.method, headerRefs declared.headers⟩

/-- The route a configuration gives a write tool. -/
def routeOf (lib : Library) (raw : Json) (tool : WriteTool) : Except Err Route :=
  if driverOf raw = "bitrix24" then bitrix24Route raw tool
  else if driverOf raw = "amocrm" ∨ driverOf raw = "kommo" then kommoRoute raw tool
  else if driverOf raw = "onec" then onecRoute lib raw tool
  else if driverOf raw = "custom_webhook" then customHttpRoute lib raw tool
  else .error (.forbidden ("Unsupported CRM driver: " ++ driverOf raw))

/-- The host of a connection. -/
def hostOf (raw : Json) : String :=
  match raw.getD "host" .null with
  | .str host => host
  | _ => ""

/-! ### What a validated configuration is -/

section Validated

variable {lib : Library} {raw : Json} {agent capability host : String}

theorem driver_text (h : checkDriver lib (raw.getD "driver" .null) = .ok ()) :
    raw.getD "driver" .null = .str (driverOf raw) := by
  simp only [checkDriver, bind_eq_ok, exists_unit, ensure_eq_ok] at h
  obtain ⟨-, hknown⟩ := h
  obtain ⟨d, -, hd⟩ := List.any_eq_true.1 hknown
  unfold driverOf
  cases hvalue : raw.getD "driver" .null with
  | str driver => rfl
  | _ =>
    rw [hvalue] at hd
    cases hd

theorem host_text (h : checkHost raw = .ok host) : raw.getD "host" .null = .str host := by
  unfold checkHost at h
  split at h
  · rename_i text hosts htext _
    simp only [bind_eq_ok, exists_unit, ensure_eq_ok, pure_eq_ok] at h
    obtain ⟨hne, -, rfl⟩ := h
    -- the empty default would have been refused
    unfold Json.getD at htext ⊢
    cases hget : raw.get? "host" with
    | none =>
      rw [hget] at htext
      cases htext
      exact absurd rfl hne
    | some value =>
      rw [hget] at htext
      exact htext
  · cases h

theorem hostOf_eq (h : raw.getD "host" .null = .str host) : hostOf raw = host := by
  unfold hostOf
  rw [h]

theorem validated_texts (h : validateCrmConfig lib raw agent capability = .ok host) :
    raw.getD "driver" .null = .str (driverOf raw) ∧ raw.getD "host" .null = .str (hostOf raw) ∧
      hostOf raw = host := by
  simp only [validateCrmConfig, bind_eq_ok, exists_unit, ensure_eq_ok, pure_eq_ok] at h
  obtain ⟨-, -, hdriver, -, -, _, hhost, -, rfl⟩ := h
  have htext := host_text hhost
  exact ⟨driver_text hdriver, by rw [htext, hostOf_eq htext], hostOf_eq htext⟩

end Validated

/-! ### From a configuration to its adapter -/

section Adapters

variable {lib : Library} {environ environ' : String → String} {raw : Json} {tool : WriteTool}
  {ρ : Route} {adapter : Adapter}

theorem envOf_eq_ok {value : Json} {text : String} :
    envOf environ value = .ok text ↔ ∃ ref, refOf value = .ok ref ∧ environ ref = text := by
  cases value with
  | str name =>
    constructor
    · intro h
      exact ⟨name, rfl, Except.ok.inj h⟩
    · rintro ⟨ref, href, rfl⟩
      exact congrArg (fun ref => Except.ok (environ ref)) (Except.ok.inj href)
  | _ =>
    constructor
    · intro h
      cases h
    · rintro ⟨ref, href, -⟩
      cases href

/-- What an adapter makes of a tool: the address its request begins with, the rest, and the method. -/
def Adapter.target (adapter : Adapter) (tool : WriteTool) : Except Err (String × Path × String) :=
  match adapter with
  | .bitrix24 baseUrl _ => pure (baseUrl, tool.bitrix24Path, "POST")
  | .kommo host _ => pure ("https://" ++ host ++ "/api/v4/", tool.kommoPath, "POST")
  | .onec host basePath _ _ paths =>
    pure ("https://" ++ host ++ basePath, tool.onecPath paths.comment, "POST")
  | .customHttp host declared _ => do
    let spec ← declared.operation (tool.operation declared)
    pure ("https://" ++ host ++ declared.basePath, .template spec.path, spec.method)

/-- The adapter sends along the route. -/
def Follows (lib : Library) (environ : String → String) (host : String) (tool : WriteTool)
    (adapter : Adapter) (route : Except Err Route) : Prop :=
  ∀ address path method, adapter.target tool = .ok (address, path, method) → ∃ ρ, route = .ok ρ ∧
    ρ.base.Begins lib environ host address ∧ ρ.path = path ∧ ρ.method = method

theorem bitrix24_follows (h : bitrix24Adapter lib environ raw = .ok adapter) :
    Follows lib environ (hostOf raw) tool adapter (bitrix24Route raw tool) := by
  simp only [bitrix24Adapter, bind_eq_ok, exists_unit, pure_eq_ok] at h
  obtain ⟨host, hvalid, ⟨baseUrl, headers⟩, hbase, -, rfl⟩ := h
  obtain ⟨-, -, hhost⟩ := validated_texts hvalid
  rintro address path method htarget
  obtain ⟨rfl, rfl, rfl⟩ : baseUrl = address ∧ tool.bitrix24Path = path ∧ "POST" = method := by
    simpa [Adapter.target, pure_eq_ok] using htarget
  unfold bitrix24Base at hbase
  unfold bitrix24Route
  dsimp only at hbase ⊢
  split at hbase
  · rename_i hwebhook
    rw [if_pos hwebhook]
    simp only [bind_eq_ok, exists_unit, ensure_eq_ok, pure_eq_ok, envOf_eq_ok, Prod.mk.injEq] at hbase
    obtain ⟨_, ⟨ref, href, rfl⟩, -, ⟨scheme, hostname⟩, hparse, ⟨rfl, rfl⟩, rfl, rfl⟩ := hbase
    refine ⟨⟨.webhook ref, tool.bitrix24Path, "POST", [ref]⟩, ?_, ⟨hhost ▸ hparse, rfl⟩, rfl, rfl⟩
    simp only [bind_eq_ok, pure_eq_ok]
    exact ⟨ref, href, rfl⟩
  · rename_i hwebhook
    rw [if_neg hwebhook]
    split at hbase
    · simp only [bind_eq_ok, exists_unit, ensure_eq_ok, pure_eq_ok, envOf_eq_ok, Prod.mk.injEq] at hbase
      obtain ⟨_, ⟨ref, href, rfl⟩, -, rfl, rfl⟩ := hbase
      refine ⟨⟨.path "/rest/", tool.bitrix24Path, "POST", [ref]⟩, ?_, by rw [hhost]; rfl, rfl, rfl⟩
      simp only [bind_eq_ok, pure_eq_ok]
      exact ⟨ref, href, rfl⟩
    · cases hbase

theorem kommo_follows (h : kommoAdapter lib environ raw = .ok adapter) :
    Follows lib environ (hostOf raw) tool adapter (kommoRoute raw tool) := by
  simp only [kommoAdapter, bind_eq_ok, exists_unit, ensure_eq_ok, pure_eq_ok, envOf_eq_ok] at h
  obtain ⟨host, hvalid, -, _, ⟨ref, href, rfl⟩, -, -, rfl⟩ := h
  obtain ⟨-, -, rfl⟩ := validated_texts hvalid
  rintro address path method htarget
  cases htarget
  refine ⟨⟨.path "/api/v4/", tool.kommoPath, "POST", [ref]⟩, ?_, rfl, rfl, rfl⟩
  simp only [kommoRoute, bind_eq_ok, pure_eq_ok]
  exact ⟨ref, href, rfl⟩

theorem onecHeaders_ok {headers : List (String × String)}
    (h : onecHeaders lib environ raw = .ok headers) :
    ∃ auth ref, onecAuth lib raw = .ok auth ∧ refOf auth.2 = .ok ref := by
  simp only [onecHeaders, bind_eq_ok, envOf_eq_ok] at h
  obtain ⟨auth, hauth, _, ⟨ref, href, -⟩, -⟩ := h
  exact ⟨auth, ref, hauth, href⟩

theorem onec_follows (h : onecAdapter lib environ raw = .ok adapter) :
    Follows lib environ (hostOf raw) tool adapter (onecRoute lib raw tool) := by
  simp only [onecAdapter, bind_eq_ok, exists_unit, ensure_eq_ok, pure_eq_ok] at h
  obtain ⟨host, hvalid, basePath, hbase, -, headers, hheaders, find, -, contacts, -, stalled, -,
    comment, hcomment, -, rfl⟩ := h
  obtain ⟨-, -, rfl⟩ := validated_texts hvalid
  obtain ⟨auth, ref, hauth, href⟩ := onecHeaders_ok hheaders
  rintro address path method htarget
  cases htarget
  refine ⟨⟨.path (if dropSlashes basePath = "" then "/" else dropSlashes basePath),
    tool.onecPath comment, "POST", [ref]⟩, ?_, rfl, rfl, rfl⟩
  simp only [onecRoute, bind_eq_ok, pure_eq_ok]
  exact ⟨basePath, hbase, auth, hauth, ref, href, comment, hcomment, rfl⟩

theorem customHttp_follows (h : customHttpAdapter lib environ raw = .ok adapter) :
    Follows lib environ (hostOf raw) tool adapter (customHttpRoute lib raw tool) := by
  simp only [customHttpAdapter, bind_eq_ok, exists_unit, ensure_eq_ok, pure_eq_ok] at h
  obtain ⟨host, hvalid, declared, hdeclared, -, -, headers, -, rfl⟩ := h
  obtain ⟨-, -, rfl⟩ := validated_texts hvalid
  rintro address path method htarget
  simp only [Adapter.target, bind_eq_ok, pure_eq_ok, Prod.mk.injEq] at htarget
  obtain ⟨spec, hspec, rfl, rfl, rfl⟩ := htarget
  refine ⟨⟨.path declared.basePath, .template spec.path, spec.method, headerRefs declared.headers⟩,
    ?_, rfl, rfl, rfl⟩
  simp only [customHttpRoute, bind_eq_ok, pure_eq_ok]
  exact ⟨declared, hdeclared, spec, hspec, rfl⟩

/-- The adapter of a configuration sends along its route. -/
theorem getAdapter_follows (h : getAdapter lib environ raw = .ok adapter) :
    Follows lib environ (hostOf raw) tool adapter (routeOf lib raw tool) := by
  unfold getAdapter adapterOf at h
  unfold routeOf
  split at h
  · rename_i made hmade
    subst h
    split at hmade
    · rename_i hdriver
      rw [if_pos hdriver]
      exact bitrix24_follows (Option.some.inj hmade)
    · rename_i hbitrix24
      rw [if_neg hbitrix24]
      split at hmade
      · rename_i hdriver
        rw [if_pos hdriver]
        exact kommo_follows (Option.some.inj hmade)
      · rename_i hkommo
        rw [if_neg hkommo]
        split at hmade
        · rename_i hdriver
          rw [if_pos hdriver]
          exact onec_follows (Option.some.inj hmade)
        · rename_i honec
          rw [if_neg honec]
          split at hmade
          · rename_i hdriver
            rw [if_pos hdriver]
            exact customHttp_follows (Option.some.inj hmade)
          · cases hmade
  · cases h

end Adapters

/-! ### From an adapter to the request -/

section Requests

variable {lib : Library} {environ : String → String} {raw : Json} {tool : WriteTool}
  {adapter : Adapter} {request : Request}

/-- The request is what the adapter's method behind the tool makes. -/
def Adapter.Builds (lib : Library) (adapter : Adapter) (request : Request) : WriteTool → Prop
  | .leadCreate => ∃ data, adapter.createLead lib data = .ok request
  | .dealCreate => ∃ data, adapter.createDeal lib data = .ok request
  | .attachCall => ∃ call, adapter.attachCallRecord lib call = .ok request
  | .attachMessage => ∃ message, adapter.attachMessage lib message = .ok request

/-- The request goes where the adapter's target says. -/
def Adapter.Hits (adapter : Adapter) (tool : WriteTool) (request : Request) : Prop :=
  ∃ address path rendered, adapter.target tool = .ok (address, path, request.method) ∧
    path.Fills rendered ∧ request.url = address ++ rendered

variable {method : String} {headers : List (String × String)} {body : Option Json}

theorem send_ok {url : String} (h : send lib url method headers body = .ok request) :
    request.url = url ∧ request.method = method := by
  simp only [send, bind_eq_ok, exists_unit, ensure_eq_ok, pure_eq_ok] at h
  obtain ⟨⟨scheme, hostname⟩, -, -, rfl⟩ := h
  exact ⟨rfl, rfl⟩

variable {c : Char} {rest : List Char}

theorem dropLeadingSlashes_eq {text : String} (h : text.toList = c :: rest) (hc : c ≠ '/') :
    dropLeadingSlashes text = text := by
  unfold dropLeadingSlashes
  rw [h, List.dropWhile_cons_of_neg (by simpa using hc), ← h, String.ofList_toList]

theorem bitrix24Call_ok {baseUrl : String} {body : Json} (hmethod : method.toList = c :: rest) (hc : c ≠ '/')
    (h : bitrix24Call lib baseUrl headers method body = .ok request) :
    request.url = baseUrl ++ method ∧ request.method = "POST" := by
  unfold bitrix24Call at h
  rw [dropLeadingSlashes_eq hmethod hc] at h
  exact send_ok h

variable {host : String}

theorem kommoCall_ok {path : String} (hpath : path.toList = c :: rest) (hc : c ≠ '/')
    (h : kommoCall lib host headers path method body = .ok request) :
    request.url = "https://" ++ host ++ "/api/v4/" ++ path ∧ request.method = method := by
  unfold kommoCall at h
  rw [dropLeadingSlashes_eq hpath hc] at h
  exact send_ok h

theorem customHttpCall_ok {operation : String} {declared : CustomHttp} {values : List (String × String)}
    (h : customHttpCall lib host declared headers operation values body = .ok request) :
    ∃ spec rendered, declared.operation operation = .ok spec ∧
      buildPath spec.path values = .ok rendered ∧
      request.url = "https://" ++ host ++ declared.basePath ++ rendered ∧
      request.method = spec.method := by
  simp only [customHttpCall, bind_eq_ok] at h
  obtain ⟨spec, hspec, rendered, hrendered, hsend⟩ := h
  exact ⟨spec, rendered, hspec, hrendered, send_ok hsend⟩

theorem customHttp_hits (tool : WriteTool) {declared : CustomHttp} {values : List (String × String)}
    (h : customHttpCall lib host declared headers (tool.operation declared) values body =
      .ok request) : (Adapter.customHttp host declared headers).Hits tool request := by
  obtain ⟨spec, rendered, hspec, hrendered, hurl, hmethod⟩ := customHttpCall_ok h
  refine ⟨_, .template spec.path, rendered, ?_, ⟨values, hrendered⟩, hurl⟩
  rw [hmethod]
  simp only [Adapter.target, bind_eq_ok, pure_eq_ok]
  exact ⟨spec, hspec, rfl⟩

theorem hits_fixed {address text : String}
    (htarget : adapter.target tool = .ok (address, .fixed text, method))
    (h : request.url = address ++ text ∧ request.method = method) : adapter.Hits tool request := by
  refine ⟨address, .fixed text, text, ?_, rfl, h.1⟩
  rw [h.2]
  exact htarget

theorem create_hits {data : Json} :
    (adapter.createLead lib data = .ok request → adapter.Hits .leadCreate request) ∧
      (adapter.createDeal lib data = .ok request → adapter.Hits .dealCreate request) := by
  constructor
  all_goals
    intro h
    simp only [Adapter.createLead, Adapter.createDeal, bind_eq_ok] at h
    obtain ⟨parsed, -, h⟩ := h
    cases adapter with
    | bitrix24 baseUrl headers =>
      exact hits_fixed rfl (bitrix24Call_ok (c := 'c') (by rfl) (by decide) h)
    | kommo host headers =>
      exact hits_fixed rfl (kommoCall_ok (c := 'l') (by rfl) (by decide) h)
    | onec host basePath headers responseMap paths =>
      exact hits_fixed rfl (send_ok h)
    | customHttp host declared headers =>
      simp only [bind_eq_ok] at h
      obtain ⟨body, -, h⟩ := h
      exact customHttp_hits _ h

/-- Both notes go to the same place, on a custom connection to the operation of their tool. -/
theorem note_hits {operation leadId comment : String}
    (htool : tool = .attachCall ∨ tool = .attachMessage)
    (hoperation : ∀ host declared headers, adapter = .customHttp host declared headers →
      operation = tool.operation declared)
    (h : adapter.note lib operation leadId comment = .ok request) : adapter.Hits tool request := by
  simp only [Adapter.note, bind_eq_ok] at h
  obtain ⟨id, -, h⟩ := h
  cases adapter with
  | bitrix24 baseUrl headers =>
    obtain ⟨hurl, hmethod⟩ := bitrix24Call_ok (c := 'c') (by rfl) (by decide) h
    refine ⟨baseUrl, .fixed "crm.timeline.comment.add.json", _, ?_, rfl, hurl⟩
    rcases htool with rfl | rfl <;> rw [hmethod] <;> rfl
  | kommo host headers =>
    obtain ⟨entity, h⟩ : ∃ entity, kommoCall lib host headers ("leads/" ++ id ++ "/notes") "POST"
        (some (.arr [.obj [("entity_id", entity), ("note_type", .str "common"),
          ("params", .obj [("text", .str (String.ofList (comment.toList.take 8000)))])]])) =
        .ok request := by
      dsimp only at h
      split at h
      all_goals
        obtain ⟨entity, -, h⟩ := bind_eq_ok.1 h
        exact ⟨entity, h⟩
    have hpath : ("leads/" ++ id ++ "/notes").toList =
        'l' :: ("eads/".toList ++ id.toList ++ "/notes".toList) := by
      simp [String.toList_append]
    obtain ⟨hurl, hmethod⟩ := kommoCall_ok hpath (by decide) h
    refine ⟨"https://" ++ host ++ "/api/v4/", .between "leads/" "/notes", _, ?_, ⟨id, rfl⟩, hurl⟩
    rcases htool with rfl | rfl <;> rw [hmethod] <;> rfl
  | onec host basePath headers responseMap paths =>
    simp only [bind_eq_ok] at h
    obtain ⟨path, hrendered, h⟩ := h
    obtain ⟨hurl, hmethod⟩ := send_ok h
    refine ⟨"https://" ++ host ++ basePath, .template paths.comment, path, ?_, ⟨_, hrendered⟩, hurl⟩
    rcases htool with rfl | rfl <;> rw [hmethod] <;> rfl
  | customHttp host declared headers =>
    rw [hoperation _ _ _ rfl] at h
    exact customHttp_hits _ h

theorem Adapter.Builds.hits (h : adapter.Builds lib request tool) : adapter.Hits tool request := by
  cases tool with
  | leadCreate =>
    obtain ⟨data, h⟩ := h
    exact create_hits.1 h
  | dealCreate =>
    obtain ⟨data, h⟩ := h
    exact create_hits.2 h
  | attachCall =>
    obtain ⟨call, h⟩ := h
    refine note_hits (.inl rfl) ?_ h
    rintro host declared headers rfl
    rfl
  | attachMessage =>
    obtain ⟨message, h⟩ := h
    exact note_hits (.inr rfl) (fun _ _ _ _ => rfl) h

theorem Adapter.Builds.reaches (hadapter : getAdapter lib environ raw = .ok adapter)
    (h : adapter.Builds lib request tool) :
    ∃ ρ, routeOf lib raw tool = .ok ρ ∧ request.Reaches lib environ (hostOf raw) ρ := by
  obtain ⟨address, path, rendered, htarget, hfills, hurl⟩ := h.hits
  obtain ⟨ρ, hρ, hbegins, rfl, hmethod⟩ := getAdapter_follows hadapter _ _ _ htarget
  exact ⟨ρ, hρ, hmethod.symm, address, rendered, hbegins, hfills, hurl⟩

end Requests

/-! ### What an adapter reads of the environment -/

section Credentials

variable {lib : Library} {environ environ' : String → String} {raw : Json} {tool : WriteTool}
  {ρ : Route}

theorem envOf_congr {value : Json} {ref : String} (href : refOf value = .ok ref)
    (h : environ' ref = environ ref) : envOf environ' value = envOf environ value := by
  cases value with
  | str name =>
    obtain rfl : name = ref := Except.ok.inj href
    exact congrArg Except.ok h
  | _ => rfl

theorem bitrix24_uses (hρ : bitrix24Route raw tool = .ok ρ)
    (h : ∀ ref ∈ ρ.credential, environ' ref = environ ref) :
    bitrix24Adapter lib environ' raw = bitrix24Adapter lib environ raw := by
  have hbase : ∀ host, bitrix24Base lib environ' host raw = bitrix24Base lib environ host raw := by
    intro host
    unfold bitrix24Route at hρ
    unfold bitrix24Base
    dsimp only at hρ ⊢
    split at hρ
    · rename_i hwebhook
      simp only [bind_eq_ok, pure_eq_ok] at hρ
      obtain ⟨ref, href, rfl⟩ := hρ
      rw [if_pos hwebhook, if_pos hwebhook, envOf_congr href (h ref List.mem_cons_self)]
    · rename_i hwebhook
      simp only [bind_eq_ok, pure_eq_ok] at hρ
      obtain ⟨ref, href, rfl⟩ := hρ
      rw [if_neg hwebhook, if_neg hwebhook, envOf_congr href (h ref List.mem_cons_self)]
  unfold bitrix24Adapter
  simp only [hbase]

theorem kommo_uses (hρ : kommoRoute raw tool = .ok ρ)
    (h : ∀ ref ∈ ρ.credential, environ' ref = environ ref) :
    kommoAdapter lib environ' raw = kommoAdapter lib environ raw := by
  simp only [kommoRoute, bind_eq_ok, pure_eq_ok] at hρ
  obtain ⟨ref, href, rfl⟩ := hρ
  unfold kommoAdapter
  dsimp only
  rw [envOf_congr href (h ref List.mem_cons_self)]

theorem onec_uses (hρ : onecRoute lib raw tool = .ok ρ)
    (h : ∀ ref ∈ ρ.credential, environ' ref = environ ref) :
    onecAdapter lib environ' raw = onecAdapter lib environ raw := by
  simp only [onecRoute, bind_eq_ok, pure_eq_ok] at hρ
  obtain ⟨basePath, -, ⟨basic, value⟩, hauth, ref, href, comment, -, rfl⟩ := hρ
  have hheaders : onecHeaders lib environ' raw = onecHeaders lib environ raw := by
    unfold onecHeaders
    rw [hauth]
    dsimp only [bind, Except.bind]
    rw [envOf_congr href (h ref List.mem_cons_self)]
  unfold onecAdapter
  rw [hheaders]

theorem declaredHeader_congr {e : String × Json} {headers : List (String × Json)}
    (he : e ∈ headers) (h : ∀ ref ∈ headerRefs headers, environ' ref = environ ref) :
    declaredHeader lib environ' e = declaredHeader lib environ e := by
  obtain ⟨name, spec⟩ := e
  unfold declaredHeader
  dsimp only
  cases spec with
  | obj members =>
    dsimp only
    cases hvalue : (Json.obj members).getD "env" .null with
    | str ref =>
      have href : ref ∈ headerRefs headers :=
        List.mem_filterMap.2 ⟨_, he, by dsimp only; rw [hvalue]⟩
      dsimp only [pure, Except.pure, bind, Except.bind]
      rw [h ref href]
    | _ => dsimp only [bind, Except.bind]
  | _ => dsimp only

theorem mapM_congr {f g : String × Json → Except Err (String × String)}
    {headers : List (String × Json)} (h : ∀ e ∈ headers, f e = g e) :
    headers.mapM f = headers.mapM g := by
  induction headers with
  | nil => rfl
  | cons e headers ih =>
    rw [List.mapM_cons, List.mapM_cons, h e List.mem_cons_self,
      ih fun e he => h e (List.mem_cons_of_mem _ he)]

theorem customHttp_uses (hρ : customHttpRoute lib raw tool = .ok ρ)
    (h : ∀ ref ∈ ρ.credential, environ' ref = environ ref) :
    customHttpAdapter lib environ' raw = customHttpAdapter lib environ raw := by
  simp only [customHttpRoute, bind_eq_ok, pure_eq_ok] at hρ
  obtain ⟨declared, hdeclared, spec, -, rfl⟩ := hρ
  have hheaders : declared.headers.mapM (declaredHeader lib environ') =
      declared.headers.mapM (declaredHeader lib environ) :=
    mapM_congr fun e he => declaredHeader_congr he h
  unfold customHttpAdapter
  rw [hdeclared]
  dsimp only [bind, Except.bind]
  rw [hheaders]

/-- **An adapter is made with nothing of the environment but the route's references.** -/
theorem getAdapter_uses (hρ : routeOf lib raw tool = .ok ρ)
    (h : ∀ ref ∈ ρ.credential, environ' ref = environ ref) :
    getAdapter lib environ' raw = getAdapter lib environ raw := by
  unfold getAdapter adapterOf
  unfold routeOf at hρ
  split at hρ
  · rename_i hdriver
    rw [if_pos hdriver, if_pos hdriver, bitrix24_uses hρ h]
  rename_i hbitrix24
  rw [if_neg hbitrix24, if_neg hbitrix24]
  split at hρ
  · rename_i hdriver
    rw [if_pos hdriver, if_pos hdriver, kommo_uses hρ h]
  rename_i hkommo
  rw [if_neg hkommo, if_neg hkommo]
  split at hρ
  · rename_i hdriver
    rw [if_pos hdriver, if_pos hdriver, onec_uses hρ h]
  rename_i honec
  rw [if_neg honec, if_neg honec]
  split at hρ
  · rename_i hdriver
    rw [if_pos hdriver, if_pos hdriver, customHttp_uses hρ h]
  · cases hρ

end Credentials

/-! ### What a plan's fingerprint binds -/

/-- The text that is hashed. -/
def Plan.text (p : Plan) : String :=
  (Json.obj [("tenant", .str p.tenant), ("agent", .str p.agent), ("connection", .str p.connection),
    ("driver", p.raw.getD "driver" .null), ("host", p.raw.getD "host" .null),
    ("request", p.request)]).encode

section Fingerprints

variable {lib : Library} {p q : Plan}

theorem sorted_payload (tenant agent connection driver host request : String) :
    ([("tenant", tenant), ("agent", agent), ("connection", connection), ("driver", driver),
      ("host", host), ("request", request)].insertionSort
      fun (m m' : String × String) => m.1.toList ≤ m'.1.toList) =
    [("agent", agent), ("connection", connection), ("driver", driver), ("host", host),
      ("request", request), ("tenant", tenant)] := by
  simp +decide [List.insertionSort, List.orderedInsert]

theorem Plan.text_eq {driver host : String} (hdriver : p.raw.getD "driver" .null = .str driver)
    (hhost : p.raw.getD "host" .null = .str host) : ∃ rest, p.text =
      "\x7b" ++ (Json.quote "agent" ++ (":" ++ (Json.quote p.agent ++ ("," ++ (Json.quote "connection" ++
        (":" ++ (Json.quote p.connection ++ ("," ++ (Json.quote "driver" ++ (":" ++ (Json.quote driver ++
          ("," ++ (Json.quote "host" ++ (":" ++ (Json.quote host ++ rest))))))))))))))) := by
  unfold Plan.text Json.encode
  dsimp only [Json.encodeMembers]
  rw [sorted_payload, hdriver, hhost]
  dsimp only [List.map]
  simp only [String.intercalate_cons_cons, String.intercalate_singleton, String.append_assoc]
  exact ⟨_, rfl⟩

/-- Two plans with one text have one driver and one host. -/
theorem text_binds {driver host driver' host' : String}
    (hp : p.raw.getD "driver" .null = .str driver ∧ p.raw.getD "host" .null = .str host)
    (hq : q.raw.getD "driver" .null = .str driver' ∧ q.raw.getD "host" .null = .str host')
    (h : p.text = q.text) : driver = driver' ∧ host = host' := by
  obtain ⟨rest, hptext⟩ := Plan.text_eq hp.1 hp.2
  obtain ⟨rest', hqtext⟩ := Plan.text_eq hq.1 hq.2
  rw [hptext, hqtext] at h
  simp only [String.append_right_inj] at h
  obtain ⟨-, h⟩ := Json.quote_append_inj h
  simp only [String.append_right_inj] at h
  obtain ⟨-, h⟩ := Json.quote_append_inj h
  simp only [String.append_right_inj] at h
  obtain ⟨hdriver, h⟩ := Json.quote_append_inj h
  simp only [String.append_right_inj] at h
  exact ⟨hdriver, (Json.quote_append_inj h).1⟩

theorem same_text {value : Json} {a b : String} (ha : value.same (.str a) = true)
    (hb : value.same (.str b) = true) : a = b := by
  unfold Json.same at ha hb
  rw [beq_iff_eq] at ha hb
  have hquote : Json.quote a ++ "" = Json.quote b ++ "" := by
    rw [String.append_empty, String.append_empty]
    simpa only [Json.encode] using ha.symm.trans hb
  exact (Json.quote_append_inj hquote).1

end Fingerprints

/-! ### What a worker sends -/

/-- The request of a tool that creates a record, as it is fingerprinted. -/
def WriteTool.request? (lib : Library) (args : Json) : WriteTool → Option Json
  | .leadCreate =>
    (parseLeadRequest lib (args.getD "request" (.obj []))).toOption.map LeadRequest.toJson
  | .dealCreate =>
    (parseDealRequest lib (args.getD "request" (.obj []))).toOption.map DealRequest.toJson
  | .attachCall | .attachMessage => none

/-- The configuration of a step's connection. -/
def GateState.current (s : GateState) (spec : StepSpec) : Json :=
  rawOf s.config spec.tenant (connectionName spec)

/-- The plan a worker makes again when it runs the tool. -/
def GateState.replan? (lib : Library) (s : GateState) (tool : WriteTool) (spec : StepSpec) :
    Option Plan :=
  (tool.request? lib spec.args).map fun request =>
    ⟨spec.tenant, agentOf s.db spec, connectionName spec, s.current spec, request⟩

section Sends

variable {lib : Library} {env : Env} {environ : String → String} {config : Except Err Json}
  {tenant agent name : String} {args raw : Json} {tool : WriteTool} {out : Sending}

/-- The name of the connection and the configuration a tool goes on with. -/
structure Admits (lib : Library) (config : Except Err Json) (agent : String) (args : Json)
    (name : String) (raw : Json) : Prop where
  named : cleanText (args.getD "connection" .null) "connection" 128 = .ok name
  held : ∃ file, config = .ok file ∧ raw = connectionIn file name
  valid : ∃ capability host, validateCrmConfig lib raw agent capability = .ok host

theorem admitted_ok {text capability : String}
    (h : admitted lib env config tenant agent text args capability = .ok (name, raw)) :
    Admits lib config agent args name raw := by
  simp only [admitted, bind_eq_ok, exists_unit, pure_eq_ok, Prod.mk.injEq] at h
  obtain ⟨name, hname, -, file, hfile, host, hvalid, rfl, rfl⟩ := h
  exact ⟨hname, ⟨file, hfile, rfl⟩, capability, host, hvalid⟩

/-- What a run of a tool that sends has checked, and what it sends. -/
structure Sends (lib : Library) (environ : String → String) (config : Except Err Json)
    (tenant agent : String) (args : Json) (tool : WriteTool) (name : String) (out : Sending) :
    Prop where
  admits : Admits lib config agent args name out.raw
  builds : ∃ adapter, getAdapter lib environ out.raw = .ok adapter ∧
    adapter.Builds lib out.request tool
  planned : tool.planned = true → ∃ request, tool.request? lib args = some request ∧
    (args.getD "plan_fingerprint" .null).same
      (.str (Plan.fingerprint lib ⟨tenant, agent, name, out.raw, request⟩)) = true

theorem create_sends {kind : String} {parse : Json → Except Err Json}
    {build : Adapter → Json → Except Err Request}
    (h : create lib environ env config tenant agent args tool kind parse build = .ok out)
    (hparse : ∀ request, parse (args.getD "request" (.obj [])) = .ok request →
      tool.request? lib args = some request)
    (hbuild : ∀ adapter request, build adapter request = .ok out.request →
      adapter.Builds lib out.request tool) :
    ∃ name, Sends lib environ config tenant agent args tool name out := by
  simp only [create, bind_eq_ok, exists_unit, pure_eq_ok] at h
  obtain ⟨⟨name, raw⟩, hadmitted, request, hrequest, hfingerprint, adapter, hadapter, sent, hsent,
    rfl⟩ := h
  obtain ⟨-, hsame⟩ := ensure_eq_ok.1 hfingerprint
  exact ⟨name, admitted_ok hadmitted, ⟨adapter, hadapter, hbuild _ _ hsent⟩,
    fun _ => ⟨request, hparse _ hrequest, hsame⟩⟩

theorem attach_sends {Note : Type} {field : String} {parse : Json → Except Err Note}
    {build : Adapter → Note → Except Err Request}
    (h : attach lib environ env config tenant agent args tool field parse build = .ok out)
    (hbuild : ∀ adapter note, build adapter note = .ok out.request →
      adapter.Builds lib out.request tool) (hplanned : tool.planned = false) :
    ∃ name, Sends lib environ config tenant agent args tool name out := by
  simp only [attach, bind_eq_ok, pure_eq_ok] at h
  obtain ⟨⟨name, raw⟩, hadmitted, note, -, adapter, hadapter, sent, hsent, rfl⟩ := h
  refine ⟨name, admitted_ok hadmitted, ⟨adapter, hadapter, hbuild _ _ hsent⟩, fun h => ?_⟩
  rw [hplanned] at h
  cases h

theorem parsed_request {α : Type} {x : Except Err α} {f : α → Json} {request : Json}
    (h : x.map f = .ok request) : x.toOption.map f = some request := by
  cases x with
  | ok value => exact congrArg some (Except.ok.inj h)
  | error e => cases h

/-- Whoever sends with a write tool passed the tool's checks. -/
theorem run_sends (h : tool.run lib environ env config tenant agent args = .ok out) :
    ∃ name, Sends lib environ config tenant agent args tool name out := by
  cases tool with
  | leadCreate =>
    dsimp only [WriteTool.run, toolCrmLeadCreate] at h
    exact create_sends h (fun _ => parsed_request) fun _ request h => ⟨request, h⟩
  | dealCreate =>
    dsimp only [WriteTool.run, toolCrmDealCreate] at h
    exact create_sends h (fun _ => parsed_request) fun _ request h => ⟨request, h⟩
  | attachCall =>
    dsimp only [WriteTool.run, toolCrmAttachCall] at h
    exact attach_sends h (fun _ note h => ⟨note, h⟩) rfl
  | attachMessage =>
    dsimp only [WriteTool.run, toolCrmAttachMessage] at h
    exact attach_sends h (fun _ note h => ⟨note, h⟩) rfl

theorem send_cases {s : GateState} {spec : StepSpec}
    (h : s.send lib env environ tool spec = .ok out) :
    out.raw = s.current spec ∧
      Sends lib environ (s.config spec.tenant) spec.tenant (agentOf s.db spec) spec.args tool
        (connectionName spec) out := by
  obtain ⟨name, hsends⟩ := run_sends h
  have hname : connectionName spec = name := by
    unfold connectionName
    rw [hsends.admits.named]
  subst hname
  obtain ⟨file, hfile, hraw⟩ := hsends.admits.held
  refine ⟨?_, hsends⟩
  unfold GateState.current rawOf
  rw [hfile]
  exact hraw

end Sends

/-! ### Runs -/

/-- What has to stay for a step that is dispatched. A configuration in force when the approved
fingerprint was computed has the route of the present one, unless the fingerprint of a lead or a deal
already tells them apart; for a timeline step it also has the host; and the digests compared do not
collide. -/
structure Steady (lib : Library) (s : GateState) (tool : WriteTool) (spec : StepSpec) : Prop where
  route : ∀ raw ∈ s.approved lib tool spec, (tool.planned = true →
      raw.getD "driver" .null = (s.current spec).getD "driver" .null ∧
        raw.getD "host" .null = (s.current spec).getD "host" .null) →
    ∀ ρ, routeOf lib (s.current spec) tool = .ok ρ → routeOf lib raw tool = .ok ρ
  host : tool.planned = false → ∀ raw ∈ s.approved lib tool spec, hostOf raw = hostOf (s.current spec)
  digest : ∀ p ∈ s.plans, ∀ q, s.replan? lib tool spec = some q → p.fingerprint lib = q.fingerprint lib →
    p.text = q.text

/-- The condition on an event. -/
def SteadyAt (lib : Library) (s : GateState) : GateLabel → Prop
  | .dispatch _ _ step => ∀ tool spec, s.claimed? step = some (tool, spec) → Steady lib s tool spec
  | _ => True

/-- A request is bound to the destination in force when the approved fingerprint was computed: it goes
to that host along that route, made with nothing of the environment but its references. -/
structure Sent.Bound (lib : Library) (d : Sent) : Prop where
  /-- The configuration of a timeline step's submission is known. -/
  known : d.tool.planned = false → d.approved ≠ []
  destination : ∀ raw ∈ d.approved, ∃ ρ, routeOf lib raw d.tool = .ok ρ ∧
    d.request.Reaches lib d.environ (hostOf raw) ρ ∧
    ∀ environ, (∀ ref ∈ ρ.credential, environ ref = d.environ ref) →
      getAdapter lib environ d.raw = getAdapter lib d.environ d.raw

/-- What every event keeps. -/
structure GateKept (s : GateState) : Prop where
  orderly : Orderly s.db
  plans : ∀ p ∈ s.plans, p.raw.getD "driver" .null = .str (driverOf p.raw) ∧
    p.raw.getD "host" .null = .str (hostOf p.raw)
  submitted : ∀ r ∈ s.db.steps, ∃ e ∈ s.submitted, e.1 = r.id
  handed : ∀ spec ∈ s.handed, ∃ e ∈ s.submitted, e.1 = spec.id

theorem gateKept_empty : GateKept {} where
  orderly := orderly_empty
  plans := fun _ hp => absurd hp List.not_mem_nil
  submitted := fun _ hr => absurd hr List.not_mem_nil
  handed := fun _ hspec => absurd hspec List.not_mem_nil

section Runs

variable {lib : Library} {P : Platform} {s t : GateState} {τs : List (Transition GateState GateLabel)}

theorem planned_texts {env : Env} {config : Except Err Json} {tenant agent : String} {args : Json}
    {p : Plan} (h : toolCrmLeadPlan lib env config tenant agent args = .ok p) :
    p.raw.getD "driver" .null = .str (driverOf p.raw) ∧
      p.raw.getD "host" .null = .str (hostOf p.raw) := by
  simp only [toolCrmLeadPlan, bind_eq_ok, pure_eq_ok] at h
  obtain ⟨⟨name, raw⟩, hadmitted, request, -, rfl⟩ := h
  obtain ⟨capability, host, hvalid⟩ := (admitted_ok hadmitted).valid
  obtain ⟨hdriver, hhost, -⟩ := validated_texts hvalid
  exact ⟨hdriver, hhost⟩

theorem planDeal_texts {config : Except Err Json} {tenant agent connection : String} {data : Json}
    {p : Plan} (h : planDeal lib config tenant agent connection data = .ok p) :
    p.raw.getD "driver" .null = .str (driverOf p.raw) ∧
      p.raw.getD "host" .null = .str (hostOf p.raw) := by
  simp only [planDeal, bind_eq_ok, pure_eq_ok] at h
  obtain ⟨file, -, host, hvalid, request, -, rfl⟩ := h
  obtain ⟨hdriver, hhost, -⟩ := validated_texts hvalid
  exact ⟨hdriver, hhost⟩

/-- An engine operation: each step it adds has its submission, and the step it hands out is one. -/
theorem GateKept.op (h : GateKept s) (op : Op) : GateKept (s.after lib P (.op op)) := by
  have hknown : ∀ r ∈ (s.db.after P op).steps, ∃ e ∈ (s.after lib P (.op op)).submitted,
      e.1 = r.id := by
    intro r hr
    by_cases hold : ∃ r' ∈ s.db.steps, r'.id = r.id
    · obtain ⟨r', hr', hid⟩ := hold
      obtain ⟨e, he, heid⟩ := h.submitted r' hr'
      exact ⟨e, List.mem_append_left _ he, heid.trans hid⟩
    · refine ⟨(r.id, s.config), List.mem_append_right _ (List.mem_map.2 ⟨r, ?_, rfl⟩), rfl⟩
      simp only [List.mem_filter, List.all_eq_true, decide_eq_true_eq]
      exact ⟨hr, fun r' hr' hid => hold ⟨r', hr', hid⟩⟩
  have hstep : Engine.Step P s.db op (s.db.after P op) := rfl
  obtain ⟨out, he, hout⟩ := hstep.effect
  refine ⟨he.orderly h.orderly, h.plans, hknown, fun spec hspec => ?_⟩
  rcases List.mem_append.1 hspec with hspec | hspec
  · obtain ⟨e, he, hid⟩ := h.handed spec hspec
    exact ⟨e, List.mem_append_left _ he, hid⟩
  · split at hspec
    · rename_i db' spec' token hexec
      obtain rfl := List.mem_singleton.1 hspec
      obtain ⟨r, hr, hrspec, -⟩ := ((exec_effect hexec).handed h.orderly).1
      obtain ⟨e, he, hid⟩ := h.submitted r hr
      refine ⟨e, List.mem_append_left _ he, hid.trans ?_⟩
      rw [StepRow.id, hrspec]
    · cases hspec

/-- **One step.** Whoever sends a request in a steady state sends it where it was approved to go. -/
theorem Steady.bound {env : Env} {environ : String → String} {tool : WriteTool} {spec : StepSpec}
    {out : Sending} (hs : GateKept s) (h : Steady lib s tool spec) (hspec : spec ∈ s.handed)
    (hsend : s.send lib env environ tool spec = .ok out) :
    Sent.Bound lib ⟨tool, spec, environ, out.raw, out.request, s.approved lib tool spec⟩ := by
  obtain ⟨hraw, hsends⟩ := send_cases hsend
  obtain ⟨adapter, hadapter, hbuilds⟩ := hsends.builds
  obtain ⟨ρ, hρ, hreaches⟩ := hbuilds.reaches hadapter
  obtain ⟨capability, host, hvalid⟩ := hsends.admits.valid
  obtain ⟨hdriver, hhost, -⟩ := validated_texts hvalid
  refine ⟨fun hplanned hnone => ?_, fun raw hmem => ?_⟩
  · -- the step was submitted
    obtain ⟨e, he, hid⟩ := hs.handed spec hspec
    unfold GateState.approved at hnone
    rw [if_neg (by rw [hplanned]; decide)] at hnone
    exact absurd (List.mem_map_of_mem (List.mem_filter.2 ⟨he, decide_eq_true hid⟩))
      (List.eq_nil_iff_forall_not_mem.1 hnone _)
  · have hbinds : tool.planned = true →
        raw.getD "driver" .null = out.raw.getD "driver" .null ∧
          raw.getD "host" .null = out.raw.getD "host" .null := by
      intro hplanned
      dsimp only at hmem
      unfold GateState.approved at hmem
      rw [if_pos hplanned] at hmem
      obtain ⟨p, hp, rfl⟩ := List.mem_map.1 hmem
      obtain ⟨hp, hgiven⟩ := List.mem_filter.1 hp
      obtain ⟨request, hrequest, hcurrent⟩ := hsends.planned hplanned
      -- the given fingerprint is the plan's and the one made again
      have hreplan : s.replan? lib tool spec = some
          ⟨spec.tenant, agentOf s.db spec, connectionName spec, out.raw, request⟩ := by
        unfold GateState.replan?
        rw [hrequest, hraw]
        rfl
      have htext := h.digest p hp _ hreplan (same_text hgiven hcurrent)
      obtain ⟨hpdriver, hphost⟩ := hs.plans p hp
      obtain ⟨hsame, hhosts⟩ := text_binds ⟨hpdriver, hphost⟩ ⟨hdriver, hhost⟩ htext
      rw [hpdriver, hphost, hdriver, hhost, hsame, hhosts]
      exact ⟨rfl, rfl⟩
    have hhosts : hostOf raw = hostOf out.raw := by
      cases hplanned : tool.planned with
      | true =>
        unfold hostOf
        rw [(hbinds hplanned).2]
      | false => rw [hraw, h.host hplanned raw hmem]
    refine ⟨ρ, ?_, hhosts ▸ hreaches, fun environ' hrefs => getAdapter_uses hρ hrefs⟩
    rw [hraw] at hbinds hρ
    exact h.route raw hmem hbinds ρ hρ

/-- The other events keep the plans and the steps. -/
theorem GateStep.kept {l : GateLabel} (h : GateKept s) (hs : GateStep lib P s l t) : GateKept t := by
  unfold GateStep at hs
  subst hs
  cases l with
  | op op => exact h.op op
  | configure config => exact ⟨h.orderly, h.plans, h.submitted, h.handed⟩
  | plan env tenant agent args =>
    dsimp only [GateState.after]
    split
    · rename_i p hp
      refine ⟨h.orderly, fun p' hp' => ?_, h.submitted, h.handed⟩
      rcases List.mem_append.1 hp' with hp' | hp'
      · exact h.plans p' hp'
      · obtain rfl := List.mem_singleton.1 hp'
        exact planned_texts hp
    · exact h
  | planDeal tenant agent connection data =>
    dsimp only [GateState.after]
    split
    · rename_i p hp
      refine ⟨h.orderly, fun p' hp' => ?_, h.submitted, h.handed⟩
      rcases List.mem_append.1 hp' with hp' | hp'
      · exact h.plans p' hp'
      · obtain rfl := List.mem_singleton.1 hp'
        exact planDeal_texts hp
    · exact h
  | dispatch env environ step =>
    dsimp only [GateState.after]
    split
    · exact h
    · split
      · exact ⟨h.orderly, h.plans, h.submitted, h.handed⟩
      · exact h

theorem claimed?_mem {step : Uuid} {tool : WriteTool} {spec : StepSpec}
    (h : s.claimed? step = some (tool, spec)) : spec ∈ s.handed := by
  unfold GateState.claimed? at h
  split at h
  · rename_i spec' hfind
    obtain ⟨tool', -, hpair⟩ := Option.map_eq_some_iff.1 h
    cases hpair
    exact List.mem_of_find?_eq_some hfind
  · cases h

theorem GateStep.bound {l : GateLabel} (h : GateKept s ∧ ∀ d ∈ s.sent, d.Bound lib)
    (hs : guarded (SteadyAt lib) (GateStep lib P) s l t) :
    GateKept t ∧ ∀ d ∈ t.sent, d.Bound lib := by
  obtain ⟨hstep, hsteady⟩ := hs
  refine ⟨hstep.kept h.1, ?_⟩
  unfold GateStep at hstep
  subst hstep
  cases l with
  | op | configure => exact h.2
  | plan | planDeal =>
    dsimp only [GateState.after]
    split <;> exact h.2
  | dispatch env environ step =>
    dsimp only [GateState.after]
    split
    · exact h.2
    · rename_i tool spec hclaimed
      split
      · rename_i out hsend
        intro d hd
        rcases List.mem_append.1 hd with hd | hd
        · exact h.2 d hd
        · obtain rfl := List.mem_singleton.1 hd
          exact (hsteady tool spec hclaimed).bound h.1 (claimed?_mem hclaimed) hsend
      · exact h.2

/-- **An approved write is bound to its destination as far as the fingerprint carries it.** In every run
whose dispatches find the rest of the route as it was, each request sent goes where it was approved to
go. -/
theorem destination_bound (h : Run (guarded (SteadyAt lib) (GateStep lib P)) {} τs s) :
    ∀ d ∈ s.sent, d.Bound lib :=
  (h.invariant (I := fun s => GateKept s ∧ ∀ d ∈ s.sent, d.Bound lib)
    ⟨gateKept_empty, fun _ hd => absurd hd List.not_mem_nil⟩ fun _ _ _ => GateStep.bound).2

end Runs

/-! ### A planned lead -/

section Sample

/-- A digest short enough to compute with; each run below hashes one plan. -/
def gateLibrary : Library :=
  { sampleLibrary with sha256 := fun text => toString text.utf8ByteSize }

/-- A 1C connection under a base path. -/
def onecConnection (basePath : String) : Json :=
  .obj [("driver", .str "onec"), ("host", .str "1c.uz"), ("allowed_hosts", .arr [.str "1c.uz"]),
    ("auth", .str "bearer"), ("token_env", .str "T"), ("base_path", .str basePath),
    ("capabilities", .arr [.str "read", .str "plan_write", .str "execute_write"])]

def onecConfig (basePath : String) : Config :=
  fun _ => .ok (.obj [("connections", .obj [("crm", onecConnection basePath)])])

def gatePlatform : Platform where
  registry := [⟨"crm.lead.create", .write, .mk .object none [("connection", textSchema 128),
    ("request", .mk .object none [("title", textSchema 256), ("phone", textSchema 32),
      ("source", textSchema 64)] ["title"] none 0 100 0 20000 0 0),
    ("plan_fingerprint", textSchema 1000)] ["connection", "request", "plan_fingerprint"] none 0 100 0
    20000 0 0, false⟩]
  sha256 := gateLibrary.sha256

def gateEnv (second : ℕ) : Env where
  policy := fun _ _ => .ok (.obj [("approval", .arr []), ("ladder", .str "human_assisted"),
    ("tools", .arr [.str "crm.lead.plan", .str "crm.lead.create"]),
    ("allowed_connections", .arr [.str "crm"])])
  authority := fun _ _ _ _ => .ok ()
  bindings := fun _ _ _ _ => .ok []
  now := seconds second
  parentNow := fun _ => seconds second

def plannedLead : Json :=
  .obj [("title", .str "A"), ("phone", .str "+9989012"), ("source", .str "b")]

def plannedArgs : Json := .obj [("connection", .str "crm"), ("request", plannedLead)]

/-- The fingerprint the plan tool returns. -/
def plannedFingerprint : String :=
  match toolCrmLeadPlan gateLibrary (gateEnv 0) (onecConfig "/a" "acme") "acme" "sales"
      plannedArgs with
  | .ok p => p.fingerprint gateLibrary
  | .error _ => ""

/-- A lead is planned on a connection under `/a`, submitted, approved and handed out. -/
def plannedLabels : List GateLabel :=
  [.configure (onecConfig "/a"), .plan (gateEnv 0) "acme" "sales" plannedArgs,
    .op (.submit (gateEnv 1) "acme" "web" "k1" "sales" [.obj [("tool", .str "crm.lead.create"),
      ("args", .obj [("connection", .str "crm"), ("request", plannedLead),
        ("plan_fingerprint", .str plannedFingerprint)])]] "dana"),
    .op (.approve (gateEnv 2) "acme" 1 "dana" "approved" "owner"),
    .op (.claim (gateEnv 3) "acme" "w1" "" 60)]

def plannedDispatch : GateLabel := .dispatch (gateEnv 4) (fun _ => "secret") 1

/-- The state before the dispatch. -/
def claimedLead : GateState := plannedLabels.foldl (GateState.after gateLibrary gatePlatform) {}

/-- The lead is sent. -/
def sentLead : GateState := claimedLead.after gateLibrary gatePlatform plannedDispatch

/-- The base path is moved between the approval and the dispatch. -/
def movedLead : GateState :=
  (claimedLead.after gateLibrary gatePlatform (.configure (onecConfig "/b"))).after gateLibrary
    gatePlatform plannedDispatch

/-- A request elsewhere than the base path and a fixed operation path say. -/
def astray (lib : Library) (d : Sent) (raw : Json) : Bool :=
  match (routeOf lib raw d.tool).toOption with
  | some ⟨.path text, .fixed tail, _, _⟩ =>
    decide (d.request.url ≠ "https://" ++ hostOf raw ++ text ++ tail)
  | _ => false

/-- The claimed step is planned and steady; it is sent under `/a`, after the move under `/b`, and then
it went astray. -/
theorem sample_values :
    ((match claimedLead.claimed? 1 with
      | some (tool, spec) => tool.planned &&
        ((claimedLead.approved gateLibrary tool spec).all fun raw =>
          decide ((routeOf gateLibrary raw tool).toOption =
            (routeOf gateLibrary (claimedLead.current spec) tool).toOption)) &&
        claimedLead.plans.all fun p => (claimedLead.replan? gateLibrary tool spec).all fun q =>
          decide (p.text = q.text)
      | none => true) &&
    decide (sentLead.sent.map (fun d => (d.request.url, d.approved.length)) =
      [("https://1c.uz/a/leads", 1)]) &&
    decide (movedLead.sent.map (fun d => d.request.url) = ["https://1c.uz/b/leads"]) &&
    movedLead.sent.all fun d => d.approved.any (astray gateLibrary d)) = true := by
  decide +kernel

theorem claimedLead_steady : SteadyAt gateLibrary claimedLead plannedDispatch := by
  intro tool spec hclaimed
  have hvalues := sample_values
  simp only [Bool.and_eq_true] at hvalues
  obtain ⟨⟨⟨hsteady, -⟩, -⟩, -⟩ := hvalues
  rw [hclaimed] at hsteady
  simp only [Bool.and_eq_true, List.all_eq_true, decide_eq_true_eq] at hsteady
  obtain ⟨⟨hplanned, hroutes⟩, htexts⟩ := hsteady
  refine ⟨fun raw hraw _ ρ hρ => ?_, fun hnot => ?_, fun p hp q hq _ => ?_⟩
  · have hroute := hroutes raw hraw
    rw [hρ] at hroute
    cases hx : routeOf gateLibrary raw tool with
    | ok ρ' =>
      rw [hx] at hroute
      exact congrArg Except.ok (Option.some.inj hroute)
    | error e =>
      rw [hx] at hroute
      cases hroute
  · rw [hplanned] at hnot
    cases hnot
  · have htext := htexts p hp
    rw [hq] at htext
    simpa using htext

theorem destination_bound_sample :
    sentLead.sent.map (fun d => (d.request.url, d.approved.length)) = [("https://1c.uz/a/leads", 1)] ∧
    ∀ d ∈ sentLead.sent, d.Bound gateLibrary := by
  have hvalues := sample_values
  simp only [Bool.and_eq_true, decide_eq_true_eq] at hvalues
  refine ⟨hvalues.1.1.2, ?_⟩
  have hrun : Run (guarded (SteadyAt gateLibrary) (GateStep gateLibrary gatePlatform)) {}
      (trace (GateState.after gateLibrary gatePlatform) {} plannedLabels) claimedLead :=
    Run.nil.guardedCalls plannedLabels fun τ hτ => by
      have hlabel := label_of_mem_trace hτ
      simp only [plannedLabels, List.mem_cons, List.not_mem_nil, or_false] at hlabel
      rcases hlabel with h | h | h | h | h
      all_goals
        rw [h]
        trivial
  exact destination_bound (hrun.snoc ⟨rfl, claimedLead_steady⟩)

theorem astray_not_bound {lib : Library} {d : Sent} (h : d.approved.any (astray lib d) = true) :
    ¬ d.Bound lib := by
  intro hbound
  obtain ⟨raw, hraw, hurl⟩ := List.any_eq_true.1 h
  obtain ⟨⟨base, path, method, credential⟩, hρ, hreaches, -⟩ := hbound.destination raw hraw
  obtain ⟨address, rendered, hbegins, hfills, heq⟩ := hreaches.url
  unfold astray at hurl
  rw [hρ] at hurl
  dsimp only [Except.toOption] at hurl
  cases base with
  | webhook ref => cases hurl
  | path text =>
    cases path with
    | fixed tail =>
      obtain rfl := hbegins
      obtain rfl := hfills
      exact of_decide_eq_true hurl heq
    | template | between => cases hurl

/-- The planned lead is sent under the other base path, although it was approved for this one. -/
theorem moved_write :
    (∃ τs, Run (GateStep gateLibrary gatePlatform) {} τs movedLead) ∧
    movedLead.sent.map (fun d => d.request.url) = ["https://1c.uz/b/leads"] ∧
    ∀ d ∈ movedLead.sent, ¬ d.Bound gateLibrary := by
  have hvalues := sample_values
  simp only [Bool.and_eq_true, decide_eq_true_eq, List.all_eq_true] at hvalues
  refine ⟨?_, hvalues.1.2, fun d hd => astray_not_bound (hvalues.2 d hd)⟩
  have hrun : Run (GateStep gateLibrary gatePlatform) {}
      (trace (GateState.after gateLibrary gatePlatform) {} plannedLabels) claimedLead :=
    Run.nil.calls plannedLabels
  exact ⟨_, (hrun.snoc rfl).snoc rfl⟩

end Sample

end AgentPlatform.Crm
