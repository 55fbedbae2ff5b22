import AgentPlatform.WhatsApp.Window

/-!
# Sending a message

`send` of `whatsapp.py`. Everything up to the request is `prepare`, which raises or says what is asked of the
provider; the provider is called with that and nothing else.

`send_gate`: what is asked is for one of text and template, goes to the phone of a declared contact or to a
customer with a verified message to the number it leaves from, and is a text only where the evidence of the
window is open at the clock. What is not asked is refused.
-/

namespace AgentPlatform.WhatsApp

open Outcome AgentPlatform.Graph

/-- The arguments of `whatsapp.send`. -/
structure Args where
  register : Option String
  contact : Option String
  text : Option String
  template : Option String

/-- A request to the provider. -/
structure Request where
  url : String
  token : String
  body : Json

/-- The platform: WhatsApp with the credentials of its registers and the provider. -/
structure Platform extends Engine where
  token : String → Except Err String
  provider : Request → Except Err Json

/-- What `send` returns. -/
structure Sent where
  register : String
  contact : String
  kind : String
  externalId : String
  deriving DecidableEq

def maxTextChars : ℕ := 4096
def graphBase : String := "https://graph.facebook.com/v21.0"

/-- `Undeliverable`, with its reason. -/
def undeliverable (reason message : String) : Err := .other ("Undeliverable " ++ reason) message

variable (lib : Library) (eng : Engine)

/-! ### The recipient -/

/-- `PHONE_RE`. -/
def phoneRe (text : String) : Bool :=
  Pattern.anchored (fun s => Pattern.run (fun c => c.isDigit && c != '0') Char.isDigit 14 s && decide (7 ≤ s.length))
    text.toList

/-- The message the task of a step was made for, on the WhatsApp channel. -/
def taskEvent (step : String) : Option Event := do
  let task ← eng.steps.lookup step
  guard (task.channel = inboundChannel)
  eng.events.find? fun e => e.key = task.eventKey

/-- The latest message of a conversation. -/
def latestOf (contact : String) : Option Event :=
  eng.events.reverse.find? fun e => lib.extractConversation e.payload = some contact

/-- `_verified_inbound`. -/
def verifiedInbound (step : String) (contact : Option String) : Option Json := do
  let contact ← contact
  guard (contact ≠ "")
  let row ← (taskEvent eng step).or (latestOf lib eng contact)
  let payload ← lib.loads row.payload
  guard (payload.isDict = true ∧ (payload.getD "conversation_id" .null).isText contact = true)
  pure payload

/-- The registers of the number a message was written to. -/
def registersOf (inbound : Option Json) : List String :=
  match (inbound.getD .null).getD "phone_number_id" .null with
  | .str number =>
    if number = "" then [] else (eng.registers.filter fun m => m.2.phoneNumberId = number).map Prod.fst
  | _ => []

/-- `_register_for`. -/
def registerFor (inbound : Option Json) : Except Err String :=
  match registersOf eng inbound with
  | [name] => .ok name
  | _ => .error (undeliverable "no_register" ("A WhatsApp send without a register must answer a " ++
      "verified customer message to exactly one declared business number"))

/-- The register a message leaves from, and the message it answers where that was looked for. -/
def senderOf (args : Args) (step : String) : Except Err (String × Register × Option Json) := do
  let inbound := if args.register.isNone then verifiedInbound lib eng step args.contact else none
  let name ← args.register.elim (registerFor eng inbound) .ok
  let entry ← need (eng.registers.lookup name)
    (.forbidden ("WhatsApp register " ++ lib.repr (.str name) ++ " is not declared for this tenant"))
  pure (name, entry, inbound)

/-- The phone of a declared contact. -/
def declaredPhone (entry : Register) (contact : Option String) : Option String :=
  contact.bind fun c => entry.contacts.lookup c

/-- The phone a message goes to. -/
def recipientOf (name : String) (entry : Register) (contact : Option String) (inbound : Option Json)
    (step : String) : Except Err String :=
  match declaredPhone entry contact with
  | some phone => .ok phone
  | none => do
    let refusal := undeliverable "not_a_customer" ("Contact " ++ mask (contact.getD "") ++
      " is not declared for register " ++ lib.repr (.str name) ++ " and has not written to its number")
    let payload ← need (inbound.or (verifiedInbound lib eng step contact)) refusal
    ensure ((payload.getD "phone_number_id" .null).isText entry.phoneNumberId = true) refusal
    let contact ← need contact refusal
    ensure (phoneRe contact = true) refusal
    pure contact

/-! ### The window -/

/-- The time a resolved contact was last heard from. -/
def Resolved.last : Resolved → Option Binary64
  | .at last => last
  | _ => none

/-- What the window of a contact is derived from: the messages and the sheet for a declared contact, the
messages alone for a customer. -/
def evidence (entry : Register) (contact : Option String) (phone : String) :
    Except Err (Option Binary64 × Source × String) :=
  let contactId := contact.getD ""
  if (declaredPhone entry contact).isSome then do
    let (resolved, _) ← windowSources lib eng entry [(contactId, phone)]
    let found := (resolved.lookup contactId).getD (.absent, .register)
    pure (found.1.last, found.2, lib.repr (.str contactId))
  else do
    let latest ← windowFromEvents lib eng [(contactId, phone)] entry.phoneNumberId
    pure (latest.lookup contactId, .event, mask contactId)

def Source.text : Source → String
  | .event => "event"
  | .register => "register"

/-- The gate of a free-form text. -/
def openWindow (entry : Register) (contact : Option String) (phone : String) : Except Err Unit := do
  let (last, source, who) ← evidence lib eng entry contact phone
  ensure ((windowState last eng.clock).1 = true) (undeliverable "window_closed"
    ("Free-form text cannot be sent to " ++ who ++ ": the 24-hour service window is closed (the window is read " ++
      "from " ++ source.text ++ " evidence). WhatsApp would refuse it with error 131047 and the customer would " ++
      "never receive it. Send a declared template instead, or wait for the customer to message first"))

/-! ### The request -/

/-- `_template_payload`. -/
def templatePayload (t : Template) : List (String × Json) :=
  [("type", .str "template"),
    ("template", .obj ([("name", .str t.name), ("language", .obj [("code", .str t.language)])] ++
      if t.parameters = [] then []
      else [("components", .arr [.obj [("type", .str "body"), ("parameters", .arr (t.parameters.map fun value =>
        .obj [("type", .str "text"), ("text", .str value)]))]])]))]

def textPayload (text : String) : List (String × Json) :=
  [("type", .str "text"), ("text", .obj [("preview_url", .bool false), ("body", .str text)])]

/-- `has_text`. -/
def Args.hasText (args : Args) : Bool := args.text.any fun text => strip text ≠ ""

/-- `has_template`. -/
def Args.hasTemplate (args : Args) : Bool := args.template.any fun template => template ≠ ""

/-- The message of a send. -/
def payloadOf (args : Args) (name : String) (entry : Register) (phone : String) :
    Except Err (List (String × Json)) :=
  if args.hasTemplate then do
    let template := args.template.getD ""
    let declared ← need (entry.templates.lookup template) (.forbidden ("Template " ++ lib.repr (.str template) ++
      " is not declared for register " ++ lib.repr (.str name) ++ ". A template is operator configuration: the " ++
      "model selects one, it does not compose one"))
    pure (templatePayload declared)
  else do
    openWindow lib eng entry args.contact phone
    pure (textPayload (args.text.getD ""))

/-- What a send asks of the provider. -/
structure Prepared where
  name : String
  entry : Register
  phone : String
  request : Request

/-- `send`, up to the request. -/
def prepare (platform : Platform) (args : Args) (step : String) : Except Err Prepared := do
  ensure (args.hasText ≠ args.hasTemplate)
    (.valueError "Provide exactly one of text or template, not both or neither")
  ensure (args.hasText = true → (args.text.getD "").length ≤ maxTextChars)
    (.valueError ("text must be at most " ++ toString maxTextChars ++ " characters"))
  let (name, entry, inbound) ← senderOf lib platform.toEngine args step
  let phone ← recipientOf lib platform.toEngine name entry args.contact inbound step
  let payload ← payloadOf lib platform.toEngine args name entry phone
  let token ← platform.token name
  pure ⟨name, entry, phone, graphBase ++ "/" ++ entry.phoneNumberId ++ "/messages", token,
    .obj ([("messaging_product", .str "whatsapp"), ("to", .str phone), ("recipient_type", .str "individual")] ++
      payload)⟩

/-- The identifier in the answer of the provider. -/
def externalId (result : Json) : String :=
  match result.getD "messages" .null with
  | .arr (.obj members :: _) =>
    match (Json.obj members).getD "id" .null with
    | .str id => id
    | value => if value.truthy then lib.repr value else ""
  | _ => ""

/-- What `send` makes of the answer. -/
def receipt (args : Args) (p : Prepared) (result : Json) : Except Err Sent := do
  ensure (result.isDict = true) (.other "WhatsAppError" "WhatsApp response was not an object")
  pure ⟨p.name, args.contact.getD "", if args.hasTemplate then "template" else "text", externalId lib result⟩

/-- `send`: what is asked of the provider, and what is returned. -/
def send (platform : Platform) (args : Args) (step : String) : List Request × Except Err Sent :=
  match prepare lib platform args step with
  | .error e => ([], .error e)
  | .ok p => ([p.request], platform.provider p.request >>= receipt lib args p)

/-! ### The gate -/

variable {lib : Library} {eng : Engine} {platform : Platform}

/-- A stored message shows that the contact wrote to the number. -/
def WroteTo (lib : Library) (eng : Engine) (contact number : String) : Prop :=
  ∃ event ∈ eng.events, ∃ payload, lib.loads event.payload = some payload ∧
    (payload.getD "conversation_id" .null).isText contact = true ∧
    (payload.getD "phone_number_id" .null).isText number = true

/-- Who may be written to: a declared contact at its phone, or a customer who wrote to the number, at the
identifier of the message. -/
def Recipient (lib : Library) (eng : Engine) (entry : Register) (contact phone : String) : Prop :=
  entry.contacts.lookup contact = some phone ∨
    entry.contacts.lookup contact = none ∧ phone = contact ∧ phoneRe contact = true ∧
      WroteTo lib eng contact entry.phoneNumberId

/-- The window evidence is open: the first usable message of the contact is within its window, or there is
none, and the sheet has a time for the contact that is. -/
def OpenEvidence (lib : Library) (eng : Engine) (entry : Register) (contact phone : String) : Prop :=
  (∃ expiry, (messages lib eng [(contact, phone)] entry.phoneNumberId contact).head? = some expiry ∧
      Within expiry eng.clock) ∨
    messages lib eng [(contact, phone)] entry.phoneNumberId contact = [] ∧
      entry.contacts.lookup contact = some phone ∧
      ∃ rows readable value last, sheet eng entry = .ok (rows, readable) ∧
        (rows.filter fun m => m.1 = contact).getLast? = some (contact, value) ∧
        parseTimestamp lib value = .ok (some last) ∧ (windowState (some last) eng.clock).1 = true

/-- What may be asked of the provider. -/
structure Admitted (lib : Library) (platform : Platform) (args : Args) (r : Request) (entry : Register)
    (contact phone : String) : Prop where
  registered : ∃ name, platform.registers.lookup name = some entry ∧ platform.token name = .ok r.token
  named : args.contact = some contact
  url : r.url = graphBase ++ "/" ++ entry.phoneNumberId ++ "/messages"
  addressed : r.body.getD "to" .null = .str phone
  one : args.hasText ≠ args.hasTemplate
  recipient : Recipient lib platform.toEngine entry contact phone
  window : args.hasText = true → OpenEvidence lib platform.toEngine entry contact phone

/-- A verified inbound message is a stored one of the conversation. -/
theorem verifiedInbound_stored {step : String} {contact : Option String} {payload : Json}
    (h : verifiedInbound lib eng step contact = some payload) :
    ∃ c, contact = some c ∧ ∃ event ∈ eng.events, lib.loads event.payload = some payload ∧
      (payload.getD "conversation_id" .null).isText c = true := by
  unfold verifiedInbound at h
  simp only [Option.bind_eq_bind, Option.bind_eq_some_iff, Option.guard_eq_some'] at h
  obtain ⟨c, rfl, _, _, event, hevent, payload', hloads, _, hcheck, heq⟩ := h
  cases heq
  refine ⟨c, rfl, event, ?_, hloads, hcheck.2⟩
  rcases Option.or_eq_some_iff.1 hevent with hevent | ⟨-, hevent⟩
  · unfold taskEvent at hevent
    simp only [Option.bind_eq_bind, Option.bind_eq_some_iff] at hevent
    obtain ⟨_, _, _, _, hfind⟩ := hevent
    exact List.mem_of_find?_eq_some hfind
  · exact List.mem_reverse.1 (List.mem_of_find?_eq_some hevent)

/-- The recipient is a declared contact, or a customer who wrote to the number. -/
theorem recipientOf_ok {name step phone : String} {entry : Register} {contact : Option String}
    {inbound : Option Json} (hinbound : ∀ payload, inbound = some payload →
      verifiedInbound lib eng step contact = some payload)
    (h : recipientOf lib eng name entry contact inbound step = .ok phone) :
    ∃ c, contact = some c ∧ Recipient lib eng entry c phone := by
  unfold recipientOf at h
  split at h
  · rename_i found hfound
    cases h
    obtain ⟨c, rfl, hc⟩ := Option.bind_eq_some_iff.1 hfound
    exact ⟨c, rfl, .inl hc⟩
  · rename_i hnone
    obtain ⟨payload, hpayload, h⟩ := bind_eq_ok.1 h
    obtain ⟨_, hnumber, h⟩ := bind_eq_ok.1 h
    obtain ⟨c, hc, h⟩ := bind_eq_ok.1 h
    obtain ⟨_, hphone, h⟩ := bind_eq_ok.1 h
    cases h
    rw [need_eq_ok] at hpayload hc
    subst hc
    have hverified : verifiedInbound lib eng step (some phone) = some payload := by
      rcases Option.or_eq_some_iff.1 hpayload with hpayload | ⟨-, hpayload⟩
      · exact hinbound payload hpayload
      · exact hpayload
    obtain ⟨_, heq, event, hmem, hloads, hconversation⟩ := verifiedInbound_stored hverified
    cases heq
    exact ⟨phone, rfl, .inr ⟨hnone, rfl, ensure_eq_ok.1 hphone, event, hmem, payload, hloads, hconversation,
      ensure_eq_ok.1 hnumber⟩⟩

/-- A time of the sheet is what its last row of the contact says. -/
theorem fromSheet_last {rows : List (String × Cell)} {contact : String} {resolved : Resolved} {last : Binary64}
    (h : fromSheet lib (((rows.filter fun m => m.1 = contact).getLast?.map Prod.snd).getD .none) = .ok resolved)
    (hlast : resolved.last = some last) :
    ∃ value, (rows.filter fun m => m.1 = contact).getLast? = some (contact, value) ∧
      parseTimestamp lib value = .ok (some last) := by
  cases hrow : (rows.filter fun m => m.1 = contact).getLast? with
  | none =>
    rw [hrow] at h
    cases h
    cases hlast
  | some m =>
    have hmem := List.mem_of_getLast? hrow
    rw [List.mem_filter, decide_eq_true_eq] at hmem
    obtain ⟨key, value⟩ := m
    obtain rfl : key = contact := hmem.2
    refine ⟨value, rfl, ?_⟩
    rw [hrow, Option.map_some, Option.getD_some] at h
    unfold fromSheet at h
    split_ifs at h with hempty
    · cases h
      cases hlast
    · obtain ⟨parsed, hparsed, rfl⟩ := map_eq_ok.1 h
      cases parsed with
      | none => cases hlast
      | some t =>
        cases hlast
        exact hparsed

/-- The gate of a text lets only open evidence through. -/
theorem openWindow_ok {entry : Register} {contact phone : String} {u : Unit}
    (hrecipient : Recipient lib eng entry contact phone)
    (h : openWindow lib eng entry (some contact) phone = .ok u) : OpenEvidence lib eng entry contact phone := by
  obtain ⟨⟨last, source, who⟩, hevidence, h⟩ := bind_eq_ok.1 h
  have hopen : (windowState last eng.clock).1 = true := ensure_eq_ok.1 h
  have hkey : contact ∈ [(contact, phone)].map Prod.fst := List.mem_singleton.2 rfl
  unfold evidence at hevidence
  dsimp only [Option.getD_some] at hevidence
  split_ifs at hevidence with hdeclared
  · obtain ⟨⟨resolved, readable⟩, hresolved, hevidence⟩ := bind_eq_ok.1 hevidence
    obtain ⟨verified, hverified, hresolved⟩ := bind_eq_ok.1 hresolved
    obtain ⟨⟨rows, read⟩, hsheet, hresolved⟩ := bind_eq_ok.1 hresolved
    obtain ⟨found, hfound, hpair⟩ := bind_eq_ok.1 hresolved
    cases hpair
    obtain ⟨r, hlookup, hr⟩ := lookup_resolved hfound hkey
    rw [hlookup] at hevidence
    cases hevidence
    have hfirst := lookup_windowFromEvents hkey hverified
    unfold resolveContact at hr
    cases hmessages : messages lib eng [(contact, phone)] entry.phoneNumberId contact with
    | cons expiry rest =>
      rw [hmessages, List.head?_cons, Option.map_some] at hfirst
      rw [hfirst] at hr
      obtain ⟨parsed, hparsed, rfl⟩ := map_eq_ok.1 hr
      cases hparsed
      refine .inl ⟨expiry, by rw [hmessages, List.head?_cons], ?_⟩
      rw [Option.getD_some, Resolved.last] at hopen
      split_ifs at hopen with hpos
      · exact hopen
      · cases hopen
    | nil =>
      rw [hmessages, List.head?_nil, Option.map_none] at hfirst
      rw [hfirst] at hr
      obtain ⟨resolved', hresolved', rfl⟩ := map_eq_ok.1 hr
      rw [Option.getD_some] at hopen
      cases hlast : resolved'.last with
      | none =>
        rw [hlast] at hopen
        cases hopen
      | some t =>
        rw [hlast] at hopen
        obtain ⟨value, hvalue, hparsed⟩ := fromSheet_last hresolved' hlast
        have hphone : entry.contacts.lookup contact = some phone := by
          rcases hrecipient with hphone | ⟨hnone, -⟩
          · exact hphone
          · rw [declaredPhone, Option.bind_some, hnone] at hdeclared
            cases hdeclared
        exact .inr ⟨hmessages, hphone, rows, _, value, t, hsheet, hvalue, hparsed, hopen⟩
  · obtain ⟨latest, hlatest, hevidence⟩ := bind_eq_ok.1 hevidence
    cases hevidence
    have hfirst := lookup_windowFromEvents hkey hlatest
    rw [hfirst] at hopen
    cases hhead : (messages lib eng [(contact, phone)] entry.phoneNumberId contact).head? with
    | none =>
      rw [hhead] at hopen
      cases hopen
    | some expiry =>
      rw [hhead] at hopen
      exact .inl ⟨expiry, hhead, hopen⟩

theorem senderOf_ok {args : Args} {step name : String} {entry : Register} {inbound : Option Json}
    (h : senderOf lib eng args step = .ok (name, entry, inbound)) :
    eng.registers.lookup name = some entry ∧
      ∀ payload, inbound = some payload → verifiedInbound lib eng step args.contact = some payload := by
  obtain ⟨found, -, h⟩ := bind_eq_ok.1 h
  obtain ⟨entry', hentry, h⟩ := bind_eq_ok.1 h
  cases h
  refine ⟨need_eq_ok.1 hentry, fun payload hpayload => ?_⟩
  split_ifs at hpayload
  exact hpayload

/-- What is prepared may be asked of the provider. -/
theorem prepare_ok {args : Args} {step : String} {p : Prepared}
    (h : prepare lib platform args step = .ok p) :
    ∃ contact, Admitted lib platform args p.request p.entry contact p.phone := by
  obtain ⟨_, hone, h⟩ := bind_eq_ok.1 h
  obtain ⟨_, -, h⟩ := bind_eq_ok.1 h
  obtain ⟨⟨name, entry, inbound⟩, hsender, h⟩ := bind_eq_ok.1 h
  obtain ⟨phone, hphone, h⟩ := bind_eq_ok.1 h
  obtain ⟨payload, hpayload, h⟩ := bind_eq_ok.1 h
  obtain ⟨token, htoken, h⟩ := bind_eq_ok.1 h
  cases h
  obtain ⟨hentry, hinbound⟩ := senderOf_ok hsender
  obtain ⟨contact, hcontact, hrecipient⟩ := recipientOf_ok hinbound hphone
  have hdistinct : args.hasText ≠ args.hasTemplate := ensure_eq_ok.1 hone
  refine ⟨contact, ⟨name, hentry, htoken⟩, hcontact, rfl, ?_, hdistinct, hrecipient, fun htext => ?_⟩
  · simp [Json.getD, Json.get?]
  · have htemplate : args.hasTemplate = false := by
      cases hvalue : args.hasTemplate with
      | false => rfl
      | true => exact absurd (htext.trans hvalue.symm) hdistinct
    unfold payloadOf at hpayload
    rw [htemplate, if_neg Bool.false_ne_true, hcontact] at hpayload
    obtain ⟨_, hopen, -⟩ := bind_eq_ok.1 hpayload
    exact openWindow_ok hrecipient hopen

/-- The gate: the provider is asked only what may be asked, and what is not asked is refused. -/
theorem send_gate (lib : Library) (platform : Platform) (args : Args) (step : String) :
    (∀ r ∈ (send lib platform args step).1,
      ∃ entry contact phone, Admitted lib platform args r entry contact phone) ∧
    ((send lib platform args step).1 = [] → ∃ e, (send lib platform args step).2 = .error e) := by
  unfold send
  cases hprepare : prepare lib platform args step with
  | error e => exact ⟨fun r hr => (by cases hr), fun _ => ⟨e, rfl⟩⟩
  | ok p =>
    refine ⟨fun r hr => ?_, fun hempty => (by cases hempty)⟩
    obtain rfl := List.mem_singleton.1 hr
    obtain ⟨contact, hadmitted⟩ := prepare_ok hprepare
    exact ⟨p.entry, contact, p.phone, hadmitted⟩

/-- A shop one customer has written to. -/
def shopPlatform : Platform :=
  { shopEngine [messageOf "998935555555" 200000] with
    token := fun _ => .ok "token"
    provider := fun _ => .ok (.obj [("messages", .arr [.obj [("id", .str "wamid.1")]])]) }

example : (send (plainLibrary [messageOf "998935555555" 200000]) shopPlatform
    ⟨none, some "998935555555", some "salom", none⟩ "step").2 =
      .ok ⟨"shop", "998935555555", "text", "wamid.1"⟩ := by
  decide +kernel

end AgentPlatform.WhatsApp
