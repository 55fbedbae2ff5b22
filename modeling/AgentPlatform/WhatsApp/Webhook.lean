import AgentPlatform.WhatsApp.Window

/-!
# The messages of a delivery

`customer_messages` of `whatsapp_inbound.py`: a delivery is a list of entries, an entry a list of changes, a
change a list of messages. Each message becomes an event or a drop; a change that is not about messages, or
names no number of the business, is dropped as one.

Two things raise on the way: the kind of a message is looked up in a dictionary, which a list or an object
cannot be, and a timestamp is read with `int`, which takes 4300 digits at most. `customerMessages_iff`: without
them the walk returns, and accounts for each message exactly once.
-/

namespace AgentPlatform.WhatsApp

open Outcome AgentPlatform.Graph

def maxEntries : ℕ := 50
def maxChanges : ℕ := 50
def maxMessagesPerChange : ℕ := 50
def maxCustomerTextChars : ℕ := 4000
def maxProfileNameChars : ℕ := 256
def maxDisplayNameChars : ℕ := 64
/-- The digits `int` reads of a text. -/
def maxIntDigits : ℕ := 4300
def webhookObject : String := "whatsapp_business_account"
def messageField : String := "messages"
def voicePlaceholder : String := "[ovozli xabar]"

def knownTypes : List String :=
  ["text", "image", "audio", "video", "document", "sticker", "location", "contacts", "button", "interactive",
    "order", "system", "reaction", "unsupported", "request_welcome", "ephemeral", "edit", "revoke"]

def statusStates : List String := ["sent", "delivered", "read", "failed", "deleted", "warning"]

def mediaPlaceholders : List (String × String) :=
  [("image", "[rasm]"), ("video", "[video]"), ("document", "[fayl]"), ("audio", "[audio]")]

def interactiveReplies : List String := ["button_reply", "list_reply"]

/-! ### Shapes -/

/-- `MESSAGE_ID_RE`. -/
def messageIdRe (text : String) : Bool :=
  let ok := fun c => isAlphanumeric c || c == '_' || c == '.' || c == ':' || c == '-'
  Pattern.anchored (Pattern.run ok ok 127) text.toList

/-- `WA_ID_RE`. -/
def waIdRe (text : String) : Bool :=
  Pattern.anchored
    (fun s => Pattern.run (fun c => c.isDigit && c != '0') Char.isDigit 19 s && decide (7 ≤ s.length)) text.toList

/-- `PHONE_NUMBER_ID_RE`. -/
def phoneNumberIdRe (text : String) : Bool := Pattern.anchored (Pattern.run Char.isDigit Char.isDigit 31) text.toList

/-- The elements of a list, and none of anything else. -/
def listOf : Json → List Json
  | .arr items => items
  | _ => []

/-- A text, where the value is one. -/
def text? : Json → Option String
  | .str s => some s
  | _ => none

/-! ### What a message says -/

/-- A message that was dropped, with what is said of it. -/
structure Drop where
  reason : String
  waId : Option String
  kind : Option String
  status : Option String
  deriving DecidableEq

def Drop.because (reason : String) : Drop := ⟨reason, none, none, none⟩

/-- The payload of an event, with the message and the number it is of. -/
structure CustomerEvent where
  messageId : String
  phoneNumberId : String
  sender : String
  text : String
  profileName : String
  receivedAt : Option ℤ
  windowUntil : Option ℤ
  senderName : Option String
  deriving DecidableEq

/-- The placeholder of a medium, or its caption. -/
def mediaText (message : Json) (kind placeholder : String) : Json :=
  let media := message.getD kind .null
  let placeholder := if kind = "audio" ∧ media.getD "voice" .null matches .bool true then voicePlaceholder
    else placeholder
  match media.getD "caption" .null with
  | .str caption => .str (if strip caption ≠ "" then caption else placeholder)
  | _ => .str placeholder

/-- What a tapped button or row says. -/
def interactiveText (interactive : Json) : Json :=
  match interactive.getD "type" .null with
  | .str kind => if kind ∈ interactiveReplies then (interactive.getD kind .null).getD "title" .null else .null
  | _ => .null

/-- `_reply_text`. -/
def replyText (message : Json) : Except Err Json :=
  match message.getD "type" .null with
  | .str kind =>
    if kind = "text" then
      .ok ((text? ((message.getD "text" .null).getD "body" .null)).elim .null .str)
    else if kind = "button" then .ok ((message.getD "button" .null).getD "text" .null)
    else if kind = "interactive" then .ok (interactiveText (message.getD "interactive" .null))
    else .ok ((mediaPlaceholders.lookup kind).elim .null (mediaText message kind))
  | .arr _ => .error (.typeError "unhashable type: 'list'")
  | .obj _ => .error (.typeError "unhashable type: 'dict'")
  | _ => .ok .null

/-- `is_ascii_digit_run` of `cells.py`. -/
def isDigitRun (text : String) : Bool := text ≠ "" && text.toList.all Char.isDigit

/-- `_epoch`. -/
def epoch : Json → Except Err (Option ℤ)
  | .int n => .ok (some n)
  | .str s =>
    if isDigitRun s then
      if s.length ≤ maxIntDigits then .ok ((s.toNat?).map Int.ofNat) else
        .error (.valueError "Exceeds the limit (4300 digits) for integer string conversion")
    else .ok none
  | _ => .ok none

/-- The identifiers of a message: its own and its sender's. -/
def addressOf (message : Json) : Option (String × String) := do
  guard (message.isDict = true)
  let id ← text? (message.getD "id" .null)
  guard (messageIdRe id = true)
  let sender ← text? (message.getD "from" .null)
  guard (waIdRe sender = true)
  pure (id, sender)

variable (invisible : Char → Bool)

/-- `clean_display_name`. -/
def cleanDisplayName (name : String) : String :=
  let shown := ((name.toList.take (maxDisplayNameChars * 4)).filter fun c => isSpace c || !invisible c).splitOnP isSpace
  strip (String.ofList ((String.intercalate " " ((shown.filter (· ≠ [])).map String.ofList)).toList.take
    maxDisplayNameChars))

/-- What became of a part of a delivery. -/
inductive Outcome
  | event (raw : Json) (event : CustomerEvent)
  | message (raw : Json) (drop : Drop)
  | refused (change : Json) (drop : Drop)
  | other (drop : Drop)

/-- The event of a message with a text. -/
def eventOf (number : String) (names : List (String × String)) (id sender text : String) (stamp : Option ℤ) :
    CustomerEvent :=
  let name := (names.reverse.lookup sender).getD ""
  let shown := cleanDisplayName invisible name
  { messageId := id
    phoneNumberId := number
    sender := sender
    text := String.ofList (text.toList.take maxCustomerTextChars)
    profileName := name
    receivedAt := stamp
    windowUntil := stamp.map (· + 86400)
    senderName := if shown = "" then none else some shown }

/-- The drop of a message that says nothing. -/
def silent (message : Json) (sender : String) : Drop :=
  let kind := message.getD "type" .null
  ⟨if kind.isText "text" then "empty_text" else "unsupported_type", some (mask sender),
    some (((text? kind).filter (· ∈ knownTypes)).getD "unrecognised"), none⟩

/-- `_customer_message`, of a message with its identifiers that says this. -/
def saidOutcome (number : String) (names : List (String × String)) (raw : Json) (id sender : String) :
    Json → Except Err Outcome
  | .str text =>
    if strip text = "" then .ok (.message raw ⟨"empty_text", some (mask sender), none, none⟩)
    else (epoch (raw.getD "timestamp" .null)).map fun stamp =>
      .event raw (eventOf invisible number names id sender text stamp)
  | _ => .ok (.message raw (silent raw sender))

/-- `_customer_message`. -/
def customerMessage (number : String) (names : List (String × String)) (raw : Json) : Except Err Outcome :=
  match addressOf raw with
  | some (id, sender) => replyText raw >>= saidOutcome invisible number names raw id sender
  | none => .ok (.message raw (.because "not_a_message"))

/-! ### The walk -/

/-- The value of a change. -/
def valueOf (change : Json) : Json := change.getD "value" .null

/-- The number of the business a change names. -/
def numberOf (change : Json) : Option String :=
  (text? (((valueOf change).getD "metadata" .null).getD "phone_number_id" .null)).filter phoneNumberIdRe

/-- The names of the profiles of a change. -/
def namesOf (change : Json) : List (String × String) :=
  ((listOf ((valueOf change).getD "contacts" .null)).take maxMessagesPerChange).filterMap fun item => do
    let name ← text? ((item.getD "profile" .null).getD "name" .null)
    let waId ← text? (item.getD "wa_id" .null)
    pure (waId, String.ofList (name.toList.take maxProfileNameChars))

/-- The messages of a change, as far as they are read. -/
def messagesOf (change : Json) : List Json :=
  (listOf ((valueOf change).getD "messages" .null)).take maxMessagesPerChange

/-- The drops of the states of a change. -/
def statusDrops (change : Json) : List Outcome :=
  ((listOf ((valueOf change).getD "statuses" .null)).take maxMessagesPerChange).map fun raw =>
    .other ⟨"status_callback", none, none,
      some (((text? (raw.getD "status" .null)).filter (· ∈ statusStates)).getD "unrecognised")⟩

/-- The number a change is about, where it is about messages to one. -/
def subscribed (change : Json) : Option String :=
  if change.isDict = true ∧ (change.getD "field" .null).isText messageField = true then numberOf change else none

/-- The drop of a change. -/
def changeDrop (change : Json) : Drop :=
  .because (if change.isDict = true ∧ (change.getD "field" .null).isText messageField = false
    then "field_not_subscribed" else "not_a_message")

/-- One change. -/
def changeOutcomes (change : Json) : Except Err (List Outcome) :=
  match subscribed change with
  | some number => do
    let outcomes ← (messagesOf change).mapM (customerMessage invisible number (namesOf change))
    pure (outcomes ++ statusDrops change)
  | none => .ok [.refused change (changeDrop change)]

/-- One entry. -/
def entryOutcomes (entry : Json) : Except Err (List Outcome) :=
  match entry.getD "changes" .null with
  | .arr changes => ((changes.take maxChanges).mapM (changeOutcomes invisible)).map List.flatten
  | _ => .ok [.other (.because "not_a_message")]

def Outcome.event? : Outcome → Option CustomerEvent
  | event _ e => some e
  | _ => none

def Outcome.drop? : Outcome → Option Drop
  | event _ _ => none
  | message _ d => some d
  | refused _ d => some d
  | other d => some d

/-- What `customer_messages` returns. -/
structure Delivery where
  events : List CustomerEvent
  dropped : List Drop
  deriving DecidableEq

/-- `customer_messages`. -/
def customerMessages (payload : Json) : Except Err Delivery := do
  ensure (payload.isDict = true) (.other "WebhookError" "the webhook body must be a JSON object")
  ensure ((payload.getD "object" .null).isText webhookObject = true)
    (.other "WebhookError" "the webhook object must be 'whatsapp_business_account'")
  match payload.getD "entry" .null with
  | .arr entries => do
    let outcomes ← ((entries.take maxEntries).mapM (entryOutcomes invisible)).map List.flatten
    pure ⟨outcomes.filterMap Outcome.event?, outcomes.filterMap Outcome.drop?⟩
  | _ => throw (.other "WebhookError" "the webhook entry must be a list")

/-! ### Accounting -/

/-- The messages a part of the result is about. -/
def Outcome.raws : Outcome → List Json
  | event raw _ => [raw]
  | message raw _ => [raw]
  | refused change _ => messagesOf change
  | other _ => []

/-- An event has the identifier of its message, and a change is refused as one only where it is not about
messages to a number. -/
def Outcome.Fits : Outcome → Prop
  | event raw e => raw.getD "id" .null = .str e.messageId
  | refused change _ => subscribed change = none
  | _ => True

/-- The changes of a payload, as far as they are read. -/
def changesOf (payload : Json) : List Json :=
  ((listOf (payload.getD "entry" .null)).take maxEntries).flatMap fun entry =>
    (listOf (entry.getD "changes" .null)).take maxChanges

/-- The message elements of a payload within the bounds. -/
def elements (payload : Json) : List Json := (changesOf payload).flatMap messagesOf

/-- Every element is accounted for exactly once: by an event, by a drop, or by the drop of its change. -/
def Lossless (payload : Json) (delivery : Delivery) : Prop :=
  ∃ accounts : List Outcome, accounts.flatMap Outcome.raws = elements payload ∧
    (∀ a ∈ accounts, a.Fits) ∧ delivery.events = accounts.filterMap Outcome.event? ∧
    delivery.dropped = accounts.filterMap Outcome.drop?

/-- A text that is not blank. -/
def isSpoken : Json → Bool
  | .str text => strip text ≠ ""
  | _ => false

/-- Whether a message says something. -/
def speaks (raw : Json) : Bool :=
  match replyText raw with
  | .ok text => isSpoken text
  | .error _ => false

/-- A kind a dictionary can be asked for. -/
def isHashable : Json → Bool
  | .arr _ => false
  | .obj _ => false
  | _ => true

/-- A text of digits that `int` refuses. -/
def isTooLong : Json → Bool
  | .str s => isDigitRun s && decide (maxIntDigits < s.length)
  | _ => false

/-- A message that does not raise: one without identifiers, or with a kind that is no list and no object and,
where it has a text, a timestamp that can be read. -/
def Readable (raw : Json) : Prop :=
  addressOf raw ≠ none → isHashable (raw.getD "type" .null) = true ∧
    (speaks raw = true → isTooLong (raw.getD "timestamp" .null) = false)

theorem replyText_ok {raw : Json} :
    (∃ text, replyText raw = .ok text) ↔ isHashable (raw.getD "type" .null) = true := by
  unfold replyText
  cases raw.getD "type" .null with
  | str kind =>
    simp only [isHashable, iff_true]
    split_ifs <;> exact ⟨_, rfl⟩
  | _ => simp [isHashable]

theorem epoch_ok {value : Json} : (∃ stamp, epoch value = .ok stamp) ↔ isTooLong value = false := by
  cases value with
  | str s =>
    unfold epoch isTooLong
    cases hrun : isDigitRun s with
    | false => simp [hrun]
    | true => by_cases hlong : s.length ≤ maxIntDigits <;> simp [hrun, hlong]
  | _ => exact iff_of_true ⟨_, rfl⟩ rfl

variable {invisible : Char → Bool} {number : String} {names : List (String × String)} {raw payload : Json}

theorem addressOf_id {id sender : String} (h : addressOf raw = some (id, sender)) :
    raw.getD "id" .null = .str id := by
  unfold addressOf at h
  simp only [Option.bind_eq_bind, Option.bind_eq_some_iff] at h
  obtain ⟨_, -, found, hfound, _, -, _, -, _, -, heq⟩ := h
  cases heq
  cases hvalue : raw.getD "id" .null with
  | str s =>
    rw [hvalue] at hfound
    exact congrArg Json.str (Option.some.inj hfound)
  | _ =>
    rw [hvalue] at hfound
    cases hfound

theorem customerMessage_ok {outcome : Outcome} (h : customerMessage invisible number names raw = .ok outcome) :
    outcome.raws = [raw] ∧ outcome.Fits := by
  unfold customerMessage at h
  split at h
  · rename_i id sender haddress
    obtain ⟨text, -, h⟩ := bind_eq_ok.1 h
    unfold saidOutcome at h
    split at h
    · split_ifs at h with hblank
      · cases h
        exact ⟨rfl, trivial⟩
      · obtain ⟨stamp, -, rfl⟩ := map_eq_ok.1 h
        exact ⟨rfl, addressOf_id haddress⟩
    · cases h
      exact ⟨rfl, trivial⟩
  · cases h
    exact ⟨rfl, trivial⟩

/-- What a message says becomes an outcome unless its timestamp is asked for and cannot be read. -/
theorem saidOutcome_iff {id sender : String} {text : Json} :
    (∃ outcome, saidOutcome invisible number names raw id sender text = .ok outcome) ↔
      (isSpoken text = true → isTooLong (raw.getD "timestamp" .null) = false) := by
  cases text with
  | str t =>
    unfold saidOutcome isSpoken
    by_cases hblank : strip t = ""
    · simp [hblank]
    · simp only [hblank, if_false, map_eq_ok, ne_eq, not_false_eq_true, decide_true, true_implies]
      rw [← epoch_ok]
      constructor
      · rintro ⟨_, stamp, hstamp, -⟩
        exact ⟨stamp, hstamp⟩
      · rintro ⟨stamp, hstamp⟩
        exact ⟨_, stamp, hstamp, rfl⟩
  | _ => exact iff_of_true ⟨_, rfl⟩ fun h => by cases h

/-- A message raises exactly where it is not readable. -/
theorem customerMessage_iff :
    (∃ outcome, customerMessage invisible number names raw = .ok outcome) ↔ Readable raw := by
  unfold customerMessage Readable
  cases haddress : addressOf raw with
  | none => exact iff_of_true ⟨_, rfl⟩ fun h => absurd rfl h
  | some p =>
    obtain ⟨id, sender⟩ := p
    have hsome : some (id, sender) ≠ none := Option.some_ne_none _
    unfold speaks
    rw [← replyText_ok]
    cases htext : replyText raw with
    | error e =>
      refine iff_of_false ?_ fun h => ?_
      · rintro ⟨outcome, h⟩
        cases h
      · obtain ⟨⟨text, hok⟩, -⟩ := h hsome
        cases hok
    | ok text =>
      constructor
      · rintro ⟨outcome, h⟩ -
        exact ⟨⟨text, rfl⟩, saidOutcome_iff.1 ⟨outcome, h⟩⟩
      · intro h
        exact saidOutcome_iff.2 (h hsome).2

/-! ### The whole delivery -/

/-- The messages of the changes that are about messages to a number. -/
def reached (payload : Json) : List Json :=
  (changesOf payload).flatMap fun change => if (subscribed change).isSome then messagesOf change else []

theorem raws_statusDrops (change : Json) : (statusDrops change).flatMap Outcome.raws = [] := by
  rw [List.flatMap_eq_nil_iff]
  intro outcome h
  obtain ⟨_, -, rfl⟩ := List.mem_map.1 h
  rfl

variable {change : Json}

theorem fits_statusDrops {outcome : Outcome} (h : outcome ∈ statusDrops change) : outcome.Fits := by
  obtain ⟨_, -, rfl⟩ := List.mem_map.1 h
  exact trivial

/-- Each part of a loop accounts for its element, so the loop does for all of them. -/
theorem raws_of_mapM {α : Type} {f : α → Except Err (List Outcome)} {elementsOf : α → List Json}
    (hf : ∀ x outcomes, f x = .ok outcomes →
      outcomes.flatMap Outcome.raws = elementsOf x ∧ ∀ o ∈ outcomes, o.Fits)
    {xs : List α} {parts : List (List Outcome)} (h : xs.mapM f = .ok parts) :
    parts.flatten.flatMap Outcome.raws = xs.flatMap elementsOf ∧ ∀ o ∈ parts.flatten, o.Fits := by
  replace h := mapM_eq_ok.1 h
  induction h with
  | nil => simp
  | cons hfirst _ ih =>
    obtain ⟨hraws, hfits⟩ := hf _ _ hfirst
    rw [List.flatten_cons, List.flatMap_append, List.flatMap_cons, hraws, ih.1]
    refine ⟨rfl, fun o ho => ?_⟩
    rcases List.mem_append.1 ho with ho | ho
    · exact hfits o ho
    · exact ih.2 o ho

variable {outcomes : List Outcome}

theorem messages_ok {raws : List Json} (h : raws.mapM (customerMessage invisible number names) = .ok outcomes) :
    outcomes.flatMap Outcome.raws = raws ∧ ∀ o ∈ outcomes, o.Fits := by
  replace h := mapM_eq_ok.1 h
  induction h with
  | nil => simp
  | cons hfirst _ ih =>
    obtain ⟨hraws, hfits⟩ := customerMessage_ok hfirst
    rw [List.flatMap_cons, hraws, ih.1, List.forall_mem_cons]
    exact ⟨rfl, hfits, ih.2⟩

/-- A change accounts for each of its messages once. -/
theorem changeOutcomes_ok (h : changeOutcomes invisible change = .ok outcomes) :
    outcomes.flatMap Outcome.raws = messagesOf change ∧ ∀ o ∈ outcomes, o.Fits := by
  unfold changeOutcomes at h
  split at h
  · rename_i number hnumber
    obtain ⟨own, hown, h⟩ := bind_eq_ok.1 h
    cases h
    obtain ⟨hraws, hfits⟩ := messages_ok hown
    rw [List.flatMap_append, raws_statusDrops, List.append_nil]
    refine ⟨hraws, fun o ho => ?_⟩
    rcases List.mem_append.1 ho with ho | ho
    · exact hfits o ho
    · exact fits_statusDrops ho
  · rename_i hnone
    cases h
    refine ⟨by simp [Outcome.raws], fun o ho => ?_⟩
    obtain rfl := List.mem_singleton.1 ho
    exact hnone

/-- An entry accounts for each of the messages of its changes once. -/
theorem entryOutcomes_ok {entry : Json} (h : entryOutcomes invisible entry = .ok outcomes) :
    outcomes.flatMap Outcome.raws =
      ((listOf (entry.getD "changes" .null)).take maxChanges).flatMap messagesOf ∧ ∀ o ∈ outcomes, o.Fits := by
  unfold entryOutcomes at h
  split at h
  · rename_i changes hchanges
    obtain ⟨parts, hparts, rfl⟩ := map_eq_ok.1 h
    rw [hchanges]
    exact raws_of_mapM (fun _ _ => changeOutcomes_ok) hparts
  · rename_i hnone
    cases h
    have hempty : listOf (entry.getD "changes" .null) = [] := by
      cases hvalue : entry.getD "changes" .null with
      | arr changes => exact absurd hvalue (hnone changes)
      | _ => rfl
    rw [hempty]
    refine ⟨rfl, fun o ho => ?_⟩
    obtain rfl := List.mem_singleton.1 ho
    exact trivial

theorem changeOutcomes_iff :
    (∃ outcomes, changeOutcomes invisible change = .ok outcomes) ↔
      ∀ raw ∈ if (subscribed change).isSome then messagesOf change else [], Readable raw := by
  unfold changeOutcomes
  cases hnumber : subscribed change with
  | none => exact iff_of_true ⟨_, rfl⟩ fun raw h => by cases h
  | some number =>
    rw [Option.isSome_some, if_pos rfl]
    simp only [← @customerMessage_iff invisible number (namesOf change)]
    rw [← mapM_ok_iff]
    constructor
    · rintro ⟨outcomes, h⟩
      obtain ⟨own, hown, -⟩ := bind_eq_ok.1 h
      exact ⟨own, hown⟩
    · rintro ⟨own, hown⟩
      exact ⟨_, bind_eq_ok.2 ⟨own, hown, rfl⟩⟩

theorem entryOutcomes_iff {entry : Json} :
    (∃ outcomes, entryOutcomes invisible entry = .ok outcomes) ↔
      ∀ change ∈ (listOf (entry.getD "changes" .null)).take maxChanges,
        ∃ outcomes, changeOutcomes invisible change = .ok outcomes := by
  unfold entryOutcomes
  cases entry.getD "changes" .null with
  | arr changes =>
    rw [← mapM_ok_iff]
    constructor
    · rintro ⟨outcomes, h⟩
      obtain ⟨parts, hparts, -⟩ := map_eq_ok.1 h
      exact ⟨parts, hparts⟩
    · rintro ⟨parts, hparts⟩
      exact ⟨_, map_eq_ok.2 ⟨parts, hparts, rfl⟩⟩
  | _ => exact iff_of_true ⟨_, rfl⟩ fun change h => by cases h

theorem walk_iff {entries : List Json} (hentry : payload.getD "entry" .null = .arr entries) :
    (∃ parts, (entries.take maxEntries).mapM (entryOutcomes invisible) = .ok parts) ↔
      ∀ raw ∈ reached payload, Readable raw := by
  rw [mapM_ok_iff, reached, changesOf, hentry]
  simp only [entryOutcomes_iff, changeOutcomes_iff, List.mem_flatMap]
  constructor
  · rintro h raw ⟨change, ⟨entry, hmem, hchange⟩, hraw⟩
    exact h entry hmem change hchange raw hraw
  · intro h entry hmem change hchange raw hraw
    exact h raw ⟨change, ⟨entry, hmem, hchange⟩, hraw⟩

/-- A delivery of messages is read without an exception, and accounts for each message within the bounds
exactly once, exactly where the messages that are reached are readable. -/
theorem customerMessages_iff {entries : List Json}
    (hobject : payload.getD "object" .null = .str webhookObject)
    (hentry : payload.getD "entry" .null = .arr entries) :
    (∃ delivery, customerMessages invisible payload = .ok delivery ∧ Lossless payload delivery) ↔
      ∀ raw ∈ reached payload, Readable raw := by
  rw [← walk_iff hentry]
  have hdict : payload.isDict = true := by
    cases payload with
    | obj members => rfl
    | _ => cases hobject
  have hmarker : (payload.getD "object" .null).isText webhookObject = true := by
    rw [hobject]
    exact beq_self_eq_true webhookObject
  constructor
  · rintro ⟨delivery, h, -⟩
    obtain ⟨_, -, h⟩ := bind_eq_ok.1 h
    obtain ⟨_, -, h⟩ := bind_eq_ok.1 h
    rw [hentry] at h
    obtain ⟨outcomes, houtcomes, -⟩ := bind_eq_ok.1 h
    obtain ⟨parts, hparts, -⟩ := map_eq_ok.1 houtcomes
    exact ⟨parts, hparts⟩
  · rintro ⟨parts, hparts⟩
    obtain ⟨hraws, hfits⟩ := raws_of_mapM (fun _ _ => entryOutcomes_ok) hparts
    refine ⟨⟨parts.flatten.filterMap Outcome.event?, parts.flatten.filterMap Outcome.drop?⟩, ?_,
      parts.flatten, ?_, hfits, rfl, rfl⟩
    · refine bind_eq_ok.2 ⟨(), ensure_eq_ok.2 hdict, bind_eq_ok.2 ⟨(), ensure_eq_ok.2 hmarker, ?_⟩⟩
      rw [hentry]
      exact bind_eq_ok.2 ⟨parts.flatten, map_eq_ok.2 ⟨parts, hparts, rfl⟩, rfl⟩
    · rw [hraws, elements, changesOf, hentry, List.flatMap_assoc]
      rfl

/-! ### Two messages -/

/-- A message of a customer. -/
def messageFrom (id : String) (kind : Json) (text : String) : Json :=
  .obj [("id", .str id), ("from", .str "998901234567"), ("type", kind),
    ("timestamp", .str "1790000000"), ("text", .obj [("body", .str text)])]

/-- The entries of a delivery of two messages, the second of some kind. -/
def twoMessages (kind : Json) : List Json :=
  [.obj [("changes", .arr [.obj [("field", .str "messages"), ("value", .obj
    [("metadata", .obj [("phone_number_id", .str "777")]),
      ("messages", .arr [messageFrom "wamid.1" (.str "text") "salom", messageFrom "wamid.2" kind "narxi?"])])]])]]

def deliveryOf (kind : Json) : Json :=
  .obj [("object", .str webhookObject), ("entry", .arr (twoMessages kind))]

/-- A text and a sticker. -/
theorem customerMessages_iff_sample :
    (∃ delivery, customerMessages (fun _ => false) (deliveryOf (.str "sticker")) = .ok delivery ∧
        Lossless (deliveryOf (.str "sticker")) delivery) ↔
      ∀ raw ∈ reached (deliveryOf (.str "sticker")), Readable raw :=
  customerMessages_iff rfl (rfl : _ = Json.arr (twoMessages (.str "sticker")))

/-- The text is an event, and the sticker a drop. -/
example : (customerMessages (fun _ => false) (deliveryOf (.str "sticker"))).map
    (fun d => (d.events.map CustomerEvent.messageId, d.dropped.map Drop.reason)) =
      .ok (["wamid.1"], ["unsupported_type"]) := by
  decide +kernel

/-- A second message whose kind is a list makes the walk raise, and the first is lost with it. -/
theorem list_kind_raises : ¬ ∀ (invisible : Char → Bool) (payload : Json) (entries : List Json),
    payload.getD "object" .null = .str webhookObject → payload.getD "entry" .null = .arr entries →
    ∃ delivery, customerMessages invisible payload = .ok delivery ∧ Lossless payload delivery := by
  intro hall
  obtain ⟨delivery, hdelivery, -⟩ :=
    hall (fun _ => false) (deliveryOf (.arr [])) (twoMessages (.arr [])) rfl rfl
  have hraises : customerMessages (fun _ => false) (deliveryOf (.arr [])) =
      .error (.typeError "unhashable type: 'list'") := by
    decide +kernel
  rw [hraises] at hdelivery
  cases hdelivery

end AgentPlatform.WhatsApp
