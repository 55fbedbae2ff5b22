import AgentPlatform.Graph.Collect
import AgentPlatform.Lib.Binary64
import AgentPlatform.Texts

/-!
# The service window

`window` of `whatsapp.py`, with the sources it reads. The newest 500 messages of the channel are walked from
the newest one, and the first usable message of a contact sets its window; the operator's sheet is asked only
of contacts without one.

`window_open_iff`: as long as the usable messages of a contact are stored in the order of their times, the
window is reported open from messages exactly when one of those the walk reaches is still within it.
-/

namespace AgentPlatform.WhatsApp

open Outcome AgentPlatform.Graph

/-- Python: `repr` and `json.loads`, the double a literal stands for, the characters `\d` accepts, the time of
`datetime.fromisoformat`, and the text `json_extract` finds in a payload under `$.conversation_id`. -/
structure Library extends Graph.Parser where
  double : String → Binary64
  decimal : Char → Bool
  fromisoformat : String → Option Binary64
  extractConversation : String → Option String

/-- A declared template. -/
structure Template where
  name : String
  language : String
  category : String
  parameters : List String

/-- A declared register. -/
structure Register where
  connection : String
  phoneNumberId : String
  contacts : List (String × String)
  templates : List (String × Template)
  windowRegister : String
  windowRange : String
  lastInboundColumn : String

/-- A message of the channel, as `accept_event` stored it. -/
structure Event where
  key : String
  payload : String

/-- What a step belongs to. -/
structure Task where
  channel : String
  actor : String
  eventKey : String

/-- What WhatsApp depends on, for one tenant: the declared registers, the messages of its channel in the order
of insertion, its steps with their tasks, the tool `sheets.rows` as it answers for a register and a range
(nothing where its `rows` are no list), and the clock. -/
structure Engine where
  registers : List (String × Register)
  events : List Event
  steps : List (String × Task)
  read : String → String → Except Err (Option (List Row))
  clock : Binary64

def windowSeconds : Binary64 := .ofRat 86400
def maxEventsScanned : ℕ := 500
def inboundChannel : String := "whatsapp"
def outboundChannels : List String := ["telegram", "instagram", "whatsapp"]

variable (lib : Library) (eng : Engine)

/-! ### The arithmetic of the window -/

/-- `window_state`. -/
def windowState (last : Option Binary64) (now : Binary64) : Bool × Option Binary64 :=
  match last with
  | none => (false, none)
  | some t => if t.le .zero then (false, none) else (now.lt (t.add windowSeconds), some (t.add windowSeconds))

/-- `float(value)` of an integer. -/
def floatOfInt (n : ℤ) : Except Err Binary64 :=
  match Binary64.ofRat n with
  | .finite q fits => .ok (.finite q fits)
  | _ => .error (.other "OverflowError" "int too large to convert to float")

/-- The number a payload holds, where it is one. -/
def floatOf : Json → Option (Except Err Binary64)
  | .int n => some (floatOfInt n)
  | .float literal => some (.ok (lib.double literal))
  | _ => none

/-- Digits at the front of a text, as many as that. -/
def digits (n : ℕ) (text : List Char) : Option (List Char) :=
  if (text.take n).length = n ∧ (text.take n).all lib.decimal = true then some (text.drop n) else none

/-- One character at the front of a text. -/
def oneOf (chars : List Char) : List Char → Option (List Char)
  | c :: cs => if c ∈ chars then some cs else none
  | [] => none

/-- `Z|[+-]\d{2}:?\d{2}`. -/
def isZone (text : List Char) : Bool :=
  text == ['Z'] || match oneOf ['+', '-'] text >>= digits lib 2 with
    | some (':' :: rest) => digits lib 2 rest == some []
    | some rest => digits lib 2 rest == some []
    | none => false

/-- `(\.\d+)?` and the zone. -/
def isFractionAndZone (text : List Char) : Bool :=
  isZone lib text || match text with
    | '.' :: rest => !(rest.takeWhile lib.decimal).isEmpty && isZone lib (rest.dropWhile lib.decimal)
    | _ => false

/-- `(:\d{2})?` and the rest. -/
def isSecondsOn (text : List Char) : Bool :=
  isFractionAndZone lib text || (oneOf [':'] text >>= digits lib 2).any (isFractionAndZone lib)

/-- The shape of a timestamp with its zone. -/
def isIsoTimestamp (text : List Char) : Bool :=
  (digits lib 4 text >>= oneOf ['-'] >>= digits lib 2 >>= oneOf ['-'] >>= digits lib 2 >>=
    oneOf ['T', ' '] >>= digits lib 2 >>= oneOf [':'] >>= digits lib 2).any (isSecondsOn lib)

/-- What `datetime.fromisoformat` is given. -/
def cleaned (text : List Char) : List Char :=
  let text := text.map fun c => if c = ' ' then 'T' else c
  if text.getLast? = some 'Z' then text.dropLast ++ "+00:00".toList else text

/-- `_parse_timestamp`. -/
def parseTimestamp : Cell → Except Err (Option Binary64)
  | .int n => if 0 < n then (floatOfInt n).map some else .ok none
  | .float x => .ok (if Binary64.zero.lt x then some x else none)
  | .str s =>
    let text := (strip s).toList
    .ok (if isIsoTimestamp lib text then lib.fromisoformat (String.ofList (cleaned text)) else none)
  | _ => .ok none

/-! ### Verified messages -/

/-- `by_phone.get(wa_id)`: of two contacts with one number the later one. -/
def byPhone (contacts : List (String × String)) (waId : Json) : Option String :=
  match waId with
  | .str w => ((contacts.filter fun m => m.2 = w).getLast?).map Prod.fst
  | _ => none

/-- The contact a message is attributed to. -/
def attributed (contacts : List (String × String)) (payload : Json) : Option String :=
  match payload.getD "conversation_id" .null with
  | .str c =>
    if c ∈ contacts.map Prod.fst then some c else byPhone contacts (payload.getD "wa_id" .null)
  | _ => byPhone contacts (payload.getD "wa_id" .null)

/-- The message names another number of the business. -/
def namesOther (number : String) (payload : Json) : Bool :=
  match payload.getD "phone_number_id" .null with
  | .null => false
  | value => number ≠ "" && !value.isText number

/-- What a message says: whose it is and when its window ends; nothing where it says neither or names another
number. -/
def usable (contacts : List (String × String)) (number : String) (event : Event) :
    Option (String × Except Err Binary64) := do
  let payload ← lib.loads event.payload
  guard (payload.isDict = true)
  let contact ← attributed contacts payload
  guard (namesOther number payload = false)
  let stamp ← floatOf lib (payload.getD "window_until" .null)
  pure (contact, stamp)

/-- One more message, from the newest on: the first one of a contact is kept. -/
def noteMessage (contacts : List (String × String)) (number : String) (latest : List (String × Binary64))
    (event : Event) : Except Err (List (String × Binary64)) :=
  match usable lib contacts number event with
  | none => .ok latest
  | some (contact, stamp) =>
    if (latest.lookup contact).isSome then .ok latest
    else stamp.map fun s => latest ++ [(contact, s.sub windowSeconds)]

/-- The messages the scan reaches, the newest first. -/
def scanned : List Event := eng.events.reverse.take maxEventsScanned

/-- `_window_from_events`. -/
def windowFromEvents (contacts : List (String × String)) (number : String) :
    Except Err (List (String × Binary64)) :=
  if contacts = [] then .ok [] else (scanned eng).foldlM (noteMessage lib contacts number) []

/-! ### The operator's sheet -/

/-- `bool(value)` of a cell. -/
def truthy : Cell → Bool
  | .none => false
  | .bool b => b
  | .int n => n != 0
  | .float x => !x.same .zero
  | .str s => s != ""
  | .other shown => shown != "[]" && shown != "{}"

/-- The contact a row of the sheet names. -/
def rowContact (row : List (String × Cell)) : Option String :=
  match ([field row "contact", field row "contact_id", field row "id"]).find? truthy with
  | some (.str s) => some s
  | _ => none

/-- `_read_last_inbound`: the rows in their order, a later one of a contact counting. -/
def readLastInbound (entry : Register) : Except Err (List (String × Cell)) :=
  if entry.windowRegister = "" then .ok []
  else do
    let rows ← eng.read entry.windowRegister entry.windowRange
    let rows ← need rows (.conflict "WhatsApp window register returned an unexpected shape")
    pure (rows.filterMap fun row => row.bind fun cells =>
      (rowContact cells).map fun contact => (contact, field cells entry.lastInboundColumn))

/-- The errors of a sheet that make it unreadable. -/
def isUnreadable (e : Err) : Bool :=
  e.isValueError || e.isLookupError || e.typeName == "WhatsAppError"

/-- The sheet, and whether it could be read. -/
def sheet (entry : Register) : Except Err (List (String × Cell) × Bool) :=
  match readLastInbound eng entry with
  | .ok rows => .ok (rows, true)
  | .error e => if isUnreadable e then .ok ([], false) else .error e

/-! ### Both sources -/

/-- What a window is derived from. -/
inductive Source
  | event
  | register
  deriving DecidableEq

/-- What is known of the last message of a contact. -/
inductive Resolved
  | absent
  | unparsable
  | at (last : Option Binary64)
  deriving DecidableEq

/-- What the sheet says of a contact. -/
def fromSheet (value : Cell) : Except Err Resolved :=
  if value = .none ∨ value = .str "" then .ok .absent
  else (parseTimestamp lib value).map fun parsed =>
    match parsed with
    | some t => .at (some t)
    | none => .unparsable

/-- One contact, from the messages or the sheet. -/
def resolveContact (verified : List (String × Binary64)) (rows : List (String × Cell)) (contact : String) :
    Except Err (Resolved × Source) :=
  match verified.lookup contact with
  | some last => (parseTimestamp lib (.float last)).map fun parsed => (.at parsed, .event)
  | none =>
    let value := ((rows.filter fun m => m.1 = contact).getLast?.map Prod.snd).getD .none
    (fromSheet lib value).map fun resolved => (resolved, .register)

/-- `window_sources`: each contact with what is known of it, and whether the sheet could be read. -/
def windowSources (entry : Register) (contacts : List (String × String)) :
    Except Err (List (String × Resolved × Source) × Bool) := do
  let verified ← windowFromEvents lib eng contacts entry.phoneNumberId
  let (rows, readable) ← sheet eng entry
  let resolved ← contacts.mapM fun m =>
    (resolveContact lib verified rows m.1).map fun r => (m.1, r)
  pure (resolved, readable)

/-! ### The answer -/

/-- `_customer_scope`. -/
def customerScope (step : String) : Option (String × String) :=
  (eng.steps.lookup step).bind fun task =>
    if task.channel ∈ outboundChannels then some (task.channel, task.actor) else none

/-- `_mask`. -/
def mask (phone : String) : String :=
  if phone.length < 4 then "***"
  else String.ofList (phone.toList.take 2 ++ List.replicate (max 1 (phone.length - 4)) '*' ++
    phone.toList.drop (phone.length - 2))

/-- The window of a contact. -/
structure WindowRow where
  contact : String
  source : Source
  phone : String
  isOpen : Bool
  closesAt : Option Binary64
  lastInbound : Option Binary64
  reason : String
  deriving DecidableEq

/-- The row of a contact. -/
def windowRow (resolved : List (String × Resolved × Source)) (now : Binary64) (m : String × String) :
    WindowRow :=
  let found := (resolved.lookup m.1).getD (.absent, .register)
  let row : WindowRow :=
    { contact := m.1, source := found.2, phone := mask m.2, isOpen := false, closesAt := none,
      lastInbound := none, reason := "no inbound message" }
  match found.1 with
  | .at (some last) =>
    let state := windowState (some last) now
    { row with
      isOpen := state.1
      closesAt := state.2
      lastInbound := some last
      reason := if state.1 then "window open" else "window closed" }
  | .unparsable => { row with reason := "unparsable timestamp" }
  | _ => row

/-- The windows of a register. -/
structure WindowReport where
  register : String
  readable : Bool
  contacts : List WindowRow
  deriving DecidableEq

/-- The contacts a question is about. -/
def asked (entry : Register) (name contact : String) (scope : Option (String × String)) :
    Except Err (List (String × String)) :=
  if contact = "" then .ok entry.contacts
  else do
    let phone ← need (entry.contacts.lookup contact)
      (.forbidden ("Contact " ++ lib.repr (.str contact) ++ " is not declared for register " ++
        lib.repr (.str name)))
    ensure (scope.all (fun s => s.2 = contact ∨ s.2 = phone) = true)
      (.forbidden ("Contact " ++ lib.repr (.str contact) ++ " is not the customer of this conversation"))
    pure [(contact, phone)]

/-- One register of the answer. -/
def windowReport (contact : String) (scope : Option (String × String)) (m : String × Register) :
    Except Err WindowReport := do
  let contacts ← asked lib m.2 m.1 contact scope
  let (resolved, readable) ← windowSources lib eng m.2 contacts
  let ordered := contacts.insertionSort fun a b => a.1.toList ≤ b.1.toList
  pure ⟨m.1, readable, ordered.map (windowRow resolved eng.clock)⟩

/-- `window`. -/
def window (step contact : String) : Except Err (List WindowReport) := do
  let scope := customerScope eng step
  ensure (scope.all (fun s => s.1 = inboundChannel ∧ contact ≠ "") = true)
    (.forbidden ("A customer conversation may read only its own WhatsApp window: it must name that " ++
      "contact, on the whatsapp channel"))
  (eng.registers.insertionSort fun a b => a.1.toList ≤ b.1.toList).mapM (windowReport lib eng contact scope)

/-! ### Within the window -/

/-- A message whose window ends then is within it: `window_state` of its own time says so. -/
def Within (expiry now : Binary64) : Prop := (windowState (some (expiry.sub windowSeconds)) now).1 = true

theorem windowSeconds_eq : ∃ h, windowSeconds = .finite 86400 h := by
  have hfits : Binary64.Fits ((86400 : ℕ) : ℚ) := Binary64.fits_natCast (by norm_num)
  refine ⟨by exact_mod_cast hfits, ?_⟩
  exact Binary64.ofRat_of_fits _

theorem zero_eq : ∃ h, Binary64.zero = .finite 0 h := by
  have hfits : Binary64.Fits ((0 : ℕ) : ℚ) := Binary64.fits_natCast (by norm_num)
  refine ⟨by exact_mod_cast hfits, ?_⟩
  exact Binary64.ofRat_of_fits _

/-- A window is open after a time past zero, for as long as its end lies ahead. -/
theorem windowState_iff {last now : Binary64} :
    (windowState (some last) now).1 = true ↔
      Binary64.zero.lt last = true ∧ now.lt (last.add windowSeconds) = true := by
  obtain ⟨hz, hzero⟩ := zero_eq
  obtain ⟨hw, hseconds⟩ := windowSeconds_eq
  unfold windowState
  cases last with
  | nan => cases now <;> simp [Binary64.le, Binary64.lt, Binary64.same, Binary64.add]
  | infinite s =>
    rw [hzero]
    cases s <;> simp [Binary64.le, Binary64.lt, Binary64.same]
  | finite t ht =>
    rw [hzero]
    by_cases hpos : 0 < t
    · have hnot : ¬(Binary64.finite t ht).le (.finite 0 hz) = true := by
        rw [Binary64.finite_le_iff]
        exact not_le.2 hpos
      dsimp only
      rw [if_neg hnot]
      simp [Binary64.lt, hpos]
    · have hle : (Binary64.finite t ht).le (.finite 0 hz) = true :=
        Binary64.finite_le_iff.2 (not_lt.1 hpos)
      dsimp only
      rw [if_pos hle]
      simp [Binary64.lt, hpos]

theorem Within.mono {older newer now : Binary64} (hle : older.le newer = true) (h : Within older now) :
    Within newer now := by
  obtain ⟨hw, hseconds⟩ := windowSeconds_eq
  obtain ⟨hpos, hopen⟩ := windowState_iff.1 h
  have hsub : (older.sub windowSeconds).le (newer.sub windowSeconds) = true := by
    rw [hseconds]
    exact Binary64.sub_le_sub_right hle
  have hadd : ((older.sub windowSeconds).add windowSeconds).le
      ((newer.sub windowSeconds).add windowSeconds) = true := by
    rw [hseconds] at hsub ⊢
    exact Binary64.add_le_add_right hsub
  exact windowState_iff.2 ⟨Binary64.lt_of_lt_of_le hpos hsub, Binary64.lt_of_lt_of_le hopen hadd⟩

/-! ### The walk over the messages -/

section Walk

variable {lib : Library} {eng : Engine} {contacts : List (String × String)} {number contact : String}

/-- What a message says of a contact. -/
def expiryOf (lib : Library) (contacts : List (String × String)) (number contact : String) (event : Event) :
    Option Binary64 :=
  match usable lib contacts number event with
  | some (c, .ok stamp) => if c = contact then some stamp else none
  | _ => none

/-- The ends of the windows of a contact's usable messages, of those the scan reaches, the newest first. -/
def messages (lib : Library) (eng : Engine) (contacts : List (String × String)) (number contact : String) :
    List Binary64 :=
  (scanned eng).filterMap (expiryOf lib contacts number contact)

/-- One message: it counts where the contact has none yet. -/
theorem lookup_noteMessage {latest latest' : List (String × Binary64)} {event : Event}
    (h : noteMessage lib contacts number latest event = .ok latest') :
    latest'.lookup contact = (latest.lookup contact).or
      ((expiryOf lib contacts number contact event).map fun s => s.sub windowSeconds) := by
  unfold noteMessage at h
  unfold expiryOf
  split at h
  · rename_i hnone
    cases h
    simp [hnone]
  · rename_i c stamp hsome
    rw [hsome]
    split_ifs at h with hseen
    · cases h
      by_cases hc : c = contact
      · subst hc
        obtain ⟨last, hlast⟩ := Option.isSome_iff_exists.1 hseen
        simp [hlast]
      · cases stamp <;> simp [hc]
    · obtain ⟨s, rfl, rfl⟩ := map_eq_ok.1 h
      rw [List.lookup_append]
      by_cases hc : c = contact
      · subst hc
        simp
      · have hne : (contact == c) = false := by simpa using Ne.symm hc
        simp [hc, List.lookup_cons, hne]

theorem lookup_walk {events : List Event} {latest latest' : List (String × Binary64)}
    (h : events.foldlM (noteMessage lib contacts number) latest = .ok latest') :
    latest'.lookup contact = (latest.lookup contact).or
      ((events.filterMap (expiryOf lib contacts number contact)).head?.map fun s => s.sub windowSeconds) := by
  induction events generalizing latest with
  | nil =>
    cases h
    simp
  | cons event events ih =>
    rw [List.foldlM_cons] at h
    obtain ⟨next, hnext, h⟩ := bind_eq_ok.1 h
    rw [ih h, lookup_noteMessage hnext, Option.or_assoc]
    cases hsaid : expiryOf lib contacts number contact event <;> simp [hsaid]

theorem lookup_windowFromEvents {latest : List (String × Binary64)} (hmem : contact ∈ contacts.map Prod.fst)
    (h : windowFromEvents lib eng contacts number = .ok latest) :
    latest.lookup contact =
      (messages lib eng contacts number contact).head?.map fun s => s.sub windowSeconds := by
  unfold windowFromEvents at h
  have hne : contacts ≠ [] := by
    rintro rfl
    cases hmem
  rw [if_neg hne] at h
  rw [lookup_walk h]
  rfl

/-- The messages of a contact are stored in the order of their times. -/
def InOrder (stamps : List Binary64) : Prop := stamps.Pairwise fun newer older => older.le newer = true

theorem within_head {stamps : List Binary64} {s now : Binary64} (horder : InOrder stamps)
    (hhead : stamps.head? = some s) : Within s now ↔ ∃ expiry ∈ stamps, Within expiry now := by
  obtain ⟨rest, rfl⟩ := List.head?_eq_some_iff.1 hhead
  constructor
  · intro hs
    exact ⟨s, List.mem_cons_self, hs⟩
  · rintro ⟨expiry, hmem, hexpiry⟩
    rcases List.mem_cons.1 hmem with rfl | hmem
    · exact hexpiry
    · exact hexpiry.mono ((List.pairwise_cons.1 horder).1 expiry hmem)

end Walk

/-! ### What is reported -/

section Report

variable {lib : Library} {eng : Engine} {contact : String}

/-- What is resolved of a contact is found under it. -/
theorem lookup_resolved {verified : List (String × Binary64)} {rows : List (String × Cell)}
    {contacts : List (String × String)} {resolved : List (String × Resolved × Source)}
    (h : (contacts.mapM fun m => (resolveContact lib verified rows m.1).map fun r => (m.1, r)) = .ok resolved)
    (hmem : contact ∈ contacts.map Prod.fst) :
    ∃ r, resolved.lookup contact = some r ∧ resolveContact lib verified rows contact = .ok r := by
  replace h := mapM_eq_ok.1 h
  induction h with
  | nil => cases hmem
  | @cons m found contacts resolved hfirst hrest ih =>
    obtain ⟨r, hr, rfl⟩ := map_eq_ok.1 hfirst
    by_cases hc : m.1 = contact
    · subst hc
      exact ⟨r, by simp, hr⟩
    · have hmem' : contact ∈ contacts.map Prod.fst := by
        rcases List.mem_cons.1 hmem with heq | hmem
        · exact absurd heq.symm hc
        · exact hmem
      obtain ⟨r', hr', hresolve⟩ := ih hmem'
      have hne : (contact == m.1) = false := by simpa using Ne.symm hc
      exact ⟨r', by simp [List.lookup_cons, hne, hr'], hresolve⟩

/-- A row is open from messages when the first message of its contact is within the window. -/
theorem windowRow_iff {verified : List (String × Binary64)} {rows : List (String × Cell)}
    {resolved : List (String × Resolved × Source)} {r : Resolved × Source} {phone : String} {now : Binary64}
    (hlookup : resolved.lookup contact = some r) (hr : resolveContact lib verified rows contact = .ok r) :
    ((windowRow resolved now (contact, phone)).source = .event ∧
        (windowRow resolved now (contact, phone)).isOpen = true) ↔
      ∃ last, verified.lookup contact = some last ∧ (windowState (some last) now).1 = true := by
  have hfound : windowRow resolved now (contact, phone) =
      windowRow [(contact, r)] now (contact, phone) := by
    simp [windowRow, hlookup]
  rw [hfound]
  unfold resolveContact at hr
  cases hverified : verified.lookup contact with
  | none =>
    rw [hverified] at hr
    obtain ⟨resolved', -, rfl⟩ := map_eq_ok.1 hr
    refine iff_of_false ?_ (by simp)
    rintro ⟨hsource, -⟩
    have hregister : (windowRow [(contact, (resolved', Source.register))] now (contact, phone)).source =
        .register := by
      unfold windowRow
      rw [List.lookup_cons_self, Option.getD_some]
      dsimp only
      split <;> rfl
    rw [hregister] at hsource
    cases hsource
  | some last =>
    rw [hverified] at hr
    obtain ⟨parsed, hparsed, rfl⟩ := map_eq_ok.1 hr
    cases hparsed
    by_cases hpos : Binary64.zero.lt last = true
    · rw [if_pos hpos]
      simp [windowRow]
    · rw [if_neg hpos]
      refine iff_of_false ?_ ?_
      · simp [windowRow]
      · rintro ⟨last', heq, hopen⟩
        cases heq
        exact hpos (windowState_iff.1 hopen).1

/-- The window of a contact is reported open from messages exactly when one of its usable messages, of those
the scan reaches, is within it, where they are stored in the order of their times. -/
theorem window_open_iff {step : String} {reports : List WindowReport}
    (h : window lib eng step contact = .ok reports) {report : WindowReport} (hreport : report ∈ reports)
    {row : WindowRow} (hrow : row ∈ report.contacts) :
    ∃ entry contacts, (report.register, entry) ∈ eng.registers ∧
      asked lib entry report.register contact (customerScope eng step) = .ok contacts ∧
      row.contact ∈ contacts.map Prod.fst ∧
      (InOrder (messages lib eng contacts entry.phoneNumberId row.contact) →
        ((row.source = .event ∧ row.isOpen = true) ↔
          ∃ expiry ∈ messages lib eng contacts entry.phoneNumberId row.contact, Within expiry eng.clock)) := by
  obtain ⟨_, -, h⟩ := bind_eq_ok.1 h
  obtain ⟨⟨name, entry⟩, hentry, hreport⟩ := exists_of_mem_right (mapM_eq_ok.1 h) hreport
  obtain ⟨contacts, hcontacts, hreport⟩ := bind_eq_ok.1 hreport
  obtain ⟨⟨resolved, readable⟩, hresolved, hreport⟩ := bind_eq_ok.1 hreport
  cases hreport
  obtain ⟨⟨c, phone⟩, hmem, rfl⟩ := List.mem_map.1 hrow
  have hc : (c, phone) ∈ contacts := (List.mem_insertionSort _).1 hmem
  have hkey : c ∈ contacts.map Prod.fst := List.mem_map_of_mem hc
  have hcontact : (windowRow resolved eng.clock (c, phone)).contact = c := by
    unfold windowRow
    dsimp only
    split <;> rfl
  rw [hcontact]
  refine ⟨entry, contacts, (List.mem_insertionSort _).1 hentry, hcontacts, hkey, fun horder => ?_⟩
  obtain ⟨verified, hverified, hresolved⟩ := bind_eq_ok.1 hresolved
  obtain ⟨⟨rows, read⟩, -, hresolved⟩ := bind_eq_ok.1 hresolved
  obtain ⟨found, hfound, hpair⟩ := bind_eq_ok.1 hresolved
  cases hpair
  obtain ⟨r, hlookup, hr⟩ := lookup_resolved hfound hkey
  rw [windowRow_iff hlookup hr, lookup_windowFromEvents hkey hverified]
  cases hhead : (messages lib eng contacts entry.phoneNumberId c).head? with
  | none =>
    rw [List.head?_eq_none_iff.1 hhead]
    simp
  | some s =>
    rw [← within_head horder hhead]
    simp [Within]

end Report

/-! ### One shop -/

/-- A library that reads the texts of some values. -/
def plainLibrary (known : List Json) : Library :=
  { repr := fun _ => ""
    loads := fun text => known.find? fun value => value.encode == text
    double := fun _ => .zero
    decimal := Char.isDigit
    fromisoformat := fun _ => none
    extractConversation := fun text => (known.find? fun value => value.encode == text).bind fun value =>
      match value.getD "conversation_id" .null with
      | .str c => some c
      | _ => none }

/-- A message of a contact, to the number of the shop. -/
def messageOf (contact : String) (windowUntil : ℤ) : Json :=
  .obj [("conversation_id", .str contact), ("phone_number_id", .str "777"), ("window_until", .int windowUntil)]

def shop : Register := ⟨"meta", "777", [("ali", "998901234567")], [], "", "", ""⟩

def shopEngine (stored : List Json) : Engine :=
  ⟨[("shop", shop)], stored.map fun value => ⟨"", value.encode⟩, [], fun _ _ => .ok none, .ofRat 150000⟩

/-- The row of the contact of the shop. -/
def shopRow (source : Source) (isOpen : Bool) (closesAt lastInbound : Option Binary64) (reason : String) :
    WindowRow :=
  ⟨"ali", source, "99********67", isOpen, closesAt, lastInbound, reason⟩

/-- A message of another contact between two of the contact. -/
def stored : List Json := [messageOf "ali" 100000, messageOf "vali" 90000, messageOf "ali" 200000]

theorem window_open_iff_sample : ∃ entry contacts, ("shop", entry) ∈ (shopEngine stored).registers ∧
    asked (plainLibrary stored) entry "shop" "" (customerScope (shopEngine stored) "") = .ok contacts ∧
    "ali" ∈ contacts.map Prod.fst ∧
    (InOrder (messages (plainLibrary stored) (shopEngine stored) contacts entry.phoneNumberId "ali") →
      ((Source.event = .event ∧ true = true) ↔
        ∃ expiry ∈ messages (plainLibrary stored) (shopEngine stored) contacts entry.phoneNumberId "ali",
          Within expiry (.ofRat 150000))) := by
  have hrun : window (plainLibrary stored) (shopEngine stored) "" "" =
      .ok [⟨"shop", true,
        [shopRow .event true (some (.ofRat 200000)) (some (.ofRat 113600)) "window open"]⟩] := by
    decide +kernel
  exact window_open_iff hrun List.mem_cons_self List.mem_cons_self

/-- A message of the contact, and five hundred of another one after it. -/
def crowd : List Json := messageOf "ali" 200000 :: List.replicate 500 (messageOf "vali" 90000)

/-- The scan does not reach a message with five hundred newer ones, so the window it opens is not reported. -/
theorem window_not_reached : ¬ ∀ (lib : Library) (eng : Engine) (step : String) (reports : List WindowReport),
    window lib eng step "" = .ok reports → ∀ report ∈ reports, ∀ row ∈ report.contacts,
      ∃ entry, (report.register, entry) ∈ eng.registers ∧
        ((row.source = .event ∧ row.isOpen = true) ↔ ∃ event ∈ eng.events, ∃ expiry,
          expiryOf lib entry.contacts entry.phoneNumberId row.contact event = some expiry ∧
            Within expiry eng.clock) := by
  intro hall
  have hrun : window (plainLibrary [messageOf "ali" 200000, messageOf "vali" 90000]) (shopEngine crowd) "" "" =
      .ok [⟨"shop", true, [shopRow .register false none none "no inbound message"]⟩] := by
    decide +kernel
  obtain ⟨entry, hentry, hiff⟩ := hall _ _ _ _ hrun _ List.mem_cons_self _ List.mem_cons_self
  obtain rfl : entry = shop := by simpa [shopEngine] using hentry
  have hopen : Within (.ofRat 200000) (shopEngine crowd).clock := by
    unfold Within
    decide +kernel
  have hexpiry : expiryOf (plainLibrary [messageOf "ali" 200000, messageOf "vali" 90000]) shop.contacts
      shop.phoneNumberId "ali" ⟨"", (messageOf "ali" 200000).encode⟩ = some (.ofRat 200000) := by
    decide +kernel
  obtain ⟨hsource, -⟩ := hiff.2 ⟨_, List.mem_cons_self, _, hexpiry, hopen⟩
  cases hsource

end AgentPlatform.WhatsApp
