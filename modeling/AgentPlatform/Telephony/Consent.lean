import AgentPlatform.Telephony.Config

/-!
# Consent to a call

`_consent_index` and `consent` of `telephony.py`. The rows of the consent registers are folded into three
dictionaries: what was granted, what was withdrawn or has expired, and whether a call may be recorded. A later
row writes into its own dictionary and takes nothing out of the others, and `consent` asks for a grant first.

So a number is consented when any row grants it, and a call may be recorded when the last grant that speaks of
recording allows it. `consent_honest_iff` says when the answers are those of the last row.
-/

namespace AgentPlatform.Telephony

open Outcome AgentPlatform.Graph

variable (lib : Library) (eng : Engine)

/-! ### Rows -/

/-- What a row says of a number and a purpose; a grant with whether the call may be recorded, where its
register has a column for it. -/
inductive Standing
  | granted (recording : Option Bool)
  | withdrawn
  | expired
  deriving DecidableEq

namespace Standing

def isGranted : Standing → Bool
  | granted _ => true
  | _ => false

/-- Whether the call may be recorded, where the row speaks of it. -/
def recording? : Standing → Option Bool
  | granted recording => recording
  | _ => none

/-- What is written into `withdrawn`. -/
def reason? : Standing → Option String
  | granted _ => none
  | withdrawn => some "withdrawn"
  | expired => some "expired"

end Standing

/-- A number and a purpose. -/
structure Key where
  number : String
  purpose : String
  deriving DecidableEq

/-- `flag in ('1', 'true', 'yes', 'ha', 'granted')`. -/
def isYes (flag : String) : Bool := ["1", "true", "yes", "ha", "granted"].contains flag

/-- What a row of a consent register says: nothing where it cannot be read. -/
def readConsent (entry : ConsentRegister) (row : List (String × Cell)) : Option (Key × Standing) :=
  let number := normalise lib (field row entry.numberColumn)
  let status := word lib row entry.statusColumn 32
  let purpose := word lib row entry.purposeColumn maxPurposeChars
  let expiry := if entry.expiryColumn = "" then "" else trimmed lib row entry.expiryColumn 32
  if number = "" ∨ status ∉ consentStatus ∨ purpose = "" then none
  else if expiry ≠ "" ∧ dayRe expiry = false then none
  else if expiry ≠ "" ∧ expiry.toList < eng.today.toList then some (⟨number, purpose⟩, .expired)
  else if status = "granted" then
    some (⟨number, purpose⟩, .granted
      (if entry.recordingColumn = "" then none else some (isYes (word lib row entry.recordingColumn 32))))
  else some (⟨number, purpose⟩, .withdrawn)

/-! ### The index -/

/-- The dictionaries of `_consent_index`, and how many rows could not be read. -/
structure Index where
  granted : List (Key × Bool)
  withdrawn : List (Key × String)
  recording : List (Key × Bool)
  unreadable : ℕ
  deriving DecidableEq

def Index.empty : Index := ⟨[], [], [], 0⟩

/-- `d[key] = value`, where there is a value. -/
def write {β : Type} (key : Key) (value : Option β) (d : List (Key × β)) : List (Key × β) :=
  match value with
  | some b => Dict.modify key (fun _ => b) d
  | none => d

/-- One more row. -/
def Index.take (index : Index) (said : Option (Key × Standing)) : Index :=
  match said with
  | none => { index with unreadable := index.unreadable + 1 }
  | some (key, s) =>
    { index with
      granted := write key (if s.isGranted then some true else none) index.granted
      withdrawn := write key s.reason? index.withdrawn
      recording := write key s.recording? index.recording }

/-- The rows of one register. -/
def Index.takeRegister (index : Index) (entry : ConsentRegister) : Except Err Index := do
  let (rows, _) ← readRows eng entry.register entry.range
  pure ((rows.map (readConsent lib eng entry)).foldl Index.take index)

/-- `_consent_index`. -/
def consentIndex : Except Err Index := do
  let config ← telephonyConfig lib eng
  (config.consentRegisters.map Prod.snd).foldlM (fun index entry => index.takeRegister lib eng entry) .empty

/-! ### The answer -/

/-- What `consent` returns. -/
structure Answer where
  number : String
  purpose : String
  consented : Bool
  recordingAllowed : Bool
  allowlistDeclared : Bool
  reasons : List String
  unreadableRows : ℕ
  agent : String
  ladder : String
  deriving DecidableEq

/-- Why the register does not cover a number. -/
def Index.reasons (index : Index) (number purpose : String) : List String :=
  if (index.granted.lookup ⟨number, purpose⟩).isSome then []
  else
    match index.withdrawn.lookup ⟨number, purpose⟩ with
    | some reason => ["consent for " ++ purpose ++ " is " ++ reason]
    | none => ["no consent record for " ++ purpose ++ " covers this number"]

/-- Why a number may not be called. -/
def refusals (allowlist : List String) (index : Index) (number purpose : String) : List String :=
  (if number = "" then ["number is not a usable phone number"] else []) ++
    (if allowlist ≠ [] ∧ number ≠ "" ∧ number ∉ allowlist then
      ["number is not in the declared consented_numbers list"] else []) ++
    (if number = "" then [] else index.reasons number purpose)

/-- The answer from an index. -/
def answerOf (allowlist : List String) (index : Index) (number purpose : String) : Answer :=
  { number := number
    purpose := purpose
    consented := (refusals allowlist index number purpose).isEmpty
    recordingAllowed := number ≠ "" && (index.recording.lookup ⟨number, purpose⟩).getD false
    allowlistDeclared := !allowlist.isEmpty
    reasons := refusals allowlist index number purpose
    unreadableRows := index.unreadable
    agent := eng.agent
    ladder := eng.ladder }

/-- `str(purpose or 'service').strip().casefold()`. -/
def purposeAsked (purpose : String) : String :=
  casefold lib.toTexts (strip (if purpose = "" then "service" else purpose))

/-- The index a question is answered from: the one it carries, or a new one. -/
def indexFor (index : Option Index) : Except Err Index :=
  match index with
  | some index => .ok index
  | none => consentIndex lib eng

/-- `consent`. -/
def consent (number : Cell) (purpose : String) (index : Option Index) : Except Err Answer := do
  let purpose := purposeAsked lib purpose
  ensure (purpose ∈ purposes) (.forbidden ("Unknown purpose " ++ lib.repr (.str purpose) ++
    "; must be one of " ++ reprTexts lib.toParser purposes))
  let config ← telephonyConfig lib eng
  let index ← indexFor lib eng index
  pure (answerOf eng config.consentedNumbers index (normalise lib number) purpose)

/-! ### What the rows say -/

/-- The readable rows of the consent registers, in register and row order. -/
def said : Except Err (List (Option (Key × Standing))) := do
  let config ← telephonyConfig lib eng
  let parts ← (config.consentRegisters.map Prod.snd).mapM fun entry =>
    (readRows eng entry.register entry.range).map fun p => p.1.map (readConsent lib eng entry)
  pure parts.flatten

/-- What the rows say of a number and a purpose, in their order. -/
def standings (rows : List (Option (Key × Standing))) (key : Key) : List Standing :=
  rows.filterMap fun r => r.bind fun m => if m.1 = key then some m.2 else none

variable {rows : List (Option (Key × Standing))} {key : Key}

theorem standings_snoc_unread : standings (rows ++ [none]) key = standings rows key := by
  simp [standings, List.filterMap_append]

theorem standings_snoc_self {s : Standing} :
    standings (rows ++ [some (key, s)]) key = standings rows key ++ [s] := by
  simp [standings, List.filterMap_append]

theorem standings_snoc_of_ne {k : Key} {s : Standing} (h : k ≠ key) :
    standings (rows ++ [some (k, s)]) key = standings rows key := by
  simp [standings, List.filterMap_append, h]

theorem lookup_write_self {β : Type} {value : Option β} {d : List (Key × β)} :
    (write key value d).lookup key = value.or (d.lookup key) := by
  cases value with
  | none => rfl
  | some b => simp [write]

theorem lookup_write_of_ne {β : Type} {value : Option β} {d : List (Key × β)} {k : Key} (h : k ≠ key) :
    (write k value d).lookup key = d.lookup key := by
  cases value with
  | none => rfl
  | some b => exact Dict.lookup_modify_of_ne h.symm

/-- A number is in `granted` when some row grants it: no later row takes it out. -/
theorem granted_iff :
    ((rows.foldl Index.take .empty).granted.lookup key).isSome ↔
      ∃ s ∈ standings rows key, s.isGranted = true := by
  induction rows using List.reverseRecOn with
  | nil => simp [Index.empty, standings]
  | append_singleton rows r ih =>
    rw [List.foldl_append, List.foldl_cons, List.foldl_nil]
    obtain _ | ⟨k, s⟩ := r
    · rw [standings_snoc_unread, ← ih]
      rfl
    · by_cases h : k = key
      · subst h
        rw [standings_snoc_self]
        simp only [Index.take, lookup_write_self, List.mem_append, List.mem_singleton, or_and_right,
          exists_or, exists_eq_left, ← ih]
        cases hs : s.isGranted <;> simp
      · rw [standings_snoc_of_ne h, ← ih]
        simp only [Index.take, lookup_write_of_ne h]

theorem recording_lookup :
    (rows.foldl Index.take .empty).recording.lookup key =
      ((standings rows key).filterMap Standing.recording?).getLast? := by
  induction rows using List.reverseRecOn with
  | nil => rfl
  | append_singleton rows r ih =>
    rw [List.foldl_append, List.foldl_cons, List.foldl_nil]
    obtain _ | ⟨k, s⟩ := r
    · rw [standings_snoc_unread, ← ih]
      rfl
    · by_cases h : k = key
      · subst h
        rw [standings_snoc_self, List.filterMap_append]
        simp only [Index.take, lookup_write_self, ih]
        cases hs : s.recording? <;> simp [hs]
      · rw [standings_snoc_of_ne h, ← ih]
        simp only [Index.take, lookup_write_of_ne h]

variable {lib : Library} {eng : Engine} {index : Index}

/-- The registers, one after the other, are their rows one after the other. -/
theorem takeRegisters {entries : List ConsentRegister} {start : Index}
    (h : entries.foldlM (fun index entry => index.takeRegister lib eng entry) start = .ok index) :
    ∃ parts, entries.mapM (fun entry => (readRows eng entry.register entry.range).map fun p =>
        p.1.map (readConsent lib eng entry)) = .ok parts ∧
      index = parts.flatten.foldl Index.take start := by
  induction entries generalizing start with
  | nil =>
    cases h
    exact ⟨[], rfl, rfl⟩
  | cons entry entries ih =>
    rw [List.foldlM_cons] at h
    obtain ⟨next, hnext, h⟩ := bind_eq_ok.1 h
    obtain ⟨⟨rows, more⟩, hrows, hnext⟩ := bind_eq_ok.1 hnext
    cases hnext
    obtain ⟨parts, hparts, rfl⟩ := ih h
    refine ⟨rows.map (readConsent lib eng entry) :: parts, ?_, ?_⟩
    · rw [List.mapM_cons, hrows, hparts]
      rfl
    · rw [List.flatten_cons, List.foldl_append]

theorem consentIndex_said (h : consentIndex lib eng = .ok index) :
    ∃ rows, said lib eng = .ok rows ∧ index = rows.foldl Index.take .empty := by
  obtain ⟨config, hconfig, h⟩ := bind_eq_ok.1 h
  obtain ⟨parts, hparts, hindex⟩ := takeRegisters h
  exact ⟨parts.flatten, bind_eq_ok.2 ⟨config, hconfig, bind_eq_ok.2 ⟨parts, hparts, rfl⟩⟩, hindex⟩

theorem readConsent_number {entry : ConsentRegister} {row : List (String × Cell)} {m : Key × Standing}
    (h : readConsent lib eng entry row = some m) : m.1.number ≠ "" := by
  unfold readConsent at h
  intro hempty
  simp only at h
  split_ifs at h with h1 h2 h3 h4 <;> cases h <;> exact h1 (.inl hempty)

theorem standings_of_no_number (h : said lib eng = .ok rows) (hkey : key.number = "") :
    standings rows key = [] := by
  obtain ⟨config, -, h⟩ := bind_eq_ok.1 h
  obtain ⟨parts, hparts, h⟩ := bind_eq_ok.1 h
  cases h
  rw [standings, List.filterMap_eq_nil_iff]
  intro r hr
  obtain ⟨part, hpart, hr⟩ := List.mem_flatten.1 hr
  obtain ⟨entry, -, hentry⟩ := exists_of_mem_right (mapM_eq_ok.1 hparts) hpart
  obtain ⟨p, -, rfl⟩ := map_eq_ok.1 hentry
  obtain ⟨row, -, hrow⟩ := List.mem_map.1 hr
  cases r with
  | none => rfl
  | some m =>
    have hne := readConsent_number hrow
    have hdiff : m.1 ≠ key := fun heq => hne (heq ▸ hkey)
    simp [hdiff]

/-! ### The last row decides -/

variable {allowlist : List String} {number : String}

/-- The number passes the declared allowlist. -/
def Admitted (allowlist : List String) (number : String) : Prop := allowlist = [] ∨ number ∈ allowlist

/-- An answer says no more than the last readable row of the number and the purpose. -/
structure Honest (allowlist : List String) (rows : List (Option (Key × Standing))) (a : Answer) : Prop where
  consented : a.consented = true → Admitted allowlist a.number ∧
    ∃ recording, (standings rows ⟨a.number, a.purpose⟩).getLast? = some (.granted recording)
  recording : a.recordingAllowed = true → a.consented = true ∧
    (standings rows ⟨a.number, a.purpose⟩).getLast? = some (.granted (some true))

/-- No row after a grant takes it back: where a number that may be called has a grant, its last row is one,
and where the last grant that speaks of recording allows it, that row does and the number may be called. -/
structure Unrevoked (allowlist : List String) (said : List Standing) (number : String) : Prop where
  granted : Admitted allowlist number → (∃ s ∈ said, s.isGranted = true) →
    ∃ recording, said.getLast? = some (.granted recording)
  recording : (said.filterMap Standing.recording?).getLast? = some true →
    Admitted allowlist number ∧ said.getLast? = some (.granted (some true))

variable {purpose : String}

/-- A number may be called when some row grants it and the allowlist has it. -/
theorem consented_iff (hnumber : number ≠ "") :
    (answerOf eng allowlist (rows.foldl Index.take .empty) number purpose).consented = true ↔
      Admitted allowlist number ∧ ∃ s ∈ standings rows ⟨number, purpose⟩, s.isGranted = true := by
  have hregister : (rows.foldl Index.take .empty).reasons number purpose = [] ↔
      ∃ s ∈ standings rows ⟨number, purpose⟩, s.isGranted = true := by
    rw [← granted_iff, Index.reasons]
    split_ifs with h
    · simp [h]
    · cases (rows.foldl Index.take .empty).withdrawn.lookup ⟨number, purpose⟩ <;> simp [h]
  rw [answerOf, List.isEmpty_iff, refusals, if_neg hnumber, if_neg hnumber, List.nil_append,
    List.append_eq_nil_iff, hregister, Admitted]
  refine and_congr_left fun _ => ?_
  by_cases hlist : allowlist = [] <;> by_cases hmem : number ∈ allowlist <;> simp [hlist, hmem, hnumber]

theorem recordingAllowed_iff (hnumber : number ≠ "") :
    (answerOf eng allowlist (rows.foldl Index.take .empty) number purpose).recordingAllowed = true ↔
      ((standings rows ⟨number, purpose⟩).filterMap Standing.recording?).getLast? = some true := by
  rw [answerOf, recording_lookup]
  cases ((standings rows ⟨number, purpose⟩).filterMap Standing.recording?).getLast? <;> simp [hnumber]

theorem answerOf_no_number :
    (answerOf eng allowlist index "" purpose).consented = false ∧
      (answerOf eng allowlist index "" purpose).recordingAllowed = false := by
  constructor <;> simp [answerOf, refusals]

theorem isGranted_of_getLast {said : List Standing} {recording : Option Bool}
    (h : said.getLast? = some (.granted recording)) : ∃ s ∈ said, s.isGranted = true :=
  ⟨_, List.mem_of_getLast? h, rfl⟩

/-- The answers are those of the last readable row exactly when no row after a grant takes it back. -/
theorem consent_honest_iff {config : Config} {a : Answer} {asked : Cell} {purpose : String}
    (hconfig : telephonyConfig lib eng = .ok config) (hrows : said lib eng = .ok rows)
    (h : consent lib eng asked purpose none = .ok a) :
    Honest config.consentedNumbers rows a ↔ Unrevoked config.consentedNumbers
      (standings rows ⟨normalise lib asked, purposeAsked lib purpose⟩) (normalise lib asked) := by
  obtain ⟨_, -, h⟩ := bind_eq_ok.1 h
  obtain ⟨config', hconfig', h⟩ := bind_eq_ok.1 h
  obtain ⟨index, hindex, h⟩ := bind_eq_ok.1 h
  cases h
  obtain rfl : config' = config := Except.ok.inj (hconfig'.symm.trans hconfig)
  obtain ⟨rows', hrows', rfl⟩ := consentIndex_said hindex
  obtain rfl : rows' = rows := Except.ok.inj (hrows'.symm.trans hrows)
  generalize normalise lib asked = number
  generalize purposeAsked lib purpose = purpose
  by_cases hnumber : number = ""
  · subst hnumber
    have hnone : standings rows' ⟨"", purpose⟩ = [] := standings_of_no_number hrows rfl
    constructor
    · intro _
      rw [hnone]
      constructor
      · rintro - ⟨s, hs, -⟩
        cases hs
      · intro hlast
        cases hlast
    · intro _
      constructor
      · intro hyes
        rw [answerOf_no_number.1] at hyes
        cases hyes
      · intro hyes
        rw [answerOf_no_number.2] at hyes
        cases hyes
  · constructor
    · intro hhonest
      constructor
      · intro hadmitted hgranted
        exact (hhonest.consented ((consented_iff hnumber).2 ⟨hadmitted, hgranted⟩)).2
      · intro hlast
        obtain ⟨hconsented, hgranted⟩ := hhonest.recording ((recordingAllowed_iff hnumber).2 hlast)
        exact ⟨((consented_iff hnumber).1 hconsented).1, hgranted⟩
    · intro hkept
      constructor
      · intro hconsented
        obtain ⟨hadmitted, hgranted⟩ := (consented_iff hnumber).1 hconsented
        exact ⟨hadmitted, hkept.granted hadmitted hgranted⟩
      · intro hrecording
        obtain ⟨hadmitted, hlast⟩ := hkept.recording ((recordingAllowed_iff hnumber).1 hrecording)
        exact ⟨(consented_iff hnumber).2 ⟨hadmitted, isGranted_of_getLast hlast⟩, hlast⟩

/-! ### A withdrawal after a grant -/

def plainLibrary : Library := ⟨⟨plainParser, ⟨fun _ => "", fun c => [c]⟩⟩, Char.isDigit⟩

/-- A tenant with one register of consents, and no allowlist. -/
def consentBlock : List (String × Json) :=
  [("retention_days", .int 90),
    ("consent_registers", .obj [("consent", .obj [("register", .str "plant"), ("range", .str "consent"),
      ("number_column", .str "raqam"), ("status_column", .str "holat"), ("purpose_column", .str "maqsad"),
      ("recording_column", .str "yozish")])])]

/-- A row of the register: what it says of calls to 998901234567 for service. -/
def consentRow (status recording : String) : List (String × Cell) :=
  [("raqam", .str "998901234567"), ("holat", .str status), ("maqsad", .str "service"),
    ("yozish", .str recording)]

def consentEngine (rows : List (List (String × Cell))) : Engine :=
  ⟨.obj consentBlock, fun _ _ => .ok ⟨rows, false⟩, "2026-09-20", "agent", "L1"⟩

/-- The questions of a run: the allowlist, what the rows say, and the answer. -/
def asked (eng : Engine) : Except Err (List String × List (Option (Key × Standing)) × Answer) := do
  let config ← telephonyConfig plainLibrary eng
  let rows ← said plainLibrary eng
  let a ← consent plainLibrary eng (.str "998901234567") "service" none
  pure (config.consentedNumbers, rows, a)

theorem asked_eq_ok {a : Answer} (h : asked eng = .ok (allowlist, rows, a)) :
    ∃ config, config.consentedNumbers = allowlist ∧ telephonyConfig plainLibrary eng = .ok config ∧
      said plainLibrary eng = .ok rows ∧
      consent plainLibrary eng (.str "998901234567") "service" none = .ok a := by
  obtain ⟨config, hconfig, h⟩ := bind_eq_ok.1 h
  obtain ⟨rows', hrows, h⟩ := bind_eq_ok.1 h
  obtain ⟨a', ha, h⟩ := bind_eq_ok.1 h
  cases h
  exact ⟨config, rfl, hconfig, hrows, ha⟩

def serviceKey : Key := ⟨"998901234567", "service"⟩

/-- The answer that allows the call and its recording. -/
def allAllowed : Answer :=
  ⟨"998901234567", "service", true, true, false, [], 0, "agent", "L1"⟩

/-- A consent that is withdrawn and then granted again: the last row is the grant. -/
theorem consent_honest_iff_sample :
    Honest [] [some (serviceKey, .withdrawn), some (serviceKey, .granted (some true))] allAllowed ↔
      Unrevoked [] [.withdrawn, .granted (some true)] "998901234567" := by
  have hrun : asked (consentEngine [consentRow "withdrawn" "no", consentRow "granted" "yes"]) =
      .ok ([], [some (serviceKey, .withdrawn), some (serviceKey, .granted (some true))], allAllowed) := by
    decide +kernel
  obtain ⟨config, hlist, hconfig, hrows, ha⟩ := asked_eq_ok hrun
  have hnumber : normalise plainLibrary (.str "998901234567") = "998901234567" := by decide +kernel
  have hpurpose : purposeAsked plainLibrary "service" = "service" := by decide +kernel
  have hiff := consent_honest_iff hconfig hrows ha
  rw [hlist, hnumber, hpurpose] at hiff
  exact hiff

/-- A consent that is granted and then withdrawn still allows the call and its recording. -/
theorem withdrawal_not_heard : ¬ ∀ (lib : Library) (eng : Engine) (number : Cell) (purpose : String)
    (config : Config) (rows : List (Option (Key × Standing))) (a : Answer),
    telephonyConfig lib eng = .ok config → said lib eng = .ok rows →
    consent lib eng number purpose none = .ok a → Honest config.consentedNumbers rows a := by
  intro hall
  have hrun : asked (consentEngine [consentRow "granted" "yes", consentRow "withdrawn" "no"]) =
      .ok ([], [some (serviceKey, .granted (some true)), some (serviceKey, .withdrawn)], allAllowed) := by
    decide +kernel
  obtain ⟨config, hlist, hconfig, hrows, ha⟩ := asked_eq_ok hrun
  obtain ⟨-, recording, hlast⟩ := (hall _ _ _ _ config _ _ hconfig hrows ha).consented rfl
  have hwithdrawn : (standings [some (serviceKey, .granted (some true)), some (serviceKey, .withdrawn)]
      ⟨allAllowed.number, allAllowed.purpose⟩).getLast? = some .withdrawn := by
    decide
  rw [hwithdrawn] at hlast
  cases hlast

end AgentPlatform.Telephony
