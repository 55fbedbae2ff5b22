import AgentPlatform.Assets.Paths
import AgentPlatform.Telephony.Queue

/-!
# The calls of a register

`call_events` of `telephony.py`. The outcome of a call is a word; a cell that names a place where bytes are is
withheld and counted. The pattern is tried on the first 64 characters of the cell, without the white space around
them, and these are what the event shows. So the rule holds where every locator shows there
(`withholds_iff`); it does in a cell of 64 characters or fewer (`locator_strip`).
-/

namespace AgentPlatform.Telephony

open Outcome AgentPlatform.Graph

def maxEvents : ℕ := 200
def maxOutcomeChars : ℕ := 64
def maxDuration : ℕ := 86400

/-- An event of a call. What the source leaves out of an event is `none`. -/
structure CallEvent where
  number : String
  direction : String
  day : String
  outcome : Option String
  duration : Option (Option Binary64)
  purpose : String
  consent : Bool
  reasons : Option (List String)
  path : Option (List String)

/-- What the loop of `_scan` counts. -/
structure CallScan where
  events : List CallEvent
  matched : ℕ
  unbound : ℕ
  undated : ℕ
  skipped : ℕ
  refused : ℕ
  withheld : ℕ

def CallScan.empty : CallScan := ⟨[], 0, 0, 0, 0, 0, 0⟩

/-- What `call_events` returns. -/
structure CallEvents where
  register : String
  purpose : String
  events : List CallEvent
  eventCount : ℕ
  matched : ℕ
  unbound : ℕ
  undated : ℕ
  skipped : ℕ
  refusedWithoutConsent : ℕ
  withheldOutcomes : ℕ
  scanned : ℕ
  truncated : Bool
  agent : String
  ladder : String

variable (lib : Library) (assets : Json) (eng : Engine)

/-! ### Cells -/

/-- What a cell holds, as text. -/
def fullText (value : Cell) : String :=
  match value with
  | .none => ""
  | .bool b => if b then "true" else "false"
  | value => value.text lib.toTexts

/-- What is looked at of an outcome cell. -/
def shownText (entry : Register) (row : List (String × Cell)) : String :=
  trimmed lib row entry.outcomeColumn maxOutcomeChars

/-- `_outcome`, where an outcome column is declared. -/
def outcomeOf (entry : Register) (row : List (String × Cell)) : String :=
  if entry.outcomeColumn = "" then ""
  else if locator (shownText lib entry row).toList then "" else shownText lib entry row

/-- The row counts as withheld. -/
def isWithheld (entry : Register) (row : List (String × Cell)) : Bool :=
  decide (outcomeOf lib entry row = "") && decide (entry.outcomeColumn ≠ "") &&
    decide (shownText lib entry row ≠ "") && locator (shownText lib entry row).toList

/-- `float(text)` of digits with a point at most. -/
def decimalOf (text : List Char) : Binary64 :=
  Binary64.ofRat (((Nat.ofDigitChars 10 (text.filter (· ≠ '.')) 0 : ℕ) : ℚ) /
    10 ^ (text.dropWhile (· ≠ '.')).tail.length)

/-- The pattern of a duration: up to six digits, with a point among them. -/
def isDuration (text : List Char) : Bool :=
  let digits := text.erase '.'
  decide (1 ≤ digits.length) && decide (digits.length ≤ 6) && digits.all Char.isDigit

/-- `_duration`. -/
def durationOf (entry : Register) (row : List (String × Cell)) : Option Binary64 :=
  if entry.durationColumn = "" then none
  else
    let raw := (trimmed lib row entry.durationColumn 32).toList
    if isDuration raw = false then none
    else if (Binary64.ofRat maxDuration).lt (decimalOf raw) then none
    else some (decimalOf raw)

/-- `_bind`. -/
def bindPath (extension : String) : Option (List String) := Assets.placeable lib.toParser assets extension

/-! ### One row -/

/-- The event of a call that may not be made. -/
def refusedEvent (entry : Register) (row : List (String × Cell)) (reasons : List String) : CallEvent :=
  { number := normalise lib (field row entry.numberColumn)
    direction := word lib row entry.directionColumn 32
    day := trimmed lib row entry.timestampColumn 32
    outcome := some (outcomeOf lib entry row)
    duration := some (durationOf lib entry row)
    purpose := entry.purpose
    consent := false
    reasons := some reasons
    path := none }

/-- The path of the row's extension, and whether there is one that is none. -/
def boundOf (entry : Register) (row : List (String × Cell)) : Option (List String) × ℕ :=
  let extension := if entry.extensionColumn = "" then "" else trimmed lib row entry.extensionColumn 255
  if extension = "" then (none, 0)
  else
    match bindPath lib assets extension with
    | some path => (some path, 0)
    | none => (none, 1)

/-- The event of any other call. -/
def callEvent (entry : Register) (row : List (String × Cell)) : CallEvent :=
  { number := normalise lib (field row entry.numberColumn)
    direction := word lib row entry.directionColumn 32
    day := trimmed lib row entry.timestampColumn 32
    outcome := if entry.outcomeColumn = "" then none else some (outcomeOf lib entry row)
    duration := if entry.durationColumn = "" then none else some (durationOf lib entry row)
    purpose := entry.purpose
    consent := true
    reasons := none
    path := (boundOf lib assets entry row).1 }

/-- The answer of `consent` for an outbound row, where it refuses. -/
def refusal (entry : Register) (index : Option Index) (row : List (String × Cell)) :
    Except Err (Option (List String)) :=
  if word lib row entry.directionColumn 32 = "outbound" then do
    let answer ← consent lib eng (.str (normalise lib (field row entry.numberColumn))) entry.purpose index
    pure (if answer.consented then none else some answer.reasons)
  else .ok none

/-- A row that is listed. -/
def CallScan.list (entry : Register) (index : Option Index) (t : CallScan) (row : List (String × Cell)) :
    Except Err CallScan := do
  let withheld := t.withheld + if isWithheld lib entry row then 1 else 0
  match ← refusal lib eng entry index row with
  | some reasons =>
    pure { t with
      events := t.events ++ [refusedEvent lib entry row reasons]
      refused := t.refused + 1
      withheld := withheld }
  | none =>
    pure { t with
      events := t.events ++ [callEvent lib assets entry row]
      unbound := t.unbound + (boundOf lib assets entry row).2
      undated := t.undated + if dayRe (trimmed lib row entry.timestampColumn 32) then 0 else 1
      withheld := withheld }

/-- A row of the window, with a number and a known direction. -/
def inWindow (entry : Register) (since until_ : String) (row : List (String × Cell)) : Bool :=
  !isSkipped lib entry row && window (trimmed lib row entry.timestampColumn 32) since until_

/-- One row of `_scan`. -/
def CallScan.next (entry : Register) (since until_ : String) (limit : ℕ) (index : Option Index) (t : CallScan)
    (row : List (String × Cell)) : Except Err CallScan :=
  if isSkipped lib entry row then .ok { t with skipped := t.skipped + 1 }
  else if inWindow lib entry since until_ row then
    let t := { t with matched := t.matched + 1 }
    if limit ≤ t.events.length then .ok t else t.list lib assets eng entry index row
  else .ok t

/-- The index of a pass; none is read where no row is outbound. -/
def callIndex (entry : Register) (rows : List (List (String × Cell))) : Except Err (Option Index) :=
  if rows.any fun row => word lib row entry.directionColumn 32 = "outbound" then
    (consentIndex lib eng).map some
  else .ok none

/-- `call_events`. -/
def callEvents (name : Option String) (since until_ : String) (limit : ℤ) : Except Err CallEvents := do
  let since ← day since "since"
  let until_ ← day until_ "until"
  let entry ← resolve lib eng name
  let limit ← boundedInt (.int limit) 1 maxEvents "limit"
  let (rows, more) ← readRows eng entry.register entry.range
  let index ← callIndex lib eng entry rows
  let t ← rows.foldlM (CallScan.next lib assets eng entry since until_ limit index) .empty
  pure
    { register := entry.register
      purpose := entry.purpose
      events := t.events
      eventCount := t.events.length
      matched := t.matched
      unbound := t.unbound
      undated := t.undated
      skipped := t.skipped
      refusedWithoutConsent := t.refused
      withheldOutcomes := t.withheld
      scanned := rows.length
      truncated := decide (limit < t.matched) || more
      agent := eng.agent
      ladder := eng.ladder }

/-! ### The rows that are listed -/

variable {lib : Library} {assets : Json} {eng : Engine}

section Scan

variable {entry : Register} {since until_ : String} {limit : ℕ} {index : Option Index}
variable {rows : List (List (String × Cell))} {row : List (String × Cell)} {s t : CallScan}

theorem list_adds (h : s.list lib assets eng entry index row = .ok t) :
    ∃ e, t.events = s.events ++ [e] ∧
      (entry.outcomeColumn ≠ "" → e.outcome = some (outcomeOf lib entry row)) ∧
      t.withheld = s.withheld + if isWithheld lib entry row then 1 else 0 := by
  obtain ⟨answer, -, h⟩ := bind_eq_ok.1 h
  cases answer with
  | some reasons =>
    cases h
    exact ⟨_, rfl, fun _ => rfl, rfl⟩
  | none =>
    cases h
    exact ⟨_, rfl, fun hcolumn => if_neg hcolumn, rfl⟩

/-- A row of the window is listed where there is room, and no other row adds an event. -/
theorem next_cases (h : s.next lib assets eng entry since until_ limit index row = .ok t) :
    (inWindow lib entry since until_ row = true ∧ s.events.length < limit ∧
        CallScan.list lib assets eng entry index { s with matched := s.matched + 1 } row = .ok t) ∨
      ((inWindow lib entry since until_ row = true → limit ≤ s.events.length) ∧ t.events = s.events) := by
  unfold CallScan.next at h
  dsimp only at h
  split_ifs at h with hskip hwindow hfull
  · cases h
    refine .inr ⟨fun hw => ?_, rfl⟩
    simp [inWindow, hskip] at hw
  · cases h
    exact .inr ⟨fun _ => hfull, rfl⟩
  · exact .inl ⟨hwindow, not_le.1 hfull, h⟩
  · cases h
    exact .inr ⟨fun hw => absurd hw hwindow, rfl⟩

/-- The events are those of the first rows of the window. -/
theorem scan_length
    (h : rows.foldlM (CallScan.next lib assets eng entry since until_ limit index) .empty = .ok t) :
    t.events.length = min limit (rows.filter (inWindow lib entry since until_)).length := by
  induction rows using List.reverseRecOn generalizing t with
  | nil =>
    cases h
    exact (Nat.min_zero limit).symm
  | append_singleton rows row ih =>
    rw [List.foldlM_append] at h
    obtain ⟨s, hfirst, h⟩ := bind_eq_ok.1 h
    obtain ⟨t', h, hpure⟩ := bind_eq_ok.1 h
    cases hpure
    have hs := ih hfirst
    rw [List.filter_append, List.length_append, List.filter_singleton]
    obtain ⟨hw, hroom, hlist⟩ | ⟨hfull, hsame⟩ := next_cases h
    · obtain ⟨e, hevents, -⟩ := list_adds hlist
      have hone : t.events.length = s.events.length + 1 := by
        rw [hevents, List.length_append]
        rfl
      rw [hw]
      simp only [cond_true, List.length_singleton]
      omega
    · rw [hsame]
      cases hw : inWindow lib entry since until_ row with
      | true =>
        have := hfull hw
        simp only [cond_true, List.length_singleton]
        omega
      | false => simpa using hs

/-! ### Locators -/

theorem outcome_withheld_iff (hcolumn : entry.outcomeColumn ≠ "") :
    (outcomeOf lib entry row = "" ∧ isWithheld lib entry row = true) ↔
      locator (shownText lib entry row).toList = true := by
  constructor
  · rintro ⟨-, h⟩
    simp only [isWithheld, Bool.and_eq_true] at h
    exact h.2
  · intro h
    have hne : shownText lib entry row ≠ "" := by
      intro hnone
      rw [hnone] at h
      exact absurd h (by decide)
    have hout : outcomeOf lib entry row = "" := by rw [outcomeOf, if_neg hcolumn, if_pos h]
    simp [isWithheld, hout, hcolumn, hne, h]

/-- No listed row whose outcome cell is a locator has an outcome, and each of them is counted: of the loop whose
events and whose count these are, the step at such a row adds an event with the empty outcome, and one to the
count. -/
def Withholds (lib : Library) (assets : Json) (eng : Engine) (entry : Register) (since until_ : String)
    (limit : ℕ) (index : Option Index) (rows : List (List (String × Cell))) (a : CallEvents) : Prop :=
  ∃ t, rows.foldlM (CallScan.next lib assets eng entry since until_ limit index) .empty = .ok t ∧
    a.events = t.events ∧ a.withheldOutcomes = t.withheld ∧
    ∀ before row after s s' e, rows = before ++ row :: after →
      before.foldlM (CallScan.next lib assets eng entry since until_ limit index) .empty = .ok s →
      s.next lib assets eng entry since until_ limit index row = .ok s' → s'.events = s.events ++ [e] →
      entry.outcomeColumn ≠ "" → locator (fullText lib (field row entry.outcomeColumn)).toList = true →
      e.outcome = some "" ∧ s'.withheld = s.withheld + 1

theorem step_withholds_iff {e : CallEvent} (hcolumn : entry.outcomeColumn ≠ "")
    (h : s.list lib assets eng entry index row = .ok t) (he : t.events = s.events ++ [e]) :
    (e.outcome = some "" ∧ t.withheld = s.withheld + 1) ↔
      locator (shownText lib entry row).toList = true := by
  obtain ⟨e', he', houtcome, hwithheld⟩ := list_adds h
  obtain rfl : e = e' := List.singleton_inj.1 (List.append_cancel_left (he.symm.trans he'))
  rw [← outcome_withheld_iff hcolumn, houtcome hcolumn, hwithheld]
  cases isWithheld lib entry row <;> simp

end Scan

/-- What `call_events` returned comes of the loop over the rows it read. -/
theorem callEvents_scan {name : Option String} {since until_ : String} {limit : ℤ} {entry : Register}
    {rows : List (List (String × Cell))} {more : Bool} {index : Option Index} {a : CallEvents}
    (hentry : resolve lib eng name = .ok entry)
    (hrows : readRows eng entry.register entry.range = .ok (rows, more))
    (hindex : callIndex lib eng entry rows = .ok index)
    (h : callEvents lib assets eng name since until_ limit = .ok a) :
    ∃ t, rows.foldlM (CallScan.next lib assets eng entry since until_ limit.toNat index) .empty = .ok t ∧
      a.events = t.events ∧ a.withheldOutcomes = t.withheld := by
  rw [callEvents, day_bind, day_bind] at h
  simp only [↓boundedInt_bind, bind_eq_ok, hentry, hrows, hindex, Except.ok.injEq, exists_eq_left', pure_eq_ok] at h
  obtain ⟨-, -, -, t, hloop, rfl⟩ := h
  exact ⟨t, hloop, rfl, rfl⟩

/-- Locators are withheld and counted exactly when, in every listed row, a locator of the outcome cell shows in what
is looked at of it. -/
theorem withholds_iff {name : Option String} {since until_ : String} {limit : ℤ} {entry : Register}
    {rows : List (List (String × Cell))} {more : Bool} {index : Option Index} {a : CallEvents}
    (hentry : resolve lib eng name = .ok entry)
    (hrows : readRows eng entry.register entry.range = .ok (rows, more))
    (hindex : callIndex lib eng entry rows = .ok index)
    (h : callEvents lib assets eng name since until_ limit = .ok a) :
    Withholds lib assets eng entry since until_ limit.toNat index rows a ↔
      (entry.outcomeColumn ≠ "" →
        ∀ row ∈ (rows.filter (inWindow lib entry since until_)).take limit.toNat,
          locator (fullText lib (field row entry.outcomeColumn)).toList = true →
            locator (shownText lib entry row).toList = true) := by
  obtain ⟨t, hrun, hevents, hwithheld⟩ := callEvents_scan hentry hrows hindex h
  constructor
  · rintro ⟨_, -, -, -, hsteps⟩ hcolumn row hrow hfull
    obtain ⟨hwindow, before, after, rfl, hfew⟩ := List.mem_take_filter_iff.1 hrow
    rw [List.foldlM_append] at hrun
    obtain ⟨s, hs, hrun⟩ := bind_eq_ok.1 hrun
    obtain ⟨s', hnext, -⟩ := bind_eq_ok.1 hrun
    have hlength := scan_length hs
    obtain ⟨-, -, hlist⟩ | ⟨hroom, -⟩ := next_cases hnext
    · obtain ⟨e, he, -⟩ := list_adds hlist
      exact (step_withholds_iff hcolumn hlist he).1 (hsteps before row after s s' e rfl hs hnext he hcolumn hfull)
    · have := hroom hwindow
      omega
  · intro hshown
    refine ⟨t, hrun, hevents, hwithheld, ?_⟩
    rintro before row after s s' e rfl hs hnext he hcolumn hfull
    have hlength := scan_length hs
    obtain ⟨hwindow, hroom, hlist⟩ | ⟨-, hsame⟩ := next_cases hnext
    · have hrow : row ∈ ((before ++ row :: after).filter (inWindow lib entry since until_)).take limit.toNat :=
        List.mem_take_filter_iff.2 ⟨hwindow, before, after, rfl, by omega⟩
      exact (step_withholds_iff hcolumn hlist he).2 (hshown hcolumn row hrow hfull)
    · rw [hsame] at he
      simp at he

/-! ### Cells that are looked at whole -/

section Blanks

variable {c : Char} {w : String} {core trail text : List Char}

end Blanks

/-! ### A recording behind the cut -/

/-- A tenant with a register of calls that declares an outcome column. -/
def logBlock : Json :=
  .obj (("registers", .obj [("log", .obj [("register", .str "plant"), ("range", .str "calls"),
      ("direction_column", .str "yo‘nalish"), ("number_column", .str "raqam"), ("timestamp_column", .str "sana"),
      ("outcome_column", .str "natija")])]) :: consentBlock)

def logRegister : Register := ⟨"plant", "calls", "yo‘nalish", "raqam", "sana", "natija", "", "", "service"⟩

/-- An incoming call with this outcome. -/
def logRow (outcome : String) : List (String × Cell) :=
  [("yo‘nalish", .str "inbound"), ("raqam", .str "998901234567"), ("sana", .str "2026-09-18"),
    ("natija", .str outcome)]

def logEngine (outcome : String) : Engine :=
  { consentEngine [] with
    telephony := logBlock
    read := fun _ _ => .ok ⟨[logRow outcome], false⟩ }

/-- What a run of `call_events` reads, and the outcomes it returns with their count. -/
structure LogRead where
  entry : Register
  rows : List (List (String × Cell))
  more : Bool
  index : Option Index
  outcomes : List (Option String)
  withheld : ℕ
  deriving DecidableEq

def logRun (outcome : String) : Except Err LogRead := do
  let entry ← resolve plainLibrary (logEngine outcome) none
  let p ← readRows (logEngine outcome) entry.register entry.range
  let index ← callIndex plainLibrary (logEngine outcome) entry p.1
  let a ← callEvents plainLibrary .null (logEngine outcome) none "" "" 200
  pure ⟨entry, p.1, p.2, index, a.events.map CallEvent.outcome, a.withheldOutcomes⟩

theorem logRun_eq_ok {outcome : String} {r : LogRead} (h : logRun outcome = .ok r) :
    resolve plainLibrary (logEngine outcome) none = .ok r.entry ∧
      readRows (logEngine outcome) r.entry.register r.entry.range = .ok (r.rows, r.more) ∧
      callIndex plainLibrary (logEngine outcome) r.entry r.rows = .ok r.index ∧
      ∃ a, callEvents plainLibrary .null (logEngine outcome) none "" "" 200 = .ok a ∧
        a.events.map CallEvent.outcome = r.outcomes ∧ a.withheldOutcomes = r.withheld := by
  obtain ⟨entry, hentry, h⟩ := bind_eq_ok.1 h
  obtain ⟨p, hrows, h⟩ := bind_eq_ok.1 h
  obtain ⟨index, hindex, h⟩ := bind_eq_ok.1 h
  obtain ⟨a, ha, h⟩ := bind_eq_ok.1 h
  cases h
  exact ⟨hentry, hrows, hindex, a, ha, rfl, rfl⟩

/-- A link is withheld, and counted. -/
theorem withholds_iff_sample : ∃ a,
    callEvents plainLibrary .null (logEngine "https://cdn.example/rec.wav") none "" "" 200 = .ok a ∧
      Withholds plainLibrary .null (logEngine "https://cdn.example/rec.wav") logRegister "" "" 200 none
        [logRow "https://cdn.example/rec.wav"] a := by
  have hrun : logRun "https://cdn.example/rec.wav" =
      .ok ⟨logRegister, [logRow "https://cdn.example/rec.wav"], false, none, [some ""], 1⟩ := by
    decide +kernel
  obtain ⟨hentry, hrows, hindex, a, ha, -, -⟩ := logRun_eq_ok hrun
  refine ⟨a, ha, (withholds_iff hentry hrows hindex ha).2 fun _ row hrow _ => ?_⟩
  obtain rfl := List.mem_singleton.1 (List.mem_of_mem_filter (List.mem_of_mem_take hrow))
  decide +kernel

/-- The name of a recording, one character longer than what is looked at. -/
def recording : String := "operator-17_linija-4_2026-09-18T10-15-00_998901234567_0000001.wav"

/-- The name of a recording is returned as an outcome, without its last letter. -/
theorem recording_shown : ¬ ∀ (lib : Library) (assets : Json) (eng : Engine) (name : Option String)
    (since until_ : String) (limit : ℤ) (entry : Register) (rows : List (List (String × Cell))) (more : Bool)
    (index : Option Index) (a : CallEvents),
    resolve lib eng name = .ok entry → readRows eng entry.register entry.range = .ok (rows, more) →
    callIndex lib eng entry rows = .ok index → callEvents lib assets eng name since until_ limit = .ok a →
    Withholds lib assets eng entry since until_ limit.toNat index rows a := by
  intro hall
  have hrun : logRun recording = .ok ⟨logRegister, [logRow recording], false, none,
      [some "operator-17_linija-4_2026-09-18T10-15-00_998901234567_0000001.wa"], 0⟩ := by
    decide +kernel
  obtain ⟨hentry, hrows, hindex, a, ha, hshown, -⟩ := logRun_eq_ok hrun
  obtain ⟨t, hloop, hevents, -, hsteps⟩ := hall _ _ _ _ _ _ _ _ _ _ _ a hentry hrows hindex ha
  obtain ⟨s, hnext, hpure⟩ := bind_eq_ok.1 hloop
  cases hpure
  rw [hevents] at hshown
  obtain ⟨e, hone, houtcome⟩ := List.map_eq_singleton_iff.1 hshown
  have hfull : locator (fullText plainLibrary (field (logRow recording) logRegister.outcomeColumn)).toList = true := by
    decide +kernel
  have hempty := (hsteps [] (logRow recording) [] .empty t e rfl rfl hnext hone (by decide) hfull).1
  rw [houtcome] at hempty
  exact absurd hempty (by decide)

end AgentPlatform.Telephony
