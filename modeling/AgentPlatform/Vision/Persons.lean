import AgentPlatform.Lib.Counts
import AgentPlatform.Vision.Events

/-!
# What the impersonal reads say of persons

A row is one of a person when the whole text of its event cell, without the white space around it and in lower case,
is a class that is declared as identifying. `station_event` and `summary` leave such rows out, and yet count them: a
row without a station or without a class as skipped, a row whose class is not recognised in the first 64
characters of its cell as an event, and `summary` every row it recognises as skipped. So what they return is the
same without those rows exactly when all of them are unseen (`unrevealed_iff`).
-/

namespace AgentPlatform.Vision

open Outcome AgentPlatform.Graph
open Telephony (Sheet cellText trimmed fullText dayRe day window boundedInt)

variable (lib : Telephony.Library) (eng : Engine) (entry : Register) (identifying : List String)
variable (since until_ : String) (row : List (String × Cell))

/-- The class that a row's cell names. -/
def fullClass : String := casefold lib.toTexts (strip (fullText lib (field row entry.eventColumn)))

/-- The row is one of a person. -/
def isPersonRow : Bool := isPerson identifying (fullClass lib entry row)

/-- The tenant's data without the rows of persons. -/
def withoutPersons : Engine :=
  { eng with
    read := fun register range => (eng.read register range).map fun sheet =>
      { sheet with rows := sheet.rows.filter fun row => !isPersonRow lib entry identifying row } }

/-- A row that neither read counts: it has a station and a class that is not recognised, and a day outside the
window. -/
structure Unseen : Prop where
  station : stationText lib entry row ≠ ""
  event : eventClass lib entry row ≠ ""
  missed : eventClass lib entry row ∉ identifying
  dated : dayRe (dayText lib entry row) = true
  outside : window (dayText lib entry row) since until_ = false

/-- Without the rows of persons both reads return the same, but for how many rows they scanned. -/
structure Unrevealed (limit : ℤ) (a : EventRead) (b : Summary) : Prop where
  events : ∃ a', stationEvent lib (withoutPersons lib eng entry identifying) since until_ limit = .ok a' ∧
    { a' with scanned := a.scanned } = a
  summary : ∃ b', summary lib (withoutPersons lib eng entry identifying) since until_ limit = .ok b' ∧
    { b' with scanned := b.scanned } = b

/-! ### What each read counts -/

/-- A readable row that is not recognised as a person's and has no day. -/
def isUndated : Bool :=
  !isUnreadable lib entry row && !isPerson identifying (eventClass lib entry row) &&
    !dayRe (dayText lib entry row)

/-- A readable row of the window that is not recognised as a person's. -/
def isCounted : Bool :=
  !isUnreadable lib entry row && !isPerson identifying (eventClass lib entry row) &&
    dayRe (dayText lib entry row) && window (dayText lib entry row) since until_

variable {lib eng entry identifying since until_ row} {limit : ℕ}

theorem unseen_iff : Unseen lib entry identifying since until_ row ↔
    isUnreadable lib entry row = false ∧ isPerson identifying (eventClass lib entry row) = false ∧
      isUndated lib entry identifying row = false ∧ isCounted lib entry identifying since until_ row = false := by
  constructor
  · intro h
    have hread : isUnreadable lib entry row = false := by simp [isUnreadable, h.station, h.event]
    have hmissed : isPerson identifying (eventClass lib entry row) = false := by simp [isPerson, h.missed]
    refine ⟨hread, hmissed, ?_, ?_⟩
    · simp [isUndated, h.dated]
    · simp [isCounted, h.outside]
  · rintro ⟨hread, hmissed, hundated, hcounted⟩
    have hdated : dayRe (dayText lib entry row) = true := by simpa [isUndated, hread, hmissed] using hundated
    simp only [isUnreadable, Bool.or_eq_false_iff, decide_eq_false_iff_not] at hread
    refine ⟨hread.1, hread.2, ?_, hdated, ?_⟩
    · simpa [isPerson, hread.2] using hmissed
    · simpa [isCounted, isUnreadable, hread.1, hread.2, hmissed, hdated] using hcounted

section Steps

variable {s : Scan} {t : Counts}

theorem bind_counts : (s.bind lib eng entry row limit).skipped = s.skipped ∧
    (s.bind lib eng entry row limit).undated = s.undated ∧
    (s.bind lib eng entry row limit).matched = s.matched + 1 := by
  unfold Scan.bind
  cases bindPath lib eng (stationText lib entry row) with
  | none => exact ⟨rfl, rfl, rfl⟩
  | some segments =>
    dsimp only
    split_ifs
    · exact ⟨rfl, rfl, rfl⟩
    · exact ⟨rfl, rfl, rfl⟩

/-- What the impersonal read counts at a row. -/
theorem next_counts (hstation : entry.sensitivity = .station) :
    (s.next lib eng entry identifying since until_ limit row).skipped =
        s.skipped + (if isUnreadable lib entry row then 1 else 0) ∧
      (s.next lib eng entry identifying since until_ limit row).undated =
        s.undated + (if isUndated lib entry identifying row then 1 else 0) ∧
      (s.next lib eng entry identifying since until_ limit row).matched =
        s.matched + if isCounted lib entry identifying since until_ row then 1 else 0 := by
  unfold Scan.next isUndated isCounted
  cases isUnreadable lib entry row <;> cases isPerson identifying (eventClass lib entry row) <;>
    cases dayRe (dayText lib entry row) <;> cases window (dayText lib entry row) since until_ <;>
    simp [hstation, bind_counts]

theorem counts_skipped : (t.next lib entry identifying since until_ row).skipped =
    t.skipped + if isUnreadable lib entry row || isPerson identifying (eventClass lib entry row) then 1 else 0 := by
  unfold Counts.next
  split_ifs <;> rfl

theorem next_unseen (hstation : entry.sensitivity = .station)
    (h : Unseen lib entry identifying since until_ row) :
    s.next lib eng entry identifying since until_ limit row = s := by
  obtain ⟨hread, hmissed, -, -⟩ := unseen_iff.1 h
  simp [Scan.next, hread, hmissed, hstation, h.dated, h.outside]

theorem counts_unseen (h : Unseen lib entry identifying since until_ row) :
    t.next lib entry identifying since until_ row = t := by
  obtain ⟨hread, hmissed, -, -⟩ := unseen_iff.1 h
  simp [Counts.next, hread, hmissed, h.dated, h.outside]

/-- What the impersonal read has counted. -/
theorem scan_counts {rows : List (List (String × Cell))} (hstation : entry.sensitivity = .station) :
    (rows.foldl (Scan.next lib eng entry identifying since until_ limit) .empty).skipped =
        rows.countP (isUnreadable lib entry) ∧
      (rows.foldl (Scan.next lib eng entry identifying since until_ limit) .empty).undated =
        rows.countP (isUndated lib entry identifying) ∧
      (rows.foldl (Scan.next lib eng entry identifying since until_ limit) .empty).matched =
        rows.countP (isCounted lib entry identifying since until_) := by
  have hsum := List.foldl_counts (l := rows) (s := Scan.empty)
    (Scan.next lib eng entry identifying since until_ limit)
  have hskipped := hsum Scan.skipped (isUnreadable lib entry) fun s row => (next_counts hstation).1
  have hundated := hsum Scan.undated (isUndated lib entry identifying) fun s row => (next_counts hstation).2.1
  have hmatched := hsum Scan.matched (isCounted lib entry identifying since until_) fun s row =>
    (next_counts hstation).2.2
  exact ⟨hskipped.trans (Nat.zero_add _), hundated.trans (Nat.zero_add _), hmatched.trans (Nat.zero_add _)⟩

theorem summary_counts {rows : List (List (String × Cell))} :
    (rows.foldl (Counts.next lib entry identifying since until_) .empty).skipped =
      rows.countP fun row => isUnreadable lib entry row || isPerson identifying (eventClass lib entry row) := by
  have hsum := List.foldl_counts (l := rows) (s := Counts.empty)
    (Counts.next lib entry identifying since until_) Counts.skipped
    (fun row => isUnreadable lib entry row || isPerson identifying (eventClass lib entry row))
    fun t row => counts_skipped
  exact hsum.trans (Nat.zero_add _)

end Steps

/-! ### What each read returns -/

/-- The questions to which there is an answer: they do not depend on the rows. -/
structure Asked (lib : Telephony.Library) (assets : Json) (since until_ : String) (limit : ℤ) : Prop where
  first : day since "since" = .ok since
  last : day until_ "until" = .ok until_
  order : checkWindow since until_ = .ok ()
  bound : boundedInt (.int limit) 1 maxEvents "limit" = .ok limit.toNat
  levels : ∃ levels, Assets.hierarchy lib.toParser assets = .ok levels

section Answers

variable {sheet : Sheet} {most : ℤ} {a : EventRead} {b : Summary}

theorem stationEvent_iff (hentry : resolve lib eng .station = .ok entry)
    (hclasses : personClasses lib eng = .ok identifying)
    (hread : eng.read entry.register entry.range = .ok sheet) :
    stationEvent lib eng since until_ most = .ok a ↔
      Asked lib eng.assets since until_ most ∧
        readOf eng entry "station_event" (sheet.rows.take maxRows).length sheet.truncated
          ((sheet.rows.take maxRows).foldl
            (Scan.next lib eng entry identifying since until_ most.toNat) .empty) = a := by
  have hrows : readRows eng entry = .ok (sheet.rows.take maxRows, sheet.truncated) := by rw [readRows, hread]; rfl
  rw [stationEvent, Telephony.day_bind, Telephony.day_bind]
  simp only [scan, ↓Telephony.boundedInt_bind, bind_eq_ok, hentry, hrows, hclasses, Except.ok.injEq, exists_eq_left', pure_eq_ok]
  constructor
  · rintro ⟨hsince, huntil, ⟨_, hwindow, hlimit, levels, hlevels, h⟩⟩
    exact ⟨⟨hsince, huntil, hwindow, hlimit, levels, hlevels⟩, h⟩
  · rintro ⟨⟨hsince, huntil, hwindow, hlimit, levels, hlevels⟩, h⟩
    exact ⟨hsince, huntil, ⟨_, hwindow, hlimit, levels, hlevels, h⟩⟩

theorem summary_iff (hentry : resolve lib eng .station = .ok entry)
    (hclasses : personClasses lib eng = .ok identifying)
    (hread : eng.read entry.register entry.range = .ok sheet) :
    summary lib eng since until_ most = .ok b ↔
      Asked lib eng.assets since until_ most ∧
        summaryOf lib eng entry most.toNat (sheet.rows.take maxRows).length sheet.truncated
          ((sheet.rows.take maxRows).foldl (Counts.next lib entry identifying since until_) .empty) = b := by
  have hrows : readRows eng entry = .ok (sheet.rows.take maxRows, sheet.truncated) := by rw [readRows, hread]; rfl
  rw [summary, Telephony.day_bind, Telephony.day_bind]
  simp only [↓Telephony.boundedInt_bind, bind_eq_ok, hentry, hrows, hclasses, Except.ok.injEq, exists_eq_left', pure_eq_ok]
  constructor
  · rintro ⟨hsince, huntil, ⟨_, hwindow, hlimit, levels, hlevels, h⟩⟩
    exact ⟨⟨hsince, huntil, hwindow, hlimit, levels, hlevels⟩, h⟩
  · rintro ⟨⟨hsince, huntil, hwindow, hlimit, levels, hlevels⟩, h⟩
    exact ⟨hsince, huntil, ⟨_, hwindow, hlimit, levels, hlevels, h⟩⟩

/-- Both reads are the same without the rows of persons exactly when no such row is counted by either. -/
theorem unrevealed_iff (hentry : resolve lib eng .station = .ok entry)
    (hclasses : personClasses lib eng = .ok identifying)
    (hread : eng.read entry.register entry.range = .ok sheet) (hrows : sheet.rows.length ≤ maxRows)
    (ha : stationEvent lib eng since until_ most = .ok a) (hb : summary lib eng since until_ most = .ok b) :
    Unrevealed lib eng entry identifying since until_ most a b ↔
      ∀ row ∈ sheet.rows, isPersonRow lib entry identifying row = true →
        Unseen lib entry identifying since until_ row := by
  have hstation : entry.sensitivity = .station := by
    obtain ⟨_, -, h⟩ := bind_eq_ok.1 hentry
    obtain ⟨_, -, h⟩ := bind_eq_ok.1 h
    simpa using List.find?_some (need_eq_ok.1 h)
  have hread' : (withoutPersons lib eng entry identifying).read entry.register entry.range =
      .ok { sheet with rows := sheet.rows.filter fun row => !isPersonRow lib entry identifying row } := by
    simp only [withoutPersons, hread]
    rfl
  obtain ⟨hasked, rfl⟩ := (stationEvent_iff hentry hclasses hread).1 ha
  obtain ⟨-, rfl⟩ := (summary_iff hentry hclasses hread).1 hb
  have hkept : ({ sheet with rows := sheet.rows.filter fun row => !isPersonRow lib entry identifying row } :
      Sheet).rows.take maxRows = sheet.rows.filter fun row => !isPersonRow lib entry identifying row :=
    List.take_of_length_le ((List.length_filter_le _ _).trans hrows)
  have hall : sheet.rows.take maxRows = sheet.rows := List.take_of_length_le hrows
  have hentry' : resolve lib (withoutPersons lib eng entry identifying) .station = .ok entry := hentry
  have hclasses' : personClasses lib (withoutPersons lib eng entry identifying) = .ok identifying := hclasses
  rw [hall]
  constructor
  · rintro ⟨⟨a', ha', hsame⟩, b', hb', hsame'⟩ row hrow hperson
    obtain ⟨-, rfl⟩ := (stationEvent_iff hentry' hclasses' hread').1 ha'
    obtain ⟨-, rfl⟩ := (summary_iff hentry' hclasses' hread').1 hb'
    rw [hkept] at hsame hsame'
    have hkeep : (!isPersonRow lib entry identifying row) = false := by rw [hperson]; rfl
    have hskipped := congrArg EventRead.skipped hsame
    have hundated := congrArg EventRead.undated hsame
    have hcounted := congrArg EventRead.count hsame
    have hleft := congrArg Summary.skipped hsame'
    simp only [readOf, scan_counts hstation] at hskipped hundated hcounted
    simp only [summaryOf, summary_counts] at hleft
    have hread := List.countP_filter_eq_iff.1 hskipped row hrow hkeep
    have hmissed := List.countP_filter_eq_iff.1 hleft row hrow hkeep
    rw [hread, Bool.false_or] at hmissed
    exact unseen_iff.2 ⟨hread, hmissed, List.countP_filter_eq_iff.1 hundated row hrow hkeep,
      List.countP_filter_eq_iff.1 hcounted row hrow hkeep⟩
  · intro hunseen
    have hpass : ∀ row ∈ sheet.rows, (!isPersonRow lib entry identifying row) = false →
        Unseen lib entry identifying since until_ row := fun row hrow hkeep =>
      hunseen row hrow (by simpa using hkeep)
    have hscan : ∀ row ∈ sheet.rows, (!isPersonRow lib entry identifying row) = false → ∀ s,
        Scan.next lib eng entry identifying since until_ most.toNat s row = s := fun row hrow hkeep _ =>
      next_unseen hstation (hpass row hrow hkeep)
    have hsummary : ∀ row ∈ sheet.rows, (!isPersonRow lib entry identifying row) = false → ∀ t,
        Counts.next lib entry identifying since until_ t row = t := fun row hrow hkeep _ =>
      counts_unseen (hpass row hrow hkeep)
    constructor
    · refine ⟨_, (stationEvent_iff hentry' hclasses' hread').2 ⟨hasked, rfl⟩, ?_⟩
      rw [hkept, ← List.foldl_filter_of_forall hscan]
      rfl
    · refine ⟨_, (summary_iff hentry' hclasses' hread').2 ⟨hasked, rfl⟩, ?_⟩
      rw [hkept, ← List.foldl_filter_of_forall hsummary]
      rfl

end Answers

/-! ### A row of a person -/

/-- A tenant with one register of events, in which a face is identifying, and two levels of assets. -/
def faceEngine (rows : List (List (String × Cell))) : Engine :=
  { vision := .obj [("registers", .obj [("sex", .obj [("register", .str "plant"), ("range", .str "events"),
      ("station_column", .str "stanok"), ("event_column", .str "hodisa"), ("timestamp_column", .str "sana"),
      ("person_classes", .arr [.str "yuz tanildi"])])])]
    assets := .obj [("levels", .arr [.str "zavod", .str "stanok"])]
    read := fun _ _ => .ok ⟨rows, false⟩
    agent := "agent"
    ladder := "autonomous" }

def faceRow (event day : String) : List (String × Cell) :=
  [("stanok", .str "zavod-1/stanok-1"), ("hodisa", .str event), ("sana", .str day)]

def faceRegister : Register :=
  ⟨"plant", "events", "stanok", "hodisa", "sana", "", .station, ["yuz tanildi"], false⟩

/-- What both reads return of such a tenant. -/
structure FaceRead where
  entry : Register
  identifying : List String
  events : EventRead
  summary : Summary
  deriving DecidableEq

def faceRun (rows : List (List (String × Cell))) (since until_ : String) : Except Err FaceRead := do
  let entry ← resolve Telephony.plainLibrary (faceEngine rows) .station
  let identifying ← personClasses Telephony.plainLibrary (faceEngine rows)
  let a ← stationEvent Telephony.plainLibrary (faceEngine rows) since until_ 200
  let b ← summary Telephony.plainLibrary (faceEngine rows) since until_ 200
  pure ⟨entry, identifying, a, b⟩

theorem faceRun_eq_ok {rows : List (List (String × Cell))} {r : FaceRead} (h : faceRun rows since until_ = .ok r) :
    resolve Telephony.plainLibrary (faceEngine rows) .station = .ok r.entry ∧
      personClasses Telephony.plainLibrary (faceEngine rows) = .ok r.identifying ∧
      stationEvent Telephony.plainLibrary (faceEngine rows) since until_ 200 = .ok r.events ∧
      summary Telephony.plainLibrary (faceEngine rows) since until_ 200 = .ok r.summary := by
  obtain ⟨entry, hentry, h⟩ := bind_eq_ok.1 h
  obtain ⟨identifying, hclasses, h⟩ := bind_eq_ok.1 h
  obtain ⟨a, ha, h⟩ := bind_eq_ok.1 h
  obtain ⟨b, hb, h⟩ := bind_eq_ok.1 h
  cases h
  exact ⟨hentry, hclasses, ha, hb⟩

/-- What `station_event` and `summary` return where no row is of the window. -/
def noEvents (undated skipped scanned : ℕ) : FaceRead :=
  { entry := faceRegister
    identifying := ["yuz tanildi"]
    events := ⟨"station_event", "plant", .station, [], 0, 0, 0, undated, 0, scanned, false, "agent", "autonomous"⟩
    summary := ⟨"plant", [], [], 0, undated, skipped, scanned, false, "agent", "autonomous"⟩ }

/-- A row of a person whose class stands behind sixty blanks, of a day before the window. -/
def lateRow : List (String × Cell) :=
  faceRow "                                                            yuz tanildi" "2026-08-15"

theorem unrevealed_iff_sample : Unrevealed Telephony.plainLibrary (faceEngine [lateRow]) faceRegister ["yuz tanildi"]
    "2026-09-01" "2026-09-30" 200 (noEvents 0 0 1).events (noEvents 0 0 1).summary := by
  have hrun : faceRun [lateRow] "2026-09-01" "2026-09-30" = .ok (noEvents 0 0 1) := by decide +kernel
  obtain ⟨hentry, hclasses, ha, hb⟩ := faceRun_eq_ok hrun
  have hread : (faceEngine [lateRow]).read faceRegister.register faceRegister.range = .ok ⟨[lateRow], false⟩ := rfl
  refine (unrevealed_iff hentry hclasses hread (by decide) ha hb).2 ?_
  intro row hrow _
  obtain rfl := List.mem_singleton.1 hrow
  exact ⟨by decide +kernel, by decide +kernel, by decide +kernel, by decide +kernel, by decide +kernel⟩

/-- The summary counts a recognised row of a person as skipped. -/
theorem face_counted : ¬ ∀ (lib : Telephony.Library) (eng : Engine) (entry : Register) (identifying : List String)
    (sheet : Sheet) (since until_ : String) (limit : ℤ) (a : EventRead) (b : Summary),
    resolve lib eng .station = .ok entry → personClasses lib eng = .ok identifying →
    eng.read entry.register entry.range = .ok sheet → sheet.rows.length ≤ maxRows →
    stationEvent lib eng since until_ limit = .ok a → summary lib eng since until_ limit = .ok b →
    Unrevealed lib eng entry identifying since until_ limit a b := by
  intro hall
  have hrun : faceRun [faceRow "Yuz tanildi" "2026-09-18"] "" "" = .ok (noEvents 0 1 1) := by decide +kernel
  obtain ⟨hentry, hclasses, ha, hb⟩ := faceRun_eq_ok hrun
  obtain ⟨b', hb', hsame⟩ := (hall _ _ _ _ ⟨[faceRow "Yuz tanildi" "2026-09-18"], false⟩ _ _ _ _ _ hentry hclasses rfl
    (by decide) ha hb).summary
  have hnone : summary Telephony.plainLibrary (withoutPersons Telephony.plainLibrary
      (faceEngine [faceRow "Yuz tanildi" "2026-09-18"]) faceRegister ["yuz tanildi"]) "" "" 200 =
        .ok (noEvents 0 0 0).summary := by
    decide +kernel
  obtain rfl : b' = _ := Except.ok.inj (hb'.symm.trans hnone)
  exact absurd (congrArg Summary.skipped hsame) (by decide)

end AgentPlatform.Vision
