import AgentPlatform.Lib.Counts
import AgentPlatform.Telephony.Consent

/-!
# The queue of calls

`queue` of `telephony.py`: the outbound rows of a window with the answer of `consent` for each. The item cap
ends the questions as well as the items, and nothing is taken out of the items for the declared pace, so the
counts are those of the first `limit` rows and every one of them that is consented is carried.
`queue_paced_iff` says when that is the whole window and within the pace.
-/

namespace AgentPlatform.Telephony

open Outcome AgentPlatform.Graph

variable (lib : Library) (eng : Engine)

/-- `_day`. -/
def day (value name : String) : Except Err String := do
  ensure (value = "" ∨ dayRe value = true) (.valueError (name ++ " must be an ISO date (YYYY-MM-DD)"))
  pure value

theorem day_bind {α : Type} {value name : String} {k : String → Except Err α} {x : α} :
    (day value name >>= k) = .ok x ↔ day value name = .ok value ∧ k value = .ok x := by
  refine ⟨fun h => ?_, fun ⟨h, hk⟩ => bind_eq_ok.2 ⟨_, h, hk⟩⟩
  obtain ⟨_, h, hk⟩ := bind_eq_ok.1 h
  obtain ⟨_, -, hpure⟩ := bind_eq_ok.1 h
  cases hpure
  exact ⟨h, hk⟩

theorem boundedInt_bind {α : Type} {n : ℤ} {low high : ℕ} {name : String} {k : ℕ → Except Err α} {x : α} :
    (boundedInt (.int n) low high name >>= k) = .ok x ↔
      boundedInt (.int n) low high name = .ok n.toNat ∧ k n.toNat = .ok x := by
  refine ⟨fun h => ?_, fun ⟨h, hk⟩ => bind_eq_ok.2 ⟨_, h, hk⟩⟩
  obtain ⟨_, h, hk⟩ := bind_eq_ok.1 h
  obtain ⟨_, -, hpure⟩ := bind_eq_ok.1 h
  cases hpure
  exact ⟨h, hk⟩

/-- `_window`. -/
def window (rowDay since until_ : String) : Bool :=
  (since = "" ∧ until_ = "") ∨ (dayRe rowDay = true ∧ (since = "" ∨ ¬rowDay.toList < since.toList) ∧
    (until_ = "" ∨ ¬until_.toList < rowDay.toList))

/-- An item of the queue. -/
structure Item where
  number : String
  purpose : String
  consented : Bool
  recordingAllowed : Bool
  dueDay : Option String
  reasons : List String
  deriving DecidableEq

/-- `_queue_item`. -/
def queueItem (entry : Register) (row : List (String × Cell)) (answer : Answer) : Item :=
  let day := trimmed lib row entry.timestampColumn 32
  { number := answer.number
    purpose := entry.purpose
    consented := answer.consented
    recordingAllowed := answer.recordingAllowed
    dueDay := if dayRe day = true then some day else none
    reasons := answer.reasons }

/-- What the loop of `queue` counts. -/
structure Tally where
  items : List Item
  matched : ℕ
  blocked : ℕ
  skipped : ℕ

def Tally.empty : Tally := ⟨[], 0, 0, 0⟩

/-- A row without a number, or with an unknown direction. -/
def isSkipped (entry : Register) (row : List (String × Cell)) : Bool :=
  normalise lib (field row entry.numberColumn) = "" ∨ word lib row entry.directionColumn 32 ∉ directions

/-- A row of the window: outbound, with a number, of a day between the two. -/
def isMatched (entry : Register) (since until_ : String) (row : List (String × Cell)) : Bool :=
  !isSkipped lib entry row && word lib row entry.directionColumn 32 == "outbound" &&
    window (trimmed lib row entry.timestampColumn 32) since until_

/-- One matched row: nothing is asked of it where the items are at the limit. -/
def Tally.ask (entry : Register) (limit : ℕ) (index : Option Index) (t : Tally)
    (row : List (String × Cell)) : Except Err Tally :=
  if limit ≤ t.items.length then .ok { t with matched := t.matched + 1 }
  else do
    let answer ← consent lib eng (.str (normalise lib (field row entry.numberColumn))) entry.purpose index
    pure { t with
      items := t.items ++ [queueItem lib entry row answer]
      matched := t.matched + 1
      blocked := if answer.consented then t.blocked else t.blocked + 1 }

/-- One row. -/
def Tally.next (entry : Register) (since until_ : String) (limit : ℕ) (index : Option Index) (t : Tally)
    (row : List (String × Cell)) : Except Err Tally :=
  if isSkipped lib entry row then .ok { t with skipped := t.skipped + 1 }
  else if isMatched lib entry since until_ row then t.ask lib eng entry limit index row
  else .ok t

/-- The index of a pass; none is read where there are no rows. -/
def queueIndex (rows : List (List (String × Cell))) : Except Err (Option Index) :=
  if rows = [] then .ok none else (consentIndex lib eng).map some

/-- What `queue` returns. -/
structure Queue where
  register : String
  purpose : String
  items : List Item
  itemCount : ℕ
  callableCount : ℕ
  blockedCount : ℕ
  matched : ℕ
  skipped : ℕ
  scanned : ℕ
  throughput : Option Throughput
  capacity : ℕ
  overCapacity : ℕ
  truncated : Bool
  agent : String
  ladder : String
  deriving DecidableEq

/-- What the declared pace permits. -/
def capacityOf (pace : Option Throughput) : ℕ := (pace.map Throughput.perWindow).getD 0

/-- What `queue` makes of the loop. -/
def queueOf (entry : Register) (pace : Option Throughput) (limit scanned : ℕ) (more : Bool) (t : Tally) :
    Queue :=
  let callable := t.items.countP Item.consented
  { register := entry.register
    purpose := entry.purpose
    items := t.items
    itemCount := t.items.length
    callableCount := callable
    blockedCount := t.blocked
    matched := t.matched
    skipped := t.skipped
    scanned := scanned
    throughput := pace
    capacity := capacityOf pace
    overCapacity := callable - capacityOf pace
    truncated := decide (limit < t.matched) || more
    agent := eng.agent
    ladder := eng.ladder }

/-- `queue`. -/
def queue (name : Option String) (since until_ : String) (limit : ℤ) : Except Err Queue := do
  let since ← day since "since"
  let until_ ← day until_ "until"
  let limit ← boundedInt (.int limit) 1 maxQueueItems "limit"
  let entry ← resolve lib eng name
  let config ← telephonyConfig lib eng
  let (rows, more) ← readRows eng entry.register entry.range
  let index ← queueIndex lib eng rows
  let tally ← rows.foldlM (Tally.next lib eng entry since until_ limit index) Tally.empty
  pure (queueOf eng entry config.throughput limit rows.length more tally)

/-! ### What the loop counts -/

variable {lib : Library} {eng : Engine}

/-- The rows of the window. -/
def matchedRows (lib : Library) (entry : Register) (since until_ : String)
    (rows : List (List (String × Cell))) : List (List (String × Cell)) :=
  rows.filter (isMatched lib entry since until_)

/-- The answer of `consent` for the number of a row. -/
def rowAnswer (lib : Library) (eng : Engine) (allowlist : List String) (entry : Register)
    (index : Option Index) (row : List (String × Cell)) : Answer :=
  answerOf eng allowlist (index.getD .empty)
    (normalise lib (.str (normalise lib (field row entry.numberColumn)))) (purposeAsked lib entry.purpose)

/-- Whether the number of a row may be called. -/
def mayCall (lib : Library) (eng : Engine) (allowlist : List String) (entry : Register)
    (index : Option Index) (row : List (String × Cell)) : Bool :=
  (rowAnswer lib eng allowlist entry index row).consented

theorem consent_of_index {number : Cell} {purpose : String} {index : Index} {config : Config} {a : Answer}
    (hconfig : telephonyConfig lib eng = .ok config)
    (h : consent lib eng number purpose (some index) = .ok a) :
    a = answerOf eng config.consentedNumbers index (normalise lib number) (purposeAsked lib purpose) := by
  obtain ⟨_, -, h⟩ := bind_eq_ok.1 h
  obtain ⟨config', hconfig', h⟩ := bind_eq_ok.1 h
  obtain rfl : config' = config := Except.ok.inj (hconfig'.symm.trans hconfig)
  cases h
  rfl

section Loop

variable {config : Config} {entry : Register} {since until_ : String} {limit : ℕ} {index : Option Index}
variable {rows : List (List (String × Cell))} {row : List (String × Cell)}

/-- What the loop has counted, of the rows it has seen. -/
structure Counted (lib : Library) (eng : Engine) (allowlist : List String) (entry : Register)
    (since until_ : String) (limit : ℕ) (index : Option Index) (rows : List (List (String × Cell)))
    (t : Tally) : Prop where
  items : t.items = ((matchedRows lib entry since until_ rows).take limit).map fun row =>
    queueItem lib entry row (rowAnswer lib eng allowlist entry index row)
  matched : t.matched = (matchedRows lib entry since until_ rows).length
  blocked : t.blocked = ((matchedRows lib entry since until_ rows).take limit).countP fun row =>
    !mayCall lib eng allowlist entry index row

theorem matchedRows_snoc : matchedRows lib entry since until_ (rows ++ [row]) =
    matchedRows lib entry since until_ rows ++ if isMatched lib entry since until_ row then [row] else [] := by
  rw [matchedRows, List.filter_append, List.filter_singleton, matchedRows]
  cases isMatched lib entry since until_ row <;> rfl

theorem isMatched_of_isSkipped (h : isSkipped lib entry row = true) :
    isMatched lib entry since until_ row = false := by
  simp [isMatched, h]

theorem Counted.pass {t : Tally} {skipped : ℕ}
    (hc : Counted lib eng config.consentedNumbers entry since until_ limit index rows t)
    (hrow : isMatched lib entry since until_ row = false) :
    Counted lib eng config.consentedNumbers entry since until_ limit index (rows ++ [row])
      { t with skipped := skipped } := by
  have hrows : matchedRows lib entry since until_ (rows ++ [row]) =
      matchedRows lib entry since until_ rows := by
    rw [matchedRows_snoc, hrow]
    exact List.append_nil _
  constructor
  · rw [hrows]
    exact hc.items
  · rw [hrows]
    exact hc.matched
  · rw [hrows]
    exact hc.blocked

/-- A row of the window is counted, and asked where there is room. -/
theorem Counted.ask {t t' : Tally} (hconfig : telephonyConfig lib eng = .ok config)
    (hindex : index ≠ none)
    (hc : Counted lib eng config.consentedNumbers entry since until_ limit index rows t)
    (hrow : isMatched lib entry since until_ row = true)
    (h : t.ask lib eng entry limit index row = .ok t') :
    Counted lib eng config.consentedNumbers entry since until_ limit index (rows ++ [row]) t' := by
  have hrows : matchedRows lib entry since until_ (rows ++ [row]) =
      matchedRows lib entry since until_ rows ++ [row] := by
    rw [matchedRows_snoc, hrow]
    rfl
  have hlength : t.items.length = min limit (matchedRows lib entry since until_ rows).length := by
    rw [hc.items, List.length_map, List.length_take]
  unfold Tally.ask at h
  split_ifs at h with hfull
  · cases h
    have htake : (matchedRows lib entry since until_ (rows ++ [row])).take limit =
        (matchedRows lib entry since until_ rows).take limit := by
      rw [hrows]
      exact List.take_append_of_le_length (by omega)
    constructor
    · rw [htake]
      exact hc.items
    · rw [hrows, List.length_append, ← hc.matched]
      rfl
    · rw [htake]
      exact hc.blocked
  · obtain ⟨answer, hanswer, h⟩ := bind_eq_ok.1 h
    cases h
    obtain ⟨index, rfl⟩ := Option.ne_none_iff_exists'.1 hindex
    have ha : answer = rowAnswer lib eng config.consentedNumbers entry (some index) row :=
      consent_of_index hconfig hanswer
    have hall : (matchedRows lib entry since until_ rows).take limit =
        matchedRows lib entry since until_ rows := List.take_of_length_le (by omega)
    have htake : (matchedRows lib entry since until_ (rows ++ [row])).take limit =
        matchedRows lib entry since until_ rows ++ [row] := by
      rw [hrows]
      refine List.take_of_length_le ?_
      rw [List.length_append, List.length_singleton]
      omega
    have hitems := hc.items
    have hblocked := hc.blocked
    rw [hall] at hitems hblocked
    constructor
    · rw [htake, List.map_append, ← hitems, ha]
      rfl
    · rw [hrows, List.length_append, ← hc.matched]
      rfl
    · rw [htake, List.countP_append, ← hblocked, ha]
      cases hasked : (rowAnswer lib eng config.consentedNumbers entry (some index) row).consented <;>
        simp [mayCall, hasked]

theorem counted_loop {t : Tally} (hconfig : telephonyConfig lib eng = .ok config)
    (hindex : rows ≠ [] → index ≠ none)
    (h : rows.foldlM (Tally.next lib eng entry since until_ limit index) Tally.empty = .ok t) :
    Counted lib eng config.consentedNumbers entry since until_ limit index rows t := by
  induction rows using List.reverseRecOn generalizing t with
  | nil =>
    cases h
    exact ⟨by simp [Tally.empty, matchedRows], rfl, by simp [Tally.empty, matchedRows]⟩
  | append_singleton rows row ih =>
    have hsome : index ≠ none := hindex (by simp)
    rw [List.foldlM_append] at h
    obtain ⟨t₁, hfirst, h⟩ := bind_eq_ok.1 h
    obtain ⟨t₂, h, hpure⟩ := bind_eq_ok.1 h
    cases hpure
    have hc := ih (fun _ => hsome) hfirst
    unfold Tally.next at h
    split_ifs at h with hskip hmatched
    · cases h
      exact hc.pass (isMatched_of_isSkipped hskip)
    · exact hc.ask hconfig hsome hmatched h
    · cases h
      exact hc.pass (by simpa using hmatched)

/-- What `queue` returned comes of the loop over the rows it read. -/
theorem queue_counted {name : Option String} {limit : ℤ} {more : Bool} {q : Queue}
    (hconfig : telephonyConfig lib eng = .ok config) (hentry : resolve lib eng name = .ok entry)
    (hrows : readRows eng entry.register entry.range = .ok (rows, more))
    (hindex : queueIndex lib eng rows = .ok index) (h : queue lib eng name since until_ limit = .ok q) :
    ∃ (most : ℕ) (t : Tally), (most : ℤ) = limit ∧
      Counted lib eng config.consentedNumbers entry since until_ most index rows t ∧
      q = queueOf eng entry config.throughput most rows.length more t := by
  rw [queue, day_bind, day_bind, boundedInt_bind] at h
  simp only [bind_eq_ok, hentry, hconfig, hrows, hindex, Except.ok.injEq, exists_eq_left', pure_eq_ok] at h
  obtain ⟨-, -, hbounds, t, hloop, rfl⟩ := h
  have hsome : rows ≠ [] → index ≠ none := by
    intro hne hnone
    rw [queueIndex, if_neg hne] at hindex
    obtain ⟨i, -, hi⟩ := map_eq_ok.1 hindex
    rw [hnone] at hi
    cases hi
  obtain ⟨_, hbounds, -⟩ := bind_eq_ok.1 hbounds
  have hlow : (1 : ℤ) ≤ limit := (ensure_eq_ok.1 hbounds).1
  exact ⟨limit.toNat, t, Int.toNat_of_nonneg (by omega), counted_loop hconfig hsome hloop, rfl⟩

end Loop

/-! ### The pace -/

/-- A queue keeps the declared pace and counts the whole window, where `free` rows of the window may be called and
`barred` may not. -/
structure Paced (pace : Option Throughput) (free barred : ℕ) (q : Queue) : Prop where
  within : q.items.countP Item.consented ≤ q.capacity
  declared : q.capacity = capacityOf pace
  marked : q.capacity < free → q.truncated = true
  callable : q.callableCount = free
  blocked : q.blockedCount = barred
  surplus : q.overCapacity = free - q.capacity

theorem consented_items {allowlist : List String} {entry : Register} {index : Option Index}
    {rows : List (List (String × Cell))} :
    (rows.map fun row => queueItem lib entry row (rowAnswer lib eng allowlist entry index row)).countP
      Item.consented = rows.countP (mayCall lib eng allowlist entry index) := by
  have hsame : (Item.consented ∘ fun row =>
      queueItem lib entry row (rowAnswer lib eng allowlist entry index row)) =
        mayCall lib eng allowlist entry index := by
    funext row
    simp only [Function.comp, queueItem, mayCall]
  rw [List.countP_map, hsame]

/-- The queue keeps the pace and counts the window exactly when the rows of the window are within the limit
and those that may be called within the pace. -/
theorem queue_paced_iff {config : Config} {entry : Register} {name : Option String}
    {since until_ : String} {limit : ℤ} {rows : List (List (String × Cell))} {more : Bool}
    {index : Option Index} {q : Queue}
    (hconfig : telephonyConfig lib eng = .ok config) (hentry : resolve lib eng name = .ok entry)
    (hrows : readRows eng entry.register entry.range = .ok (rows, more))
    (hindex : queueIndex lib eng rows = .ok index) (h : queue lib eng name since until_ limit = .ok q) :
    Paced config.throughput
        ((matchedRows lib entry since until_ rows).countP
          (mayCall lib eng config.consentedNumbers entry index))
        ((matchedRows lib entry since until_ rows).countP fun row =>
          !mayCall lib eng config.consentedNumbers entry index row) q ↔
      ((matchedRows lib entry since until_ rows).length : ℤ) ≤ limit ∧
        (matchedRows lib entry since until_ rows).countP
          (mayCall lib eng config.consentedNumbers entry index) ≤ capacityOf config.throughput := by
  obtain ⟨most, t, rfl, hcounted, rfl⟩ := queue_counted hconfig hentry hrows hindex h
  have hcallable : t.items.countP Item.consented = ((matchedRows lib entry since until_ rows).take most).countP
      (mayCall lib eng config.consentedNumbers entry index) := by
    rw [hcounted.items, consented_items]
  have hblocked := hcounted.blocked
  revert hcallable hblocked
  generalize matchedRows lib entry since until_ rows = matched
  generalize mayCall lib eng config.consentedNumbers entry index = may
  intro hcallable hblocked
  constructor
  · intro hpaced
    have hcount : t.items.countP Item.consented = matched.countP may := hpaced.callable
    have hblock : t.blocked = matched.countP fun row => !may row := hpaced.blocked
    have hwithin : t.items.countP Item.consented ≤ capacityOf config.throughput := hpaced.within
    refine ⟨?_, hcount ▸ hwithin⟩
    exact_mod_cast List.countP_take_iff.1 ⟨hcallable.symm.trans hcount, hblocked.symm.trans hblock⟩
  · rintro ⟨hlimit, hpace⟩
    obtain ⟨hfree, hbarred⟩ := List.countP_take_iff.2 (show matched.length ≤ most by exact_mod_cast hlimit)
    have hcount := hcallable.trans hfree
    constructor
    · exact hcount.trans_le hpace
    · rfl
    · intro hsurplus
      exact absurd hpace (Nat.not_le.2 hsurplus)
    · exact hcount
    · exact hblocked.trans hbarred
    · exact congrArg (· - capacityOf config.throughput) hcount

/-! ### One row, with a pace and without -/

/-- A tenant with a register of calls and one of consents. -/
def callBlock (pace : Json) : Json :=
  .obj (("registers", .obj [("log", .obj [("register", .str "plant"), ("range", .str "calls"),
      ("direction_column", .str "yo‘nalish"), ("number_column", .str "raqam"),
      ("timestamp_column", .str "sana")])]) :: ("throughput", pace) :: consentBlock)

/-- One outbound call, to a number with a consent. -/
def callEngine (pace : Json) : Engine :=
  { consentEngine [] with
    telephony := callBlock pace
    read := fun _ range => .ok ⟨[if range = "calls"
      then [("yo‘nalish", .str "outbound"), ("raqam", .str "998901234567"), ("sana", .str "2026-09-18")]
      else consentRow "granted" "yes"], false⟩ }

/-- What a run of `queue` reads, and what it returns. -/
structure Read where
  config : Config
  entry : Register
  rows : List (List (String × Cell))
  more : Bool
  index : Option Index
  queue : Queue
  deriving DecidableEq

def queueRun (eng : Engine) : Except Err Read := do
  let config ← telephonyConfig plainLibrary eng
  let entry ← resolve plainLibrary eng none
  let p ← readRows eng entry.register entry.range
  let index ← queueIndex plainLibrary eng p.1
  let q ← queue plainLibrary eng none "" "" 50
  pure ⟨config, entry, p.1, p.2, index, q⟩

theorem queueRun_eq_ok {r : Read} (h : queueRun eng = .ok r) :
    telephonyConfig plainLibrary eng = .ok r.config ∧ resolve plainLibrary eng none = .ok r.entry ∧
      readRows eng r.entry.register r.entry.range = .ok (r.rows, r.more) ∧
      queueIndex plainLibrary eng r.rows = .ok r.index ∧
      queue plainLibrary eng none "" "" 50 = .ok r.queue := by
  obtain ⟨config, hconfig, h⟩ := bind_eq_ok.1 h
  obtain ⟨entry, hentry, h⟩ := bind_eq_ok.1 h
  obtain ⟨p, hrows, h⟩ := bind_eq_ok.1 h
  obtain ⟨index, hindex, h⟩ := bind_eq_ok.1 h
  obtain ⟨q, hq, h⟩ := bind_eq_ok.1 h
  cases h
  exact ⟨hconfig, hentry, hrows, hindex, hq⟩

/-- The run over one row that may be called, under a pace. -/
def oneCall (pace : Option Throughput) : Read :=
  let entry : Register := ⟨"plant", "calls", "yo‘nalish", "raqam", "sana", "", "", "", "service"⟩
  let consents : ConsentRegister := ⟨"plant", "consent", "raqam", "holat", "maqsad", "", "yozish"⟩
  { config := ⟨[("log", entry)], [("consent", consents)], [], pace, some 90⟩
    entry := entry
    rows := [[("yo‘nalish", .str "outbound"), ("raqam", .str "998901234567"), ("sana", .str "2026-09-18")]]
    more := false
    index := some ⟨[(serviceKey, true)], [], [(serviceKey, true)], 0⟩
    queue :=
      { register := "plant"
        purpose := "service"
        items := [⟨"998901234567", "service", true, true, some "2026-09-18", []⟩]
        itemCount := 1
        callableCount := 1
        blockedCount := 0
        matched := 1
        skipped := 0
        scanned := 1
        throughput := pace
        capacity := capacityOf pace
        overCapacity := 1 - capacityOf pace
        truncated := false
        agent := "agent"
        ladder := "L1" } }

/-- One row that may be called, under a pace of five. -/
theorem queue_paced_iff_sample :
    Paced (some ⟨5, 3600⟩) 1 0 (oneCall (some ⟨5, 3600⟩)).queue ↔ (1 : ℤ) ≤ 50 ∧ 1 ≤ 5 := by
  have hrun : queueRun (callEngine (.obj [("per_window", .int 5), ("window_seconds", .int 3600)])) =
      .ok (oneCall (some ⟨5, 3600⟩)) := by
    decide +kernel
  obtain ⟨hconfig, hentry, hrows, hindex, hq⟩ := queueRun_eq_ok hrun
  exact queue_paced_iff hconfig hentry hrows hindex hq

/-- Without a declared pace the queue still carries the row as consented, over a capacity of zero. -/
theorem pace_not_kept : ¬ ∀ (lib : Library) (eng : Engine) (name : Option String) (since until_ : String)
    (limit : ℤ) (config : Config) (entry : Register) (rows : List (List (String × Cell))) (more : Bool)
    (index : Option Index) (q : Queue),
    telephonyConfig lib eng = .ok config → resolve lib eng name = .ok entry →
    readRows eng entry.register entry.range = .ok (rows, more) →
    queueIndex lib eng rows = .ok index → queue lib eng name since until_ limit = .ok q →
    Paced config.throughput
      ((matchedRows lib entry since until_ rows).countP
        (mayCall lib eng config.consentedNumbers entry index))
      ((matchedRows lib entry since until_ rows).countP fun row =>
        !mayCall lib eng config.consentedNumbers entry index row) q := by
  intro hall
  have hrun : queueRun (callEngine .null) = .ok (oneCall none) := by decide +kernel
  obtain ⟨hconfig, hentry, hrows, hindex, hq⟩ := queueRun_eq_ok hrun
  have hwithin := (hall _ _ _ _ _ _ _ _ _ _ _ _ hconfig hentry hrows hindex hq).within
  have hover : ¬ (oneCall none).queue.items.countP Item.consented ≤ (oneCall none).queue.capacity := by
    decide
  exact hover hwithin

end AgentPlatform.Telephony
