import Mathlib.Data.Set.Finite.Lattice
import AgentPlatform.Briefing.Tick
import AgentPlatform.Engine.Destinations

/-!
# What a tick gets done

A tick serves the first due schedule (`Serves`) or leaves every schedule as it is; it never looks at the
second one. So it makes progress on a waiting schedule if and only if the first due one is itself waiting
and can be served (`Clear`). A first schedule whose day is claimed blocks the others, but not for ever:
in every run whose ticks are all blocked the clock stays below a bound (`blocked_bounded`), since a
blocked tick claims no day.
-/

namespace AgentPlatform.Briefing

open Outcome Engine Table Coordinator Runs
open Escalation (LedgerStatus taskToLedger)

/-- The day of the schedule is claimed: its row is there, and not `queued`. -/
def Claimed (s : State) (r : ScheduleRow) (now : Time) : Prop :=
  ∃ row ∈ s.ledger, row.key = r.day now ∧ row.status ≠ .queued

/-- An enabled schedule is due, and its day is not claimed. -/
structure Waiting (turn : Turn) (s : State) (tenant : String) (r : ScheduleRow) : Prop where
  mem : r ∈ s.schedules
  tenant : r.tenant = tenant
  enabled : r.enabled = true
  due : r.nextDue ≤ turn.look
  unclaimed : ¬ Claimed s r turn.now

/-- A tick of a tenant that is not frozen finds a waiting schedule. -/
def Finds (turn : Turn) (s : State) (tenant : String) : Prop :=
  s.db.frozen tenant = false ∧ ∃ r, Waiting turn s tenant r

/-- The schedule is disabled, or due only later. -/
def MovedOn (turn : Turn) (r : ScheduleRow) (t : State) : Prop :=
  ∃ r' ∈ t.schedules, r'.key = r.key ∧ (r'.enabled = false ∨ turn.now < r'.nextDue)

/-- `_digest` returns, or raises what the tick handles. -/
def Handled (x : Except Err String) : Prop :=
  ∀ e, x = .error e → e.isForbidden = true ∨ e.isValueError = true ∨ e.isLookupError = true

/-- The tick disables the schedule or moves it on: the owner check refuses, or it passes and the claim
raises, or it passes, the day is free and the digest is handled. -/
def Serves (turn : Turn) (s : State) (r : ScheduleRow) : Prop :=
  (∃ e, ownerCheck turn s r = .error e ∧ e.isForbidden = true) ∨
    ownerCheck turn s r = .ok () ∧
      (turn.raises = true ∨ ¬ Claimed s r turn.now ∧ Handled (turn.digest r))

/-- The first due schedule is waiting, and the tick serves it. -/
def Clear (turn : Turn) (s : State) (tenant : String) : Prop :=
  ∃ r, s.due tenant turn.look = some r ∧ ¬ Claimed s r turn.now ∧ Serves turn s r

/-- The day of the first due schedule is claimed. -/
def Blocked (turn : Turn) (s : State) (tenant : String) : Prop :=
  ∃ r, s.due tenant turn.look = some r ∧ Claimed s r turn.now

section Tick

variable {P : Platform} {turn : Turn} {s t : State} {tenant : String} {r : ScheduleRow} {now : Time}

theorem taskToLedger_ne_queued {status : Status} {v : LedgerStatus} (h : taskToLedger status = some v) :
    v ≠ .queued := by
  cases status <;> cases h <;> simp

/-- Settling claims no day, and frees none. -/
theorem claimed_settle : Claimed (s.settle tenant) r now ↔ Claimed s r now := by
  have hstatus : ∀ row : LedgerRow, row.status = .submitted →
      (s.verdict row).getD row.status ≠ .queued := by
    intro row hsubmitted
    cases hv : s.verdict row with
    | none => simp [hsubmitted]
    | some v =>
      obtain ⟨run, -, hv⟩ := Option.bind_eq_some_iff.1 hv
      obtain ⟨task, -, hv⟩ := Option.bind_eq_some_iff.1 hv
      exact taskToLedger_ne_queued hv
  constructor
  · rintro ⟨row', hrow', hkey, hne⟩
    obtain ⟨row, hrow, rfl⟩ := mem_update.1 hrow'
    by_cases hp : row.tenant = tenant ∧ row.status = .submitted
    · rw [if_pos (by simp [hp])] at hkey
      exact ⟨row, hrow, hkey, by simp [hp.2]⟩
    · rw [if_neg (by simpa using hp)] at hkey hne
      exact ⟨row, hrow, hkey, hne⟩
  · rintro ⟨row, hrow, hkey, hne⟩
    by_cases hp : row.tenant = tenant ∧ row.status = .submitted
    · exact ⟨_, mem_update_of_pos hrow (by simp [hp]), hkey, hstatus row hp.2⟩
    · exact ⟨row, mem_update_of_not hrow (by simpa using hp), hkey, hne⟩

theorem claim_of_claimed (h : Claimed s r now) : s.claim r now = (s, none) := by
  obtain ⟨row, hrow, hkey, hne⟩ := h
  have hget : Table.get LedgerRow.key (r.day now) s.ledger = some row := s.daily.get_eq hrow hkey
  unfold State.claim
  split
  · rename_i hnone
    rw [hnone] at hget
    cases hget
  · rename_i row' hrow'
    obtain rfl := Option.some.inj (hget.symm.trans hrow')
    rw [if_pos hne]

/-- A free day is claimed, which changes the ledger only. -/
theorem claim_of_free (h : ¬ Claimed s r now) : ∃ t n, s.claim r now = (t, some n) ∧
    t.schedules = s.schedules ∧ t.db = s.db := by
  unfold State.claim
  split
  · exact ⟨_, _, rfl, rfl, rfl⟩
  · rename_i row hget
    have hrow := mem_of_get hget
    have hkey := key_of_get hget
    have hqueued : row.status = .queued := by
      by_contra hne
      exact h ⟨row, hrow, hkey, hne⟩
    -- the row just read has its own attempt
    have hone : s.ledger.countP (fun x => decide (x.key = r.day now) &&
        decide (x.attempt = row.attempt)) = 1 := by
      refine s.daily.countP_eq_one hrow (by simp [hkey]) fun x _ hp => ?_
      simp only [Bool.and_eq_true, decide_eq_true_eq] at hp
      exact hp.1.trans hkey.symm
    simp only [hqueued, ne_eq, not_true_eq_false, if_false, hone, if_true]
    exact ⟨_, _, rfl, rfl, rfl⟩

/-- The schedules after a tick that serves `r`: it is disabled, or due one interval later. -/
def Left (rows : List ScheduleRow) (r : ScheduleRow) (now : Time) (rows' : List ScheduleRow) : Prop :=
  rows' = Table.update (fun x => decide (x.key = r.key)) (fun x => { x with enabled := false }) rows ∨
    rows' = Table.update (fun x => decide (x.key = r.key))
      (fun x => { x with nextDue := now + seconds r.intervalSeconds }) rows

theorem publish_left (h : Handled (turn.digest r)) :
    Left s.schedules r turn.now (publish P turn s r).1.schedules := by
  unfold publish
  split
  · rename_i e he
    dsimp only
    split
    · exact .inl rfl
    · rename_i hforbidden
      split
      · exact .inr rfl
      · rename_i hother
        simp only [Bool.or_eq_true, not_or] at hother
        rcases h e he with hf | hv | hl
        · exact absurd hf hforbidden
        · exact absurd hv hother.1
        · exact absurd hl hother.2
  · split
    · exact .inr rfl
    · dsimp only
      split
      · exact .inl rfl
      · exact .inr rfl

theorem publish_stuck (h : ¬ Handled (turn.digest r)) :
    (publish P turn s r).1.schedules = s.schedules := by
  unfold publish
  split
  · rename_i e he
    dsimp only
    split
    · rename_i hforbidden
      exact absurd (fun e' he' => .inl (by cases he.symm.trans he'; exact hforbidden)) h
    · split
      · rename_i hother
        rw [Bool.or_eq_true] at hother
        exact absurd (fun e' he' => .inr (by cases he.symm.trans he'; exact hother)) h
      · rfl
  · rename_i text htext
    exact absurd (fun e he => by rw [htext] at he; cases he) h

/-- **What a tick does to the schedules**: it serves the first due one, or leaves all as they are. -/
theorem tick_left (hdue : s.due tenant turn.look = some r) (h : Serves turn s r) :
    Left s.schedules r turn.now (tick P turn s tenant).1.schedules := by
  have hdue' : (s.settle tenant).due tenant turn.look = some r := hdue
  unfold tick
  simp only [hdue']
  rcases h with ⟨e, he, hforbidden⟩ | ⟨hok, h⟩
  · have hcheck : ownerCheck turn (s.settle tenant) r = .error e := he
    simp only [hcheck, hforbidden, if_true]
    exact .inl rfl
  · have hcheck : ownerCheck turn (s.settle tenant) r = .ok () := hok
    simp only [hcheck]
    by_cases hraises : turn.raises = true
    · rw [if_pos hraises]
      exact .inr rfl
    · obtain ⟨hfree, hhandled⟩ := h.resolve_left hraises
      rw [if_neg hraises]
      obtain ⟨t, n, hclaim, hschedules, -⟩ := claim_of_free (mt claimed_settle.1 hfree)
      rw [hclaim]
      have hleft := publish_left (P := P) (s := t) hhandled
      rw [hschedules] at hleft
      exact hleft

theorem tick_stuck (hdue : s.due tenant turn.look = some r) (h : ¬ Serves turn s r) :
    (tick P turn s tenant).1.schedules = s.schedules := by
  have hdue' : (s.settle tenant).due tenant turn.look = some r := hdue
  unfold tick
  simp only [hdue']
  cases hcheck : ownerCheck turn (s.settle tenant) r with
  | error e =>
    have he : ownerCheck turn s r = .error e := hcheck
    dsimp only
    split
    · rename_i hforbidden
      exact absurd (.inl ⟨e, he, hforbidden⟩) h
    · rfl
  | ok u =>
    have hok : ownerCheck turn s r = .ok () := hcheck
    dsimp only
    split
    · rename_i hraises
      exact absurd (.inr ⟨hok, .inl hraises⟩) h
    · by_cases hclaimed : Claimed s r turn.now
      · rw [claim_of_claimed (claimed_settle.2 hclaimed)]
        rfl
      · have hdigest : ¬ Handled (turn.digest r) := fun hd => h (.inr ⟨hok, .inr ⟨hclaimed, hd⟩⟩)
        obtain ⟨t, n, hclaim, hschedules, -⟩ := claim_of_free (mt claimed_settle.1 hclaimed)
        rw [hclaim]
        exact (publish_stuck hdigest).trans hschedules

theorem Left.movedOn (h : Left s.schedules r turn.now t.schedules) (hr : r ∈ s.schedules) : MovedOn turn r t := by
  rcases h with h | h
  · refine ⟨{ r with enabled := false }, ?_, rfl, .inl rfl⟩
    rw [h]
    exact mem_update_of_pos (p := fun x => decide (x.key = r.key))
      (f := fun x => { x with enabled := false }) hr (decide_eq_true rfl)
  · refine ⟨{ r with nextDue := turn.now + seconds r.intervalSeconds }, ?_, rfl, .inr ?_⟩
    · rw [h]
      exact mem_update_of_pos (p := fun x => decide (x.key = r.key))
        (f := fun x => { x with nextDue := turn.now + seconds r.intervalSeconds }) hr
        (decide_eq_true rfl)
    · have hpos : 300 * 1000000 ≤ r.intervalSeconds * 1000000 :=
        Int.mul_le_mul_of_nonneg_right r.interval.1 (by decide)
      exact Int.lt_add_of_pos_right _ (lt_of_lt_of_le (by decide) hpos)

theorem Left.others (h : Left s.schedules r now t.schedules) {r' : ScheduleRow} (hr' : r' ∈ s.schedules)
    (hne : r'.key ≠ r.key) : r' ∈ t.schedules := by
  rcases h with h | h
  all_goals
    rw [h]
    exact mem_update_of_not hr' (by simpa using hne)

theorem Waiting.not_movedOn (h : Waiting turn s tenant r) (hr : r ∈ t.schedules) :
    ¬ MovedOn turn r t := by
  rintro ⟨r', hr', hkey, hmoved⟩
  obtain rfl : r' = r := t.unique.eq_of_key hr' hr hkey
  rcases hmoved with hdisabled | hlater
  · rw [h.enabled] at hdisabled
    cases hdisabled
  · exact absurd (h.due.trans turn.ordered) (not_le.2 hlater)

theorem due_cases (h : s.due tenant now = some r) :
    r ∈ s.schedules ∧ r.tenant = tenant ∧ r.enabled = true ∧ r.nextDue ≤ now := by
  unfold State.due at h
  split at h
  · cases h
  · obtain ⟨hmem, hp⟩ := List.mem_filter.1 (mem_of_earliest h)
    simp only [Bool.and_eq_true, decide_eq_true_eq] at hp
    exact ⟨hmem, hp.1.1, hp.1.2, hp.2⟩

/-- **Progress on a waiting schedule** is made if and only if the first due schedule is waiting and is
served. -/
theorem progress_iff (h : Finds turn s tenant) :
    (∃ r, Waiting turn s tenant r ∧ MovedOn turn r (tick P turn s tenant).1) ↔ Clear turn s tenant := by
  obtain ⟨hfrozen, r₀, hwaiting⟩ := h
  constructor
  · rintro ⟨r, hr, hmoved⟩
    obtain ⟨head, hhead⟩ : ∃ head, s.due tenant turn.look = some head := by
      unfold State.due
      rw [hfrozen, if_neg Bool.false_ne_true]
      refine exists_earliest (List.mem_filter.2 ⟨hwaiting.mem, ?_⟩)
      simp [hwaiting.tenant, hwaiting.enabled, hwaiting.due]
    by_cases hserves : Serves turn s head
    · have hkey : r.key = head.key := by
        by_contra hne
        exact hr.not_movedOn ((tick_left hhead hserves).others hr.mem hne) hmoved
      obtain rfl : r = head := s.unique.eq_of_key hr.mem (due_cases hhead).1 hkey
      exact ⟨r, hhead, hr.unclaimed, hserves⟩
    · refine absurd hmoved (hr.not_movedOn ?_)
      rw [tick_stuck hhead hserves]
      exact hr.mem
  · rintro ⟨r, hhead, hunclaimed, hserves⟩
    obtain ⟨hmem, htenant, henabled, hdue⟩ := due_cases hhead
    exact ⟨r, ⟨hmem, htenant, henabled, hdue, hunclaimed⟩, (tick_left hhead hserves).movedOn hmem⟩

end Tick

/-! ### Blocked ticks -/

section Blocked

variable {P : Platform} {turn : Turn} {s t : State} {tenant : String} {D : ℤ}

theorem tick_blocked (h : Blocked turn s tenant) :
    (tick P turn s tenant).1.ledger.map LedgerRow.key = s.ledger.map LedgerRow.key := by
  obtain ⟨r, hdue, hclaimed⟩ := h
  have hsettle : (s.settle tenant).ledger.map LedgerRow.key = s.ledger.map LedgerRow.key :=
    map_update fun _ _ _ => rfl
  have hdue' : (s.settle tenant).due tenant turn.look = some r := hdue
  unfold tick
  simp only [hdue']
  split
  · split
    · exact hsettle
    · exact hsettle
  · split
    · exact hsettle
    · rw [claim_of_claimed (claimed_settle.2 hclaimed)]
      exact hsettle

/-- No day of the ledger is later than `D`. -/
def Through (s : State) (D : ℤ) : Prop := ∀ k ∈ s.ledger.map LedgerRow.key, k.2.2 ≤ D

theorem exists_through (s : State) : ∃ D, Through s D := by
  have hfinite : {d | ∃ k ∈ s.ledger.map LedgerRow.key, k.2.2 = d}.Finite :=
    ((s.ledger.map LedgerRow.key).finite_toSet).image fun k : String × String × ℤ => k.2.2
  obtain ⟨D, hD⟩ := hfinite.bddAbove
  exact ⟨D, fun k hk => hD ⟨k, hk, rfl⟩⟩

/-- A time whose day is at most `D` for some schedule. -/
theorem lt_of_dayKey_le {now : Time} {r : ScheduleRow} (h : dayKey now r ≤ D) :
    now < ((D + 1) * 86400 + 86401) * 1000000 := by
  obtain ⟨hlow, -⟩ := r.offset
  unfold dayKey at h
  have hday : (now + seconds (r.timezoneOffsetMinutes * 60)).tdiv 1000000 < (D + 1) * 86400 :=
    Int.lt_mul_of_ediv_lt (by decide) (Int.lt_add_one_of_le h)
  have hsecond := Int.lt_tdiv_add_one_mul_self (now + seconds (r.timezoneOffsetMinutes * 60))
    (show (0 : ℤ) < 1000000 by decide)
  have hstamp : ((now + seconds (r.timezoneOffsetMinutes * 60)).tdiv 1000000 + 1) * 1000000 ≤
      ((D + 1) * 86400) * 1000000 :=
    Int.mul_le_mul_of_nonneg_right hday (by decide)
  unfold seconds at hsecond hstamp
  generalize (now + r.timezoneOffsetMinutes * 60 * 1000000).tdiv 1000000 = q at hsecond hstamp
  unfold Time at *
  omega

theorem Step.through {l : Label} (hblocked : ∀ turn tenant, l = .tick turn tenant → Blocked turn s tenant)
    (h : Through s D) (hs : Step P s l t) : Through t D := by
  obtain rfl := hs
  cases l with
  | tick turn tenant =>
    have hkeys := tick_blocked (P := P) (hblocked turn tenant rfl)
    intro k hk
    exact h k (hkeys ▸ hk)
  | configure => exact h
  | engine => exact h

/-- **A blocked schedule does not block for ever.** From any state there is a time before which every
tick of a run is whose ticks are all blocked. -/
theorem blocked_bounded (P : Platform) (s : State) : ∃ B : Time, ∀ τs t, Run (Step P) s τs t →
    (∀ τ ∈ τs, ∀ turn tenant, τ.label = .tick turn tenant → Blocked turn τ.src tenant) →
    ∀ τ ∈ τs, ∀ turn tenant, τ.label = .tick turn tenant → turn.now < B := by
  obtain ⟨D, hD⟩ := exists_through s
  refine ⟨((D + 1) * 86400 + 86401) * 1000000, fun τs t h hblocked τ hτ turn tenant hl => ?_⟩
  have hguard : Run (guarded
      (fun s l => ∀ turn tenant, l = .tick turn tenant → Blocked turn s tenant) (Step P)) s τs t :=
    h.guard hblocked
  obtain ⟨-, hthrough⟩ := hguard.always hD (fun _ _ _ hi hs => Step.through hs.2 hi hs.1) hτ
  obtain ⟨r, -, row, hrow, hkey, -⟩ := hblocked τ hτ turn tenant hl
  have hday := hthrough row.key (List.mem_map_of_mem hrow)
  rw [hkey] at hday
  exact lt_of_dayKey_le hday

end Blocked

/-- **Briefing progress.** A tick that finds a waiting schedule makes progress on one if and only if the
first due schedule is itself waiting and nothing the tick does not handle is raised for it; and from no
state on are ticks blocked for ever by schedules whose day is claimed. -/
theorem briefing_progress (P : Platform) :
    (∀ turn s tenant, Finds turn s tenant →
      ((∃ r, Waiting turn s tenant r ∧ MovedOn turn r (tick P turn s tenant).1) ↔
        Clear turn s tenant)) ∧
    ∀ s, ∃ B : Time, ∀ τs t, Run (Step P) s τs t →
      (∀ τ ∈ τs, ∀ turn tenant, τ.label = .tick turn tenant → Blocked turn τ.src tenant) →
      ∀ τ ∈ τs, ∀ turn tenant, τ.label = .tick turn tenant → turn.now < B :=
  ⟨fun _ _ _ => progress_iff, blocked_bounded P⟩

/-! Two schedules: the first every five minutes, the second due later. -/

def sampleSchedule (id : String) (due : ℕ) : ScheduleRow :=
  { tenant := "acme", id := id, actor := "dana", agent := "clerk", recipient := "7"
    intervalSeconds := 300, timezoneOffsetMinutes := 300, enabled := true, nextDue := seconds due
    interval := by decide, offset := by decide }

def configured : Label :=
  .configure [sampleSchedule "brief" 300, sampleSchedule "weekly" 700] (by
    unfold Keyed
    decide +kernel)

def sampleTurn (second : ℕ) : Turn where
  look := seconds second
  env := sampleEnv second
  now := seconds second
  raises := false
  digest _ := .ok "Kunlik brifing"
  send := { sampleEnv second with
    policy := fun _ _ => .ok (.obj [("allowed_recipients", .arr [.str "7"]),
      ("ladder", .str "autonomous"), ("tools", .arr [.str "telegram.send"])]) }
  ordered := le_rfl

def sampleState (ls : List Label) : State := ls.foldl (State.after replyPlatform) {}

instance (s : State) (r : ScheduleRow) (now : Time) : Decidable (Claimed s r now) :=
  inferInstanceAs (Decidable (∃ row ∈ s.ledger, row.key = r.day now ∧ row.status ≠ .queued))

theorem waiting_sample {second : ℕ} {s : State} {r : ScheduleRow}
    (h : r ∈ s.schedules ∧ r.tenant = "acme" ∧ r.enabled = true ∧ r.nextDue ≤ seconds second ∧
      ¬ Claimed s r (seconds second)) : Waiting (sampleTurn second) s "acme" r := by
  obtain ⟨hmem, htenant, henabled, hdue, hunclaimed⟩ := h
  exact ⟨hmem, htenant, henabled, hdue, hunclaimed⟩

theorem briefing_progress_sample : ∃ r, Waiting (sampleTurn 300) (sampleState [configured]) "acme" r ∧
    MovedOn (sampleTurn 300) r
      (tick replyPlatform (sampleTurn 300) (sampleState [configured]) "acme").1 := by
  have hfind : ∃ r ∈ (sampleState [configured]).schedules, r.tenant = "acme" ∧ r.enabled = true ∧
      r.nextDue ≤ seconds (300 : ℕ) ∧ ¬ Claimed (sampleState [configured]) r (seconds (300 : ℕ)) := by
    decide +kernel
  obtain ⟨r, hr⟩ := hfind
  have hfinds : Finds (sampleTurn 300) (sampleState [configured]) "acme" := ⟨rfl, r, waiting_sample hr⟩
  refine ((briefing_progress replyPlatform).1 _ _ _ hfinds).2 ?_
  refine ⟨sampleSchedule "brief" 300, rfl, by decide +kernel, .inr ⟨rfl, .inr ⟨by decide +kernel, ?_⟩⟩⟩
  intro e he
  cases he

/-- The first schedule is delivered and due again five minutes later; then it holds up the second one. -/
theorem briefing_held_up :
    ¬ ∀ (P : Platform) (τs : List (Transition State Label)) (s : State) (turn : Turn)
        (tenant : String), Run (Step P) {} τs s → Finds turn s tenant →
      ∃ r, Waiting turn s tenant r ∧ MovedOn turn r (tick P turn s tenant).1 := by
  intro h
  have hrun : Run (Step replyPlatform) {} _ (sampleState [configured, .tick (sampleTurn 300) "acme"]) :=
    Run.nil.calls _
  generalize hs : sampleState [configured, .tick (sampleTurn 300) "acme"] = s at hrun
  obtain ⟨hfind, hhead⟩ : (∃ r ∈ s.schedules, r.tenant = "acme" ∧ r.enabled = true ∧
      r.nextDue ≤ seconds (700 : ℕ) ∧ ¬ Claimed s r (seconds (700 : ℕ))) ∧
      (s.due "acme" (seconds (700 : ℕ))).all (fun r => decide (Claimed s r (seconds (700 : ℕ)))) =
        true := by
    subst hs
    decide +kernel
  obtain ⟨r, hr⟩ := hfind
  have hfinds : Finds (sampleTurn 700) s "acme" := ⟨by subst hs; decide +kernel, r, waiting_sample hr⟩
  obtain ⟨head, hdue, hunclaimed, -⟩ := (progress_iff hfinds).1 (h replyPlatform _ s _ _ hrun hfinds)
  have hdue' : s.due "acme" (seconds (700 : ℕ)) = some head := hdue
  rw [hdue'] at hhead
  exact hunclaimed (of_decide_eq_true hhead)

end AgentPlatform.Briefing
