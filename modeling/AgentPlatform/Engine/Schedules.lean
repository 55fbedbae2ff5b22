import AgentPlatform.Engine.Idempotency
import AgentPlatform.Engine.Sequencing

/-!
# Schedules

`schedule` and `run_schedules`. A call of `run_schedules` submits the task of every due schedule in
turn, each under a key made of the schedule and its slot, and then moves the schedule on; `Forbidden`
disables the schedule, and any other exception ends the call.

* `Isolated` says that a call leaves every due schedule handled but for one whose own submission failed,
  and none stuck on a conflict;
* `isolated_iff` says exactly when it does (`Clear`).
-/

namespace AgentPlatform.Engine

open Outcome Table

/-! ### The tables -/

/-- A row of `p_schedules`, with the bounds `schedule` checks. -/
structure ScheduleRow where
  tenant : String
  id : String
  agent : String
  steps : List Json
  intervalSeconds : ℤ
  nextDue : Time
  enabled : Bool
  bounds : 60 ≤ intervalSeconds ∧ intervalSeconds ≤ 31536000

/-- The primary key of a schedule. -/
def ScheduleRow.key (r : ScheduleRow) : String × String := (r.tenant, r.id)

/-- A row of `p_schedule_owners`. -/
structure ScheduleOwner where
  tenant : String
  id : String
  actor : String

/-- The database and the schedules; the primary key of `p_schedules` is unique. -/
structure Calendar where
  db : Db := {}
  schedules : List ScheduleRow := []
  owners : List ScheduleOwner := []
  unique : Keyed ScheduleRow.key schedules := by exact keyed_nil _

namespace Calendar

/-- `UPDATE p_schedules SET f WHERE p`. -/
def setSchedules (s : Calendar) (p : ScheduleRow → Bool) (f : ScheduleRow → ScheduleRow)
    (hf : ∀ r, (f r).key = r.key) : Calendar :=
  { s with
    schedules := Table.update p f s.schedules
    unique := s.unique.update hf }

/-- The row of a schedule. -/
def row? (s : Calendar) (tenant id : String) : Option ScheduleRow :=
  Table.get ScheduleRow.key (tenant, id) s.schedules

/-- The actor a schedule's task is submitted for. -/
def actorOf (s : Calendar) (r : ScheduleRow) : String :=
  ((s.owners.find? fun o => decide (o.tenant = r.tenant) && decide (o.id = r.id)).map
    ScheduleOwner.actor).getD "scheduler"

end Calendar

/-! ### The operations -/

/-- The digits of a fraction of a second, without the zeros at their end. -/
def fractionText (micros : ℕ) : String :=
  let digits := (toString (1000000 + micros)).toList.drop 1
  match (digits.reverse.dropWhile fun c => c = '0').reverse with
  | [] => "0"
  | cs => String.ofList cs

/-- `str(t)` of a reading of the clock. -/
def timeText (t : Time) : String :=
  toString (t / 1000000) ++ "." ++ fractionText (t % 1000000).toNat

/-- `r['id'] + ':' + str(r['next_due'])`. -/
def ScheduleRow.eventKey (r : ScheduleRow) : String := r.id ++ ":" ++ timeText r.nextDue

/-- `INSERT INTO p_schedules … ON CONFLICT(tenant,id) DO UPDATE`: the slot of a schedule that exists
stays. -/
def Calendar.put (s : Calendar) (row : ScheduleRow) : Calendar :=
  if h : s.row? row.tenant row.id = none then
    { s with
      schedules := s.schedules ++ [row]
      unique := s.unique.insert (get_eq_none.1 h) }
  else
    s.setSchedules (fun r => decide (r.key = row.key)) (fun r =>
      { r with
        agent := row.agent, steps := row.steps, intervalSeconds := row.intervalSeconds, enabled := true
        bounds := row.bounds }) fun _ => rfl

/-- `schedule`. -/
def schedule (P : Platform) (env : Env) (s : Calendar) (tenant id agent : String)
    (steps : List Json) (intervalSeconds : ℤ) (actor : String) : Except Err Calendar :=
  if bounds : 60 ≤ intervalSeconds ∧ intervalSeconds ≤ 31536000 then do
    let _ ← validated P env tenant agent steps
    env.requireActive s.db tenant
    env.requireAuthority tenant "cron" actor ["owner"]
    let owns := fun o : ScheduleOwner => decide (o.tenant = tenant) && decide (o.id = id)
    let owners := if s.owners.any owns then
        Table.update owns (fun o => { o with actor := actor }) s.owners
      else s.owners ++ [⟨tenant, id, actor⟩]
    pure (Calendar.put { s with owners := owners }
      ⟨tenant, id, agent, steps, intervalSeconds, env.now + seconds intervalSeconds, true, bounds⟩)
  else .error (.valueError "Interval must be an integer within bounds")

/-- The schedules a call finds due. -/
def Calendar.due (s : Calendar) (tenant : String) (now : Time) : List ScheduleRow :=
  if s.db.frozen tenant then []
  else s.schedules.filter fun r =>
    decide (r.tenant = tenant) && r.enabled && decide (r.nextDue ≤ now)

/-- What a call meets when it gets to a schedule: the environment of the submission, and how long after
its start it reads the clock to move the schedule on. -/
structure Turn where
  env : Env
  elapsed : ℕ

/-- The submission of a due schedule. -/
def submitDue (P : Platform) (env : Env) (s : Calendar) (r : ScheduleRow) : Except Err (Db × Uuid) :=
  submit P env s.db r.tenant "cron" r.eventKey r.agent r.steps (s.actorOf r)

namespace Calendar

/-- `UPDATE p_schedules SET enabled=0`. -/
def disable (s : Calendar) (r : ScheduleRow) : Calendar :=
  s.setSchedules (fun x => decide (x.key = r.key)) (fun x => { x with enabled := false }) fun _ => rfl

/-- `UPDATE p_schedules SET next_due=? … AND next_due=?`. -/
def advance (s : Calendar) (r : ScheduleRow) (now : Time) : Calendar :=
  s.setSchedules (fun x => decide (x.key = r.key) && decide (x.nextDue = r.nextDue))
    (fun x => { x with nextDue := now + seconds r.intervalSeconds }) fun _ => rfl

end Calendar

/-- The loop of `run_schedules`, with the number of tasks submitted so far. -/
def runDue (P : Platform) (turns : String → Turn) (start : Time) :
    List ScheduleRow → Calendar → ℕ → Calendar × Except Err ℕ
  | [], s, submitted => (s, .ok submitted)
  | r :: rs, s, submitted =>
    match submitDue P (turns r.id).env s r with
    | .ok (db, _) =>
      runDue P turns start rs
        (Calendar.advance { s with db := db } r (start + (turns r.id).elapsed)) (submitted + 1)
    | .error e =>
      if e.isForbidden then runDue P turns start rs (s.disable r) submitted else (s, .error e)

/-- `run_schedules`. -/
def runSchedules (P : Platform) (turns : String → Turn) (start : Time) (s : Calendar)
    (tenant : String) : Calendar × Except Err ℕ :=
  runDue P turns start (s.due tenant start) s 0

/-! ### What a call leaves behind -/

/-- The submissions the loop makes, in order. -/
def outcomes (P : Platform) (turns : String → Turn) (start : Time) :
    List ScheduleRow → Calendar → List (ScheduleRow × Except Err Uuid)
  | [], _ => []
  | r :: rs, s =>
    match submitDue P (turns r.id).env s r with
    | .ok (db, id) =>
      (r, .ok id) :: outcomes P turns start rs
        (Calendar.advance { s with db := db } r (start + (turns r.id).elapsed))
    | .error e =>
      (r, .error e) :: if e.isForbidden then outcomes P turns start rs (s.disable r) else []

/-- `isinstance(e, Conflict)`. -/
def isConflict : Err → Bool
  | .conflict _ => true
  | _ => false

/-- A due schedule is handled: submitted and moved on to its next slot, or disabled. -/
def Handled (s : Calendar) (r : ScheduleRow) : Prop :=
  ∃ r' ∈ s.schedules, r'.key = r.key ∧
    (r'.enabled = false ∨ (r.tenant, "cron", r.eventKey) ∈ s.db.keys ∧ r.nextDue < r'.nextDue)

/-- Every due schedule is handled, but for one whose own submission failed, and not on a conflict, on
which it would fail again. -/
def Isolated (P : Platform) (turns : String → Turn) (start : Time) (rs : List ScheduleRow)
    (s : Calendar) : Prop :=
  ∀ r ∈ rs, Handled (runDue P turns start rs s 0).1 r ∨
    ∃ e, (r, .error e) ∈ outcomes P turns start rs s ∧ isConflict e = false

/-- Each submission in turn succeeds or raises `Forbidden`, but for the last, which may raise anything
but a `Conflict`. -/
def Clear (P : Platform) (turns : String → Turn) (start : Time) : List ScheduleRow → Calendar → Prop
  | [], _ => True
  | r :: rs, s =>
    match submitDue P (turns r.id).env s r with
    | .ok (db, _) =>
      Clear P turns start rs
        (Calendar.advance { s with db := db } r (start + (turns r.id).elapsed))
    | .error e =>
      if e.isForbidden then Clear P turns start rs (s.disable r)
      else rs = [] ∧ isConflict e = false

section Loop

variable {P : Platform} {turns : String → Turn} {start : Time} {s : Calendar} {r : ScheduleRow}
  {rs : List ScheduleRow}

theorem submitDue_keys {env : Env} {db : Db} {id : Uuid} (h : submitDue P env s r = .ok (db, id)) :
    (r.tenant, "cron", r.eventKey) ∈ db.keys ∧ ∀ k ∈ s.db.keys, k ∈ db.keys := by
  refine ⟨submit_keys h, fun k hk => ?_⟩
  rcases (submit_effect h).keys with heq | ⟨k', -, -, heq⟩
  · rwa [heq]
  · rw [heq]
    exact List.mem_append_left _ hk

theorem runDue_fst (rs : List ScheduleRow) (s : Calendar) (n m : ℕ) :
    (runDue P turns start rs s n).1 = (runDue P turns start rs s m).1 := by
  induction rs generalizing s n m with
  | nil => rfl
  | cons r rs ih =>
    unfold runDue
    split
    · exact ih _ _ _
    · split
      · exact ih _ _ _
      · rfl

/-- The loop writes only the rows of its own schedules, and loses no task. -/
theorem runDue_kept {x : ScheduleRow} (n : ℕ) (hx : x ∈ s.schedules) (hne : ∀ r ∈ rs, x.key ≠ r.key) :
    x ∈ (runDue P turns start rs s n).1.schedules ∧
      ∀ k ∈ s.db.keys, k ∈ (runDue P turns start rs s n).1.db.keys := by
  induction rs generalizing s n with
  | nil => exact ⟨hx, fun _ hk => hk⟩
  | cons r rs ih =>
    obtain ⟨hr, hrs⟩ := List.forall_mem_cons.1 hne
    unfold runDue
    split
    · rename_i db id hsubmit
      have hx' : x ∈ (Calendar.advance { s with db := db } r
          (start + (turns r.id).elapsed)).schedules := mem_update_of_not hx (by simp [hr])
      obtain ⟨hkept, hkeys⟩ := ih (n + 1) hx' hrs
      exact ⟨hkept, fun k hk => hkeys k ((submitDue_keys hsubmit).2 k hk)⟩
    · split
      · exact ih n (mem_update_of_not hx (by simp [hr])) hrs
      · exact ⟨hx, fun _ hk => hk⟩

theorem Handled.kept (h : Handled s r) (n : ℕ) (hne : ∀ r' ∈ rs, r.key ≠ r'.key) :
    Handled (runDue P turns start rs s n).1 r := by
  obtain ⟨r', hr', hkey, hcase⟩ := h
  obtain ⟨hkept, hkeys⟩ : r' ∈ (runDue P turns start rs s n).1.schedules ∧
      ∀ k ∈ s.db.keys, k ∈ (runDue P turns start rs s n).1.db.keys :=
    runDue_kept n hr' fun x hx => hkey ▸ hne x hx
  exact ⟨r', hkept, hkey, hcase.imp_right fun h => ⟨hkeys _ h.1, h.2⟩⟩

theorem handled_advance {db : Db} {now : Time} (hr : r ∈ s.schedules)
    (hkey : (r.tenant, "cron", r.eventKey) ∈ db.keys) (hnow : r.nextDue ≤ now) :
    Handled (Calendar.advance { s with db := db } r now) r := by
  refine ⟨{ r with nextDue := now + seconds r.intervalSeconds },
    mem_update_of_pos (f := fun x : ScheduleRow => { x with
      nextDue := now + seconds r.intervalSeconds }) hr (by simp), rfl, .inr ⟨hkey, ?_⟩⟩
  have hlow := r.bounds.1
  have hseconds : (0 : ℤ) < r.intervalSeconds * 1000000 := by omega
  exact lt_of_le_of_lt hnow (lt_add_of_pos_right now hseconds)

theorem handled_disable (hr : r ∈ s.schedules) : Handled (s.disable r) r :=
  ⟨{ r with enabled := false }, mem_update_of_pos (f := fun x : ScheduleRow => { x with
    enabled := false }) hr (by simp), rfl, .inl rfl⟩

theorem not_handled (hr : r ∈ s.schedules) (henabled : r.enabled = true) : ¬ Handled s r := by
  rintro ⟨r', hr', hkey, hcase⟩
  obtain rfl := s.unique.eq_of_key hr' hr hkey
  rcases hcase with hdisabled | ⟨-, hlt⟩
  · rw [henabled] at hdisabled
    cases hdisabled
  · exact lt_irrefl _ hlt

/-- The rows the loop still has to come to: enabled, due, and each one once. -/
structure Waiting (start : Time) (s : Calendar) (rs : List ScheduleRow) : Prop where
  stored : ∀ r ∈ rs, r ∈ s.schedules
  enabled : ∀ r ∈ rs, r.enabled = true
  due : ∀ r ∈ rs, r.nextDue ≤ start
  distinct : Keyed ScheduleRow.key rs

theorem Waiting.ne (h : Waiting start s (r :: rs)) : ∀ x ∈ rs, r.key ≠ x.key := by
  intro x hx heq
  have hnodup := List.nodup_cons.1 h.distinct
  exact hnodup.1 (heq ▸ List.mem_map_of_mem hx)

theorem Waiting.next (h : Waiting start s (r :: rs)) {s' : Calendar}
    {p : ScheduleRow → Bool} {f : ScheduleRow → ScheduleRow}
    (hs : s'.schedules = Table.update p f s.schedules) (hp : ∀ x, p x = true → x.key = r.key) :
    Waiting start s' rs where
  stored x hx := by
    rw [hs]
    refine mem_update_of_not (h.stored x (List.mem_cons_of_mem _ hx)) ?_
    exact Bool.not_eq_true _ ▸ fun hpx => h.ne x hx (hp x hpx).symm
  enabled x hx := h.enabled x (List.mem_cons_of_mem _ hx)
  due x hx := h.due x (List.mem_cons_of_mem _ hx)
  distinct := (List.nodup_cons.1 h.distinct).2

/-- The first schedule was handled by its own turn: the call is isolated if its rest is. -/
theorem isolated_cons {s' : Calendar} {o : Except Err Uuid} (hne : ∀ x ∈ rs, r.key ≠ x.key)
    (hrun : (runDue P turns start (r :: rs) s 0).1 = (runDue P turns start rs s' 0).1)
    (houtcomes : outcomes P turns start (r :: rs) s = (r, o) :: outcomes P turns start rs s')
    (hhandled : Handled s' r) :
    Isolated P turns start (r :: rs) s ↔ Isolated P turns start rs s' := by
  unfold Isolated
  rw [hrun, houtcomes, List.forall_mem_cons]
  constructor
  · rintro ⟨-, hrest⟩ x hx
    refine (hrest x hx).imp_right ?_
    rintro ⟨e, he, hconflict⟩
    rcases List.mem_cons.1 he with heq | he
    · exact absurd (congrArg ScheduleRow.key (Prod.mk.inj heq).1).symm (hne x hx)
    · exact ⟨e, he, hconflict⟩
  · intro hrest
    refine ⟨.inl (hhandled.kept 0 hne), fun x hx => (hrest x hx).imp_right ?_⟩
    rintro ⟨e, he, hconflict⟩
    exact ⟨e, List.mem_cons_of_mem _ he, hconflict⟩

/-- The first submission ends the call. -/
theorem isolated_stopped (h : Waiting start s (r :: rs)) {e : Err}
    (hrun : (runDue P turns start (r :: rs) s 0).1 = s)
    (houtcomes : outcomes P turns start (r :: rs) s = [(r, .error e)]) :
    Isolated P turns start (r :: rs) s ↔ rs = [] ∧ isConflict e = false := by
  have hnot : ∀ x ∈ r :: rs, ¬ Handled s x :=
    fun x hx => not_handled (h.stored x hx) (h.enabled x hx)
  unfold Isolated
  rw [hrun, houtcomes]
  constructor
  · intro hall
    refine ⟨List.eq_nil_iff_forall_not_mem.2 fun x hx => ?_, ?_⟩
    · rcases hall x (List.mem_cons_of_mem _ hx) with hhandled | ⟨e', he', -⟩
      · exact hnot x (List.mem_cons_of_mem _ hx) hhandled
      · obtain heq := List.mem_singleton.1 he'
        exact h.ne x hx (congrArg ScheduleRow.key (Prod.mk.inj heq).1).symm
    · rcases hall r List.mem_cons_self with hhandled | ⟨e', he', hconflict⟩
      · exact absurd hhandled (hnot r List.mem_cons_self)
      · obtain heq := List.mem_singleton.1 he'
        rwa [Except.error.inj (Prod.mk.inj heq).2] at hconflict
  · rintro ⟨rfl, hconflict⟩ x hx
    obtain rfl := List.mem_singleton.1 hx
    exact .inr ⟨e, List.mem_singleton_self _, hconflict⟩

theorem isolated_iff_clear (h : Waiting start s rs) :
    Isolated P turns start rs s ↔ Clear P turns start rs s := by
  induction rs generalizing s with
  | nil => exact ⟨fun _ => trivial, fun _ _ hr => absurd hr List.not_mem_nil⟩
  | cons r rs ih =>
    have hr := h.stored r List.mem_cons_self
    cases hsubmit : submitDue P (turns r.id).env s r with
    | ok done =>
      obtain ⟨db, id⟩ := done
      have hhandled : Handled (Calendar.advance { s with db := db } r
          (start + (turns r.id).elapsed)) r := by
        refine handled_advance hr (submitDue_keys hsubmit).1 ?_
        exact (h.due r List.mem_cons_self).trans (le_add_of_nonneg_right (Int.natCast_nonneg _))
      have hclear : Clear P turns start (r :: rs) s ↔ Clear P turns start rs
          (Calendar.advance { s with db := db } r (start + (turns r.id).elapsed)) := by
        rw [Clear, hsubmit]
      rw [hclear, ← ih (h.next rfl fun x hx => by simp_all)]
      refine isolated_cons (o := .ok id) h.ne ?_ ?_ hhandled
      · rw [runDue, hsubmit]
        exact runDue_fst _ _ _ _
      · rw [outcomes, hsubmit]
    | error e =>
      by_cases hforbidden : e.isForbidden = true
      · have hclear : Clear P turns start (r :: rs) s ↔ Clear P turns start rs (s.disable r) := by
          rw [Clear, hsubmit]
          simp only [hforbidden, if_true]
        rw [hclear, ← ih (h.next rfl fun x hx => by simpa using hx)]
        refine isolated_cons (o := .error e) h.ne ?_ ?_ (handled_disable hr)
        · rw [runDue, hsubmit]
          simp only [hforbidden, if_true]
        · rw [outcomes, hsubmit]
          simp only [hforbidden, if_true]
      · have hclear : Clear P turns start (r :: rs) s ↔ rs = [] ∧ isConflict e = false := by
          rw [Clear, hsubmit]
          simp only [hforbidden, if_false, Bool.false_eq_true]
        rw [hclear]
        refine isolated_stopped h ?_ ?_
        · rw [runDue, hsubmit]
          simp only [hforbidden, if_false, Bool.false_eq_true]
        · rw [outcomes, hsubmit]
          simp only [hforbidden, if_false, Bool.false_eq_true]

/-- **Schedules are isolated only from `Forbidden`.** A call handles every due schedule, but for one
whose own submission failed, and leaves none stuck on a conflict, if and only if each submission it
makes in turn succeeds or raises `Forbidden`, but for the last, which may raise anything but a
conflict. -/
theorem schedules_isolated (P : Platform) (turns : String → Turn) (start : Time) (s : Calendar)
    (tenant : String) : Isolated P turns start (s.due tenant start) s ↔
      Clear P turns start (s.due tenant start) s := by
  refine isolated_iff_clear ?_
  unfold Calendar.due
  split
  · exact ⟨by simp, by simp, by simp, keyed_nil _⟩
  · refine ⟨fun r hr => (List.mem_filter.1 hr).1, fun r hr => ?_, fun r hr => ?_, ?_⟩
    · have h := (List.mem_filter.1 hr).2
      simp only [Bool.and_eq_true, decide_eq_true_eq] at h
      exact h.1.2
    · have h := (List.mem_filter.1 hr).2
      simp only [Bool.and_eq_true, decide_eq_true_eq] at h
      exact h.2
    · exact s.unique.sublist (List.filter_sublist.map _)

/-! Two schedules. A call submits the slot of the first and crashes before it moves it on; then the
owner gives the first another step. -/

def sampleSchedule (second : ℕ) (s : Calendar) (id tool : String) : Except Err Calendar :=
  schedule samplePlatform (sampleEnv second) s "acme" id "clerk" [.obj [("tool", .str tool)]] 60 "dana"

def changedSchedule : Except Err Calendar := do
  let s ← sampleSchedule 0 {} "daily" "note"
  let s ← sampleSchedule 0 s "weekly" "note"
  let r ← need (s.row? "acme" "daily") (.notFound "")
  let (db, _) ← submitDue samplePlatform (sampleEnv 60) s r
  sampleSchedule 61 { s with db := db } "daily" "pay"

def stuckCalendar : Calendar := changedSchedule.toOption.getD {}

def sampleTurns (second : ℕ) : String → Turn := fun _ => ⟨sampleEnv second, 0⟩

/-- The call of a minute, and whether it raises a conflict. -/
def sampleCall (second : ℕ) (s : Calendar) : Calendar × Bool :=
  let (t, out) := runSchedules samplePlatform (sampleTurns second) (seconds second) s "acme"
  (t, match out with
    | .error e => isConflict e
    | .ok _ => false)

/-- The second schedule is never come to, and every later call raises the conflict again. -/
theorem schedules_starved :
    ¬ Isolated samplePlatform (sampleTurns 62) (seconds 62) (stuckCalendar.due "acme" (seconds 62))
      stuckCalendar ∧
    (sampleCall 62 stuckCalendar).2 = true ∧
      (sampleCall 3600 (sampleCall 62 stuckCalendar).1).2 = true := by
  refine ⟨fun h => ?_, by decide +kernel, by decide +kernel⟩
  obtain ⟨r, hr, hid, hnot⟩ : ∃ r ∈ stuckCalendar.due "acme" (seconds 62), r.id = "weekly" ∧
      ∀ r' ∈ (sampleCall 62 stuckCalendar).1.schedules, r'.key = r.key →
        r'.enabled = true ∧ r'.nextDue ≤ r.nextDue := by decide +kernel
  rcases h r hr with ⟨r', hr', hkey, hcase⟩ | ⟨e, he, -⟩
  · obtain ⟨henabled, hle⟩ := hnot r' hr' hkey
    rcases hcase with hdisabled | ⟨-, hlt⟩
    · rw [henabled] at hdisabled
      cases hdisabled
    · exact absurd hlt (not_lt.2 hle)
  · have htried : ∀ o ∈ outcomes samplePlatform (sampleTurns 62) (seconds 62)
        (stuckCalendar.due "acme" (seconds 62)) stuckCalendar, o.1.id = "daily" := by decide +kernel
    have hdaily : r.id = "daily" := htried _ he
    rw [hid] at hdaily
    exact absurd hdaily (by decide)

end Loop

end AgentPlatform.Engine
