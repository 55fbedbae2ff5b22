import Mathlib.Data.List.Count
import Mathlib.Data.List.Nodup
import Mathlib.Data.List.Rotate
import AgentPlatform.Base
import AgentPlatform.Lib.Runs

/-!
# The planner pool

`PlannerPool.pump` of `app/worker.py`, with `AgentLoop.reserve_next` under it. A pump collects the finished
calls, then goes round the tenants and their sources until the pool is full or every source has retired:
it raised, had nothing, or its tenant had no room.

The database is a parameter `W` with what the pump asks of it, so that its answers may be any; between two
pumps calls finish and the database changes in any order.
-/

namespace AgentPlatform.Worker

open Runs

/-- The sources of calls. -/
inductive Stage
  | agentLoop
  | processEvent
  deriving DecidableEq, Repr

/-- A source of a tenant. -/
abbrev Entry := String × Stage

/-- What the pump asks of the engine. Every answer comes with the database after it. -/
structure Engine (W : Type) where
  /-- `UsageBudget.summary`: the parallel limit and the calls that count against it; `NotFound` where
  there is no budget. -/
  summary : W → String → W × Except Err (ℤ × ℤ)
  /-- `_candidates` -/
  candidates : W → String → W × Except Err (List Uuid)
  /-- `_reserve`: whether the run moved, and whether it was reserved. -/
  reserve : W → String → Uuid → W × Except Err (Bool × Bool)
  /-- `EventRouting.claim`: whether an event was claimed. -/
  claim : W → String → W × Except Err Bool

/-- The arguments of `PlannerPool`. -/
structure Settings where
  workers : ℕ := 8
  perTenant : ℤ := 4
  /-- Whether `events` is given. -/
  events : Bool

/-- A submitted call, by the number of its future; `run` is `None` for an inbound event. -/
structure Flight where
  future : ℕ
  tenant : String
  run : Option Uuid
  done : Bool := false
  deriving DecidableEq, Repr

/-- The pool: `inflight`, `turn`, the number of the next future, and the database. -/
structure Pool (W : Type) where
  inflight : List Flight := []
  turn : ℕ := 0
  futures : ℕ := 0
  world : W

/-- How serving an entry ended. -/
inductive Outcome
  | started (flight : Flight)
  | nothing
  | noRoom
  | raised (e : Err)
  deriving DecidableEq, Repr

/-- The entry is not served again in this pump. -/
def Outcome.retires : Outcome → Bool
  | started _ => false
  | _ => true

/-- The flight that was started. -/
def Outcome.flight? : Outcome → Option Flight
  | started flight => some flight
  | _ => none

variable {W : Type}

namespace Pool

/-- The calls of a tenant. -/
def running (pool : Pool W) (tenant : String) : ℕ := pool.inflight.countP fun f => f.tenant = tenant

/-- `_held`. -/
def held (pool : Pool W) (tenant : String) : List Uuid :=
  (pool.inflight.filter fun f => f.tenant = tenant).filterMap Flight.run

/-- `_reap`, with whether a call had finished. -/
def reap (pool : Pool W) : Pool W × Bool :=
  ({ pool with inflight := pool.inflight.filter fun f => !f.done }, pool.inflight.any Flight.done)

/-- The call is submitted. -/
def submit (pool : Pool W) (tenant : String) (run : Option Uuid) : Pool W × Flight :=
  let flight : Flight := { future := pool.futures, tenant := tenant, run := run }
  ({ pool with inflight := pool.inflight ++ [flight], futures := pool.futures + 1 }, flight)

end Pool

/-- The loop of `reserve_next`. -/
def reserveFirst (engine : Engine W) (tenant : String) (skip : List Uuid) (changed : Bool) (w : W) :
    List Uuid → W × Except Err (Bool × Option Uuid)
  | [] => (w, .ok (changed, none))
  | run :: runs =>
    if run ∈ skip then reserveFirst engine tenant skip changed w runs
    else
      match engine.reserve w tenant run with
      | (w, .error e) => (w, .error e)
      | (w, .ok (_, true)) => (w, .ok (true, some run))
      | (w, .ok (moved, false)) => reserveFirst engine tenant skip (changed || moved) w runs

/-- `reserve_next`. -/
def reserveNext (engine : Engine W) (w : W) (tenant : String) (skip : List Uuid) :
    W × Except Err (Bool × Option Uuid) :=
  match engine.candidates w tenant with
  | (w, .error e) => (w, .error e)
  | (w, .ok runs) => reserveFirst engine tenant skip false w runs

/-- `_run` and `_event`: whether anything changed, and the job. -/
def take (engine : Engine W) (pool : Pool W) : Entry → W × Except Err (Bool × Option (Option Uuid))
  | (tenant, .agentLoop) =>
    match reserveNext engine pool.world tenant (pool.held tenant) with
    | (w, .error e) => (w, .error e)
    | (w, .ok (changed, run)) => (w, .ok (changed, run.map some))
  | (tenant, .processEvent) =>
    match engine.claim pool.world tenant with
    | (w, .error e) => (w, .error e)
    | (w, .ok claimed) => (w, .ok (claimed, if claimed then some none else none))

/-- `_room`. -/
def roomOf (engine : Engine W) (settings : Settings) (pool : Pool W) (tenant : String) :
    W × Except Err ℤ :=
  let running : ℤ := pool.running tenant
  let room := settings.perTenant - running
  match engine.summary pool.world tenant with
  | (w, .ok (maxInflight, inflight)) =>
    (w, .ok (min room (min (maxInflight - running) (maxInflight - inflight))))
  | (w, .error e) => if e.isNotFound then (w, .ok room) else (w, .error e)

/-- The room of the tenants, as far as it was asked for. -/
abbrev Rooms := String → Option ℤ

/-- The room of a tenant, asked for once in a pump. -/
def askRoom (engine : Engine W) (settings : Settings) (pool : Pool W) (rooms : Rooms)
    (tenant : String) : Pool W × Rooms × Except Err ℤ :=
  match rooms tenant with
  | some room => (pool, rooms, .ok room)
  | none =>
    match roomOf engine settings pool tenant with
    | (w, .ok room) => ({ pool with world := w }, Function.update rooms tenant (some room), .ok room)
    | (w, .error e) => ({ pool with world := w }, rooms, .error e)

/-- A pump under way. -/
structure Pumping (W : Type) where
  pool : Pool W
  rooms : Rooms := fun _ => none
  progressed : Bool
  /-- The entries that were served, with how it ended. -/
  log : List (Entry × Outcome) := []

/-- The body of the loop over the entries. -/
def serve (engine : Engine W) (settings : Settings) (p : Pumping W) (entry : Entry) :
    Pumping W × Outcome :=
  match askRoom engine settings p.pool p.rooms entry.1 with
  | (pool, rooms, .error e) => ({ p with pool := pool, rooms := rooms }, .raised e)
  | (pool, rooms, .ok room) =>
    if room ≤ 0 then ({ p with pool := pool, rooms := rooms }, .noRoom)
    else
      match take engine pool entry with
      | (w, .error e) => ({ p with pool := { pool with world := w }, rooms := rooms }, .raised e)
      | (w, .ok (changed, none)) =>
        ({ p with
            pool := { pool with world := w }, rooms := rooms
            progressed := p.progressed || changed }, .nothing)
      | (w, .ok (changed, some run)) =>
        let (pool, flight) := Pool.submit { pool with world := w } entry.1 run
        ({ p with
            pool := pool, rooms := Function.update rooms entry.1 (some (room - 1))
            progressed := p.progressed || changed }, .started flight)

/-- `serve`, with its outcome in the log. -/
def visit (engine : Engine W) (settings : Settings) (p : Pumping W) (entry : Entry) :
    Pumping W × Outcome :=
  let (q, outcome) := serve engine settings p entry
  ({ q with log := q.log ++ [(entry, outcome)] }, outcome)

/-- One round over a copy of `order`: what retires is removed from `order`. -/
def round (engine : Engine W) (settings : Settings) (p : Pumping W) (order : List Entry) :
    List Entry → Pumping W × List Entry
  | [] => (p, order)
  | entry :: entries =>
    if settings.workers ≤ p.pool.inflight.length then (p, order)
    else
      let (q, outcome) := visit engine settings p entry
      round engine settings q (if outcome.retires then order.erase entry else order) entries

/-- The rounds, as long as entries are left and the pool is not full. -/
def rounds (engine : Engine W) (settings : Settings) :
    ℕ → Pumping W → List Entry → Pumping W × List Entry
  | 0, p, order => (p, order)
  | n + 1, p, order =>
    if order = [] ∨ settings.workers ≤ p.pool.inflight.length then (p, order)
    else
      let (p, order) := round engine settings p order order
      rounds engine settings n p order

/-- The entries of a pump, beginning with the tenant whose turn it is. -/
def entries (settings : Settings) (turn : ℕ) (tenants : List String) : List Entry :=
  (tenants.rotate (turn % tenants.length)).flatMap fun tenant =>
    (tenant, .agentLoop) :: if settings.events then [(tenant, .processEvent)] else []

/-- `pump`, up to what it returns: a round starts a call or retires an entry, which bounds the rounds. -/
def pump (engine : Engine W) (settings : Settings) (pool : Pool W) (tenants : List String) :
    Pumping W :=
  let (reaped, progressed) := pool.reap
  if tenants = [] then { pool := reaped, progressed := progressed }
  else
    let order := entries settings reaped.turn tenants
    (rounds engine settings (settings.workers + order.length)
      { pool := { reaped with turn := reaped.turn + 1 }, progressed := progressed } order).1

/-- A pump, the end of a call, or a change of the database by anyone else. -/
inductive Label (W : Type)
  | pump (tenants : List String)
  | finish (future : ℕ)
  | elsewhere (world : W)

/-- The state after a label. -/
def Pool.after (engine : Engine W) (settings : Settings) (pool : Pool W) : Label W → Pool W
  | .pump tenants => (Worker.pump engine settings pool tenants).pool
  | .finish future =>
    { pool with
      inflight := pool.inflight.map fun f => if f.future = future then { f with done := true } else f }
  | .elsewhere world => { pool with world := world }

def Step (engine : Engine W) (settings : Settings) (pool : Pool W) (l : Label W) (t : Pool W) : Prop :=
  t = pool.after engine settings l

/-! ### One entry -/

section Serve

variable {engine : Engine W} {settings : Settings} {pool : Pool W} {p : Pumping W} {entry : Entry}
  {tenant : String} {w : W}

/-- The runs that are being planned, with their tenants. -/
def Pool.planned (pool : Pool W) : List (String × Uuid) :=
  pool.inflight.filterMap fun f => f.run.map fun run => (f.tenant, run)

/-- The bounds of the pool. -/
structure Bounded (settings : Settings) (pool : Pool W) : Prop where
  workers : pool.inflight.length ≤ settings.workers
  share : ∀ tenant, (pool.running tenant : ℤ) ≤ max 0 settings.perTenant
  once : pool.planned.Nodup

/-- What a pump keeps: the bounds, and that the room it counts on is there. -/
structure Fair (settings : Settings) (p : Pumping W) : Prop where
  bounded : Bounded settings p.pool
  rooms : ∀ tenant room, p.rooms tenant = some room → room ≤ settings.perTenant - p.pool.running tenant

theorem Bounded.of_inflight {pool' : Pool W} (h : Bounded settings pool)
    (heq : pool'.inflight = pool.inflight) : Bounded settings pool' := by
  obtain ⟨hworkers, hshare, honce⟩ := h
  refine ⟨by rwa [heq], fun tenant => ?_, ?_⟩
  · rw [Pool.running, heq]
    exact hshare tenant
  · rw [Pool.planned, heq]
    exact honce

theorem mem_held {run : Uuid} :
    run ∈ pool.held tenant ↔ (tenant, run) ∈ pool.planned := by
  simp only [Pool.held, Pool.planned, List.mem_filterMap, List.mem_filter, decide_eq_true_eq,
    Option.map_eq_some_iff, Prod.mk.injEq]
  constructor
  · rintro ⟨f, ⟨hf, htenant⟩, hrun⟩
    exact ⟨f, hf, run, hrun, htenant, rfl⟩
  · rintro ⟨f, hf, run', hrun, htenant, rfl⟩
    exact ⟨f, ⟨hf, htenant⟩, hrun⟩

theorem reserveFirst_skips {skip : List Uuid} {runs : List Uuid} {changed changed' : Bool} {run : Uuid}
    {w w' : W} (h : reserveFirst engine tenant skip changed w runs = (w', .ok (changed', some run))) :
    run ∉ skip := by
  induction runs generalizing changed w with
  | nil => cases h
  | cons r runs ih =>
    unfold reserveFirst at h
    split at h
    · exact ih h
    · rename_i hr
      split at h
      · cases h
      · obtain ⟨-, hrun⟩ := Prod.mk.inj h
        obtain ⟨-, rfl⟩ : changed' = true ∧ r = run := by simpa using hrun
        exact hr
      · exact ih h

/-- A run that is taken is not being planned. -/
theorem take_fresh {run : Uuid} {changed : Bool}
    (h : take engine pool entry = (w, .ok (changed, some (some run)))) :
    (entry.1, run) ∉ pool.planned := by
  obtain ⟨tenant, stage⟩ := entry
  rw [← mem_held]
  cases stage with
  | agentLoop =>
    unfold take at h
    dsimp only at h
    split at h
    · cases h
    · rename_i w' changed' run' hnext
      simp only [Prod.mk.injEq, Except.ok.injEq] at h
      obtain rfl : run' = some run := by simpa using h.2.2
      unfold reserveNext at hnext
      split at hnext
      · cases hnext
      · exact reserveFirst_skips hnext
  | processEvent =>
    unfold take at h
    dsimp only at h
    split at h
    · cases h
    · split at h <;> simp at h

/-- Asking for a tenant's room starts nothing, and the room that is found is there. -/
theorem askRoom_spec {rooms rooms' : Rooms} {pool' : Pool W} {res : Except Err ℤ}
    (h : askRoom engine settings pool rooms tenant = (pool', rooms', res))
    (hrooms : ∀ t room, rooms t = some room → room ≤ settings.perTenant - pool.running t) :
    pool'.inflight = pool.inflight ∧
    (∀ t room, rooms' t = some room → room ≤ settings.perTenant - pool.running t) ∧
    ∀ room, res = .ok room → room ≤ settings.perTenant - pool.running tenant := by
  unfold askRoom at h
  split at h
  · rename_i room hroom
    simp only [Prod.mk.injEq] at h
    obtain ⟨rfl, rfl, rfl⟩ := h
    exact ⟨rfl, hrooms, fun room' heq => Except.ok.inj heq ▸ hrooms tenant room hroom⟩
  · split at h
    · rename_i w room hroom
      simp only [Prod.mk.injEq] at h
      obtain ⟨rfl, rfl, rfl⟩ := h
      have hle : room ≤ settings.perTenant - pool.running tenant := by
        unfold roomOf at hroom
        dsimp only at hroom
        split at hroom
        · simp only [Prod.mk.injEq, Except.ok.injEq] at hroom
          omega
        · split at hroom
          · simp only [Prod.mk.injEq, Except.ok.injEq] at hroom
            omega
          · simp at hroom
      refine ⟨rfl, fun t room' ht => ?_, fun room' heq => Except.ok.inj heq ▸ hle⟩
      by_cases htenant : t = tenant
      · subst htenant
        rw [Function.update_self] at ht
        exact Option.some.inj ht ▸ hle
      · rw [Function.update_of_ne htenant] at ht
        exact hrooms t room' ht
    · simp only [Prod.mk.injEq] at h
      obtain ⟨rfl, rfl, rfl⟩ := h
      exact ⟨rfl, hrooms, fun room heq => by cases heq⟩

theorem running_submit (pool : Pool W) (tenant t : String) (run : Option Uuid) :
    ((pool.submit tenant run).1).running t = pool.running t + if tenant = t then 1 else 0 := by
  simp only [Pool.submit, Pool.running, List.countP_append, List.countP_singleton, decide_eq_true_eq]

/-- A call that is within the bounds. -/
theorem Bounded.submit {run : Option Uuid} (h : Bounded settings pool)
    (hfull : pool.inflight.length < settings.workers)
    (hroom : (pool.running tenant : ℤ) < settings.perTenant)
    (hfresh : ∀ r, run = some r → (tenant, r) ∉ pool.planned) :
    Bounded settings (pool.submit tenant run).1 := by
  refine ⟨?_, fun t => ?_, ?_⟩
  · simp only [Pool.submit, List.length_append, List.length_singleton]
    omega
  · rw [running_submit]
    have hshare := h.share t
    split
    · rename_i htenant
      rw [← htenant]
      push_cast
      omega
    · simpa using hshare
  · have hplanned : ((pool.submit tenant run).1).planned =
        pool.planned ++ (run.map fun r => (tenant, r)).toList := by
      simp only [Pool.submit, Pool.planned, List.filterMap_append]
      cases run <;> rfl
    rw [hplanned]
    cases run with
    | none => simpa using h.once
    | some r =>
      rw [List.nodup_append]
      refine ⟨h.once, List.nodup_singleton _, ?_⟩
      rintro x hx y hy rfl
      obtain rfl := List.mem_singleton.1 hy
      exact hfresh r rfl hx

theorem Fair.of_inflight {q : Pumping W} (h : Bounded settings p.pool)
    (heq : q.pool.inflight = p.pool.inflight)
    (hrooms : ∀ t room, q.rooms t = some room → room ≤ settings.perTenant - p.pool.running t) :
    Fair settings q := by
  refine ⟨h.of_inflight heq, fun t room ht => ?_⟩
  rw [Pool.running, heq]
  exact hrooms t room ht

/-- **Serving an entry** keeps the bounds and starts at most the call it reports. -/
theorem Fair.serve {q : Pumping W} {outcome : Outcome} (h : Fair settings p)
    (hfull : p.pool.inflight.length < settings.workers)
    (hserve : serve engine settings p entry = (q, outcome)) :
    Fair settings q ∧ q.log = p.log ∧
    q.pool.inflight = p.pool.inflight ++ outcome.flight?.toList := by
  unfold Worker.serve at hserve
  cases hask : askRoom engine settings p.pool p.rooms entry.1 with
  | mk pool ask =>
  obtain ⟨rooms, answer⟩ := ask
  obtain ⟨hinflight, hrooms, hanswer⟩ := askRoom_spec hask h.rooms
  rw [hask] at hserve
  cases answer with
  | error e =>
    obtain ⟨rfl, rfl⟩ := Prod.mk.inj hserve
    exact ⟨Fair.of_inflight h.bounded hinflight hrooms, rfl, by simpa [Outcome.flight?] using hinflight⟩
  | ok room =>
    dsimp only at hserve
    split at hserve
    · obtain ⟨rfl, rfl⟩ := Prod.mk.inj hserve
      exact ⟨Fair.of_inflight h.bounded hinflight hrooms, rfl,
        by simpa [Outcome.flight?] using hinflight⟩
    · rename_i hpositive
      have hroom := hanswer room rfl
      split at hserve
      · obtain ⟨rfl, rfl⟩ := Prod.mk.inj hserve
        exact ⟨Fair.of_inflight h.bounded hinflight hrooms, rfl,
          by simpa [Outcome.flight?] using hinflight⟩
      · obtain ⟨rfl, rfl⟩ := Prod.mk.inj hserve
        exact ⟨Fair.of_inflight h.bounded hinflight hrooms, rfl,
          by simpa [Outcome.flight?] using hinflight⟩
      · rename_i w changed run htake
        obtain ⟨rfl, rfl⟩ := Prod.mk.inj hserve
        have hbounded : Bounded settings { pool with world := w } := h.bounded.of_inflight hinflight
        have hrunning : ∀ t, ({ pool with world := w } : Pool W).running t = p.pool.running t := by
          intro t
          rw [Pool.running, Pool.running, hinflight]
        refine ⟨⟨hbounded.submit ?_ ?_ ?_, fun t room' ht => ?_⟩, rfl, ?_⟩
        · rw [hinflight]
          exact hfull
        · rw [hrunning]
          omega
        · rintro r rfl
          simpa only [Pool.planned] using take_fresh htake
        · rw [running_submit, hrunning]
          by_cases htenant : t = entry.1
          · -- the room is counted down as the call is submitted
            subst htenant
            change Function.update rooms entry.1 (some (room - 1)) entry.1 = some room' at ht
            rw [Function.update_self] at ht
            obtain rfl := Option.some.inj ht
            rw [if_pos rfl]
            push_cast
            omega
          · change Function.update rooms entry.1 (some (room - 1)) t = some room' at ht
            rw [Function.update_of_ne htenant] at ht
            rw [if_neg (Ne.symm htenant)]
            simpa using hrooms t room' ht
        · simp only [Pool.submit, Outcome.flight?, Option.toList_some, hinflight]

end Serve

/-! ### One pump -/

section Pump

variable {engine : Engine W} {settings : Settings} {pool : Pool W} {p q r : Pumping W} {entry : Entry}
  {order left visits : List Entry} {served more : List (Entry × Outcome)}

/-- No worker is free. -/
def Pumping.Full (settings : Settings) (p : Pumping W) : Prop :=
  settings.workers ≤ p.pool.inflight.length

/-- From `p` to `q` the entries of `served` were served, each with its own outcome. -/
structure Went (engine : Engine W) (settings : Settings) (p q : Pumping W)
    (served : List (Entry × Outcome)) : Prop where
  fair : Fair settings q
  log : q.log = p.log ++ served
  inflight : q.pool.inflight = p.pool.inflight ++ served.filterMap fun x => x.2.flight?
  own : ∀ x ∈ served, ∃ p', (serve engine settings p' x.1).2 = x.2

theorem Went.refl (h : Fair settings p) : Went engine settings p p [] :=
  ⟨h, by simp, by simp, by simp⟩

theorem Went.trans (hfirst : Went engine settings p q served) (hsecond : Went engine settings q r more) :
    Went engine settings p r (served ++ more) := by
  refine ⟨hsecond.fair, ?_, ?_, ?_⟩
  · rw [hsecond.log, hfirst.log, List.append_assoc]
  · rw [hsecond.inflight, hfirst.inflight, List.filterMap_append, List.append_assoc]
  · intro x hx
    obtain hx | hx := List.mem_append.1 hx
    · exact hfirst.own x hx
    · exact hsecond.own x hx

theorem Went.visit {outcome : Outcome} (h : Fair settings p) (hfull : ¬p.Full settings)
    (hvisit : visit engine settings p entry = (q, outcome)) :
    Went engine settings p q [(entry, outcome)] := by
  cases hserve : Worker.serve engine settings p entry with
  | mk p' outcome' =>
  rw [Worker.visit, hserve] at hvisit
  obtain ⟨rfl, rfl⟩ := Prod.mk.inj hvisit
  obtain ⟨hfair, hlog, hinflight⟩ := h.serve (not_le.1 hfull) hserve
  refine ⟨⟨hfair.bounded, hfair.rooms⟩, by rw [hlog], ?_, fun x hx => ⟨p, ?_⟩⟩
  · change p'.pool.inflight = _
    rw [hinflight, List.filterMap_cons]
    cases outcome'.flight? <;> rfl
  · rw [List.mem_singleton.1 hx, hserve]

theorem left_length {outcome : Outcome} (hmem : entry ∈ order) :
    (if outcome.retires then order.erase entry else order).length + 1 =
      order.length + outcome.flight?.toList.length := by
  have hpos := List.length_pos_of_mem hmem
  cases outcome <;> simp [Outcome.retires, Outcome.flight?, List.length_erase_of_mem hmem] <;> omega

/-- **One round**: the entries are served in their order until the pool is full; each is left or has
retired, and what was served started a call or retired. -/
theorem round_spec (h : Fair settings p) (hsub : List.Subperm visits order)
    (hround : round engine settings p order visits = (q, left)) :
    ∃ served, Went engine settings p q served ∧
      (served.map Prod.fst = visits ∨ q.Full settings ∧ served.map Prod.fst <+: visits) ∧
      (∀ e ∈ order, e ∈ left ∨ ∃ outcome, (e, outcome) ∈ served ∧ outcome.retires) ∧
      left.length + served.length + p.pool.inflight.length =
        order.length + q.pool.inflight.length := by
  induction visits generalizing p order with
  | nil =>
    obtain ⟨rfl, rfl⟩ := Prod.mk.inj hround
    exact ⟨[], Went.refl h, .inl rfl, fun e he => .inl he, by simp⟩
  | cons entry visits ih =>
    unfold round at hround
    split at hround
    · rename_i hfull
      obtain ⟨rfl, rfl⟩ := Prod.mk.inj hround
      exact ⟨[], Went.refl h, .inr ⟨hfull, by simp⟩, fun e he => .inl he, by simp⟩
    · rename_i hfull
      cases hvisit : visit engine settings p entry with
      | mk p' outcome =>
      rw [hvisit] at hround
      dsimp only at hround
      have hwent := Went.visit h hfull hvisit
      have hmem : entry ∈ order := hsub.subset List.mem_cons_self
      have hsub' : List.Subperm visits (if outcome.retires then order.erase entry else order) := by
        split
        · simpa using hsub.erase entry
        · exact (List.sublist_cons_self entry visits).subperm.trans hsub
      obtain ⟨served, hrest, hserved, hleft, hlength⟩ := ih hwent.fair hsub' hround
      refine ⟨(entry, outcome) :: served, hwent.trans hrest, ?_, fun e he => ?_, ?_⟩
      · obtain hall | ⟨hfull', hprefix⟩ := hserved
        · exact .inl (by rw [List.map_cons, hall])
        · exact .inr ⟨hfull', List.cons_prefix_cons.2 ⟨rfl, hprefix⟩⟩
      · by_cases hgone : outcome.retires ∧ e = entry
        · exact .inr ⟨outcome, by rw [hgone.2]; exact List.mem_cons_self, hgone.1⟩
        · have he' : e ∈ if outcome.retires then order.erase entry else order := by
            split
            · rename_i hretires
              exact (List.mem_erase_of_ne fun heq => hgone ⟨hretires, heq⟩).2 he
            · exact he
          obtain hin | ⟨o, ho, hretires⟩ := hleft e he'
          · exact .inl hin
          · exact .inr ⟨o, List.mem_cons_of_mem _ ho, hretires⟩
      · have hone : (if outcome.retires then order.erase entry else order).length + 1 =
            order.length + outcome.flight?.toList.length := left_length hmem
        have hstarted : p'.pool.inflight.length =
            p.pool.inflight.length + outcome.flight?.toList.length := by
          rw [hwent.inflight, List.length_append]
          cases outcome <;> rfl
        rw [List.length_cons]
        omega

theorem rounds_full (hfull : p.Full settings) (n : ℕ) (order : List Entry) :
    rounds engine settings n p order = (p, order) := by
  cases n with
  | zero => rfl
  | succ n => rw [rounds, if_pos (.inr hfull)]

/-- **The rounds** end with the pool full or every entry retired. -/
theorem rounds_spec {n : ℕ} (h : Fair settings p)
    (hn : order.length + (settings.workers - p.pool.inflight.length) ≤ n)
    (hrounds : rounds engine settings n p order = (q, left)) :
    ∃ served, Went engine settings p q served ∧
      (order <+: served.map Prod.fst ∨ q.Full settings ∧ served.map Prod.fst <+: order) ∧
      (q.Full settings ∨
        ∀ e ∈ order, ∃ outcome, (e, outcome) ∈ served ∧ outcome.retires) := by
  induction n generalizing p order with
  | zero =>
    obtain ⟨rfl, rfl⟩ := Prod.mk.inj hrounds
    obtain rfl : order = [] := List.length_eq_zero_iff.1 (by omega)
    exact ⟨[], Went.refl h, .inl List.prefix_rfl, .inr (by simp)⟩
  | succ n ih =>
    unfold rounds at hrounds
    split at hrounds
    · rename_i hstop
      obtain ⟨rfl, rfl⟩ := Prod.mk.inj hrounds
      obtain rfl | hfull := hstop
      · exact ⟨[], Went.refl h, .inl List.prefix_rfl, .inr (by simp)⟩
      · exact ⟨[], Went.refl h, .inr ⟨hfull, by simp⟩, .inl hfull⟩
    · rename_i hgo
      obtain ⟨horder, hfree⟩ := not_or.1 hgo
      cases hround : round engine settings p order order with
      | mk p' order' =>
      rw [hround] at hrounds
      dsimp only at hrounds
      obtain ⟨served, hwent, hserved, hleft, hlength⟩ :=
        round_spec h (List.Subperm.refl order) hround
      have hworkers := hwent.fair.bounded.workers
      -- the pool was not full, so something was served
      have hsome : 0 < served.length := by
        obtain hall | ⟨hfull, -⟩ := hserved
        · rw [← List.length_map (f := Prod.fst), hall]
          exact List.length_pos_iff.2 horder
        · refine List.length_pos_iff.2 fun hnil => hfree ?_
          have heq := hwent.inflight
          rw [hnil, List.filterMap_nil, List.append_nil] at heq
          exact heq ▸ hfull
      obtain hfirst | ⟨hfull, hprefix⟩ := hserved
      · obtain ⟨more, hrest, -, hretired⟩ := ih hwent.fair (by omega) hrounds
        refine ⟨served ++ more, hwent.trans hrest, .inl ?_, ?_⟩
        · rw [List.map_append, hfirst]
          exact List.prefix_append _ _
        obtain hfull | hall := hretired
        · exact .inl hfull
        · refine .inr fun e he => ?_
          obtain hin | ⟨o, ho, hretires⟩ := hleft e he
          · obtain ⟨o, ho, hretires⟩ := hall e hin
            exact ⟨o, List.mem_append_right _ ho, hretires⟩
          · exact ⟨o, List.mem_append_left _ ho, hretires⟩
      · rw [rounds_full hfull] at hrounds
        obtain ⟨rfl, rfl⟩ := Prod.mk.inj hrounds
        exact ⟨served, hwent, .inr ⟨hfull, hprefix⟩, .inl hfull⟩

theorem Bounded.reap (h : Bounded settings pool) : Bounded settings pool.reap.1 := by
  have hsub : pool.reap.1.inflight.Sublist pool.inflight := List.filter_sublist
  refine ⟨hsub.length_le.trans h.workers, fun tenant => ?_, (hsub.filterMap _).nodup h.once⟩
  have hle : pool.reap.1.running tenant ≤ pool.running tenant := hsub.countP_le
  have hshare := h.share tenant
  omega

/-- The end of a call leaves its tenant and its run as they are. -/
theorem Bounded.finish (h : Bounded settings pool) (future : ℕ) :
    Bounded settings (pool.after engine settings (.finish future)) := by
  refine ⟨?_, fun tenant => ?_, ?_⟩
  · simpa only [Pool.after, List.length_map] using h.workers
  · have hsame : (pool.after engine settings (.finish future)).running tenant = pool.running tenant := by
      simp only [Pool.after, Pool.running, List.countP_map]
      congr 1
      funext f
      simp only [Function.comp_apply]
      split <;> rfl
    rw [hsame]
    exact h.share tenant
  · have hsame : (pool.after engine settings (.finish future)).planned = pool.planned := by
      simp only [Pool.after, Pool.planned, List.filterMap_map]
      congr 1
      funext f
      simp only [Function.comp_apply]
      split <;> rfl
    rw [hsame]
    exact h.once

theorem mem_entries {turn : ℕ} {tenants : List String} {tenant : String} {stage : Stage} :
    (tenant, stage) ∈ entries settings turn tenants ↔
      tenant ∈ tenants ∧ (stage = .processEvent → settings.events) := by
  unfold entries
  simp only [List.mem_flatMap, List.mem_rotate]
  cases stage <;> cases settings.events <;> simp

/-- What a pump does: it keeps the calls that run and starts those of its log, each entry is served by
itself and in turn, and it ends with the pool full or every source of every tenant retired. -/
structure Pumped (engine : Engine W) (settings : Settings) (pool : Pool W) (tenants : List String)
    (p : Pumping W) : Prop where
  bounded : Bounded settings p.pool
  inflight : p.pool.inflight = pool.reap.1.inflight ++ p.log.filterMap fun x => x.2.flight?
  own : ∀ x ∈ p.log, ∃ p', (serve engine settings p' x.1).2 = x.2
  inTurn : entries settings pool.turn tenants <+: p.log.map Prod.fst ∨
    p.Full settings ∧ p.log.map Prod.fst <+: entries settings pool.turn tenants
  served : p.Full settings ∨ ∀ tenant ∈ tenants, ∀ stage, (stage = .processEvent → settings.events) →
    ∃ outcome, ((tenant, stage), outcome) ∈ p.log ∧ outcome.retires

theorem pump_spec (h : Bounded settings pool) (tenants : List String) :
    Pumped engine settings pool tenants (pump engine settings pool tenants) := by
  unfold pump
  dsimp only
  split
  · rename_i hnil
    subst hnil
    exact ⟨h.reap, by simp, by simp, .inl (by simp [entries]), .inr (by simp)⟩
  · have hfair : Fair settings
        { pool := { pool.reap.1 with turn := pool.reap.1.turn + 1 }, progressed := pool.reap.2 } :=
      ⟨h.reap.of_inflight rfl, fun t room ht => by cases ht⟩
    cases hrounds : rounds engine settings
        (settings.workers + (entries settings pool.reap.1.turn tenants).length)
        { pool := { pool.reap.1 with turn := pool.reap.1.turn + 1 }, progressed := pool.reap.2 }
        (entries settings pool.reap.1.turn tenants) with
    | mk p left =>
    obtain ⟨served, hwent, hturn, hretired⟩ := rounds_spec hfair (by omega) hrounds
    obtain rfl : p.log = served := by simpa using hwent.log
    refine ⟨hwent.fair.bounded, hwent.inflight, hwent.own, hturn, ?_⟩
    obtain hfull | hall := hretired
    · exact .inl hfull
    · exact .inr fun tenant htenant stage hstage => hall _ (mem_entries.2 ⟨htenant, hstage⟩)

end Pump

/-! ### Runs -/

theorem Step.bounded {engine : Engine W} {settings : Settings} {pool t : Pool W} {l : Label W}
    (h : Bounded settings pool) (hs : Step engine settings pool l t) : Bounded settings t := by
  subst hs
  cases l with
  | pump tenants => exact (pump_spec h tenants).bounded
  | finish future => exact h.finish future
  | elsewhere world => exact h.of_inflight rfl

/-- A tenant whose budget raises, beside one with runs; the database is the runs that wait. -/
def sampleEngine : Engine (List Uuid) where
  summary w tenant := (w, if tenant = "broken" then .error (.valueError "budget") else .ok (2, 0))
  candidates w _ := (w, .ok w)
  reserve w _ run := (w.erase run, .ok (true, true))
  claim w _ := (w, .ok false)

def sampleSettings : Settings := { workers := 3, events := true }

def samplePool : Pool (List Uuid) := { world := [1, 2, 3] }

example : ((pump sampleEngine sampleSettings samplePool ["broken", "acme"]).pool.inflight.map
    fun f => (f.tenant, f.run)) = [("acme", some 1), ("acme", some 2)] := by decide

end AgentPlatform.Worker
