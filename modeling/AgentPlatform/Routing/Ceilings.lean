import AgentPlatform.Engine.ActiveTasks
import AgentPlatform.Routing.OneOutcome

/-!
# The ceilings of the queues

`accept_event` refuses an event of a tenant with 1000 pending or processing ones, `_create_task` a task of
a tenant with 1000 active ones. `retry_event` and the settlements count nothing. `ceilings_iff` says, for
any calls by anyone, that both ceilings hold throughout exactly if each accepted retry and each settlement
that wakes its task found room.
-/

namespace AgentPlatform.Routing

open Outcome Engine Table Runs

/-! ### The calls -/

/-- A label of the routing workers and of those around them, or any operation of the engine, by anyone: a
schedule that is due submits on the channel `cron`. -/
inductive Call
  | routing (l : Label)
  | engine (op : Op)

/-- An operation of the engine's own; `elsewhere` stands for writes that are labels of the routing here. -/
def isOwn : Op → Bool
  | .elsewhere .. => false
  | _ => true

/-- The state after a call. -/
def State.call (P : Platform) (s : State) : Call → State
  | .routing l => s.after P l
  | .engine op => if isOwn op then { s with db := s.db.after P op } else s

/-- The transitions of some calls, from an empty database. -/
def transitions (P : Platform) (cs : List Call) : List (Transition State Call) :=
  trace (State.call P) {} cs

/-! ### The ceilings -/

/-- The statuses `PENDING_EVENTS_SQL` counts. -/
def isPending (tenant : String) (e : EventRow) : Bool :=
  decide (e.tenant = tenant) && (decide (e.status = .pending) || decide (e.status = .processing))

/-- `PENDING_EVENTS_SQL`. -/
def pendingEvents (db : Db) (tenant : String) : ℕ := db.events.countP (isPending tenant)

/-- Both ceilings of a tenant. -/
structure Within (tenant : String) (db : Db) : Prop where
  events : pendingEvents db tenant ≤ 1000
  tasks : db.activeTasks tenant ≤ 1000

/-- `retry_event` passes its checks. -/
structure Retries (env : Env) (db : Db) (tenant channel eventKey actor : String) : Prop where
  active : env.requireActive db tenant = .ok ()
  actor : env.requireAuthority tenant "web" actor = .ok ()
  sender : ∀ e, db.event? tenant channel eventKey = some e →
    env.requireAuthority tenant channel (actorText (e.payload.getD "sender" (.str ""))) = .ok ()
  failed : ∃ e ∈ db.events, e.key = (tenant, channel, eventKey) ∧ e.status = .failed

/-- The operation a call of the engine carries out. -/
def opOf (s : State) : Call → Option Op
  | .engine op => if isOwn op then some op else none
  | .routing (.engine op) => if offRoute s.turns op then some op else none
  | _ => none

/-- What a call adds to the counted rows of the tenant, without counting them, finds room: the event of an
accepted retry, and the task a settlement wakes. -/
structure Room (tenant : String) (s : State) (c : Call) : Prop where
  events : ∀ env channel eventKey actor, c = .routing (.retry env tenant channel eventKey actor) →
    Retries env s.db tenant channel eventKey actor → pendingEvents s.db tenant < 1000
  tasks : ∀ op, opOf s c = some op → Spare tenant s.db op

/-! ### Events -/

section Events

variable {P : Platform} {env : Env} {s t : State} {db db' : Db} {tenant channel eventKey actor : String}
  {c : Call}

/-- What a call that does not retry may do to the events. -/
inductive EventsAfter (s : State) : List EventRow → Prop
  | same : EventsAfter s s.db.events
  | accepted {e : EventRow} (hnew : ∀ e' ∈ s.db.events, e'.key ≠ e.key)
      (hroom : pendingEvents s.db e.tenant < 1000) : EventsAfter s (s.db.events ++ [e])
  | updated {p : EventRow → Bool} {f : EventRow → EventRow} (hkey : ∀ e, (f e).key = e.key)
      (hcount : Keyed EventRow.key s.db.events → ∀ e ∈ s.db.events, p e = true → ∀ tenant,
        isPending tenant (f e) = true → isPending tenant e = true) :
      EventsAfter s (Table.update p f s.db.events)

/-- The events after a retry. -/
def retried (db : Db) (tenant channel eventKey : String) : List EventRow :=
  Table.update (fun e => decide (e.key = (tenant, channel, eventKey)) && decide (e.status = .failed))
    (fun e => { e with status := .pending, error := "" }) db.events

theorem event?_eq_none : db.event? tenant channel eventKey = none ↔
    ∀ e ∈ db.events, e.key ≠ (tenant, channel, eventKey) := by
  simp only [Db.event?, List.find?_eq_none, Bool.and_eq_true, decide_eq_true_eq, EventRow.key, Ne,
    Prod.mk.injEq, and_assoc]

theorem acceptEvent_events {payload : Json} {duplicate : Bool}
    (h : acceptEvent P env s tenant channel eventKey payload = .ok (t, duplicate)) :
    EventsAfter s t.db.events := by
  simp only [acceptEvent, bind_eq_ok, exists_unit, ensure_eq_ok] at h
  obtain ⟨-, -, -, -, h⟩ := h
  cases hevent : s.db.event? tenant channel eventKey with
  | some r =>
    simp only [hevent, bind_eq_ok, exists_unit, ensure_eq_ok, pure_eq_ok, Prod.mk.injEq] at h
    obtain ⟨-, rfl, -⟩ := h
    exact .same
  | none =>
    simp only [hevent, bind_eq_ok, exists_unit, ensure_eq_ok, pure_eq_ok, Prod.mk.injEq] at h
    obtain ⟨-, hroom, rfl, -⟩ := h
    exact .accepted (event?_eq_none.1 hevent) hroom.1

theorem claimEvent_events {channels : Option (List String)} {skip : List String} {e : EventRow}
    (h : claimEvent env s.db tenant channels skip = some (db, e)) : EventsAfter s db.events := by
  unfold claimEvent at h
  split at h
  · cases h
  · simp only [Option.map_eq_some_iff, Prod.mk.injEq] at h
    obtain ⟨r, hr, rfl, rfl⟩ := h
    refine .updated (fun _ => rfl) fun hkeyed e he hp tenant' hpending => ?_
    have hmem := List.mem_of_find?_eq_some hr
    have hclaimable := List.find?_some hr
    obtain rfl := hkeyed.eq_of_key he hmem (of_decide_eq_true hp)
    simp only [isPending, claimable, Bool.and_eq_true, Bool.or_eq_true, decide_eq_true_eq] at hpending hclaimable ⊢
    exact ⟨hpending.1, hclaimable.1.1.2.imp_right fun h => h.1⟩

theorem markEvent_events (e : EventRow) (result : Except Err EventResult) :
    EventsAfter s (markEvent s.db e result).events := by
  refine .updated (fun r => ?_) fun _ r _ _ tenant' hpending => ?_
  · cases result <;> rfl
  · cases result <;> simp [isPending] at hpending

theorem afterOp_events (P : Platform) (s : State) {op : Op} (hop : isOwn op = true) :
    EventsAfter s (s.db.after P op).events := by
  obtain ⟨out, he⟩ := engine_effect P s.db op
  rcases he.events with heq | ⟨_, _, _, rfl⟩
  · rw [heq]
    exact .same
  · cases hop

/-- What `retry_event` checks and writes. -/
theorem retryEvent_eq_ok : retryEvent env db tenant channel eventKey actor = .ok db' ↔
    Retries env db tenant channel eventKey actor ∧
      db' = { db with events := retried db tenant channel eventKey } := by
  have hany : db.events.any (fun e => decide (e.key = (tenant, channel, eventKey)) &&
      decide (e.status = .failed)) = true ↔
      ∃ e ∈ db.events, e.key = (tenant, channel, eventKey) ∧ e.status = .failed := by
    simp only [List.any_eq_true, Bool.and_eq_true, decide_eq_true_eq]
  simp only [retryEvent, bind_eq_ok, exists_unit]
  cases hevent : db.event? tenant channel eventKey with
  | none =>
    simp only [bind_eq_ok, exists_unit, ensure_eq_ok, pure_eq_ok, hany]
    constructor
    · rintro ⟨hactive, hactor, hfailed, rfl⟩
      refine ⟨⟨hactive, hactor, fun e he => ?_, hfailed⟩, rfl⟩
      rw [hevent] at he
      cases he
    · rintro ⟨h, rfl⟩
      exact ⟨h.active, h.actor, h.failed, rfl⟩
  | some e =>
    simp only [bind_eq_ok, exists_unit, ensure_eq_ok, pure_eq_ok, hany]
    constructor
    · rintro ⟨hactive, hactor, hsender, hfailed, rfl⟩
      refine ⟨⟨hactive, hactor, fun e' he' => ?_, hfailed⟩, rfl⟩
      obtain rfl := Option.some.inj (hevent.symm.trans he')
      exact hsender
    · rintro ⟨h, rfl⟩
      exact ⟨h.active, h.actor, h.sender e hevent, h.failed, rfl⟩

/-- Only `accept_event`, `claim_event`, `settle_event` and `retry_event` write events. -/
theorem after_events (P : Platform) (s : State) (l : Label)
    (hl : ∀ env tenant channel eventKey actor, l = .retry env tenant channel eventKey actor →
      ¬ Retries env s.db tenant channel eventKey actor) : EventsAfter s (s.after P l).db.events := by
  cases l with
  | accept env tenant channel eventKey payload =>
    change EventsAfter s (commit s (acceptEvent P env s tenant channel eventKey payload)).db.events
    cases hx : acceptEvent P env s tenant channel eventKey payload with
    | error e => exact .same
    | ok r => exact acceptEvent_events hx
  | claim w env tenant channels skip =>
    simp only [State.after]
    split
    · exact claimEvent_events ‹_›
    · exact .same
  | lookTask w =>
    simp only [State.after]
    split
    · split <;> exact .same
    · exact .same
  | lookTurn w =>
    simp only [State.after]
    split
    · split <;> exact .same
    · exact .same
  | route w check plan env =>
    simp only [State.after]
    split
    · split
      · rename_i e _ t result hroute
        simp only [Routing.route, bind_eq_ok, exists_unit] at hroute
        obtain ⟨-, plan, -, hroute⟩ := hroute
        split at hroute
        · split at hroute
          · simp only [bind_eq_ok, Prod.exists, pure_eq_ok, Prod.mk.injEq] at hroute
            obtain ⟨db, id, hsubmit, rfl, -⟩ := hroute
            rcases (submit_effect hsubmit).events with heq | ⟨_, _, _, hop⟩
            · change EventsAfter s db.events
              rw [heq]
              exact .same
            · cases hop
          · cases hroute
        · simp only [bind_eq_ok, pure_eq_ok, Prod.mk.injEq] at hroute
          obtain ⟨turns, -, rfl, -⟩ := hroute
          exact .same
      · exact .same
    · exact .same
  | mark w =>
    simp only [State.after]
    split
    · exact markEvent_events _ _
    · exact .same
  | crash | loop | converse => exact .same
  | retry env tenant channel eventKey actor =>
    simp only [State.after]
    split
    · rename_i db hdb
      exact absurd (retryEvent_eq_ok.1 hdb).1 (hl _ _ _ _ _ rfl)
    · exact .same
  | engine op =>
    simp only [State.after]
    split
    · rename_i hop
      refine afterOp_events P s ?_
      cases op <;> first | rfl | cases hop
    · exact .same

theorem EventsAfter.keyed {events : List EventRow} (h : EventsAfter s events)
    (hkeyed : Keyed EventRow.key s.db.events) : Keyed EventRow.key events := by
  cases h with
  | same => exact hkeyed
  | accepted hnew => exact hkeyed.insert hnew
  | updated hkey => exact hkeyed.update hkey

/-- The update of one row, in a count. -/
theorem countP_update_one {ρ : Type} {p q : ρ → Bool} {f : ρ → ρ} {rows : List ρ} {r : ρ} (hr : r ∈ rows)
    (hnodup : rows.Nodup) (hp : ∀ x ∈ rows, p x = true ↔ x = r) :
    (Table.update p f rows).countP q + (if q r then 1 else 0) =
      rows.countP q + if q (f r) then 1 else 0 := by
  obtain ⟨pre, post, rfl⟩ := List.append_of_mem hr
  have hself : p r = true := (hp r hr).2 rfl
  have hother : ∀ x ∈ pre ++ post, p x = false := by
    intro x hx
    have hne : x ≠ r := by
      rintro rfl
      exact (List.nodup_middle.1 hnodup).notMem hx
    have hmem : x ∈ pre ++ r :: post := by
      rcases List.mem_append.1 hx with hx | hx
      · exact List.mem_append_left _ hx
      · exact List.mem_append_right _ (List.mem_cons_of_mem _ hx)
    cases hpx : p x with
    | false => rfl
    | true => exact absurd ((hp x hmem).1 hpx) hne
  have hpre : Table.update p f pre = pre := update_of_none fun x hx => hother x (List.mem_append_left _ hx)
  have hpost : Table.update p f post = post :=
    update_of_none fun x hx => hother x (List.mem_append_right _ hx)
  have hsplit : Table.update p f (pre ++ r :: post) = pre ++ f r :: post := by
    change List.map _ _ = _
    rw [List.map_append, List.map_cons, if_pos hself]
    exact congrArg₂ (· ++ ·) hpre (congrArg _ hpost)
  rw [hsplit, List.countP_append, List.countP_append, List.countP_cons, List.countP_cons]
  omega

/-- A retry adds one to the events that are counted. -/
theorem countP_retried (h : Retries env db tenant channel eventKey actor)
    (hkeyed : Keyed EventRow.key db.events) (tenant' : String) :
    (retried db tenant channel eventKey).countP (isPending tenant') =
        pendingEvents db tenant' + if tenant = tenant' then 1 else 0 := by
  obtain ⟨e, he, hkey, hfailed⟩ := h.failed
  have htenant : e.tenant = tenant := congrArg Prod.fst hkey
  have hselect : ∀ x ∈ db.events, (decide (x.key = (tenant, channel, eventKey)) &&
      decide (x.status = .failed)) = true ↔ x = e := by
    intro x hx
    rw [Bool.and_eq_true, decide_eq_true_eq, decide_eq_true_eq]
    exact ⟨fun h => hkeyed.eq_of_key hx he (h.1.trans hkey.symm), fun h => h ▸ ⟨hkey, hfailed⟩⟩
  have hcount := countP_update_one (q := isPending tenant')
    (f := fun e => { e with status := .pending, error := "" }) he hkeyed.nodup hselect
  change _ = pendingEvents db tenant' + _
  simpa [isPending, hfailed, htenant, pendingEvents, retried] using hcount

theorem EventsAfter.countP_le {events : List EventRow} (h : EventsAfter s events)
    (hkeyed : Keyed EventRow.key s.db.events) (hle : pendingEvents s.db tenant ≤ 1000) :
    events.countP (isPending tenant) ≤ 1000 := by
  cases h with
  | same => exact hle
  | @accepted e _ hroom =>
    rw [List.countP_append, List.countP_singleton]
    change pendingEvents s.db tenant + _ ≤ 1000
    split
    · rename_i hpending
      simp only [isPending, Bool.and_eq_true, decide_eq_true_eq] at hpending
      rw [hpending.1] at hroom
      omega
    · exact hle
  | updated _ hcount => exact (countP_update_le fun e he hp => hcount hkeyed e he hp tenant).trans hle

end Events

/-! ### Any calls -/

/-- The events are keyed, the steps in order, and the tasks show the summaries of their steps. -/
structure Ordered (s : State) : Prop where
  keyed : Keyed EventRow.key s.db.events
  orderly : Orderly s.db
  synced : Synced s.db

/-- The tasks and steps are the same. -/
structure Aside (db db' : Db) : Prop where
  tasks : db'.tasks = db.tasks
  steps : db'.steps = db.steps
  drawn : db.drawn ≤ db'.drawn

section Calls

variable {P : Platform} {s : State} {db db' : Db} {tenant : String} {c : Call} {op : Op}

theorem Aside.refl (db : Db) : Aside db db := ⟨rfl, rfl, le_rfl⟩

theorem Aside.orderly (h : Aside db db') (ho : Orderly db) : Orderly db' := by
  have hmove : Move (fun _ _ => False) db db' := .frame h.tasks h.steps h.drawn
  exact ho.moves (.single hmove)

theorem Aside.synced (h : Aside db db') (hs : Synced db) : Synced db' := by
  have hline : InLine (fun status states => status = Pipeline.summary states) db' :=
    hs.inLine.frame h.tasks h.steps
  exact hline

theorem Aside.activeTasks (h : Aside db db') : db'.activeTasks tenant = db.activeTasks tenant := by
  rw [Db.activeTasks, h.tasks]
  rfl

theorem ordered_empty : Ordered {} where
  keyed := keyed_nil _
  orderly := orderly_empty
  synced := synced_empty

/-- The tasks and steps after a label of the routing workers, or of those around them. -/
theorem after_aside (P : Platform) (s : State) (l : Label) (hl : opOf s (.routing l) = none) :
    ∃ db₀, (db₀ = s.db ∨ ∃ op, settled? op = none ∧ db₀ = s.db.after P op) ∧
      Aside db₀ (s.after P l).db := by
  have he : Effect P s l (s.after P l) := Step.effect rfl
  generalize s.after P l = t at he
  cases he with
  | same | looked | planned | settled | recorded | conversed => exact ⟨_, .inl rfl, .refl _⟩
  | aside htasks hsteps hdrawn => exact ⟨_, .inl rfl, htasks, hsteps, hdrawn.ge⟩
  | claimed _ htasks hsteps hdrawn =>
    exact ⟨_, .inl rfl, htasks, hsteps, (Nat.le_succ _).trans_eq hdrawn.symm⟩
  | @submitted w check env plan e steps actor db id _ _ hsubmit =>
    refine ⟨db, .inr ⟨.submit env e.tenant e.channel e.eventKey plan.agent steps actor, rfl, ?_⟩, .refl _⟩
    rw [Db.after, exec, hsubmit]
    rfl
  | engine hop =>
    rw [opOf, if_pos hop] at hl
    cases hl

/-- The tasks and steps after any call. -/
theorem call_aside (P : Platform) (s : State) (c : Call) :
    (∃ op, opOf s c = some op ∧ Aside (s.db.after P op) (s.call P c).db) ∨ opOf s c = none ∧
      ∃ db₀, (db₀ = s.db ∨ ∃ op, settled? op = none ∧ db₀ = s.db.after P op) ∧ Aside db₀ (s.call P c).db := by
  cases c with
  | engine op =>
    by_cases hop : isOwn op = true
    · refine .inl ⟨op, if_pos hop, ?_⟩
      rw [State.call, if_pos hop]
      exact .refl _
    · refine .inr ⟨if_neg hop, s.db, .inl rfl, ?_⟩
      rw [State.call, if_neg hop]
      exact .refl _
  | routing l =>
    cases hl : opOf s (.routing l) with
    | none => exact .inr ⟨rfl, after_aside P s l hl⟩
    | some op =>
      refine .inl ⟨op, rfl, ?_⟩
      cases l with
      | engine op' =>
        by_cases hop : offRoute s.turns op' = true
        · rw [opOf, if_pos hop] at hl
          obtain rfl := Option.some.inj hl
          rw [State.call, State.after, if_pos hop]
          exact .refl _
        · rw [opOf, if_neg hop] at hl
          cases hl
      | _ => cases hl

theorem spare_of_unsettled (h : settled? op = none) : Spare tenant db op := by
  intro r _ _ _ hsettles
  cases op with
  | reconcile | googleReconcile => cases h
  | _ => exact hsettles.elim

theorem Ordered.after (ho : Orderly db) (hs : Synced db) (P : Platform) (op : Op) :
    Orderly (db.after P op) ∧ Synced (db.after P op) :=
  Engine.Step.synced (P := P) ⟨ho, hs⟩ rfl

/-- The events after any call. -/
theorem call_events (P : Platform) (s : State) (c : Call) :
    (∃ env tenant channel eventKey actor, c = .routing (.retry env tenant channel eventKey actor) ∧
      Retries env s.db tenant channel eventKey actor ∧
        (s.call P c).db.events = retried s.db tenant channel eventKey) ∨
    (∀ env tenant channel eventKey actor, c = .routing (.retry env tenant channel eventKey actor) →
      ¬ Retries env s.db tenant channel eventKey actor) ∧ EventsAfter s (s.call P c).db.events := by
  by_cases hretry : ∃ env tenant channel eventKey actor,
      c = .routing (.retry env tenant channel eventKey actor) ∧
        Retries env s.db tenant channel eventKey actor
  · obtain ⟨env, tenant, channel, eventKey, actor, rfl, hretries⟩ := hretry
    refine .inl ⟨env, tenant, channel, eventKey, actor, rfl, hretries, ?_⟩
    rw [State.call, State.after, retryEvent_eq_ok.2 ⟨hretries, rfl⟩]
  · have hnot : ∀ env tenant channel eventKey actor,
        c = .routing (.retry env tenant channel eventKey actor) →
          ¬ Retries env s.db tenant channel eventKey actor :=
      fun env tenant channel eventKey actor hc hretries =>
        hretry ⟨env, tenant, channel, eventKey, actor, hc, hretries⟩
    refine .inr ⟨hnot, ?_⟩
    cases c with
    | engine op =>
      by_cases hop : isOwn op = true
      · rw [State.call, if_pos hop]
        exact afterOp_events P s hop
      · rw [State.call, if_neg hop]
        exact .same
    | routing l =>
      exact after_events P s l fun env tenant channel eventKey actor hl => hnot _ _ _ _ _ (congrArg _ hl)

/-- What every call keeps. -/
theorem Ordered.call (h : Ordered s) (P : Platform) (c : Call) : Ordered (s.call P c) where
  keyed := by
    rcases call_events P s c with ⟨_, _, _, _, _, -, -, hevents⟩ | ⟨-, hevents⟩
    · rw [hevents]
      exact h.keyed.update fun _ => rfl
    · exact hevents.keyed h.keyed
  orderly := by
    rcases call_aside P s c with ⟨op, -, haside⟩ | ⟨-, db₀, rfl | ⟨op, -, rfl⟩, haside⟩
    · exact haside.orderly (Ordered.after h.orderly h.synced P op).1
    · exact haside.orderly h.orderly
    · exact haside.orderly (Ordered.after h.orderly h.synced P op).1
  synced := by
    rcases call_aside P s c with ⟨op, -, haside⟩ | ⟨-, db₀, rfl | ⟨op, -, rfl⟩, haside⟩
    · exact haside.synced (Ordered.after h.orderly h.synced P op).2
    · exact haside.synced h.synced
    · exact haside.synced (Ordered.after h.orderly h.synced P op).2

theorem ordered_calls (P : Platform) (cs : List Call) : Ordered (cs.foldl (State.call P) {}) := by
  have hloop : ∀ (cs : List Call) (s : State), Ordered s → Ordered (cs.foldl (State.call P) s) := by
    intro cs
    induction cs with
    | nil => exact fun _ h => h
    | cons c cs ih => exact fun s h => ih _ (h.call P c)
  exact hloop cs {} ordered_empty

/-- A call keeps both ceilings exactly where it finds room. -/
theorem within_call_iff (h : Ordered s) (hw : Within tenant s.db) (P : Platform) (c : Call) :
    Within tenant (s.call P c).db ↔ Room tenant s c := by
  have hevents : pendingEvents (s.call P c).db tenant ≤ 1000 ↔
      ∀ env channel eventKey actor, c = .routing (.retry env tenant channel eventKey actor) →
        Retries env s.db tenant channel eventKey actor → pendingEvents s.db tenant < 1000 := by
    rcases call_events P s c with ⟨env, tenant', channel, eventKey, actor, rfl, hretries, hevents⟩ |
      ⟨hnot, hevents⟩
    · rw [pendingEvents, hevents, countP_retried hretries h.keyed]
      have hle := hw.events
      constructor
      · rintro hroom _ _ _ _ ⟨⟩ -
        rw [if_pos rfl] at hroom
        omega
      · intro hroom
        split
        · rename_i htenant
          subst htenant
          have hlt := hroom _ _ _ _ rfl hretries
          omega
        · exact hle
    · refine ⟨fun _ _ _ _ _ hc hretries => absurd hretries (hnot _ _ _ _ _ hc), fun _ => ?_⟩
      exact hevents.countP_le h.keyed hw.events
  have htasks : (s.call P c).db.activeTasks tenant ≤ 1000 ↔
      ∀ op, opOf s c = some op → Spare tenant s.db op := by
    have hiff : ∀ op, (s.db.after P op).activeTasks tenant ≤ 1000 ↔ Spare tenant s.db op := fun op =>
      Engine.Step.activeTasks_iff (P := P) h.orderly h.synced rfl hw.tasks
    rcases call_aside P s c with ⟨op, hop, haside⟩ | ⟨hnone, db₀, hdb₀, haside⟩
    · rw [haside.activeTasks, hiff, hop]
      exact ⟨fun hspare op' heq => Option.some.inj heq ▸ hspare, fun hspare => hspare op rfl⟩
    · refine ⟨fun _ op hop => ?_, fun _ => ?_⟩
      · rw [hnone] at hop
        cases hop
      · rw [haside.activeTasks]
        rcases hdb₀ with rfl | ⟨op, hop, rfl⟩
        · exact hw.tasks
        · exact (hiff op).2 (spare_of_unsettled hop)
  exact ⟨fun ⟨he, ht⟩ => ⟨hevents.1 he, htasks.1 ht⟩, fun hroom => ⟨hevents.2 hroom.events, htasks.2 hroom.tasks⟩⟩

/-- **The ceilings of the queues.** Whatever anyone calls, both ceilings of a tenant hold in every state
reached exactly if every call finds room for what it does not count. -/
theorem ceilings_iff (P : Platform) (tenant : String) (cs : List Call) :
    (∀ τ ∈ transitions P cs, Within tenant τ.dst.db) ↔
      ∀ τ ∈ transitions P cs, Room tenant τ.src τ.label := by
  have hloop : ∀ (cs : List Call) (s : State), Ordered s → Within tenant s.db →
      ((∀ τ ∈ trace (State.call P) s cs, Within tenant τ.dst.db) ↔
        ∀ τ ∈ trace (State.call P) s cs, Room tenant τ.src τ.label) := by
    intro cs
    induction cs with
    | nil => exact fun s _ _ => ⟨fun _ τ hτ => absurd hτ List.not_mem_nil, fun _ τ hτ => absurd hτ List.not_mem_nil⟩
    | cons c cs ih =>
      intro s h hw
      have hone := within_call_iff h hw P c
      rw [trace, List.forall_mem_cons, List.forall_mem_cons]
      constructor
      · rintro ⟨hfirst, hrest⟩
        exact ⟨hone.1 hfirst, (ih _ (h.call P c) hfirst).1 hrest⟩
      · rintro ⟨hfirst, hrest⟩
        have hw' := hone.2 hfirst
        exact ⟨hw', (ih _ (h.call P c) hw').2 hrest⟩
  refine hloop cs {} ordered_empty ⟨?_, ?_⟩
  · exact Nat.zero_le _
  · exact Nat.zero_le _

end Calls

/-! ### A retry past the ceiling -/

section Retried

/-- An event comes, is claimed and planned, and the planner fails. -/
def failedCalls : List Call :=
  [.routing (.accept (sampleEnv 0) "acme" "mail" "m1" (.obj [])),
    .routing (.claim 0 (sampleEnv 0) "acme" none []), .routing (.lookTask 0), .routing (.lookTurn 0),
    .routing (.route 0 (sampleEnv 0) (.error (.lookupError "")) (sampleEnv 0)), .routing (.mark 0)]

/-- The `n`th of the events that come then. -/
def nextCall (n : ℕ) : Call := .routing (.accept (sampleEnv 0) "acme" "web" (toString n) (.obj []))

def retryCall : Call := .routing (.retry (sampleEnv 0) "acme" "mail" "m1" "dana")

/-- One failed event and `n` pending ones, all of one day. -/
structure Filled (n : ℕ) (s : State) : Prop where
  events : s.db.events.map (fun e => (e.key, e.status)) = (("acme", "mail", "m1"), .failed) ::
    (List.range n).map fun i => (("acme", "web", toString i), .pending)
  quota : s.quota.map (fun q => (q.tenant, q.day, q.count)) = [("acme", 0, n + 1)]
  freeze : s.db.freeze = []

theorem toString_injective {m n : ℕ} (h : toString m = toString n) : m = n := by
  have hdigits : Nat.toDigits 10 m = Nat.toDigits 10 n := by
    rw [← Nat.toList_repr, ← Nat.toList_repr]
    exact congrArg String.toList h
  rw [← Nat.ofDigitChars_ten_toDigits (n := m), hdigits, Nat.ofDigitChars_ten_toDigits]

theorem isIdentity_toString {n : ℕ} (hn : n < 1000) : isIdentity (toString n) = true := by
  have hlength : (toString n).length ≤ 3 := by
    change (Nat.repr n).length ≤ 3
    rw [← String.length_toList, Nat.toList_repr]
    exact (Nat.length_toDigits_le_iff (by decide) (by decide)).2 hn
  have hne : toString n ≠ "" := by
    intro h
    have hnil : Nat.toDigits 10 n = [] := by
      rw [← Nat.toList_repr]
      exact congrArg String.toList h
    exact Nat.toDigits_ne_nil hnil
  simp only [isIdentity, Bool.and_eq_true, decide_eq_true_eq]
  exact ⟨hne, by omega⟩

variable {n : ℕ} {s : State}

theorem Filled.pendingEvents (h : Filled n s) : pendingEvents s.db "acme" = n := by
  have hcount : s.db.events.countP (isPending "acme") =
      (s.db.events.map fun e => (e.key, e.status)).countP fun x =>
        decide (x.1.1 = "acme") && (decide (x.2 = .pending) || decide (x.2 = .processing)) := by
    rw [List.countP_map]
    rfl
  rw [Routing.pendingEvents, hcount, h.events, List.countP_cons, List.countP_map]
  simp [Function.comp_def]

theorem Filled.frozen (h : Filled n s) : s.db.frozen "acme" = false := by
  rw [Db.frozen, h.freeze]
  rfl

/-- Another event is accepted. -/
theorem Filled.next (h : Filled n s) (hn : n < 1000) :
    Filled (n + 1) (s.call samplePlatform (nextCall n)) := by
  have hevent : s.db.event? "acme" "web" (toString n) = none := by
    refine event?_eq_none.2 fun e he hkey => ?_
    have hmem : (e.key, e.status) ∈ s.db.events.map fun e => (e.key, e.status) := List.mem_map_of_mem he
    rw [h.events, hkey, List.mem_cons, List.mem_map] at hmem
    rcases hmem with heq | ⟨i, hi, heq⟩
    · have hchannel : "web" = "mail" := congrArg (fun x => x.1.2.1) heq
      exact absurd hchannel (by decide)
    · simp only [Prod.mk.injEq, true_and] at heq
      rw [toString_injective heq.1] at hi
      exact absurd (List.mem_range.1 hi) (lt_irrefl n)
  obtain ⟨q, hq, htenant, hday, hcount⟩ : ∃ q : QuotaRow, s.quota = [q] ∧ q.tenant = "acme" ∧ q.day = 0 ∧
      q.count = n + 1 := by
    obtain ⟨q, rest, hq, hrow, hrest⟩ := List.map_eq_cons_iff.1 h.quota
    rw [List.map_eq_nil_iff.1 hrest] at hq
    simp only [Prod.mk.injEq] at hrow
    exact ⟨q, hq, hrow.1, hrow.2.1, hrow.2.2⟩
  have hactive : (sampleEnv 0).requireActive s.db "acme" = .ok () := by
    simp only [Env.requireActive, bind_eq_ok, exists_unit, ensure_eq_ok]
    exact ⟨rfl, h.frozen⟩
  obtain ⟨t, ht⟩ : ∃ t,
      acceptEvent samplePlatform (sampleEnv 0) s "acme" "web" (toString n) (.obj []) = .ok (t, false) := by
    simp only [acceptEvent, bind_eq_ok, exists_unit, ensure_eq_ok, hevent, pure_eq_ok]
    refine ⟨_, ?_, rfl, by decide +kernel, rfl, hactive, ⟨?_, ?_⟩, rfl⟩
    · rw [List.all_cons, List.all_cons, List.all_cons, isIdentity_toString hn]
      decide
    · exact lt_of_eq_of_lt h.pendingEvents hn
    · rw [hq]
      have hlt : q.count < 10000 := by omega
      simp [htenant, hday, hlt, sampleEnv, seconds]
  have hout := ht
  simp only [acceptEvent, bind_eq_ok, exists_unit, ensure_eq_ok, hevent, pure_eq_ok] at hout
  obtain ⟨-, -, -, -, -, -, hout⟩ := hout
  obtain ⟨hout, -⟩ := Prod.mk.inj hout
  have hevents : t.db.events.map (fun e => (e.key, e.status)) =
      s.db.events.map (fun e => (e.key, e.status)) ++ [(("acme", "web", toString n), .pending)] := by
    rw [← hout]
    exact List.map_append
  have hquota : t.quota.map (fun q => (q.tenant, q.day, q.count)) = [("acme", 0, n + 2)] := by
    rw [← hout, hq]
    simp [htenant, hday, hcount, Table.update, sampleEnv, seconds]
  have hfreeze : t.db.freeze = s.db.freeze := by rw [← hout]
  have hcall : s.call samplePlatform (nextCall n) = t := by
    change commit s (acceptEvent samplePlatform (sampleEnv 0) s "acme" "web" (toString n) (.obj [])) = t
    rw [ht]
    rfl
  rw [hcall]
  refine ⟨?_, hquota, hfreeze.trans h.freeze⟩
  rw [hevents, h.events, List.range_succ, List.map_append, List.cons_append]
  rfl

theorem filled (hn : n ≤ 1000) :
    Filled n (((List.range n).map nextCall).foldl (State.call samplePlatform)
      (failedCalls.foldl (State.call samplePlatform) {})) := by
  induction n with
  | zero => exact ⟨by decide +kernel, by decide +kernel, by decide +kernel⟩
  | succ n ih =>
    rw [List.range_succ, List.map_append, List.foldl_append]
    exact (ih (Nat.le_of_succ_le hn)).next hn

/-- A failed event is retried while 1000 others are pending. -/
theorem not_within : ¬ ∀ (P : Platform) (tenant : String) (cs : List Call),
    ∀ τ ∈ transitions P cs, Within tenant τ.dst.db := by
  intro hall
  have h := filled (le_refl 1000)
  generalize hs : ((List.range 1000).map nextCall).foldl (State.call samplePlatform)
    (failedCalls.foldl (State.call samplePlatform) {}) = s at h
  have hretries : Retries (sampleEnv 0) s.db "acme" "mail" "m1" "dana" := by
    have hactive : (sampleEnv 0).requireActive s.db "acme" = .ok () := by
      simp only [Env.requireActive, bind_eq_ok, exists_unit, ensure_eq_ok]
      exact ⟨rfl, h.frozen⟩
    obtain ⟨e, rest, he, hrow, -⟩ := List.map_eq_cons_iff.1 h.events
    obtain ⟨hkey, hfailed⟩ := Prod.mk.inj hrow
    exact ⟨hactive, rfl, fun _ _ => rfl, e, he ▸ List.mem_cons_self, hkey, hfailed⟩
  have hkeyed : Keyed EventRow.key s.db.events := by
    have hordered := ordered_calls samplePlatform (failedCalls ++ (List.range 1000).map nextCall)
    rw [List.foldl_append, hs] at hordered
    exact hordered.keyed
  have hmem : (⟨s, retryCall, s.call samplePlatform retryCall⟩ : Transition State Call) ∈
      transitions samplePlatform (failedCalls ++ (List.range 1000).map nextCall ++ [retryCall]) := by
    rw [transitions, trace_append, List.foldl_append, hs]
    exact List.mem_append_right _ List.mem_cons_self
  have hcount := (hall samplePlatform "acme" _ _ hmem).events
  have hretried : (s.call samplePlatform retryCall).db.events = retried s.db "acme" "mail" "m1" := by
    rw [retryCall, State.call, State.after, retryEvent_eq_ok.2 ⟨hretries, rfl⟩]
  rw [Routing.pendingEvents, hretried, countP_retried hretries hkeyed, h.pendingEvents] at hcount
  exact absurd hcount (by decide)

end Retried

end AgentPlatform.Routing
