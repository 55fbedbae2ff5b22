import AgentPlatform.Conversation.Desk
import AgentPlatform.Conversation.OneLive

/-!
# Captured orders

* `Books` is the invariant: every captured order has its task, of one `records.create` step, under the key
  of its event; an event has one order; and of the orders of one customer at most one is undecided.
* `Side` lists what a transaction of a worker does besides the turn it writes, and `Step.sides` takes the
  labels apart: a label of the conversations, then some of these.
* `settle_leaves` is the transaction of `_settle`: with an order agent, a valid draft leaves an order or a
  handoff.

A decision is never taken back (`Effect.solo_active`), so a customer with no undecided order gets one only
where `capture` adds it, and `capture` counts the undecided ones first.
-/

namespace AgentPlatform.Conversation

open Outcome Engine Table Runs

/-! ### The books -/

/-- The task of a captured order. -/
structure Taken (P : Platform) (db : Db) (o : Order) : Prop where
  row : ∃ t ∈ db.tasks, t.id = o.task ∧ (t.tenant, t.channel, t.actor, t.agent) = o.customer ∧
    t.eventKey = derivedKey P [o.eventKey, "order"]
  step : ∃ spec ∈ db.specs, spec.task = o.task ∧ spec.tenant = o.tenant ∧ spec.tool = orderWriteTool
  solo : Solo db o.task

/-- The task of the order waits for a decision or runs. -/
def undecided (db : Db) (o : Order) : Bool :=
  db.tasks.any fun t => decide (t.id = o.task) && t.status.active

/-- The captured orders and the tasks agree. -/
structure Books (P : Platform) (db : Db) (orders : List Order) : Prop where
  orderly : Orderly db
  synced : Synced db
  taken : ∀ o ∈ orders, Taken P db o
  events : Keyed Order.event orders
  customers : ∀ o ∈ orders, ∀ o' ∈ orders, o.customer = o'.customer → undecided db o = true →
    undecided db o' = true → o = o'

section Books

variable {P : Platform} {env : Env} {db db' : Db} {orders : List Order} {op : Op} {o : Order}

theorem undecided_eq_true :
    undecided db o = true ↔ ∃ t ∈ db.tasks, t.id = o.task ∧ t.status.active = true := by
  simp [undecided, List.any_eq_true]

theorem books_empty (P : Platform) : Books P {} [] where
  orderly := orderly_empty
  synced := synced_empty
  taken := by simp
  events := keyed_nil _
  customers := by simp

theorem Taken.effect {out : Reply} (ho : Orderly db) (h : Taken P db o)
    (he : Engine.Effect P db op out db') : Taken P db' o where
  row := by
    obtain ⟨t, ht, hid, hcustomer, hkey⟩ := h.row
    obtain ⟨status, ht'⟩ := (he.moves ho.wf ho.placed).task ht
    exact ⟨_, ht', hid, hcustomer, hkey⟩
  step := by
    obtain ⟨spec, hspec, hfields⟩ := h.step
    exact ⟨spec, he.specs_kept ho hspec, hfields⟩
  solo := he.solo ho h.solo

theorem Books.effect {out : Reply} (h : Books P db orders) (he : Engine.Effect P db op out db') :
    Books P db' orders where
  orderly := he.orderly h.orderly
  synced := he.synced h.orderly h.synced
  taken o ho := (h.taken o ho).effect h.orderly he
  events := h.events
  customers o ho o' ho' hcustomer hu hu' := by
    have hback : ∀ o ∈ orders, undecided db' o = true → undecided db o = true := by
      intro o ho hu
      obtain ⟨t, ht, hid, hactive⟩ := undecided_eq_true.1 hu
      exact undecided_eq_true.2 (he.solo_active h.orderly h.synced (h.taken o ho).solo ht hid hactive)
    exact h.customers o ho o' ho' hcustomer (hback o ho hu) (hback o' ho' hu')

theorem Books.run {τs : List (Transition Db Op)} (h : Books P db orders)
    (hr : Run (Engine.Step P) db τs db') : Books P db' orders :=
  hr.invariant (I := fun db => Books P db orders) h fun db op db' h hs => by
    obtain ⟨out, he, -⟩ := hs.effect
    exact h.effect he

/-- The query finds the key of an order, in both its forms. -/
theorem isOrderKey_derivedKey (eventKey : String) :
    isOrderKey (derivedKey P [eventKey, "order"]) = true := by
  unfold derivedKey isOrderKey
  dsimp only
  rw [Bool.or_eq_true]
  split
  · left
    rw [List.isSuffixOf_iff_suffix]
    refine ⟨eventKey.toList.map Char.toLower, ?_⟩
    have hkey : ":".intercalate [eventKey, "order"] = eventKey ++ ":order" := by
      show eventKey ++ ":" ++ "order" = _
      rw [String.append_assoc]
      rfl
    rw [hkey, String.toList_append, List.map_append]
    congr 1
  · right
    rw [List.isPrefixOf_iff_prefix]
    refine ⟨(digest P.sha256 (.arr ([eventKey, "order"].map .str))).toList.map Char.toLower, ?_⟩
    rw [show [eventKey, "order"].getLastD "" = "order" from rfl, String.toList_append,
      String.toList_append, List.map_append]
    congr 1

/-- An undecided order is counted. -/
theorem Taken.pending (hwf : Wf db) (h : Taken P db o) (hu : undecided db o = true) :
    0 < pendingOrders db o.customer := by
  obtain ⟨t, ht, hid, hactive⟩ := undecided_eq_true.1 hu
  obtain ⟨t', ht', hid', hcustomer, hkey⟩ := h.row
  obtain rfl := hwf.tasks.eq_of_key ht ht' (hid.trans hid'.symm)
  obtain ⟨spec, hspec, htask, htenant, htool⟩ := h.step
  obtain ⟨r, hr, rfl⟩ := List.mem_map.1 hspec
  refine List.countP_pos_iff.2 ⟨t, ht, ?_⟩
  have hstep : (db.steps.any fun r => decide (r.tenant = t.tenant) && decide (r.task = t.id) &&
      decide (r.spec.tool = orderWriteTool)) = true := by
    refine List.any_eq_true.2 ⟨r, hr, ?_⟩
    have hsame : t.tenant = o.tenant := congrArg Prod.fst hcustomer
    simp only [Bool.and_eq_true, decide_eq_true_eq]
    exact ⟨⟨htenant.trans hsame.symm, htask.trans hid.symm⟩, htool⟩
  simp only [isPendingOrder, Bool.and_eq_true, decide_eq_true_eq]
  exact ⟨⟨⟨hcustomer, hactive⟩, hkey ▸ isOrderKey_derivedKey _⟩, hstep⟩

/-- What a submission of one step inserts under a new key. -/
theorem submit_one {tenant channel key agent actor : String} {step : Json} {task : Uuid}
    (h : submit P env db tenant channel key agent [step] actor = .ok (db', task))
    (hnew : db.taskOf? tenant channel key = none) : ∃ v fingerprint, toolName step = .ok v.tool ∧
      task = db.drawn ∧ v.args = step.getD "args" (.obj []) ∧
      db' = db.insertTask tenant channel key fingerprint agent actor [v] "" env.now := by
  simp only [submit, bind_eq_ok, exists_unit, ensure_eq_ok] at h
  obtain ⟨-, -, plan, hplan, -, h⟩ := h
  obtain ⟨policy, -, hforall⟩ := validated_cases hplan
  cases hforall with
  | @cons _ v _ _ hv hrest =>
    cases hrest
    rcases createTask_cases h with ⟨old, hold, -, -⟩ | ⟨-, htask, -, fingerprint, rfl⟩
    · rw [hnew] at hold
      cases hold
    · exact ⟨v, fingerprint, (validatedStep_cases hv).1, htask, (validatedStep_cases hv).2.1, rfl⟩

theorem step_of_submit {tenant channel key agent actor : String} {step : Json} {task : Uuid}
    (h : submit P env db tenant channel key agent [step] actor = .ok (db', task))
    (hnew : db.taskOf? tenant channel key = none) : ∃ spec ∈ db'.specs, spec.task = task ∧
      spec.tenant = tenant ∧ toolName step = .ok spec.tool ∧ spec.args = step.getD "args" (.obj []) := by
  obtain ⟨v, fingerprint, htool, rfl, hargs, rfl⟩ := submit_one h hnew
  rw [specs_insertTask_one]
  exact ⟨_, List.mem_append_right _ List.mem_cons_self, rfl, rfl, htool, hargs⟩

/-- The task of a new order. -/
theorem taken_of_submit {step : Json} (ho : Orderly db)
    (hnew : db.taskOf? o.tenant o.channel (derivedKey P [o.eventKey, "order"]) = none)
    (htool : toolName step = .ok orderWriteTool)
    (hsubmit : submit P env db o.tenant o.channel (derivedKey P [o.eventKey, "order"]) o.agent [step]
      o.sender = .ok (db', o.task)) : Taken P db' o := by
  refine ⟨?_, ?_, (solo_of_submit ho hsubmit hnew).2⟩
  · obtain ⟨v, fingerprint, -, htask, -, rfl⟩ := submit_one hsubmit hnew
    obtain ⟨status, hrow⟩ := insertTask_row db o.tenant o.channel
      (derivedKey P [o.eventKey, "order"]) fingerprint o.agent o.sender [v] "" env.now
    exact ⟨_, hrow, htask.symm, rfl, rfl⟩
  · obtain ⟨spec, hspec, htask, htenant, hname, -⟩ := step_of_submit hsubmit hnew
    exact ⟨spec, hspec, htask, htenant, Except.ok.inj (hname.symm.trans htool)⟩

/-- **A captured order keeps the books**, its event having no task and its customer no pending order. -/
theorem Books.capture (h : Books P db orders) {step : Json}
    (hnew : db.taskOf? o.tenant o.channel (derivedKey P [o.eventKey, "order"]) = none)
    (hfree : pendingOrders db o.customer < maxPendingOrdersPerSender)
    (htool : toolName step = .ok orderWriteTool)
    (hsubmit : submit P env db o.tenant o.channel (derivedKey P [o.eventKey, "order"]) o.agent [step]
      o.sender = .ok (db', o.task)) : Books P db' (orders ++ [o]) := by
  have he := submit_effect hsubmit
  have h' := h.effect he
  -- no order of the customer was undecided, and none has become so
  have hdecided : ∀ o' ∈ orders, o'.customer = o.customer → undecided db' o' = false := by
    intro o' ho' hcustomer
    by_contra hu
    obtain ⟨t, ht, hid, hactive⟩ := undecided_eq_true.1 (Bool.eq_true_of_not_eq_false hu)
    have hbefore : undecided db o' = true :=
      undecided_eq_true.2 (he.solo_active h.orderly h.synced (h.taken o' ho').solo ht hid hactive)
    have hpending := (h.taken o' ho').pending h.orderly.wf hbefore
    rw [hcustomer] at hpending
    exact absurd hfree (Nat.not_lt.2 hpending)
  refine ⟨h'.orderly, h'.synced, fun o' ho' => ?_, h.events.insert fun o' ho' hevent => ?_, ?_⟩
  · rcases List.mem_append.1 ho' with hold | hone
    · exact h'.taken o' hold
    · obtain rfl := List.mem_singleton.1 hone
      exact taken_of_submit h.orderly hnew htool hsubmit
  · obtain ⟨t, ht, -, hcustomer, hkey⟩ := (h.taken o' ho').row
    simp only [Order.customer, Order.event, Prod.mk.injEq] at hcustomer hevent
    refine absurd ?_ (taskOf?_eq_none.1 hnew)
    refine List.mem_map.2 ⟨t, ht, ?_⟩
    show (t.tenant, t.channel, t.eventKey) = _
    rw [hcustomer.1, hcustomer.2.1, hkey, hevent.1, hevent.2.1, hevent.2.2]
  · intro a ha b hb hcustomer hua hub
    rcases List.mem_append.1 ha with hold | hone <;> rcases List.mem_append.1 hb with hold' | hone'
    · exact h'.customers a hold b hold' hcustomer hua hub
    · obtain rfl := List.mem_singleton.1 hone'
      rw [hdecided a hold hcustomer] at hua
      cases hua
    · obtain rfl := List.mem_singleton.1 hone
      rw [hdecided b hold' hcustomer.symm] at hub
      cases hub
    · rw [List.mem_singleton.1 hone, List.mem_singleton.1 hone']

end Books

/-! ### What a transaction does besides the turn -/

/-- One write of a transaction next to the turn `u`. -/
inductive Side (P : Platform) (repr : Json → String) (env : Env) (u : TurnRow) (d : Desk) : Desk → Prop
  | handed (row : HandoffRow) (hid : row.id = Desk.handoffId u) :
      Side P repr env u d { d with handoffs := d.handoffs ++ [row] }
  | told {tenant channel key agent actor : String} {steps : List Json} {db : Db} {task : Uuid}
      (hsubmit : submit P env d.db tenant channel key agent steps actor = .ok (db, task)) :
      Side P repr env u d (d.setDb db)
  | captured {config : OrderSettings} {draft : Json} {db : Db} {task : Uuid}
      (hnew : d.db.taskOf? u.tenant u.channel (Desk.orderKey P u) = none)
      (hfree : pendingOrders d.db (Desk.customerOf u config.orderAgent) < maxPendingOrdersPerSender)
      (hsubmit : submit P env d.db u.tenant u.channel (Desk.orderKey P u) config.orderAgent
        (orderSteps repr config u draft) u.sender = .ok (db, task)) :
      Side P repr env u d ((d.setDb db).captured u config.orderAgent task)

/-- The writes of a transaction next to the turn. -/
abbrev Sides (P : Platform) (repr : Json → String) (env : Env) (u : TurnRow) : Desk → Desk → Prop :=
  Relation.ReflTransGen (Side P repr env u)

section Sides

variable {P : Platform} {repr : Json → String} {env : Env} {u : TurnRow} {d t : Desk} {w : ℕ}

theorem sideTask_cases {tenant channel key agent actor : String} {steps : List Json}
    {task : Option Uuid} (h : Desk.sideTask P env d tenant channel key agent steps actor = .ok (t, task)) :
    (∃ old, d.db.taskOf? tenant channel key = some old ∧ t = d ∧ task = some old.id) ∨
      d.db.taskOf? tenant channel key = none ∧
        (t = d ∧ task = none ∨ ∃ db id, submit P env d.db tenant channel key agent steps actor =
          .ok (db, id) ∧ t = d.setDb db ∧ task = some id) := by
  unfold Desk.sideTask at h
  split at h
  · rename_i old hold
    obtain ⟨rfl, rfl⟩ := Prod.mk.inj (Except.ok.inj h)
    exact .inl ⟨old, hold, rfl, rfl⟩
  · rename_i hnew
    refine .inr ⟨hnew, ?_⟩
    split at h
    · rename_i db id hsubmit
      obtain ⟨rfl, rfl⟩ := Prod.mk.inj (Except.ok.inj h)
      exact .inr ⟨db, id, hsubmit, rfl, rfl⟩
    · split at h
      · obtain ⟨rfl, rfl⟩ := Prod.mk.inj (Except.ok.inj h)
        exact .inl ⟨rfl, rfl⟩
      · cases h

theorem notify_sides {kind text : String} (h : Desk.notify P env d u kind text = .ok t) :
    Sides P repr env u d t := by
  simp only [Desk.notify, bind_eq_ok] at h
  obtain ⟨config, -, h⟩ := h
  split at h
  · obtain rfl := pure_eq_ok.1 h
    exact .refl
  · obtain ⟨⟨t', task⟩, hside, h⟩ := bind_eq_ok.1 h
    obtain rfl := pure_eq_ok.1 h
    rcases sideTask_cases hside with ⟨-, -, rfl, -⟩ | ⟨-, ⟨rfl, -⟩ | ⟨db, id, hsubmit, rfl, -⟩⟩
    · exact .refl
    · exact .refl
    · exact .single (.told hsubmit)

theorem handoff_sides {reason : String} (h : Desk.handoff P env d u reason = .ok t) :
    Sides P repr env u d t := by
  unfold Desk.handoff at h
  split at h
  · obtain rfl := pure_eq_ok.1 h
    exact .refl
  · exact .head (.handed _ rfl) (notify_sides h)

theorem place_sides {config : OrderSettings} {draft : Json}
    (hfree : d.db.taskOf? u.tenant u.channel (Desk.orderKey P u) = none →
      pendingOrders d.db (Desk.customerOf u config.orderAgent) < maxPendingOrdersPerSender)
    (h : Desk.place P repr env d u config draft = .ok t) : Sides P repr env u d t := by
  simp only [Desk.place, bind_eq_ok] at h
  obtain ⟨⟨t', task⟩, hside, h⟩ := h
  rcases sideTask_cases hside with ⟨old, hold, rfl, rfl⟩ | ⟨hnew, ⟨rfl, rfl⟩ | ⟨db, id, hsubmit, rfl, rfl⟩⟩
  · dsimp only at h
    rw [hold] at h
    exact notify_sides h
  · exact handoff_sides h
  · dsimp only at h
    rw [hnew] at h
    exact .head (.captured hnew (hfree hnew) hsubmit) (notify_sides h)

theorem capture_sides (h : Desk.capture P repr env d u = .ok t) : Sides P repr env u d t := by
  simp only [Desk.capture, bind_eq_ok] at h
  obtain ⟨config, -, h⟩ := h
  split at h
  · obtain rfl := pure_eq_ok.1 h
    exact .refl
  · split at h
    · obtain rfl := pure_eq_ok.1 h
      exact .refl
    · split at h
      · exact handoff_sides h
      · rename_i hbusy
        refine place_sides (fun hnew => ?_) h
        by_contra hpending
        exact hbusy ⟨by rw [hnew]; rfl, Nat.not_lt.1 hpending⟩

/-- What a label does: a label of the conversations, its own or the crash that undid it, and in a
transaction of a worker some writes next to it. -/
inductive Worked (P : Platform) (repr : Json → String) (d : Desk) (l : Label) : Desk → Prop
  | base (l' : Label) : Worked P repr d l { d with base := d.base.after P l' }
  | wrote {env : Env} {u : TurnRow} {base : State} {t : Desk} (hbase : Step P d.base l base)
      (hsides : Sides P repr env u { d with base := base } t) : Worked P repr d l t

theorem worked_committed {l : Label} {base : State} {x : Except Err Desk}
    (hbase : Step P d.base l base) (hx : ∀ t, x = .ok t → Sides P repr env u { d with base := base } t) :
    Worked P repr d l (d.committed w x) := by
  cases x with
  | ok t => exact .wrote hbase (hx t rfl)
  | error e => exact .base (.crash w)

theorem finish_sides {status : TurnStatus} {error : String}
    (h : Desk.finish P env d w u status error = .ok t) :
    Sides P repr env u { d with base := d.base.finish w u status error } t := by
  unfold Desk.finish at h
  dsimp only at h
  split at h
  · exact handoff_sides h
  · obtain rfl := pure_eq_ok.1 h
    exact .refl

theorem leave_sides (h : Desk.leave P env d w u = .ok t) :
    Sides P repr env u { d with base := d.base.leave w u } t := by
  unfold Desk.leave at h
  dsimp only at h
  split at h
  · exact handoff_sides h
  · obtain rfl := pure_eq_ok.1 h
    exact .refl

theorem settle_sides {reply reason : String} (h : Desk.settle P repr env d w u reply reason = .ok t) :
    Sides P repr env u { d with base := d.base.settle w u reply reason } t := by
  unfold Desk.settle at h
  dsimp only at h
  split at h
  · split at h
    · exact capture_sides h
    · obtain ⟨told, htold, h⟩ := bind_eq_ok.1 h
      exact .trans (handoff_sides htold) (capture_sides h)
  · obtain rfl := pure_eq_ok.1 h
    exact .refl

theorem work_worked {reads : Reads} :
    Worked P repr d (.work w env reads) (d.work P repr env w reads) := by
  have hstep : ∀ {base : State}, d.base.work P w env reads = base →
      Step P d.base (.work w env reads) base := fun h => h.symm
  unfold Desk.work
  split
  · rename_i u status error hw
    refine worked_committed (hstep ?_) fun t => finish_sides
    unfold State.work
    rw [hw]
  · rename_i u hw
    refine worked_committed (hstep ?_) fun t => leave_sides
    unfold State.work
    rw [hw]
  · rename_i u reply reason hw
    refine worked_committed (hstep ?_) fun t => settle_sides
    unfold State.work
    rw [hw]
  · exact .base (.work w env reads)

theorem Desk.Step.worked {l : Label} (h : Desk.Step P repr d l t) : Worked P repr d l t := by
  obtain rfl : t = d.after P repr l := h
  cases l with
  | work w env reads => exact work_worked
  | _ => exact .base _

theorem Side.books (h : Books P d.db d.orders) (hside : Side P repr env u d t) :
    Books P t.db t.orders := by
  -- the columns the loop adds to the engine's tables are not in the books
  have hset : ∀ {db : Db} {orders : List Order}, Books P db orders → Books P (d.setDb db).db orders :=
    fun hbooks => hbooks.effect .elsewhere
  cases hside with
  | handed => exact h
  | told hsubmit => exact hset (h.effect (submit_effect hsubmit))
  | captured hnew hfree hsubmit => exact hset (h.capture hnew hfree rfl hsubmit)

theorem Sides.books (h : Books P d.db d.orders) (hsides : Sides P repr env u d t) :
    Books P t.db t.orders := by
  induction hsides with
  | refl => exact h
  | tail _ hside ih => exact hside.books ih

theorem Side.kept (h : Side P repr env u d t) : (∀ o ∈ d.orders, o ∈ t.orders) ∧
    ∀ row ∈ d.handoffs, row ∈ t.handoffs := by
  cases h with
  | handed => exact ⟨fun _ ho => ho, fun _ hrow => List.mem_append_left _ hrow⟩
  | told => exact ⟨fun _ ho => ho, fun _ hrow => hrow⟩
  | captured => exact ⟨fun _ ho => List.mem_append_left _ ho, fun _ hrow => hrow⟩

theorem Sides.kept (h : Sides P repr env u d t) : (∀ o ∈ d.orders, o ∈ t.orders) ∧
    ∀ row ∈ d.handoffs, row ∈ t.handoffs := by
  induction h with
  | refl => exact ⟨fun _ ho => ho, fun _ hrow => hrow⟩
  | tail _ hside ih =>
    exact ⟨fun o ho => hside.kept.1 o (ih.1 o ho), fun row hrow => hside.kept.2 row (ih.2 row hrow)⟩

theorem Sides.specs (ho : Orderly d.db) (h : Sides P repr env u d t) {spec : StepSpec}
    (hspec : spec ∈ d.db.specs) : spec ∈ t.db.specs := by
  have hkept : Orderly t.db ∧ spec ∈ t.db.specs := by
    induction h with
    | refl => exact ⟨ho, hspec⟩
    | tail _ hside ih =>
      cases hside with
      | handed => exact ih
      | told hsubmit | captured _ _ hsubmit =>
        have he := submit_effect hsubmit
        have hstays := he.specs_kept ih.1 ih.2
        exact ⟨Engine.Effect.orderly (P := P) (he.orderly ih.1) .elsewhere, hstays⟩
  exact hkept.2

theorem handed_mono {v : TurnRow} (h : ∀ row ∈ d.handoffs, row ∈ t.handoffs) (hd : d.handed v = true) :
    t.handed v = true := by
  obtain ⟨row, hrow, hp⟩ := List.any_eq_true.1 hd
  exact List.any_eq_true.2 ⟨row, h row hrow, hp⟩

end Sides

/-! ### Settling -/

section Settling

variable {P : Platform} {repr : Json → String} {env : Env} {u : TurnRow} {d t : Desk} {w : ℕ}
  {config : OrderSettings} {draft : Json}

/-- What a settled turn leaves of a draft: an order of its own, with the draft in its step. -/
structure Filed (P : Platform) (repr : Json → String) (u : TurnRow) (config : OrderSettings)
    (draft : Json) (before : Db) (t : Desk) (o : Order) : Prop where
  mem : o ∈ t.orders
  fresh : before.taskOf? o.tenant o.channel (derivedKey P [o.eventKey, "order"]) = none
  event : o.event = u.key
  customer : o.customer = Desk.customerOf u config.orderAgent
  step : ∃ spec ∈ t.db.specs, spec.task = o.task ∧ spec.tool = orderWriteTool ∧
    spec.args = orderArgs repr config u draft

theorem handoff_handed {reason : String} (h : Desk.handoff P env d u reason = .ok t) :
    t.handed u = true := by
  unfold Desk.handoff at h
  split at h
  · rename_i hd
    obtain rfl := pure_eq_ok.1 h
    exact hd
  · have hside : Sides P (fun _ => "") _ u _ t := notify_sides h
    refine handed_mono hside.kept.2 ?_
    refine List.any_eq_true.2 ⟨_, List.mem_append_right _ List.mem_cons_self, ?_⟩
    simp [Desk.handoffRow]

theorem place_leaves (ho : Orderly d.db)
    (hnew : d.db.taskOf? u.tenant u.channel (Desk.orderKey P u) = none)
    (h : Desk.place P repr env d u config draft = .ok t) :
    (∃ o, Filed P repr u config draft d.db t o) ∨ t.handed u = true := by
  simp only [Desk.place, bind_eq_ok] at h
  obtain ⟨⟨t', task⟩, hside, h⟩ := h
  rcases sideTask_cases hside with ⟨old, hold, -, -⟩ | ⟨-, ⟨rfl, rfl⟩ | ⟨db, id, hsubmit, rfl, rfl⟩⟩
  · rw [hnew] at hold
    cases hold
  · exact .inr (handoff_handed h)
  · dsimp only at h
    rw [hnew] at h
    have hsides : Sides P repr env u ((d.setDb db).captured u config.orderAgent id) t := notify_sides h
    refine .inl ⟨⟨u.tenant, u.channel, u.sender, config.orderAgent, u.eventKey, id⟩,
      hsides.kept.1 _ (List.mem_append_right _ List.mem_cons_self), hnew, rfl, rfl, ?_⟩
    have he := submit_effect hsubmit
    have horderly : Orderly ((d.setDb db).captured u config.orderAgent id).db :=
      Engine.Effect.orderly (P := P) (he.orderly ho) .elsewhere
    obtain ⟨spec, hspec, htask, -, hname, hargs⟩ := step_of_submit hsubmit hnew
    exact ⟨spec, hsides.specs horderly hspec, htask, (Except.ok.inj hname).symm, hargs⟩

theorem capture_leaves (ho : Orderly d.db) (hconfig : orderSettings env u.tenant u.agent = .ok config)
    (hagent : config.orderAgent ≠ "") (hdraft : u.run.bind (orderDraft d.base u.tenant) = some draft)
    (hnew : d.db.taskOf? u.tenant u.channel (Desk.orderKey P u) = none)
    (h : Desk.capture P repr env d u = .ok t) :
    (∃ o, Filed P repr u config draft d.db t o) ∨ t.handed u = true := by
  simp only [Desk.capture, bind_eq_ok] at h
  obtain ⟨config', hconfig', h⟩ := h
  obtain rfl := Except.ok.inj (hconfig.symm.trans hconfig')
  rw [hdraft] at h
  dsimp only at h
  rw [if_neg hagent] at h
  split at h
  · exact .inr (handoff_handed h)
  · exact place_leaves ho hnew h

/-- **A valid draft leaves an order or a handoff**, where the turn's agent has an order agent and no task
stands under the key of the order. -/
theorem settle_leaves {reply reason : String} (ho : Orderly d.db) (hopen : d.stands u .opened = true)
    (hconfig : orderSettings env u.tenant u.agent = .ok config) (hagent : config.orderAgent ≠ "")
    (hdraft : u.run.bind (orderDraft d.base u.tenant) = some draft)
    (hnew : d.db.taskOf? u.tenant u.channel (Desk.orderKey P u) = none)
    (h : Desk.settle P repr env d w u reply reason = .ok t) :
    (∃ o, Filed P repr u config draft d.db t o) ∨ t.handed u = true := by
  unfold Desk.settle at h
  dsimp only at h
  rw [if_pos hopen] at h
  split at h
  · -- the write of the turn touches neither the tasks nor the steps
    exact capture_leaves (d := { d with base := d.base.settle w u reply reason }) ho hconfig hagent hdraft
      hnew h
  · obtain ⟨told, htold, h⟩ := bind_eq_ok.1 h
    exact .inr (handed_mono (capture_sides h).kept.2 (handoff_handed htold))

end Settling

/-! ### Runs -/

section Runs

variable {P : Platform} {repr : Json → String} {τs : List (Transition Desk Label)} {d t : Desk} {l : Label}

theorem Desk.Step.books (h : Books P d.db d.orders) (hs : Desk.Step P repr d l t) :
    Books P t.db t.orders := by
  have hbase : ∀ {l : Label} {base : State}, Conversation.Step P d.base l base →
      Books P base.db d.orders := by
    intro l base hstep
    obtain ⟨τs', hrun⟩ := hstep.effect.engine
    exact h.run hrun
  cases hs.worked with
  | base l' => exact hbase (l := l') rfl
  | @wrote env u base _ hstep hsides =>
    exact Sides.books (d := { d with base := base }) (hbase hstep) hsides

theorem reachable_books (h : Run (Desk.Step P repr) {} τs d) : Books P d.db d.orders :=
  h.invariant (I := fun d => Books P d.db d.orders) (books_empty P) fun _ _ _ hbooks hs => hs.books hbooks

/-- The label makes a worker settle the turn: it was open, and is not any more. -/
def Settles (τ : Transition Desk Label) (env : Env) (u : TurnRow) : Prop :=
  ∃ w reads reply reason, τ.label = .work w env reads ∧ τ.src.base.workers w = .settled u reply reason ∧
    τ.src.stands u .opened = true ∧ τ.dst.stands u .opened = false

/-- The undecided orders of a customer. -/
def Desk.undecidedOf (d : Desk) (customer : String × String × String × String) : List Order :=
  d.orders.filter fun o => decide (o.customer = customer) && undecided d.db o

/-- The orders of an inbound event. -/
def Desk.ordersOf (d : Desk) (event : String × String × String) : List Order :=
  d.orders.filter fun o => o.event = event

theorem settles_settle {τ : Transition Desk Label} {env : Env} {u : TurnRow} (hs : Settles τ env u)
    (hstep : Desk.Step P repr τ.src τ.label τ.dst) : ∃ w reply reason,
      Desk.settle P repr env τ.src w u reply reason = .ok τ.dst := by
  obtain ⟨w, reads, reply, reason, hlabel, hw, hopen, hclosed⟩ := hs
  refine ⟨w, reply, reason, ?_⟩
  have hdst : τ.dst = τ.src.committed w (Desk.settle P repr env τ.src w u reply reason) := by
    rw [hlabel] at hstep
    have hwork : τ.dst = τ.src.work P repr env w reads := hstep
    rw [hwork]
    unfold Desk.work
    rw [hw]
  cases hx : Desk.settle P repr env τ.src w u reply reason with
  | ok t => rw [hdst, hx]; rfl
  | error e =>
    -- an undone transaction leaves the turn open
    rw [hx] at hdst
    rw [hdst] at hclosed
    exact absurd hopen (by rw [show τ.src.stands u .opened = false from hclosed]; simp)

theorem filter_length_le_one {α : Type} {q : α → Bool} {l : List α} (hnodup : l.Nodup)
    (h : ∀ a ∈ l, ∀ b ∈ l, q a = true → q b = true → a = b) : (l.filter q).length ≤ 1 := by
  match hl : l.filter q with
  | [] => simp
  | [a] => simp
  | a :: b :: rest =>
    have hsub := hnodup.filter q
    rw [hl] at hsub
    have ha : a ∈ l ∧ q a = true := List.mem_filter.1 (hl ▸ List.mem_cons_self)
    have hb : b ∈ l ∧ q b = true :=
      List.mem_filter.1 (hl ▸ List.mem_cons_of_mem _ List.mem_cons_self)
    have hab := h a ha.1 b hb.1 ha.2 hb.2
    rw [hab] at hsub
    exact absurd List.mem_cons_self (List.nodup_cons.1 hsub).1

/-- **Order capture.** In every run a customer has at most one undecided captured order, an inbound event
has at most one captured order, and a transaction that settles a turn whose run gave a valid draft leaves a
new order task with that draft or a handoff, where the turn's agent has an order agent and no task stands
under the key of the order yet. -/
theorem orders_captured (h : Run (Desk.Step P repr) {} τs d) :
    (∀ customer, (d.undecidedOf customer).length ≤ 1) ∧ (∀ event, (d.ordersOf event).length ≤ 1) ∧
    ∀ τ ∈ τs, ∀ env u config draft, Settles τ env u →
      orderSettings env u.tenant u.agent = .ok config → config.orderAgent ≠ "" →
      u.run.bind (orderDraft τ.src.base u.tenant) = some draft →
      τ.src.db.taskOf? u.tenant u.channel (Desk.orderKey P u) = none →
      (∃ o, Filed P repr u config draft τ.src.db τ.dst o ∧ Taken P τ.dst.db o) ∨ τ.dst.handed u = true := by
  have hbooks := reachable_books h
  refine ⟨fun customer => ?_, fun event => ?_, fun τ hτ env u config draft hs hconfig hagent hdraft hnew => ?_⟩
  · refine filter_length_le_one hbooks.events.nodup fun o ho o' ho' hq hq' => ?_
    simp only [Bool.and_eq_true, decide_eq_true_eq] at hq hq'
    exact hbooks.customers o ho o' ho' (hq.1.trans hq'.1.symm) hq.2 hq'.2
  · refine filter_length_le_one hbooks.events.nodup fun o ho o' ho' hq hq' => ?_
    exact hbooks.events.eq_of_key ho ho' ((of_decide_eq_true hq).trans (of_decide_eq_true hq').symm)
  · obtain ⟨hstep, hsrc⟩ := h.always (I := fun d => Books P d.db d.orders) (books_empty P)
      (fun _ _ _ hbooks hs => Desk.Step.books hbooks hs) hτ
    obtain ⟨w, reply, reason, hsettle⟩ := settles_settle hs hstep
    have hopen : τ.src.stands u .opened = true := by
      obtain ⟨w, reads, reply, reason, -, -, hopen, -⟩ := hs
      exact hopen
    rcases settle_leaves hsrc.orderly hopen hconfig hagent hdraft hnew hsettle with ⟨o, hfiled⟩ | hhanded
    · exact .inl ⟨o, hfiled, (Desk.Step.books hsrc hstep).taken o hfiled.mem⟩
    · exact .inr hhanded

/-! ### A customer's order -/

def textSchema : Schema := .mk .string none [] [] none 0 1000 0 4000 0 0

/-- A platform whose agent sends, drafts orders and records them. -/
def deskPlatform : Platform where
  registry := [⟨"telegram.send", .write, replySchema, false⟩, ⟨"orders.draft", .read, emptySchema, false⟩,
    ⟨"records.create", .write, .mk .object none [("kind", textSchema), ("title", textSchema),
      ("body", textSchema)] ["kind", "title", "body"] none 0 1000 0 4000 0 0, false⟩]
  sha256 := id

def deskEnv (orderAgent : String) (second : ℕ) : Env :=
  { sampleEnv second with
    policy := fun _ _ => .ok (.obj [("ladder", .str "human_assisted"), ("approval", .arr []),
      ("tools", .arr [.str "telegram.send", .str "orders.draft", .str "records.create"]),
      ("conversation", .obj [("enabled", .bool true), ("order_agent", .str orderAgent)])]) }

/-- A worker begins a `tick` and makes `n` statements of it. -/
def desked (orderAgent : String) (second n : ℕ) : List Label :=
  .tick 0 "acme" :: List.replicate n (.work 0 (deskEnv orderAgent second) ⟨true, "2 ta olaman", false⟩)

/-- The planner decides. -/
def decided (orderAgent : String) (second : ℕ) (decision : Json) : List Label :=
  [.loop (.reserve 0 (deskEnv orderAgent second) "acme" 0 true),
    .loop (.check 0 (deskEnv orderAgent second)), .loop (.invoke 0 (.ok decision)),
    .loop (.commit 0 (deskEnv orderAgent second))]

/-- A customer orders, the run drafts the order and answers, and a worker is about to settle the turn. -/
def draftLabels (orderAgent : String) : List Label :=
  customerEvent 1 "e1" "2 ta olaman" :: desked orderAgent 2 7 ++
    decided orderAgent 3 (.obj [("action", .str "tool"), ("tool", .str "orders.draft"), ("args", .obj [])]) ++
    [.loop (.engine (.claim (deskEnv orderAgent 4) "acme" "w1" "" 60)),
      .loop (.engine (.finish (deskEnv orderAgent 5) "acme" 1 (some 2) (.obj [("valid", .bool true),
        ("draft", .obj [("product_name", .str "kepka"), ("qty", .int 2), ("total_uzs", .int 150000)])])
        .succeeded ""))] ++
    decided orderAgent 6 (.obj [("action", .str "final"), ("answer", .str "Yozib oldim."),
      ("evidence_ids", .arr [.str "step:1"])]) ++ desked orderAgent 7 3

/-- The statement that settles it. -/
def draftSettle (orderAgent : String) : Label :=
  .work 0 (deskEnv orderAgent 7) ⟨true, "2 ta olaman", false⟩

def deskState (ls : List Label) : Desk := ls.foldl (Desk.after deskPlatform fun _ => "") {}

theorem deskState_run (ls : List Label) :
    Run (Desk.Step deskPlatform fun _ => "") {} (trace (Desk.after deskPlatform fun _ => "") {} ls)
      (deskState ls) :=
  Run.nil.calls ls

/-- The transition that settles the turn. -/
def draftSettled (orderAgent : String) : Transition Desk Label :=
  ⟨deskState (draftLabels orderAgent), draftSettle orderAgent,
    (deskState (draftLabels orderAgent)).after deskPlatform (fun _ => "") (draftSettle orderAgent)⟩

theorem draftSettled_run (orderAgent : String) :
    Run (Desk.Step deskPlatform fun _ => "") {}
      (trace (Desk.after deskPlatform fun _ => "") {} (draftLabels orderAgent) ++ [draftSettled orderAgent])
      (draftSettled orderAgent).dst := by
  unfold draftSettled
  generalize draftLabels orderAgent = ls
  generalize draftSettle orderAgent = l
  exact (deskState_run ls).snoc rfl

/-- What the settling worker finds: the turn, which it closes, a draft, and no task of the order. -/
def finds (τ : Transition Desk Label) (env : Env) (p : TurnRow → Bool) : Bool :=
  match τ.src.base.workers 0 with
  | .settled u _ _ => τ.src.stands u .opened && !τ.dst.stands u .opened &&
      (u.run.bind (orderDraft τ.src.base u.tenant)).isSome &&
      (τ.src.db.taskOf? u.tenant u.channel (Desk.orderKey deskPlatform u)).isNone &&
      (match orderSettings env u.tenant u.agent with
        | .ok _ => true
        | .error _ => false) && p u
  | _ => false

theorem finds_cases {orderAgent : String} {p : TurnRow → Bool}
    (h : finds (draftSettled orderAgent) (deskEnv orderAgent 7) p = true) :
    ∃ u draft config, Settles (draftSettled orderAgent) (deskEnv orderAgent 7) u ∧
      u.run.bind (orderDraft (draftSettled orderAgent).src.base u.tenant) = some draft ∧
      (draftSettled orderAgent).src.db.taskOf? u.tenant u.channel (Desk.orderKey deskPlatform u) = none ∧
      orderSettings (deskEnv orderAgent 7) u.tenant u.agent = .ok config ∧ p u = true := by
  unfold finds at h
  split at h
  · rename_i u reply reason hw
    simp only [Bool.and_eq_true, Bool.not_eq_true', Option.isNone_iff_eq_none] at h
    obtain ⟨⟨⟨⟨⟨hopen, hclosed⟩, hdraft⟩, hnew⟩, hconfig⟩, hp⟩ := h
    obtain ⟨draft, hdraft⟩ := Option.isSome_iff_exists.1 hdraft
    split at hconfig
    · rename_i config hsettings
      exact ⟨u, draft, config, ⟨0, _, reply, reason, rfl, hw, hopen, hclosed⟩, hdraft, hnew, hsettings, hp⟩
    · cases hconfig
  · cases h

theorem deskEnv_config {orderAgent tenant agent : String} {second : ℕ} {config : OrderSettings}
    (h : orderSettings (deskEnv orderAgent second) tenant agent = .ok config) :
    config.orderAgent = orderAgent := by
  obtain rfl := Except.ok.inj h
  rfl

theorem orders_captured_sample : (draftSettled "clerk").dst.orders.map Order.eventKey = ["e1"] ∧
    (∀ customer, ((draftSettled "clerk").dst.undecidedOf customer).length ≤ 1) ∧
    ∃ u config draft o, Filed deskPlatform (fun _ => "") u config draft (draftSettled "clerk").src.db
      (draftSettled "clerk").dst o := by
  obtain ⟨horders, hnone, hfinds⟩ : (draftSettled "clerk").dst.orders.map Order.eventKey = ["e1"] ∧
      (draftSettled "clerk").dst.handoffs.isEmpty = true ∧
      finds (draftSettled "clerk") (deskEnv "clerk" 7) (fun _ => true) = true := by
    decide +kernel
  obtain ⟨u, draft, config, hs, hdraft, hnew, hconfig, -⟩ := finds_cases hfinds
  obtain ⟨hcustomers, -, hsettled⟩ := orders_captured (draftSettled_run "clerk")
  have hagent : config.orderAgent ≠ "" := by
    rw [deskEnv_config hconfig]
    decide
  rcases hsettled _ (List.mem_append_right _ List.mem_cons_self) _ u config draft hs hconfig hagent hdraft
    hnew with ⟨o, hfiled, -⟩ | hhanded
  · exact ⟨horders, hcustomers, u, config, draft, o, hfiled⟩
  · unfold Desk.handed at hhanded
    rw [List.isEmpty_iff.1 hnone] at hhanded
    cases hhanded

/-- Without an order agent a valid draft leaves neither an order task nor a handoff. -/
theorem draft_without_order_agent :
    ¬ ∀ (P : Platform) (repr : Json → String) (τs : List (Transition Desk Label)) (d : Desk),
      Run (Desk.Step P repr) {} τs d → ∀ τ ∈ τs, ∀ env u draft, Settles τ env u →
        u.run.bind (orderDraft τ.src.base u.tenant) = some draft →
        (τ.dst.db.taskOf? u.tenant u.channel (Desk.orderKey P u)).isSome = true ∨
          τ.dst.handed u = true := by
  intro h
  have hfinds : finds (draftSettled "") (deskEnv "" 7) (fun u =>
      (((draftSettled "").dst.db.taskOf? u.tenant u.channel (Desk.orderKey deskPlatform u)).isNone &&
        !(draftSettled "").dst.handed u)) = true := by
    decide +kernel
  obtain ⟨u, draft, config, hs, hdraft, -, -, hp⟩ := finds_cases hfinds
  simp only [Bool.and_eq_true, Bool.not_eq_true', Option.isNone_iff_eq_none] at hp
  rcases h _ _ _ _ (draftSettled_run "") _ (List.mem_append_right _ List.mem_cons_self) _ u draft hs hdraft
    with htask | hhanded
  · rw [hp.1] at htask
    cases htask
  · rw [hp.2] at hhanded
    cases hhanded

end Runs

end AgentPlatform.Conversation
