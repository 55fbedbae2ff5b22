import AgentPlatform.Engine.Queue

/-!
# Order and at-most-once dispatch

Every operation's writes are moves (`Effect.moves`), and a step starts to run in them only where
`claim` returns it. Hence, in every run of the engine, a step is handed out at most once
(`dispatched_at_most_once`), and the steps of a task run one at a time, in their order
(`steps_sequential`).
-/

namespace AgentPlatform.Engine

open Outcome Table Pipeline Runs

/-! ### Every operation is a sequence of moves -/

/-- The entries an operation with the reply `out` may make: those of `claim`, for its candidates,
where only the step it returns starts to run. -/
def entries (db : Db) (out : Reply) : Op → Cell Uuid → Status → Prop
  | .claim env tenant _ device _, cell, status =>
    (∃ c ∈ candidates (db.expireLeases tenant env.now) tenant device,
      c.step.task = cell.pipeline) ∧
      (status = .running → ∃ spec token, out = .claimed spec token ∧ spec.task = cell.pipeline ∧
        spec.position = cell.position)
  | _, _, _ => False

section Effects

variable {P : Platform} {env : Env} {db db' : Db} {tenant : String} {op : Op} {out : Reply}
  {enters : Cell Uuid → Status → Prop}

variable {plan : List Validated}

theorem validated_ne_nil {agent : String} {steps : List Json} {o : Option Origin}
    (h : validated P env tenant agent steps o = .ok plan) : plan ≠ [] := by
  simp only [validated, bind_eq_ok, exists_unit, ensure_eq_ok, mapM_eq_ok] at h
  obtain ⟨policy, -, -, ⟨hone, -⟩, -, hplan⟩ := h
  rintro rfl
  rw [List.forall₂_nil_right_iff.1 hplan] at hone
  cases hone

variable {task : Uuid}

theorem mem_newSteps {first : Uuid} {s : StepRow} :
    s ∈ newSteps tenant task first plan ↔ ∃ (i : ℕ) (v : Validated), plan[i]? = some v ∧
      s = ⟨⟨first + i, task, tenant, i, v.tool, v.args, v.risk, v.needed, v.fingerprint, v.device⟩,
        .queued, none, "", 0, 0, .obj [], ""⟩ := by
  simp only [newSteps, List.mem_mapIdx, List.getElem?_eq_some_iff]
  constructor
  · rintro ⟨i, hi, rfl⟩
    exact ⟨i, _, ⟨hi, rfl⟩, rfl⟩
  · rintro ⟨i, v, ⟨hi, rfl⟩, rfl⟩
    exact ⟨i, hi, rfl⟩

theorem keyed_newSteps {α : Type} {key : StepRow → α} {first : Uuid}
    (hkey : ∀ (i j : ℕ) (v w : Validated), i < j →
      key ⟨⟨first + i, task, tenant, i, v.tool, v.args, v.risk, v.needed, v.fingerprint, v.device⟩,
          .queued, none, "", 0, 0, .obj [], ""⟩ ≠
        key ⟨⟨first + j, task, tenant, j, w.tool, w.args, w.risk, w.needed, w.fingerprint, w.device⟩,
          .queued, none, "", 0, 0, .obj [], ""⟩) : Keyed key (newSteps tenant task first plan) := by
  refine List.pairwise_map.2 (List.pairwise_iff_getElem.2 fun i j hi hj hij => ?_)
  simp only [newSteps, List.getElem_mapIdx]
  exact hkey i j _ _ hij

theorem insertTask_row (db : Db) (tenant channel eventKey fingerprint agent actor : String)
    (plan : List Validated) (approver : String) (now : Time) :
    ∃ status, (⟨db.drawn, tenant, channel, eventKey, fingerprint, agent, actor, status, now⟩ :
      TaskRow) ∈
        (db.insertTask tenant channel eventKey fingerprint agent actor plan approver now).tasks := by
  unfold Db.insertTask
  refine task_refresh (t := ⟨db.drawn, tenant, channel, eventKey, fingerprint, agent, actor, .queued,
    now⟩) tenant db.drawn ?_
  exact List.mem_append_right _ List.mem_cons_self

/-- A new task is a move. -/
theorem insertTask_moves {channel eventKey fingerprint agent actor approver : String} {now : Time}
    (hplan : plan ≠ []) :
    Moves enters db
      (db.insertTask tenant channel eventKey fingerprint agent actor plan approver now) := by
  have hlt : db.drawn < db.drawn + 1 + plan.length :=
    Nat.lt_of_lt_of_le (Nat.lt_succ_self _) (Nat.le_add_right _ _)
  refine Moves.refresh (.single (.create rfl rfl rfl hlt ?_ ?_ ?_ fun s hs => ?_)) _
  · cases plan with
    | nil => exact absurd rfl hplan
    | cons v plan => simp [newSteps]
  · exact keyed_newSteps fun i j _ _ hij h => hij.ne (Nat.add_left_cancel h)
  · exact keyed_newSteps fun i j _ _ hij h => hij.ne h
  · obtain ⟨i, v, hi, rfl⟩ := mem_newSteps.1 hs
    obtain ⟨hi, -⟩ := List.getElem?_eq_some_iff.1 hi
    refine ⟨rfl, rfl, rfl, ?_, ?_⟩
    · exact Nat.lt_of_lt_of_le (Nat.lt_succ_self _) (Nat.le_add_right _ _)
    · exact Nat.add_lt_add_left hi _

theorem change_stopped {b : Board Uuid Uuid} {c : Cell Uuid} (hactive : c.status.active = true) :
    Change enters b c (stoppedStatus c.status) := by
  unfold stoppedStatus
  split
  · exact .stop ‹_› (.inr (.inr rfl))
  · rename_i hrunning
    refine .cancel ?_
    cases hc : c.status <;> simp_all [Status.active, Status.pending]

theorem refreshAll_moves {tasks : List Uuid} (hm : Moves enters db db') :
    Moves enters db (db'.refreshAll tenant tasks) := by
  unfold Db.refreshAll
  induction tasks generalizing db' with
  | nil => exact hm
  | cons task tasks ih => exact ih (hm.refresh task)

theorem frame_moves {db'' : Db} (hm : Moves enters db db') (htasks : db''.tasks = db'.tasks)
    (hsteps : db''.steps = db'.steps) (hdrawn : db''.drawn = db'.drawn) : Moves enters db db'' :=
  hm.tail (.frame htasks hsteps hdrawn.ge)

theorem stopSteps_moves {reason : String} : Moves enters db (db.stopSteps tenant task reason) := by
  unfold Db.stopSteps
  refine Moves.refresh ?_ _
  refine moves_update rfl rfl rfl (fun _ => rfl) fun r _ hp => ?_
  simp only [Bool.and_eq_true, decide_eq_true_eq] at hp
  exact change_stopped hp.2

theorem detach_moves {device actor : String} : Moves enters db (db.detach tenant device actor) := by
  unfold Db.detach
  refine refreshAll_moves ?_
  refine moves_update rfl rfl rfl (fun _ => rfl) fun r _ hp => ?_
  simp only [Bool.and_eq_true, decide_eq_true_eq] at hp
  exact change_stopped hp.2

/-- The expired leases and the candidates reviewed before `rest`, in one call of `claim`: what holds
after the expiry and is kept by the writes for each candidate holds at the end. -/
theorem reviewed_induct (device : String) {cs : List Candidate} (rest : List Candidate) {db₁ : Db}
    (hwf : Wf db) (hplaced : Placed db.board)
    (hskipped : Skipped P env tenant (db.expireLeases tenant env.now) cs db₁)
    (hcs : (cs ++ rest).Sublist (candidates (db.expireLeases tenant env.now) tenant device))
    {p : Db → Prop} (hexpired : p (db.expireLeases tenant env.now))
    (hskip : ∀ db, ∀ c ∈ cs, ∀ v, Wf db → Live db tenant c → review P env db tenant c = .ok v →
      p db → p (db.skip tenant c v)) :
    Wf db₁ ∧ p db₁ ∧ ∀ c ∈ rest, Live db₁ tenant c := by
  have hmoves : Moves (fun _ _ => False) db (db.expireLeases tenant env.now) := expireLeases_moves hwf
  have hplaced' := hplaced.rounds (moves_rounds hwf hmoves)
  have hwf' := hwf.moves hmoves
  exact hskipped.induct hwf' (fun c hc => candidates_live (hcs.subset hc))
    ((candidates_apart hwf' hplaced').sublist hcs) hexpired hskip

theorem reviewed_moves (device : String) {cs : List Candidate} (rest : List Candidate) {db₁ : Db}
    (hwf : Wf db) (hplaced : Placed db.board)
    (hskipped : Skipped P env tenant (db.expireLeases tenant env.now) cs db₁)
    (hcs : (cs ++ rest).Sublist (candidates (db.expireLeases tenant env.now) tenant device))
    (henters : ∀ c ∈ cs, ∀ status, status ≠ .running → enters c.step.cell status) :
    Wf db₁ ∧ Moves enters db db₁ ∧ ∀ c ∈ rest, Live db₁ tenant c := by
  refine reviewed_induct device rest hwf hplaced hskipped hcs (p := fun db₁ => Moves enters db db₁)
    (expireLeases_moves hwf) fun db₁ c hc v hwf₁ hlive _ hmoves => ?_
  exact hmoves.trans (hlive.skip_moves hwf₁ v (henters c hc))

/-- **The writes of every operation are moves**, with the entries of `claim` only. -/
theorem Effect.moves (hwf : Wf db) (hplaced : Placed db.board) (h : Effect P db op out db') :
    Moves (entries db out op) db db' := by
  cases h with
  | same => exact .refl
  | submitted hplan => exact insertTask_moves (validated_ne_nil hplan)
  | replied _ hplan => exact insertTask_moves (validated_ne_nil hplan)
  | @approved env tenant actor decision role a s t policy _ _ hs _ _ _ _ _ hstep =>
    unfold Db.decideStep
    refine Moves.refresh ?_ _
    refine moves_update rfl rfl rfl (fun _ => rfl) fun r hr hp => ?_
    have hid : r.id = s.id := by simpa using (Bool.and_eq_true_iff.1 hp).2
    obtain rfl := hwf.steps.eq_of_key hr hs hid
    change Change _ _ _ (if decision = "approved" then .queued else .cancelled)
    split
    · exact .requeue hstep
    · exact .cancel hstep
  | @unclaimed env tenant worker device leaseSeconds cs _ hcs hskipped =>
    have hcs' : ∀ c ∈ cs, c ∈ candidates (db.expireLeases tenant env.now) tenant device := by
      rcases hcs with rfl | rfl
      · exact fun c hc => absurd hc List.not_mem_nil
      · exact fun c hc => hc
    refine (reviewed_moves device [] hwf hplaced hskipped ?_ fun c hc status hrunning => ?_).2.1
    · rcases hcs with rfl | rfl
      · exact List.nil_sublist _
      · exact (List.append_nil _).symm ▸ List.Sublist.refl _
    · exact ⟨⟨c, hcs' c hc, rfl⟩, fun h => absurd h hrunning⟩
  | @claimed env tenant worker device leaseSeconds skipped rest c db₁ hcs hskipped hreview =>
    have hreviewed : Wf db₁ ∧ Moves (entries db (.claimed c.step.spec db₁.drawn)
        (.claim env tenant worker device leaseSeconds)) db db₁ ∧
          ∀ d ∈ c :: rest, Live db₁ tenant d := by
      refine reviewed_moves device (c :: rest) hwf hplaced hskipped (hcs ▸ List.Sublist.refl _)
        fun d hd status hrunning => ⟨⟨d, ?_, rfl⟩, fun h => absurd h hrunning⟩
      exact hcs ▸ List.mem_append_left _ hd
    obtain ⟨hwf₁, hmoves, hlive⟩ := hreviewed
    refine hmoves.trans ((hlive c List.mem_cons_self).start_moves hwf₁ _ _ ⟨⟨c, ?_, rfl⟩, fun _ => ?_⟩)
    · exact hcs ▸ List.mem_append_right _ List.mem_cons_self
    · exact ⟨_, _, rfl, rfl, rfl⟩
  | @finished env r token result status error hr hrunning hstatus =>
    unfold Db.complete
    refine Moves.refresh ?_ _
    refine moves_update rfl rfl rfl (fun _ => rfl) fun s hs hp => ?_
    obtain rfl := hwf.steps.eq_of_key hs hr (of_decide_eq_true hp)
    exact .stop hrunning hstatus
  | cancelled =>
    unfold Db.cancelTask
    refine Moves.refresh ?_ _
    refine moves_update rfl rfl rfl (fun _ => rfl) fun r _ hp => ?_
    simp only [Bool.and_eq_true, decide_eq_true_eq] at hp
    exact change_stopped hp.2
  | @reconciled env r actor role outcome evidence houtcome hr huncertain =>
    unfold Db.settleStep
    refine Moves.refresh ?_ _
    refine moves_update rfl rfl rfl (fun _ => rfl) fun s hs hp => ?_
    have hid : s.id = r.id := by simpa using (Bool.and_eq_true_iff.1 hp).2
    obtain rfl := hwf.steps.eq_of_key hs hr hid
    refine .settle huncertain ?_
    change (if outcome = "succeeded" then _ else _) = _ ∨ _
    split
    · exact .inl rfl
    · exact .inr rfl
  | @provided r receipt hr huncertain =>
    unfold Db.provideStep
    refine Moves.refresh ?_ _
    refine moves_update rfl rfl rfl (fun _ => rfl) fun s hs hp => ?_
    simp only [Bool.and_eq_true, decide_eq_true_eq] at hp
    exact .settle hp.2 (.inl rfl)
  | froze =>
    unfold Db.freezeSteps
    refine refreshAll_moves ?_
    refine moves_update rfl rfl rfl (fun _ => rfl) fun r _ hp => ?_
    simp only [Bool.and_eq_true, decide_eq_true_eq] at hp
    exact .stop hp.2 (.inr (.inr rfl))
  | resumed => exact frame_moves .refl rfl rfl rfl
  | enrolled => exact frame_moves detach_moves rfl rfl rfl
  | ended => exact frame_moves .refl rfl rfl rfl
  | @stopped tenant run task status status' reason actor linked _ =>
    unfold stopTask
    by_cases hactive : linked.status.active = true
    · rw [if_pos hactive]
      exact frame_moves stopSteps_moves rfl rfl rfl
    · rw [if_neg hactive]
      exact frame_moves .refl rfl rfl rfl
  | elsewhere => exact frame_moves .refl rfl rfl rfl

end Effects

/-! ### The order of the steps -/

/-- The steps are in order. -/
structure Orderly (db : Db) : Prop where
  wf : Wf db
  placed : Placed db.board
  sequential : Sequential db.board

theorem orderly_empty : Orderly {} where
  wf := wf_empty
  placed := fun i j c d hc => by cases hc
  sequential := fun i c hc => by cases hc

section Steps

variable {P : Platform} {db db' : Db} {op : Op} {out : Reply}

theorem Effect.rounds (ho : Orderly db) (h : Effect P db op out db') :
    Rounds (entries db out op) db.board db'.board :=
  moves_rounds ho.wf (h.moves ho.wf ho.placed)

theorem Orderly.moves {enters : Cell Uuid → Status → Prop} (ho : Orderly db)
    (hm : Moves enters db db') : Orderly db' where
  wf := ho.wf.moves hm
  placed := ho.placed.rounds (moves_rounds ho.wf hm)
  sequential := ho.sequential.rounds (moves_rounds ho.wf hm)

theorem Effect.orderly (ho : Orderly db) (h : Effect P db op out db') : Orderly db' :=
  ho.moves (h.moves ho.wf ho.placed)

theorem Effect.succeeded (ho : Orderly db) (h : Effect P db op out db') {r : StepRow}
    (hr : r ∈ db.steps) (hsucceeded : r.status = .succeeded) :
    ∃ r' ∈ db'.steps, r'.spec = r.spec ∧ r'.status = .succeeded := by
  obtain ⟨r', hr', hspec⟩ := (h.moves ho.wf ho.placed).spec hr
  refine ⟨r', hr', hspec, ?_⟩
  have hcell : db'.board r.id = some r.cell := (h.rounds ho).succeeded (ho.wf.board_eq hr) hsucceeded
  have hid : r'.id = r.id := congrArg StepSpec.id hspec
  rw [← hid, (h.orderly ho).wf.board_eq hr'] at hcell
  exact (congrArg Pipeline.Cell.status (Option.some.inj hcell)).trans hsucceeded

theorem Step.orderly (ho : Orderly db) (h : Step P db op db') : Orderly db' := by
  obtain ⟨out, he, -⟩ := h.effect
  exact he.orderly ho

variable {r' : StepRow}

theorem Orderly.one_running (ho : Orderly db) {r : StepRow} (hr : r ∈ db.steps) (hr' : r' ∈ db.steps)
    (htask : r.task = r'.task) (hrunning : r.status = .running) (hrunning' : r'.status = .running) :
    r = r' := by
  refine ho.wf.steps.eq_of_key hr hr' (ho.sequential.one_opened ho.placed (ho.wf.board_eq hr)
    (ho.wf.board_eq hr') htask ?_ ?_)
  · simp [StepRow.cell, hrunning, Status.opened]
  · simp [StepRow.cell, hrunning', Status.opened]

/-- The expiry of leases turns running steps uncertain, and nothing else. -/
theorem expireLeases_row {tenant : String} {now : Time} (hwf : Wf db)
    (hr' : r' ∈ (db.expireLeases tenant now).steps) :
    ∃ r ∈ db.steps, r'.spec = r.spec ∧
      (r' = r ∨ r.status = .running ∧ r'.status = .uncertain) := by
  refine expireLeases_induct (p := fun db' => ∀ r' ∈ db'.steps, ∃ r ∈ db.steps, r'.spec = r.spec ∧
    (r' = r ∨ r.status = .running ∧ r'.status = .uncertain)) hwf
    (fun r hr => ⟨r, hr, rfl, .inl rfl⟩) (fun db' x hwf' hx hrunning _ ih r' hr' => ?_) r' hr'
  obtain ⟨r, hr, rfl⟩ := mem_update.1 hr'
  obtain ⟨r₀, hr₀, hspec, hcase⟩ := ih r hr
  split
  · rename_i hp
    have hid : r.id = x.id := by simpa using (Bool.and_eq_true_iff.1 hp).2
    obtain rfl := hwf'.steps.eq_of_key hr hx hid
    refine ⟨r₀, hr₀, hspec, .inr ⟨?_, rfl⟩⟩
    rcases hcase with rfl | ⟨hrunning₀, -⟩
    · exact hrunning
    · exact hrunning₀
  · exact ⟨r₀, hr₀, hspec, hcase⟩

/-- What `claim` hands out: a pending step, with only succeeded steps before it. -/
theorem Effect.handed {spec : StepSpec} {token : Uuid} (ho : Orderly db)
    (h : Effect P db op (.claimed spec token) db') :
    (∃ r ∈ db.steps, r.spec = spec ∧ r.status.pending = true) ∧
      (∃ r ∈ db'.steps, r.spec = spec ∧ r.status = .running) ∧
        ∀ q ∈ db.steps, q.task = spec.task → q.spec.position < spec.position →
          q.status = .succeeded := by
  cases h with
  | same _ hout => exact absurd rfl (hout spec token)
  | @claimed env tenant worker device leaseSeconds skipped rest c db₁ hcs hskipped hreview =>
    have hexpired : Moves (fun _ _ => True) db (db.expireLeases tenant env.now) :=
      expireLeases_moves ho.wf
    have hc : c ∈ candidates (db.expireLeases tenant env.now) tenant device :=
      hcs ▸ List.mem_append_right _ List.mem_cons_self
    have hlive := candidates_live hc
    have hreviewed : Wf db₁ ∧ Moves (fun _ _ => True) db db₁ ∧ ∀ d ∈ c :: rest, Live db₁ tenant d :=
      reviewed_moves device (c :: rest) ho.wf ho.placed hskipped (hcs ▸ List.Sublist.refl _)
        fun _ _ _ _ => trivial
    have hlive₁ := hreviewed.2.2 c List.mem_cons_self
    refine ⟨⟨c.step, ?_, rfl, hlive.pending⟩, ?_, fun q hq htask hposition => ?_⟩
    · obtain ⟨r, hr, -, rfl | ⟨-, huncertain⟩⟩ := expireLeases_row ho.wf hlive.step
      · exact hr
      · have hpending := hlive.pending
        rw [huncertain] at hpending
        cases hpending
    · obtain ⟨hsteps, -, -⟩ := consume_frame db₁ c
      exact ⟨_, mem_update_of_pos (hsteps ▸ hlive₁.step) (decide_eq_true rfl), rfl, rfl⟩
    · obtain ⟨q', hq', hspec'⟩ := hexpired.spec hq
      have hsucceeded : q'.status = .succeeded := by
        refine hlive.ready q'.id _ ((ho.wf.moves hexpired).board_eq hq') ?_ ?_
        · exact (congrArg StepSpec.task hspec').trans htask
        · change q'.spec.position < _
          rw [hspec']
          exact hposition
      obtain ⟨q₀, hq₀, hspec₀, rfl | ⟨-, huncertain⟩⟩ := expireLeases_row ho.wf hq'
      · rw [← ho.wf.steps.eq_of_key hq₀ hq (congrArg StepSpec.id (hspec₀.symm.trans hspec'))]
        exact hsucceeded
      · rw [huncertain] at hsucceeded
        cases hsucceeded

/-- A step starts to run only where `claim` returns it. -/
theorem Effect.started (ho : Orderly db) (h : Effect P db op out db') (hr' : r' ∈ db'.steps)
    (hrunning : r'.status = .running) (hnot : ∀ r ∈ db.steps, r.id = r'.id → r.status ≠ .running) :
    ∃ token, out = .claimed r'.spec token := by
  have ho' := h.orderly ho
  rcases (h.rounds ho).started (ho'.wf.board_eq hr') hrunning with ⟨c, hc, hrun⟩ |
    ⟨c, hentry, hpipeline, hposition⟩
  · obtain ⟨r, hr, hid, rfl⟩ := board_some hc
    exact absurd hrun (hnot r hr hid)
  · cases op with
    | claim env tenant worker device leaseSeconds =>
      obtain ⟨spec, token, rfl, htask, hposition'⟩ := hentry.2 rfl
      obtain ⟨-, ⟨r, hr, rfl, -⟩, -⟩ := h.handed ho
      have hid : r.id = r'.id := ho'.placed _ _ _ _ (ho'.wf.board_eq hr) (ho'.wf.board_eq hr')
        (htask.trans hpipeline) (hposition'.trans hposition)
      exact ⟨token, by rw [ho'.wf.steps.eq_of_key hr hr' hid]⟩
    | _ => exact hentry.elim

theorem Step.left_of_handedOut (ho : Orderly db) (h : Step P db op db') {spec : StepSpec}
    (hspec : handedOut P ⟨db, op, db'⟩ = some spec) :
    ¬ Left db.board spec.id ∧ Left db'.board spec.id := by
  obtain ⟨out, he, hout⟩ := h.effect
  obtain ⟨token, rfl⟩ := (hout spec).1 hspec
  obtain ⟨⟨r, hr, rfl, hpending⟩, ⟨r', hr', hspec', hrunning⟩, -⟩ := he.handed ho
  refine ⟨?_, r'.cell, ?_, by simp [StepRow.cell, hrunning, Status.pending]⟩
  · rintro ⟨c, hc, hleft⟩
    obtain rfl := Option.some.inj (hc.symm.trans (ho.wf.board_eq hr))
    rw [StepRow.cell, hpending] at hleft
    cases hleft
  · rw [← hspec']
    exact (he.orderly ho).wf.board_eq hr'

end Steps

/-! ### A platform to run -/

section Sample

def emptySchema : Schema := .mk .object none [] [] none 0 100 0 20000 0 0

/-- A platform with one tool that reads and one that pays. -/
def samplePlatform : Platform where
  registry := [⟨"note", .read, emptySchema, false⟩, ⟨"pay", .destructive, emptySchema, false⟩]
  sha256 := id

def samplePolicy (independent : Bool) : Json :=
  .obj [("approval", .arr []), ("independent_approval", .bool independent),
    ("ladder", .str "human_assisted"), ("tools", .arr [.str "note", .str "pay"])]

def sampleEnv (second : ℕ) (independent : Bool := false) : Env where
  policy := fun _ _ => .ok (samplePolicy independent)
  authority := fun _ _ _ _ => .ok ()
  bindings := fun _ _ _ _ => .ok []
  now := seconds second
  parentNow := fun _ => seconds second

def sampleSubmit (tools : List String) (independent : Bool := false) : Op :=
  .submit (sampleEnv 0 independent) "acme" "web" "k1" "clerk"
    (tools.map fun tool => .obj [("tool", .str tool)]) "dana"

def sampleClaim (second : ℕ) (independent : Bool := false) : Op :=
  .claim (sampleEnv second independent) "acme" "w1" "" 60

/-- The database after some operations. -/
def sampleDb (ops : List Op) : Db := ops.foldl (Db.after samplePlatform) {}

/-- Its run. -/
def sampleTrace (ops : List Op) : List (Transition Db Op) :=
  trace (Db.after samplePlatform) {} ops

theorem sample_run (ops : List Op) :
    Run (Step samplePlatform) {} (sampleTrace ops) (sampleDb ops) :=
  Run.nil.calls ops

end Sample

/-! ### Runs -/

section Runs

variable {P : Platform} {τs : List (Transition Db Op)} {db₀ db : Db}

theorem reachable_orderly (ho : Orderly db₀) (h : Run (Step P) db₀ τs db) : Orderly db :=
  h.invariant ho fun _ _ _ => Step.orderly

/-- A step is handed out at most once. -/
theorem handedOut_countP_le (h : Run (Step P) {} τs db) (id : Uuid) :
    τs.countP (fun τ => (handedOut P τ).any fun spec => spec.id = id) ≤ 1 := by
  classical
  have hrun := h.strengthen orderly_empty fun _ _ _ => Step.orderly
  have hcount := hrun.countP_le_one (p := fun db => Left db.board id)
    (q := fun τ => ((handedOut P τ).any fun spec => spec.id = id) = true)
    (fun s op t ⟨hs, ho⟩ hleft => ?_) fun s op t ⟨hs, ho⟩ hout => ?_
  · refine Nat.le_trans ?_ (Nat.le_trans hcount ?_)
    · exact le_of_eq (by simp)
    · split <;> simp
  · obtain ⟨out, he, -⟩ := hs.effect
    exact (he.rounds ho).left hleft
  · cases hspec : handedOut P ⟨s, op, t⟩ with
    | none =>
      rw [hspec] at hout
      cases hout
    | some spec =>
      rw [hspec] at hout
      obtain rfl : spec.id = id := of_decide_eq_true hout
      exact hs.left_of_handedOut ho hspec

/-- **At-most-once dispatch.** In every run of the engine a step is handed out at most once. It is
handed out from the queue, and a step that has left the queue never returns to it, whoever does what;
no other operation starts a step, and `reconcile` settles an uncertain step as succeeded or
failed. -/
theorem dispatched_at_most_once (h : Run (Step P) {} τs db) :
    (∀ id, τs.countP (fun τ => (handedOut P τ).any fun spec => spec.id = id) ≤ 1) ∧
    (∀ τ ∈ τs, ∀ spec, handedOut P τ = some spec →
      (∃ r ∈ τ.src.steps, r.spec = spec ∧ r.status.pending = true) ∧
        ∃ r ∈ τ.dst.steps, r.spec = spec ∧ r.status = .running) ∧
    (∀ τ ∈ τs, ∀ r ∈ τ.src.steps, ∀ r' ∈ τ.dst.steps, r'.id = r.id →
      (r.status.pending = false → r'.status.pending = false) ∧
        (r.status ≠ .running → r'.status = .running → handedOut P τ = some r'.spec)) ∧
    ∀ (db : Db) (env : Env) (tenant : String) (step : Uuid) (actor role outcome evidence : String),
      ∀ done, exec P db (.reconcile env tenant step actor role outcome evidence) = .ok done →
        outcome = "succeeded" ∨ outcome = "failed" := by
  have hstep : ∀ τ ∈ τs, Step P τ.src τ.label τ.dst ∧ Orderly τ.src := fun τ hτ =>
    h.always orderly_empty (fun _ _ _ => Step.orderly) hτ
  refine ⟨handedOut_countP_le h, fun τ hτ spec hspec => ?_, fun τ hτ r hr r' hr' hid => ?_, ?_⟩
  · obtain ⟨hs, ho⟩ := hstep τ hτ
    obtain ⟨out, he, hout⟩ := hs.effect
    obtain ⟨token, rfl⟩ := (hout spec).1 hspec
    exact ⟨(he.handed ho).1, (he.handed ho).2.1⟩
  · obtain ⟨hs, ho⟩ := hstep τ hτ
    obtain ⟨out, he, hout⟩ := hs.effect
    refine ⟨fun hpending => ?_, fun hnot hrunning => ?_⟩
    · obtain ⟨c, hc, hleft⟩ := (he.rounds ho).left ⟨r.cell, ho.wf.board_eq hr, hpending⟩
      rw [← hid, (he.orderly ho).wf.board_eq hr'] at hc
      rw [← Option.some.inj hc] at hleft
      exact hleft
    · obtain ⟨token, rfl⟩ := he.started ho hr' hrunning fun x hx hxid => by
        rwa [ho.wf.steps.eq_of_key hx hr (hxid.trans hid)]
      exact (hout _).2 ⟨token, rfl⟩
  · intro db env tenant step actor role outcome evidence done hdone
    simp only [exec, reconcile, bind_eq_ok, exists_unit, ensure_eq_ok] at hdone
    exact hdone.2.1.1

/-- A task whose first step is handed out, stalls past its lease and is settled; then its second step
waits for its approval. -/
def lateOps : List Op :=
  [sampleSubmit ["note", "pay"], sampleClaim 1, sampleClaim 100,
    .finish (sampleEnv 101) "acme" 1 (some 3) (.obj []) .succeeded "",
    .reconcile (sampleEnv 102) "acme" 1 "dana" "owner" "succeeded" "seen in the ledger",
    sampleClaim 103]

theorem dispatched_at_most_once_sample :
    ((sampleTrace lateOps).countP fun τ =>
      (handedOut samplePlatform τ).any fun spec => spec.id = 1) = 1 ∧
    (∀ id, ((sampleTrace lateOps).countP fun τ =>
      (handedOut samplePlatform τ).any fun spec => spec.id = id) ≤ 1) ∧
    (sampleDb lateOps).steps.map StepRow.status = [.succeeded, .waiting] :=
  ⟨by decide +kernel, (dispatched_at_most_once (sample_run lateOps)).1, by decide +kernel⟩

/-- No outcome of `reconcile` leads an uncertain step back to the queue: `retry` is refused. -/
theorem retry_not_requeued :
    ¬ ∀ (P : Platform) (τs : List (Transition Db Op)) (db : Db), Run (Step P) {} τs db →
      ∀ r ∈ db.steps, r.status = .uncertain → ∀ (env : Env) (actor evidence : String),
        env.requireAuthority r.tenant "web" actor ["owner"] = .ok () → isBlank evidence = false →
          evidence.length ≤ 500 →
            ∃ r' ∈ (db.after P (.reconcile env r.tenant r.id actor "owner" "retry" evidence)).steps,
              r'.id = r.id ∧ r'.status = .queued := by
  intro h
  obtain ⟨r, hr, huncertain, hnot⟩ : ∃ r ∈ (sampleDb (lateOps.take 3)).steps,
      r.status = .uncertain ∧
        ∀ r' ∈ ((sampleDb (lateOps.take 3)).after samplePlatform (.reconcile (sampleEnv 102) r.tenant
          r.id "dana" "owner" "retry" "lost")).steps, r'.id = r.id → r'.status ≠ .queued := by
    decide +kernel
  obtain ⟨r', hr', hid, hqueued⟩ := h samplePlatform _ _ (sample_run (lateOps.take 3)) r hr huncertain
    (sampleEnv 102) "dana" "lost" rfl (by decide +kernel) (by decide +kernel)
  exact hnot r' hr' hid hqueued

/-- **Sequential execution.** In every state a run reaches, at most one step of a task runs, and a
step starts to run only when all the steps of its task before it have succeeded. -/
theorem steps_sequential (h : Run (Step P) {} τs db) :
    (∀ r ∈ db.steps, ∀ r' ∈ db.steps, r.task = r'.task → r.status = .running →
      r'.status = .running → r = r') ∧
    ∀ τ ∈ τs, ∀ r ∈ τ.dst.steps, r.status = .running →
      (∀ r₀ ∈ τ.src.steps, r₀.id = r.id → r₀.status ≠ .running) →
        ∀ q, q ∈ τ.src.steps ∨ q ∈ τ.dst.steps → q.task = r.task →
          q.spec.position < r.spec.position → q.status = .succeeded := by
  refine ⟨fun r hr r' hr' => (reachable_orderly orderly_empty h).one_running hr hr',
    fun τ hτ r hr hrunning hnot q hq htask hposition => ?_⟩
  obtain ⟨hs, ho⟩ := h.always orderly_empty (fun _ _ _ => Step.orderly) hτ
  obtain ⟨out, he, -⟩ := hs.effect
  have ho' := he.orderly ho
  rcases hq with hq | hq
  · obtain ⟨token, rfl⟩ := he.started ho hr hrunning hnot
    exact (he.handed ho).2.2 q hq htask hposition
  · exact ho'.sequential r.id _ (ho'.wf.board_eq hr) (by simp [StepRow.cell, hrunning])
      (by simp [StepRow.cell, hrunning]) q.id _ (ho'.wf.board_eq hq) htask hposition

theorem steps_sequential_sample :
    (∃ r ∈ (sampleDb (lateOps.take 2)).steps, r.status = .running) ∧
    ∀ r ∈ (sampleDb (lateOps.take 2)).steps, ∀ r' ∈ (sampleDb (lateOps.take 2)).steps,
      r.task = r'.task → r.status = .running → r'.status = .running → r = r' :=
  ⟨by decide +kernel, (steps_sequential (sample_run (lateOps.take 2))).1⟩

end Runs

end AgentPlatform.Engine
