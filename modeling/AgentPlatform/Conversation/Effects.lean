import AgentPlatform.Agent.Inert
import AgentPlatform.Conversation.Worker

/-!
# What one label can do

`Effect` lists what a label does to the state, with the stage its worker came from; `Step.effect` is the
only place where the statements of a worker are taken apart. `Kept` is what every write keeps of a turn:
its key and its conversation, and a status that never moves back.
-/

namespace AgentPlatform.Conversation

open Outcome Engine Table Runs

/-- How far a turn has come. -/
def TurnStatus.rank : TurnStatus → ℕ
  | .queued => 0
  | .opened => 1
  | .delivering => 2
  | _ => 3

/-- A turn and what a later write has made of it. -/
structure Kept (u v : TurnRow) : Prop where
  key : v.key = u.key
  conversationId : v.conversationId = u.conversationId
  created : v.created = u.created
  status : v.status = u.status ∨ u.status.rank < v.status.rank
  reply : 2 ≤ u.status.rank → v.reply = u.reply

/-- The turn a worker is about to open. -/
def Stage.candidate? : Stage → Option TurnRow
  | .preparing u | .creating u _ _ _ | .ready u _ _ => some u
  | _ => none

/-- The turn a worker is past the takeover check with. -/
def Stage.cleared? : Stage → Option TurnRow
  | .submitting u | .conflicted u | .submitted u _ => some u
  | _ => none

/-- The turn a worker found in delivery. -/
def Stage.delivery? : Stage → Option TurnRow
  | .answered u | .finishing u _ _ | .checking u | .submitting u | .conflicted u | .submitted u _ =>
    some u
  | _ => none

/-- A turn in delivery, as it was looked up, is still there, and in delivery or over. -/
def Delivers (turns : List TurnRow) (u : TurnRow) : Prop :=
  ∃ v ∈ turns, v.key = u.key ∧ v.conversationId = u.conversationId ∧ v.reply = u.reply ∧
    2 ≤ v.status.rank

/-- What a worker holds is true of the turns. -/
structure Sound (turns : List TurnRow) (stage : Stage) : Prop where
  delivers : ∀ u, stage.delivery? = some u → Delivers turns u
  ends : ∀ u status error, stage = .finishing u status error → status = .failed ∨ status = .uncertain

/-- How a worker moves where it writes nothing but its own stage. -/
structure Passes (s : State) (w : ℕ) (env : Env) (stage : Stage) : Prop where
  sound : Sound s.turns (s.workers w) → Sound s.turns stage
  candidate : stage.candidate? = none ∨ stage.candidate? = (s.workers w).candidate? ∨
    ∃ tenant u, (sortedTurns (openable s.turns tenant) s.turns).head? = some u ∧
      stage.candidate? = some u
  cleared : stage.cleared? = none ∨ stage.cleared? = (s.workers w).cleared? ∨
    ∃ u, s.workers w = .checking u ∧ stage.cleared? = some u ∧
      takenOver s.takeovers u.tenant u.channel u.conversationId env.now = false

/-- The writes of a worker that stands at a stage: to the turn `u` where `p` holds of it. -/
inductive Write (s : State) : Stage → Env → TurnRow → (TurnRow → Bool) → (TurnRow → TurnRow) → Prop
  | opened {env : Env} {u : TurnRow} {run : Option Uuid} {error : String}
      (hroom : inFlight s.turns u.tenant < maxOpenTurns) :
      Write s (.ready u run error) env u (fun x => x.status = .queued)
        fun x => { x with status := .opened, run := run, error := error }
  | left {env : Env} {u : TurnRow} :
      Write s (.leaving u) env u (fun x => x.status = .queued) fun x => { x with status := .operator }
  | settled {env : Env} {u : TurnRow} {reply reason : String} :
      Write s (.settled u reply reason) env u (fun x => x.status = .opened)
        fun x => { x with status := .delivering, reply := reply, error := reason }
  | retired {env : Env} {u : TurnRow}
      (htaken : takenOver s.takeovers u.tenant u.channel u.conversationId env.now = true) :
      Write s (.checking u) env u (fun x => decide (x.status = .delivering) && x.task.isNone)
        fun x => { x with status := .operator, error := "operator_took_over" }
  | noted {env : Env} {u : TurnRow} {task : Uuid} :
      Write s (.submitted u task) env u (fun x => decide (x.status = .delivering) && x.task.isNone)
        fun x => { x with task := some task }
  | finished {env : Env} {u : TurnRow} {status : TurnStatus} {error : String} :
      Write s (.finishing u status error) env u (fun x => x.status = .delivering)
        fun x => { x with status := status, error := error }

/-- The changes of a state by a label. -/
inductive Effect (P : Platform) (s : State) : Label → State → Prop
  | same (l : Label) : Effect P s l s
  | looped (l : Agent.Label) : Effect P s (.loop l) { s with agent := s.agent.after P l }
  | taken (l : Label) (takeovers : List TakeoverRow) : Effect P s l { s with takeovers := takeovers }
  | recorded {env : Env} {agent : String} {payload : Json} {u : TurnRow}
      (hfresh : ∀ v ∈ s.turns, v.key ≠ u.key) (hstatus : u.status = .queued ∨ u.status = .throttled)
      (hcreated : u.created = env.now)
      (hconversation : payloadText payload "conversation_id" = u.conversationId) :
      Effect P s (.record env u.tenant u.channel u.eventKey agent payload)
        { s with
          turns := s.turns ++ [u]
          history := appendLine s.history u.tenant u.channel u.conversationId .customer
            (payloadText payload "text") }
  | replied {env : Env} {tenant : String} {updated : Uuid → Time} {t : State}
      (hsettled : settleReplies env s tenant updated = .ok t) :
      Effect P s (.settleReplies env tenant updated) t
  | crashed (w : ℕ) : Effect P s (.crash w) (s.goto w .idle)
  | begun {w : ℕ} {tenant : String} : Effect P s (.tick w tenant) (s.goto w (.closing tenant))
  | moved {w : ℕ} {env : Env} {reads : Reads} {stage : Stage} (hpasses : Passes s w env stage) :
      Effect P s (.work w env reads) (s.goto w stage)
  | created {w : ℕ} {env : Env} {reads : Reads} {u : TurnRow} {prompt : String}
      {maxSteps maxSeconds : ℤ} {agent : Agent.State} {run : Uuid}
      (hw : s.workers w = .creating u prompt maxSteps maxSeconds)
      (hcreate : Agent.create P env s.agent u.tenant (runKey P u) u.agent prompt u.sender maxSteps
        maxSeconds u.channel = .ok (agent, run)) :
      Effect P s (.work w env reads) ({ s with agent := agent }.goto w (.ready u (some run) ""))
  | submitted {w : ℕ} {env : Env} {reads : Reads} {u : TurnRow} {db : Db} {id : Uuid}
      (hw : s.workers w = .submitting u) (hsubmit : s.submitReply P env u = .ok (db, id)) :
      Effect P s (.work w env reads)
        ({ s with agent := { s.agent with db := db } }.goto w (.submitted u id))
  | wrote {w : ℕ} {env : Env} {reads : Reads} {u : TurnRow} {p : TurnRow → Bool}
      {f : TurnRow → TurnRow} (hwrite : Write s (s.workers w) env u p f) :
      Effect P s (.work w env reads) ((s.setTurn u p f).goto w .idle)
  | delivered {w : ℕ} {env : Env} {reads : Reads} {u x : TurnRow} (hw : s.workers w = .answered u)
      (hx : x ∈ s.turns) (hkey : x.key = u.key) (hstatus : x.status = .delivering) :
      Effect P s (.work w env reads) (State.goto { s.setTurn u (fun x => x.status = .delivering)
          (fun x => { x with status := .delivered }) with
        history := appendLine s.history u.tenant u.channel u.conversationId .agent u.reply } w .idle)

section Rows

variable {u v x : TurnRow} {turns : List TurnRow} {stage : Stage}

theorem Kept.refl (u : TurnRow) : Kept u u := ⟨rfl, rfl, rfl, .inl rfl, fun _ => rfl⟩

theorem Kept.rank_le (h : Kept u v) : u.status.rank ≤ v.status.rank := by
  rcases h.status with hsame | hlt
  · rw [hsame]
  · exact Nat.le_of_lt hlt

theorem Kept.trans (h : Kept u v) (h' : Kept v x) : Kept u x where
  key := h'.key.trans h.key
  conversationId := h'.conversationId.trans h.conversationId
  created := h'.created.trans h.created
  status := by
    rcases h.status with hsame | hlt
    · rw [← hsame]
      exact h'.status
    · exact .inr (Nat.lt_of_lt_of_le hlt h'.rank_le)
  reply hrank := (h'.reply (Nat.le_trans hrank h.rank_le)).trans (h.reply hrank)

theorem Kept.delivered (h : Kept u v) (hstatus : u.status = .delivered) : v.status = .delivered := by
  rcases h.status with hsame | hlt
  · exact hsame.trans hstatus
  · rw [hstatus] at hlt
    have hle : ∀ status : TurnStatus, status.rank ≤ 3 := by
      intro status
      cases status <;> decide
    exact absurd (Nat.lt_of_lt_of_le hlt (hle v.status)) (Nat.lt_irrefl _)

theorem Kept.conversation (h : Kept u v) : v.conversation = u.conversation := by
  have hkey := h.key
  simp only [TurnRow.key, Prod.mk.injEq] at hkey
  simp only [TurnRow.conversation, hkey.1, hkey.2.1, h.conversationId]

theorem mem_sortedTurns {p : TurnRow → Bool} : u ∈ sortedTurns p turns ↔ u ∈ turns ∧ p u = true := by
  unfold sortedTurns
  rw [List.mem_insertionSort, List.mem_filter]

theorem mem_of_first {p : TurnRow → Bool} (h : (sortedTurns p turns).head? = some u) :
    u ∈ turns ∧ p u = true :=
  mem_sortedTurns.1 (List.mem_of_mem_head? h)

theorem delivers_of_mem (hu : u ∈ turns) (hstatus : u.status = .delivering) : Delivers turns u := by
  refine ⟨u, hu, rfl, rfl, rfl, ?_⟩
  rw [hstatus]
  exact Nat.le_refl 2

theorem sound_of_none (h : stage.delivery? = none) : Sound turns stage where
  delivers u hu := by
    rw [h] at hu
    cases hu
  ends u status error hs := by
    rw [hs] at h
    cases h

theorem sound_of_delivers (h : Delivers turns u) (hstage : stage.delivery? = some u)
    (hends : ∀ v status error, stage ≠ .finishing v status error) : Sound turns stage where
  delivers v hv := by
    rw [hstage] at hv
    exact Option.some.inj hv ▸ h
  ends v status error hs := absurd hs (hends v status error)

theorem sound_finishing (h : Delivers turns u) {status : TurnStatus} {error : String}
    (hends : status = .failed ∨ status = .uncertain) : Sound turns (.finishing u status error) where
  delivers v hv := Option.some.inj hv ▸ h
  ends v status' error' hs := by
    cases hs
    exact hends

end Rows

section Labels

variable {P : Platform} {s t : State} {w : ℕ} {env : Env} {reads : Reads} {l : Label}

theorem passes_of_none {stage : Stage} (hdelivery : stage.delivery? = none)
    (hcandidate : stage.candidate? = none) (hcleared : stage.cleared? = none) : Passes s w env stage :=
  ⟨fun _ => sound_of_none hdelivery, .inl hcandidate, .inl hcleared⟩

variable {u : TurnRow}

theorem passes_candidate {stage : Stage} (hw : (s.workers w).candidate? = some u)
    (hdelivery : stage.delivery? = none) (hcandidate : stage.candidate? = some u)
    (hcleared : stage.cleared? = none) : Passes s w env stage :=
  ⟨fun _ => sound_of_none hdelivery, .inr (.inl (hcandidate.trans hw.symm)), .inl hcleared⟩

theorem passes_finishing {status : TurnStatus} {error : String}
    (h : Sound s.turns (s.workers w) → Delivers s.turns u) (hends : status = .failed ∨ status = .uncertain) :
    Passes s w env (.finishing u status error) :=
  ⟨fun hs => sound_finishing (h hs) hends, .inl rfl, .inl rfl⟩

theorem lookClose_effect (tenant : String) :
    Effect P s (.work w env reads) (s.lookClose w tenant) := by
  unfold State.lookClose
  dsimp only
  split
  · exact .moved (passes_of_none rfl rfl rfl)
  · rename_i u hu
    obtain ⟨hmem, hp⟩ := mem_of_first hu
    simp only [Bool.and_eq_true, decide_eq_true_eq] at hp
    have hdelivers : Delivers s.turns u := delivers_of_mem hmem hp.1.2
    split
    · exact .same _
    · split
      · exact .moved ⟨fun _ => sound_of_delivers hdelivers rfl (fun _ _ _ h => by cases h), .inl rfl,
          .inl rfl⟩
      · exact .moved (passes_finishing (fun _ => hdelivers) (.inr rfl))
      · exact .moved (passes_finishing (fun _ => hdelivers) (.inl rfl))

theorem lookDeliver_effect (tenant : String) :
    Effect P s (.work w env reads) (s.lookDeliver w tenant) := by
  unfold State.lookDeliver
  split
  · exact .moved (passes_of_none rfl rfl rfl)
  · split
    · exact .moved (passes_of_none rfl rfl rfl)
    · rename_i u hu
      obtain ⟨hmem, hp⟩ := mem_of_first hu
      simp only [Bool.and_eq_true, decide_eq_true_eq] at hp
      exact .moved ⟨fun _ => sound_of_delivers (delivers_of_mem hmem hp.1.2) rfl
        (fun _ _ _ h => by cases h), .inl rfl, .inl rfl⟩

theorem check_effect (hw : s.workers w = .checking u) : Effect P s (.work w env reads) (s.check w env u) := by
  unfold State.check
  split
  · exact .wrote (hw ▸ .retired ‹_›)
  · rename_i hfree
    refine .moved ⟨fun hs => ?_, .inl rfl, .inr (.inr ⟨u, hw, rfl, by simpa using hfree⟩)⟩
    exact sound_of_delivers (hs.delivers u (by rw [hw]; rfl)) rfl fun _ _ _ h => by cases h

theorem deliver_effect (hw : s.workers w = .submitting u) :
    Effect P s (.work w env reads) (s.deliver P w env u) := by
  have hdelivers : Sound s.turns (s.workers w) → Delivers s.turns u :=
    fun hs => hs.delivers u (by rw [hw]; rfl)
  unfold State.deliver
  split
  · exact .submitted hw ‹_›
  · refine .moved ⟨fun hs => ?_, .inl rfl, .inr (.inl (by rw [hw]; rfl))⟩
    exact sound_of_delivers (hdelivers hs) rfl fun _ _ _ h => by cases h
  · exact .moved (passes_of_none rfl rfl rfl)
  · split
    · exact .moved (passes_finishing hdelivers (.inl rfl))
    · exact .moved (passes_of_none rfl rfl rfl)

theorem lookup_effect (hw : s.workers w = .conflicted u) : Effect P s (.work w env reads) (s.lookup w u) := by
  have hdelivers : Sound s.turns (s.workers w) → Delivers s.turns u :=
    fun hs => hs.delivers u (by rw [hw]; rfl)
  unfold State.lookup
  split
  · refine .moved ⟨fun hs => ?_, .inl rfl, .inr (.inl (by rw [hw]; rfl))⟩
    exact sound_of_delivers (hdelivers hs) rfl fun _ _ _ h => by cases h
  · exact .moved (passes_finishing hdelivers (.inl rfl))

theorem lookSettle_effect (tenant : String) :
    Effect P s (.work w env reads) (s.lookSettle P w env reads tenant) := by
  unfold State.lookSettle
  split
  · exact .moved (passes_of_none rfl rfl rfl)
  · split
    · exact .moved (passes_of_none rfl rfl rfl)
    · split
      · exact .moved (passes_of_none rfl rfl rfl)
      · exact .moved (passes_of_none rfl rfl rfl)

theorem lookOpen_effect (tenant : String) :
    Effect P s (.work w env reads) (s.lookOpen w env tenant) := by
  unfold State.lookOpen
  split
  · exact .moved (passes_of_none rfl rfl rfl)
  · split
    · exact .moved (passes_of_none rfl rfl rfl)
    · rename_i u hu
      split
      · exact .moved (passes_of_none rfl rfl rfl)
      · split
        · exact .moved (passes_of_none rfl rfl rfl)
        · exact .moved ⟨fun _ => sound_of_none rfl, .inr (.inr ⟨tenant, u, hu, rfl⟩), .inl rfl⟩

theorem prepare_effect (hw : s.workers w = .preparing u) :
    Effect P s (.work w env reads) (s.prepare P w env reads u) := by
  have hheld : (s.workers w).candidate? = some u := by
    rw [hw]
    rfl
  unfold State.prepare
  split
  · exact .moved (passes_of_none rfl rfl rfl)
  · split
    · exact .moved (passes_candidate hheld rfl rfl rfl)
    · split
      · exact .moved (passes_candidate hheld rfl rfl rfl)
      · split
        · exact .moved (passes_candidate hheld rfl rfl rfl)
        · exact .moved (passes_candidate hheld rfl rfl rfl)

theorem create_effect {prompt : String} {maxSteps maxSeconds : ℤ}
    (hw : s.workers w = .creating u prompt maxSteps maxSeconds) :
    Effect P s (.work w env reads) (s.create P w env u prompt maxSteps maxSeconds) := by
  unfold State.create
  split
  · exact .created hw ‹_›
  · split
    · exact .moved (passes_candidate (by rw [hw]; rfl) rfl rfl rfl)
    · exact .moved (passes_of_none rfl rfl rfl)

theorem markOpen_effect {run : Option Uuid} {error : String} (hw : s.workers w = .ready u run error) :
    Effect P s (.work w env reads) (s.markOpen w u run error) := by
  unfold State.markOpen
  split
  · exact .moved (passes_of_none rfl rfl rfl)
  · exact .wrote (hw ▸ .opened (Nat.lt_of_not_le ‹_›))

theorem close_effect (hw : s.workers w = .answered u) : Effect P s (.work w env reads) (s.close w u) := by
  unfold State.close
  dsimp only
  split
  · rename_i hany
    obtain ⟨x, hx, hp⟩ := List.any_eq_true.1 hany
    simp only [Bool.and_eq_true, decide_eq_true_eq] at hp
    exact .delivered hw hx hp.1 hp.2
  · -- no row is left to update
    rename_i hnone
    have hrows : ∀ x ∈ s.turns,
        (decide (x.key = u.key) && decide (x.status = .delivering)) = false := fun x hx =>
      Bool.eq_false_iff.2 (List.any_eq_false.1 (Bool.eq_false_iff.2 hnone) x hx)
    have hsame : s.setTurn u (fun x => x.status = .delivering)
        (fun x => { x with status := .delivered }) = s := by
      unfold State.setTurn
      rw [update_of_none hrows]
    rw [hsame]
    exact .moved (passes_of_none rfl rfl rfl)

theorem work_effect : Effect P s (.work w env reads) (s.work P w env reads) := by
  unfold State.work
  split
  · exact .same _
  · exact lookClose_effect _
  · exact close_effect ‹_›
  · rename_i hw
    exact .wrote (hw ▸ .finished)
  · exact lookDeliver_effect _
  · exact check_effect ‹_›
  · exact deliver_effect ‹_›
  · exact lookup_effect ‹_›
  · rename_i hw
    exact .wrote (hw ▸ .noted)
  · exact lookSettle_effect _
  · rename_i hw
    exact .wrote (hw ▸ .settled)
  · exact lookOpen_effect _
  · rename_i hw
    exact .wrote (hw ▸ .left)
  · exact prepare_effect ‹_›
  · exact create_effect ‹_›
  · exact markOpen_effect ‹_›

theorem payloadText_eq {payload : Json} {key text : String} (h : payload.getD key .null = .str text) :
    payloadText payload key = text := by
  unfold Json.getD at h
  unfold payloadText Json.getD
  cases hx : payload.get? key with
  | none =>
    rw [hx] at h
    cases h
  | some v =>
    rw [hx] at h
    obtain rfl : v = .str text := h
    rfl

theorem record_effect {tenant channel eventKey agent : String} {payload : Json}
    (h : s.record env tenant channel eventKey agent payload = .ok t) :
    Effect P s (.record env tenant channel eventKey agent payload) t := by
  simp only [State.record, bind_eq_ok] at h
  obtain ⟨turns, hturns, h⟩ := h
  obtain ⟨-, hturns⟩ := recordTurn_eq hturns
  split at h
  · obtain rfl := Except.ok.inj h
    exact .same _
  · rename_i hnone
    rw [if_neg hnone] at hturns
    obtain ⟨u, rfl, hkey, hstatus, hcreated, hconversation⟩ := hturns
    obtain rfl := Except.ok.inj h
    simp only [TurnRow.key, Prod.mk.injEq] at hkey
    obtain ⟨rfl, rfl, rfl⟩ := hkey
    rw [payloadText_eq hconversation]
    refine .recorded (fun v hv hk => hnone ?_) hstatus hcreated (payloadText_eq hconversation)
    exact List.any_eq_true.2 ⟨v, hv, decide_eq_true hk⟩

/-- **What a label can do.** -/
theorem Step.effect (h : Step P s l t) : Effect P s l t := by
  obtain rfl : t = s.after P l := h
  delta State.after
  cases l with
  | record env tenant channel eventKey agent payload =>
    dsimp only
    split
    · exact record_effect ‹_›
    · exact .same _
  | tick w tenant =>
    dsimp only
    split
    · exact .begun
    · exact .same _
  | work w env reads => exact work_effect
  | crash w => exact .crashed w
  | takeover env tenant channel conversationId actor agent =>
    dsimp only
    split
    · exact .taken _ _
    · exact .same _
  | release env tenant channel conversationId actor =>
    dsimp only
    split
    · exact .taken _ _
    · exact .same _
  | settleReplies env tenant updated =>
    dsimp only
    split
    · exact .replied ‹_›
    · exact .same _
  | loop l => exact .looped l

end Labels

section Frame

variable {env : Env} {s t : State}

theorem settleReplies_frame {tenant : String} {updated : Uuid → Time}
    (h : settleReplies env s tenant updated = .ok t) :
    t.turns = s.turns ∧ t.workers = s.workers ∧ t.agent = s.agent := by
  refine foldlM_induct (I := fun t => t.turns = s.turns ∧ t.workers = s.workers ∧ t.agent = s.agent) h
    ⟨rfl, rfl, rfl⟩ fun s₁ s₂ x _ hs hx => ?_
  simp only [settleReply, bind_eq_ok, need_eq_ok] at hx
  obtain ⟨field, -, conversationId, -, hx⟩ := hx
  split at hx
  · obtain rfl := pure_eq_ok.1 hx
    exact hs
  · simp only [bind_eq_ok, pure_eq_ok] at hx
    obtain ⟨text, -, policy, -, takeovers, -, rfl⟩ := hx
    exact hs

end Frame

/-! ### The agent loop under the conversations -/

section Loop

variable {P : Platform} {s t : State} {l : Label} {τs : List (Transition State Label)}

/-- **The loop below makes steps of its own.** Whatever a label does, the agent loop under the
conversations makes one step or none. -/
theorem Effect.loop (he : Effect P s l t) :
    t.agent = s.agent ∨ ∃ l', Agent.Step P s.agent l' t.agent := by
  cases he with
  | same | taken | recorded | crashed | begun | moved | wrote | delivered => exact .inl rfl
  | looped l => exact .inr ⟨l, rfl⟩
  | replied hsettled => exact .inl (settleReplies_frame hsettled).2.2
  | @created w env reads u prompt maxSteps maxSeconds agent run hw hcreate =>
    refine .inr ⟨.create env u.tenant (runKey P u) u.agent prompt u.sender maxSteps maxSeconds
      u.channel, ?_⟩
    show agent = commit s.agent (Agent.create P env s.agent u.tenant (runKey P u) u.agent prompt
      u.sender maxSteps maxSeconds u.channel)
    rw [hcreate]
    rfl
  | @submitted w env reads u db id hw hsubmit =>
    refine .inr ⟨.engine (.submit env u.tenant u.channel u.eventKey u.agent
      (replySteps u.channel u.conversationId u.reply) u.sender), ?_⟩
    have hafter : s.agent.view.after P (.submit env u.tenant u.channel u.eventKey u.agent
        (replySteps u.channel u.conversationId u.reply) u.sender) = db := by
      show commit s.db ((s.submitReply P env u).map _) = db
      rw [hsubmit]
      rfl
    unfold Agent.Step
    dsimp only [Agent.State.after, State.goto]
    rw [if_pos (by rfl), hafter]

theorem reachable_loop (h : Run (Step P) {} τs s) :
    ∃ τs', Run (Agent.Step P) {} τs' s.agent := by
  refine h.invariant (I := fun s => ∃ τs', Run (Agent.Step P) {} τs' s.agent) ⟨[], .nil⟩ ?_
  rintro s l t ⟨τs', hrun⟩ hs
  rcases hs.effect.loop with heq | ⟨l', hloop⟩
  · exact ⟨τs', heq ▸ hrun⟩
  · exact ⟨_, hrun.snoc hloop⟩

theorem Effect.engine (he : Effect P s l t) : ∃ τs', Run (Engine.Step P) s.db τs' t.db := by
  rcases he.loop with heq | ⟨l', hloop⟩
  · have hdb : t.db = s.db := congrArg Agent.State.view heq
    exact ⟨[], hdb ▸ .nil⟩
  · obtain ⟨ops, hview⟩ := hloop.effect.view
    have hrun := ((Run.nil : Run (Engine.Step P) s.agent.view [] _).calls ops).snoc
      (e := .elsewhere t.agent.view.events t.agent.view.runs t.agent.view.agentTurns) rfl
    rw [← hview] at hrun
    exact ⟨_, hrun⟩

theorem reachable_engine (h : Run (Step P) {} τs s) :
    ∃ τs', Run (Engine.Step P) {} τs' s.db := by
  obtain ⟨τs', hloop⟩ := reachable_loop h
  exact Agent.reachable_view hloop

theorem Effect.keys_kept (he : Effect P s l t) {k : String × String × String} (hk : k ∈ s.db.keys) :
    k ∈ t.db.keys := by
  obtain ⟨τs', hrun⟩ := he.engine
  refine hrun.stable (p := fun db => k ∈ db.keys) (fun db op db' hs hk => ?_) hk
  obtain ⟨out, he, -⟩ := Engine.Step.effect hs
  rcases he.keys with heq | ⟨k', -, -, heq⟩
  · exact heq ▸ hk
  · rw [heq]
    exact List.mem_append_left _ hk

end Loop

/-! ### The turns after a label -/

section Turns

variable {P : Platform} {s t : State} {w : ℕ} {env : Env} {l : Label} {u : TurnRow}
  {stage : Stage} {p : TurnRow → Bool} {f : TurnRow → TurnRow}

variable {turns : List TurnRow}

theorem Sound.mono {turns' : List TurnRow} (h : Sound turns stage)
    (hkept : ∀ v ∈ turns, ∃ v' ∈ turns', Kept v v') : Sound turns' stage where
  delivers u hu := by
    obtain ⟨v, hv, hkey, hconversation, hreply, hrank⟩ := h.delivers u hu
    obtain ⟨v', hv', hk⟩ := hkept v hv
    refine ⟨v', hv', hk.key.trans hkey, hk.conversationId.trans hconversation, ?_, ?_⟩
    · exact (hk.reply hrank).trans hreply
    · exact Nat.le_trans hrank hk.rank_le
  ends := h.ends

variable {x : TurnRow}

theorem kept_forward {v : TurnRow} (hkey : v.key = x.key)
    (hconversation : v.conversationId = x.conversationId) (hcreated : v.created = x.created)
    (hlt : x.status.rank < v.status.rank) (hreply : v.reply = x.reply ∨ x.status.rank < 2) : Kept x v :=
  ⟨hkey, hconversation, hcreated, .inr hlt,
    fun hrank => hreply.resolve_right (Nat.not_lt.2 hrank)⟩

/-- A write moves its turn forward. -/
theorem Write.kept (h : Write s stage env u p f) (hsound : Sound turns stage) (hp : p x = true) :
    Kept x (f x) := by
  cases h with
  | opened =>
    have hstatus : x.status = .queued := of_decide_eq_true hp
    refine kept_forward rfl rfl rfl ?_ (.inl rfl)
    simp [hstatus, TurnStatus.rank]
  | left =>
    have hstatus : x.status = .queued := of_decide_eq_true hp
    refine kept_forward rfl rfl rfl ?_ (.inl rfl)
    simp [hstatus, TurnStatus.rank]
  | settled =>
    have hstatus : x.status = .opened := of_decide_eq_true hp
    refine kept_forward rfl rfl rfl ?_ (.inr ?_) <;> simp [hstatus, TurnStatus.rank]
  | retired =>
    simp only [Bool.and_eq_true, decide_eq_true_eq] at hp
    refine kept_forward rfl rfl rfl ?_ (.inl rfl)
    simp [hp.1, TurnStatus.rank]
  | noted => exact ⟨rfl, rfl, rfl, .inl rfl, fun _ => rfl⟩
  | finished =>
    have hstatus : x.status = .delivering := of_decide_eq_true hp
    refine kept_forward rfl rfl rfl ?_ (.inl rfl)
    rcases hsound.ends _ _ _ rfl with rfl | rfl <;> simp [hstatus, TurnStatus.rank]

theorem Write.not_delivered (h : Write s stage env u p f) (hsound : Sound turns stage) (hp : p x = true) :
    (f x).status ≠ .delivered := by
  cases h with
  | opened | left | settled | retired => exact fun h => by cases h
  | noted =>
    simp only [Bool.and_eq_true, decide_eq_true_eq] at hp
    simp [hp.1]
  | finished => rcases hsound.ends _ _ _ rfl with rfl | rfl <;> simp

theorem kept_delivered (hstatus : x.status = .delivering) : Kept x { x with status := .delivered } := by
  refine kept_forward rfl rfl rfl ?_ (.inl rfl)
  simp [hstatus, TurnStatus.rank]

theorem Write.key (h : Write s stage env u p f) (x : TurnRow) : (f x).key = x.key := by
  cases h <;> rfl

theorem Write.created (h : Write s stage env u p f) (x : TurnRow) : (f x).created = x.created := by
  cases h <;> rfl

theorem goto_workers (s : State) (w : ℕ) (stage : Stage) (v : ℕ) :
    (s.goto w stage).workers v = if v = w then stage else s.workers v := by
  show Function.update s.workers w stage v = _
  rw [Function.update_apply]

/-- The turns after a label: the ones before it, moved forward, and a new one last. -/
structure Grown (turns turns' : List TurnRow) : Prop where
  rows : ∃ (g : TurnRow → TurnRow) (new : List TurnRow), turns' = turns.map g ++ new ∧
    (∀ u ∈ turns, Kept u (g u)) ∧ ∀ u ∈ new, ∀ v ∈ turns, v.key ≠ u.key

theorem Grown.refl (turns : List TurnRow) : Grown turns turns :=
  ⟨⟨id, [], by simp, fun u _ => .refl u, by simp⟩⟩

theorem Grown.kept {turns' : List TurnRow} (h : Grown turns turns') :
    ∀ u ∈ turns, ∃ v ∈ turns', Kept u v := by
  obtain ⟨g, new, rfl, hg, -⟩ := h.rows
  exact fun u hu => ⟨g u, List.mem_append_left _ (List.mem_map_of_mem hu), hg u hu⟩

theorem grown_update {q : TurnRow → Bool} (hf : ∀ x ∈ s.turns, q x = true → Kept x (f x)) :
    Grown s.turns (update q f s.turns) := by
  refine ⟨⟨fun x => if q x = true then f x else x, [], by simp [update], fun x hx => ?_, by simp⟩⟩
  show Kept x (if q x = true then f x else x)
  split
  · exact hf x hx ‹_›
  · exact .refl x

/-- **No label loses a turn or moves one back.** -/
theorem Effect.grown (hsound : ∀ w, Sound s.turns (s.workers w)) (he : Effect P s l t) :
    Grown s.turns t.turns := by
  cases he with
  | same | looped | taken | crashed | begun | moved | created | submitted => exact .refl _
  | @recorded env agent payload u hfresh =>
    refine ⟨⟨id, [u], by simp, fun v _ => .refl v, fun x hx => ?_⟩⟩
    obtain rfl := List.mem_singleton.1 hx
    exact hfresh
  | replied hsettled =>
    rw [(settleReplies_frame hsettled).1]
    exact .refl _
  | @wrote w env reads u p f hwrite =>
    refine grown_update fun x _ hp => hwrite.kept (hsound w) (p := p) ?_
    simp only [Bool.and_eq_true] at hp
    exact hp.2
  | delivered =>
    refine grown_update fun x _ hp => kept_delivered ?_
    simp only [Bool.and_eq_true, decide_eq_true_eq] at hp
    exact hp.2

theorem Effect.keyed (hkeyed : Keyed TurnRow.key s.turns) (he : Effect P s l t) :
    Keyed TurnRow.key t.turns := by
  cases he with
  | same | looped | taken | crashed | begun | moved | created | submitted => exact hkeyed
  | recorded hfresh => exact hkeyed.insert hfresh
  | replied hsettled => exact (settleReplies_frame hsettled).1 ▸ hkeyed
  | wrote hwrite => exact hkeyed.update hwrite.key
  | delivered => exact hkeyed.update (f := fun x => { x with status := .delivered }) fun _ => rfl

/-- What a stage holds stays true. -/
theorem Effect.sound (hsound : ∀ w, Sound s.turns (s.workers w)) (he : Effect P s l t) (v : ℕ) :
    Sound t.turns (t.workers v) := by
  have hgoto : ∀ w stage, Sound s.turns stage → Sound s.turns ((s.goto w stage).workers v) := by
    intro w stage hstage
    rw [goto_workers]
    split
    · exact hstage
    · exact hsound v
  refine Sound.mono ?_ (he.grown hsound).kept
  cases he with
  | same | looped | taken | recorded => exact hsound v
  | replied hsettled => exact (settleReplies_frame hsettled).2.1 ▸ hsound v
  | crashed w | begun | wrote | created => exact hgoto _ _ (sound_of_none rfl)
  | delivered => exact hgoto _ _ (sound_of_none rfl)
  | moved hpasses => exact hgoto _ _ (hpasses.sound (hsound _))
  | @submitted w env reads u db id hw =>
    refine hgoto _ _ (sound_of_delivers ((hsound w).delivers u (by rw [hw]; rfl)) rfl ?_)
    exact fun _ _ _ h => by cases h

end Turns

end AgentPlatform.Conversation
