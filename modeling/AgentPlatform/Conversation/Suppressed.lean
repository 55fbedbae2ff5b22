import AgentPlatform.Conversation.OneLive
import AgentPlatform.Engine.Progress

/-!
# A takeover and the agent's reply

The takeover check of `_deliver`, the submission of the reply and the recording of its task are three
transactions, and the check looks only at the turn's own row. Under the condition `Exclusive` on the
checks of a run, a turn left to the operator has no reply (`reply_suppressed`). Without it a worker that
dies between submission and recording leaves a reply behind that the next check does not see
(`reply_beside_operator`). What is submitted is never lost and never doubled (`reply_never_lost`).
-/

namespace AgentPlatform.Conversation

open Outcome Engine Table Runs

/-- A transition submits the reply of a turn. -/
def Replies (P : Platform) (τ : Transition State Label) (u : TurnRow) : Prop :=
  ∃ w env reads db id, τ.label = .work w env reads ∧ τ.src.workers w = .submitting u ∧
    τ.src.submitReply P env u = .ok (db, id)

/-- At a takeover check: a turn that is retired has no task yet, and no worker stands between its own
check and the recording of the task; a turn whose check passes was not retired before. -/
def Exclusive (s : State) : Label → Prop
  | .work w env _ => ∀ u, s.workers w = .checking u →
    (takenOver s.takeovers u.tenant u.channel u.conversationId env.now = true →
      (∃ v ∈ s.turns, v.key = u.key ∧ v.status = .delivering ∧ v.task = none) →
        u.key ∉ s.db.keys ∧ ∀ w' v, (s.workers w').cleared? = some v → v.key ≠ u.key) ∧
    (takenOver s.takeovers u.tenant u.channel u.conversationId env.now = false →
      ∀ v ∈ s.turns, v.key = u.key → v.status ≠ .operator)
  | _ => True

/-- The invariant of the deliveries. -/
structure Suppressed (s : State) : Prop where
  keyed : Keyed TurnRow.key s.turns
  sound : ∀ w, Sound s.turns (s.workers w)
  apart : ∀ w u, (s.workers w).cleared? = some u → ∀ v ∈ s.turns, v.key = u.key →
    v.status ≠ .operator

/-- What a submitted reply leaves behind: its task, and a turn in delivery or over, but not the
operator's. -/
def Left (s : State) (u : TurnRow) : Prop :=
  u.key ∈ s.db.keys ∧ (∃ v ∈ s.turns, v.key = u.key) ∧
    ∀ v ∈ s.turns, v.key = u.key → 2 ≤ v.status.rank ∧ v.status ≠ .operator

section Step

variable {P : Platform} {s t : State} {l : Label} {u v : TurnRow} {w : ℕ}

theorem suppressed_empty : Suppressed {} where
  keyed := keyed_nil _
  sound _ := sound_of_none rfl
  apart w u hu := by cases hu

theorem delivery_of_cleared {stage : Stage} (h : stage.cleared? = some u) :
    stage.delivery? = some u := by
  cases stage <;> first | exact h | cases h

/-- How a turn comes to be the operator's: it was queued, or a check retires it. -/
inductive Retires (s : State) (l : Label) (v : TurnRow) : Prop
  | already {x : TurnRow} (hx : x ∈ s.turns) (hkey : v.key = x.key) (hstatus : x.status = .operator)
  | queued {x : TurnRow} (hx : x ∈ s.turns) (hkey : v.key = x.key) (hstatus : x.status = .queued)
  | checked {w : ℕ} {env : Env} {reads : Reads} {u x : TurnRow} (hl : l = .work w env reads)
      (hw : s.workers w = .checking u) (hkey : v.key = u.key)
      (htaken : takenOver s.takeovers u.tenant u.channel u.conversationId env.now = true)
      (hx : x ∈ s.turns) (hxkey : x.key = u.key) (hstatus : x.status = .delivering)
      (htask : x.task = none)

theorem Effect.retires (hsound : ∀ w, Sound s.turns (s.workers w)) (he : Effect P s l t)
    (hv : v ∈ t.turns) (hoperator : v.status = .operator) : Retires s l v := by
  cases he with
  | same | looped | taken | crashed | begun | moved | created | submitted =>
    exact .already hv rfl hoperator
  | recorded _ hstatus =>
    rcases List.mem_append.1 hv with hv | hv
    · exact .already hv rfl hoperator
    · obtain rfl := List.mem_singleton.1 hv
      rcases hstatus with hs | hs <;> rw [hoperator] at hs <;> cases hs
  | replied hsettled =>
    rw [(settleReplies_frame hsettled).1] at hv
    exact .already hv rfl hoperator
  | @wrote w env reads u p f hwrite =>
    obtain ⟨x, hx, rfl⟩ := mem_update.1 hv
    split at hoperator
    · rename_i hp
      rw [if_pos hp]
      simp only [Bool.and_eq_true, decide_eq_true_eq] at hp
      obtain ⟨hkey, hp⟩ := hp
      have hsound := hsound w
      generalize hw : s.workers w = stage at hwrite hsound
      cases hwrite with
      | opened => cases hoperator
      | left => exact .queued hx rfl (of_decide_eq_true hp)
      | settled => cases hoperator
      | retired htaken =>
        simp only [Bool.and_eq_true, decide_eq_true_eq, Option.isNone_iff_eq_none] at hp
        exact .checked rfl hw hkey htaken hx hkey hp.1 hp.2
      | noted => exact .already hx rfl hoperator
      | finished =>
        rcases hsound.ends _ _ _ rfl with rfl | rfl <;> cases hoperator
    · rename_i hp
      rw [if_neg hp]
      exact .already hx rfl hoperator
  | delivered =>
    obtain ⟨x, hx, rfl⟩ := mem_update.1 hv
    split at hoperator
    · cases hoperator
    · rename_i hp
      rw [if_neg hp]
      exact .already hx rfl hoperator

theorem Suppressed.rank (h : Suppressed s) (hu : (s.workers w).delivery? = some u) (hv : v ∈ s.turns)
    (hkey : v.key = u.key) : 2 ≤ v.status.rank := by
  obtain ⟨x, hx, hxkey, -, -, hrank⟩ := (h.sound w).delivers u hu
  obtain rfl := h.keyed.eq_of_key hv hx (hkey.trans hxkey.symm)
  exact hrank

/-- A stage past the check was so before, or its check has just passed. -/
theorem Effect.cleared (he : Effect P s l t) (hu : (t.workers w).cleared? = some u) :
    (s.workers w).cleared? = some u ∨ ∃ env reads, l = .work w env reads ∧ t.turns = s.turns ∧
      s.workers w = .checking u ∧
        takenOver s.takeovers u.tenant u.channel u.conversationId env.now = false := by
  have hgoto : ∀ {w' stage}, ((s.goto w' stage).workers w).cleared? = some u →
      stage.cleared? = none ∨ stage.cleared? = (s.workers w').cleared? →
        (s.workers w).cleared? = some u := by
    intro w' stage hu hstage
    rw [goto_workers] at hu
    split at hu
    · rename_i hw
      subst hw
      rcases hstage with hnone | hsame
      · rw [hnone] at hu
        cases hu
      · exact hsame ▸ hu
    · exact hu
  cases he with
  | same | looped | taken | recorded => exact .inl hu
  | replied hsettled => exact .inl ((settleReplies_frame hsettled).2.1 ▸ hu)
  | crashed | begun | wrote | delivered => exact .inl (hgoto hu (.inl rfl))
  | created => exact .inl (hgoto hu (.inl rfl))
  | submitted hw => exact .inl (hgoto hu (.inr (by rw [hw]; rfl)))
  | @moved w' env reads stage hpasses =>
    rcases hpasses.cleared with hnone | hsame | ⟨x, hw, hstage, hfree⟩
    · exact .inl (hgoto hu (.inl hnone))
    · exact .inl (hgoto hu (.inr hsame))
    · rw [goto_workers] at hu
      split at hu
      · rename_i heq
        subst heq
        obtain rfl := Option.some.inj (hstage.symm.trans hu)
        exact .inr ⟨env, reads, rfl, rfl, hw, hfree⟩
      · exact .inl hu

theorem Step.suppressed (h : Suppressed s) (hs : Step P s l t) (hexclusive : Exclusive s l) :
    Suppressed t where
  keyed := hs.effect.keyed h.keyed
  sound := hs.effect.sound h.sound
  apart w u hu v hv hkey hoperator := by
    rcases hs.effect.cleared hu with hold | ⟨env, reads, rfl, hturns, hw, hfree⟩
    · have hdelivery := delivery_of_cleared hold
      cases hs.effect.retires h.sound hv hoperator with
      | already hx hxkey hstatus => exact h.apart w u hold _ hx (hxkey.symm.trans hkey) hstatus
      | queued hx hxkey hstatus =>
        have hrank := h.rank hdelivery hx (hxkey.symm.trans hkey)
        rw [hstatus] at hrank
        exact absurd hrank (by decide)
      | checked hl hw hvkey htaken hx hxkey hstatus htask =>
        subst hl
        refine ((hexclusive _ hw).1 htaken ⟨_, hx, hxkey, hstatus, htask⟩).2 w u hold ?_
        exact hkey.symm.trans hvkey
    · exact (hexclusive u hw).2 hfree v (hturns ▸ hv) hkey hoperator

/-- The reply of a turn, once submitted, keeps the operator from the turn. -/
theorem Left.step (h : Suppressed s) (hs : Step P s l t) (hexclusive : Exclusive s l)
    (hleft : Left s u) : Left t u := by
  obtain ⟨hkeys, ⟨x, hx, hxkey⟩, hrows⟩ := hleft
  obtain ⟨g, new, hturns, hg, hfresh⟩ := (hs.effect.grown h.sound).rows
  refine ⟨hs.effect.keys_kept hkeys, ⟨g x, ?_, (hg x hx).key.trans hxkey⟩, fun v hv hkey => ⟨?_, ?_⟩⟩
  · rw [hturns]
    exact List.mem_append_left _ (List.mem_map_of_mem hx)
  · rw [hturns] at hv
    rcases List.mem_append.1 hv with hv | hv
    · obtain ⟨y, hy, rfl⟩ := List.mem_map.1 hv
      exact Nat.le_trans (hrows y hy ((hg y hy).key.symm.trans hkey)).1 (hg y hy).rank_le
    · exact absurd (hxkey.trans hkey.symm) (hfresh v hv x hx)
  · intro hoperator
    cases hs.effect.retires h.sound hv hoperator with
    | already hy hykey hstatus => exact (hrows _ hy (hykey.symm.trans hkey)).2 hstatus
    | queued hy hykey hstatus =>
      have hrank := (hrows _ hy (hykey.symm.trans hkey)).1
      rw [hstatus] at hrank
      exact absurd hrank (by decide)
    | checked hl hw hvkey htaken hy hykey hstatus htask =>
      subst hl
      refine ((hexclusive _ hw).1 htaken ⟨_, hy, hykey, hstatus, htask⟩).1 ?_
      rw [← hvkey, hkey]
      exact hkeys

/-- What a submission leaves behind. -/
theorem Replies.dst (hs : Step P s l t) (hreplies : Replies P ⟨s, l, t⟩ u) :
    ∃ w db id, s.workers w = .submitting u ∧ u.key ∈ db.keys ∧
      t = { s with agent := { s.agent with db := db } }.goto w (.submitted u id) := by
  obtain ⟨w, env, reads, db, id, hl, hw, hsubmit⟩ := hreplies
  dsimp only at hl hw hsubmit
  subst hl
  refine ⟨w, db, id, hw, submit_keys hsubmit, ?_⟩
  show t = _
  rw [show t = s.work P w env reads from hs]
  unfold State.work
  rw [hw]
  dsimp only
  unfold State.deliver
  rw [hsubmit]

/-- A submission leaves its task behind. -/
theorem Replies.left (h : Suppressed s) (hs : Step P s l t) (hreplies : Replies P ⟨s, l, t⟩ u) :
    Left t u := by
  obtain ⟨w, db, id, hw, hkeys, ht⟩ := hreplies.dst hs
  have hcleared : (s.workers w).cleared? = some u := by
    rw [hw]
    rfl
  obtain ⟨x, hx, hxkey, -, -, -⟩ := (h.sound w).delivers u (delivery_of_cleared hcleared)
  rw [ht]
  refine ⟨hkeys, ⟨x, hx, hxkey⟩, fun v hv hkey => ⟨?_, ?_⟩⟩
  · exact h.rank (delivery_of_cleared hcleared) hv hkey
  · exact h.apart w u hcleared v hv hkey

end Step

section Runs

variable {P : Platform} {τs : List (Transition State Label)} {s : State}

/-- **A takeover suppresses the reply.** In a run whose takeover checks are all exclusive, the reply of a
turn that was left to the operator is never submitted, neither before nor after. -/
theorem reply_suppressed (h : Run (Step P) {} τs s)
    (hexclusive : ∀ τ ∈ τs, Exclusive τ.src τ.label) :
    ∀ u ∈ s.turns, u.status = .operator → ∀ τ ∈ τs, ∀ v, Replies P τ v → v.key ≠ u.key := by
  intro u hu hoperator τ hτ v hreplies hkey
  have hleft : ∀ v, Replies P τ v → Left s v := by
    refine (h.guard hexclusive).past (q := fun τ s => ∀ v, Replies P τ v → Left s v)
      suppressed_empty (fun _ _ _ h hs => hs.1.suppressed h hs.2) ?_ ?_ τ hτ
    · exact fun τ s l t h hs hq v hv => (hq v hv).step h hs.1 hs.2
    · exact fun s l t h hs v hv => hv.left h hs.1
  exact ((hleft v hreplies).2.2 u hu hkey.symm).2 hoperator

/-! One worker and one message, which is answered with the fallback text. -/

/-- The worker of a label. -/
def Label.worker? : Label → Option ℕ
  | .tick w _ | .work w _ _ | .crash w => some w
  | _ => none

theorem Effect.others {t : State} {l : Label} {w : ℕ} (he : Effect P s l t)
    (hw : l.worker? ≠ some w) : t.workers w = s.workers w := by
  have hgoto : ∀ {w' stage}, some w' ≠ some w → (s.goto w' stage).workers w = s.workers w := by
    intro w' stage hne
    rw [goto_workers, if_neg fun heq => hne (congrArg some heq.symm)]
  cases he with
  | same | looped | taken | recorded => rfl
  | replied hsettled => rw [(settleReplies_frame hsettled).2.1]
  | crashed | begun | moved | created | submitted | wrote | delivered => exact hgoto hw

/-- In a run of worker 0 alone all others are idle. -/
theorem alone {ls : List Label} (hls : ∀ l ∈ ls, ∀ w, w ≠ 0 → l.worker? ≠ some w)
    {τ : Transition State Label} (hτ : τ ∈ trace (State.after P) {} ls) {w : ℕ} (hw : w ≠ 0) :
    τ.src.workers w = .idle := by
  have hok : ∀ τ ∈ [] ++ trace (State.after P) {} ls, ∀ w, w ≠ 0 → τ.label.worker? ≠ some w :=
    fun τ hτ => hls τ.label (label_of_mem_trace (by simpa using hτ))
  have hcalls : Run (Step P) {} ([] ++ trace (State.after P) {} ls) (ls.foldl (State.after P) {}) :=
    Run.nil.calls ls
  have hrun : Run (guarded (fun _ l => ∀ w, w ≠ 0 → l.worker? ≠ some w) (Step P)) {} _ _ :=
    hcalls.guard hok
  refine (hrun.always (I := fun s => ∀ w, w ≠ 0 → s.workers w = .idle) (fun _ _ => rfl) ?_
    (by simpa using hτ)).2 w hw
  intro s l t hs hst w hw
  have hstep : Step P s l t := hst.1
  rw [hstep.effect.others (hst.2 w hw), hs w hw]

/-- `Exclusive` for worker 0, the others being idle. -/
def exclusiveAlone (s : State) : Label → Bool
  | .work w env _ =>
    decide (w = 0) &&
      match s.workers w with
      | .checking u =>
        if takenOver s.takeovers u.tenant u.channel u.conversationId env.now then
          !s.db.keys.contains u.key
        else s.turns.all fun v => decide (v.key = u.key → v.status ≠ .operator)
      | _ => true
  | _ => true

theorem exclusive_of_alone {l : Label} (h : exclusiveAlone s l = true)
    (hidle : ∀ w, w ≠ 0 → s.workers w = .idle) : Exclusive s l := by
  cases l with
  | work w env reads =>
    obtain ⟨hw, h⟩ := Bool.and_eq_true_iff.1 h
    obtain rfl : w = 0 := of_decide_eq_true hw
    intro u hu
    rw [hu] at h
    dsimp only at h
    refine ⟨fun htaken _ => ?_, fun hfree => ?_⟩
    · rw [if_pos htaken] at h
      refine ⟨by simpa using h, fun w v hv => ?_⟩
      by_cases hw : w = 0
      · rw [hw, hu] at hv
        cases hv
      · rw [hidle w hw] at hv
        cases hv
    · rw [if_neg (by simp [hfree])] at h
      exact fun v hv => of_decide_eq_true (List.all_eq_true.1 h v hv)
  | _ => trivial

/-- The message is recorded, its turn opened and settled. -/
def settledLabels : List Label :=
  [.loop (.inbound [⟨"acme", "telegram", "e1", "", .obj [("conversation_id", .str "42")], .done, none,
    0, .none, ""⟩]), customerEvent 1 "e1" "salom"] ++ ticked 0 2 6 ++ ticked 0 3 4

def operatorTakesOver (second : ℕ) : Label :=
  .takeover (replyEnv second) "acme" "telegram" "42" "aziz" "clerk"

/-- A human takes the chat over before the reply is submitted. -/
def suppressedLabels : List Label := settledLabels ++ operatorTakesOver 4 :: ticked 0 5 3

theorem reply_suppressed_sample :
    ∃ u ∈ (sampleState suppressedLabels).turns, u.status = .operator ∧
      ∀ τ ∈ trace (State.after replyPlatform) {} suppressedLabels, ∀ v, Replies replyPlatform τ v →
        v.key ≠ u.key := by
  obtain ⟨⟨u, hu, hoperator⟩, hcheck⟩ : (∃ u ∈ (sampleState suppressedLabels).turns,
      u.status = .operator) ∧ ∀ τ ∈ trace (State.after replyPlatform) {} suppressedLabels,
        exclusiveAlone τ.src τ.label = true := by decide +kernel
  have hworkers : ∀ l ∈ suppressedLabels, ∀ w, w ≠ 0 → l.worker? ≠ some w := by
    have hzero : ∀ l ∈ suppressedLabels, l.worker? = none ∨ l.worker? = some 0 := by decide +kernel
    rintro l hl w hw heq
    rcases hzero l hl with hnone | hsome
    · rw [hnone] at heq
      cases heq
    · exact hw (Option.some.inj (heq.symm.trans hsome))
  refine ⟨u, hu, hoperator, reply_suppressed (sampleState_run suppressedLabels) ?_ u hu hoperator⟩
  exact fun τ hτ => exclusive_of_alone (hcheck τ hτ) fun w hw => alone hworkers hτ hw

/-- The worker submits the reply and dies before it records the task; then a human takes the chat over,
and the next check retires the turn. -/
def besideLabels : List Label :=
  (settledLabels ++ ticked 0 4 3) ++ .work 0 (replyEnv 4) sampleReads ::
    (.crash 0 :: operatorTakesOver 5 :: ticked 0 6 3)

theorem beside_replies :
    ∃ τ ∈ trace (State.after replyPlatform) {} besideLabels, ∃ v, Replies replyPlatform τ v ∧
      v.key = ("acme", "telegram", "e1") := by
  have hreply : (match (sampleState (settledLabels ++ ticked 0 4 3)).workers 0 with
        | .submitting v => decide (v.key = ("acme", "telegram", "e1")) &&
          ((sampleState (settledLabels ++ ticked 0 4 3)).submitReply replyPlatform (replyEnv 4) v).isOk
        | _ => false) = true := by decide +kernel
  split at hreply
  · rename_i v hw
    simp only [Bool.and_eq_true, decide_eq_true_eq] at hreply
    have hmem : _ ∈ trace (State.after replyPlatform) {} besideLabels :=
      trace_append (State.after replyPlatform) {} (settledLabels ++ ticked 0 4 3)
        (.work 0 (replyEnv 4) sampleReads) _ ▸ List.mem_append_right _ List.mem_cons_self
    refine ⟨_, hmem, v, ?_, hreply.1⟩
    cases hsubmit : (sampleState (settledLabels ++ ticked 0 4 3)).submitReply replyPlatform
        (replyEnv 4) v with
    | ok x => exact ⟨0, replyEnv 4, sampleReads, x.1, x.2, rfl, hw, hsubmit⟩
    | error e =>
      rw [hsubmit] at hreply
      cases hreply.2
  · cases hreply

theorem reply_beside_operator :
    ¬ ∀ (P : Platform) (τs : List (Transition State Label)) (s : State), Run (Step P) {} τs s →
      ∀ u ∈ s.turns, u.status = .operator → ∀ τ ∈ τs, ∀ v, Replies P τ v → v.key ≠ u.key := by
  intro h
  obtain ⟨u, hu, hoperator, hkey⟩ : ∃ u ∈ (sampleState besideLabels).turns,
      u.status = .operator ∧ u.key = ("acme", "telegram", "e1") := by decide +kernel
  obtain ⟨τ, hτ, v, hreplies, hv⟩ := beside_replies
  exact h replyPlatform _ _ (sampleState_run besideLabels) u hu hoperator τ hτ v hreplies
    (hv.trans hkey.symm)

/-- **No reply is lost, and none is doubled.** Once a worker has submitted the reply of a turn, whatever crashes
and takeovers follow, the turn's key has one task, which has a next step as long as it is active. -/
theorem reply_never_lost (h : Run (Step P) {} τs s) {τ : Transition State Label} (hτ : τ ∈ τs) {u : TurnRow}
    (hreplies : Replies P τ u) :
    ∃ t ∈ s.db.tasks, t.key = u.key ∧ (∀ t' ∈ s.db.tasks, t'.key = u.key → t' = t) ∧
      (t.status.active = true → ∃ r, NextStep s.db t r) := by
  obtain ⟨w, db, id, -, hkeys, hdst⟩ := hreplies.dst (h.step_of_mem hτ)
  have hkept : u.key ∈ s.db.keys := by
    refine (h.later (q := fun s t => u.key ∈ s.db.keys → u.key ∈ t.db.keys) (fun _ hk => hk)
      (fun _ _ _ hst htu hk => htu (hst hk)) (fun s l t hs hk => hs.effect.keys_kept hk) hτ).2 ?_
    rw [hdst]
    exact hkeys
  obtain ⟨t, ht, hkey⟩ := List.mem_map.1 hkept
  obtain ⟨τs', hengine⟩ := reachable_engine h
  have hnodup : s.db.keys.Nodup :=
    hengine.invariant (I := fun db => db.keys.Nodup) List.nodup_nil fun db op db' hnodup hs => by
      obtain ⟨out, he, -⟩ := Engine.Step.effect hs
      exact he.keys_nodup hnodup
  exact ⟨t, ht, hkey, fun t' ht' hkey' => List.inj_on_of_nodup_map hnodup ht' ht (hkey'.trans hkey.symm),
    next_step_of (reachable_orderly orderly_empty hengine) (reachable_synced hengine) ht⟩

/-- The worker dies and the turn is the operator's, but the reply it had submitted is still there. -/
theorem reply_never_lost_sample :
    ∃ t ∈ (sampleState besideLabels).db.tasks, t.key = ("acme", "telegram", "e1") := by
  obtain ⟨τ, hτ, v, hreplies, hv⟩ := beside_replies
  obtain ⟨t, ht, hkey, -⟩ := reply_never_lost (sampleState_run besideLabels) hτ hreplies
  exact ⟨t, ht, hkey.trans hv⟩

end Runs

end AgentPlatform.Conversation
