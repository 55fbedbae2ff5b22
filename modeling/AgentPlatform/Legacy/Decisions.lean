import AgentPlatform.Legacy.Approvals

/-!
# Approvals decided once

Order row, ladder outcome and approval status are three commits. Nothing ties them together: the lock is one
process's own, and the mark is set without looking at the status again. A `decide` that breaks off leaves
what it has committed, and the next one starts over.

* `clean` says which statements do not cross another `decide`: what an order may be inserted over, and what
  an outcome may be saved over;
* `Sound.step`: while every statement is clean, the three tables agree;
* `decided_once`: every run of clean statements; `not_decided_once`: a rejection that follows a crash between
  the order and the mark.
-/

namespace AgentPlatform.Legacy

open Outcome Table Ladder Runs

variable {lib : Library} {s t : State} {l : Label} {τs : List (Transition State Label)}

/-- Whether the next statement of a `decide` crosses no other one. An order is inserted while no rejection of
its approval is recorded; an outcome is saved while none of the approval is recorded, the row has taken in
nothing since it was read, and, for a rejection, the approval has no order row. -/
def State.uncrossed (s : State) : Stage → Bool
  | .inserting call _ => !(s.recorded call.row.agent).contains (call.row.id, false)
  | .saving call _ past =>
    s.recorded call.row.agent == past &&
      !((s.recorded call.row.agent).map Prod.fst).contains call.row.id &&
      (call.decision.ok || !s.hasOrder call.row.id)
  | _ => true

/-- No statement crosses another `decide`, and what is submitted is an order, as the pipeline, the only
caller, makes it. -/
def clean (s : State) : Label → Bool
  | .submit _ kind _ _ _ _ _ _ => kind = "order"
  | .work p _ => s.uncrossed (s.procs p)
  | _ => true

/-- The outcomes recorded of an approval. -/
def State.outcomesOf (s : State) (r : Approval) : List Bool :=
  ((s.recorded r.agent).filter fun o => o.1 = r.id).map Prod.snd

/-- The effects of an approval: at most one order row and one outcome, and of a decided one exactly those of
its decision. -/
structure DecidedOnce (s : State) (r : Approval) : Prop where
  orders : s.orders.countP (fun o => o.id = orderId r.id) ≤ 1
  outcomes : (s.outcomesOf r).length ≤ 1
  recorded : ∀ d, r.status = some d → s.outcomesOf r = [d.ok]
  placed : ∀ d, r.status = some d → (s.hasOrder r.id = true ↔ d = .approved)

/-! ### The invariant -/

/-- The approval of a call is in the table. -/
def Filed (s : State) (call : Call) : Prop :=
  ∃ r ∈ s.approvals, r.id = call.row.id ∧ r.agent = call.row.agent

/-- What a `decide` under way has done. -/
def Ready (s : State) : Stage → Prop
  | .idle => True
  | .selecting call order | .inserting call order =>
    Filed s call ∧ call.decision = .approved ∧ order.id = orderId call.row.id
  | .reading call | .saving call _ _ =>
    Filed s call ∧ (call.decision = .approved → s.hasOrder call.row.id = true)
  | .updating call => (call.row.id, call.decision.ok) ∈ s.recorded call.row.agent ∧ Filed s call

/-- The tables agree. -/
structure Sound (s : State) : Prop where
  keyed : Keyed Approval.id s.approvals
  kinds : ∀ r ∈ s.approvals, r.kind = "order"
  ordersKeyed : Keyed Order.id s.orders
  once : ∀ agent, ((s.recorded agent).map Prod.fst).Nodup
  filed : ∀ agent, ∀ o ∈ s.recorded agent, ∃ r ∈ s.approvals, r.id = o.1
  approved : ∀ r ∈ s.approvals, (r.id, true) ∈ s.recorded r.agent → s.hasOrder r.id = true
  rejected : ∀ r ∈ s.approvals, (r.id, false) ∈ s.recorded r.agent → s.hasOrder r.id = false
  decided : ∀ r ∈ s.approvals, ∀ d, r.status = some d → (r.id, d.ok) ∈ s.recorded r.agent
  ready : ∀ p, Ready s (s.procs p)

theorem sound_empty : Sound {} where
  keyed := keyed_nil _
  kinds := by simp
  ordersKeyed := keyed_nil _
  once _ := List.nodup_nil
  filed _ _ h := by cases h
  approved := by simp
  rejected := by simp
  decided := by simp
  ready _ := trivial

variable {id : String}

theorem orderId_inj {id' : String} (h : orderId id = orderId id') : id = id' := by
  have hlists := congrArg String.toList h
  simp only [orderId, String.toList_append, List.append_cancel_left_eq] at hlists
  exact String.toList_inj.1 hlists

theorem hasOrder_iff : s.hasOrder id = true ↔ ∃ o ∈ s.orders, o.id = orderId id := by
  simp [State.hasOrder]

variable {stage : Stage}

/-- What a `decide` has done stays done while approvals, orders and outcomes are only added. -/
theorem Ready.mono (h : Ready s stage)
    (hrows : ∀ r ∈ s.approvals, ∃ r' ∈ t.approvals, r'.id = r.id ∧ r'.agent = r.agent)
    (horders : ∀ id, s.hasOrder id = true → t.hasOrder id = true)
    (hrecorded : ∀ agent, ∀ o ∈ s.recorded agent, o ∈ t.recorded agent) : Ready t stage := by
  have hfiled : ∀ call, Filed s call → Filed t call := by
    rintro call ⟨r, hr, hid, hagent⟩
    obtain ⟨r', hr', hid', hagent'⟩ := hrows r hr
    exact ⟨r', hr', hid'.trans hid, hagent'.trans hagent⟩
  cases stage with
  | idle => trivial
  | selecting call order => exact ⟨hfiled call h.1, h.2⟩
  | inserting call order => exact ⟨hfiled call h.1, h.2⟩
  | reading call => exact ⟨hfiled call h.1, fun hd => horders _ (h.2 hd)⟩
  | saving call entry past => exact ⟨hfiled call h.1, fun hd => horders _ (h.2 hd)⟩
  | updating call => exact ⟨hrecorded _ _ h.1, hfiled call h.2⟩

theorem Sound.goto (h : Sound s) (p : ℕ) (hready : Ready s stage) : Sound (s.goto p stage) := by
  refine ⟨h.keyed, h.kinds, h.ordersKeyed, h.once, h.filed, h.approved, h.rejected, h.decided, ?_⟩
  intro q
  have hold : ∀ {st}, Ready s st → Ready (s.goto p stage) st := fun hst =>
    hst.mono (fun r hr => ⟨r, hr, rfl, rfl⟩) (fun _ ho => ho) fun _ _ ho => ho
  by_cases hq : q = p
  · have hself : (s.goto p stage).procs q = stage := hq ▸ Function.update_self ..
    rw [hself]
    exact hold hready
  · have hother : (s.goto p stage).procs q = s.procs q := Function.update_of_ne hq ..
    rw [hother]
    exact hold (h.ready q)

variable {call : Call} {r : Approval}

theorem Sound.agent_eq (h : Sound s) (hfiled : Filed s call) (hr : r ∈ s.approvals) (hid : r.id = call.row.id) :
    r.agent = call.row.agent := by
  obtain ⟨r', hr', hid', hagent⟩ := hfiled
  rw [h.keyed.eq_of_key hr hr' (hid.trans hid'.symm)]
  exact hagent

theorem Sound.setLadder (h : Sound s) (ladder : Ladder.State) : Sound { s with ladder := ladder } := by
  refine ⟨h.keyed, h.kinds, h.ordersKeyed, h.once, h.filed, h.approved, h.rejected, h.decided, ?_⟩
  intro p
  exact (h.ready p).mono (fun r hr => ⟨r, hr, rfl, rfl⟩) (fun _ ho => ho) fun _ _ ho => ho

/-- A new approval is filed. -/
theorem Sound.file (h : Sound s) (hkind : r.kind = "order") (hstatus : r.status = none)
    (hnew : ∀ r' ∈ s.approvals, r'.id ≠ r.id) : Sound { s with approvals := s.approvals ++ [r] } := by
  have hfresh : ∀ agent ok, (r.id, ok) ∉ s.recorded agent := by
    intro agent ok ho
    obtain ⟨r', hr', hid⟩ := h.filed agent _ ho
    exact hnew r' hr' hid
  refine ⟨h.keyed.insert hnew, ?_, h.ordersKeyed, h.once, ?_, ?_, ?_, ?_, ?_⟩
  · intro r' hr'
    rcases List.mem_append.1 hr' with hr' | hr'
    · exact h.kinds r' hr'
    · obtain rfl := List.mem_singleton.1 hr'
      exact hkind
  · intro agent o ho
    obtain ⟨r', hr', hid⟩ := h.filed agent o ho
    exact ⟨r', List.mem_append_left _ hr', hid⟩
  · intro r' hr' ho
    rcases List.mem_append.1 hr' with hr' | hr'
    · exact h.approved r' hr' ho
    · obtain rfl := List.mem_singleton.1 hr'
      exact absurd ho (hfresh _ _)
  · intro r' hr' ho
    rcases List.mem_append.1 hr' with hr' | hr'
    · exact h.rejected r' hr' ho
    · obtain rfl := List.mem_singleton.1 hr'
      exact absurd ho (hfresh _ _)
  · intro r' hr' d hd
    rcases List.mem_append.1 hr' with hr' | hr'
    · exact h.decided r' hr' d hd
    · obtain rfl := List.mem_singleton.1 hr'
      rw [hstatus] at hd
      cases hd
  · intro p
    exact (h.ready p).mono (fun r' hr' => ⟨r', List.mem_append_left _ hr', rfl, rfl⟩)
      (fun _ ho => ho) fun _ _ ho => ho

/-- The order of an approval is inserted, and no rejection of it is recorded. -/
theorem Sound.place (h : Sound s) {order : Order} (hfiled : Filed s call)
    (hid : order.id = orderId call.row.id) (hnew : ∀ o ∈ s.orders, o.id ≠ order.id)
    (hclean : (call.row.id, false) ∉ s.recorded call.row.agent) :
    Sound { s with orders := s.orders ++ [order] } := by
  have hmore : ∀ id, s.hasOrder id = true → State.hasOrder { s with orders := s.orders ++ [order] } id = true := by
    intro id hid
    obtain ⟨o, ho, hoid⟩ := hasOrder_iff.1 hid
    exact hasOrder_iff.2 ⟨o, List.mem_append_left _ ho, hoid⟩
  refine ⟨h.keyed, h.kinds, h.ordersKeyed.insert hnew, h.once, h.filed, ?_, ?_, h.decided, ?_⟩
  · intro r hr ho
    exact hmore r.id (h.approved r hr ho)
  · intro r hr ho
    have hnone := h.rejected r hr ho
    have hother : r.id ≠ call.row.id := by
      intro heq
      rw [heq, h.agent_eq hfiled hr heq] at ho
      exact hclean ho
    rw [Bool.eq_false_iff] at hnone ⊢
    intro hsome
    obtain ⟨o, ho, hoid⟩ := hasOrder_iff.1 hsome
    rcases List.mem_append.1 ho with ho | ho
    · exact hnone (hasOrder_iff.2 ⟨o, ho, hoid⟩)
    · obtain rfl := List.mem_singleton.1 ho
      exact hother (orderId_inj (hoid.symm.trans hid))
  · intro p
    exact (h.ready p).mono (fun r hr => ⟨r, hr, rfl, rfl⟩) hmore fun _ _ ho => ho

variable {entry : Entry}

/-- An outcome is saved, the first one of its approval and over the row that was read. -/
theorem Sound.save (h : Sound s) (hfiled : Filed s call)
    (happroved : call.decision = .approved → s.hasOrder call.row.id = true)
    (hrejected : call.decision = .rejected → s.hasOrder call.row.id = false)
    (hfirst : call.row.id ∉ (s.recorded call.row.agent).map Prod.fst) :
    Sound (s.saveOutcome call entry (s.recorded call.row.agent)) ∧
      (call.row.id, call.decision.ok) ∈
        (s.saveOutcome call entry (s.recorded call.row.agent)).recorded call.row.agent := by
  have hrec : ∀ agent, ∀ o, o ∈ (s.saveOutcome call entry (s.recorded call.row.agent)).recorded agent ↔
      o ∈ s.recorded agent ∨ agent = call.row.agent ∧ o = (call.row.id, call.decision.ok) := by
    intro agent o
    by_cases hagent : agent = call.row.agent
    · subst hagent
      simp [State.saveOutcome]
    · simp [State.saveOutcome, hagent]
  refine ⟨⟨h.keyed, h.kinds, h.ordersKeyed, ?_, ?_, ?_, ?_, ?_, ?_⟩, (hrec _ _).2 (.inr ⟨rfl, rfl⟩)⟩
  · intro agent
    by_cases hagent : agent = call.row.agent
    · subst hagent
      have hlist : (s.saveOutcome call entry (s.recorded call.row.agent)).recorded call.row.agent =
          s.recorded call.row.agent ++ [(call.row.id, call.decision.ok)] := Function.update_self ..
      rw [hlist, List.map_append]
      exact List.nodup_append'.2 ⟨h.once _, List.nodup_singleton _,
        List.disjoint_singleton.2 hfirst⟩
    · have hlist : (s.saveOutcome call entry (s.recorded call.row.agent)).recorded agent =
          s.recorded agent := Function.update_of_ne hagent ..
      rw [hlist]
      exact h.once agent
  · intro agent o ho
    rcases (hrec agent o).1 ho with ho | ⟨-, rfl⟩
    · exact h.filed agent o ho
    · obtain ⟨r, hr, hid, -⟩ := hfiled
      exact ⟨r, hr, hid⟩
  · intro r hr ho
    rcases (hrec _ _).1 ho with ho | ⟨-, hnew⟩
    · exact h.approved r hr ho
    · obtain ⟨hid, hok⟩ := Prod.mk.inj hnew
      show s.hasOrder r.id = true
      rw [hid]
      refine happroved ?_
      cases hd : call.decision with
      | approved => rfl
      | rejected =>
        rw [hd] at hok
        cases hok
  · intro r hr ho
    rcases (hrec _ _).1 ho with ho | ⟨-, hnew⟩
    · exact h.rejected r hr ho
    · obtain ⟨hid, hok⟩ := Prod.mk.inj hnew
      show s.hasOrder r.id = false
      rw [hid]
      refine hrejected ?_
      cases hd : call.decision with
      | rejected => rfl
      | approved =>
        rw [hd] at hok
        cases hok
  · intro r hr d hd
    exact (hrec _ _).2 (.inl (h.decided r hr d hd))
  · intro p
    exact (h.ready p).mono (fun r hr => ⟨r, hr, rfl, rfl⟩) (fun _ ho => ho)
      fun agent o ho => (hrec agent o).2 (.inl ho)

/-- An approval whose outcome is recorded is marked with it. -/
theorem Sound.mark (h : Sound s) (now : ℤ)
    (hdone : (call.row.id, call.decision.ok) ∈ s.recorded call.row.agent) (hfiled : Filed s call) :
    Sound { s with approvals := update (fun r => r.id = call.row.id) (call.mark now) s.approvals } := by
  have hrow : ∀ r' ∈ update (fun r => r.id = call.row.id) (call.mark now) s.approvals,
      ∃ r ∈ s.approvals, r'.id = r.id ∧ r'.agent = r.agent ∧ r'.kind = r.kind ∧
        (r'.status = r.status ∨ r.id = call.row.id ∧ r'.status = some call.decision) := by
    intro r' hr'
    obtain ⟨r, hr, rfl⟩ := mem_update.1 hr'
    refine ⟨r, hr, ?_⟩
    by_cases hid : r.id = call.row.id
    · simp [hid, Call.mark]
    · simp [hid]
  refine ⟨h.keyed.update (fun _ => rfl), ?_, h.ordersKeyed, h.once, ?_, ?_, ?_, ?_, ?_⟩
  · intro r' hr'
    obtain ⟨r, hr, -, -, hkind, -⟩ := hrow r' hr'
    exact hkind.trans (h.kinds r hr)
  · intro agent o ho
    obtain ⟨r, hr, hid⟩ := h.filed agent o ho
    refine ⟨_, mem_update.2 ⟨r, hr, rfl⟩, ?_⟩
    split <;> exact hid
  · intro r' hr' ho
    obtain ⟨r, hr, hid, hagent, -⟩ := hrow r' hr'
    rw [hid, hagent] at ho
    rw [hid]
    exact h.approved r hr ho
  · intro r' hr' ho
    obtain ⟨r, hr, hid, hagent, -⟩ := hrow r' hr'
    rw [hid, hagent] at ho
    rw [hid]
    exact h.rejected r hr ho
  · intro r' hr' d hd
    obtain ⟨r, hr, hid, hagent, -, hstatus | ⟨hcall, hstatus⟩⟩ := hrow r' hr'
    · rw [hid, hagent]
      exact h.decided r hr d (hstatus.symm.trans hd)
    · obtain rfl := Option.some.inj (hstatus.symm.trans hd)
      rw [hid, hagent, hcall, h.agent_eq hfiled hr hcall]
      exact hdone
  · intro p
    refine (h.ready p).mono (fun r hr => ?_) (fun _ ho => ho) fun _ _ ho => ho
    refine ⟨_, mem_update.2 ⟨r, hr, rfl⟩, ?_⟩
    split <;> exact ⟨rfl, rfl⟩

/-! ### One label -/

variable {now : ℤ}

/-- A `decide` that passes its checks has done nothing yet. -/
theorem Sound.check (h : Sound s) {decision reason actor : String} {catalog : Option Catalog}
    (hcheck : s.check lib id decision reason actor catalog now = .ok stage) : Ready s stage := by
  simp only [State.check, bind_eq_ok, need_eq_ok, exists_unit, ensure_eq_ok] at hcheck
  obtain ⟨d, -, row, hrow, -, payload, -, hcheck⟩ := hcheck
  have hmem : row ∈ s.approvals := mem_of_get hrow
  rw [if_pos (h.kinds row hmem)] at hcheck
  simp only [State.prepare, bind_eq_ok, need_eq_ok, exists_unit, ensure_eq_ok] at hcheck
  obtain ⟨catalog, -, -, hcheck⟩ := hcheck
  have hfiled : Filed s ⟨row, d, reason, actor⟩ := ⟨row, hmem, rfl, rfl⟩
  cases hvalid : validateOrderPayload lib payload catalog with
  | error e =>
    rw [hvalid] at hcheck
    cases hcheck
  | ok u =>
    rw [hvalid] at hcheck
    simp only [bind_eq_ok, exists_unit] at hcheck
    obtain ⟨-, hcheck⟩ := hcheck
    cases d with
    | rejected =>
      obtain rfl := pure_eq_ok.1 hcheck
      exact ⟨hfiled, fun hd => by cases hd⟩
    | approved =>
      dsimp only at hcheck
      split at hcheck
      · cases hcheck
      · obtain rfl := pure_eq_ok.1 hcheck
        exact ⟨hfiled, rfl, rfl⟩

theorem Sound.work (h : Sound s) {p : ℕ} (hclean : clean s (.work p now) = true) : Sound (s.work p now) := by
  have hready := h.ready p
  change s.uncrossed (s.procs p) = true at hclean
  unfold State.work
  cases hp : s.procs p with
  | idle => exact h
  | selecting call order =>
    rw [hp] at hready
    obtain ⟨hfiled, happroved, hid⟩ := hready
    dsimp only
    split
    · rename_i hfound
      rw [hid] at hfound
      exact h.goto p ⟨hfiled, fun _ => hfound⟩
    · exact h.goto p ⟨hfiled, happroved, hid⟩
  | inserting call order =>
    rw [hp] at hready hclean
    obtain ⟨hfiled, happroved, hid⟩ := hready
    dsimp only
    split
    · exact h.goto p trivial
    · rename_i hnone
      have hnew : ∀ o ∈ s.orders, o.id ≠ order.id := by simpa using hnone
      have hclear : (call.row.id, false) ∉ s.recorded call.row.agent := by
        simpa [State.uncrossed] using hclean
      refine (h.place hfiled hid hnew hclear).goto p ⟨hfiled, fun _ => ?_⟩
      exact hasOrder_iff.2 ⟨order, List.mem_append_right _ List.mem_cons_self, hid⟩
  | reading call =>
    rw [hp] at hready
    exact h.goto p hready
  | saving call entry past =>
    rw [hp] at hready hclean
    obtain ⟨hfiled, happroved⟩ := hready
    simp only [State.uncrossed, Bool.and_eq_true, beq_iff_eq, Bool.not_eq_true', Bool.or_eq_true]
      at hclean
    obtain ⟨⟨rfl, hfirst⟩, hplaced⟩ := hclean
    have hrejected : call.decision = .rejected → s.hasOrder call.row.id = false := by
      intro hd
      rw [hd] at hplaced
      exact hplaced.resolve_left Bool.false_ne_true
    obtain ⟨hsaved, hdone⟩ : Sound (s.saveOutcome call entry _) ∧ _ := h.save hfiled happroved hrejected (by simpa using hfirst)
    exact hsaved.goto p ⟨hdone, hfiled⟩
  | updating call =>
    rw [hp] at hready
    obtain ⟨hdone, hfiled⟩ := hready
    exact (h.mark now hdone hfiled).goto p trivial

theorem Sound.step (h : Sound s) (hstep : Step lib s l t) (hclean : clean s l = true) : Sound t := by
  obtain rfl := hstep
  cases l with
  | submit tenant kind agent summary payload channel suffix now =>
    show Sound (s.submit lib tenant kind agent summary payload channel suffix now)
    unfold State.submit
    dsimp only
    split
    · exact h
    · rename_i hnew
      rw [Bool.not_eq_true, Bool.or_eq_false_iff] at hnew
      exact h.file (by simpa [clean] using hclean) rfl (by simpa using hnew.2)
  | decide p id decision reason actor catalog now =>
    show Sound (s.decide lib p id decision reason actor catalog now)
    unfold State.decide
    split
    · split
      next hcheck => exact h.goto p (h.check hcheck)
      · exact h
    · exact h
  | work p now => exact h.work hclean
  | fail p => exact h.goto p trivial
  | setLevel agent text => exact h.setLadder _

/-! ### Every run -/

theorem outcomes_eq {recorded : List (String × Bool)} (h : (recorded.map Prod.fst).Nodup) {ok : Bool}
    (hmem : (id, ok) ∈ recorded) : (recorded.filter fun o => o.1 = id).map Prod.snd = [ok] := by
  have hkeyed : Keyed Prod.fst recorded := h
  rw [hkeyed.filter_eq hmem fun o _ => decide_eq_true_iff]
  rfl

theorem Sound.decidedOnce (h : Sound s) (hr : r ∈ s.approvals) : DecidedOnce s r where
  orders := h.ordersKeyed.countP_le fun o _ ho => of_decide_eq_true ho
  outcomes := by
    unfold State.outcomesOf
    cases hlist : (s.recorded r.agent).filter fun o => o.1 = r.id with
    | nil => simp
    | cons o rest =>
      have ho := List.mem_filter.1 (hlist ▸ List.mem_cons_self : o ∈ (s.recorded r.agent).filter _)
      have hmem : (r.id, o.2) ∈ s.recorded r.agent := by
        rw [← of_decide_eq_true ho.2]
        exact ho.1
      have hone := outcomes_eq (h.once r.agent) hmem
      rw [hlist] at hone
      rw [hone]
      rfl
  recorded d hd := outcomes_eq (h.once r.agent) (h.decided r hr d hd)
  placed d hd := by
    have hdone := h.decided r hr d hd
    cases d with
    | approved => simpa using h.approved r hr hdone
    | rejected =>
      rw [h.rejected r hr hdone]
      simp

theorem ok_inj {d d' : Decision} (h : d.ok = d'.ok) : d = d' := by
  cases d <;> cases d' <;> first | rfl | cases h

/-- An approval keeps its decision. -/
theorem Sound.status_kept (h : Sound s) (hstep : Step lib s l t) (hr : r ∈ s.approvals) {d : Decision}
    (hd : r.status = some d) : ∃ r' ∈ t.approvals, r'.id = r.id ∧ r'.status = some d := by
  obtain rfl := hstep
  cases l with
  | submit tenant kind agent summary payload channel suffix now =>
    show ∃ r' ∈ (s.submit lib tenant kind agent summary payload channel suffix now).approvals, _
    unfold State.submit
    dsimp only
    split
    · exact ⟨r, hr, rfl, hd⟩
    · exact ⟨r, List.mem_append_left _ hr, rfl, hd⟩
  | decide p id decision reason actor catalog now =>
    show ∃ r' ∈ (s.decide lib p id decision reason actor catalog now).approvals, _
    unfold State.decide
    split
    · split <;> exact ⟨r, hr, rfl, hd⟩
    · exact ⟨r, hr, rfl, hd⟩
  | work p now =>
    have hready := h.ready p
    show ∃ r' ∈ (s.work p now).approvals, _
    unfold State.work
    cases hp : s.procs p with
    | updating call =>
      rw [hp] at hready
      obtain ⟨hdone, hfiled⟩ := hready
      refine ⟨_, mem_update.2 ⟨r, hr, rfl⟩, ?_⟩
      by_cases hid : r.id = call.row.id
      · have hsame : d = call.decision := by
          have hpast := h.decided r hr d hd
          rw [hid, h.agent_eq hfiled hr hid] at hpast
          exact ok_inj (congrArg Prod.snd (List.inj_on_of_nodup_map (h.once _) hpast hdone rfl))
        simp [hid, Call.mark, hsame]
      · simp [hid, hd]
    | selecting | inserting =>
      dsimp only
      split <;> exact ⟨r, hr, rfl, hd⟩
    | _ => exact ⟨r, hr, rfl, hd⟩
  | fail p => exact ⟨r, hr, rfl, hd⟩
  | setLevel agent text => exact ⟨r, hr, rfl, hd⟩

/-- What the ladder keeps for an agent, and what a `record` has read of it, are the last of the outcomes the
row has taken in. -/
structure Traced (s : State) : Prop where
  rows : ∀ agent, (s.ladder.entry agent).outcomes <:+ (s.recorded agent).map Prod.snd
  read : ∀ p call entry past, s.procs p = .saving call entry past →
    entry.outcomes <:+ past.map Prod.snd

theorem Traced.goto (h : Traced s) (p : ℕ) (hstage : ∀ call entry past, stage = .saving call entry past →
      entry.outcomes <:+ past.map Prod.snd) : Traced (s.goto p stage) := by
  refine ⟨h.rows, ?_⟩
  intro q call entry past hq
  by_cases hqp : q = p
  · have hself : (s.goto p stage).procs q = stage := hqp ▸ Function.update_self ..
    exact hstage call entry past (hself.symm.trans hq)
  · have hother : (s.goto p stage).procs q = s.procs q := Function.update_of_ne hqp ..
    exact h.read q call entry past (hother.symm.trans hq)

theorem weigh_suffix {past : List Bool} (ok : Bool) (h : entry.outcomes <:+ past) :
    (LadderStore.weigh {} entry ok).outcomes <:+ past ++ [ok] := by
  have hweighed := weigh_weighed {} entry ok
  generalize LadderStore.weigh {} entry ok = entry' at hweighed
  cases hweighed with
  | kept => exact retained_suffix {} ok h
  | promoted | demoted => exact List.nil_suffix

theorem Traced.saveOutcome (h : Traced s) {past : List (String × Bool)}
    (hread : entry.outcomes <:+ past.map Prod.snd) : Traced (s.saveOutcome call entry past) := by
  refine ⟨?_, h.read⟩
  intro agent
  by_cases hagent : agent = call.row.agent
  · subst hagent
    simpa [State.saveOutcome] using weigh_suffix call.decision.ok hread
  · have hrow : (s.saveOutcome call entry past).ladder.entry agent = s.ladder.entry agent :=
      Ladder.State.entry_save_of_ne hagent
    have hlist : (s.saveOutcome call entry past).recorded agent = s.recorded agent :=
      Function.update_of_ne hagent ..
    rw [hrow, hlist]
    exact h.rows agent

theorem Traced.setLevel (h : Traced s) (agent text : String) :
    Traced { s with ladder := commit s.ladder (s.ladder.setLevel agent text) } := by
  refine ⟨?_, h.read⟩
  intro agent'
  have hchange : Change {} agent' _ (.setLevel agent text) _ :=
    Ladder.Step.change (rfl : Ladder.Step {} s.ladder (.setLevel agent text) _) agent'
  have hrow := h.rows agent'
  change Change {} agent' _ _ ((commit s.ladder (s.ladder.setLevel agent text)).entry agent') at hchange
  show ((commit s.ladder (s.ladder.setLevel agent text)).entry agent').outcomes <:+ _
  generalize (commit s.ladder (s.ladder.setLevel agent text)).entry agent' = entry at hchange ⊢
  cases hchange with
  | same => exact hrow
  | set => exact List.nil_suffix

theorem not_saving_of_check {decision reason actor : String} {catalog : Option Catalog}
    (hcheck : s.check lib id decision reason actor catalog now = .ok stage) (call : Call) (entry : Entry)
    (past : List (String × Bool)) : stage ≠ .saving call entry past := by
  rintro rfl
  simp only [State.check, bind_eq_ok, need_eq_ok, exists_unit, ensure_eq_ok] at hcheck
  obtain ⟨d, -, row, -, -, payload, -, hcheck⟩ := hcheck
  split at hcheck
  · simp only [State.prepare, bind_eq_ok, need_eq_ok, exists_unit, ensure_eq_ok] at hcheck
    obtain ⟨catalog, -, -, hcheck⟩ := hcheck
    split at hcheck
    · cases hcheck
    · simp only [bind_eq_ok, exists_unit] at hcheck
      obtain ⟨-, hcheck⟩ := hcheck
      split at hcheck
      · cases hcheck
      · split at hcheck <;> cases hcheck
  · cases hcheck

theorem Traced.step (h : Traced s) (hstep : Step lib s l t) : Traced t := by
  obtain rfl := hstep
  cases l with
  | submit tenant kind agent summary payload channel suffix now =>
    show Traced (s.submit lib tenant kind agent summary payload channel suffix now)
    unfold State.submit
    dsimp only
    split
    · exact h
    · exact ⟨h.rows, h.read⟩
  | decide p id decision reason actor catalog now =>
    show Traced (s.decide lib p id decision reason actor catalog now)
    unfold State.decide
    split
    · split
      next hcheck =>
        exact h.goto p fun call entry past hst => absurd hst (not_saving_of_check hcheck call entry past)
      · exact h
    · exact h
  | work p now =>
    show Traced (s.work p now)
    unfold State.work
    cases hp : s.procs p with
    | idle => exact h
    | selecting call order =>
      dsimp only
      split
      · exact h.goto p fun _ _ _ hst => by cases hst
      · exact h.goto p fun _ _ _ hst => by cases hst
    | inserting call order =>
      have hplaced : Traced { s with orders := s.orders ++ [order] } := ⟨h.rows, h.read⟩
      dsimp only
      split
      · exact h.goto p fun _ _ _ hst => by cases hst
      · exact hplaced.goto p fun _ _ _ hst => by cases hst
    | reading call =>
      refine h.goto p fun call' entry past hst => ?_
      cases hst
      exact h.rows call.row.agent
    | saving call entry past =>
      exact (h.saveOutcome (h.read p call entry past hp)).goto p fun _ _ _ hst => by cases hst
    | updating call =>
      have hmarked : Traced { s with
          approvals := update (fun r => r.id = call.row.id) (call.mark now) s.approvals } :=
        ⟨h.rows, h.read⟩
      exact hmarked.goto p fun _ _ _ hst => by cases hst
  | fail p => exact h.goto p fun _ _ _ hst => by cases hst
  | setLevel agent text => exact h.setLevel agent text

/-- Every approval has the effects of one decision at most, and a decided one keeps its decision. -/
def DecidesOnce (τs : List (Transition State Label)) (s : State) : Prop :=
  (∀ r ∈ s.approvals, DecidedOnce s r) ∧
    ∀ τ ∈ τs, ∀ r ∈ τ.src.approvals, ∀ d, r.status = some d →
      ∃ r' ∈ s.approvals, r'.id = r.id ∧ r'.status = some d

/-- **Approvals are decided once while no `decide` crosses another one.** In every run, with any number of
processes, whose statements are all clean: an approval never changes its decision, has at most one order row
and one ladder outcome, and once it is decided exactly the outcome and, where it is approved, the order row
of its decision. What the ladder keeps of an agent are the last of these outcomes. -/
theorem decided_once (h : Run (Step lib) {} τs s) (hclean : ∀ τ ∈ τs, clean τ.src τ.label = true) :
    DecidesOnce τs s ∧
      ∀ agent, (s.ladder.entry agent).outcomes <:+ (s.recorded agent).map Prod.snd := by
  have hguarded : Run (guarded (fun s l => clean s l = true) (Step lib)) {} τs s := h.guard hclean
  have hsound : ∀ u l v, Sound u → guarded (fun s l => clean s l = true) (Step lib) u l v → Sound v :=
    fun u l v hu huv => hu.step huv.1 huv.2
  have htraced : Traced s := by
    refine h.invariant ⟨fun _ => List.suffix_rfl, fun _ _ _ _ hp => by cases hp⟩ ?_
    exact fun u l v hu huv => hu.step huv
  refine ⟨⟨fun r hr => (hguarded.invariant sound_empty hsound).decidedOnce hr, ?_⟩, htraced.rows⟩
  refine hguarded.past (q := fun τ u => ∀ r ∈ τ.src.approvals, ∀ d, r.status = some d →
    ∃ r' ∈ u.approvals, r'.id = r.id ∧ r'.status = some d) sound_empty hsound ?_ ?_
  · intro τ u l v hu huv hpast r hr d hd
    obtain ⟨r', hr', hid, hd'⟩ := hpast r hr d hd
    obtain ⟨r'', hr'', hid', hd''⟩ := hu.status_kept huv.1 hr' hd'
    exact ⟨r'', hr'', hid'.trans hid, hd''⟩
  · intro u l v hu huv r hr d hd
    exact hu.status_kept huv.1 hr hd

/-! ### Two runs -/

def samplePayload : Json :=
  .obj [("id", .str ""), ("tenant", .str "acme"), ("update_id", .int 7), ("customer", .str "mijoz"),
    ("phone", .str "+998901234567"), ("product_id", .str "P1"), ("qty", .int 2), ("branch_id", .str "b1"),
    ("note", .str ""), ("status", .str "new"), ("created_at", .int 100), ("channel", .str "web")]

/-- The text of the payload. -/
def sampleText : String :=
  "\x7b\"id\": \"\", \"tenant\": \"acme\", \"update_id\": 7, \"customer\": \"mijoz\", " ++
    "\"phone\": \"+998901234567\", \"product_id\": \"P1\", \"qty\": 2, \"branch_id\": \"b1\", " ++
    "\"note\": \"\", \"status\": \"new\", \"created_at\": 100, \"channel\": \"web\"\x7d"

def sampleLibrary : Library where
  loads text := if text = sampleText then some samplePayload else none
  dumps payload := if payload.same samplePayload then sampleText else payload.encode
  str
    | .str text => text
    | json => json.encode
  upper := String.toUpper
  lower := String.toLower
  isDigit := Char.isDigit
  order _ _ := .ok ⟨"", "acme", 7, "mijoz", "+998901234567", "P1", 2, "b1", "", "new", 100⟩

def sampleCatalog : Catalog := ⟨["P1"], ["b1"]⟩

/-- An order waits for its decision; a first `decide` approves it and ends after the order is inserted. -/
def brokenOff : List Label :=
  [.submit "acme" "order" "acme:sales.order" "P1x2 b1" samplePayload "web" "0123456789ab" 100,
    .decide 0 "acme-0123456789ab" "approved" "" "dana" (some sampleCatalog) 200, .work 0 200, .work 0 200,
    .fail 0]

/-- The next `decide`, in another process. -/
def retried (decision : String) : List Label :=
  .decide 1 "acme-0123456789ab" decision "" "dana" (some sampleCatalog) 300 ::
    List.replicate 4 (.work 1 300)

def sampleState (decision : String) : State :=
  (brokenOff ++ retried decision).foldl (State.after sampleLibrary) {}

theorem sample_run (decision : String) :
    Run (Step sampleLibrary) {} (trace (State.after sampleLibrary) {} (brokenOff ++ retried decision))
      (sampleState decision) :=
  Run.nil.calls (brokenOff ++ retried decision)

/-- The retry approves, too. -/
theorem decided_once_sample :
    (sampleState "approved").approvals.map Approval.status = [some .approved] ∧
      (sampleState "approved").orders.map Order.id = ["approval-acme-0123456789ab"] ∧
      ∀ r ∈ (sampleState "approved").approvals, DecidedOnce (sampleState "approved") r := by
  have hclean : ∀ τ ∈ trace (State.after sampleLibrary) {} (brokenOff ++ retried "approved"),
      clean τ.src τ.label = true := by
    rw [← List.all_eq_true]
    decide +kernel
  exact ⟨by decide +kernel, by decide +kernel, (decided_once (sample_run "approved") hclean).1.1⟩

/-- The retry rejects: the approval is rejected, and its order has a row. -/
theorem not_decided_once :
    ¬ ∀ (lib : Library) (τs : List (Transition State Label)) (s : State),
      Run (Step lib) {} τs s → DecidesOnce τs s := by
  intro h
  have honce := (h _ _ _ (sample_run "rejected")).1
  have hrows : (sampleState "rejected").approvals.all (fun r =>
      decide (r.status = some .rejected) && (sampleState "rejected").hasOrder r.id) = true := by
    decide +kernel
  obtain ⟨r, hr⟩ : ∃ r, r ∈ (sampleState "rejected").approvals := by
    refine List.exists_mem_of_ne_nil _ fun hnil => ?_
    have hlength : (sampleState "rejected").approvals.length = 1 := by decide +kernel
    rw [hnil] at hlength
    cases hlength
  have hrow := List.all_eq_true.1 hrows r hr
  rw [Bool.and_eq_true, decide_eq_true_eq] at hrow
  have hplaced := ((honce r hr).placed .rejected hrow.1).1 hrow.2
  cases hplaced

end AgentPlatform.Legacy
