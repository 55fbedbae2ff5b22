import AgentPlatform.Agent.Requests
import AgentPlatform.Conversation.OneLive

/-!
# The run of a turn that is left to the operator

`_open` creates the run of a turn in one transaction and links the turn to it in another. `_leave_to_operator`
promises to close a turn "with no run", and looks at the turn alone. Between the two transactions the run is
only in the worker's hands: a worker that dies there, or that finds the tenant's ceiling reached, leaves an
active run behind, and a takeover then retires the turn beside it (`run_beside_operator`).

## The condition

`Attended` asks of every step of a run that a created run is looked after until it is linked or over: its
worker neither dies nor meets the ceiling, nobody else retires or opens the turn meanwhile, and a run is only
created for a turn that is still queued. Under it a live run is always linked to an open turn, or about to be
linked to a queued one (`Attached`), and so never beside a turn of the operator's (`operator_turn_quiet`).
-/

namespace AgentPlatform.Conversation

open Outcome Engine Table Runs

/-- The key of a turn. -/
abbrev TurnKey := String × String × String

/-- The run a label creates for a turn. -/
def createdBy (P : Platform) (s : State) : Label → Option (TurnKey × Uuid)
  | .work w env _ =>
    match s.workers w with
    | .creating u prompt maxSteps maxSeconds =>
      match Agent.create P env s.agent u.tenant (runKey P u) u.agent prompt u.sender maxSteps maxSeconds
          u.channel with
      | .ok (_, run) =>
        if s.agent.runs.any fun r => decide (r.id = run) then none else some (u.key, run)
      | .error _ => none
    | _ => none
  | _ => none

/-- The runs that were created for turns. -/
def created (P : Platform) (τs : List (Transition State Label)) : List (TurnKey × Uuid) :=
  τs.filterMap fun τ => createdBy P τ.src τ.label

/-- A worker is about to link the turn with this key to a live run. -/
def Tended (s : State) (k : TurnKey) : Prop :=
  ∃ w u run error, s.workers w = .ready u (some run) error ∧ u.key = k ∧ Agent.Live s.agent run

/-- A created run is looked after until it is linked or over. -/
def Attended (P : Platform) (s : State) : Label → Prop
  | .crash w => ∀ u run error, s.workers w = .ready u (some run) error → ¬ Agent.Live s.agent run
  | .work w _ _ =>
    match s.workers w with
    | .creating u _ _ _ =>
      (∃ x ∈ s.turns, x.key = u.key ∧ x.status = .queued) ∨
        ∃ run, Agent.Requested s.agent run (u.tenant, runKey P u)
    | .ready u (some run) _ => Agent.Live s.agent run → inFlight s.turns u.tenant < maxOpenTurns
    | .ready u none _ | .leaving u => ¬ Tended s u.key
    | _ => True
  | _ => True

/-- A live run of a turn is linked to it, or about to be. -/
def Attached (s : State) (k : TurnKey) (run : Uuid) : Prop :=
  ∃ x ∈ s.turns, x.key = k ∧
    (x.status = .queued ∧ (∃ w u, s.workers w = .ready u (some run) "" ∧ u.key = k) ∨
      x.status = .opened ∧ x.run = some run ∧ x.error = "")

/-- The turn is not waiting any more, and if it is open still, its run is over. -/
def Over (s : State) (u : TurnRow) : Prop :=
  (∃ x ∈ s.turns, x.key = u.key) ∧ ∀ x ∈ s.turns, x.key = u.key → x.status ≠ .queued ∧
    (x.status = .opened → x.error = "" → ∀ run, x.run = some run → ¬ Agent.Live s.agent run)

/-- The invariant of the created runs `c`. -/
structure Linked (P : Platform) (c : List (TurnKey × Uuid)) (s : State) : Prop where
  budgeted : Agent.Budgeted s.agent
  requests : Keyed Agent.RunRow.request s.agent.runs
  keyed : Keyed TurnRow.key s.turns
  runs : ∀ x ∈ s.turns, ∀ run, x.run = some run → ∃ key, Agent.Requested s.agent run (x.tenant, key)
  ready : ∀ w u run error, s.workers w = .ready u (some run) error →
    error = "" ∧ Agent.Requested s.agent run (u.tenant, runKey P u)
  settled : ∀ w u reply reason, s.workers w = .settled u reply reason → Over s u
  requested : ∀ k run, (k, run) ∈ c → ∃ u : TurnRow, u.key = k ∧
    Agent.Requested s.agent run (u.tenant, runKey P u)
  attached : ∀ k run, (k, run) ∈ c → Agent.Live s.agent run → Attached s k run

theorem linked_empty (P : Platform) : Linked P [] {} where
  budgeted := Agent.budgeted_empty
  requests := keyed_nil _
  keyed := keyed_nil _
  runs _ hx := absurd hx List.not_mem_nil
  ready _ _ _ _ hw := by cases hw
  settled _ _ _ _ hw := by cases hw
  requested _ _ h := absurd h List.not_mem_nil
  attached _ _ h := absurd h List.not_mem_nil

/-! ### What a worker comes to hold -/

section Stages

variable {P : Platform} {s : State} {w : ℕ} {env : Env} {reads : Reads} {u : TurnRow}

/-- What a worker comes to hold: the run of its turn, or the reply of a turn that is open and whose run is over. -/
def Stage.Held (P : Platform) (s t : State) : Stage → Prop
  | .ready u (some run) error => error = "" ∧ Agent.Requested t.agent run (u.tenant, runKey P u)
  | .settled u _ _ => u ∈ s.turns ∧ u.status = .opened ∧ ∃ a, answer? s u = some a
  | _ => True

theorem goto_self (s : State) (w : ℕ) (stage : Stage) : (s.goto w stage).workers w = stage :=
  Function.update_self ..

theorem work_held : ((s.work P w env reads).workers w).Held P s (s.work P w env reads) := by
  cases hw : s.workers w with
  | idle =>
    simp only [State.work, hw]
    trivial
  | closing tenant =>
    simp only [State.work, hw, State.lookClose]
    split
    · rw [goto_self]
      trivial
    · split
      · rw [hw]
        trivial
      · split
        all_goals
          rw [goto_self]
          trivial
  | preparing v =>
    simp only [State.work, hw, State.prepare]
    split
    · rw [goto_self]
      trivial
    · split
      · rw [goto_self]
        trivial
      · split
        · rw [goto_self]
          trivial
        · split
          · rename_i r hfound
            rw [goto_self]
            have hkey := List.find?_some hfound
            simp only [Bool.and_eq_true, decide_eq_true_eq] at hkey
            exact ⟨rfl, r, List.mem_of_find?_eq_some hfound, rfl, Prod.ext hkey.1 hkey.2⟩
          · rw [goto_self]
            trivial
  | creating v prompt maxSteps maxSeconds =>
    simp only [State.work, hw, State.create]
    split
    · rename_i agent run hcreate
      rw [goto_self]
      exact ⟨rfl, Agent.create_requested hcreate⟩
    · split
      all_goals
        rw [goto_self]
        trivial
  | settling tenant =>
    simp only [State.work, hw, State.lookSettle]
    split
    · rw [goto_self]
      trivial
    · split
      · rw [goto_self]
        trivial
      · rename_i v answer reason hfirst
        split
        · rw [goto_self]
          obtain ⟨v, hv, hsome⟩ := List.exists_of_findSome?_eq_some hfirst
          obtain ⟨a, ha, heq⟩ := Option.map_eq_some_iff.1 hsome
          obtain rfl := (Prod.mk.inj heq).1
          obtain ⟨hmem, hopen⟩ := mem_sortedTurns.1 (List.mem_of_mem_take hv)
          simp only [Bool.and_eq_true, decide_eq_true_eq] at hopen
          exact ⟨hmem, hopen.2, a, ha⟩
        · rw [goto_self]
          trivial
  | _ =>
    simp only [State.work, hw, State.close, State.finish, State.lookDeliver, State.check, State.deliver,
      State.lookup, State.note, State.settle, State.lookOpen, State.leave, State.markOpen]
    repeat' split
    all_goals
      rw [goto_self]
      trivial

/-- An open turn with an answer has no live run. -/
theorem over_of_answer {c : List (TurnKey × Uuid)} (h : Linked P c s) (hu : u ∈ s.turns)
    (hopen : u.status = .opened) {a : Option String × String} (ha : answer? s u = some a) : Over s u := by
  refine ⟨⟨u, hu, rfl⟩, fun x hx hkey => ?_⟩
  obtain rfl := h.keyed.eq_of_key hx hu hkey
  refine ⟨by rw [hopen]; simp, fun _ herror run hrun hlive => ?_⟩
  obtain ⟨key, row, hrow, hid, hrequest⟩ := h.runs x hx run hrun
  have htenant : row.tenant = x.tenant := (Prod.mk.inj hrequest).1
  have hfound : s.agent.row? x.tenant run = some row := by
    cases hget : s.agent.row? x.tenant run with
    | none =>
      have hnone := List.find?_eq_none.1 hget row hrow
      simp [htenant, hid] at hnone
    | some row' =>
      obtain ⟨hrow', -, hid'⟩ := Agent.row?_eq_some hget
      rw [h.budgeted.keyed.eq_of_key hrow' hrow (hid'.trans hid.symm)]
  obtain ⟨row', hrow', hid', hactive⟩ := hlive
  obtain rfl := h.budgeted.keyed.eq_of_key hrow' hrow (hid'.trans hid.symm)
  simp [answer?, herror, hrun, hfound, hactive] at ha

end Stages

/-! ### The invariant under each change -/

section Invariant

variable {P : Platform} {c : List (TurnKey × Uuid)} {s t : State} {l : Label} {w : ℕ} {u : TurnRow}
  {k : TurnKey} {run : Uuid}

/-- What a change of the loop keeps of its runs. -/
structure Followed (a b : Agent.State) : Prop where
  budgeted : Agent.Budgeted a → Agent.Budgeted b
  requests : Keyed Agent.RunRow.request a.runs → Keyed Agent.RunRow.request b.runs
  requested : ∀ run k, Agent.Requested a run k → Agent.Requested b run k
  live : Agent.Budgeted a → ∀ run k, Agent.Requested a run k → Agent.Live b run → Agent.Live a run

theorem followed_refl (a : Agent.State) : Followed a a :=
  ⟨id, id, fun _ _ => id, fun _ _ _ _ => id⟩

theorem Effect.followed (he : Effect P s l t) : Followed s.agent t.agent := by
  rcases he.loop with heq | ⟨l', hloop⟩
  · rw [heq]
    exact followed_refl _
  · exact ⟨hloop.effect.budgeted, hloop.keyed, fun _ _ => hloop.requested, fun hb _ _ => hloop.live hb⟩

theorem Over.followed {a : Agent.State} (h : Over s u) (hl : Linked P c s) (ha : Followed s.agent a) :
    Over { s with agent := a } u := by
  refine ⟨h.1, fun x hx hkey => ⟨(h.2 x hx hkey).1, fun hopen herror run hrun hlive => ?_⟩⟩
  obtain ⟨key, hreq⟩ := hl.runs x hx run hrun
  exact (h.2 x hx hkey).2 hopen herror run hrun (ha.live hl.budgeted run _ hreq hlive)

/-- The loop moves on. -/
theorem Linked.followed {a : Agent.State} (h : Linked P c s) (ha : Followed s.agent a) :
    Linked P c { s with agent := a } where
  budgeted := ha.budgeted h.budgeted
  requests := ha.requests h.requests
  keyed := h.keyed
  runs x hx run hrun := by
    obtain ⟨key, hreq⟩ := h.runs x hx run hrun
    exact ⟨key, ha.requested run _ hreq⟩
  ready w u run error hw := by
    obtain ⟨herror, hreq⟩ := h.ready w u run error hw
    exact ⟨herror, ha.requested run _ hreq⟩
  settled w u reply reason hw := (h.settled w u reply reason hw).followed h ha
  requested k run hrun := by
    obtain ⟨u, hu, hreq⟩ := h.requested k run hrun
    exact ⟨u, hu, ha.requested run _ hreq⟩
  attached k run hrun hlive := by
    obtain ⟨u, -, hreq⟩ := h.requested k run hrun
    exact h.attached k run hrun (ha.live h.budgeted run _ hreq hlive)

/-- A worker that holds no live run moves on. -/
theorem Linked.goto {stage : Stage} (h : Linked P c s)
    (hbefore : ∀ u run error, s.workers w = .ready u (some run) error → ¬ Agent.Live s.agent run)
    (hready : ∀ u run error, stage = .ready u (some run) error →
      error = "" ∧ Agent.Requested s.agent run (u.tenant, runKey P u))
    (hsettled : ∀ u reply reason, stage = .settled u reply reason → Over s u) :
    Linked P c (s.goto w stage) :=
  { h with
    ready v u run error hv := by
      rw [goto_workers] at hv
      split at hv
      · exact hready u run error hv
      · exact h.ready v u run error hv
    settled v u reply reason hv := by
      rw [goto_workers] at hv
      split at hv
      · exact hsettled u reply reason hv
      · exact h.settled v u reply reason hv
    attached k run hrun hlive := by
      obtain ⟨x, hx, hkey, ⟨hqueued, v, u, hv, hu⟩ | hopen⟩ := h.attached k run hrun hlive
      · refine ⟨x, hx, hkey, .inl ⟨hqueued, v, u, ?_, hu⟩⟩
        rw [goto_workers, if_neg]
        · exact hv
        · rintro rfl
          exact hbefore u run "" hv hlive
      · exact ⟨x, hx, hkey, .inr hopen⟩ }

/-- A write of the turns by a worker that is done. -/
theorem Linked.write {p : TurnRow → Bool} {f : TurnRow → TurnRow} (h : Linked P c s)
    (hkey : ∀ x, (f x).key = x.key)
    (hrun : ∀ x ∈ s.turns, x.key = u.key → p x = true → ∀ run, (f x).run = some run →
      ∃ key, Agent.Requested s.agent run (x.tenant, key))
    (hstatus : ∀ x ∈ s.turns, x.key = u.key → p x = true → (f x).status ≠ .queued ∧
      ((f x).status = .opened → x.status = .queued))
    (hattached : ∀ k run, (k, run) ∈ c → Agent.Live s.agent run → Attached s k run →
      Attached ((s.setTurn u p f).goto w .idle) k run) :
    Linked P c ((s.setTurn u p f).goto w .idle) where
  budgeted := h.budgeted
  requests := h.requests
  keyed := h.keyed.update hkey
  runs x hx run hxrun := by
    obtain ⟨y, hy, rfl⟩ := mem_update.1 hx
    split at hxrun
    · rename_i hp
      simp only [Bool.and_eq_true, decide_eq_true_eq] at hp
      have htenant : (f y).tenant = y.tenant := (Prod.mk.inj (hkey y)).1
      rw [if_pos (by simp [hp]), htenant]
      exact hrun y hy hp.1 hp.2 run hxrun
    · rename_i hp
      rw [if_neg hp]
      exact h.runs y hy run hxrun
  ready v u run error hv := by
    rw [goto_workers] at hv
    split at hv
    · cases hv
    · exact h.ready v u run error hv
  settled v u' reply reason hv := by
    rw [goto_workers] at hv
    split at hv
    · cases hv
    · obtain ⟨⟨x, hx, hxkey⟩, hall⟩ := h.settled v u' reply reason hv
      refine ⟨⟨_, mem_update.2 ⟨x, hx, rfl⟩, ?_⟩, fun y hy hykey => ?_⟩
      · split
        · exact (hkey x).trans hxkey
        · exact hxkey
      · obtain ⟨z, hz, rfl⟩ := mem_update.1 hy
        split at hykey
        · rename_i hp
          rw [if_pos hp]
          simp only [Bool.and_eq_true, decide_eq_true_eq] at hp
          obtain ⟨hnot, hopened⟩ := hstatus z hz hp.1 hp.2
          refine ⟨hnot, fun hopen => ?_⟩
          exact absurd (hopened hopen) (hall z hz ((hkey z).symm.trans hykey)).1
        · rename_i hp
          rw [if_neg hp]
          exact hall z hz hykey
  requested := h.requested
  attached k run hrun hlive := hattached k run hrun hlive (h.attached k run hrun hlive)

/-- A write that touches no row a live run is attached to. -/
theorem attached_frame {p : TurnRow → Bool} {f : TurnRow → TurnRow} (h : Attached s k run)
    (hw : ∀ u run error, s.workers w = .ready u (some run) error → ¬ Agent.Live s.agent run)
    (hlive : Agent.Live s.agent run)
    (hp : ∀ x ∈ s.turns, x.key = u.key → x.key = k → p x = true → (x.status = .queued → ¬ Tended s k) ∧
      (x.status = .opened → x.error = "" → x.run ≠ some run)) :
    Attached ((s.setTurn u p f).goto w .idle) k run := by
  obtain ⟨x, hx, hkey, hcase⟩ := h
  refine ⟨x, mem_update_of_not hx ?_, hkey, ?_⟩
  · rw [Bool.eq_false_iff]
    intro hpx
    simp only [Bool.and_eq_true, decide_eq_true_eq] at hpx
    obtain ⟨hnot, hopen⟩ := hp x hx hpx.1 hkey hpx.2
    rcases hcase with ⟨hqueued, v, u', hv, hu'⟩ | ⟨hopened, hrun, herror⟩
    · exact hnot hqueued ⟨v, u', run, "", hv, hu', hlive⟩
    · exact hopen hopened herror hrun
  · refine hcase.imp_left fun ⟨hqueued, v, u', hv, hu'⟩ => ⟨hqueued, v, u', ?_, hu'⟩
    rw [goto_workers, if_neg]
    · exact hv
    · rintro rfl
      exact hw u' run "" hv hlive

theorem Linked.congr (h : Linked P c s) (hagent : t.agent = s.agent) (hturns : t.turns = s.turns)
    (hworkers : t.workers = s.workers) : Linked P c t := by
  obtain ⟨agent, turns, takeovers, history, markers, workers⟩ := t
  obtain rfl : agent = s.agent := hagent
  obtain rfl : turns = s.turns := hturns
  obtain rfl : workers = s.workers := hworkers
  exact ⟨h.budgeted, h.requests, h.keyed, h.runs, h.ready, h.settled, h.requested, h.attached⟩

/-- A new turn. -/
theorem Linked.record {history : List LineRow} (h : Linked P c s) (hfresh : ∀ v ∈ s.turns, v.key ≠ u.key)
    (hrun : u.run = none) : Linked P c { s with turns := s.turns ++ [u], history := history } :=
  { h with
    keyed := h.keyed.insert hfresh
    runs x hx run hxrun := by
      obtain hx | hx := List.mem_append.1 hx
      · exact h.runs x hx run hxrun
      · rw [List.mem_singleton.1 hx, hrun] at hxrun
        cases hxrun
    settled w u' reply reason hw := by
      obtain ⟨⟨x, hx, hxkey⟩, hall⟩ := h.settled w u' reply reason hw
      refine ⟨⟨x, List.mem_append_left _ hx, hxkey⟩, fun y hy hykey => ?_⟩
      obtain hy | hy := List.mem_append.1 hy
      · exact hall y hy hykey
      · rw [List.mem_singleton.1 hy] at hykey
        exact absurd (hxkey.trans hykey.symm) (hfresh x hx)
    attached k run hrun hlive := by
      obtain ⟨x, hx, hcase⟩ := h.attached k run hrun hlive
      exact ⟨x, List.mem_append_left _ hx, hcase⟩ }

/-- A recorded turn has no run. -/
theorem record_run {env : Env} {tenant channel eventKey agent : String} {payload : Json}
    (h : s.record env tenant channel eventKey agent payload = .ok t) {x : TurnRow} (hx : x ∈ t.turns) :
    x ∈ s.turns ∨ x.run = none := by
  simp only [State.record, recordTurn, bind_eq_ok, exists_unit, ensure_eq_ok] at h
  obtain ⟨turns, ⟨-, conversationId, -, sender, -, agent', -, -, policy, -, hturns⟩, h⟩ := h
  split at h
  · obtain rfl := Except.ok.inj h
    exact .inl hx
  · rename_i hnone
    rw [if_neg hnone] at hturns
    obtain rfl := Except.ok.inj hturns
    obtain rfl := Except.ok.inj h
    obtain hx | hx := List.mem_append.1 hx
    · exact .inl hx
    · rw [List.mem_singleton.1 hx]
      exact .inr rfl

/-- A run is created for a turn that waits. -/
theorem Linked.created (h : Linked P c s) (hw : s.workers w = .ready u (some run) "")
    (hrequested : Agent.Requested s.agent run (u.tenant, runKey P u))
    (hqueued : ∃ x ∈ s.turns, x.key = u.key ∧ x.status = .queued) :
    Linked P (c ++ [(u.key, run)]) s :=
  { h with
    requested k run' hrun := by
      obtain hrun | hrun := List.mem_append.1 hrun
      · exact h.requested k run' hrun
      · obtain ⟨rfl, rfl⟩ := Prod.mk.inj (List.mem_singleton.1 hrun)
        exact ⟨u, rfl, hrequested⟩
    attached k run' hrun hlive := by
      obtain hrun | hrun := List.mem_append.1 hrun
      · exact h.attached k run' hrun hlive
      · obtain ⟨rfl, rfl⟩ := Prod.mk.inj (List.mem_singleton.1 hrun)
        obtain ⟨x, hx, hkey, hstatus⟩ := hqueued
        exact ⟨x, hx, hkey, .inl ⟨hstatus, w, u, hw, rfl⟩⟩ }

end Invariant

/-! ### Steps -/

section Steps

variable {P : Platform} {c : List (TurnKey × Uuid)} {s t : State} {l : Label} {w : ℕ} {u : TurnRow}
  {env : Env} {reads : Reads}

/-- The creation of a run. -/
theorem Linked.create (h : Linked P c s) {prompt : String} {maxSteps maxSeconds : ℤ}
    (hw : s.workers w = .creating u prompt maxSteps maxSeconds)
    (ha : Attended P s (.work w env reads)) :
    Linked P (c ++ (createdBy P s (.work w env reads)).toList) (s.work P w env reads) := by
  have hbefore : ∀ u run error, s.workers w = .ready u (some run) error → ¬ Agent.Live s.agent run := by
    intro u run error hr
    rw [hw] at hr
    cases hr
  simp only [Attended, hw] at ha
  have hs : Step P s (.work w env reads) (s.work P w env reads) := rfl
  have hfollowed := hs.effect.followed
  simp only [State.work, State.create, createdBy, hw] at hfollowed ⊢
  cases hcreate : Agent.create P env s.agent u.tenant (runKey P u) u.agent prompt u.sender maxSteps
      maxSeconds u.channel with
  | error e =>
    rw [hcreate] at hfollowed
    simp only [Option.toList_none, List.append_nil]
    split
    all_goals exact h.goto hbefore (fun _ _ _ hr => by cases hr) fun _ _ _ hr => by cases hr
  | ok out =>
    obtain ⟨agent, run⟩ := out
    rw [hcreate] at hfollowed
    have hrequested := Agent.create_requested hcreate
    have hlinked : Linked P c ({ s with agent := agent }.goto w (.ready u (some run) "")) := by
      refine (h.followed hfollowed).goto (fun u' run' error hr => ?_) (fun u' run' error hr => ?_)
        fun _ _ _ hr => by cases hr
      · rw [show ({ s with agent := agent } : State).workers w = s.workers w from rfl, hw] at hr
        cases hr
      · cases hr
        exact ⟨rfl, hrequested⟩
    rcases Agent.create_cases hcreate with ⟨rfl, row, hrow, hid, -⟩ | ⟨row, rfl, hid, hminted, -, hfresh⟩
    · have hold : (s.agent.runs.any fun r => decide (r.id = run)) = true :=
        List.any_eq_true.2 ⟨row, hrow, decide_eq_true hid⟩
      simpa [hold] using hlinked
    · have hnew : (s.agent.runs.any fun r => decide (r.id = run)) = false := by
        rw [List.any_eq_false]
        intro r hr heq
        have hlt := h.budgeted.minted r hr
        rw [of_decide_eq_true heq, hminted] at hlt
        exact Nat.lt_irrefl _ hlt
      simp only [hnew, Bool.false_eq_true, if_false, Option.toList_some]
      refine hlinked.created (goto_self ..) hrequested (ha.resolve_right ?_)
      rintro ⟨run', r, hr, -, hrequest⟩
      exact hfresh r hr hrequest

theorem runKey_congr {v : TurnRow} (h : v.key = u.key) : runKey P v = runKey P u := by
  simp only [TurnRow.key, Prod.mk.injEq] at h
  rw [runKey, runKey, h.2.1, h.2.2]

/-- The write of `_open`: the turn is linked to the run in its worker's hands. -/
theorem Linked.open (h : Linked P c s) {run? : Option Uuid} {error : String}
    (hw : s.workers w = .ready u run? error) (ha : Attended P s (.work w env reads)) :
    Linked P c (s.markOpen w u run? error) := by
  simp only [Attended, hw] at ha
  unfold State.markOpen
  split
  · rename_i hfull
    refine h.goto (fun u' run error' hr hlive => ?_) (fun _ _ _ hr => by cases hr) fun _ _ _ hr => by cases hr
    rw [hw] at hr
    cases hr
    exact absurd (ha hlive) (Nat.not_lt.2 hfull)
  · refine h.write (fun _ => rfl) (fun x hx hkey _ run hrun => ?_) (fun x _ _ hp => ?_)
      fun k run hrun hlive hattached => ?_
    · obtain rfl : run? = some run := hrun
      have htenant : x.tenant = u.tenant := (Prod.mk.inj hkey).1
      exact ⟨_, htenant ▸ (h.ready w u run error hw).2⟩
    · exact ⟨by simp, fun _ => of_decide_eq_true hp⟩
    · obtain ⟨x, hx, hxkey, ⟨hqueued, v, u', hv, hu'⟩ | hopened⟩ := id hattached
      · by_cases hkey : x.key = u.key
        · have htended : Tended s u.key := ⟨v, u', run, "", hv, hu'.trans (hxkey.symm.trans hkey), hlive⟩
          cases run? with
          | none => exact absurd htended ha
          | some run' =>
            -- both workers hold the run of the turn
            obtain ⟨rfl, hrequested⟩ := h.ready w u run' error hw
            obtain ⟨-, hrequested'⟩ := h.ready v u' run "" hv
            have hsame : u'.key = u.key := hu'.trans (hxkey.symm.trans hkey)
            have htenant : u'.tenant = u.tenant := (Prod.mk.inj hsame).1
            rw [runKey_congr hsame, htenant] at hrequested'
            obtain rfl := hrequested.unique h.requests hrequested'
            refine ⟨_, mem_update_of_pos hx (by simp [hkey, hqueued]), hxkey, .inr ⟨rfl, rfl, rfl⟩⟩
        · refine ⟨x, mem_update_of_not hx (by simp [hkey]), hxkey, .inl ⟨hqueued, v, u', ?_, hu'⟩⟩
          rw [goto_workers, if_neg]
          · exact hv
          · rintro rfl
            rw [hw] at hv
            cases hv
            exact hkey (hxkey.trans hu'.symm)
      · exact ⟨x, mem_update_of_not hx (by simp [hopened.1]), hxkey, .inr hopened⟩

/-- A write to a turn in delivery. -/
theorem Linked.ended (h : Linked P c s) {p : TurnRow → Bool} {f : TurnRow → TurnRow}
    (hw : ∀ u run error, s.workers w ≠ .ready u (some run) error) (hkey : ∀ x, (f x).key = x.key)
    (hp : ∀ x, p x = true → x.status = .delivering)
    (hf : ∀ x, p x = true → (f x).run = x.run ∧ (f x).status ≠ .queued ∧ (f x).status ≠ .opened) :
    Linked P c ((s.setTurn u p f).goto w .idle) := by
  refine h.write hkey (fun x hx _ hpx run hrun => ?_) (fun x _ _ hpx => ?_)
    fun k run _ hlive hattached => ?_
  · exact h.runs x hx run ((hf x hpx).1 ▸ hrun)
  · exact ⟨(hf x hpx).2.1, fun hopen => absurd hopen (hf x hpx).2.2⟩
  · refine attached_frame hattached (fun u run error hr => absurd hr (hw u run error)) hlive
      fun x _ _ _ hpx => ?_
    rw [hp x hpx]
    simp

/-- Every write of a worker. -/
theorem Linked.wrote (h : Linked P c s) (hsound : Sound s.turns (s.workers w)) {p : TurnRow → Bool}
    {f : TurnRow → TurnRow} (hwrite : Write s (s.workers w) env u p f)
    (ha : Attended P s (.work w env reads)) : Linked P c ((s.setTurn u p f).goto w .idle) := by
  generalize hw : s.workers w = stage at hwrite hsound
  have hfree : (∀ u run? error, stage ≠ .ready u run? error) →
      ∀ u run error, s.workers w ≠ .ready u (some run) error := by
    intro hstage u run error hr
    exact hstage u (some run) error (hw.symm.trans hr)
  cases hwrite with
  | opened hroom =>
    have hopen := h.open hw ha
    rwa [State.markOpen, if_neg (Nat.not_le.2 hroom)] at hopen
  | left =>
    simp only [Attended, hw] at ha
    refine h.write (fun _ => rfl) (fun x hx _ _ run hrun => h.runs x hx run hrun)
      (fun x _ _ _ => ⟨by simp, fun hopen => by cases hopen⟩) fun k run _ hlive hattached => ?_
    refine attached_frame hattached
      (fun u run error hr => absurd hr (hfree (by simp) u run error)) hlive fun x _ hkey hk hp => ?_
    refine ⟨fun _ => ?_, fun hopen => ?_⟩
    · rw [← hk, hkey]
      exact ha
    · rw [of_decide_eq_true hp] at hopen
      cases hopen
  | @settled _ _ reply reason =>
    have hover := h.settled w u reply reason hw
    refine h.write (fun _ => rfl) (fun x hx _ _ run hrun => h.runs x hx run hrun)
      (fun x _ _ _ => ⟨by simp, fun hopen => by cases hopen⟩) fun k run _ hlive hattached => ?_
    refine attached_frame hattached
      (fun u run error hr => absurd hr (hfree (by simp) u run error)) hlive fun x hx hkey _ hp => ?_
    refine ⟨fun hqueued => absurd hqueued (hover.2 x hx hkey).1, fun hopen herror hrun => ?_⟩
    exact (hover.2 x hx hkey).2 hopen herror run hrun hlive
  | retired =>
    refine h.ended (hfree (by simp)) (fun _ => rfl) (fun x hp => ?_) fun x _ => ⟨rfl, by simp, by simp⟩
    simp only [Bool.and_eq_true, decide_eq_true_eq] at hp
    exact hp.1
  | noted =>
    have hdelivering : ∀ x : TurnRow, (decide (x.status = .delivering) && x.task.isNone) = true →
        x.status = .delivering := by
      intro x hp
      simp only [Bool.and_eq_true, decide_eq_true_eq] at hp
      exact hp.1
    refine h.ended (hfree (by simp)) (fun _ => rfl) hdelivering fun x hp => ?_
    have hstatus := hdelivering x hp
    exact ⟨rfl, by simp [hstatus], by simp [hstatus]⟩
  | @finished _ _ status error =>
    refine h.ended (hfree (by simp)) (fun _ => rfl) (fun x hp => of_decide_eq_true hp) fun x _ => ?_
    rcases hsound.ends u status error rfl with rfl | rfl
    · exact ⟨rfl, by simp, by simp⟩
    · exact ⟨rfl, by simp, by simp⟩

theorem createdBy_none (hl : ∀ w env reads, l = .work w env reads → ∀ u prompt maxSteps maxSeconds,
    s.workers w ≠ .creating u prompt maxSteps maxSeconds) : createdBy P s l = none := by
  unfold createdBy
  split
  · split
    · rename_i hw
      exact absurd hw (hl _ _ _ rfl _ _ _ _)
    · rfl
  · rfl

/-- **One label** keeps the live runs attached. -/
theorem Step.linked (h : Linked P c s) (hsound : ∀ w, Sound s.turns (s.workers w)) (hs : Step P s l t)
    (ha : Attended P s l) : Linked P (c ++ (createdBy P s l).toList) t := by
  by_cases hl : ∃ w env reads, l = .work w env reads ∧ ∃ u prompt maxSteps maxSeconds,
      s.workers w = .creating u prompt maxSteps maxSeconds
  · obtain ⟨w, env, reads, rfl, u, prompt, maxSteps, maxSeconds, hw⟩ := hl
    obtain rfl : t = s.work P w env reads := hs
    exact h.create hw ha
  rw [createdBy_none fun w env reads hwork u prompt maxSteps maxSeconds hw =>
    hl ⟨w, env, reads, hwork, u, prompt, maxSteps, maxSeconds, hw⟩, Option.toList_none, List.append_nil]
  have he := hs.effect
  have hfollowed := he.followed
  cases he with
  | same => exact h
  | looped l' => exact h.followed hfollowed
  | taken => exact h.congr rfl rfl rfl
  | @recorded env agent payload u hfresh =>
    refine h.record hfresh ?_
    simp only [Step, State.after] at hs
    cases hrecord : s.record env u.tenant u.channel u.eventKey agent payload with
    | error e =>
      rw [hrecord] at hs
      have hturns := congrArg State.turns hs
      simp at hturns
    | ok t =>
      rw [hrecord] at hs
      subst hs
      refine (record_run hrecord (List.mem_append_right _ List.mem_cons_self)).resolve_left fun hu => ?_
      exact hfresh u hu rfl
  | @replied env tenant updated _ hsettled =>
    obtain ⟨hturns, hworkers, hagent⟩ := settleReplies_frame hsettled
    exact h.congr hagent hturns hworkers
  | crashed w =>
    exact h.goto ha (fun _ _ _ hr => by cases hr) fun _ _ _ hr => by cases hr
  | @begun w tenant =>
    refine h.goto (fun u run error hr => ?_) (fun _ _ _ hr => by cases hr) fun _ _ _ hr => by cases hr
    simp only [Step, State.after, hr] at hs
    have hstage := congrArg (fun s : State => s.workers w) hs
    simp only [goto_self, hr] at hstage
    cases hstage
  | @moved w env reads stage hpasses =>
    have hwork : s.goto w stage = s.work P w env reads := hs
    have hstage : (s.work P w env reads).workers w = stage := by rw [← hwork, goto_self]
    by_cases hr : ∃ u run? error, s.workers w = .ready u run? error
    · obtain ⟨u, run?, error, hw⟩ := hr
      rw [hwork]
      simp only [State.work, hw]
      exact h.open hw ha
    · refine h.goto (fun u run error hw => absurd ⟨u, some run, error, hw⟩ hr) (fun u run error heq => ?_)
        fun u reply reason heq => ?_
      · have hheld := @work_held P s w env reads
        rw [hstage.trans heq, ← hwork] at hheld
        exact hheld
      · have hheld := @work_held P s w env reads
        rw [hstage.trans heq] at hheld
        obtain ⟨hu, hopen, a, hanswer⟩ := hheld
        exact over_of_answer h hu hopen hanswer
  | @created w env reads u prompt maxSteps maxSeconds agent run hw =>
    exact absurd ⟨w, env, reads, rfl, u, prompt, maxSteps, maxSeconds, hw⟩ hl
  | @submitted w env reads u db id hw hsubmit =>
    refine (h.followed hfollowed).goto (fun u run error hr => ?_) (fun _ _ _ hr => by cases hr)
      fun _ _ _ hr => by cases hr
    have hready : s.workers w = .ready u (some run) error := hr
    rw [hw] at hready
    cases hready
  | wrote hwrite => exact h.wrote (hsound _) hwrite ha
  | @delivered w env reads u x hw hx hkey hstatus =>
    have hended := h.ended (w := w) (u := u) (p := fun x => x.status = .delivering)
      (f := fun x => { x with status := .delivered }) (fun _ _ _ hr => by rw [hw] at hr; cases hr)
      (fun _ => rfl) (fun _ hp => of_decide_eq_true hp) fun _ _ => ⟨rfl, by simp, by simp⟩
    exact hended.congr rfl rfl rfl

end Steps

/-! ### Runs -/

section Runs

variable {P : Platform} {τs : List (Transition State Label)} {s : State}

theorem linked_of_run (h : Run (Step P) {} τs s) (hattended : ∀ τ ∈ τs, Attended P τ.src τ.label) :
    Linked P (created P τs) s ∧ ∀ w, Sound s.turns (s.workers w) := by
  induction h with
  | nil => exact ⟨linked_empty P, fun _ => sound_of_none rfl⟩
  | @snoc τs s t l hr hs ih =>
    obtain ⟨hlinked, hsound⟩ := ih fun τ hτ => hattended τ (List.mem_append_left _ hτ)
    have ha := hattended ⟨s, l, t⟩ (List.mem_append_right _ List.mem_cons_self)
    refine ⟨?_, hs.effect.sound hsound⟩
    have hcreated : created P (τs ++ [⟨s, l, t⟩]) = created P τs ++ (createdBy P s l).toList := by
      unfold created
      rw [List.filterMap_append]
      cases hby : createdBy P s l <;> simp [hby]
    rw [hcreated]
    exact hs.linked hlinked hsound ha

/-- **No live run beside the operator.** In any run in which a created run is looked after until it is
linked or over, no turn that was retired to the operator has a live run that was created for it. -/
theorem operator_turn_quiet (h : Run (Step P) {} τs s) (hattended : ∀ τ ∈ τs, Attended P τ.src τ.label) :
    ∀ u ∈ s.turns, u.status = .operator → ∀ run, (u.key, run) ∈ created P τs →
      ¬ Agent.Live s.agent run := by
  intro u hu hstatus run hrun hlive
  obtain ⟨hlinked, -⟩ := linked_of_run h hattended
  obtain ⟨x, hx, hkey, hcase⟩ := hlinked.attached u.key run hrun hlive
  obtain rfl := hlinked.keyed.eq_of_key hx hu hkey
  rcases hcase with ⟨hqueued, -⟩ | ⟨hopen, -⟩
  · rw [hstatus] at hqueued
    cases hqueued
  · rw [hstatus] at hopen
    cases hopen

/-- The policy of an agent that converses. -/
def conversingEnv (second : ℕ) : Env :=
  { sampleEnv second with
    policy := fun _ _ => .ok (.obj [("ladder", .str "autonomous"), ("tools", .arr [.str "telegram.send"]),
      ("conversation", .obj [("enabled", .bool true)])]) }

/-- A worker begins a `tick` and makes `n` statements of it, the model being configured. -/
def planned (w second n : ℕ) : List Label :=
  .tick w "acme" :: List.replicate n (.work w (conversingEnv second) ⟨true, "narxi?", false⟩)

/-- An operator takes the conversation over. -/
def takenOverAt (second : ℕ) : Label :=
  .takeover (conversingEnv second) "acme" "telegram" "42" "olim" "clerk"

/-- What `Attended` asks, for workers that neither die nor let go of a turn without a run. -/
def tended (τ : Transition State Label) : Bool :=
  match τ.label with
  | .crash _ => false
  | .work w _ _ =>
    match τ.src.workers w with
    | .creating u _ _ _ => τ.src.turns.any fun x => decide (x.key = u.key) && decide (x.status = .queued)
    | .ready u (some _) _ => decide (inFlight τ.src.turns u.tenant < maxOpenTurns)
    | .ready _ none _ | .leaving _ => false
    | _ => true
  | _ => true

theorem attended_of_tended {τ : Transition State Label} (h : tended τ = true) :
    Attended P τ.src τ.label := by
  unfold tended at h
  unfold Attended
  split at h
  · cases h
  · split at h
    · obtain ⟨x, hx, hp⟩ := List.any_eq_true.1 h
      simp only [Bool.and_eq_true, decide_eq_true_eq] at hp
      exact .inl ⟨x, hx, hp⟩
    · exact fun _ => of_decide_eq_true h
    · cases h
    · cases h
    · trivial
  · trivial

/-- A turn is opened, its run is cancelled, and an operator takes the conversation over before the reply
goes out. -/
def tendedLabels : List Label :=
  customerEvent 1 "e1" "narxi?" :: planned 0 2 7 ++
    [.loop (.cancel (conversingEnv 3) "acme" 0 "dana")] ++ planned 0 4 4 ++ [takenOverAt 5] ++ planned 0 6 3

theorem operator_turn_quiet_sample :
    ∃ u ∈ (sampleState tendedLabels).turns, u.status = .operator ∧ ∃ run,
      (u.key, run) ∈ created replyPlatform (trace (State.after replyPlatform) {} tendedLabels) ∧
        ¬ Agent.Live (sampleState tendedLabels).agent run := by
  obtain ⟨⟨u, hu, hstatus, run, hrun⟩, htended⟩ :
      (∃ u ∈ (sampleState tendedLabels).turns, u.status = .operator ∧
        ∃ run ∈ [0], (u.key, run) ∈ created replyPlatform
          (trace (State.after replyPlatform) {} tendedLabels)) ∧
      ∀ τ ∈ trace (State.after replyPlatform) {} tendedLabels, tended τ = true := by
    decide +kernel
  exact ⟨u, hu, hstatus, run, hrun.2, operator_turn_quiet (sampleState_run tendedLabels)
    (fun τ hτ => attended_of_tended (htended τ hτ)) u hu hstatus run hrun.2⟩

/-- A worker creates the run of a turn and dies; an operator takes the conversation over, and the next
worker leaves the turn to them. -/
def orphanLabels : List Label :=
  customerEvent 1 "e1" "narxi?" :: planned 0 2 6 ++ [.crash 0, takenOverAt 3] ++ planned 1 4 5

theorem run_beside_operator :
    ¬ ∀ (P : Platform) (τs : List (Transition State Label)) (s : State), Run (Step P) {} τs s →
      ∀ u ∈ s.turns, u.status = .operator → ∀ run, (u.key, run) ∈ created P τs →
        ¬ Agent.Live s.agent run := by
  intro h
  obtain ⟨⟨u, hu, hstatus, run, hmem, hrun⟩, hlive⟩ :
      (∃ u ∈ (sampleState orphanLabels).turns, u.status = .operator ∧
        ∃ run ∈ [0], (u.key, run) ∈ created replyPlatform
          (trace (State.after replyPlatform) {} orphanLabels)) ∧
      ∀ run ∈ [0], ∃ r ∈ (sampleState orphanLabels).agent.runs, r.id = run ∧
        Agent.active r.status = true := by
    decide +kernel
  exact h _ _ _ (sampleState_run orphanLabels) u hu hstatus run hrun (hlive run hmem)

end Runs

end AgentPlatform.Conversation
