import AgentPlatform.Agent.Budgets
import AgentPlatform.Engine.Approvals
import AgentPlatform.Engine.Idempotency

/-!
# A run that is over

The engine's part of the loop is an engine run of its own: every step of the loop is a few operations
of the engine (`Effect.view`), so that what the engine keeps is kept under the loop (`Later`). `Tied`
is the invariant between the two: the turns of a run are linked to tasks of its tenant, no two turns to
one task, and what an answer cites are steps that have succeeded. A terminal run stays as it is, and
none of its tasks is dispatched any more (`terminal_run`).
-/

namespace AgentPlatform.Agent

open Outcome Engine Table Runs

/-! ### The engine under the loop -/

section View

variable {P : Platform} {τs : List (Transition State Label)} {s t : State} {row : RunRow}

theorem view_run (hrow : s.row? row.tenant row.id = some row) :
    s.view.runs.find? (fun r => decide (r.tenant = row.tenant) && decide (r.id = row.id)) =
      some row.toAgentRunRow := by
  change (s.runs.map RunRow.toAgentRunRow).find? _ = _
  rw [List.find?_map]
  exact congrArg (Option.map RunRow.toAgentRunRow) hrow

/-- The writes of `_stop` on the engine's tables are the ones of the engine's `stop`. -/
theorem view_stop (hrow : s.row? row.tenant row.id = some row) (status : RunStatus)
    (reason actor : String) : ∃ ops : List Op,
      (s.stop row status reason actor).view = (ops.foldl (Db.after P) s.view).after P
        (.elsewhere (s.stop row status reason actor).view.events
          (s.stop row status reason actor).view.runs
          (s.stop row status reason actor).view.agentTurns) := by
  unfold State.stop
  split
  · exact ⟨[], rfl⟩
  · rename_i task htask
    split
    · exact ⟨[], rfl⟩
    · rename_i linked hlinked
      refine ⟨[.stop row.tenant row.id status reason actor], ?_⟩
      have hstop : s.view.after P (.stop row.tenant row.id status reason actor) =
          (stopTask s.view row.tenant task linked status reason actor).1.endRun row.tenant row.id
            (stopTask s.view row.tenant task linked status reason actor).2 reason := by
        have hengine : Engine.stop s.view row.tenant row.id status reason actor =
            .ok ((stopTask s.view row.tenant task linked status reason actor).1.endRun row.tenant row.id
              (stopTask s.view row.tenant task linked status reason actor).2 reason,
              .run (stopTask s.view row.tenant task linked status reason actor).2) := by
          have hcurrent : row.toAgentRunRow.currentTask = some task := htask
          unfold Engine.stop
          refine bind_eq_ok.2 ⟨row.toAgentRunRow, need_eq_ok.2 (view_run hrow), ?_⟩
          beta_reduce
          rw [hcurrent]
          dsimp only
          rw [hlinked]
          rfl
        change commit s.view (Engine.stop s.view row.tenant row.id status reason actor) = _
        rw [hengine]
        rfl
      rw [List.foldl_cons, List.foldl_nil, hstop]
      rfl

theorem Wrote.view (hw : Wrote P s t) : ∃ ops : List Op,
    t.view = (ops.foldl (Db.after P) s.view).after P
      (.elsewhere t.view.events t.view.runs t.view.agentTurns) := by
  cases hw with
  | same | created | answered | asked | inbound => exact ⟨[], rfl⟩
  | stopped hrow => exact view_stop hrow _ _ _
  | @linked env row name fingerprint args db task hrow hplanning hactive hsteps hsubmit =>
    refine ⟨[.submit env row.tenant row.channel (taskKey row) row.agent
      [.obj [("tool", .str name), ("args", args)]] row.actor], ?_⟩
    have hexec : s.view.after P (.submit env row.tenant row.channel (taskKey row) row.agent
        [.obj [("tool", .str name), ("args", args)]] row.actor) = db := by
      change commit s.view ((submit P env s.view row.tenant row.channel (taskKey row) row.agent
        [.obj [("tool", .str name), ("args", args)]] row.actor).map _) = db
      rw [hsubmit]
      rfl
    rw [List.foldl_cons, List.foldl_nil, hexec]
    rfl
  | @engine op => exact ⟨[op], rfl⟩

theorem Effect.view (he : Effect P s t) : ∃ ops : List Op,
    t.view = (ops.foldl (Db.after P) s.view).after P
      (.elsewhere t.view.events t.view.runs t.view.agentTurns) := by
  cases he with
  | wrote hwrote => exact hwrote.view
  | cleared | reserved | repaired => exact ⟨[], rfl⟩

theorem reachable_view (h : Run (Step P) {} τs s) :
    ∃ τs', Run (Engine.Step P) {} τs' s.view := by
  refine h.invariant (I := fun s => ∃ τs', Run (Engine.Step P) {} τs' s.view) ⟨[], .nil⟩ ?_
  rintro s l t ⟨τs', hrun⟩ hs
  obtain ⟨ops, hview⟩ := hs.effect.view
  have hcalls := Run.calls (f := Db.after P) hrun ops
  exact ⟨_, hcalls.snoc hview⟩

/-- What later states keep of a state: turns, tasks and succeeded steps. -/
structure Later (s t : State) : Prop where
  turns : ∀ l ∈ s.turns, l ∈ t.turns
  owners : ∀ k ∈ s.view.owners, k ∈ t.view.owners
  succeeded : ∀ st ∈ s.db.steps, st.status = .succeeded →
    ∃ st' ∈ t.db.steps, st'.spec = st.spec ∧ st'.status = .succeeded

theorem Effect.turns (he : Effect P s t) {l : TurnRow} (hl : l ∈ s.turns) : l ∈ t.turns := by
  cases he with
  | wrote hwrote =>
    cases hwrote with
    | linked => exact List.mem_append_left _ hl
    | @stopped row _ _ status _ _ reason actor =>
      obtain ⟨db, status', reason', -, heq⟩ := stop_eq s row status reason actor
      rw [heq]
      exact hl
    | _ => exact hl
  | _ => exact hl

theorem Effect.later (ho : Orderly s.view) (he : Effect P s t) : Later s t := by
  obtain ⟨ops, hview⟩ := he.view
  have hrun := ((Run.nil : Run (Engine.Step P) s.view [] _).calls ops).snoc
    (e := .elsewhere t.view.events t.view.runs t.view.agentTurns) rfl
  rw [← hview] at hrun
  have hkept := hrun.invariant (I := fun db => Orderly db ∧ (∀ k ∈ s.view.owners, k ∈ db.owners) ∧
      ∀ st ∈ s.db.steps, st.status = .succeeded →
        ∃ st' ∈ db.steps, st'.spec = st.spec ∧ st'.status = .succeeded)
    ⟨ho, fun _ hk => hk, fun st hst hsucceeded => ⟨st, hst, rfl, hsucceeded⟩⟩ ?_
  · exact ⟨fun l hl => he.turns hl, hkept.2.1, hkept.2.2⟩
  · rintro db op db' ⟨ho, howners, hsteps⟩ hs
    have hs : Engine.Step P db op db' := hs
    obtain ⟨out, he, -⟩ := hs.effect
    refine ⟨he.orderly ho, fun k hk => he.owners_kept (howners k hk), fun st hst hsucceeded => ?_⟩
    obtain ⟨st', hst', hspec, hstatus⟩ := hsteps st hst hsucceeded
    obtain ⟨st'', hst'', hspec', hstatus'⟩ := he.succeeded ho hst' hstatus
    exact ⟨st'', hst'', hspec'.trans hspec, hstatus'⟩

end View

/-! ### Evidence -/

/-- The evidence of a run: distinct succeeded steps of its own turns. -/
structure Cited (s : State) (row : RunRow) : Prop where
  nonempty : row.evidence ≠ []
  distinct : row.evidence.Nodup
  steps : ∀ e ∈ row.evidence, ∃ l ∈ s.turns, l.run = row.id ∧ ∃ st ∈ s.db.steps,
    st.task = l.task ∧ st.status = .succeeded ∧ e = evidenceId st.id

section Evidence

variable {P : Platform} {s t : State} {row : RunRow}

theorem Cited.later (h : Cited s row) (hlater : Later s t) : Cited t row :=
  { h with
    steps e he := by
      obtain ⟨l, hl, hrun, st, hst, htask, hsucceeded, hid⟩ := h.steps e he
      obtain ⟨st', hst', hspec, hsucceeded'⟩ := hlater.succeeded st hst hsucceeded
      refine ⟨l, hlater.turns l hl, hrun, st', hst', ?_, hsucceeded', ?_⟩
      · exact (congrArg StepSpec.task hspec).trans htask
      · rw [hid, StepRow.id, StepRow.id, hspec] }

/-- An observation is a succeeded step of a turn of the run. -/
theorem observations_cases {obs : List Observation} (h : observations s row = .ok obs)
    {o : Observation} (ho : o ∈ obs) : ∃ l ∈ s.turns, l.run = row.id ∧ ∃ st ∈ s.db.steps,
      st.task = l.task ∧ st.status = .succeeded ∧ o.evidenceId = evidenceId st.id := by
  simp only [observations, bind_eq_ok, exists_unit, pure_eq_ok, mapM_eq_ok] at h
  obtain ⟨-, obs', hall, -, rfl⟩ := h
  obtain ⟨i, hi, hobserve⟩ := exists_of_mem_right hall ho
  simp only [Item.observe, bind_eq_ok, exists_unit, ensure_eq_ok, pure_eq_ok] at hobserve
  obtain ⟨⟨hsucceeded, -⟩, -, rfl⟩ := hobserve
  obtain ⟨l, hl, hitem⟩ := List.mem_filterMap.1 hi
  rw [List.mem_insertionSort, List.mem_filter, Bool.and_eq_true, decide_eq_true_eq,
    decide_eq_true_eq] at hl
  obtain ⟨hl, -, hrun⟩ := hl
  split at hitem
  · cases hitem
  · rename_i task htask
    obtain ⟨st, hst, rfl⟩ := Option.map_eq_some_iff.1 hitem
    have hfound := List.find?_some hst
    have hfound' := List.find?_some htask
    simp only [Bool.and_eq_true, decide_eq_true_eq] at hfound hfound'
    exact ⟨l, hl, hrun, st, List.mem_of_find?_eq_some hst, hfound.1.1.trans hfound'.1, hsucceeded, rfl⟩

/-- The turns and the answers of the loop are tied to the tasks and steps of the engine. -/
structure Tied (s : State) : Prop where
  tasks : ∀ l ∈ s.turns, ∃ channel eventKey, (l.task, l.tenant, channel, eventKey) ∈ s.view.owners
  unique : Keyed (fun l : TurnRow => (l.tenant, l.task)) s.turns
  tenants : ∀ l ∈ s.turns, ∀ row ∈ s.runs, row.id = l.run → row.tenant = l.tenant
  cited : ∀ row ∈ s.runs, row.status = .succeeded → Cited s row

theorem tied_empty : Tied {} where
  tasks _ hl := absurd hl List.not_mem_nil
  unique := keyed_nil _
  tenants _ hl := absurd hl List.not_mem_nil
  cited _ hrow := absurd hrow List.not_mem_nil

/-- A row after a step was there before with the same tenant, unless it is new; where it is a new
answer, its evidence is cited. -/
theorem Effect.row_cases (hb : Budgeted s) (he : Effect P s t) {row' : RunRow} (hrow' : row' ∈ t.runs) :
    (row'.id = s.minted ∧ row'.status ≠ .succeeded) ∨
      ∃ row ∈ s.runs, row'.id = row.id ∧ row'.tenant = row.tenant ∧
        (row'.status = .succeeded → row' = row ∨ Cited s row') := by
  have hset : ∀ {t : State} {row : RunRow} {f : RunRow → RunRow}, t.runs = s.runs →
      s.row? row.tenant row.id = some row → row' ∈ (t.setRun row f).runs →
      (f row).id = row.id → (f row).tenant = row.tenant →
      ((f row).status = .succeeded → Cited s (f row)) →
        ∃ row ∈ s.runs, row'.id = row.id ∧ row'.tenant = row.tenant ∧
          (row'.status = .succeeded → row' = row ∨ Cited s row') := by
    intro t row f hruns hrow hmem hid htenant hcited
    have hkeyed : Keyed (fun r : RunRow => r.id) t.runs := hruns ▸ hb.keyed
    obtain ⟨hrow, -⟩ := row?_eq_some hrow
    rcases mem_setRun hkeyed (hruns ▸ hrow) hmem with rfl | ⟨hold, -⟩
    · exact ⟨row, hrow, hid, htenant, fun h => .inr (hcited h)⟩
    · exact ⟨row', hruns ▸ hold, rfl, rfl, fun _ => .inl rfl⟩
  have hsame : row' ∈ s.runs → ∃ row ∈ s.runs, row'.id = row.id ∧ row'.tenant = row.tenant ∧
      (row'.status = .succeeded → row' = row ∨ Cited s row') :=
    fun h => ⟨row', h, rfl, rfl, fun _ => .inl rfl⟩
  cases he with
  | @wrote t planners hwrote =>
    cases hwrote with
    | same | engine | inbound => exact .inr (hsame hrow')
    | created hid hstatus =>
      rcases List.mem_append.1 hrow' with hold | hnew
      · exact .inr (hsame hold)
      · obtain rfl := List.mem_singleton.1 hnew
        exact .inl ⟨hid, by simp [hstatus]⟩
    | @stopped row hrow _ status _ hfailed reason actor =>
      obtain ⟨db, status', reason', hstatus, heq⟩ := stop_eq s row status reason actor
      refine .inr (hset (t := { s with db := db }) (f := fun r => r.stopped status' reason') rfl hrow
        (heq ▸ hrow') rfl rfl fun h => ?_)
      have hsucceeded : status' = .succeeded := h
      rcases hstatus with rfl | rfl | rfl
      · exact absurd hsucceeded hfailed
      · cases hsucceeded
      · cases hsucceeded
    | linked hrow => exact .inr (hset rfl hrow hrow' rfl rfl fun h => by cases h)
    | @answered row obs answer evidence hrow hplanning hobs hne hmem hnodup =>
      refine .inr (hset rfl hrow hrow' rfl rfl fun _ => ⟨hne, hnodup, fun e he => ?_⟩)
      obtain ⟨o, ho, rfl⟩ := List.mem_map.1 (hmem e he)
      exact observations_cases hobs ho
    | asked hrow => exact .inr (hset rfl hrow hrow' rfl rfl fun h => by cases h)
  | cleared => exact .inr (hsame hrow')
  | @reserved w row obs lease repairs hrow =>
    exact .inr (hset (t := { s with minted := s.minted + 1 }) (f := fun r => r.planned s.minted lease)
      rfl hrow hrow' rfl rfl fun h => by cases h)
  | @repaired w row r obs lease rejected repairs hrow hplanning =>
    refine .inr (hset (f := fun r => r.extended lease) rfl hrow hrow' rfl rfl fun h => ?_)
    have hstatus : row.status = .succeeded := h
    rw [hplanning] at hstatus
    cases hstatus

/-- A turn after a step is an old one, or the one linked now to a task of its run's tenant. -/
theorem Effect.turn_cases (he : Effect P s t) : t.turns = s.turns ∨ ∃ row task l,
    row ∈ s.runs ∧ row.status = .planning ∧ t.turns = s.turns ++ [l] ∧ l.run = row.id ∧
      l.tenant = row.tenant ∧ l.task = task ∧
      (∀ l' ∈ s.turns, ¬ (l'.tenant = row.tenant ∧ l'.task = task)) ∧
      ∃ channel eventKey, (task, row.tenant, channel, eventKey) ∈ t.view.owners := by
  cases he with
  | wrote hwrote =>
    cases hwrote with
    | linked hrow hplanning _ _ hsubmit hnew =>
      have howner := submit_owner hsubmit
      exact .inr ⟨_, _, _, (row?_eq_some hrow).1, hplanning, rfl, rfl, rfl, rfl,
        fun l' hl' => (hnew l' hl').2, _, _, howner⟩
    | @stopped row _ _ status _ _ reason actor =>
      obtain ⟨db, status', reason', -, heq⟩ := stop_eq s row status reason actor
      rw [heq]
      exact .inl rfl
    | _ => exact .inl rfl
  | _ => exact .inl rfl

theorem Effect.tied (hb : Budgeted s) (ho : Orderly s.view) (h : Tied s) (he : Effect P s t) :
    Tied t where
  tasks l hl := by
    have hold : ∀ l ∈ s.turns, ∃ channel eventKey,
        (l.task, l.tenant, channel, eventKey) ∈ t.view.owners := by
      intro l hl
      obtain ⟨channel, eventKey, hmem⟩ := h.tasks l hl
      exact ⟨channel, eventKey, (he.later ho).owners _ hmem⟩
    rcases he.turn_cases with heq | ⟨row, task, l', -, -, heq, -, htenant, htask, -, howner⟩
    · exact hold l (heq ▸ hl)
    · rw [heq] at hl
      rcases List.mem_append.1 hl with hl | hl
      · exact hold l hl
      · obtain rfl := List.mem_singleton.1 hl
        rw [htask, htenant]
        exact howner
  unique := by
    rcases he.turn_cases with heq | ⟨row, task, l', -, -, heq, -, htenant, htask, hnew, -⟩
    · rw [heq]
      exact h.unique
    · rw [heq]
      refine h.unique.insert fun l hl hkey => hnew l hl ?_
      rw [Prod.mk.injEq, htenant, htask] at hkey
      exact hkey
  tenants l hl row' hrow' hid := by
    have hold : ∀ l ∈ s.turns, row'.id = l.run → row'.tenant = l.tenant := by
      intro l hl hid
      rcases he.row_cases hb hrow' with ⟨hfresh, -⟩ | ⟨row, hrow, hid', htenant, -⟩
      · obtain ⟨r, hr, hrun⟩ := hb.owned l hl
        have hlt := hb.minted r hr
        rw [hrun, ← hid, hfresh] at hlt
        exact absurd hlt (Nat.lt_irrefl _)
      · rw [htenant]
        exact h.tenants l hl row hrow (hid'.symm.trans hid)
    rcases he.turn_cases with heq | ⟨row, task, l', hrow, -, heq, hrun, htenant, -⟩
    · exact hold l (heq ▸ hl) hid
    · rw [heq] at hl
      rcases List.mem_append.1 hl with hl | hl
      · exact hold l hl hid
      · obtain rfl := List.mem_singleton.1 hl
        rcases he.row_cases hb hrow' with ⟨hfresh, -⟩ | ⟨row₀, hrow₀, hid', htenant', -⟩
        · have hlt := hb.minted row hrow
          rw [← hrun, ← hid, hfresh] at hlt
          exact absurd hlt (Nat.lt_irrefl _)
        · obtain rfl : row₀ = row := hb.keyed.eq_of_key hrow₀ hrow (hid'.symm.trans (hid.trans hrun))
          exact htenant'.trans htenant.symm
  cited row' hrow' hsucceeded := by
    rcases he.row_cases hb hrow' with ⟨-, hne⟩ | ⟨row, hrow, -, -, hcases⟩
    · exact absurd hsucceeded hne
    · rcases hcases hsucceeded with rfl | hcited
      · exact (h.cited _ hrow hsucceeded).later (he.later ho)
      · exact hcited.later (he.later ho)

end Evidence

/-! ### Runs -/

section Runs

variable {P : Platform} {τs τs' : List (Transition State Label)} {s t : State} {row : RunRow}

/-- The invariant of the whole loop. -/
structure Linked (s : State) : Prop where
  budgeted : Budgeted s
  orderly : Orderly s.view
  tied : Tied s

theorem Step.linked {l : Label} (h : Linked s) (hs : Step P s l t) : Linked t := by
  refine ⟨hs.effect.budgeted h.budgeted, ?_, hs.effect.tied h.budgeted h.orderly h.tied⟩
  obtain ⟨ops, hview⟩ := hs.effect.view
  have hrun := ((Run.nil : Run (Engine.Step P) s.view [] _).calls ops).snoc
    (e := .elsewhere t.view.events t.view.runs t.view.agentTurns) rfl
  rw [← hview] at hrun
  exact reachable_orderly h.orderly hrun

theorem linked_empty : Linked {} := ⟨budgeted_empty, orderly_empty, tied_empty⟩

theorem reachable_linked (h : Run (Step P) {} τs s) : Linked s :=
  h.invariant linked_empty fun _ _ _ => Step.linked

/-- The step an engine operation of the loop's system hands out. -/
def handedOut (P : Platform) (τ : Transition State Label) : Option StepSpec :=
  match τ.label with
  | .engine op => if offLoop op then Engine.handedOut P ⟨τ.src.view, op, τ.dst.view⟩ else none
  | _ => none

/-- While a run is not waiting for it, no step of a task of the run is handed out. -/
theorem not_handedOut (h : Linked s) (hrow : row ∈ s.runs) (hterminal : active row.status = false)
    {l : TurnRow} (hl : l ∈ s.turns) (hrun : l.run = row.id) {τ : Transition State Label}
    (hsrc : τ.src = s) {spec : StepSpec} (hspec : handedOut P τ = some spec) : spec.task ≠ l.task := by
  intro htask
  subst hsrc
  -- the engine hands the step out in the database under the loop
  obtain ⟨op, token, db', he⟩ : ∃ op token db', Engine.Effect P τ.src.view op (.claimed spec token) db' := by
    unfold handedOut at hspec
    split at hspec
    · rename_i op hlabel
      split at hspec
      · unfold Engine.handedOut at hspec
        split at hspec
        · rename_i db' spec' token hexec
          obtain rfl := Option.some.inj hspec
          exact ⟨op, token, db', exec_effect hexec⟩
        · cases hspec
      · cases hspec
    · cases hspec
  obtain ⟨env, hparent⟩ := he.parent h.orderly
  obtain ⟨⟨r, hr, hrspec, -⟩, -⟩ := he.handed h.orderly
  -- its task belongs to the tenant of the turn
  have htenant : spec.tenant = l.tenant := by
    obtain ⟨t, ht, hid, htenant⟩ := h.orderly.wf.owned r hr
    obtain ⟨channel, eventKey, howner⟩ := h.tied.tasks l hl
    obtain ⟨t', ht', hkey⟩ := List.mem_map.1 howner
    obtain ⟨hid', hkey'⟩ := Prod.mk.inj hkey
    have hsame : t' = t := h.orderly.wf.tasks.eq_of_key ht' ht
      (hid'.trans (htask.symm.trans (hid.trans (congrArg StepSpec.task hrspec)).symm))
    have ht' : t'.tenant = l.tenant := (Prod.mk.inj hkey').1
    rw [← ht', hsame, htenant, ← hrspec]
    rfl
  -- the engine's guard finds the turn, and its run does not wait
  rw [htenant, htask] at hparent
  unfold Env.requireTaskParent at hparent
  split at hparent
  · rename_i hnone
    exact List.find?_eq_none.1 hnone _ (List.mem_map_of_mem hl) (by simp)
  · rename_i found hfound
    have hfound' := List.find?_some hfound
    simp only [Bool.and_eq_true, decide_eq_true_eq] at hfound'
    obtain ⟨l', hl', rfl⟩ := List.mem_map.1 (List.mem_of_find?_eq_some hfound)
    obtain rfl : l' = l := h.tied.unique.eq_of_key hl' hl (Prod.ext hfound'.1 hfound'.2)
    split at hparent
    · rename_i hnone
      refine List.find?_eq_none.1 hnone _ (List.mem_map_of_mem hrow) ?_
      simp [hrun, h.tied.tenants l' hl row hrow hrun.symm]
    · rename_i r' hr'
      have hr := List.find?_some hr'
      simp only [Bool.and_eq_true, decide_eq_true_eq] at hr
      obtain ⟨row', hrow', rfl⟩ := List.mem_map.1 (List.mem_of_find?_eq_some hr')
      obtain rfl : row' = row := h.budgeted.keyed.eq_of_key hrow' hrow (hr.1.trans hrun)
      have hwaiting := (ensure_eq_ok.1 hparent).1
      rw [hwaiting] at hterminal
      cases hterminal

/-- From `s₀` on, the terminal run `row` and its turns stay. -/
structure Over (s₀ : State) (row : RunRow) (s : State) : Prop where
  linked : Linked s
  kept : row ∈ s.runs
  turns : ∀ l : TurnRow, l.run = row.id → (l ∈ s.turns ↔ l ∈ s₀.turns)

theorem Step.over {l : Label} {s₀ : State} (hterminal : active row.status = false)
    (h : Over s₀ row s) (hs : Step P s l t) : Over s₀ row t := by
  refine ⟨hs.linked h.linked, ?_, fun l hl => ?_⟩
  · obtain ⟨row', hrow', -, heq, -⟩ := hs.effect.run_kept h.linked.budgeted h.kept
    rcases heq with rfl | hactive
    · exact hrow'
    · rw [hterminal] at hactive
      cases hactive
  · rcases hs.effect.turn_cases with heq | ⟨row', task, l', hrow', hplanning, heq, hrun, -⟩
    · rw [heq]
      exact h.turns l hl
    · -- a turn is linked by a run that plans, which this one does not
      have hne : l ≠ l' := by
        rintro rfl
        obtain rfl : row' = row :=
          h.linked.budgeted.keyed.eq_of_key hrow' h.kept (hrun.symm.trans hl)
        rw [active_of_planning hplanning] at hterminal
        cases hterminal
      rw [heq, List.mem_append, List.mem_singleton, or_iff_left hne]
      exact h.turns l hl

/-- **A terminal agent run is absorbing and inert.** Once a run is over it keeps its row, no step of
any of its tasks is handed out again, and where it succeeded it cites a non-empty list of distinct
steps, each a succeeded step of one of its own turns. -/
theorem terminal_run (h : Run (Step P) {} τs s) (hrow : row ∈ s.runs)
    (hterminal : active row.status = false) (h' : Run (Step P) s τs' t) :
    (∀ row' ∈ t.runs, row'.id = row.id → row' = row) ∧ row ∈ t.runs ∧
      (∀ τ ∈ τs', ∀ spec, handedOut P τ = some spec →
        ∀ l ∈ t.turns, l.run = row.id → spec.task ≠ l.task) ∧
      (row.status = .succeeded → row.evidence ≠ [] ∧ row.evidence.Nodup ∧
        ∀ e ∈ row.evidence, ∃ l ∈ t.turns, l.run = row.id ∧ ∃ st ∈ t.db.steps,
          st.task = l.task ∧ st.status = .succeeded ∧ e = evidenceId st.id) := by
  have h₀ : Over s row s := ⟨reachable_linked h, hrow, fun _ _ => Iff.rfl⟩
  have hover : Over s row t := h'.invariant h₀ fun _ _ _ => Step.over hterminal
  refine ⟨fun row' hrow' hid => ?_, hover.kept, fun τ hτ spec hspec l hl hrun => ?_,
    fun hsucceeded => ?_⟩
  · exact hover.linked.budgeted.keyed.eq_of_key hrow' hover.kept hid
  · obtain ⟨-, hsrc⟩ := h'.always h₀ (fun _ _ _ => Step.over hterminal) hτ
    have hl' : l ∈ τ.src.turns := (hsrc.turns l hrun).2 ((hover.turns l hrun).1 hl)
    exact not_handedOut hsrc.linked hsrc.kept hterminal hl' hrun rfl hspec
  · have hcited := hover.linked.tied.cited row hover.kept hsucceeded
    exact ⟨hcited.nonempty, hcited.distinct, hcited.steps⟩

theorem terminal_run_sample :
    ∃ row ∈ sampleState.runs, row.status = .succeeded ∧ row.evidence = ["step:1"] ∧
      ∃ l ∈ sampleState.turns, l.run = row.id ∧ ∃ st ∈ sampleState.db.steps,
        st.task = l.task ∧ st.status = .succeeded ∧ "step:1" = evidenceId st.id := by
  have hrow : ∃ row ∈ sampleState.runs, row.status = .succeeded ∧ row.evidence = ["step:1"] := by
    decide +kernel
  obtain ⟨row, hmem, hstatus, hevidence⟩ := hrow
  have hterminal : active row.status = false := by
    rw [hstatus]
    rfl
  obtain ⟨-, -, -, hcited⟩ := terminal_run sampleState_run hmem hterminal .nil
  refine ⟨row, hmem, hstatus, hevidence, (hcited hstatus).2.2 _ ?_⟩
  rw [hevidence]
  exact List.mem_singleton_self _

end Runs

end AgentPlatform.Agent
