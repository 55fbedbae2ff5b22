import AgentPlatform.Agent.Requests
import AgentPlatform.Supervisor.Route

/-!
# The routing ledger

The delegated run is created under a key made of the request key, so a request has at most one run
whatever its calls do. The row of the request is another matter: `_record` overwrites what it finds. A
call that found no row at its lookup may be overtaken by another call under its key; where it is declined
then, the row loses the run it recorded (`overtaken_call_declines`), and nowhere else
(`one_run_per_request`).
-/

namespace AgentPlatform.Supervisor

open Outcome Engine Table Runs
open Agent (Requested)

/-- The runs delegated for a request. -/
def delegated (s : State) (k : String × String) : List Agent.RunRow :=
  s.agent.runs.filter fun r => decide (r.request = runRequest k)

/-- A row with a run still has it, under the same status. -/
def Kept (routes routes' : List RouteRow) : Prop :=
  ∀ r ∈ routes, ∀ run, r.run = some run →
    ∃ r' ∈ routes', r'.key = r.key ∧ r'.run = some run ∧ r'.status = r.status

/-- The request of a call that is past its lookup and has no outcome yet. -/
def Stage.request? : Stage → Option Request
  | .looked q | .active q | .matching q | .chosen q _ _ | .counted q _ _ | .opening q _ _
  | .recording q _ _ => some q
  | _ => none

/-- The call found no row at its lookup, and by now another call under its key has recorded a run. -/
def Overtaken (s : State) (w : ℕ) : Prop :=
  ∃ q, (s.callers w).request? = some q ∧ ∃ r ∈ s.routes, r.key = q.key ∧ r.run ≠ none

/-- The call is declined: it is about to write a row without a run. -/
def Stage.declined : Stage → Bool
  | .recording _ row _ => row.run.isNone
  | _ => false

/-- No call that was overtaken is declined. -/
def Spared (s : State) : Label → Prop
  | .record w => (s.callers w).declined = true → ¬ Overtaken s w
  | _ => True

/-! ### Calls -/

variable {q : Request}

theorem one_le_maxHops {c : Call} (h : c.validate = .ok q) : 1 ≤ q.maxHops := by
  simp only [Call.validate, bind_eq_ok, pure_eq_ok] at h
  obtain ⟨-, -, -, -, actor, -, hops, hhops, -, -, -, -, sectionId, -, rfl⟩ := h
  unfold Call.hops at hhops
  split at hhops
  · obtain rfl := pure_eq_ok.1 hhops
    exact le_refl defaultMaxHops
  · simp only [bind_eq_ok, exists_unit, pure_eq_ok, Coordinator.bounded, ensure_eq_ok] at hhops
    obtain ⟨hbound, rfl⟩ := hhops
    exact hbound.1

/-- The row a call without a run may be about to write. -/
def Plain (stage : Stage) : Prop :=
  ∀ q row raises, stage = .recording q row raises → row.key = q.key ∧ row.run = none

theorem plain_of_ne {stage : Stage} (h : ∀ q row raises, stage ≠ .recording q row raises) :
    Plain stage :=
  fun q row raises heq => absurd heq (h q row raises)

variable {matched : String}

theorem plain_decline {sectionId agent reason : String} {status : RouteStatus} {raises : Option Err} :
    Plain (.recording q (q.decline sectionId agent matched status reason) raises) := by
  intro q' row raises' h
  cases h
  exact ⟨rfl, rfl⟩

theorem plain_choice {c : Candidate} : Plain (choice q c matched) := by
  unfold choice
  split
  · exact plain_decline
  · exact plain_of_ne (by simp)

theorem plain_chooseSection {candidates : List Candidate} : Plain (chooseSection q candidates) := by
  unfold chooseSection
  split
  · exact plain_of_ne (by simp)
  split
  · exact plain_of_ne (by simp)
  split
  · exact plain_of_ne (by simp)
  · exact plain_choice

theorem plain_pickSection {fold : String → String} {candidates : List Candidate} :
    Plain (pickSection fold q candidates) := by
  unfold pickSection
  split
  · exact plain_decline
  · exact plain_choice

theorem plain_capHops {routes : List RouteRow} {c : Candidate} : Plain (capHops routes q c matched) := by
  unfold capHops
  dsimp only
  split
  · exact plain_decline
  · exact plain_of_ne (by simp)

/-! ### What one step can do -/

/-- What a label can do. -/
inductive Effect (P : Platform) (s : State) : Label → State → Prop
  | idle (l : Label) : (∀ w q row raises, l = .record w → s.callers w ≠ .recording q row raises) →
      Effect P s l s
  | moved {l : Label} (w : ℕ) {stage : Stage} (hl : ∀ w, l ≠ .record w) (hstage : Plain stage) :
      Effect P s l (s.goto w stage)
  | created {w : ℕ} {env : Env} {q : Request} {c : Candidate} {matched : String} {agent : Agent.State}
      {run : Uuid} (hw : s.callers w = .opening q c matched)
      (hcreate : openRun P env s.agent q c.agent = .ok (agent, run)) :
      Effect P s (.create w env)
        (State.goto { s with agent := agent } w (.recording q (q.delegate c matched run) none))
  | recorded {w : ℕ} {q : Request} {row : RouteRow} {raises : Option Err} {stage : Stage}
      (hw : s.callers w = .recording q row raises) (hstage : Plain stage) :
      Effect P s (.record w) (State.goto { s with routes := recordRoute s.routes row } w stage)
  | declared {l : Label} (sections : List SectionRow) (hl : ∀ w, l ≠ .record w) :
      Effect P s l { s with sections := sections }
  | loop (l : Agent.Label) : Effect P s (.loop l) { s with agent := s.agent.after P l }

section Steps

variable {P : Platform} {fold : String → String} {s t : State} {l : Label}

theorem Effect.raise {w : ℕ} {e : Err} (hl : ∀ w, l ≠ .record w) : Effect P s l (s.raise w e) :=
  .moved w hl (plain_of_ne (by simp))

/-- **What a step can do.** -/
theorem Step.effect (h : Step P fold s l t) : Effect P s l t := by
  obtain rfl := h
  delta State.after
  cases l with
  | route w c =>
    dsimp only
    split
    · split
      · exact .moved w (by simp) (plain_of_ne (by simp))
      · exact .raise (by simp)
    · split
      · exact .moved w (by simp) (plain_of_ne (by simp))
      · exact .raise (by simp)
    · exact .idle _ (by simp)
  | look w =>
    dsimp only
    split
    · split
      · exact .moved w (by simp) (plain_of_ne (by simp))
      · split
        · exact .moved w (by simp) (plain_of_ne (by simp))
        · exact .raise (by simp)
    · exact .idle _ (by simp)
  | authorise w env =>
    dsimp only
    split
    · split
      · exact .moved w (by simp) (plain_of_ne (by simp))
      · exact .raise (by simp)
    · exact .idle _ (by simp)
  | choose w env =>
    dsimp only
    split
    · exact .moved w (by simp) plain_chooseSection
    · exact .idle _ (by simp)
  | pick w env =>
    dsimp only
    split
    · exact .moved w (by simp) plain_pickSection
    · exact .idle _ (by simp)
  | count w =>
    dsimp only
    split
    · exact .moved w (by simp) plain_capHops
    · exact .idle _ (by simp)
  | policy w env =>
    dsimp only
    split
    · split
      · exact .raise (by simp)
      · split
        · exact .moved w (by simp) (plain_of_ne (by simp))
        · exact .raise (by simp)
    · exact .idle _ (by simp)
  | create w env =>
    dsimp only
    split
    · rename_i q c matched hw
      unfold createOne
      split
      · exact .created hw ‹_›
      · split
        · exact .moved w (by simp) plain_decline
        · exact .raise (by simp)
    · exact .idle _ (by simp)
  | record w =>
    dsimp only
    split
    · rename_i q row raises hw
      refine .recorded hw (plain_of_ne fun _ _ _ => ?_)
      split <;> simp
    · rename_i hw
      refine .idle _ fun w' q row raises hl => ?_
      obtain rfl := Label.record.inj hl
      exact hw q row raises
  | reread w =>
    dsimp only
    split
    · exact .moved w (by simp) (plain_of_ne (by simp))
    · exact .idle _ (by simp)
  | crash w => exact .moved w (by simp) (plain_of_ne (by simp))
  | declareSection env tenant id agent actor title keywords enabled => exact .declared _ (by simp)
  | loop l => exact .loop l

theorem openRun_step {env : Env} {q : Request} {target : String} {a b : Agent.State} {run : Uuid}
    (h : openRun P env a q target = .ok (b, run)) : ∃ l, Agent.Step P a l b := by
  refine ⟨.create env q.tenant (runKeyPrefix ++ q.requestKey) target (strip q.question) q.actor
    q.maxSteps q.maxSeconds Agent.dashboardChannel, ?_⟩
  change b = commit a (openRun P env a q target)
  rw [h, commit_ok]

end Steps

/-! ### The invariant -/

/-- A row with a run is `routed`, and the run is the one of its request. -/
def Honest (a : Agent.State) (r : RouteRow) : Prop :=
  ∀ run, r.run = some run → r.status = .routed ∧ Requested a run (runRequest r.key)

/-- The recorded runs, and the ones about to be recorded, are the runs of their requests. -/
structure Sound (s : State) : Prop where
  requests : Keyed Agent.RunRow.request s.agent.runs
  keyed : Keyed RouteRow.key s.routes
  rows : ∀ r ∈ s.routes, Honest s.agent r
  writing : ∀ w q row raises, s.callers w = .recording q row raises →
    row.key = q.key ∧ Honest s.agent row

theorem sound_empty : Sound {} where
  requests := keyed_nil _
  keyed := keyed_nil _
  rows _ hr := absurd hr List.not_mem_nil
  writing _ _ _ _ h := by cases h

section Records

variable {routes : List RouteRow} {new : RouteRow}

theorem recordRoute_cases (routes : List RouteRow) (new : RouteRow) :
    (recordRoute routes new = routes ++ [new] ∧ ∀ r ∈ routes, r.key ≠ new.key) ∨
      ∃ f : RouteRow → RouteRow,
        recordRoute routes new = Table.update (fun r => decide (r.key = new.key)) f routes ∧
          ∀ r, (f r).key = r.key ∧ (f r).run = new.run ∧ (f r).status = new.status := by
  unfold recordRoute
  split
  · rename_i hnone
    exact .inl ⟨rfl, get_eq_none.1 hnone⟩
  · exact .inr ⟨_, rfl, fun r => ⟨rfl, rfl, rfl⟩⟩

theorem recordRoute_keyed (h : Keyed RouteRow.key routes) : Keyed RouteRow.key (recordRoute routes new) := by
  rcases recordRoute_cases routes new with ⟨heq, hnone⟩ | ⟨f, heq, hf⟩
  · rw [heq]
    exact h.insert hnone
  · rw [heq]
    exact h.update fun r => (hf r).1

theorem recordRoute_honest {a : Agent.State} (h : ∀ r ∈ routes, Honest a r) (hnew : Honest a new) :
    ∀ r ∈ recordRoute routes new, Honest a r := by
  intro r hr
  rcases recordRoute_cases routes new with ⟨heq, -⟩ | ⟨f, heq, hf⟩
  · rw [heq] at hr
    rcases List.mem_append.1 hr with hr | hr
    · exact h r hr
    · obtain rfl := List.mem_singleton.1 hr
      exact hnew
  · rw [heq] at hr
    obtain ⟨x, hx, rfl⟩ := mem_update.1 hr
    split
    · rename_i hkey
      obtain ⟨hfkey, hfrun, hfstatus⟩ := hf x
      intro run hrun
      obtain ⟨hstatus, hreq⟩ := hnew run (hfrun.symm.trans hrun)
      rw [hfkey, of_decide_eq_true hkey]
      exact ⟨hfstatus.trans hstatus, hreq⟩
    · exact h x hx

variable {r : RouteRow}

theorem recordRoute_run (hr : r ∈ recordRoute routes new) (hkey : r.key = new.key) : r.run = new.run := by
  rcases recordRoute_cases routes new with ⟨heq, hnone⟩ | ⟨f, heq, hf⟩
  · rw [heq] at hr
    rcases List.mem_append.1 hr with hr | hr
    · exact absurd hkey (hnone r hr)
    · rw [List.mem_singleton.1 hr]
  · rw [heq] at hr
    obtain ⟨x, hx, rfl⟩ := mem_update.1 hr
    split
    · exact (hf x).2.1
    · rename_i hne
      rw [if_neg hne] at hkey
      exact absurd (decide_eq_true hkey) hne

theorem mem_recordRoute_of_ne (hr : r ∈ routes) (hne : r.key ≠ new.key) : r ∈ recordRoute routes new := by
  rcases recordRoute_cases routes new with ⟨heq, -⟩ | ⟨f, heq, -⟩
  · rw [heq]
    exact List.mem_append_left _ hr
  · rw [heq]
    exact mem_update_of_not hr (decide_eq_false hne)

theorem exists_recordRoute (hr : r ∈ routes) (hkey : r.key = new.key) :
    ∃ r' ∈ recordRoute routes new, r'.key = r.key ∧ r'.run = new.run ∧ r'.status = new.status := by
  rcases recordRoute_cases routes new with ⟨-, hnone⟩ | ⟨f, heq, hf⟩
  · exact absurd hkey (hnone r hr)
  · refine ⟨f r, ?_, hf r⟩
    rw [heq]
    exact mem_update_of_pos hr (decide_eq_true hkey)

end Records

theorem Kept.refl (routes : List RouteRow) : Kept routes routes :=
  fun r hr _ hrun => ⟨r, hr, rfl, hrun, rfl⟩

theorem Kept.trans {routes routes' routes'' : List RouteRow} (h : Kept routes routes')
    (h' : Kept routes' routes'') : Kept routes routes'' := by
  intro r hr run hrun
  obtain ⟨r', hr', hkey, hrun', hstatus⟩ := h r hr run hrun
  obtain ⟨r'', hr'', hkey', hrun'', hstatus'⟩ := h' r' hr' run hrun'
  exact ⟨r'', hr'', hkey'.trans hkey, hrun'', hstatus'.trans hstatus⟩

section Soundness

variable {P : Platform} {fold : String → String} {s t : State} {l : Label}

theorem Honest.step {a b : Agent.State} {l : Agent.Label} {r : RouteRow} (hstep : Agent.Step P a l b)
    (h : Honest a r) : Honest b r :=
  fun run hrun => ⟨(h run hrun).1, hstep.requested (h run hrun).2⟩

theorem Sound.agent (h : Sound s) {a : Agent.State} {l : Agent.Label} (hstep : Agent.Step P s.agent l a) :
    Sound { s with agent := a } where
  requests := hstep.keyed h.requests
  keyed := h.keyed
  rows r hr := (h.rows r hr).step hstep
  writing w q row raises hw :=
    ⟨(h.writing w q row raises hw).1, (h.writing w q row raises hw).2.step hstep⟩

theorem Sound.goto (h : Sound s) {w : ℕ} {stage : Stage}
    (hstage : ∀ q row raises, stage = .recording q row raises → row.key = q.key ∧ Honest s.agent row) :
    Sound (s.goto w stage) :=
  { h with
    writing v q row raises hv := by
      have hstep : Function.update s.callers w stage v = .recording q row raises := hv
      by_cases hvw : v = w
      · subst hvw
        rw [Function.update_self] at hstep
        exact hstage q row raises hstep
      · rw [Function.update_of_ne hvw] at hstep
        exact h.writing v q row raises hstep }

theorem Sound.plain (h : Sound s) {w : ℕ} {stage : Stage} (hstage : Plain stage) :
    Sound (s.goto w stage) := by
  refine h.goto fun q row raises heq => ?_
  obtain ⟨hkey, hrun⟩ := hstage q row raises heq
  refine ⟨hkey, fun run hsome => ?_⟩
  rw [hrun] at hsome
  cases hsome

/-- **Every step keeps the invariant.** -/
theorem Step.sound (h : Sound s) (hs : Step P fold s l t) : Sound t := by
  cases hs.effect with
  | idle => exact h
  | moved w _ hstage => exact h.plain hstage
  | @created w env q c matched agent run hw hcreate =>
    obtain ⟨l', hstep⟩ := openRun_step hcreate
    refine (h.agent hstep).goto fun q' row raises heq => ?_
    cases heq
    refine ⟨rfl, fun run' hrun => ?_⟩
    obtain rfl := Option.some.inj hrun
    exact ⟨rfl, Agent.create_requested hcreate⟩
  | @recorded w q row raises stage hw hstage =>
    have hrow := (h.writing w q row raises hw).2
    have ht : Sound { s with routes := recordRoute s.routes row } :=
      { requests := h.requests
        keyed := recordRoute_keyed h.keyed
        rows := recordRoute_honest h.rows hrow
        writing := h.writing }
    exact ht.plain hstage
  | declared sections => exact ⟨h.requests, h.keyed, h.rows, h.writing⟩
  | loop l =>
    have hstep : Agent.Step P s.agent l (s.agent.after P l) := rfl
    exact h.agent hstep

/-- **The row of a request keeps its run in a step** exactly if the step does not decline an overtaken
call. -/
theorem Step.kept_iff (h : Sound s) (hs : Step P fold s l t) : Kept s.routes t.routes ↔ Spared s l := by
  cases hs.effect with
  | idle l hl =>
    refine ⟨fun _ => ?_, fun _ => Kept.refl _⟩
    unfold Spared
    split
    · rename_i w
      intro hdeclined
      unfold Stage.declined at hdeclined
      split at hdeclined
      · rename_i q row raises hw
        exact absurd hw (hl w q row raises rfl)
      · cases hdeclined
    · trivial
  | moved w hl =>
    refine ⟨fun _ => ?_, fun _ => Kept.refl _⟩
    unfold Spared
    split
    · exact absurd rfl (hl _)
    · trivial
  | created => exact ⟨fun _ => trivial, fun _ => Kept.refl _⟩
  | @recorded w q row raises stage hw =>
    obtain ⟨hkey, hhonest⟩ := h.writing w q row raises hw
    constructor
    · intro hkept hdeclined
      rw [hw] at hdeclined
      have hnone : row.run = none := Option.isNone_iff_eq_none.1 hdeclined
      rintro ⟨q', hq, r, hr, hrkey, hrun⟩
      rw [hw] at hq
      obtain rfl := Option.some.inj hq
      obtain ⟨run, hrun⟩ := Option.ne_none_iff_exists'.1 hrun
      obtain ⟨r', hr', hrkey', hrun', -⟩ := hkept r hr run hrun
      have hlost := recordRoute_run hr' (hrkey'.trans (hrkey.trans hkey.symm))
      rw [hrun', hnone] at hlost
      cases hlost
    · intro hspared r hr run hrun
      by_cases hrkey : r.key = row.key
      · cases hnew : row.run with
        | none =>
          have hdeclined : (s.callers w).declined = true := by simp [hw, Stage.declined, hnew]
          have hrequest : (s.callers w).request? = some q := by simp [hw, Stage.request?]
          exact absurd ⟨q, hrequest, r, hr, hrkey.trans hkey, by simp [hrun]⟩ (hspared hdeclined)
        | some run' =>
          -- both runs are the run of the request
          obtain ⟨hstatus, hreq⟩ := h.rows r hr run hrun
          obtain ⟨hstatus', hreq'⟩ := hhonest run' hnew
          rw [hrkey] at hreq
          obtain rfl := hreq.unique h.requests hreq'
          obtain ⟨r', hr', hrkey', hrun', hst⟩ := exists_recordRoute hr hrkey
          exact ⟨r', hr', hrkey', hrun'.trans hnew, hst.trans (hstatus'.trans hstatus.symm)⟩
      · exact ⟨r, mem_recordRoute_of_ne hr hrkey, rfl, hrun, rfl⟩
  | declared sections hl =>
    refine ⟨fun _ => ?_, fun _ => Kept.refl _⟩
    unfold Spared
    split
    · exact absurd rfl (hl _)
    · trivial
  | loop => exact ⟨fun _ => trivial, fun _ => Kept.refl _⟩

theorem Sound.delegated_le (h : Sound s) (k : String × String) : (delegated s k).length ≤ 1 := by
  rw [delegated, ← List.countP_eq_length_filter]
  exact h.requests.countP_le fun r _ hr => of_decide_eq_true hr

end Soundness

/-! ### Runs -/

section Runs

variable {P : Platform} {fold : String → String} {τs : List (Transition State Label)} {s : State}

theorem reachable_sound (h : Run (Step P fold) {} τs s) : Sound s :=
  h.invariant sound_empty fun _ _ _ => Step.sound

/-- **One run per request.** In any run, with any number of calls in any interleaving: no more runs are
delegated for a request than its call may delegate; a row that records a run is `routed`, and records the
run of its request; and every row keeps the run it records in every step exactly if no overtaken call is
declined. In such a run it keeps it to the end. -/
theorem one_run_per_request (h : Run (Step P fold) {} τs s) :
    (∀ c q, Call.validate c = .ok q → ((delegated s q.key).length : ℤ) ≤ q.maxHops) ∧
    (∀ r ∈ s.routes, ∀ run, r.run = some run →
      r.status = .routed ∧ ∃ x ∈ delegated s r.key, x.id = run) ∧
    ((∀ τ ∈ τs, Kept τ.src.routes τ.dst.routes) ↔ ∀ τ ∈ τs, Spared τ.src τ.label) ∧
    ((∀ τ ∈ τs, Spared τ.src τ.label) → ∀ τ ∈ τs, Kept τ.dst.routes s.routes) := by
  have hsound := reachable_sound h
  have hstep := fun {τ} (hτ : τ ∈ τs) => h.always sound_empty (fun _ _ _ => Step.sound) hτ
  refine ⟨?_, ?_, ?_, ?_⟩
  · intro c q hq
    have hone := hsound.delegated_le q.key
    have hhops := one_le_maxHops hq
    omega
  · intro r hr run hrun
    obtain ⟨hstatus, x, hx, hid, hreq⟩ := hsound.rows r hr run hrun
    exact ⟨hstatus, x, List.mem_filter.2 ⟨hx, decide_eq_true hreq⟩, hid⟩
  · constructor
    · exact fun hkept τ hτ => ((hstep hτ).1.kept_iff (hstep hτ).2).1 (hkept τ hτ)
    · exact fun hspared τ hτ => ((hstep hτ).1.kept_iff (hstep hτ).2).2 (hspared τ hτ)
  · intro hspared τ hτ
    have hrun := (h.guard hspared).strengthen (I := Sound) sound_empty fun _ _ _ hi hs => hs.1.sound hi
    refine (hrun.later (q := fun s t => Kept s.routes t.routes) ?_ ?_ ?_ hτ).2
    · exact fun s => Kept.refl _
    · exact fun s t u => Kept.trans
    · exact fun s l t hs => (hs.1.1.kept_iff hs.2).2 hs.1.2

/-! Two calls under one request key. -/

def sampleCall : Call := { tenant := "acme", requestKey := "q1", question := "late?", actor := "dana"
                           sectionId := "logistics" }

/-- The label, its caller and its environment as one call gives them. -/
def callTo (w : ℕ) : List Label :=
  [.authorise w (sampleEnv 1), .choose w (sampleEnv 1), .count w, .policy w (sampleEnv 1),
    .create w (sampleEnv 1), .record w, .reread w]

/-- Both calls look before either records; the first one is routed. -/
def sampleLabels : List Label :=
  .declareSection (sampleEnv 0) "acme" "logistics" "clerk" "dana" "Logistics" [] true ::
    .route 0 sampleCall :: .route 1 sampleCall :: .look 0 :: .look 1 :: callTo 0

/-- The second one meets the hop cap. -/
def overtakenLabels : List Label :=
  sampleLabels ++ [.authorise 1 (sampleEnv 1), .choose 1 (sampleEnv 1), .count 1]

def sampleState (ls : List Label) : State := ls.foldl (State.after samplePlatform id) {}

def sampleTrace (ls : List Label) : List (Transition State Label) :=
  trace (State.after samplePlatform id) {} ls

theorem sample_run (ls : List Label) :
    Run (Step samplePlatform id) {} (sampleTrace ls) (sampleState ls) :=
  Run.nil.calls ls

theorem sample_request : Call.validate sampleCall = .ok
    ⟨"acme", "q1", "late?", "dana", "logistics", 1, 6, 1800, false⟩ := by
  rfl

theorem one_run_per_request_sample :
    (sampleState sampleLabels).routes.map RouteRow.run = [some 0] ∧
    ((delegated (sampleState sampleLabels) ("acme", "q1")).length : ℤ) ≤ 1 :=
  ⟨by decide +kernel, (one_run_per_request (sample_run sampleLabels)).1 _ _ sample_request⟩

/-- The row that recorded the run of the first call ends as the refusal of the second. -/
theorem overtaken_call_declines :
    ∃ (P : Platform) (fold : String → String) (τs : List (Transition State Label)) (s : State),
      Run (Step P fold) {} τs s ∧ ∃ τ ∈ τs, ¬ Kept τ.src.routes τ.dst.routes := by
  have hrun := (sample_run overtakenLabels).snoc (e := .record 1) rfl
  refine ⟨samplePlatform, id, _, _, hrun, _, List.mem_append_right _ List.mem_cons_self, fun hkept => ?_⟩
  have hrouted : ∃ r ∈ (sampleState overtakenLabels).routes, r.run = some 0 := by decide +kernel
  have hlost : ∀ r ∈ ((sampleState overtakenLabels).after samplePlatform id (.record 1)).routes,
      r.run = none := by
    decide +kernel
  obtain ⟨r, hr, hsome⟩ := hrouted
  obtain ⟨r', hr', -, hkeeps, -⟩ := hkept r hr 0 hsome
  have hnone := hlost r' hr'
  rw [hkeeps] at hnone
  cases hnone

end Runs

end AgentPlatform.Supervisor
