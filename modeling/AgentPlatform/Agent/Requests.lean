import AgentPlatform.Agent.Budgets

/-!
# The requests of the runs

A run keeps its identifier, its tenant and the request key it was created under (`Step.requests`). Since
`create` opens a run only where the tenant has none under the key, a request has at most one run
(`reachable_requests`).
-/

namespace AgentPlatform.Agent

open Outcome Engine Table Runs

/-- The request a run was created for. -/
def RunRow.request (r : RunRow) : String × String := (r.tenant, r.requestKey)

/-- What no transaction of the loop changes of a run. -/
def RunRow.origin (r : RunRow) : Uuid × String × String := (r.id, r.request)

/-- `run` is the run of the request `k`. -/
def Requested (s : State) (run : Uuid) (k : String × String) : Prop :=
  ∃ r ∈ s.runs, r.id = run ∧ r.request = k

/-- The run may still act. -/
def Live (s : State) (run : Uuid) : Prop := ∃ r ∈ s.runs, r.id = run ∧ active r.status = true

section Transactions

variable {P : Platform} {env : Env} {s t : State} {tenant : String} {run : Uuid} {row : RunRow}

/-- The same runs, each for the request it was for. -/
def Same (s t : State) : Prop := t.runs.map RunRow.origin = s.runs.map RunRow.origin

theorem Same.goto (h : Same s t) (w : ℕ) (stage : Stage) : Same s (t.goto w stage) := h

theorem same_setRun {f : RunRow → RunRow} (hf : ∀ r, (f r).origin = r.origin) :
    Same s (s.setRun row f) :=
  map_update fun r _ _ => hf r

theorem same_stop (row : RunRow) (status : RunStatus) (reason actor : String) :
    Same s (s.stop row status reason actor) := by
  obtain ⟨db, status', reason', -, heq⟩ := stop_eq s row status reason actor
  rw [heq]
  exact same_setRun (s := { s with db := db }) fun _ => rfl

theorem cancel_same {actor : String} {u : Unit} (h : cancel env s tenant run actor = .ok (t, u)) :
    Same s t := by
  simp only [cancel, bind_eq_ok, exists_unit, need_eq_ok] at h
  obtain ⟨-, row, -, h⟩ := h
  split at h
  · obtain ⟨rfl, -⟩ := Prod.mk.inj (pure_eq_ok.1 h)
    exact same_stop _ _ _ _
  · obtain ⟨rfl, -⟩ := Prod.mk.inj (pure_eq_ok.1 h)
    rfl

theorem reserve_same {repairs : ℕ} {r? : Option Reservation}
    (h : reserve env s tenant run repairs = .ok (t, r?)) : Same s t := by
  simp only [reserve, bind_eq_ok, need_eq_ok] at h
  obtain ⟨row, -, v, -, h⟩ := h
  cases v with
  | stay =>
    obtain ⟨rfl, -⟩ := Prod.mk.inj (pure_eq_ok.1 h)
    rfl
  | stop status reason =>
    obtain ⟨rfl, -⟩ := Prod.mk.inj (pure_eq_ok.1 h)
    exact same_stop _ _ _ _
  | go obs =>
    obtain ⟨rfl, -⟩ := Prod.mk.inj (pure_eq_ok.1 h)
    exact same_setRun (s := { s with minted := s.minted + 1 }) fun _ => rfl

theorem perform_same {a : Action} (h : perform P env s row a = .ok t) : Same s t := by
  cases a with
  | tool name args =>
    simp only [perform, bind_eq_ok, exists_unit, pure_eq_ok] at h
    obtain ⟨-, ⟨db, task⟩, -, -, rfl⟩ := h
    exact same_setRun (s := { s with db := db, turns := _ }) fun _ => rfl
  | final answer evidence =>
    obtain rfl := pure_eq_ok.1 h
    exact same_setRun fun _ => rfl
  | ask question =>
    obtain rfl := pure_eq_ok.1 h
    exact same_setRun fun _ => rfl

theorem commitDecision_same {claim : Uuid} {d? : Option Json} {repairs : Bool} {c : Committed}
    (h : commitDecision P env s tenant run claim d? repairs = .ok (t, c)) : Same s t := by
  simp only [commitDecision, bind_eq_ok, need_eq_ok] at h
  obtain ⟨row, -, h⟩ := h
  have hstop : ∀ {reason : String} {c' : Committed},
      (pure (s.stop row .escalated reason, c') : Except Err (State × Committed)) = .ok (t, c) →
      Same s t := by
    intro reason c' h
    obtain ⟨rfl, -⟩ := Prod.mk.inj (pure_eq_ok.1 h)
    exact same_stop _ _ _ _
  split at h
  · obtain ⟨rfl, -⟩ := Prod.mk.inj (pure_eq_ok.1 h)
    rfl
  split at h
  · exact hstop h
  split at h
  · split at h
    · exact hstop h
    · cases h
  split at h
  · exact hstop h
  split at h
  · split at h
    · exact hstop h
    · cases h
  split at h
  · rename_i s' hperform
    obtain ⟨a, -, ha⟩ := bind_eq_ok.1 hperform
    obtain ⟨rfl, -⟩ := Prod.mk.inj (pure_eq_ok.1 h)
    exact perform_same ha
  split at h
  · split at h
    · obtain ⟨rfl, -⟩ := Prod.mk.inj (pure_eq_ok.1 h)
      exact same_setRun fun _ => rfl
    · exact hstop h
  · cases h

/-- `create` returns the run of the request, and opens one only where there is none. -/
theorem create_cases {key agent text actor channel : String} {maxSteps maxSeconds : ℤ} {id : Uuid}
    (h : create P env s tenant key agent text actor maxSteps maxSeconds channel = .ok (t, id)) :
    t = s ∧ Requested s id (tenant, key) ∨
      ∃ row : RunRow, t = { s with minted := s.minted + 1, runs := s.runs ++ [row] } ∧ row.id = id ∧
        id = s.minted ∧ row.request = (tenant, key) ∧ ∀ r ∈ s.runs, r.request ≠ (tenant, key) := by
  simp only [create, bind_eq_ok, exists_unit, ensure_eq_ok] at h
  obtain ⟨-, -, -, -, policy, -, -, -, h⟩ := h
  split at h
  · rename_i old hold
    simp only [bind_eq_ok, exists_unit, pure_eq_ok, Prod.mk.injEq] at h
    obtain ⟨-, rfl, rfl⟩ := h
    have hfound := List.find?_some hold
    simp only [Bool.and_eq_true, decide_eq_true_eq] at hfound
    exact .inl ⟨rfl, old, List.mem_of_find?_eq_some hold, rfl, Prod.ext hfound.1 hfound.2⟩
  · rename_i hnone
    simp only [bind_eq_ok, exists_unit, pure_eq_ok, Prod.mk.injEq] at h
    obtain ⟨-, -, rfl, rfl⟩ := h
    refine .inr ⟨_, rfl, rfl, rfl, rfl, fun r hr hreq => ?_⟩
    have hno := List.find?_eq_none.1 hnone r hr
    obtain ⟨htenant, hkey⟩ := Prod.mk.inj hreq
    simp [htenant, hkey] at hno

theorem create_requested {key agent text actor channel : String} {maxSteps maxSeconds : ℤ} {id : Uuid}
    (h : create P env s tenant key agent text actor maxSteps maxSeconds channel = .ok (t, id)) :
    Requested t id (tenant, key) := by
  rcases create_cases h with ⟨rfl, hreq⟩ | ⟨row, rfl, hid, -, hreq, -⟩
  · exact hreq
  · exact ⟨row, List.mem_append_right _ List.mem_cons_self, hid, hreq⟩

end Transactions

section Steps

variable {P : Platform} {s t : State} {l : Label} {run : Uuid} {k : String × String}

/-- **A step keeps the runs and what they are for**, or opens a run for a request that has none. -/
theorem Step.requests (h : Step P s l t) : Same s t ∨
    ∃ row : RunRow, t.runs = s.runs ++ [row] ∧ ∀ r ∈ s.runs, r.request ≠ row.request := by
  obtain rfl := h
  delta State.after
  cases l with
  | create env tenant key agent text actor maxSteps maxSeconds channel =>
    dsimp only
    cases hx : create P env s tenant key agent text actor maxSteps maxSeconds channel with
    | error e => exact .inl rfl
    | ok x =>
      rcases create_cases hx with ⟨heq, -⟩ | ⟨row, heq, -, -, hreq, hfresh⟩
      · exact .inl (congrArg (fun t : State => t.runs.map RunRow.origin) heq)
      · refine .inr ⟨row, congrArg State.runs heq, fun r hr => ?_⟩
        rw [hreq]
        exact hfresh r hr
  | cancel =>
    exact .inl (commit_keeps (p := Same s) rfl fun t u h => cancel_same h)
  | reserve w env tenant run supportsRepair =>
    dsimp only
    split
    · rename_i hreserve
      exact .inl ((reserve_same hreserve).goto w _)
    · rename_i hreserve
      exact .inl (reserve_same hreserve)
    · exact .inl rfl
  | check w env =>
    dsimp only
    split
    · split <;> exact .inl rfl
    · exact .inl rfl
  | invoke w answer =>
    dsimp only
    split
    · split <;> exact .inl rfl
    · exact .inl rfl
  | commit w env =>
    dsimp only
    split
    · split
      · rename_i hcommit
        exact .inl ((commitDecision_same hcommit).goto w _)
      · rename_i hcommit
        exact .inl ((commitDecision_same hcommit).goto w _)
      · exact .inl rfl
    · split
      · rename_i hcommit
        exact .inl ((commitDecision_same hcommit).goto w _)
      · exact .inl rfl
    · exact .inl rfl
  | crash w => exact .inl rfl
  | engine op =>
    dsimp only
    split <;> exact .inl rfl
  | inbound events => exact .inl rfl

theorem Step.keyed (h : Step P s l t) (hs : Keyed RunRow.request s.runs) :
    Keyed RunRow.request t.runs := by
  rcases h.requests with hsame | ⟨row, heq, hfresh⟩
  · have hmap := congrArg (List.map Prod.snd) hsame
    rw [List.map_map, List.map_map] at hmap
    unfold Keyed at hs ⊢
    exact hmap ▸ hs
  · rw [heq]
    exact hs.insert hfresh

theorem Step.requested (h : Step P s l t) (hreq : Requested s run k) : Requested t run k := by
  obtain ⟨r, hr, hid, hk⟩ := hreq
  rcases h.requests with hsame | ⟨row, heq, -⟩
  · have hmem : r.origin ∈ t.runs.map RunRow.origin := hsame ▸ List.mem_map_of_mem hr
    obtain ⟨r', hr', horigin⟩ := List.mem_map.1 hmem
    obtain ⟨hid', hreq'⟩ := Prod.mk.inj horigin
    exact ⟨r', hr', hid'.trans hid, hreq'.trans hk⟩
  · exact ⟨r, heq ▸ List.mem_append_left _ hr, hid, hk⟩

theorem Step.live (h : Step P s l t) (hb : Budgeted s) (hreq : Requested s run k) (hlive : Live t run) :
    Live s run := by
  obtain ⟨r, hr, hid, -⟩ := hreq
  obtain ⟨r', hr', hid', hactive⟩ := hlive
  obtain ⟨r'', hr'', hid'', hkept, -⟩ := h.effect.run_kept hb hr
  obtain rfl : r'' = r' :=
    (h.effect.budgeted hb).keyed.eq_of_key hr'' hr' ((hid''.trans hid).trans hid'.symm)
  rcases hkept with rfl | hwas
  · exact ⟨r'', hr, hid', hactive⟩
  · exact ⟨r, hr, hid, hwas⟩

theorem Requested.unique (hs : Keyed RunRow.request s.runs) {run' : Uuid} (h : Requested s run k)
    (h' : Requested s run' k) : run = run' := by
  obtain ⟨r, hr, rfl, hk⟩ := h
  obtain ⟨r', hr', rfl, hk'⟩ := h'
  exact congrArg (fun r : RunRow => r.id) (hs.eq_of_key hr hr' (hk.trans hk'.symm))

end Steps

/-! ### The input of a run -/

section Texts

theorem length_truncate (n : ℕ) (text : String) : (truncate n text).length ≤ n := by
  rw [truncate, String.length_ofList]
  exact List.length_take_le n _

theorem isBlank_truncate_append {n : ℕ} {a : String} (h : isBlank (truncate n a) = false) (b : String) :
    isBlank (truncate n (a ++ b)) = false := by
  rw [isBlank, truncate, String.toList_ofList, List.all_eq_false] at h ⊢
  obtain ⟨c, hc, hspace⟩ := h
  refine ⟨c, ?_, hspace⟩
  rw [String.toList_append, List.take_append]
  exact List.mem_append_left _ hc

end Texts

/-- A request nobody has made yet opens a run. -/
theorem create_new {P : Platform} {env : Env} {s : State} {tenant key agent text actor channel : String}
    {maxSteps maxSeconds : ℤ} {policy : Json}
    (hids : ([(tenant, 64), (key, 256), (agent, 128), (actor, 128), (channel, 32)].all fun v =>
      !isBlank v.1 && decide (v.1.length ≤ v.2)) = true)
    (htext : isBlank text = false ∧ text.length ≤ 4000)
    (hsteps : 1 ≤ maxSteps ∧ maxSteps ≤ maxStepsBound)
    (hseconds : 60 ≤ maxSeconds ∧ maxSeconds ≤ maxSecondsBound)
    (hpolicy : env.policy tenant agent = .ok policy)
    (hladder : (["human_led", "human_assisted", "autonomous"].any fun l =>
      (policy.getD "ladder" .null).isText l) = true)
    (hauthority : env.requireAuthority tenant channel actor = .ok ())
    (hnew : ∀ r ∈ s.runs, r.request ≠ (tenant, key))
    (hactive : env.requireActive s.view tenant = .ok ())
    (hqueue : s.runs.countP (fun r => decide (r.tenant = tenant) && active r.status) < 100) :
    ∃ fingerprint, create P env s tenant key agent text actor maxSteps maxSeconds channel = .ok
      ({ s with
        minted := s.minted + 1
        runs := s.runs ++ [
          { id := s.minted, tenant := tenant, status := .pending
            deadline := env.now + seconds maxSeconds, currentTask := none, claim := none, lease := 0
            error := "", requestKey := key, fingerprint := fingerprint, agent := agent, actor := actor
            input := text, maxSteps := maxSteps.toNat, maxCalls := maxSteps.toNat + 1
            channel := channel }] }, s.minted) := by
  have hnone : (s.runs.find? fun r => decide (r.tenant = tenant) && decide (r.requestKey = key)) =
      none := by
    refine List.find?_eq_none.2 fun r hr hfound => ?_
    simp only [Bool.and_eq_true, decide_eq_true_eq] at hfound
    exact hnew r hr (Prod.ext hfound.1 hfound.2)
  unfold create
  simp only [hids, htext, hsteps, hseconds, hpolicy, hladder, hauthority, hnone, hactive, hqueue, ensure,
    and_self, if_true, bind, Except.bind]
  exact ⟨_, rfl⟩

end AgentPlatform.Agent
