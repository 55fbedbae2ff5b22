import AgentPlatform.Agent.Budgets
import AgentPlatform.Engine.Fences
import AgentPlatform.Routing.Events

/-!
# The freeze fence

`freeze` sets one flag of a tenant, and every entry point reads it for itself: the operations of the
engine, `accept_event` and `claim_event`, and the agent loop. `Fenced` says what the flag keeps shut at
all of them, and `freeze_fence` that it does so in every state in which the flag is set.
-/

namespace AgentPlatform

open Outcome Table Runs Engine

/-! ### Inbound events -/

namespace Routing

section Events

variable {P : Platform} {env : Env} {s t : State} {tenant : String} {l : Label}

/-- What `accept_event` stores. -/
theorem acceptEvent_cases {channel eventKey : String} {payload : Json} {known : Bool}
    (h : acceptEvent P env s tenant channel eventKey payload = .ok (t, known)) :
    t = s ∨ env.requireActive s.db tenant = .ok () ∧
      ∃ e, e.tenant = tenant ∧ t.db.events = s.db.events ++ [e] := by
  simp only [acceptEvent, bind_eq_ok, exists_unit, ensure_eq_ok] at h
  obtain ⟨-, -, -, -, h⟩ := h
  split at h
  · simp only [bind_eq_ok, exists_unit, ensure_eq_ok, pure_eq_ok, Prod.mk.injEq] at h
    obtain ⟨-, rfl, -⟩ := h
    exact .inl rfl
  · simp only [bind_eq_ok, exists_unit, ensure_eq_ok, pure_eq_ok, Prod.mk.injEq] at h
    obtain ⟨hactive, -, rfl, -⟩ := h
    exact .inr ⟨hactive, _, rfl, rfl⟩

/-- The keys of the events of a state. -/
def State.eventKeys (s : State) : List (String × String × String) := s.db.events.map EventRow.key

theorem submit_eventKeys {channel eventKey agent actor : String} {steps : List Json} {db : Db}
    {id : Uuid} (h : submit P env s.db tenant channel eventKey agent steps actor = .ok (db, id)) :
    db.events = s.db.events := by
  rcases (submit_effect h).events with heq | ⟨_, _, _, hop⟩
  · exact heq
  · cases hop

/-- No label adds an event of a frozen tenant. -/
theorem eventKeys_after (hfrozen : s.db.frozen tenant = true) {k : String × String × String}
    (hk : k ∈ (s.after P l).eventKeys) (htenant : k.1 = tenant) : k ∈ s.eventKeys := by
  have hupdate : ∀ {p : EventRow → Bool} {f : EventRow → EventRow},
      k ∈ (Table.update p f s.db.events).map EventRow.key → (∀ e, (f e).key = e.key) →
        k ∈ s.eventKeys := by
    intro p f hk hf
    rwa [map_update fun e _ _ => hf e] at hk
  cases l with
  | accept env tenant' channel eventKey payload =>
    change k ∈ (commit s (acceptEvent P env s tenant' channel eventKey payload)).eventKeys at hk
    cases hx : acceptEvent P env s tenant' channel eventKey payload with
    | error e => rwa [hx] at hk
    | ok done =>
      obtain ⟨t, known⟩ := done
      rw [hx] at hk
      change k ∈ t.eventKeys at hk
      rcases acceptEvent_cases hx with rfl | ⟨hactive, e, he, heq⟩
      · exact hk
      · rw [State.eventKeys, heq, List.map_append, List.mem_append] at hk
        rcases hk with hk | hk
        · exact hk
        · obtain rfl := List.mem_singleton.1 hk
          rw [← htenant, show (EventRow.key e).1 = e.tenant from rfl, he,
            frozen_of_requireActive hactive] at hfrozen
          cases hfrozen
  | claim w env tenant' channels skip =>
    dsimp only [State.after] at hk
    split at hk
    · rename_i hclaim
      unfold claimEvent at hclaim
      split at hclaim
      · cases hclaim
      · simp only [Option.map_eq_some_iff, Prod.mk.injEq] at hclaim
        obtain ⟨r, -, rfl, rfl⟩ := hclaim
        exact hupdate hk fun _ => rfl
    · exact hk
  | lookTask w =>
    dsimp only [State.after] at hk
    split at hk
    · split at hk <;> exact hk
    · exact hk
  | lookTurn w =>
    dsimp only [State.after] at hk
    split at hk
    · split at hk <;> exact hk
    · exact hk
  | route w check plan env =>
    dsimp only [State.after] at hk
    split at hk
    · rename_i e hw
      split at hk
      · rename_i t result hroute
        simp only [Routing.route, bind_eq_ok, exists_unit] at hroute
        obtain ⟨-, plan, -, hroute⟩ := hroute
        split at hroute
        · split at hroute
          · simp only [bind_eq_ok, Prod.exists, pure_eq_ok, Prod.mk.injEq] at hroute
            obtain ⟨db, id, hsubmit, rfl, -⟩ := hroute
            change k ∈ db.events.map EventRow.key at hk
            rwa [submit_eventKeys hsubmit] at hk
          · cases hroute
        · simp only [bind_eq_ok, pure_eq_ok, Prod.mk.injEq] at hroute
          obtain ⟨turns, -, rfl, -⟩ := hroute
          exact hk
      · exact hk
    · exact hk
  | mark w =>
    dsimp only [State.after] at hk
    split at hk
    · refine hupdate hk fun e => ?_
      split <;> rfl
    · exact hk
  | crash | converse | loop => exact hk
  | retry env tenant' channel eventKey actor =>
    dsimp only [State.after] at hk
    split at hk
    · rename_i db hretry
      simp only [retryEvent, bind_eq_ok, exists_unit] at hretry
      obtain ⟨-, -, hretry⟩ := hretry
      split at hretry
      · simp only [bind_eq_ok, exists_unit, ensure_eq_ok, pure_eq_ok] at hretry
        obtain ⟨-, -, rfl⟩ := hretry
        exact hupdate hk fun _ => rfl
      · simp only [bind_eq_ok, exists_unit, ensure_eq_ok, pure_eq_ok] at hretry
        obtain ⟨-, rfl⟩ := hretry
        exact hupdate hk fun _ => rfl
    · exact hk
  | engine op =>
    dsimp only [State.after] at hk
    split at hk
    · rename_i hop
      change k ∈ (s.db.after P op).events.map EventRow.key at hk
      obtain ⟨out, he, -⟩ : ∃ out, Engine.Effect P s.db op out (s.db.after P op) ∧ _ :=
        Engine.Step.effect (show Engine.Step P s.db op (s.db.after P op) from rfl)
      rcases he.events with heq | ⟨_, _, _, rfl⟩
      · rwa [heq] at hk
      · cases hop
    · exact hk

theorem claimEvent_frozen {db : Db} (hfrozen : db.frozen tenant = true)
    (channels : Option (List String)) (skip : List String) :
    claimEvent env db tenant channels skip = none :=
  if_pos (.inr hfrozen)

end Events

end Routing

/-! ### The agent loop -/

namespace Agent

section Loop

variable {P : Platform} {s : State} {tenant : String} {l : Label}

theorem id_of_mem_update {p : RunRow → Bool} {f : RunRow → RunRow} {r : RunRow}
    (hr : r ∈ Table.update p f s.runs) (hid : ∀ r, (f r).id = r.id) :
    ∃ r' ∈ s.runs, r'.id = r.id := by
  obtain ⟨r', hr', rfl⟩ := mem_update.1 hr
  refine ⟨r', hr', ?_⟩
  split
  · exact (hid r').symm
  · rfl

/-- No label adds a run or a turn of a frozen tenant. -/
theorem after_frozen (hfrozen : s.view.frozen tenant = true) :
    (∀ u ∈ (s.after P l).turns, u.tenant = tenant → u ∈ s.turns) ∧
      ∀ r ∈ (s.after P l).runs, r.tenant = tenant → ∃ r' ∈ s.runs, r'.id = r.id := by
  have hkept : ∀ r ∈ s.runs, r.tenant = tenant → ∃ r' ∈ s.runs, r'.id = r.id :=
    fun r hr _ => ⟨r, hr, rfl⟩
  have hactive : ∀ {env : Env} {t : String}, env.requireActive s.view t = .ok () → t ≠ tenant := by
    rintro env t hactive rfl
    rw [frozen_of_requireActive hactive] at hfrozen
    cases hfrozen
  have he : Effect P s (s.after P l) := Step.effect (l := l) rfl
  generalize s.after P l = t at he
  cases he with
  | @wrote t planners hwrote =>
    cases hwrote with
    | same | engine | inbound => exact ⟨fun u hu _ => hu, hkept⟩
    | @created env row _ _ _ _ hrow =>
      refine ⟨fun u hu _ => hu, fun r hr htenant => ?_⟩
      rcases List.mem_append.1 hr with hr | hr
      · exact ⟨r, hr, rfl⟩
      · obtain rfl := List.mem_singleton.1 hr
        exact absurd htenant (hactive hrow)
    | @stopped row _ _ status _ _ reason actor =>
      obtain ⟨db, status', reason', -, heq⟩ := stop_eq s row status reason actor
      rw [heq]
      exact ⟨fun u hu _ => hu, fun r hr _ => id_of_mem_update hr fun _ => rfl⟩
    | linked _ _ hrow =>
      refine ⟨fun u hu htenant => ?_, fun r hr _ => id_of_mem_update hr fun _ => rfl⟩
      rcases List.mem_append.1 hu with hu | hu
      · exact hu
      · obtain rfl := List.mem_singleton.1 hu
        exact absurd htenant (hactive hrow)
    | answered | asked =>
      exact ⟨fun u hu _ => hu, fun r hr _ => id_of_mem_update hr fun _ => rfl⟩
  | cleared => exact ⟨fun u hu _ => hu, hkept⟩
  | reserved | repaired =>
    exact ⟨fun u hu _ => hu, fun r hr _ => id_of_mem_update hr fun _ => rfl⟩

end Loop

end Agent

/-! ### The fence -/

/-- Nothing of the tenant runs, and no entry point starts or accepts anything of it. -/
structure Fenced (P : Platform) (tenant : String) (db : Db) : Prop where
  still : ∀ r ∈ db.steps, r.tenant = tenant → r.status ≠ .running
  /-- No operation of the engine puts one of its steps into running, hands one out, or adds a task. -/
  stays : ∀ op, ∀ r ∈ (db.after P op).steps, r.tenant = tenant → r.status ≠ .running
  handed : ∀ op spec, handedOut P ⟨db, op, db.after P op⟩ = some spec → spec.tenant ≠ tenant
  tasks : ∀ op, ∀ k ∈ (db.after P op).owners, k.2.1 = tenant → k ∈ db.owners
  /-- No label of the event routing adds an event, and none is claimed. -/
  events : ∀ s : Routing.State, s.db = db → ∀ l, ∀ k ∈ (s.after P l).eventKeys, k.1 = tenant →
    k ∈ s.eventKeys
  claims : ∀ env channels skip, Routing.claimEvent env db tenant channels skip = none
  /-- No label of the agent loop adds a turn or a run. -/
  turns : ∀ s : Agent.State, s.view = db → ∀ l, ∀ u ∈ (s.after P l).turns, u.tenant = tenant →
    u ∈ s.turns
  runs : ∀ s : Agent.State, s.view = db → ∀ l, ∀ r ∈ (s.after P l).runs, r.tenant = tenant →
    ∃ r' ∈ s.runs, r'.id = r.id

section Fence

variable {P : Platform} {τs : List (Transition Db Op)} {db : Db}

theorem fenced_of_frozen (h : Run (Engine.Step P) {} τs db) {tenant : String}
    (hfrozen : db.frozen tenant = true) : Fenced P tenant db where
  still r hr htenant := reachable_still h r hr (htenant ▸ hfrozen)
  stays op := (frozen_step h hfrozen (show Engine.Step P db op _ from rfl)).1
  handed op := (frozen_step h hfrozen (show Engine.Step P db op _ from rfl)).2.1
  tasks op := (frozen_step h hfrozen (show Engine.Step P db op _ from rfl)).2.2
  events _ hs _ _ hk htenant := Routing.eventKeys_after (hs ▸ hfrozen) hk htenant
  claims _ channels skip := Routing.claimEvent_frozen hfrozen channels skip
  turns _ hs _ := (Agent.after_frozen (hs ▸ hfrozen)).1
  runs _ hs _ := (Agent.after_frozen (hs ▸ hfrozen)).2

/-- **The freeze fence.** In every reachable state a frozen tenant is fenced; and a claim that was
handed out before a committed freeze is, from that freeze on and whatever follows, un-freezing included,
the claim of no running step of the tenant, and no `finish` under it is accepted or changes anything. -/
theorem freeze_fence (h : Run (Engine.Step P) {} τs db) (tenant : String) :
    (db.frozen tenant = true → Fenced P tenant db) ∧
    ∀ pre τ post, τs = pre ++ τ :: post →
      ∀ env actor out, exec P τ.src (.freeze env tenant true actor) = .ok (τ.dst, out) →
      ∀ τ' ∈ pre, ∀ d spec token, exec P τ'.src τ'.label = .ok (d, .claimed spec token) →
        (∀ r ∈ db.steps, r.tenant = tenant → r.status = .running → r.claim ≠ some token) ∧
        ∀ env' step result status error,
          (∀ done, exec P db (.finish env' tenant step (some token) result status error) ≠ .ok done) ∧
            db.after P (.finish env' tenant step (some token) result status error) = db := by
  refine ⟨fenced_of_frozen h, ?_⟩
  rintro pre τ post rfl env actor out hop τ' hτ' d spec token hx
  have hstale := stale_claim h.split.1 hop h.rest hτ' hx
  refine ⟨fun r hr htenant hrunning => ?_, fun env' step result status error => ?_⟩
  · exact (hstale env 0 .null .failed "").1 r hr htenant hrunning
  · exact (hstale env' step result status error).2

theorem exec_of_isOk {op : Op} (h : (exec P db op).isOk = true) :
    ∃ out, exec P db op = .ok (db.after P op, out) := by
  unfold Db.after
  cases hx : exec P db op with
  | ok done => exact ⟨done.2, rfl⟩
  | error e =>
    rw [hx] at h
    cases h

/-- A step is submitted and runs. -/
def heldOps : List Op := [sampleSubmit ["note"]] ++ [sampleClaim 1]

/-- A claim hands out a step under the token. -/
def handsToken (token : Uuid) : Except Err (Db × Reply) → Bool
  | .ok (_, .claimed _ token') => decide (token' = token)
  | _ => false

/-- The worker's late result is refused in the frozen tenant, and when the freeze is lifted. -/
theorem freeze_fence_sample :
    Fenced samplePlatform "acme" (sampleDb (heldOps ++ [.freeze (sampleEnv 2) "acme" true "dana"])) ∧
    ∀ done, exec samplePlatform
      (sampleDb (heldOps ++ .freeze (sampleEnv 2) "acme" true "dana" ::
        [.freeze (sampleEnv 3) "acme" false "dana"]))
      (.finish (sampleEnv 4) "acme" 1 (some 2) (.obj []) .succeeded "") ≠ .ok done := by
  have hfrozen : (sampleDb (heldOps ++ [.freeze (sampleEnv 2) "acme" true "dana"])).frozen "acme" =
      true := by decide +kernel
  refine ⟨(freeze_fence (sample_run _) "acme").1 hfrozen, ?_⟩
  have hclaimed : handsToken 2 (exec samplePlatform (sampleDb [sampleSubmit ["note"]]) (sampleClaim 1)) = true := by
    decide +kernel
  have hok : (exec samplePlatform (heldOps.foldl (Db.after samplePlatform) {})
      (.freeze (sampleEnv 2) "acme" true "dana")).isOk = true := by decide +kernel
  obtain ⟨out, hop⟩ := exec_of_isOk hok
  unfold handsToken at hclaimed
  split at hclaimed
  · rename_i d spec token hx
    obtain rfl := of_decide_eq_true hclaimed
    have hpre := trace_append (Db.after samplePlatform) {} [sampleSubmit ["note"]] (sampleClaim 1) []
    have hmem : _ ∈ sampleTrace heldOps := hpre ▸ List.mem_append_right _ List.mem_cons_self
    have hrun := sample_run (heldOps ++ .freeze (sampleEnv 2) "acme" true "dana" ::
      [.freeze (sampleEnv 3) "acme" false "dana"])
    have hsplit := trace_append (Db.after samplePlatform) {} heldOps
      (.freeze (sampleEnv 2) "acme" true "dana") [.freeze (sampleEnv 3) "acme" false "dana"]
    have hstale := (freeze_fence hrun "acme").2 _ _ _ hsplit (sampleEnv 2) "dana" out
    dsimp only at hstale
    exact ((hstale hop _ hmem d spec 2 hx).2 (sampleEnv 4) 1 (.obj []) .succeeded "").1
  · cases hclaimed

end Fence

end AgentPlatform
