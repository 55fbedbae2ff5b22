import AgentPlatform.Google.AtMostOnce

/-!
# Reconciliation rests on what was read back

A reconciliation gathers its evidence outside any transaction; `Settled` says what the transaction that
ends it has established by itself, and what the evidence, kept in `shown`, comes from. `Step.requests`
lists the requests an event can make.
-/

namespace AgentPlatform.Google

open Outcome Engine OAuth Table Runs

/-- The settling transaction moves the step to `succeeded`, and rests on all of this. -/
structure Settled (lib : Library) (env : Env) (guard : Except Err Unit) (s t : State) (r : Reading)
    (l : Loaded) (external : String) : Prop where
  /-- `_load`, in the transaction. -/
  loads : Loads lib env s.db s.oauth.tables s.google r.inquiry guard l
  /-- The connection's credential is active, of the generation of the dispatch. -/
  credential : ∃ c, s.oauth.tables.row? r.inquiry.tenant l.connection = some c ∧
    c.generation = l.dispatch.generation ∧ c.status = .active ∧ env.now < c.expires
  /-- What was read back under this generation agrees with the step's request. -/
  evidence : ∃ sh ∈ s.shown, sh.inquiry = r.inquiry ∧ sh.generation = l.dispatch.generation ∧
    Agrees lib l.row.step.spec r.inquiry.resources (lib.hex r.inquiry.step) l.out external sh.url
      sh.response
  /-- The step and its journal row change together. -/
  written : ∃ receipt,
    t.db = s.db.provideStep r.inquiry.tenant r.inquiry.step l.row.step.task receipt ∧
    t.google = update (fun d => d.key = r.inquiry.key)
      (fun d => { d with status := .succeeded, receipt := receipt }) s.google

section Settle

variable {lib : Library} {s t : State} {l : Label}

theorem joined?_find {db : Db} {tenant : String} {step : Uuid} {row : Joined}
    (h : joined? db tenant step = some row) :
    (db.steps.find? fun s => decide (s.tenant = tenant) && decide (s.id = step)) = some row.step := by
  simp only [joined?, Option.bind_eq_some_iff, Option.map_eq_some_iff] at h
  obtain ⟨s, hs, task, -, rfl⟩ := h
  exact hs

/-- The request a reconciliation compares with is the same whenever it is read. -/
theorem Founded.unique {db : Db} {i : Inquiry} {loaded loaded' : Loaded} (ho : Ordered db)
    (h : Founded lib db i loaded) (h' : Founded lib db i loaded') :
    loaded.row.step.spec = loaded'.row.step.spec ∧ loaded.connection = loaded'.connection ∧
      loaded.out = loaded'.out := by
  obtain ⟨r, hr, hspec⟩ := List.mem_map.1 h.spec
  obtain ⟨r', hr', hspec'⟩ := List.mem_map.1 h'.spec
  have hid : r.id = r'.id := by
    change r.spec.id = r'.spec.id
    rw [hspec, hspec', h.id, h'.id]
  have hsame : loaded.row.step.spec = loaded'.row.step.spec := by
    rw [← hspec, ← hspec', ho.wf.steps.eq_of_key hr hr' hid]
  have hconnection := h.connection
  have hout := h.out
  rw [hsame] at hconnection hout
  exact ⟨hsame, Except.ok.inj (hconnection.symm.trans h'.connection),
    Except.ok.inj (hout.symm.trans h'.out)⟩

/-- The transaction that ends a reconciliation changes nothing, or settles the step. -/
theorem Kept.settles (hk : Kept lib s) {w : ℕ} {env : Env} {guard : Except Err Unit}
    (h : Step lib s (.settle w env guard) t) :
    (t.db = s.db ∧ t.google = s.google) ∨
      ∃ r loaded external, s.calls w = .concluding r (some external) ∧
        Settled lib env guard s t r loaded external := by
  have hj := hk.justified w
  subst h
  dsimp only [State.after]
  split
  · rename_i r external hcall
    rw [hcall] at hj
    split
    · rename_i db book hsettle
      cases external with
      | none =>
        obtain ⟨rfl, rfl⟩ := settle_none hsettle
        exact .inl ⟨rfl, rfl⟩
      | some external =>
        refine .inr ?_
        obtain ⟨loaded, receipt, c, hloads, -, hc, ⟨hgeneration, hactive, hexpires⟩, hexec, rfl⟩ :=
          settle_cases hsettle
        obtain ⟨hspec, hconnection, hout⟩ := hj.1.founded.unique hk.ordered hloads.founded
        -- both reads of the credential find the connection's row
        obtain ⟨c', hc', hgeneration'⟩ := hloads.credential
        have hrow := agent_row hc
        have hrow' := agent_row hc'
        rw [hconnection] at hrow
        obtain rfl : c = c' := Option.some.inj (hrow.symm.trans hrow')
        have hgrant : r.grant.generation = loaded.dispatch.generation := by rw [← hgeneration, hgeneration']
        obtain ⟨sh, hsh, hinquiry, hshown, hagrees⟩ := hj.2 external rfl
        rw [hspec, hout] at hagrees
        refine ⟨r, loaded, external, hcall, hloads, ⟨c, hrow, hgeneration', hactive, hexpires⟩,
          ⟨sh, hsh, hinquiry, hshown.trans hgrant, hagrees⟩, receipt, ?_, rfl⟩
        simp only [exec, googleReconcile, bind_eq_ok, need_eq_ok, ensure_eq_ok, exists_unit, pure_eq_ok,
          Prod.mk.injEq] at hexec
        obtain ⟨row, hfound, -, hdb, -⟩ := hexec
        obtain rfl := Option.some.inj (hfound.symm.trans (joined?_find hloads.row))
        exact hdb.symm
    · exact .inl ⟨rfl, rfl⟩
  · exact .inl ⟨rfl, rfl⟩

theorem Change.db (h : Change lib s l t) :
    t.db = s.db ∨ (∃ op, l = .op op) ∨ (∃ tenant step, l = .requeue tenant step) ∨
      ∃ w env guard, l = .settle w env guard := by
  cases h with
  | @moved _ s' w stage hdb => exact .inl hdb
  | engine => exact .inr (.inl ⟨_, rfl⟩)
  | requeued => exact .inr (.inr (.inl ⟨_, _, rfl⟩))
  | settled => exact .inr (.inr (.inr ⟨_, _, _, rfl⟩))
  | _ => exact .inl rfl

end Settle

/-! ### The requests of a reconciliation -/

/-- The reconciliation a worker is in. -/
def Stage.inquiry? : Stage → Option Inquiry
  | .inquiring i _ | .renewing i _ => some i
  | .asking r _ | .fenced r _ | .asked r _ | .concluding r _ => some r.inquiry
  | _ => none

/-- The worker of an event. -/
def Label.worker? : Label → Option ℕ
  | .op _ | .requeue .. | .oauth _ => none
  | .execute w .. | .read w | .check w _ | .access w .. | .renewed w .. | .fence w _ | .journal w _
  | .send w _ | .answer w _ | .fail w | .write w .. | .journalWrite w _ | .transport w | .answered w _
  | .settleWrite w | .reconcile w .. | .ask w .. | .shown w .. | .settle w .. | .crash w => some w

/-- The method of a request; what goes to a database is no read. -/
def Request.method : Request → Method
  | api x => x.out.method
  | database _ => .post
  | evidence _ method _ => method
  | token _ _ method => method

section Requests

variable {lib : Library} {s t : State} {l : Label} {w : ℕ} {stage : Stage}

theorem access_requests {m : Manager} {env : Env} {tenant connection agent attempt : String}
    {step : Uuid} {required : List String} {granted : Grant → Stage} {refreshing : Stage} :
    (s.access w m env tenant connection agent step required attempt granted refreshing).requests =
        s.requests ∨
      (s.access w m env tenant connection agent step required attempt granted refreshing).requests =
        s.requests ++ [.token tenant step .post] := by
  unfold State.access
  split
  · exact .inl rfl
  · exact .inr rfl
  · exact .inl rfl

theorem renew_requests {env : Env} {body : Except Err Json} {identity : Except Err String}
    {granted : Grant → Stage} : (s.renew w env body identity granted).requests = s.requests := by
  unfold State.renew
  split
  · split <;> rfl
  · rfl

/-- What a worker in a reconciliation may request: a read, or, in `access`, a refresh. -/
theorem Step.requests (h : Step lib s l t) {i : Inquiry} (hw : l.worker? = some w)
    (hi : (s.calls w).inquiry? = some i) :
    t.requests = s.requests ∨ (∃ url, t.requests = s.requests ++ [.evidence i .get url]) ∨
      ∃ env attempt, l = .access w env attempt ∧
        t.requests = s.requests ++ [.token i.tenant i.step .post] := by
  subst h
  delta State.after
  cases l with
  | op | requeue | oauth => cases hw
  | ask w' env guard =>
    obtain rfl := Option.some.inj hw
    dsimp only
    split
    · rename_i r ask hcall
      rw [hcall] at hi
      obtain rfl := Option.some.inj hi
      split
      · exact .inr (.inl ⟨_, rfl⟩)
      · exact .inl rfl
    · exact .inl rfl
  | access w' env attempt =>
    obtain rfl := Option.some.inj hw
    dsimp only
    split
    · rename_i hcall
      rw [hcall] at hi
      cases hi
    · rename_i hcall
      rw [hcall] at hi
      obtain rfl := Option.some.inj hi
      exact access_requests.imp_right fun h => .inr ⟨env, attempt, rfl, h⟩
    · exact .inl rfl
  | renewed w' env body identity =>
    dsimp only
    split
    · exact .inl renew_requests
    · exact .inl renew_requests
    · exact .inl rfl
  | send w' env =>
    obtain rfl := Option.some.inj hw
    dsimp only
    split
    · rename_i hcall
      rw [hcall] at hi
      cases hi
    · exact .inl rfl
  | transport w' =>
    obtain rfl := Option.some.inj hw
    dsimp only
    split
    · rename_i hcall
      rw [hcall] at hi
      cases hi
    · exact .inl rfl
  | _ =>
    refine .inl ?_
    dsimp only
    repeat' split
    all_goals rfl

end Requests

section Runs

variable {lib : Library} {s : State} {τs : List (Transition State Label)}

/-- **Reconciliation is sound and atomic.** In every run of the engine, the OAuth manager, the
executions and any number of reconciliations: apart from the engine's own operations, a step changes
only in a transaction that ends a reconciliation, and there the step was still uncertain, the actor an
owner of an active tenant, the credential of the dispatch's generation, both fingerprints unchanged, and
what was read back agrees with the request; the journal row changes with the step or neither does; and
a reconciliation sends a `GET`, or a refresh of its token inside `access`. -/
theorem reconciliation_sound (h : Run (Step lib) {} τs s) :
    (∀ τ ∈ τs, (∀ op, τ.label ≠ .op op) → (∀ tenant step, τ.label ≠ .requeue tenant step) →
      τ.dst.db = τ.src.db ∨ ∃ w env guard r loaded external, τ.label = .settle w env guard ∧
        τ.src.calls w = .concluding r (some external) ∧
        Settled lib env guard τ.src τ.dst r loaded external) ∧
    (∀ τ ∈ τs, ∀ w env guard, τ.label = .settle w env guard →
      (τ.dst.db = τ.src.db ∧ τ.dst.google = τ.src.google) ∨
        ∃ r loaded external, τ.src.calls w = .concluding r (some external) ∧
          Settled lib env guard τ.src τ.dst r loaded external) ∧
    ∀ τ ∈ τs, ∀ w i, τ.label.worker? = some w → (τ.src.calls w).inquiry? = some i →
      τ.dst.requests = τ.src.requests ∨
        (∃ url, τ.dst.requests = τ.src.requests ++ [.evidence i .get url]) ∨
        ∃ env attempt, τ.label = .access w env attempt ∧
          τ.dst.requests = τ.src.requests ++ [.token i.tenant i.step .post] := by
  have hsettle : ∀ τ ∈ τs, ∀ w env guard, τ.label = .settle w env guard →
      (τ.dst.db = τ.src.db ∧ τ.dst.google = τ.src.google) ∨
        ∃ r loaded external, τ.src.calls w = .concluding r (some external) ∧
          Settled lib env guard τ.src τ.dst r loaded external := by
    intro τ hτ w env guard hl
    obtain ⟨hstep, hkept⟩ := h.always kept_empty (fun _ _ _ hk hs => Step.kept hk hs) hτ
    rw [hl] at hstep
    exact hkept.settles hstep
  refine ⟨?_, hsettle, ?_⟩
  · intro τ hτ hop hrequeue
    obtain ⟨hstep, hkept⟩ := h.always kept_empty (fun _ _ _ hk hs => Step.kept hk hs) hτ
    rcases (hstep.change hkept.justified).db with hsame | ⟨op, hl⟩ | ⟨tenant, step, hl⟩ |
      ⟨w, env, guard, hl⟩
    · exact .inl hsame
    · exact absurd hl (hop op)
    · exact absurd hl (hrequeue tenant step)
    · rcases hsettle τ hτ w env guard hl with ⟨hsame, -⟩ | ⟨r, loaded, external, hcall, hsettled⟩
      · exact .inl hsame
      · exact .inr ⟨w, env, guard, r, loaded, external, hl, hcall, hsettled⟩
  · intro τ hτ w i hw hi
    exact (h.step_of_mem hτ).requests hw hi

end Runs

/-! ### The visit, read back -/

section Sample

/-- Every request a reconciliation sends is a `GET`. -/
def OnlyGets (τs : List (Transition State Label)) : Prop :=
  ∀ τ ∈ τs, ∀ w i, τ.label.worker? = some w → (τ.src.calls w).inquiry? = some i →
    ∀ r ∈ τ.dst.requests, r ∈ τ.src.requests ∨ r.method = .get

/-- The event the first worker created. -/
def visitEvent : Json :=
  .obj [("id", .str "ap12"), ("status", .str "confirmed"), ("summary", .str "Visit"),
    ("start", .obj [("dateTime", .str "2026-01-01T10:00+00:00")]),
    ("end", .obj [("dateTime", .str "2026-01-01T11:00+00:00")]),
    ("extendedProperties", .obj [("private", .obj [("platform_step", .str "12")])])]

/-- The owner reconciles an hour later: the token is refreshed, and the event read. -/
def readbackLabels : List Label :=
  [.reconcile 2 (visitEnv 4000) ⟨visitManager, ⟨[], ["m"]⟩, "acme", 1, "dana"⟩ (.ok ()),
    .access 2 (visitEnv 4000) "a4",
    .renewed 2 (visitEnv 4001) (.ok visitTokens) (.ok "sales@acme.uz"), .fence 2 (visitEnv 4002),
    .ask 2 (visitEnv 4002) (.ok ()), .shown 2 (visitEnv 4003) (.body visitEvent)]

def readbackState : State := readbackLabels.foldl (State.after visitLibrary) visitState

def settleEnv : Env := visitEnv 4004

def settleLabel : Label := .settle 2 settleEnv (.ok ())

def settledState : State := readbackState.after visitLibrary settleLabel

/-- The settling transaction. -/
def settling : Transition State Label := ⟨readbackState, settleLabel, settledState⟩

theorem settled_run : Run (Step visitLibrary) {}
    (trace (State.after visitLibrary) {} visitLabels ++
      trace (State.after visitLibrary) visitState readbackLabels ++ [settling]) settledState :=
  (visit_run.calls readbackLabels).snoc rfl

theorem settled_statuses : readbackState.db.steps.map StepRow.status = [.uncertain] ∧
    settledState.db.steps.map StepRow.status = [.succeeded] ∧
    settledState.google.map Dispatch.status = [.succeeded] := by
  decide +kernel

theorem reconciliation_sound_sample : ∃ r loaded external,
    readbackState.calls 2 = .concluding r (some external) ∧
    Settled visitLibrary settleEnv (.ok ()) readbackState settledState r loaded external := by
  have hmem := List.mem_append_right (trace (State.after visitLibrary) {} visitLabels ++
    trace (State.after visitLibrary) visitState readbackLabels) (List.mem_singleton_self settling)
  have hl : settling.label = .settle 2 settleEnv (.ok ()) := rfl
  have hends := (reconciliation_sound settled_run).2.1 settling hmem 2 settleEnv (.ok ()) hl
  simp only [settling] at hends
  refine hends.resolve_left fun hsame => ?_
  obtain ⟨hbefore, hafter, -⟩ := settled_statuses
  rw [hsame.1, hbefore] at hafter
  cases hafter

/-- A request to the token endpoint. -/
def Request.isToken : Request → Bool
  | token .. => true
  | _ => false

/-- The access of the reconciliation posts to the token endpoint. -/
theorem refresh_posts : ¬ ∀ lib s τs, Run (Step lib) {} τs s → OnlyGets τs := by
  intro honly
  have hposted : ((trace (State.after visitLibrary) visitState readbackLabels).any fun τ =>
      decide (τ.label.worker? = some 2) && (τ.src.calls 2).inquiry?.isSome &&
        !(τ.src.requests.any Request.isToken) &&
        τ.dst.requests.any fun r => r.isToken && decide (r.method ≠ .get)) = true := by
    decide +kernel
  obtain ⟨τ, hτ, hchecks⟩ := List.any_eq_true.1 hposted
  simp only [Bool.and_eq_true, decide_eq_true_eq, Bool.not_eq_true'] at hchecks
  obtain ⟨⟨⟨hw, hi⟩, hbefore⟩, hafter⟩ := hchecks
  obtain ⟨i, hi⟩ := Option.isSome_iff_exists.1 hi
  obtain ⟨r, hr, hnew⟩ := List.any_eq_true.1 hafter
  simp only [Bool.and_eq_true, decide_eq_true_eq] at hnew
  have hgets := honly visitLibrary _ _ (visit_run.calls readbackLabels) τ
    (List.mem_append_right _ hτ) 2 i hw hi r hr
  rcases hgets with hold | hget
  · rw [List.any_eq_false] at hbefore
    exact hbefore r hold hnew.1
  · exact hnew.2 hget

end Sample

end AgentPlatform.Google
