import AgentPlatform.Google.Effects

/-!
# One external write per step

`Step.move` shows every event as a move of the book of both journals (`Lib/Journal`): a write leaves
only after a worker recorded it, and what is recorded is never recorded again. What a step was submitted
with never changes, so a step has its write in one journal only.
-/

namespace AgentPlatform.Google

open Outcome Engine OAuth Table Runs

/-- The journal a tool's writes are recorded in. -/
def ledgerOf (tool : String) : Option Ledger :=
  if tool ∈ writes then some .google else if tool = "database.write" then some .database else none

section Tables

variable {lib : Library} {s t : State} {l : Label}

/-- The steps and tasks have their keys, and no two steps of a task share a place. -/
structure Ordered (db : Db) : Prop where
  wf : Wf db
  placed : Pipeline.Placed db.board

theorem ordered_empty : Ordered {} := ⟨orderly_empty.wf, orderly_empty.placed⟩

theorem Ordered.after {P : Platform} {db : Db} (ho : Ordered db) (op : Op) :
    Ordered (db.after P op) ∧ ∀ spec ∈ db.specs, spec ∈ (db.after P op).specs := by
  obtain ⟨out, he, -⟩ := Engine.Step.effect (show Engine.Step P db op (db.after P op) from rfl)
  have hm := he.moves ho.wf ho.placed
  refine ⟨⟨ho.wf.moves hm, ho.placed.rounds (moves_rounds ho.wf hm)⟩, fun spec hspec => ?_⟩
  obtain ⟨r, hr, rfl⟩ := List.mem_map.1 hspec
  obtain ⟨r', hr', heq⟩ := hm.spec hr
  exact heq ▸ List.mem_map_of_mem hr'

/-- So does a write of the steps' status columns. -/
theorem Ordered.setSteps {db : Db} (ho : Ordered db) {p : StepRow → Bool} {f : StepRow → StepRow}
    (hspec : ∀ r, (f r).spec = r.spec) :
    Ordered (db.setSteps p f) ∧ ∀ spec ∈ db.specs, spec ∈ (db.setSteps p f).specs := by
  refine ⟨⟨ho.wf.setSteps hspec, ?_⟩, fun spec hmem => ?_⟩
  · have hplace : ∀ {i c}, (db.setSteps p f).board i = some c →
        ∃ c', db.board i = some c' ∧ c'.pipeline = c.pipeline ∧ c'.position = c.position := by
      intro i c hc
      rw [board_setSteps hspec] at hc
      obtain ⟨r, hr, rfl⟩ := Option.map_eq_some_iff.1 hc
      refine ⟨r.cell, by simp [Db.board, hr], ?_⟩
      split
      · exact ⟨congrArg StepSpec.task (hspec r).symm, congrArg StepSpec.position (hspec r).symm⟩
      · exact ⟨rfl, rfl⟩
    intro i j c d hc hd hpipeline hposition
    obtain ⟨c', hc', hcp, hcq⟩ := hplace hc
    obtain ⟨d', hd', hdp, hdq⟩ := hplace hd
    exact ho.placed i j c' d' hc' hd' (by rw [hcp, hdp, hpipeline]) (by rw [hcq, hdq, hposition])
  · obtain ⟨r, hr, rfl⟩ := List.mem_map.1 hmem
    obtain ⟨r', hr', heq⟩ := spec_setSteps hspec hr
    exact heq ▸ List.mem_map_of_mem hr'

/-- What the last transaction of `reconcile` comes to, where it settles the step. -/
theorem settle_cases {env : Env} {r : Reading} {guard : Except Err Unit} {e : String} {db db' : Db}
    {tables : Tables} {book book' : List Dispatch}
    (h : settle lib env db tables book r guard (some e) = .ok (db', book')) :
    ∃ loaded receipt c, Loads lib env db tables book r.inquiry guard loaded ∧
      receipt = reconciledReceipt r.loaded.row.step.spec.tool e r.loaded.out.reference ∧
      r.inquiry.manager.agent env db tables r.inquiry.tenant r.loaded.connection r.loaded.row.agent
        r.loaded.required = .ok c ∧
      (c.generation = r.grant.generation ∧ c.status = .active ∧ env.now < c.expires) ∧
      exec lib.toPlatform db (.googleReconcile r.inquiry.tenant r.inquiry.step receipt) =
        .ok (db', .none) ∧
      book' = update (fun d => d.key = r.inquiry.key)
        (fun d => { d with status := .succeeded, receipt := receipt }) book := by
  simp only [settle, bind_eq_ok, exists_unit, ensure_eq_ok, pure_eq_ok, Prod.mk.injEq] at h
  obtain ⟨loaded, hload, c, hc, hfenced, ⟨db'', out⟩, hdb, rfl, rfl⟩ := h
  refine ⟨loaded, _, c, load_cases hload, rfl, hc, hfenced, ?_, rfl⟩
  have hout : out = .none := by
    simp only [googleReconcile, bind_eq_ok, need_eq_ok, ensure_eq_ok, exists_unit, pure_eq_ok,
      Prod.mk.injEq] at hdb
    obtain ⟨_, -, -, -, rfl⟩ := hdb
    rfl
  exact hout ▸ hdb

theorem settle_keys {env : Env} {r : Reading} {guard : Except Err Unit} {e : String} {db db' : Db}
    {tables : Tables} {book book' : List Dispatch}
    (h : settle lib env db tables book r guard (some e) = .ok (db', book')) :
    book'.map Dispatch.key = book.map Dispatch.key := by
  obtain ⟨_, _, _, -, -, -, -, -, rfl⟩ := settle_cases h
  exact map_update fun _ _ _ => rfl

/-- Every event keeps the engine's tables in order. -/
theorem Change.ordered (ho : Ordered s.db) (h : Change lib s l t) :
    Ordered t.db ∧ ∀ spec ∈ s.db.specs, spec ∈ t.db.specs := by
  cases h with
  | engine hop => exact ho.after _
  | requeued => exact ho.setSteps fun _ => rfl
  | @moved _ s' w stage hdb =>
    have hsame : (s'.goto w stage).db = s.db := hdb
    rw [hsame]
    exact ⟨ho, fun _ h => h⟩
  | @settled w env guard r e db book hcall hsettle =>
    obtain ⟨_, receipt, _, -, -, -, -, hexec, -⟩ := settle_cases hsettle
    have hafter := ho.after (P := lib.toPlatform)
      (.googleReconcile r.inquiry.tenant r.inquiry.step receipt)
    rw [Db.after, hexec, commit_ok] at hafter
    exact hafter
  | _ => exact ⟨ho, fun _ h => h⟩

end Tables

/-! ### The book of the journals -/

section Book

variable {lib : Library} {s s' t : State} {l : Label} {w : ℕ} {stage : Stage}

theorem mem_journaled {k : Key} :
    k ∈ s.journaled ↔ (k.ledger = .google ∧ (k.tenant, k.step) ∈ s.google.map Dispatch.key) ∨
      (k.ledger = .database ∧ (k.tenant, k.step) ∈ s.database.map DatabaseDispatch.key) := by
  obtain ⟨ledger, tenant, step⟩ := k
  simp only [State.journaled, Set.mem_union, Set.mem_ofPred_eq, Key.mk.injEq, List.mem_map, Dispatch.key,
    DatabaseDispatch.key, Prod.mk.injEq]
  constructor
  · rintro (⟨d, hd, rfl, rfl, rfl⟩ | ⟨d, hd, rfl, rfl, rfl⟩)
    · exact .inl ⟨rfl, d, hd, rfl, rfl⟩
    · exact .inr ⟨rfl, d, hd, rfl, rfl⟩
  · rintro (⟨rfl, d, hd, rfl, rfl⟩ | ⟨rfl, d, hd, rfl, rfl⟩)
    · exact .inl ⟨d, hd, rfl, rfl, rfl⟩
    · exact .inr ⟨d, hd, rfl, rfl, rfl⟩

theorem journaled_congr (hgoogle : s'.google.map Dispatch.key = s.google.map Dispatch.key)
    (hdatabase : s'.database.map DatabaseDispatch.key = s.database.map DatabaseDispatch.key) :
    s'.journaled = s.journaled := by
  ext k
  rw [mem_journaled, mem_journaled, hgoogle, hdatabase]

theorem book_goto : (s.goto w stage).book =
    ⟨s.journaled, Function.update (Stage.held ∘ s.calls) w stage.held, s.writes⟩ := by
  change (⟨s.journaled, Stage.held ∘ Function.update s.calls w stage, s.writes⟩ : Journal.Book Key) = _
  rw [Function.comp_update]

/-- Every event is a move of the book. -/
theorem Change.move (h : Change lib s l t) : Journal.Move s.book t.book := by
  cases h with
  | stay | engine | requeued | managed => exact .same
  | @moved _ s' w stage hdb hcalls hgoogle hdatabase hwrites hshown hheld hstage =>
    rw [book_goto, journaled_congr hgoogle hdatabase, hcalls, hwrites, hheld]
    exact .drop w
  | @recorded w env x row grant hcall hwrite hnew =>
    have hkey : (⟨.google, x.tenant, x.step⟩ : Key) ∉ s.journaled := by
      rw [mem_journaled]
      rintro (⟨-, hmem⟩ | ⟨hledger, -⟩)
      · exact hnew hmem
      · cases hledger
    have hrecorded : ({ s with google := s.google ++ [x.dispatch lib row grant] } : State).journaled =
        insert ⟨.google, x.tenant, x.step⟩ s.journaled := by
      ext ⟨ledger, tenant, step⟩
      rw [Set.mem_insert_iff, mem_journaled, mem_journaled]
      simp only [List.map_append, List.mem_append, List.map_cons, List.map_nil, List.mem_singleton,
        Dispatch.key, Execution.dispatch, Prod.mk.injEq, Key.mk.injEq]
      tauto
    rw [book_goto, hrecorded, Stage.held, if_pos hwrite]
    exact .record hkey
  | @recordedWrite w env y row d hcall hrow htool hnew htenant hstep =>
    have hkey : (⟨.database, y.tenant, y.step⟩ : Key) ∉ s.journaled := by
      rw [mem_journaled]
      rintro (⟨hledger, -⟩ | ⟨-, hmem⟩)
      · cases hledger
      · exact hnew hmem
    have hrecorded : ({ s with database := s.database ++ [d] } : State).journaled =
        insert ⟨.database, y.tenant, y.step⟩ s.journaled := by
      ext ⟨ledger, tenant, step⟩
      rw [Set.mem_insert_iff, mem_journaled, mem_journaled]
      simp only [List.map_append, List.mem_append, List.map_cons, List.map_nil, List.mem_singleton,
        DatabaseDispatch.key, htenant, hstep, Prod.mk.injEq, Key.mk.injEq]
      tauto
    rw [book_goto, hrecorded]
    exact .record hkey
  | @sent w env x grant hcall =>
    rw [book_goto]
    by_cases hwrite : x.write = true
    · have hheld : s.book.holds w = some ⟨.google, x.tenant, x.step⟩ := by
        simp [State.book, hcall, Stage.held, hwrite]
      have hsent : (s.request (.api x)).writes = s.writes ++ [⟨.google, x.tenant, x.step⟩] := by
        simp [State.writes, State.request, Request.write, hwrite]
      rw [hsent]
      exact .send hheld
    · have hsent : (s.request (.api x)).writes = s.writes := by
        simp [State.writes, State.request, Request.write, hwrite]
      rw [hsent]
      exact .drop w
  | @transported w y hcall =>
    have hheld : s.book.holds w = some ⟨.database, y.tenant, y.step⟩ := by
      simp [State.book, hcall, Stage.held]
    have hsent : (s.request (.database y)).writes = s.writes ++ [⟨.database, y.tenant, y.step⟩] := by
      simp [State.writes, State.request, Request.write]
    rw [book_goto, hsent]
    exact .send hheld
  | @settled w env guard r e db book hcall hsettle =>
    have hsame : (s.settled db book).journaled = s.journaled :=
      journaled_congr (settle_keys hsettle) rfl
    rw [book_goto, hsame]
    exact .drop w

end Book

/-! ### Runs -/

/-- The invariant of every run. -/
structure Kept (lib : Library) (s : State) : Prop where
  ordered : Ordered s.db
  justified : ∀ w, (s.calls w).Justified lib s
  sound : Journal.Sound s.book
  /-- A journal row is of a step whose tool writes to this journal. -/
  typed : ∀ k ∈ s.journaled, ∃ spec ∈ s.db.specs, spec.tenant = k.tenant ∧ spec.id = k.step ∧
    ledgerOf spec.tool = some k.ledger

section Kept

variable {lib : Library} {s t : State} {l : Label}

theorem kept_empty : Kept lib {} where
  ordered := ordered_empty
  justified := fun _ => trivial
  sound := by
    have hbook : ({} : State).book = ⟨∅, fun _ => none, []⟩ := by
      simp [State.book, State.journaled, State.writes, Function.comp_def, Stage.held]
    rw [hbook]
    exact Journal.sound_empty
  typed := by simp [State.journaled]

/-- What every worker rests on stays. -/
theorem Change.justified (hk : Kept lib s) (h : Change lib s l t) :
    ∀ w, (t.calls w).Justified lib t := by
  have hspecs := (h.ordered hk.ordered).2
  -- a worker that goes on stands at a justified stage, the others rest on what they rested on
  have hgoto : ∀ {s' : State} {w : ℕ} {stage : Stage}, s'.calls = s.calls →
      (∀ spec ∈ s.db.specs, spec ∈ s'.db.specs) → (∀ r ∈ s.shown, r ∈ s'.shown) →
      stage.Justified lib s' → ∀ v, ((s'.goto w stage).calls v).Justified lib (s'.goto w stage) := by
    intro s' w stage hcalls hsub hshown hstage v
    change (Function.update s'.calls w stage v).Justified lib (s'.goto w stage)
    by_cases hv : v = w
    · rw [hv, Function.update_self]
      exact hstage.mono (fun _ h => h) fun _ h => h
    · rw [Function.update_of_ne hv, hcalls]
      exact (hk.justified v).mono hsub hshown
  cases h with
  | stay => exact hk.justified
  | engine | requeued | managed => exact fun v => (hk.justified v).mono hspecs fun _ h => h
  | moved hdb hcalls _ _ _ hshown _ hstage =>
    refine hgoto hcalls ?_ hshown hstage
    rw [hdb]
    exact fun _ h => h
  | recorded | recordedWrite | sent | transported =>
    exact hgoto rfl (fun _ h => h) (fun _ h => h) trivial
  | settled => exact hgoto rfl hspecs (fun _ h => h) trivial

/-- A new journal row is of the step the worker's row was read from. -/
theorem Change.typed (hk : Kept lib s) (h : Change lib s l t) {k : Key} (hmem : k ∈ t.journaled) :
    k ∈ s.journaled ∨
      ∃ spec ∈ s.db.specs, spec.tenant = k.tenant ∧ spec.id = k.step ∧
        ledgerOf spec.tool = some k.ledger := by
  cases h with
  | stay | engine | requeued | managed | sent | transported => exact .inl hmem
  | @moved _ s' w stage _ _ hgoogle hdatabase =>
    exact .inl ((journaled_congr hgoogle hdatabase).subset hmem)
  | @recorded w env x row grant hcall hwrite hnew =>
    rcases mem_journaled.1 hmem with ⟨hledger, hkey⟩ | ⟨hledger, hkey⟩
    · have hkey' : (k.tenant, k.step) ∈ s.google.map Dispatch.key ++ [x.key] := by
        simpa [State.goto, Execution.dispatch, Dispatch.key, Execution.key] using hkey
      rcases List.mem_append.1 hkey' with hold | hnew
      · exact .inl (mem_journaled.2 (.inl ⟨hledger, hold⟩))
      · have hrooted := hk.justified w
        rw [hcall] at hrooted
        obtain ⟨htenant, hstep⟩ := Prod.mk.inj (List.mem_singleton.1 hnew)
        refine .inr ⟨_, hrooted.spec, hrooted.tenant.trans htenant.symm, hrooted.id.trans hstep.symm, ?_⟩
        have htool : row.step.spec.tool ∈ writes := by
          rw [hrooted.tool]
          simpa [Execution.write] using hwrite
        rw [ledgerOf, if_pos htool, hledger]
    · exact .inl (mem_journaled.2 (.inr ⟨hledger, hkey⟩))
  | @recordedWrite w env y row d hcall hrow htool hnew htenant hstep =>
    rcases mem_journaled.1 hmem with ⟨hledger, hkey⟩ | ⟨hledger, hkey⟩
    · exact .inl (mem_journaled.2 (.inl ⟨hledger, hkey⟩))
    · have hkey' : (k.tenant, k.step) ∈ s.database.map DatabaseDispatch.key ++ [y.key] := by
        simpa [State.goto, DatabaseDispatch.key, DatabaseWrite.key, htenant, hstep] using hkey
      rcases List.mem_append.1 hkey' with hold | hnew
      · exact .inl (mem_journaled.2 (.inr ⟨hledger, hold⟩))
      · obtain ⟨hrow, hrtenant, hrid⟩ := joined?_some hrow
        obtain ⟨hktenant, hkstep⟩ := Prod.mk.inj (List.mem_singleton.1 hnew)
        refine .inr ⟨_, List.mem_map_of_mem hrow, hrtenant.trans hktenant.symm,
          hrid.trans hkstep.symm, ?_⟩
        rw [htool, hledger]
        decide
  | @settled w env guard r e db book hcall hsettle =>
    have hsame : (s.settled db book).journaled = s.journaled :=
      journaled_congr (settle_keys hsettle) rfl
    exact .inl (hsame.subset hmem)

theorem Step.kept (hk : Kept lib s) (h : Step lib s l t) : Kept lib t := by
  have hc := h.change hk.justified
  obtain ⟨hordered, hspecs⟩ := hc.ordered hk.ordered
  refine ⟨hordered, hc.justified hk, hc.move.sound hk.sound, fun k hmem => ?_⟩
  have hold : ∃ spec ∈ s.db.specs, spec.tenant = k.tenant ∧ spec.id = k.step ∧
      ledgerOf spec.tool = some k.ledger := (hc.typed hk hmem).elim (hk.typed k) id
  obtain ⟨spec, hspec, hrest⟩ := hold
  exact ⟨spec, hspecs spec hspec, hrest⟩

/-- A step's write is recorded in one journal. -/
theorem Kept.one_ledger (hk : Kept lib s) {k k' : Key} (hmem : k ∈ s.journaled)
    (hmem' : k' ∈ s.journaled) (htenant : k.tenant = k'.tenant) (hstep : k.step = k'.step) : k = k' := by
  obtain ⟨spec, hspec, -, hid, hledger⟩ := hk.typed k hmem
  obtain ⟨spec', hspec', -, hid', hledger'⟩ := hk.typed k' hmem'
  obtain ⟨r, hr, rfl⟩ := List.mem_map.1 hspec
  obtain ⟨r', hr', rfl⟩ := List.mem_map.1 hspec'
  have hsame : r = r' := hk.ordered.wf.steps.eq_of_key hr hr' (hid.trans (hstep.trans hid'.symm))
  subst hsame
  have hboth : k.ledger = k'.ledger := Option.some.inj (hledger.symm.trans hledger')
  obtain ⟨ledger, tenant, step⟩ := k
  obtain ⟨ledger', tenant', step'⟩ := k'
  simp_all

end Kept

/-- The worker whose write leaves with an event. -/
def Label.sender? : Label → Option ℕ
  | .send w _ | .transport w => some w
  | _ => none

/-- The external write `k` leaves, sent by the worker `w`. -/
def Sends (w : ℕ) (k : Key) (τ : Transition State Label) : Prop :=
  τ.label.sender? = some w ∧ τ.dst.writes = τ.src.writes ++ [k]

/-- The transaction in which the worker `w` would record the write `k`. -/
inductive Records (w : ℕ) (k : Key) (τ : Transition State Label) : Prop
  | google {env : Env} {x : Execution} {row : Joined} {grant : Grant} (hl : τ.label = .journal w env)
      (hcall : τ.src.calls w = .journaling x row grant) (hwrite : x.write = true)
      (hk : k = ⟨.google, x.tenant, x.step⟩)
  | database {env : Env} {y : DatabaseWrite} (hl : τ.label = .journalWrite w env)
      (hcall : τ.src.calls w = .writing y) (hk : k = ⟨.database, y.tenant, y.step⟩)

section Runs

variable {lib : Library} {s t : State} {l : Label} {τs : List (Transition State Label)}

/-- A write leaves only from the worker that holds it. -/
theorem Change.sends (h : Change lib s l t) :
    t.writes = s.writes ∨ ∃ w k, Sends w k ⟨s, l, t⟩ ∧ (s.calls w).held = some k := by
  cases h with
  | moved _ _ _ _ hwrites => exact .inl hwrites
  | @sent w env x grant hcall =>
    by_cases hwrite : x.write = true
    · refine .inr ⟨w, ⟨.google, x.tenant, x.step⟩, ⟨rfl, ?_⟩, ?_⟩
      · simp [State.writes, State.request, State.goto, Request.write, hwrite]
      · simp [hcall, Stage.held, hwrite]
    · exact .inl (by simp [State.writes, State.request, State.goto, Request.write, hwrite])
  | @transported w y hcall =>
    refine .inr ⟨w, ⟨.database, y.tenant, y.step⟩, ⟨rfl, ?_⟩, ?_⟩
    · simp [State.writes, State.request, State.goto, Request.write]
    · simp [hcall, Stage.held]
  | _ => exact .inl rfl

theorem Sends.held {w : ℕ} {k : Key} (h : Change lib s l t) (hs : Sends w k ⟨s, l, t⟩) :
    (s.calls w).held = some k := by
  obtain ⟨hsender, hwrites⟩ := hs
  dsimp only at hsender hwrites
  rcases h.sends with hsame | ⟨w', k', ⟨hsender', hwrites'⟩, hheld⟩
  · rw [hsame] at hwrites
    simp at hwrites
  · obtain rfl : w' = w := Option.some.inj (hsender'.symm.trans hsender)
    have hlast : s.writes ++ [k'] = s.writes ++ [k] := hwrites'.symm.trans hwrites
    obtain rfl := (List.cons.inj (List.append_cancel_left hlast)).1
    exact hheld

/-- A write that is recorded is not recorded again: the transaction raises. -/
theorem Step.refused (h : Step lib s l t) {w : ℕ} {k : Key} (hr : Records w k ⟨s, l, t⟩)
    (hmem : k ∈ s.journaled) : t = s.goto w .idle := by
  subst h
  cases hr with
  | @google env x row grant hl hcall hwrite hk =>
    dsimp only at hl hcall
    subst hl hk
    have hkey : x.key ∈ s.google.map Dispatch.key := by
      rcases mem_journaled.1 hmem with ⟨-, hkey⟩ | ⟨hledger, -⟩
      · exact hkey
      · cases hledger
    simp only [State.after, hcall, hwrite, if_true]
    split
    · rename_i hbook
      exact absurd hkey (journal_cases hbook).1
    · rfl
  | @database env y hl hcall hk =>
    dsimp only at hl hcall
    subst hl hk
    have hkey : y.key ∈ s.database.map DatabaseDispatch.key := by
      rcases mem_journaled.1 hmem with ⟨hledger, -⟩ | ⟨-, hkey⟩
      · cases hledger
      · exact hkey
    simp only [State.after, hcall]
    split
    · rename_i hbook
      obtain ⟨_, _, -, -, hnew, -⟩ := journalWrite_cases hbook
      exact absurd hkey hnew
    · rfl

theorem reachable_kept (h : Run (Step lib) {} τs s) : Kept lib s :=
  h.invariant kept_empty fun _ _ _ hk hs => Step.kept hk hs

theorem never_sent {s₀ : State} (hk : Kept lib s₀) {w : ℕ} {k : Key}
    (hr : Journal.Refused s₀.book w k) (h : Run (Step lib) s₀ τs s) :
    ∀ τ ∈ τs, ¬ Sends w k τ := by
  intro τ hτ hsends
  obtain ⟨hstep, hkept, hrefused⟩ := h.always (I := fun s => Kept lib s ∧ Journal.Refused s.book w k)
    ⟨hk, hr⟩ (fun s e t hI hs => ⟨hs.kept hI.1, (hs.change hI.1.justified).move.refused hI.2⟩) hτ
  exact hrefused.2 (Sends.held (hstep.change hkept.justified) hsends)

/-- **A step's external write is dispatched at most once.** Over any run of the engine, the OAuth
manager and any number of workers: no step has two writes among the requests that left; every write
left from the worker that had committed its journal row; a worker that does not hold a recorded write
never sends it, whatever it executes; and the transaction that would record it again raises. -/
theorem dispatched_once (h : Run (Step lib) {} τs s) :
    (s.writes.map fun k => (k.tenant, k.step)).Nodup ∧
    (∀ τ ∈ τs, τ.dst.writes = τ.src.writes ∨
      ∃ w k, Sends w k τ ∧ (τ.src.calls w).held = some k ∧ k ∈ τ.src.journaled) ∧
    (∀ pre τ post, τs = pre ++ τ :: post → ∀ w k, k ∈ τ.dst.journaled →
      (τ.dst.calls w).held ≠ some k → ∀ σ ∈ post, ¬ Sends w k σ) ∧
    ∀ τ ∈ τs, ∀ w k, Records w k τ → k ∈ τ.src.journaled → τ.dst = τ.src.goto w .idle := by
  have hkept := reachable_kept h
  refine ⟨?_, ?_, ?_, ?_⟩
  · refine List.Nodup.map_on (fun k hk k' hk' heq => ?_) hkept.sound.once
    obtain ⟨htenant, hstep⟩ := Prod.mk.inj heq
    exact hkept.one_ledger (hkept.sound.recorded k hk) (hkept.sound.recorded k' hk') htenant hstep
  · intro τ hτ
    obtain ⟨hstep, hsrc⟩ := h.always kept_empty (fun _ _ _ hk hs => Step.kept hk hs) hτ
    rcases (hstep.change hsrc.justified).sends with hsame | ⟨w, k, hsends, hheld⟩
    · exact .inl hsame
    · exact .inr ⟨w, k, hsends, hheld, (hsrc.sound.held w k hheld).1⟩
  · rintro pre τ post rfl w k hmem hheld
    obtain ⟨hpre, hstep⟩ := h.split
    exact never_sent (Step.kept (reachable_kept hpre) hstep) ⟨hmem, hheld⟩ h.rest
  · intro τ hτ w k hr hmem
    exact (h.step_of_mem hτ).refused hr hmem

end Runs

/-! ### A visit that two workers book -/

section Sample

def visitScope : String := scopePrefix ++ "calendar.events"

def visitFields : List String := ["connection", "calendar", "summary", "start", "end"]

/-- `datetime.fromisoformat`, of the two timestamps of the visit. -/
def visitInstant (text : String) : Except Err (Option Time) :=
  if text = "2026-01-01T10:00+00:00" then .ok (some (seconds 1767261600))
  else if text = "2026-01-01T11:00+00:00" then .ok (some (seconds 1767265200))
  else .error (.valueError "Invalid isoformat string")

/-- A platform that creates calendar events; nothing here writes or reads mail. -/
def visitLibrary : Library where
  registry := [⟨"google.calendar.create", .write, .mk .object none
    (visitFields.map fun name => (name, .mk .string none [] [] none 0 100 1 256 0 0)) visitFields none 0
    100 0 20000 0 0, false⟩]
  sha256 := fun text => toString text.utf8ByteSize
  hex := fun n => toString n
  fromisoformat := visitInstant
  asBytes := fun _ _ _ _ => .error (.valueError "no mail")
  urlsafeB64encode := fun _ => ""
  urlsafeB64decode := fun _ => .ok []
  b64decode := fun _ => .ok []
  parsebytes := fun _ => ⟨false, false, "text/plain", fun _ => [], .ok ""⟩

def visitArgs : Json :=
  .obj [("connection", .str "c"), ("calendar", .str "m"), ("summary", .str "Visit"),
    ("start", .str "2026-01-01T10:00Z"), ("end", .str "2026-01-01T11:00Z")]

def visitEnv (second : ℕ) : Env where
  policy := fun _ _ => .ok (.obj [("ladder", .str "human_assisted"),
    ("tools", .arr [.str "google.calendar.create"]), ("allowed_connections", .arr [.str "c"])])
  authority := fun _ _ _ _ => .ok ()
  bindings := fun _ _ _ _ => .ok []
  now := seconds second
  parentNow := fun _ => seconds second

def visitManager : Manager where
  name := "google"
  account := "sales@acme.uz"
  configHash := "h"
  requiredScopes := [visitScope]
  vault :=
    { sealed := fun _ _ => .ok "envelope"
      opened := fun _ _ => .ok (.obj [("verifier", .str "v"), ("access_token", .str "t"),
        ("refresh_token", .str "r"), ("scopes", .arr [.str visitScope])])
      rewrap := fun envelope _ => .ok envelope }
  authorizationUrl := fun _ _ => .ok "https://accounts.example"
  sha256 := id

def visitTokens : Json :=
  .obj [("token_type", .str "Bearer"), ("access_token", .str "t"), ("refresh_token", .str "r"),
    ("expires_in", .int 3600), ("scope", .str visitScope)]

def visitConfig : Json :=
  .obj [("google_resources", .obj [("c", .obj [("recipient_emails", .arr []),
    ("calendar_ids", .arr [.str "m"])])])]

/-- A worker executes the step, up to the dispatch transaction. -/
def visitExecute (w : ℕ) (attempt : String) : List Label :=
  [.execute w (.ok visitConfig) (.ok visitManager) "acme" "clerk" "google.calendar.create" visitArgs 1,
    .read w, .check w (visitEnv 5), .access w (visitEnv 5) attempt, .read w, .check w (visitEnv 5),
    .fence w (visitEnv 5)]

/-- The owner connects the account and approves the visit; two workers execute it, and the answer to the
first one's request is lost. -/
def visitLabels : List Label :=
  [.oauth (.begin visitManager (visitEnv 0) "acme" "c" "dana" "web" "state" "v"),
    .oauth (.complete 9 visitManager (visitEnv 1) "acme" "c" "dana" "web" "state" "code" "a1"),
    .oauth (.answer 9 (visitEnv 2) (.ok ()) (.ok visitTokens) (.ok "sales@acme.uz")),
    .op (.submit (visitEnv 3) "acme" "web" "k1" "clerk"
      [.obj [("tool", .str "google.calendar.create"), ("args", visitArgs)]] "dana"),
    .op (.approve (visitEnv 3) "acme" 1 "dana" "approved" "owner"),
    .op (.claim (visitEnv 4) "acme" "w1" "" 60)] ++
  visitExecute 0 "a2" ++ visitExecute 1 "a3" ++
  [.journal 0 (visitEnv 6), .journal 1 (visitEnv 6), .send 0 (visitEnv 6),
    .answer 0 (.error (.runtimeError "timed out")), .fail 0,
    .op (.finish (visitEnv 7) "acme" 1 (some 2) (.obj []) .uncertain "OAuthError")]

def visitState : State := visitLabels.foldl (State.after visitLibrary) {}

theorem visit_run : Run (Step visitLibrary) {} (trace (State.after visitLibrary) {} visitLabels)
    visitState :=
  Run.nil.calls visitLabels

theorem dispatched_once_sample :
    (visitState.writes.map fun k => (k.tenant, k.step)).Nodup ∧
    visitState.writes = [⟨.google, "acme", 1⟩] ∧
    visitState.google.map (fun d => (d.key, d.status)) = [(("acme", 1), .uncertain)] :=
  ⟨(dispatched_once visit_run).1, by decide +kernel, by decide +kernel⟩

end Sample

end AgentPlatform.Google
