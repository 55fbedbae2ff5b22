import AgentPlatform.Engine.Effects

/-!
# The queue

What `claim` may hand out, and what its review of the candidates leaves alone: the candidates are
steps of different tasks (`candidates_apart`), so the writes for one candidate keep the others
(`Live.skip`). `Effect.moves` is the summary: everything an operation does to the steps and tasks is a
sequence of moves in which a step starts to run only if `claim` returns it.
-/

namespace AgentPlatform.Engine

open Outcome Table Pipeline Runs

/-! ### Candidates -/

/-- A candidate that `claim` may still hand out. -/
structure Live (db : Db) (tenant : String) (c : Candidate) : Prop where
  step : c.step ∈ db.steps
  row : c.row ∈ db.tasks
  owner : c.row.id = c.step.task
  tenant : c.step.tenant = tenant
  pending : c.step.status.pending = true
  active : c.row.status.active = true
  ready : Ready db.board c.step.cell

section Candidates

variable {db : Db} {tenant device : String}

/-- What the query of `claim` checks. -/
theorem candidate?_cases {s : StepRow} {c : Candidate} (h : candidate? db tenant device s = some c) :
    c.step = s ∧ db.owner? s = some c.row ∧ s.tenant = tenant ∧ s.status.pending = true ∧
      c.row.status.active = true ∧ ∀ prev ∈ db.steps, prev.task = s.task →
        prev.spec.position < s.spec.position → prev.status = .succeeded := by
  unfold candidate? at h
  split at h
  · rename_i t ht
    split at h
    · rename_i hguard
      obtain rfl := Option.some.inj h
      simp only [Bool.and_eq_true, decide_eq_true_eq, List.all_eq_true, Bool.not_eq_true',
        Bool.and_eq_false_iff, decide_eq_false_iff_not, ne_eq, not_not] at hguard
      obtain ⟨⟨⟨⟨htenant, -⟩, hpending⟩, hactive⟩, hprev⟩ := hguard
      refine ⟨rfl, ht, htenant, hpending, hactive, fun prev hmem htask hposition => ?_⟩
      rcases hprev prev hmem with (hne | hle) | hsucceeded
      · exact absurd htask hne
      · exact absurd hposition hle
      · exact hsucceeded
    · cases h
  · cases h

theorem candidates_live {c : Candidate} (h : c ∈ candidates db tenant device) :
    Live db tenant c := by
  rw [candidates, List.mem_insertionSort, List.mem_filterMap] at h
  obtain ⟨s, hs, h⟩ := h
  obtain ⟨rfl, hrow, htenant, hpending, hactive, hprev⟩ := candidate?_cases h
  refine ⟨hs, List.mem_of_find?_eq_some hrow, by simpa using List.find?_some hrow, htenant, hpending,
    hactive, fun j d hd hpipeline hposition => ?_⟩
  obtain ⟨s, hs, -, rfl⟩ := board_some hd
  exact hprev s hs hpipeline hposition

theorem candidates_perm :
    (candidates db tenant device).Perm (db.steps.filterMap (candidate? db tenant device)) :=
  List.perm_insertionSort _ _

/-- The candidates are steps of different tasks. -/
theorem candidates_apart (hwf : Wf db) (hplaced : Placed db.board) :
    (candidates db tenant device).Pairwise fun c d => c.step.task ≠ d.step.task := by
  have hids : (db.steps.filterMap (candidate? db tenant device)).Pairwise
      fun c d => c.step.id ≠ d.step.id := by
    rw [List.pairwise_filterMap]
    have hsteps : db.steps.Pairwise fun s s' => s.id ≠ s'.id := List.pairwise_map.1 hwf.steps
    refine hsteps.imp fun {s s'} hne c hc d hd => ?_
    rw [(candidate?_cases hc).1, (candidate?_cases hd).1]
    exact hne
  have hsorted : (candidates db tenant device).Pairwise fun c d => c.step.id ≠ d.step.id :=
    (candidates_perm.pairwise_iff fun h => h.symm).2 hids
  refine hsorted.imp_of_mem fun {c d} hc hd hne htask => ?_
  have hcl := candidates_live hc
  have hdl := candidates_live hd
  -- of two pending steps of one task, the later one is not ready
  have hpos : ∀ {c d : Candidate}, Live db tenant c → Live db tenant d →
      c.step.task = d.step.task → ¬ c.step.spec.position < d.step.spec.position := by
    intro c d hc hd htask hlt
    have hst := hd.ready c.step.id _ (hwf.board_eq hc.step) htask hlt
    change c.step.status = .succeeded at hst
    have hpending := hc.pending
    rw [hst] at hpending
    cases hpending
  refine hne (hplaced _ _ _ _ (hwf.board_eq hcl.step) (hwf.board_eq hdl.step) htask ?_)
  exact Nat.le_antisymm (Nat.not_lt.1 (hpos hdl hcl htask.symm))
    (Nat.not_lt.1 (hpos hcl hdl htask))

end Candidates

/-! ### The writes for one candidate -/

section Writes

variable {P : Platform} {env : Env} {db : Db} {tenant : String} {enters : Cell Uuid → Status → Prop}

theorem moves_update {p : StepRow → Bool} {f : StepRow → StepRow} {db' : Db}
    (hsteps : db'.steps = Table.update p f db.steps) (htasks : db'.tasks = db.tasks)
    (hdrawn : db'.drawn = db.drawn) (hspec : ∀ r, (f r).spec = r.spec)
    (hchange : ∀ r ∈ db.steps, p r = true → Change enters db.board r.cell (f r).status) :
    Moves enters db db' :=
  .tail (.single (.steps hspec hchange)) (.frame htasks hsteps hdrawn.ge)

theorem Moves.refresh {db' : Db} (hm : Moves enters db db') (task : Uuid) :
    Moves enters db (db'.refresh tenant task) :=
  hm.tail (.refresh tenant task)

theorem Live.only (hwf : Wf db) {c : Candidate} (hc : Live db tenant c) {r : StepRow}
    (hr : r ∈ db.steps) (hid : r.id = c.step.id) : r = c.step :=
  hwf.steps.eq_of_key hr hc.step hid

/-- The writes for a candidate that is not granted are moves. -/
theorem Live.skip_moves (hwf : Wf db) {c : Candidate} (hc : Live db tenant c) (v : Review)
    (henters : ∀ status, status ≠ .running → enters c.step.cell status) :
    Moves enters db (db.skip tenant c v) := by
  cases v with
  | inactive =>
    unfold Db.skip Db.retire
    refine Moves.refresh ?_ _
    refine moves_update rfl rfl rfl (fun _ => rfl) fun r hr hp => ?_
    have hid : r.id = c.step.id := by simpa using (Bool.and_eq_true_iff.1 hp).2
    rw [hc.only hwf hr hid]
    exact .cancel hc.pending
  | failed error =>
    unfold Db.skip Db.failStep
    refine Moves.refresh ?_ _
    refine moves_update rfl rfl rfl (fun _ => rfl) fun r hr hp => ?_
    rw [hc.only hwf hr (of_decide_eq_true hp)]
    exact .enter hc.pending (henters _ (by simp)) hc.ready (.inr (.inr rfl))
  | waiting =>
    unfold Db.skip Db.park
    refine Moves.refresh ?_ _
    refine moves_update rfl rfl rfl (fun _ => rfl) fun r hr hp => ?_
    rw [hc.only hwf hr (of_decide_eq_true hp)]
    exact .enter hc.pending (henters _ (by simp)) hc.ready (.inr (.inl rfl))
  | granted => exact .refl

theorem expire_moves (hwf : Wf db) {r : StepRow} (hr : r ∈ db.steps) (hrunning : r.status = .running) :
    Moves enters db (db.expire tenant r) := by
  unfold Db.expire
  refine Moves.refresh ?_ _
  refine moves_update rfl rfl rfl (fun _ => rfl) fun s hs hp => ?_
  have hid : s.id = r.id := by simpa using (Bool.and_eq_true_iff.1 hp).2
  rw [hwf.steps.eq_of_key hs hr hid]
  exact .stop hrunning (.inr (.inr rfl))

theorem consume_frame (db : Db) (c : Candidate) :
    (db.consume c).steps = db.steps ∧ (db.consume c).tasks = db.tasks ∧
      (db.consume c).drawn = db.drawn := by
  unfold Db.consume
  split <;> exact ⟨rfl, rfl, rfl⟩

/-- The writes for the step that is handed out are moves. -/
theorem Live.start_moves (hwf : Wf db) {c : Candidate} (hc : Live db tenant c) (worker : String)
    (lease : Time) (henters : enters c.step.cell .running) :
    Moves enters db (db.start tenant c worker lease) := by
  obtain ⟨hsteps, htasks, hdrawn⟩ := consume_frame db c
  have hframe : Moves enters db { db.consume c with drawn := (db.consume c).drawn + 1 } :=
    .single (.frame htasks hsteps (by simp [hdrawn]))
  unfold Db.start
  refine Moves.refresh (hframe.trans ?_) _
  refine moves_update rfl rfl rfl (fun _ => rfl) fun r hr hp => ?_
  change Change enters (db.consume c).board _ _
  rw [hc.only hwf (hsteps ▸ hr) (of_decide_eq_true hp), board_congr hsteps]
  exact .enter hc.pending henters hc.ready (.inl rfl)

/-- The writes for one candidate keep the candidates of other tasks. -/
theorem Live.skip (hwf : Wf db) {c d : Candidate} (hc : Live db tenant c) (hd : Live db tenant d)
    (htask : c.step.task ≠ d.step.task) (v : Review) : Live (db.skip tenant c v) tenant d := by
  have hid : d.step.id ≠ c.step.id := fun h => htask (by rw [hc.only hwf hd.step h])
  have hrow : d.row.id ≠ c.step.task := fun h => htask (h.symm.trans hd.owner)
  have hmoves : Moves (fun _ _ => True) db (db.skip tenant c v) :=
    hc.skip_moves hwf v fun _ _ => trivial
  have hready := hd.ready.rounds (moves_rounds hwf hmoves) (hwf.board_eq hd.step)
  have hkept : d.step ∈ (db.skip tenant c v).steps ∧ d.row ∈ (db.skip tenant c v).tasks := by
    cases v with
    | granted => exact ⟨hd.step, hd.row⟩
    | inactive | failed | waiting =>
      exact ⟨mem_update_of_not hd.step (by simp [hid]), mem_update_of_not hd.row (by simp [hrow])⟩
  exact ⟨hkept.1, hkept.2, hd.owner, hd.tenant, hd.pending, hd.active, hready⟩

/-- The review of candidates: what holds at its start and is kept by the writes for each of them holds
at its end, where the other candidates are still live. -/
theorem Skipped.induct {db' : Db} {cs rest : List Candidate} (h : Skipped P env tenant db cs db')
    (hwf : Wf db) (hlive : ∀ c ∈ cs ++ rest, Live db tenant c)
    (hapart : (cs ++ rest).Pairwise fun c d => c.step.task ≠ d.step.task) {p : Db → Prop}
    (hstart : p db) (hskip : ∀ db, ∀ c ∈ cs, ∀ v, Wf db → Live db tenant c →
      review P env db tenant c = .ok v → p db → p (db.skip tenant c v)) :
    Wf db' ∧ p db' ∧ ∀ c ∈ rest, Live db' tenant c := by
  induction h with
  | nil db => exact ⟨hwf, hstart, hlive⟩
  | @cons db db' c cs v hreview _ _ ih =>
    rw [List.cons_append, List.forall_mem_cons] at hlive
    rw [List.cons_append, List.pairwise_cons] at hapart
    obtain ⟨hc, hlive⟩ := hlive
    have hmoves : Moves (fun _ _ => True) db (db.skip tenant c v) :=
    hc.skip_moves hwf v fun _ _ => trivial
    refine ih (hwf.moves hmoves) (fun d hd => hc.skip hwf (hlive d hd) (hapart.1 d hd) v) hapart.2
      (hskip db c List.mem_cons_self v hwf hc hreview hstart) fun db d hd => ?_
    exact hskip db d (List.mem_cons_of_mem _ hd)

/-- The writes for the expired leases: what holds before them and is kept by the writes for each holds
after them. -/
theorem expireLeases_induct {now : Time} (hwf : Wf db) {p : Db → Prop} (hstart : p db)
    (hexpire : ∀ db r, Wf db → r ∈ db.steps → r.status = .running → r.tenant = tenant → p db →
      p (db.expire tenant r)) : p (db.expireLeases tenant now) := by
  have hloop : ∀ (rs : List StepRow) (db : Db), Wf db → p db → Keyed StepRow.id rs →
      (∀ r ∈ rs, r ∈ db.steps ∧ r.status = .running ∧ r.tenant = tenant) →
      p (rs.foldl (fun db r => db.expire tenant r) db) := by
    intro rs
    induction rs with
    | nil => exact fun _ _ hp _ _ => hp
    | cons r rs ih =>
      intro db hwf hp hkeyed hrs
      rw [List.forall_mem_cons] at hrs
      obtain ⟨⟨hr, hrunning, htenant⟩, hrs⟩ := hrs
      have hkeys := List.pairwise_cons.1 (List.pairwise_map.1 hkeyed)
      have hmoves : Moves (fun _ _ => True) db (db.expire tenant r) :=
        expire_moves hwf hr hrunning
      refine ih _ (hwf.moves hmoves) (hexpire db r hwf hr hrunning htenant hp)
        (List.pairwise_map.2 hkeys.2) fun r' hr' => ?_
      obtain ⟨hmem, hrest⟩ := hrs r' hr'
      exact ⟨mem_update_of_not hmem (by simp [(hkeys.1 r' hr').symm]), hrest⟩
  refine hloop _ db hwf hstart ?_ fun r hr => ?_
  · exact List.Nodup.sublist (List.Sublist.map _ List.filter_sublist) hwf.steps
  · obtain ⟨hmem, hguard⟩ := List.mem_filter.1 hr
    simp only [Bool.and_eq_true, decide_eq_true_eq] at hguard
    exact ⟨hmem, hguard.1.2, hguard.1.1⟩

theorem expireLeases_moves {now : Time} (hwf : Wf db) :
    Moves enters db (db.expireLeases tenant now) := by
  refine expireLeases_induct (p := fun db' => Moves enters db db') hwf .refl ?_
  intro db' r hwf' hr hrunning _ hmoves
  exact hmoves.trans (expire_moves hwf' hr hrunning)

end Writes

end AgentPlatform.Engine
