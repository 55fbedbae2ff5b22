import AgentPlatform.Engine.Approvals
import AgentPlatform.Engine.Idempotency

/-!
# Fences: freezing a tenant and enrolling a device

A running step is a row that was running before, untouched, or the row `claim` returns now, with a
token drawn now (`Effect.running`). The two fences follow.

* In a frozen tenant nothing runs (`Still`) and nothing new comes (`frozen_step`), and no claim taken
  before a freeze is ever again the claim of a running step (`Renewed`).
* `device` puts the steps bound to the device out of reach for good, and counts up its generation
  (`device_fence`).
-/

namespace AgentPlatform.Engine

open Outcome Table Pipeline Runs

/-! ### Where a running step comes from -/

/-- Writes that start no step: what runs after them is a row that ran before. -/
def Unstarted (db db' : Db) : Prop := ∀ r ∈ db'.steps, r.status = .running → r ∈ db.steps

section Unstarted

variable {P : Platform} {env : Env} {db db' db'' : Db} {tenant : String}

theorem Unstarted.refl : Unstarted db db := fun _ hr _ => hr

theorem Unstarted.trans (h : Unstarted db db') (h' : Unstarted db' db'') : Unstarted db db'' :=
  fun r hr hrunning => h r (h' r hr hrunning) hrunning

theorem Unstarted.congr (h : Unstarted db db') (hsteps : db''.steps = db'.steps) :
    Unstarted db db'' := fun r hr => h r (hsteps ▸ hr)

theorem Unstarted.setSteps {p : StepRow → Bool} {f : StepRow → StepRow}
    (hf : ∀ r, (f r).status ≠ .running) : Unstarted db (db.setSteps p f) := by
  intro r' hr' hrunning
  obtain ⟨r, hr, rfl⟩ := mem_update.1 hr'
  split
  · rename_i hp
    rw [if_pos hp] at hrunning
    exact absurd hrunning (hf r)
  · exact hr

theorem stoppedStatus_ne (status : Status) : stoppedStatus status ≠ .running := by
  unfold stoppedStatus
  split <;> simp

theorem insertTask_unstarted {channel eventKey fingerprint agent actor approver : String}
    {plan : List Validated} {now : Time} : Unstarted db
      (db.insertTask tenant channel eventKey fingerprint agent actor plan approver now) := by
  intro r hr hrunning
  rcases List.mem_append.1 hr with hr | hr
  · exact hr
  · obtain ⟨i, v, -, rfl⟩ := mem_newSteps.1 hr
    cases hrunning

theorem skip_unstarted {c : Candidate} {v : Review} : Unstarted db (db.skip tenant c v) := by
  cases v with
  | inactive => exact (Unstarted.setSteps (p := fun _ => _) fun _ => by simp).congr rfl
  | failed error => exact (Unstarted.setSteps fun _ => by simp).congr rfl
  | waiting => exact (Unstarted.setSteps fun _ => by simp).congr rfl
  | granted => exact .refl

theorem skipped_unstarted {cs : List Candidate} (h : Skipped P env tenant db cs db') :
    Unstarted db db' := by
  induction h with
  | nil => exact .refl
  | cons _ _ _ ih => exact skip_unstarted.trans ih

theorem expireLeases_unstarted {now : Time} : Unstarted db (db.expireLeases tenant now) := by
  unfold Db.expireLeases
  generalize db.steps.filter _ = rs
  induction rs generalizing db with
  | nil => exact .refl
  | cons r rs ih => exact Unstarted.trans ((Unstarted.setSteps fun _ => by simp).congr rfl) ih

/-- A running step ran before, or is the one `claim` returns now, with a token drawn now. -/
theorem Effect.running {op : Op} {out : Reply} (ho : Orderly db) (he : Effect P db op out db')
    {r : StepRow} (hr : r ∈ db'.steps) (hrunning : r.status = .running) :
    r ∈ db.steps ∨ ∃ token, db.drawn ≤ token ∧ out = .claimed r.spec token ∧ r.claim = some token := by
  have hset : ∀ {db₁ : Db} {p : StepRow → Bool} {f : StepRow → StepRow},
      r ∈ db₁.steps → db₁.steps = (db.setSteps p f).steps → (∀ r, (f r).status ≠ .running) →
        r ∈ db.steps := by
    intro db₁ p f hr hsteps hf
    exact Unstarted.setSteps hf r (hsteps ▸ hr) hrunning
  cases he with
  | same | resumed | ended | elsewhere => exact .inl hr
  | submitted | replied => exact .inl (insertTask_unstarted r hr hrunning)
  | approved =>
    refine .inl (hset hr rfl fun _ => ?_)
    dsimp only
    split <;> simp
  | unclaimed _ hskipped =>
    exact .inl (expireLeases_unstarted.trans (skipped_unstarted hskipped) r hr hrunning)
  | @claimed env tenant worker device leaseSeconds skipped rest c db₁ hcs hskipped hreview =>
    obtain ⟨hsteps, -, hdrawn⟩ := consume_frame db₁ c
    obtain ⟨x, hx, hcase⟩ := mem_update.1 hr
    have hx₁ : x ∈ db₁.steps := hsteps ▸ hx
    split at hcase
    · rename_i hid
      have hreviewed : Wf db₁ ∧ Moves (fun _ _ => True) db db₁ ∧ ∀ d ∈ c :: rest, Live db₁ tenant d :=
        reviewed_moves device (c :: rest) ho.wf ho.placed hskipped (hcs ▸ List.Sublist.refl _)
          fun _ _ _ _ => trivial
      obtain ⟨hwf₁, hmoves, hlive⟩ := hreviewed
      have hc : c.step ∈ db₁.steps := (hlive c List.mem_cons_self).step
      obtain rfl := hwf₁.steps.eq_of_key hx₁ hc (of_decide_eq_true hid)
      subst hcase
      exact .inr ⟨db₁.drawn, hmoves.drawn_le, rfl, congrArg some hdrawn⟩
    · subst hcase
      exact .inl (expireLeases_unstarted.trans (skipped_unstarted hskipped) x hx₁ hrunning)
  | finished _ _ hstatus =>
    refine .inl (hset hr rfl fun _ => ?_)
    rcases hstatus with rfl | rfl | rfl <;> simp
  | cancelled => exact .inl (hset hr rfl fun x => stoppedStatus_ne x.status)
  | reconciled =>
    refine .inl (hset hr rfl fun _ => ?_)
    dsimp only
    split <;> simp
  | provided => exact .inl (hset hr rfl fun _ => by simp)
  | froze => exact .inl (hset hr refreshAll_steps fun _ => by simp)
  | enrolled => exact .inl (hset hr refreshAll_steps fun x => stoppedStatus_ne x.status)
  | @stopped tenant run task status status' reason actor linked _ =>
    unfold stopTask at hr
    by_cases hactive : linked.status.active = true
    · rw [if_pos hactive] at hr
      exact .inl (hset hr rfl fun x => stoppedStatus_ne x.status)
    · rw [if_neg hactive] at hr
      exact .inl hr

end Unstarted

/-! ### Freezing a tenant -/

/-- In a frozen tenant nothing runs. -/
def Still (db : Db) : Prop := ∀ r ∈ db.steps, db.frozen r.tenant = true → r.status ≠ .running

/-- The running steps of a tenant have claims drawn from `n` on. -/
def Renewed (n : Uuid) (tenant : String) (db : Db) : Prop :=
  n ≤ db.drawn ∧ ∀ r ∈ db.steps, r.tenant = tenant → r.status = .running →
    ∀ token, r.claim = some token → n ≤ token

section Freezing

variable {P : Platform} {env : Env} {db db' : Db} {tenant actor : String} {op : Op} {out : Reply}

theorem frozen_congr (h : db'.freeze = db.freeze) (t : String) : db'.frozen t = db.frozen t := by
  unfold Db.frozen
  rw [h]

theorem frozen_setFreeze (db : Db) (tenant : String) (stopped : Bool) (t : String) :
    (db.setFreeze tenant stopped).frozen t = if t = tenant then stopped else db.frozen t := by
  change ((Table.get FreezeRow.tenant t _).any FreezeRow.stopped) =
    if t = tenant then stopped else (Table.get FreezeRow.tenant t db.freeze).any FreezeRow.stopped
  unfold Db.setFreeze
  dsimp only
  by_cases hany : db.freeze.any (fun f => decide (f.tenant = tenant)) = true
  · rw [if_pos hany,
      get_update (f := fun f : FreezeRow => { f with stopped := stopped }) fun _ => rfl]
    split
    · rename_i ht
      obtain ⟨f, hf, htenant⟩ := List.any_eq_true.1 hany
      cases hget : Table.get FreezeRow.tenant t db.freeze with
      | none => exact absurd ((of_decide_eq_true htenant).trans ht.symm) (get_eq_none.1 hget f hf)
      | some row => rfl
    · rfl
  · rw [if_neg hany, get_append]
    by_cases ht : t = tenant
    · have hnone : Table.get FreezeRow.tenant tenant db.freeze = none := by
        refine get_eq_none.2 fun f hf htenant => hany ?_
        exact List.any_eq_true.2 ⟨f, hf, decide_eq_true htenant⟩
      rw [if_pos ht, ht, hnone]
      simp
    · have hne : ¬ tenant = t := fun h => ht h.symm
      simp [ht, hne]

theorem frozen_of_requireActive (h : env.requireActive db tenant = .ok ()) :
    db.frozen tenant = false := by
  simp only [Env.requireActive, bind_eq_ok, exists_unit, ensure_eq_ok] at h
  exact h.2

/-- `claim` hands out nothing of a frozen tenant. -/
theorem Effect.claimed_active {spec : StepSpec} {token : Uuid}
    (he : Effect P db op (.claimed spec token) db') :
    db.frozen spec.tenant = false ∧ token < db'.drawn := by
  cases he with
  | same _ hout => exact absurd rfl (hout spec token)
  | @claimed env tenant worker device leaseSeconds skipped rest c db₁ hcs hskipped _ hactive =>
    have hc : c ∈ candidates (db.expireLeases tenant env.now) tenant device :=
      hcs ▸ List.mem_append_right _ List.mem_cons_self
    have htenant : c.step.spec.tenant = tenant := (candidates_live hc).tenant
    rw [htenant, ← frozen_congr (freeze_unmoved.expireLeases db tenant env.now)]
    exact ⟨hactive, (Nat.lt_succ_self _).trans_eq
      (congrArg (· + 1) (consume_frame db₁ c).2.2.symm)⟩

theorem Effect.owned (he : Effect P db op out db') {k : Uuid × String × String × String}
    (hk : k ∈ db'.owners) : k ∈ db.owners ∨ db.frozen k.2.1 = false := by
  obtain ⟨db₀, hw, heq⟩ := he.written owners_unmoved (fun _ _ _ _ _ h => h) fun _ _ _ _ _ _ h => h
  rw [heq] at hk
  cases hw with
  | same | froze | enrolled | ended | elsewhere => exact .inl hk
  | submitted hactive | replied hactive =>
    rw [owners_insertTask] at hk
    rcases List.mem_append.1 hk with hk | hk
    · exact .inl hk
    · obtain rfl := List.mem_singleton.1 hk
      exact .inr (frozen_of_requireActive hactive)

theorem freezeSteps_still {r : StepRow} (hr : r ∈ (db.freezeSteps tenant).steps)
    (hrunning : r.status = .running) : r ∈ db.steps ∧ r.tenant ≠ tenant := by
  have hsteps : (db.freezeSteps tenant).steps =
      Table.update (fun s => decide (s.tenant = tenant) && decide (s.status = .running))
        (fun s => { s with
          status := .uncertain, claim := none, error := "tenant_frozen_during_execution" })
        db.steps := refreshAll_steps
  rw [hsteps] at hr
  obtain ⟨x, hx, rfl⟩ := mem_update.1 hr
  split at hrunning
  · cases hrunning
  · rename_i hp
    rw [if_neg hp]
    refine ⟨hx, fun htenant => hp ?_⟩
    simp [htenant, hrunning]

theorem Effect.still (ho : Orderly db) (h : Still db) (he : Effect P db op out db') : Still db' := by
  intro r hr hfrozen hrunning
  rcases he.freeze with heq | ⟨env, tenant, stopped, actor, rfl, -⟩
  · rw [frozen_congr heq] at hfrozen
    rcases he.running ho hr hrunning with hold | ⟨token, -, rfl, -⟩
    · exact h r hold hfrozen hrunning
    · rw [StepRow.tenant, he.claimed_active.1] at hfrozen
      cases hfrozen
  · cases he with
    | same => exact h r hr hfrozen hrunning
    | froze =>
      obtain ⟨hold, hne⟩ := freezeSteps_still hr hrunning
      rw [frozen_congr (freeze_unmoved.freezeSteps _ _), frozen_setFreeze, if_neg hne] at hfrozen
      exact h r hold hfrozen hrunning
    | resumed =>
      rw [frozen_setFreeze] at hfrozen
      split at hfrozen
      · cases hfrozen
      · exact h r hr hfrozen hrunning

theorem Effect.renewed {n : Uuid} (ho : Orderly db) (h : Renewed n tenant db)
    (he : Effect P db op out db') : Renewed n tenant db' := by
  refine ⟨h.1.trans (he.moves ho.wf ho.placed).drawn_le, fun r hr htenant hrunning token htoken => ?_⟩
  rcases he.running ho hr hrunning with hold | ⟨token', hdrawn, -, hclaim⟩
  · exact h.2 r hold htenant hrunning token htoken
  · obtain rfl := Option.some.inj (htoken.symm.trans hclaim)
    exact h.1.trans hdrawn

/-- A claim drawn before is refused. -/
theorem Renewed.finish {n token : Uuid} (h : Renewed n tenant db) (htoken : token < n) (step : Uuid)
    (result : Json) (status : Status) (error : String) (done : Db × Reply) :
    exec P db (.finish env tenant step (some token) result status error) ≠ .ok done := by
  intro hdone
  simp only [exec, Engine.finish, bind_eq_ok, exists_unit, ensure_eq_ok, need_eq_ok] at hdone
  obtain ⟨-, -, r, hr, -⟩ := hdone
  have hfound := List.find?_some hr
  simp only [Bool.and_eq_true, decide_eq_true_eq] at hfound
  obtain ⟨⟨⟨⟨htenant, -⟩, hclaim⟩, hrunning⟩, -⟩ := hfound
  have hle := h.2 r (List.mem_of_find?_eq_some hr) htenant hrunning token hclaim
  exact absurd (Nat.lt_of_lt_of_le htoken hle) (Nat.lt_irrefl _)

theorem after_of_raises (h : ∀ done, exec P db op ≠ .ok done) : db.after P op = db := by
  unfold Db.after
  cases hx : exec P db op with
  | ok done => exact absurd hx (h done)
  | error e => rfl

end Freezing

section FreezeRuns

variable {P : Platform} {τs τs' : List (Transition Db Op)} {db db₁ db' : Db} {tenant : String}

theorem reachable_still (h : Run (Step P) {} τs db) : Still db := by
  have hstep : ∀ s op t, Orderly s ∧ Still s → Step P s op t → Orderly t ∧ Still t := by
    intro s op t ⟨ho, hstill⟩ hs
    obtain ⟨out, he, -⟩ := hs.effect
    exact ⟨he.orderly ho, he.still ho hstill⟩
  have hempty : Orderly {} ∧ Still {} := ⟨orderly_empty, fun _ hr => absurd hr List.not_mem_nil⟩
  exact (h.invariant (I := fun db => Orderly db ∧ Still db) hempty hstep).2

/-- While a tenant is frozen, no operation starts one of its steps or adds a task of it. -/
theorem frozen_step (h : Run (Step P) {} τs db) (hfrozen : db.frozen tenant = true) {op : Op}
    (hs : Step P db op db') :
    (∀ r ∈ db'.steps, r.tenant = tenant → r.status ≠ .running) ∧
      (∀ spec, handedOut P ⟨db, op, db'⟩ = some spec → spec.tenant ≠ tenant) ∧
        ∀ k ∈ db'.owners, k.2.1 = tenant → k ∈ db.owners := by
  obtain ⟨out, he, hout⟩ := hs.effect
  have hactive : ∀ {spec token}, Effect P db op (.claimed spec token) db' → spec.tenant ≠ tenant := by
    rintro spec token he rfl
    rw [he.claimed_active.1] at hfrozen
    cases hfrozen
  refine ⟨fun r hr htenant hrunning => ?_, fun spec hspec => ?_, fun k hk htenant => ?_⟩
  · rcases he.running (reachable_orderly orderly_empty h) hr hrunning with hold | ⟨token, -, rfl, -⟩
    · exact reachable_still h r hold (htenant ▸ hfrozen) hrunning
    · exact hactive he htenant
  · obtain ⟨token, rfl⟩ := (hout spec).1 hspec
    exact hactive he
  · rcases he.owned hk with hold | hactive'
    · exact hold
    · rw [htenant, hfrozen] at hactive'
      cases hactive'

/-- A claim handed out in a run was drawn in it. -/
theorem drawn_of_claimed (h : Run (Step P) {} τs db) {τ : Transition Db Op} (hτ : τ ∈ τs) {d : Db}
    {spec : StepSpec} {token : Uuid} (hx : exec P τ.src τ.label = .ok (d, .claimed spec token)) :
    token < db.drawn := by
  have hrun := h.strengthen orderly_empty fun _ _ _ => Step.orderly
  have hlater := (hrun.later (q := fun s t => s.drawn ≤ t.drawn) (fun _ => le_rfl)
    (fun _ _ _ => le_trans) (fun s op t ⟨hs, ho⟩ => ?_) hτ).2
  · have hd : τ.dst = d := by
      have hs : τ.dst = τ.src.after P τ.label := h.step_of_mem hτ
      rw [hs, Db.after, hx]
      rfl
    rw [hd] at hlater
    exact Nat.lt_of_lt_of_le (exec_effect hx).claimed_active.2 hlater
  · obtain ⟨out, he, -⟩ := hs.effect
    exact (he.moves ho.wf ho.placed).drawn_le

/-- **A claim taken before a freeze is worth nothing ever after.** -/
theorem stale_claim (h : Run (Step P) {} τs db) {env : Env} {actor : String} {out : Reply}
    (hop : exec P db (.freeze env tenant true actor) = .ok (db₁, out)) (h' : Run (Step P) db₁ τs' db')
    {τ : Transition Db Op} (hτ : τ ∈ τs) {d : Db} {spec : StepSpec} {token : Uuid}
    (hx : exec P τ.src τ.label = .ok (d, .claimed spec token)) (env' : Env) (step : Uuid)
    (result : Json) (status : Status) (error : String) :
    (∀ r ∈ db'.steps, r.tenant = tenant → r.status = .running → r.claim ≠ some token) ∧
      (∀ done, exec P db' (.finish env' tenant step (some token) result status error) ≠ .ok done) ∧
        db'.after P (.finish env' tenant step (some token) result status error) = db' := by
  have ho := reachable_orderly orderly_empty h
  have hrenewed : Renewed db.drawn tenant db₁ := by
    have he := exec_effect hop
    refine ⟨(he.moves ho.wf ho.placed).drawn_le, fun r hr htenant hrunning => ?_⟩
    simp only [exec, freeze, bind_eq_ok, exists_unit, if_true, pure_eq_ok, Prod.mk.injEq] at hop
    obtain ⟨-, rfl, -⟩ := hop
    exact absurd htenant (freezeSteps_still hr hrunning).2
  have hstep : ∀ s op t, Orderly s ∧ Renewed db.drawn tenant s → Step P s op t →
      Orderly t ∧ Renewed db.drawn tenant t := by
    rintro s op t ⟨ho, hrenewed⟩ hs
    obtain ⟨out, he, -⟩ := hs.effect
    exact ⟨he.orderly ho, he.renewed ho hrenewed⟩
  obtain ⟨-, hrenewed'⟩ := h'.invariant (I := fun s => Orderly s ∧ Renewed db.drawn tenant s)
    ⟨(exec_effect hop).orderly ho, hrenewed⟩ hstep
  have htoken := drawn_of_claimed h hτ hx
  have hraises : ∀ done,
      exec P db' (.finish env' tenant step (some token) result status error) ≠ .ok done :=
    fun done => hrenewed'.finish htoken step result status error done
  refine ⟨fun r hr htenant hrunning hclaim => ?_, hraises, after_of_raises hraises⟩
  have hle := hrenewed'.2 r hr htenant hrunning token hclaim
  exact absurd (Nat.lt_of_lt_of_le htoken hle) (Nat.lt_irrefl _)

end FreezeRuns

/-! ### Devices -/

/-- The primary key of a device. -/
def DeviceRow.key (d : DeviceRow) : String × String := (d.tenant, d.id)

/-- The generation of a device, 0 before it is enrolled. -/
def Db.generation (db : Db) (tenant device : String) : ℕ :=
  ((Table.get DeviceRow.key (tenant, device) db.devices).map DeviceRow.generation).getD 0

section Devices

variable {P : Platform} {env : Env} {db db' : Db} {tenant name actor : String} {op : Op} {out : Reply}

theorem device_key_eq (tenant name : String) :
    (fun d : DeviceRow => decide (d.tenant = tenant) && decide (d.id = name)) =
      fun d => decide (d.key = (tenant, name)) := by
  funext d
  simp [DeviceRow.key]

theorem generation_setDevice (db : Db) (tenant name : String) (revoked : Bool) (t n : String) :
    (db.setDevice tenant name revoked).generation t n =
      if (t, n) = (tenant, name) then db.generation t n + 1 else db.generation t n := by
  unfold Db.generation Db.setDevice
  rw [device_key_eq]
  by_cases hany : db.devices.any (fun d => decide (d.key = (tenant, name))) = true
  · rw [if_pos hany]
    change (Option.map _ (Table.get _ _ (Table.update _ _ _))).getD 0 = _
    rw [get_update (f := fun d : DeviceRow => { d with
      revoked := revoked, generation := d.generation + 1 }) fun _ => rfl]
    split
    · rename_i hk
      obtain ⟨d, hd, hkey⟩ := List.any_eq_true.1 hany
      cases hget : Table.get DeviceRow.key (t, n) db.devices with
      | none => exact absurd ((of_decide_eq_true hkey).trans hk.symm) (get_eq_none.1 hget d hd)
      | some row => rfl
    · rfl
  · rw [if_neg hany, get_append]
    have hnone : Table.get DeviceRow.key (tenant, name) db.devices = none := by
      refine get_eq_none.2 fun d hd hkey => hany ?_
      exact List.any_eq_true.2 ⟨d, hd, decide_eq_true hkey⟩
    by_cases hk : (t, n) = (tenant, name)
    · rw [if_pos hk, hk, hnone]
      simp [DeviceRow.key]
    · have hne : ¬ (tenant, name) = (t, n) := fun h => hk h.symm
      simp [DeviceRow.key, hk, hne]

/-- What `device` returns: the generation it counted up to. -/
theorem device_generation {revoked : Bool}
    (h : device env db tenant name revoked actor = .ok (db', out)) :
    db' = (db.detach tenant name actor).setDevice tenant name revoked ∧
      out = .generation (db.generation tenant name + 1) := by
  obtain ⟨rfl, row, hrow, rfl⟩ := device_row h
  refine ⟨rfl, ?_⟩
  have hgeneration : ((db.detach tenant name actor).setDevice tenant name revoked).generation tenant
      name = row.generation := by
    unfold Db.generation Table.get
    rw [← device_key_eq, hrow]
    rfl
  have hdetach : (db.detach tenant name actor).generation tenant name = db.generation tenant name := by
    unfold Db.generation
    rw [devices_unmoved.detach]
  rw [← hgeneration, generation_setDevice, if_pos rfl, hdetach]

theorem Effect.generation_le (he : Effect P db op out db') (t n : String) :
    db.generation t n ≤ db'.generation t n := by
  rcases he.devices with heq | ⟨env, tenant, device, revoked, actor, -, heq⟩
  · unfold Db.generation
    rw [heq]
  · have hset : db'.generation t n = (db.setDevice tenant device revoked).generation t n := by
      unfold Db.generation
      rw [heq]
    rw [hset, generation_setDevice]
    split
    · exact Nat.le_succ _
    · exact le_rfl

/-- `device` leaves every step that was bound to the device over. -/
theorem over_of_enrolled {revoked : Bool}
    (ho' : Orderly ((db.detach tenant name actor).setDevice tenant name revoked)) {r : StepRow}
    (hr : r ∈ db.steps) (htenant : r.tenant = tenant) (hdevice : r.spec.device = name) :
    Over ((db.detach tenant name actor).setDevice tenant name revoked).board r.id := by
  have hsteps : ((db.detach tenant name actor).setDevice tenant name revoked).steps =
      Table.update (fun s => decide (s.tenant = tenant) && decide (s.spec.device = name) &&
        s.status.active) (fun s => { s with
          status := stoppedStatus s.status, claim := none, lease := 0
          error := "device_enrollment_changed" }) db.steps := refreshAll_steps
  have hrow : ∃ r' ∈ ((db.detach tenant name actor).setDevice tenant name revoked).steps,
      r'.id = r.id ∧ r'.status.pending = false ∧ r'.status ≠ .running := by
    rw [hsteps]
    by_cases hactive : r.status.active = true
    · refine ⟨_, mem_update_of_pos hr (by simp [htenant, hdevice, hactive]), rfl, ?_,
        stoppedStatus_ne _⟩
      change (stoppedStatus r.status).pending = false
      unfold stoppedStatus
      split <;> rfl
    · refine ⟨r, mem_update_of_not hr (by simp [hactive]), rfl, ?_, fun hrunning => ?_⟩
      · cases hstatus : r.status <;> simp_all [Status.active, Status.pending]
      · rw [hrunning] at hactive
        exact hactive rfl
  obtain ⟨r', hr', hid, hpending, hrunning⟩ := hrow
  exact ⟨r'.cell, hid ▸ ho'.wf.board_eq hr', hpending, hrunning⟩

end Devices

section DeviceRuns

variable {P : Platform} {τs τs' : List (Transition Db Op)} {db db₁ db' : Db}

/-- A step that is over is never handed out, never runs, and is never finished. -/
theorem over_fence (ho : Orderly db) {id : Uuid} (hover : Over db.board id)
    (h : Run (Step P) db τs db') :
    (∀ r ∈ db'.steps, r.id = id → r.status ≠ .running) ∧
    (∀ τ ∈ τs, ∀ spec, handedOut P τ = some spec → spec.id ≠ id) ∧
    ∀ env tenant token result status error done,
      exec P db' (.finish env tenant id token result status error) ≠ .ok done := by
  have hkeep : ∀ s op t, Orderly s ∧ Over s.board id → Step P s op t → Orderly t ∧ Over t.board id := by
    intro s op t ⟨ho, hover⟩ hs
    obtain ⟨out, he, -⟩ := hs.effect
    exact ⟨he.orderly ho, (he.rounds ho).over hover⟩
  obtain ⟨ho', c, hc, -, hrunning⟩ := h.invariant (I := fun db => Orderly db ∧ Over db.board id)
    ⟨ho, hover⟩ hkeep
  have hnot : ∀ r ∈ db'.steps, r.id = id → r.status ≠ .running := by
    rintro r hr rfl hrun
    obtain rfl := Option.some.inj (hc.symm.trans (ho'.wf.board_eq hr))
    exact hrunning hrun
  refine ⟨hnot, fun τ hτ spec hspec hid => ?_, ?_⟩
  · obtain ⟨hs, hτo, c', hc', hpending, -⟩ := h.always (I := fun db => Orderly db ∧ Over db.board id)
      ⟨ho, hover⟩ hkeep hτ
    refine (hs.left_of_handedOut hτo hspec).1 ⟨c', ?_, hpending⟩
    rw [hid]
    exact hc'
  · intro env tenant token result status error done hdone
    simp only [exec, finish, bind_eq_ok, exists_unit, ensure_eq_ok, need_eq_ok] at hdone
    obtain ⟨-, -, r, hr, -⟩ := hdone
    have hfound := List.find?_some hr
    simp only [Bool.and_eq_true, decide_eq_true_eq] at hfound
    exact hnot r (List.mem_of_find?_eq_some hr) hfound.1.1.1.2 hfound.1.2

/-- **Enrolment is a fence.** After any committed `device` call, whatever follows: a step of the tenant
that was bound to the device before is never handed out, never runs, and no `finish` on it is accepted
under any claim; the call counts the device's generation up by one, and no operation counts it down. -/
theorem device_fence (h : Run (Step P) {} τs db) {env : Env} {tenant name actor : String}
    {revoked : Bool} {out : Reply}
    (hop : exec P db (.device env tenant name revoked actor) = .ok (db₁, out))
    (h' : Run (Step P) db₁ τs' db') :
    (∀ r ∈ db.steps, r.tenant = tenant → r.spec.device = name →
      (∀ r' ∈ db'.steps, r'.id = r.id → r'.status ≠ .running) ∧
      (∀ τ ∈ τs', ∀ spec, handedOut P τ = some spec → spec.id ≠ r.id) ∧
      ∀ env tenant token result status error done,
        exec P db' (.finish env tenant r.id token result status error) ≠ .ok done) ∧
    out = .generation (db.generation tenant name + 1) ∧
    db₁.generation tenant name = db.generation tenant name + 1 ∧
    db₁.generation tenant name ≤ db'.generation tenant name := by
  have ho := reachable_orderly orderly_empty h
  have ho₁ : Orderly db₁ := (exec_effect hop).orderly ho
  obtain ⟨rfl, rfl⟩ := device_generation hop
  refine ⟨fun r hr htenant hdevice => over_fence ho₁ (over_of_enrolled ho₁ hr htenant hdevice) h', rfl,
    ?_, ?_⟩
  · have hdetach : (db.detach tenant name actor).generation tenant name = db.generation tenant name := by
      unfold Db.generation
      rw [devices_unmoved.detach]
    rw [generation_setDevice, if_pos rfl, hdetach]
  · refine h'.invariant (I := fun s =>
      ((db.detach tenant name actor).setDevice tenant name revoked).generation tenant name ≤
        s.generation tenant name) le_rfl fun s op t hle hs => ?_
    obtain ⟨out, he, -⟩ := hs.effect
    exact hle.trans (he.generation_le _ _)

/-! A printer: one tool that runs on a device. -/

def printerPlatform : Platform where
  registry := [⟨"print", .read, emptySchema, true⟩]
  sha256 := id

def printerEnv (second : ℕ) : Env :=
  { sampleEnv second with
    policy := fun _ _ => .ok (.obj [("ladder", .str "human_assisted"),
      ("tools", .arr [.str "print"])]) }

/-- A printer is enrolled, a step is submitted for it and handed out to it. -/
def printerOps : List Op :=
  [.device (printerEnv 0) "acme" "printer-1" false "dana",
    .submit (printerEnv 1) "acme" "web" "k1" "clerk"
      [.obj [("tool", .str "print"), ("device", .str "printer-1")]] "dana",
    .claim (printerEnv 2) "acme" "w1" "printer-1" 60]

def printerDb : Db := printerOps.foldl (Db.after printerPlatform) {}

/-- The printer is revoked while its step runs; the runner's late result is refused. -/
theorem device_fence_sample :
    (∃ r ∈ printerDb.steps, r.spec.device = "printer-1" ∧ r.status = .running) ∧
    ∃ db₁ out, exec printerPlatform printerDb (.device (printerEnv 3) "acme" "printer-1" true "dana") =
      .ok (db₁, out) ∧ db₁.generation "acme" "printer-1" = 2 ∧
        ∀ token done, exec printerPlatform db₁
          (.finish (printerEnv 4) "acme" 1 token (.obj []) .succeeded "") ≠ .ok done := by
  have hrow : ∃ r ∈ printerDb.steps, r.id = 1 ∧ r.tenant = "acme" ∧ r.spec.device = "printer-1" ∧
      r.status = .running := by decide +kernel
  obtain ⟨r, hr, hid, htenant, hdevice, hrunning⟩ := hrow
  refine ⟨⟨r, hr, hdevice, hrunning⟩, ?_⟩
  cases hop : exec printerPlatform printerDb (.device (printerEnv 3) "acme" "printer-1" true "dana") with
  | error e =>
    have hok : (exec printerPlatform printerDb
        (.device (printerEnv 3) "acme" "printer-1" true "dana")).isOk = true := by decide +kernel
    rw [hop] at hok
    cases hok
  | ok done =>
    obtain ⟨db₁, out⟩ := done
    obtain ⟨hfence, -, hgeneration, -⟩ := device_fence
      (Run.nil.calls (f := Db.after printerPlatform) printerOps) hop .nil
    have hone : printerDb.generation "acme" "printer-1" = 1 := by decide +kernel
    refine ⟨db₁, out, rfl, hgeneration.trans (congrArg (· + 1) hone), ?_⟩
    intro token
    exact hid ▸ (hfence r hr htenant hdevice).2.2 _ _ token _ _ _

end DeviceRuns

end AgentPlatform.Engine
