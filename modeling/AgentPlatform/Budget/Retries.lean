import AgentPlatform.Budget.Closed

/-!
# The attempts of a metered call

What `with_retries` tries, and how `metered_completion` leaves the reservation of each attempt. A reservation is
dispatched at most once, under whatever key it is asked for again, so that no two requests go out under it. Where the
ledger does not refuse, an attempt settles its reservation at the cost of the receipt, releases it at zero, or leaves
its amount held; what is held is moved by nobody but by the end of its slot lease.
-/

namespace AgentPlatform.Budget

open Outcome Table Runs

/-! ### What is tried -/

/-- What came of the attempts `with_retries` makes, in their order. -/
def tried {σ α : Type} (t : Timing) (attempt : ℕ → σ → σ × Except Exc α) : ℕ → ℕ → σ → List (Except Exc α)
  | 0, _, _ => []
  | left + 1, index, s =>
    match attempt index s with
    | (_, .ok a) => [.ok a]
    | (s, .error exc) =>
      match classify exc with
      | none => [.error exc]
      | some f =>
        match if left = 0 then none else retryWait f index (t.jitter index) with
        | none => [.error exc]
        | some wait =>
          if t.deadline < t.clock index - t.started + wait + t.timeout then [.error exc]
          else .error exc :: tried t attempt left (index + 1) s

/-- Another attempt may follow this outcome: a failure that may be retried, and one more timeout after the wait is
within the deadline. -/
def Timing.Retries {α : Type} (t : Timing) (index : ℕ) (result : Except Exc α) : Prop :=
  ∃ exc f wait, result = .error exc ∧ classify exc = some f ∧ retryWait f index (t.jitter index) = some wait ∧
    t.clock index - t.started + wait + t.timeout ≤ t.deadline

section Tried

variable {σ α : Type} {t : Timing} {attempt : ℕ → σ → σ × Except Exc α}

theorem classify_eq_some {exc : Exc} {f : Failure} : classify exc = some f ↔ exc = .failed f := by
  cases exc <;> simp [classify]

/-- One attempt is tried, and more only after an outcome that may be retried. -/
theorem tried_succ (t : Timing) (attempt : ℕ → σ → σ × Except Exc α) (left index : ℕ) (s : σ) :
    tried t attempt (left + 1) index s = [(attempt index s).2] ∧
        withRetries t attempt (left + 1) index s = attempt index s ∨
      0 < left ∧ t.Retries index (attempt index s).2 ∧
        tried t attempt (left + 1) index s =
          (attempt index s).2 :: tried t attempt left (index + 1) (attempt index s).1 ∧
        withRetries t attempt (left + 1) index s = withRetries t attempt left (index + 1) (attempt index s).1 := by
  rw [tried, withRetries]
  generalize attempt index s = after
  obtain ⟨s', a | a⟩ := after
  · dsimp only
    cases hc : classify a with
    | none => exact .inl ⟨rfl, rfl⟩
    | some f =>
      obtain rfl := classify_eq_some.1 hc
      dsimp only
      cases hwait : if left = 0 then none else retryWait f index (t.jitter index) with
      | none => exact .inl ⟨rfl, rfl⟩
      | some wait =>
        have hleft : left ≠ 0 := by
          intro hzero
          rw [if_pos hzero] at hwait
          cases hwait
        rw [if_neg hleft] at hwait
        dsimp only
        split_ifs with hdeadline
        · exact .inl ⟨rfl, rfl⟩
        · exact .inr ⟨Nat.pos_of_ne_zero hleft, ⟨_, f, wait, rfl, hc, hwait, not_lt.1 hdeadline⟩, rfl, rfl⟩
  · exact .inl ⟨rfl, rfl⟩

theorem tried_length (left index : ℕ) (s : σ) : (tried t attempt left index s).length ≤ left := by
  induction left generalizing index s with
  | zero => exact Nat.le_refl 0
  | succ left ih =>
    obtain ⟨htried, -⟩ | ⟨-, -, htried, -⟩ := tried_succ t attempt left index s
    · rw [htried, List.length_singleton]
      exact Nat.succ_le_succ (Nat.zero_le left)
    · rw [htried, List.length_cons]
      exact Nat.succ_le_succ (ih (index + 1) _)

/-- Every attempt but the last ended in an outcome that may be retried. -/
theorem tried_retries (left index : ℕ) (s : σ) {k : ℕ} (h : k + 1 < (tried t attempt left index s).length) :
    ∃ result, (tried t attempt left index s)[k]? = some result ∧ t.Retries (index + k) result := by
  induction left generalizing index s k with
  | zero => exact absurd h (Nat.not_lt_zero _)
  | succ left ih =>
    obtain ⟨htried, -⟩ | ⟨-, hretries, htried, -⟩ := tried_succ t attempt left index s
    · rw [htried, List.length_singleton] at h
      omega
    · rw [htried] at h ⊢
      cases k with
      | zero => exact ⟨_, rfl, hretries⟩
      | succ k =>
        rw [List.length_cons] at h
        obtain ⟨result, hresult, hrest⟩ := ih (index + 1) _ (Nat.lt_of_succ_lt_succ h)
        refine ⟨result, hresult, ?_⟩
        rw [Nat.add_comm k 1, ← Nat.add_assoc]
        exact hrest

theorem withRetries_last {I : σ → Prop} {Q : σ × Except Exc α → Prop}
    (hattempt : ∀ index s, I s → Q (attempt index s) ∧
      (t.Retries index (attempt index s).2 → I (attempt index s).1))
    {left : ℕ} (hleft : 0 < left) (index : ℕ) {s : σ} (hs : I s) : Q (withRetries t attempt left index s) := by
  induction left generalizing index s with
  | zero => exact absurd hleft (Nat.lt_irrefl 0)
  | succ left ih =>
    obtain ⟨hq, hretried⟩ := hattempt index s hs
    obtain ⟨-, hlast⟩ | ⟨hmore, hretries, -, hnext⟩ := tried_succ t attempt left index s
    · rw [hlast]
      exact hq
    · rw [hnext]
      exact ih hmore (index + 1) (hretried hretries)

end Tried

/-! ### One request to a reservation -/

/-- The dispatch went through, and the transport was called. -/
def Made.dispatched (lib : Library) (tenant : String) (a : Made) : Bool :=
  (dispatch lib a.ledger a.met.dispatchActive tenant a.rid a.met.dispatchNow).isOk

/-- The reservation a call closes. -/
def Op.closes : Op → Option (String × Uuid)
  | .configure .. | .reserve .. | .dispatch .. => none
  | op => op.names

theorem Op.closes_eq (op : Op) : op.closes = none ∨ op.closes = op.names := by
  cases op with
  | configure | reserve | dispatch => exact .inl rfl
  | uncertain | cancel | release | settle | reconcile => exact .inr rfl

theorem Op.closes_of_target {op : Op} {key : String × Uuid} (h : op.target = some key) : op.closes = some key := by
  cases op with
  | cancel | release | settle | reconcile => exact h
  | configure | reserve | dispatch | uncertain => cases h

section Once

variable {lib : Library} {tenant : String} {m : Meter} {l l' : Ledger} {a : Made} {rid : Uuid}

theorem others_append (lib : Library) (l : Ledger) (ops ops' : List Op) :
    l.others lib (ops ++ ops') = (l.others lib ops).others lib ops' := List.foldl_append

theorem others_of_step {op : Op} (h : Step lib l op l') : l' = l.others lib [op] := h

theorem dispatched_iff : a.dispatched lib tenant = true ↔
    ∃ l' out, dispatch lib a.ledger a.met.dispatchActive tenant a.rid a.met.dispatchNow = .ok (l', out) := by
  rw [Made.dispatched]
  cases dispatch lib a.ledger a.met.dispatchActive tenant a.rid a.met.dispatchNow with
  | error e => simp [Except.isOk, Except.toBool]
  | ok r => exact ⟨fun _ => ⟨r.1, r.2, rfl⟩, fun _ => rfl⟩

theorem dispatch_gone (h : l.Gone (tenant, rid)) (active : Except Err Unit) (now : Readings) :
    (dispatch lib l active tenant rid now).isOk = false := by
  cases hd : dispatch lib l active tenant rid now with
  | error e => rfl
  | ok d =>
    obtain ⟨l', out⟩ := d
    exact absurd (dispatch_ok hd).1 h.status

theorem not_dispatched_of_gone (h : a.ledger.Gone (tenant, a.rid)) : a.dispatched lib tenant = false :=
  dispatch_gone h _ _

theorem gone_others (h : l.Gone (tenant, rid)) (ops : List Op) : (l.others lib ops).Gone (tenant, rid) :=
  others_keep (fun _ _ _ hs hg => hs.gone hg) h

/-- What becomes of the ledger from a reservation on: nothing where it is not dispatched, and else calls of others, the
dispatch and the closing. -/
theorem send_ops : ∃ ops, (m.send a.ledger a.rid a.met).1 = a.ledger.others m.lib ops ∧
    (∀ op ∈ ops, a.dispatched m.lib m.tenant = true ∧
      (op ∈ a.met.others ∨ op.closes = none ∨ op.closes = some (m.tenant, a.rid))) ∧
    (a.dispatched m.lib m.tenant = true → (m.send a.ledger a.rid a.met).1.Gone (m.tenant, a.rid)) := by
  cases hd : dispatch m.lib a.ledger a.met.dispatchActive m.tenant a.rid a.met.dispatchNow with
  | error e =>
    rw [send_refused hd]
    refine ⟨[], rfl, fun op hop => absurd hop List.not_mem_nil, fun hdispatched => ?_⟩
    obtain ⟨l', out, hok⟩ := dispatched_iff.1 hdispatched
    rw [hd] at hok
    cases hok
  | ok d =>
    obtain ⟨l', out⟩ := d
    have hdispatched : a.dispatched m.lib m.tenant = true := dispatched_iff.2 ⟨l', out, hd⟩
    have hfirst : l' = a.ledger.others m.lib [.dispatch a.met.dispatchActive m.tenant a.rid a.met.dispatchNow] :=
      others_of_step (step_of_exec (.dispatch a.met.dispatchActive m.tenant a.rid a.met.dispatchNow) hd)
    obtain ⟨r, -, hr'⟩ := dispatch_row hd
    have hgone : (l'.others m.lib a.met.during).Gone (m.tenant, a.rid) := gone_others ⟨_, hr', by simp⟩ _
    have hduring : l'.others m.lib a.met.during = a.ledger.others m.lib
        (.dispatch a.met.dispatchActive m.tenant a.rid a.met.dispatchNow :: a.met.during) := by
      rw [hfirst, ← others_append]
      rfl
    have hmem : ∀ op ∈ .dispatch a.met.dispatchActive m.tenant a.rid a.met.dispatchNow :: a.met.during,
        op ∈ a.met.others ∨ op.closes = none ∨ op.closes = some (m.tenant, a.rid) := by
      rw [List.forall_mem_cons]
      exact ⟨.inr (.inl rfl), fun op hop => .inl (List.mem_append_right _ hop)⟩
    generalize Op.dispatch a.met.dispatchActive m.tenant a.rid a.met.dispatchNow :: a.met.during = ops
      at hduring hmem
    obtain ⟨l'', out', -, hclose, hsend⟩ | ⟨-, e, hsend⟩ := send_dispatched hd
    · rw [hsend]
      obtain rfl | ⟨op, hop, hnames, -⟩ := close_step hclose
      · exact ⟨_, hduring, fun op hop => ⟨hdispatched, hmem op hop⟩, fun _ => hgone⟩
      · refine ⟨ops ++ [op], ?_, fun op' hop' => ⟨hdispatched, ?_⟩, fun _ => hop.gone hgone⟩
        · rw [others_append, ← hduring]
          exact others_of_step hop
        · obtain hop' | hop' := List.mem_append.1 hop'
          · exact hmem op' hop'
          · obtain rfl := List.mem_singleton.1 hop'
            exact .inr (op'.closes_eq.imp_right fun h => h.trans hnames)
    · rw [hsend]
      exact ⟨_, hduring, fun op hop => ⟨hdispatched, hmem op hop⟩, fun _ => hgone⟩

/-- The reservation of an attempt. -/
def Meter.reserving (m : Meter) (index : ℕ) (i : Attempt) : Op :=
  .reserve i.reserveActive m.tenant (m.key index) m.fingerprint m.estimate m.currency i.reserveNow

/-- What an attempt adds to the reservations of a call, and what the ledger is then. -/
theorem attempt_made (inputs : ℕ → Attempt) (index : ℕ) (s : Metered) :
    ∃ ops, (∀ op ∈ ops, op ∈ (inputs index).others ∨ op.closes = none) ∧
      ((∃ e, m.attempt inputs index s = (⟨s.ledger.others m.lib ops, s.made⟩, .error (.err e))) ∨
        ∃ a : Made, a.met = inputs index ∧ a.ledger = s.ledger.others m.lib ops ∧
          m.attempt inputs index s = (⟨(m.send a.ledger a.rid a.met).1, s.made ++ [a]⟩,
            (m.send a.ledger a.rid a.met).2)) := by
  have hbefore : ∀ op ∈ (inputs index).before, op ∈ (inputs index).others ∨ op.closes = none :=
    fun op hop => .inl (List.mem_append_left _ (List.mem_append_left _ hop))
  have hbetween : ∀ op ∈ (inputs index).between, op ∈ (inputs index).others ∨ op.closes = none :=
    fun op hop => .inl (List.mem_append_left _ (List.mem_append_right _ hop))
  obtain ⟨l, e, heq, rfl | hstep⟩ | ⟨l, rid, hreserve, heq⟩ := attempt_cases (m := m) inputs index s
  · exact ⟨_, hbefore, .inl ⟨e, heq⟩⟩
  · refine ⟨(inputs index).before ++ [m.reserving index (inputs index)], ?_, .inl ⟨e, ?_⟩⟩
    · rw [List.forall_mem_append, List.forall_mem_singleton]
      exact ⟨hbefore, .inr rfl⟩
    · have hl : l = (s.ledger.others m.lib (inputs index).before).others m.lib [m.reserving index (inputs index)] :=
        others_of_step hstep
      rw [heq, others_append, ← hl]
  · have hstep : Step m.lib (s.ledger.others m.lib (inputs index).before) (m.reserving index (inputs index)) l :=
      step_of_exec _ hreserve
    refine ⟨(inputs index).before ++ [m.reserving index (inputs index)] ++ (inputs index).between, ?_,
      .inr ⟨⟨rid, decide ((s.ledger.others m.lib (inputs index).before).drawn < l.drawn),
        l.others m.lib (inputs index).between, inputs index⟩, rfl, ?_, heq⟩⟩
    · rw [List.forall_mem_append, List.forall_mem_append, List.forall_mem_singleton]
      exact ⟨⟨hbefore, .inr rfl⟩, hbetween⟩
    · rw [others_append, others_append, ← others_of_step hstep]

/-- The reservations of a call that were dispatched are distinct, and gone. -/
structure SentOnce (lib : Library) (tenant : String) (s : Metered) : Prop where
  distinct : ((s.made.filter (Made.dispatched lib tenant)).map Made.rid).Nodup
  gone : ∀ a ∈ s.made, a.dispatched lib tenant = true → s.ledger.Gone (tenant, a.rid)

theorem attempt_once (inputs : ℕ → Attempt) (index : ℕ) {s : Metered} (h : SentOnce m.lib m.tenant s) :
    SentOnce m.lib m.tenant (m.attempt inputs index s).1 := by
  obtain ⟨ops, -, ⟨e, heq⟩ | ⟨a, -, hledger, heq⟩⟩ := attempt_made (m := m) inputs index s
  · rw [heq]
    exact ⟨h.distinct, fun a ha hdispatched => gone_others (h.gone a ha hdispatched) ops⟩
  · rw [heq]
    obtain ⟨ops', hsend, -, hgone⟩ := send_ops (m := m) (a := a)
    -- what was dispatched before is gone when this one is asked for
    have hold : ∀ b ∈ s.made, b.dispatched m.lib m.tenant = true → a.ledger.Gone (m.tenant, b.rid) := by
      intro b hb hdispatched
      rw [hledger]
      exact gone_others (h.gone b hb hdispatched) ops
    refine ⟨?_, fun b hb hdispatched => ?_⟩
    · rw [List.filter_append, List.map_append, List.nodup_append]
      refine ⟨h.distinct, ?_, ?_⟩
      · rw [List.filter_singleton]
        cases a.dispatched m.lib m.tenant <;> simp
      · intro rid hrid rid' hrid' hsame
        obtain ⟨b, hb, rfl⟩ := List.mem_map.1 hrid
        obtain ⟨a', ha', rfl⟩ := List.mem_map.1 hrid'
        obtain ⟨hb, hdispatched⟩ := List.mem_filter.1 hb
        obtain ⟨ha', hdispatched'⟩ := List.mem_filter.1 ha'
        obtain rfl := List.mem_singleton.1 ha'
        have hnot : a'.dispatched m.lib m.tenant = false :=
          not_dispatched_of_gone (hsame ▸ hold b hb hdispatched)
        rw [hnot] at hdispatched'
        cases hdispatched'
    · obtain hb | hb := List.mem_append.1 hb
      · dsimp only
        rw [hsend]
        exact gone_others (hold b hb hdispatched) ops'
      · obtain rfl := List.mem_singleton.1 hb
        exact hgone hdispatched

/-- Every reservation is one of an attempt that is tried. -/
theorem made_length (t : Timing) (inputs : ℕ → Attempt) (left index : ℕ) (s : Metered) :
    (withRetries t (m.attempt inputs) left index s).1.made.length ≤
      s.made.length + (tried t (m.attempt inputs) left index s).length := by
  have hattempt : ∀ index s, (m.attempt inputs index s).1.made.length ≤ s.made.length + 1 := by
    intro index s
    obtain ⟨ops, -, ⟨e, heq⟩ | ⟨a, -, -, heq⟩⟩ := attempt_made (m := m) inputs index s
    · rw [heq]
      exact Nat.le_succ _
    · rw [heq, List.length_append, List.length_singleton]
  induction left generalizing index s with
  | zero => exact Nat.le_refl _
  | succ left ih =>
    obtain ⟨htried, hlast⟩ | ⟨-, -, htried, hnext⟩ := tried_succ t (m.attempt inputs) left index s
    · rw [htried, hlast]
      exact hattempt index s
    · rw [htried, hnext, List.length_cons]
      have hrest := ih (index + 1) (m.attempt inputs index s).1
      have hone := hattempt index s
      omega

end Once

/-! ### What nobody closes -/

/-- The row is as it was, or its slot lease ran out. -/
def Aged (r r' : Reservation) : Prop :=
  r' = r ∨ (r.status = .dispatching ∨ r.status = .uncertain) ∧
    ∃ updated, r' = { r with status := .unreconciled, updated := updated }

section Aging

variable {lib : Library} {l l' : Ledger} {op : Op} {key : String × Uuid} {r r' r'' : Reservation}

theorem Aged.trans (h : Aged r r') (h' : Aged r' r'') : Aged r r'' := by
  obtain rfl | ⟨hstatus, updated, rfl⟩ := h
  · exact h'
  · obtain rfl | ⟨hstatus', -⟩ := h'
    · exact .inr ⟨hstatus, updated, rfl⟩
    · simp at hstatus'

theorem Aged.status_ne (h : Aged r r') (hr : r.status ≠ .reserved) : r'.status ≠ .reserved := by
  obtain rfl | ⟨-, updated, rfl⟩ := h
  · exact hr
  · simp

theorem Aged.amount (h : Aged r r') : r'.amountMicro = r.amountMicro := by
  obtain rfl | ⟨-, updated, rfl⟩ := h <;> rfl

theorem aged_of_expire (tenant : String) (now : Readings) (h : l.reservation? key = some r) :
    ∃ r', (l.expireSlots tenant now).reservation? key = some r' ∧ Aged r r' := by
  refine ⟨_, (reservation?_update (by intro r; rfl)).trans (congrArg _ h), ?_⟩
  dsimp only
  split
  · rename_i hold
    simp only [Ledger.outlived, Bool.and_eq_true, Bool.or_eq_true, decide_eq_true_eq] at hold
    exact .inr ⟨hold.1.2, _, rfl⟩
  · exact .inl rfl

theorem reservation?_set_of_ne {tenant : String} {id : Uuid} {f : Reservation → Reservation}
    (hf : ∀ r, (f r).key = r.key) (hne : (tenant, id) ≠ key) (h : l.reservation? key = some r) :
    (l.setReservation tenant id f).reservation? key = some r := by
  rw [reservation?_setReservation hf h, if_neg fun hkey => hne (hkey.symm.trans (key_of_reservation? h))]

/-- A call that does not close a reservation leaves what is not `reserved` as it is, or ends its slot lease. -/
theorem Effect.aged (h : Effect lib l op l') (hinv : Inv l) (hr : l.reservation? key = some r)
    (hne : r.status ≠ .reserved) (hop : op.closes ≠ some key) :
    ∃ r', l'.reservation? key = some r' ∧ Aged r r' := by
  cases h with
  | same => exact ⟨r, hr, .inl rfl⟩
  | configured => exact ⟨r, hr, .inl rfl⟩
  | reconfigured => exact ⟨r, hr, .inl rfl⟩
  | @reserved active tenant requestKey fingerprint currency full estimate now settings account =>
    obtain ⟨r', hr', haged⟩ := aged_of_expire tenant now hr
    refine ⟨r', ?_, haged⟩
    rw [reservation?_insert, reservation?_openAccount, hr']
    rfl
  | @dispatched active tenant now row hrow htenant hstatus =>
    obtain ⟨r', hr', haged⟩ := aged_of_expire tenant now hr
    refine ⟨r', reservation?_set_of_ne (by intro r; rfl) ?_ hr', haged⟩
    -- the row that is dispatched is reserved
    rintro rfl
    have hrow' : l.reservation? row.key = some row := hinv.keyed.get_eq hrow rfl
    obtain rfl : row = r := Option.some.inj (hrow'.symm.trans hr)
    exact hne hstatus
  | uncertain => exact ⟨r, reservation?_set_of_ne (by intro r; rfl) (fun h => hop (congrArg some h)) hr, .inl rfl⟩
  | @retired _ row status updated hrow hheld hstatus htarget hactual =>
    refine ⟨r, ?_, .inl rfl⟩
    rw [reservation?_settleRow]
    exact reservation?_set_of_ne (by intro r; rfl) (fun h => hop ((Op.closes_of_target htarget).trans (congrArg some h))) hr

theorem others_aged (lib : Library) {ops : List Op} (hinv : Inv l) (hr : l.reservation? key = some r) (hne : r.status ≠ .reserved)
    (hops : ∀ op ∈ ops, op.closes ≠ some key) : ∃ r', (l.others lib ops).reservation? key = some r' ∧ Aged r r' := by
  induction ops generalizing l r with
  | nil => exact ⟨r, hr, .inl rfl⟩
  | cons op ops ih =>
    rw [List.forall_mem_cons] at hops
    have hstep : Step lib l op (l.after lib op) := rfl
    obtain ⟨r₁, hr₁, haged₁⟩ := hstep.effect.aged hinv hr hne hops.1
    obtain ⟨r₂, hr₂, haged₂⟩ := ih (hinv.step hstep) hr₁ (haged₁.status_ne hne) hops.2
    exact ⟨r₂, hr₂, haged₁.trans haged₂⟩

end Aging

/-! ### How an attempt leaves its reservation -/

/-- The ledger after the closing of a reservation, where the ledger refuses neither its dispatch nor its closing. -/
def Meter.ended (m : Meter) (a : Made) : Except Err Ledger := do
  let (l, _) ← dispatch m.lib a.ledger a.met.dispatchActive m.tenant a.rid a.met.dispatchNow
  a.met.closing
  let (l, _) ← (m.close (l.others m.lib a.met.during) a.rid a.met).1
  pure l

/-- What becomes of a reservation by what came of its request: it is settled at the cost of the receipt, released at
zero, or uncertain, until its slot lease runs out; what is no `Exception` leaves it as it was dispatched. -/
def Meter.Leaves (m : Meter) (answer : Answer) (r : Reservation) : Prop :=
  let held := r.status = .uncertain ∨ r.status = .unreconciled
  match answer with
  | .response value =>
    match receiptCost m.pricing m.name value with
    | .ok actual => r.status = .settled ∧ r.actualMicro = some actual
    | .error _ => held
  | .raised (.failed f) _ =>
    if f.outcome = .unknown then held else r.status = .released ∧ r.actualMicro = some 0
  | .raised (.err _) _ => held
  | .raised .base _ => r.status = .dispatching ∨ r.status = .unreconciled

section Leaving

variable {m : Meter} {l l' : Ledger} {rid : Uuid} {i : Attempt} {r r' : Reservation} {a : Made}

theorem Meter.Leaves.aged (h : m.Leaves i.answer r) (ha : Aged r r') : m.Leaves i.answer r' := by
  obtain rfl | ⟨hstatus, updated, rfl⟩ := ha
  · exact h
  · revert h
    unfold Meter.Leaves
    split
    · split
      · rintro ⟨hsettled, -⟩
        simp [hsettled] at hstatus
      · exact fun _ => .inr rfl
    · split_ifs
      · exact fun _ => .inr rfl
      · rintro ⟨hreleased, -⟩
        simp [hreleased] at hstatus
    · exact fun _ => .inr rfl
    · exact fun _ => .inr rfl

theorem Meter.Leaves.status_ne (h : m.Leaves i.answer r) : r.status ≠ .reserved := by
  intro hreserved
  revert h
  unfold Meter.Leaves
  rw [hreserved]
  split
  · split <;> simp
  · split_ifs <;> simp
  · simp
  · simp

section Closings

variable {tenant : String} {updated : Time} {out : Option Uuid}

theorem row_of_settle {actual : ℤ} (hr : l.reservation? (tenant, rid) = some r)
    (hstatus : r.status = .dispatching ∨ r.status = .unreconciled)
    (h : settle l tenant rid actual updated = .ok (l', out)) :
    l'.reservation? (tenant, rid) = some (r.retire actual .settled updated) := by
  simp only [settle, row_of_reservation? hr, bind_eq_ok, Except.ok.injEq, exists_eq_left'] at h
  obtain ⟨-, -, h⟩ := h
  split_ifs at h with hsettled
  · simp [hsettled] at hstatus
  · simp only [bind_eq_ok, exists_unit, ensure_eq_ok, pure_eq_ok, Prod.mk.injEq] at h
    obtain ⟨-, rfl, -⟩ := h
    exact settleRow_row hr

theorem row_of_release {reason : String} (hr : l.reservation? (tenant, rid) = some r)
    (hstatus : r.status = .dispatching ∨ r.status = .unreconciled)
    (h : release l tenant rid reason updated = .ok (l', out)) :
    l'.reservation? (tenant, rid) = some (r.retire 0 .released updated) := by
  simp only [release, row_of_reservation? hr, bind_eq_ok, Except.ok.injEq, exists_eq_left'] at h
  obtain ⟨-, -, h⟩ := h
  split_ifs at h with hreleased
  · simp [hreleased] at hstatus
  · simp only [bind_eq_ok, exists_unit, ensure_eq_ok, pure_eq_ok, Prod.mk.injEq] at h
    obtain ⟨-, rfl, -⟩ := h
    exact settleRow_row hr

theorem row_of_uncertain (hr : l.reservation? (tenant, rid) = some r)
    (hstatus : r.status = .dispatching ∨ r.status = .unreconciled)
    (h : uncertain l tenant rid updated = .ok (l', out)) :
    l'.reservation? (tenant, rid) = some { r with status := .uncertain, updated := updated } := by
  simp only [uncertain, row_of_reservation? hr, bind_eq_ok, Except.ok.injEq, exists_eq_left'] at h
  split_ifs at h with huncertain
  · simp [huncertain] at hstatus
  · simp only [bind_eq_ok, exists_unit, ensure_eq_ok, pure_eq_ok, Prod.mk.injEq] at h
    obtain ⟨-, rfl, -⟩ := h
    rw [reservation?_setReservation (by intro r; rfl) hr, if_pos (key_of_reservation? hr)]

end Closings

/-- A closing that returns leaves the reservation by what came of the request. -/
theorem close_leaves {out : Option Uuid} (hr : l.reservation? (m.tenant, rid) = some r)
    (hstatus : r.status = .dispatching ∨ r.status = .unreconciled) (h : (m.close l rid i).1 = .ok (l', out)) :
    ∃ r', l'.reservation? (m.tenant, rid) = some r' ∧ m.Leaves i.answer r' ∧ r'.amountMicro = r.amountMicro := by
  unfold Meter.close at h
  unfold Meter.Leaves
  cases hanswer : i.answer with
  | response value =>
    rw [hanswer] at h
    dsimp only at h ⊢
    cases hcost : receiptCost m.pricing m.name value with
    | ok actual =>
      rw [hcost] at h
      exact ⟨_, row_of_settle hr hstatus h, ⟨rfl, rfl⟩, rfl⟩
    | error e =>
      rw [hcost] at h
      exact ⟨_, row_of_uncertain hr hstatus h, .inl rfl, rfl⟩
  | raised exc sent =>
    rw [hanswer] at h
    cases exc with
    | failed f =>
      dsimp only at h ⊢
      split_ifs at h ⊢ with hunknown
      · exact ⟨_, row_of_uncertain hr hstatus h, .inl rfl, rfl⟩
      · exact ⟨_, row_of_release hr hstatus h, ⟨rfl, rfl⟩, rfl⟩
    | err e => exact ⟨_, row_of_uncertain hr hstatus h, .inl rfl, rfl⟩
    | base =>
      simp only [Except.ok.injEq, Prod.mk.injEq] at h
      obtain ⟨rfl, -⟩ := h
      exact ⟨r, hr, hstatus, rfl⟩

/-- No other caller closes the reservation. -/
def Made.Unclosed (tenant : String) (inputs : ℕ → Attempt) (a : Made) : Prop :=
  ∀ n, ∀ op ∈ (inputs n).others, op.closes ≠ some (tenant, a.rid)

/-- The answer has a receipt of this cost. -/
def Meter.Answered (m : Meter) (answer : Answer) (value : Json) : Prop :=
  answer = .response value ∧ ∃ actual, receiptCost m.pricing m.name value = .ok actual

theorem dispatched_of_ended {after : Ledger} (h : m.ended a = .ok after) : a.dispatched m.lib m.tenant = true := by
  simp only [Meter.ended, bind_eq_ok, Prod.exists] at h
  obtain ⟨l', out, hd, -⟩ := h
  exact dispatched_iff.2 ⟨l', out, hd⟩

/-- An attempt the ledger does not refuse leaves the reservation by what came of the request, and returns an answer
that has a receipt. -/
theorem send_leaves (hinv : Inv a.ledger) (hunclosed : ∀ op ∈ a.met.others, op.closes ≠ some (m.tenant, a.rid))
    {after : Ledger} (h : m.ended a = .ok after) :
    (m.send a.ledger a.rid a.met).1 = after ∧
    (∃ r r', a.ledger.reservation? (m.tenant, a.rid) = some r ∧ after.reservation? (m.tenant, a.rid) = some r' ∧
      m.Leaves a.met.answer r' ∧ r'.amountMicro = r.amountMicro) ∧
    ∀ value, m.Answered a.met.answer value → (m.send a.ledger a.rid a.met).2 = .ok value := by
  simp only [Meter.ended, bind_eq_ok, exists_unit, pure_eq_ok, Prod.exists] at h
  obtain ⟨l', out, hd, hclosing, l'', out', hclose, rfl⟩ := h
  have hsend : m.send a.ledger a.rid a.met = (l'', (m.close (l'.others m.lib a.met.during) a.rid a.met).2) := by
    rw [Meter.send, hd, hclosing]
    dsimp only
    rw [hclose]
    rfl
  rw [hsend]
  refine ⟨rfl, ?_, fun value hvalue => ?_⟩
  · obtain ⟨r, hr, hr'⟩ := dispatch_row hd
    have hinv' : Inv l' :=
      hinv.step (step_of_exec (.dispatch a.met.dispatchActive m.tenant a.rid a.met.dispatchNow) hd)
    obtain ⟨r₂, hr₂, haged⟩ := others_aged m.lib hinv' hr' (by simp) fun op (hop : op ∈ a.met.during) =>
      hunclosed op (List.mem_append_right _ hop)
    have hstatus : r₂.status = .dispatching ∨ r₂.status = .unreconciled := by
      obtain rfl | ⟨-, updated, rfl⟩ := haged
      · exact .inl rfl
      · exact .inr rfl
    obtain ⟨r', hr', hleaves, hamount⟩ := close_leaves hr₂ hstatus hclose
    exact ⟨r, r', hr, hr', hleaves, hamount.trans haged.amount⟩
  · obtain ⟨hanswer, actual, hcost⟩ := hvalue
    rw [Meter.close, hanswer]
    dsimp only
    rw [hcost]

/-- A retry comes after an attempt that failed in the transport. -/
theorem send_failed {f : Failure} (h : (m.send a.ledger a.rid a.met).2 = .error (.failed f)) :
    ∃ sent, a.met.answer = .raised (.failed f) sent := by
  cases hd : dispatch m.lib a.ledger a.met.dispatchActive m.tenant a.rid a.met.dispatchNow with
  | error e =>
    rw [send_refused hd] at h
    cases h
  | ok d =>
    obtain ⟨l', out⟩ := d
    obtain ⟨l'', out', -, -, hsend⟩ | ⟨-, e, hsend⟩ := send_dispatched hd
    · rw [hsend] at h
      dsimp only at h
      unfold Meter.close at h
      cases hanswer : a.met.answer with
      | response value =>
        rw [hanswer] at h
        dsimp only at h
        split at h <;> cases h
      | raised exc sent =>
        rw [hanswer] at h
        cases exc with
        | failed g =>
          dsimp only at h
          split_ifs at h <;> cases h <;> exact ⟨sent, rfl⟩
        | err e => cases h
        | base => cases h
    · rw [hsend] at h
      cases h

/-- What a call knows of a reservation that no other caller closes: where the ledger did not refuse it, it is left by
what came of the request, with its amount. -/
def Made.Kept (m : Meter) (l : Ledger) (a : Made) : Prop :=
  ∃ r r', a.ledger.reservation? (m.tenant, a.rid) = some r ∧ l.reservation? (m.tenant, a.rid) = some r' ∧
    m.Leaves a.met.answer r' ∧ r'.amountMicro = r.amountMicro

theorem Made.Kept.others {b : Made} {ops : List Op} (h : b.Kept m l) (hinv : Inv l)
    (hops : ∀ op ∈ ops, op.closes ≠ some (m.tenant, b.rid)) : b.Kept m (l.others m.lib ops) := by
  obtain ⟨r, r', hr, hr', hleaves, hamount⟩ := h
  obtain ⟨r₂, hr₂, haged⟩ := others_aged m.lib hinv hr' hleaves.status_ne hops
  exact ⟨r, r₂, hr, hr₂, hleaves.aged haged, haged.amount.trans hamount⟩

/-- The attempts so far, of which no other caller closes a reservation, left theirs as they should. -/
structure AllKept (m : Meter) (inputs : ℕ → Attempt) (s : Metered) : Prop where
  inv : Inv s.ledger
  once : SentOnce m.lib m.tenant s
  kept : ∀ a ∈ s.made, a.Unclosed m.tenant inputs → ∀ after, m.ended a = .ok after → a.Kept m s.ledger

theorem attempt_kept {inputs : ℕ → Attempt} (index : ℕ) {s : Metered} (h : AllKept m inputs s)
    (hfailed : ∀ a ∈ s.made, ∃ f sent, a.met.answer = .raised (.failed f) sent) :
    AllKept m inputs (m.attempt inputs index s).1 ∧
    (∀ a ∈ (m.attempt inputs index s).1.made, a.Unclosed m.tenant inputs → ∀ after, m.ended a = .ok after →
      ∀ value, m.Answered a.met.answer value → (m.attempt inputs index s).2 = .ok value) ∧
    ∀ f, (m.attempt inputs index s).2 = .error (.failed f) →
      ∀ a ∈ (m.attempt inputs index s).1.made, ∃ f sent, a.met.answer = .raised (.failed f) sent := by
  have honce := attempt_once inputs index h.once
  have hnot : ∀ a ∈ s.made, ∀ value, ¬ m.Answered a.met.answer value := by
    rintro a ha value ⟨hanswer, -⟩
    obtain ⟨f, sent, hraised⟩ := hfailed a ha
    rw [hraised] at hanswer
    cases hanswer
  obtain ⟨ops, hops, ⟨e, heq⟩ | ⟨a, hmet, hledger, heq⟩⟩ := attempt_made (m := m) inputs index s
  · rw [heq] at honce ⊢
    have hinv : Inv (s.ledger.others m.lib ops) := others_keep (fun _ _ _ hs hi => hi.step hs) h.inv
    refine ⟨⟨hinv, honce, fun b hb hunclosed after hafter => ?_⟩, fun b hb _ _ _ value hvalue => ?_, fun f hf => ?_⟩
    · refine (h.kept b hb hunclosed after hafter).others h.inv fun op hop => ?_
      obtain hop | hop := hops op hop
      · exact hunclosed index op hop
      · rw [hop]
        exact (Option.some_ne_none _).symm
    · exact absurd hvalue (hnot b hb value)
    · cases hf
  · rw [heq] at honce ⊢
    have hinv : Inv a.ledger := by
      rw [hledger]
      exact others_keep (fun _ _ _ hs hi => hi.step hs) h.inv
    have hothers : a.Unclosed m.tenant inputs → ∀ op ∈ a.met.others, op.closes ≠ some (m.tenant, a.rid) := by
      rw [hmet]
      exact fun hunclosed => hunclosed index
    obtain ⟨ops', hsend, hops', -⟩ := send_ops (m := m) (a := a)
    refine ⟨⟨?_, honce, fun b hb hunclosed after hafter => ?_⟩,
      fun b hb hunclosed after hafter value hvalue => ?_, fun f hf b hb => ?_⟩
    · exact send_keep (fun _ _ _ hs hi => hi.step hs) hinv
    · obtain hb | hb := List.mem_append.1 hb
      · have hbefore : b.Kept m a.ledger := by
          rw [hledger]
          refine (h.kept b hb hunclosed after hafter).others h.inv fun op hop => ?_
          obtain hop | hop := hops op hop
          · exact hunclosed index op hop
          · rw [hop]
            exact (Option.some_ne_none _).symm
        dsimp only
        rw [hsend]
        refine hbefore.others hinv fun op hop => ?_
        obtain ⟨hdispatched, hop | hop | hop⟩ := hops' op hop
        · exact hunclosed index op (hmet ▸ hop)
        · rw [hop]
          exact (Option.some_ne_none _).symm
        · -- the closing is of the reservation of this attempt, and that of another is gone
          rw [hop]
          intro hsame
          have hrid : a.rid = b.rid := congrArg Prod.snd (Option.some.inj hsame)
          have hgone : a.ledger.Gone (m.tenant, a.rid) := by
            rw [hrid, hledger]
            exact gone_others (h.once.gone b hb (dispatched_of_ended hafter)) ops
          rw [not_dispatched_of_gone hgone] at hdispatched
          cases hdispatched
      · obtain rfl := List.mem_singleton.1 hb
        obtain ⟨hsent, hrows, -⟩ := send_leaves hinv (hothers hunclosed) hafter
        dsimp only
        rw [hsent]
        exact hrows
    · obtain hb | hb := List.mem_append.1 hb
      · exact absurd hvalue (hnot b hb value)
      · obtain rfl := List.mem_singleton.1 hb
        exact (send_leaves hinv (hothers hunclosed) hafter).2.2 value hvalue
    · obtain hb | hb := List.mem_append.1 hb
      · exact hfailed b hb
      · obtain rfl := List.mem_singleton.1 hb
        obtain ⟨sent, hanswer⟩ := send_failed hf
        exact ⟨f, sent, hanswer⟩

end Leaving

/-! ### The whole call -/

/-- What came of the attempts of a call. -/
def Call.tried (lib : Library) (l : Ledger) (c : Call) (w : World) : List (Except Exc Json) :=
  match c.prepare lib w with
  | .error _ => []
  | .ok (t, none) => Budget.tried t (unmetered w.attempts) maxModelAttempts 0 (⟨l, []⟩ : Metered)
  | .ok (t, some m) => Budget.tried t (m.attempt w.attempts) maxModelAttempts 0 ⟨l, []⟩

/-- How often a call calls the transport. -/
def Call.requests (lib : Library) (l : Ledger) (c : Call) (w : World) : ℕ :=
  match c.prepare lib w with
  | .error _ => 0
  | .ok (_, none) => (c.tried lib l w).length
  | .ok (_, some _) => (meteredCompletion lib l c w).1.made.countP (Made.dispatched lib c.tenant)

/-- The accounts of a call. -/
structure Accounted (lib : Library) (l : Ledger) (c : Call) (w : World) : Prop where
  attempts : (c.tried lib l w).length ≤ maxModelAttempts
  requests : c.requests lib l w ≤ (c.tried lib l w).length
  /-- Every attempt but the last failed, may be retried, and left time for a wait and one more timeout. -/
  retries : ∀ t meter, c.prepare lib w = .ok (t, meter) → ∀ k, k + 1 < (c.tried lib l w).length →
    ∃ result, (c.tried lib l w)[k]? = some result ∧ t.Retries k result
  /-- The requests of the call go out under reservations of their own. -/
  distinct :
    (((meteredCompletion lib l c w).1.made.filter (Made.dispatched lib c.tenant)).map Made.rid).Nodup
  /-- From the dispatch on, nobody dispatches the reservation again. -/
  once : ∀ a ∈ (meteredCompletion lib l c w).1.made, ∀ after out,
    dispatch lib a.ledger a.met.dispatchActive c.tenant a.rid a.met.dispatchNow = .ok (after, out) →
    ∀ ops active now, (dispatch lib (after.others lib ops) active c.tenant a.rid now).isOk = false
  /-- No later call, whatever its key, sends under a reservation of this one. -/
  again : ∀ ops c' w', ∀ a ∈ (meteredCompletion lib l c w).1.made, a.dispatched lib c.tenant = true →
    ∀ a' ∈ (meteredCompletion lib ((meteredCompletion lib l c w).1.ledger.others lib ops) c' w').1.made,
      a'.dispatched lib c'.tenant = true → (c'.tenant, a'.rid) ≠ (c.tenant, a.rid)
  /-- Where the ledger refuses nothing and no other caller closes the reservation, it is left by what came of its
  request, and what is held is held whole. -/
  left : ∀ t m, c.prepare lib w = .ok (t, some m) → ∀ a ∈ (meteredCompletion lib l c w).1.made,
    a.Unclosed c.tenant w.attempts → ∀ after, m.ended a = .ok after →
    (∃ r r', a.ledger.reservation? (c.tenant, a.rid) = some r ∧
      (meteredCompletion lib l c w).1.ledger.reservation? (c.tenant, a.rid) = some r' ∧
      m.Leaves a.met.answer r' ∧ r'.amountMicro = r.amountMicro ∧
      (r'.status.held = true → r'.amountMicro ≤
        (meteredCompletion lib l c w).1.ledger.counter Account.reservedMicro c.tenant r'.period)) ∧
    ∀ value, m.Answered a.met.answer value → (meteredCompletion lib l c w).2 = .ok value

section Whole

variable {lib : Library} {l : Ledger} {c : Call} {w : World} {τs : List (Transition Ledger Op)}

theorem Inv.held_le (h : Inv l) {r : Reservation} (hr : r ∈ l.reservations) (hheld : r.status.held = true) :
    r.amountMicro ≤ l.counter Account.reservedMicro r.tenant r.period := by
  have hown : heldMicro r.tenant r.period r = r.amountMicro := if_pos ⟨rfl, rfl, hheld⟩
  rw [h.balanced.reserved, ← hown]
  refine List.single_le_sum (fun x hx => ?_) _ (List.mem_map_of_mem hr)
  obtain ⟨r', hr', rfl⟩ := List.mem_map.1 hx
  exact (h.weights_nonneg r.tenant r.period r' hr').1

/-- No call sends under a reservation that is gone. -/
theorem not_dispatched_later {tenant : String} {rid : Uuid} (h : l.Gone (tenant, rid)) (c : Call) (w : World) :
    ∀ a ∈ (meteredCompletion lib l c w).1.made, a.dispatched lib c.tenant = true →
      (c.tenant, a.rid) ≠ (tenant, rid) := by
  obtain hnone | ⟨t, m, rfl, htenant, heq⟩ := meteredCompletion_cases lib l c w
  · rw [hnone]
    exact fun a ha => absurd ha List.not_mem_nil
  · rw [heq, ← htenant]
    let apart (s : Metered) : Prop := s.ledger.Gone (tenant, rid) ∧
      ∀ a ∈ s.made, a.dispatched m.lib m.tenant = true → (m.tenant, a.rid) ≠ (tenant, rid)
    refine (withRetries_last (I := apart) (Q := fun p => apart p.1) (fun index s hs => ?_) (by decide) 0
      ⟨h, fun a ha => absurd ha List.not_mem_nil⟩).2
    have hattempt : apart (m.attempt w.attempts index s).1 := by
      obtain ⟨ops, -, ⟨e, heq⟩ | ⟨a, -, hledger, heq⟩⟩ := attempt_made (m := m) w.attempts index s
      · rw [heq]
        exact ⟨gone_others hs.1 ops, hs.2⟩
      · rw [heq]
        obtain ⟨ops', hsend, -⟩ := send_ops (m := m) (a := a)
        have hgone : a.ledger.Gone (tenant, rid) := by
          rw [hledger]
          exact gone_others hs.1 ops
        refine ⟨?_, fun b hb hdispatched => ?_⟩
        · dsimp only
          rw [hsend]
          exact gone_others hgone ops'
        · obtain hb | hb := List.mem_append.1 hb
          · exact hs.2 b hb hdispatched
          · obtain rfl := List.mem_singleton.1 hb
            intro hsame
            rw [not_dispatched_of_gone (hsame ▸ hgone)] at hdispatched
            cases hdispatched
    exact ⟨hattempt, fun _ => hattempt⟩

/-- The reservations of a metered call, from any ledger callers can reach. -/
theorem metered_kept (h : Inv l) {t : Timing} {m : Meter} (inputs : ℕ → Attempt) :
    AllKept m inputs (withRetries t (m.attempt inputs) maxModelAttempts 0 ⟨l, []⟩).1 ∧
    ∀ a ∈ (withRetries t (m.attempt inputs) maxModelAttempts 0 ⟨l, []⟩).1.made, a.Unclosed m.tenant inputs →
      ∀ after, m.ended a = .ok after → ∀ value, m.Answered a.met.answer value →
        (withRetries t (m.attempt inputs) maxModelAttempts 0 ⟨l, []⟩).2 = .ok value := by
  let before (s : Metered) : Prop := AllKept m inputs s ∧
    ∀ a ∈ s.made, ∃ f sent, a.met.answer = .raised (.failed f) sent
  refine withRetries_last (I := before)
    (Q := fun p => AllKept m inputs p.1 ∧ ∀ a ∈ p.1.made, a.Unclosed m.tenant inputs →
      ∀ after, m.ended a = .ok after → ∀ value, m.Answered a.met.answer value → p.2 = .ok value)
    (fun index s hs => ?_) (by decide) 0 ⟨⟨h, ⟨List.nodup_nil, ?_⟩, ?_⟩, ?_⟩
  · obtain ⟨hkept, hanswered, hfailed⟩ := attempt_kept index hs.1 hs.2
    refine ⟨⟨hkept, hanswered⟩, fun hretries => ⟨hkept, ?_⟩⟩
    obtain ⟨exc, f, wait, hresult, hclass, -⟩ := hretries
    obtain rfl := classify_eq_some.1 hclass
    exact hfailed f hresult
  all_goals exact fun a ha => absurd ha List.not_mem_nil

theorem metered_once (h : Inv l) (c : Call) (w : World) :
    SentOnce lib c.tenant (meteredCompletion lib l c w).1 := by
  obtain hnone | ⟨t, m, rfl, htenant, heq⟩ := meteredCompletion_cases lib l c w
  · refine ⟨?_, ?_⟩
    · rw [hnone]
      exact List.nodup_nil
    · rw [hnone]
      exact fun a ha => absurd ha List.not_mem_nil
  · rw [heq, ← htenant]
    exact (metered_kept h w.attempts).1.once

end Whole

/-! ### A slot lease that runs out -/

def roomy : List Op := [.configure (.ok ()) "acme" "owner" "USD" 100000 3]

def roomyLedger : Ledger := roomy.foldl (Ledger.after meterLibrary) {}

/-- The first two attempts time out, the second after more than the slot lease of the first; the third is answered. -/
def slowWorld : World where
  urlsplit := sampleWorld.urlsplit
  attempts := fun n =>
    if n = 0 then { sampleAttempt with answer := .raised (.failed { outcome := .unknown }) true }
    else if n = 1 then { sampleAttempt with
      reserveNow := .at (seconds 5), dispatchNow := .at (seconds 6)
      answer := .raised (.failed { outcome := .unknown }) true
      updated := seconds 706 }
    else { sampleAttempt with
      reserveNow := .at (seconds 709), dispatchNow := .at (seconds 710), updated := seconds 711 }
  clock := fun n => if n = 0 then 3 else 706

/-- A call that is given time for it. -/
def patientCall : Call := { sampleCall with timeout := some 720, deadline := some 3000 }

/-- The transport is interrupted by what is no `Exception`. -/
def interruptedWorld : World :=
  { sampleWorld with attempts := fun _ => { sampleAttempt with answer := .raised .base true } }

/-- The reservations of a call, with what they are at its end. -/
def leftBy (l : Ledger) (c : Call) (w : World) : List (Uuid × Bool × Option Status) :=
  let s := (meteredCompletion meterLibrary l c w).1
  s.made.map fun a => (a.rid, a.dispatched meterLibrary c.tenant, s.ledger.status? (c.tenant, a.rid))

end AgentPlatform.Budget
