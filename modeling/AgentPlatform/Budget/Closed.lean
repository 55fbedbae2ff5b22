import AgentPlatform.Budget.Conservation
import AgentPlatform.Budget.Metered

/-!
# What a metered call leaves behind

A reservation leaves `reserved` when it is dispatched, and never comes back. So a metered call leaves
a reservation `reserved` exactly where `dispatch` refused it: nothing cancels it then.
-/

namespace AgentPlatform.Budget

open Outcome Table Runs

/-! ### The row of a reservation -/

def Ledger.reservation? (l : Ledger) (key : String × Uuid) : Option Reservation :=
  get Reservation.key key l.reservations

def Ledger.status? (l : Ledger) (key : String × Uuid) : Option Status :=
  (l.reservation? key).map Reservation.status

/-- The reservation a call names. -/
def Op.names : Op → Option (String × Uuid)
  | .dispatch _ tenant reservation _ | .uncertain tenant reservation _
  | .cancel tenant reservation _ | .release tenant reservation _ _
  | .settle tenant reservation _ _ | .reconcile _ tenant reservation _ _ _ _ =>
    some (tenant, reservation)
  | .configure .. | .reserve .. => none

/-- The reading a call expires slots at. -/
def Op.expiry : Op → Option Time
  | .reserve _ _ _ _ _ _ now | .dispatch _ _ _ now => some now.expiry
  | _ => none

/-- The row is as it was, or it left `reserved`: by the call that names it, or with its slot. -/
def Moved (op : Op) (key : String × Uuid) (r r' : Reservation) : Prop :=
  r' = r ∨ r'.status ≠ .reserved ∧ (op.names = some key ∨
    ∃ t, op.expiry = some t ∧ r.status ≠ .reserved ∧ r.updated ≤ t - seconds uncertainSlotSeconds)

section Rows

variable {lib : Library} {l l' : Ledger} {op : Op} {key : String × Uuid} {r : Reservation}

variable {f : Reservation → Reservation}

theorem reservation?_update {p : Reservation → Bool} (hf : ∀ r, (f r).key = r.key) :
    Ledger.reservation? { l with reservations := update p f l.reservations } key =
      (l.reservation? key).map fun r => if p r then f r else r :=
  get_update_map hf

variable {tenant : String}

theorem reservation?_setReservation {id : Uuid} (hf : ∀ r, (f r).key = r.key)
    (h : l.reservation? key = some r) :
    (l.setReservation tenant id f).reservation? key =
      some (if r.key = (tenant, id) then f r else r) := by
  unfold Ledger.setReservation
  rw [reservation?_update hf, h]
  simp

theorem key_of_reservation? (h : l.reservation? key = some r) : r.key = key := key_of_get h

theorem moved_of_set {id : Uuid} (hf : ∀ r, (f r).key = r.key) (hstatus : ∀ r, (f r).status ≠ .reserved)
    (hnames : op.names = some (tenant, id)) (h : l.reservation? key = some r) :
    ∃ r', (l.setReservation tenant id f).reservation? key = some r' ∧ Moved op key r r' := by
  refine ⟨_, reservation?_setReservation hf h, ?_⟩
  split
  · rename_i hkey
    refine .inr ⟨hstatus r, .inl ?_⟩
    rw [hnames, ← hkey, key_of_reservation? h]
  · exact .inl rfl

theorem moved_of_expire (op : Op) (tenant : String) {now : Readings} (hop : op.expiry = some now.expiry)
    (h : l.reservation? key = some r) :
    ∃ r', (l.expireSlots tenant now).reservation? key = some r' ∧ Moved op key r r' := by
  refine ⟨_, (reservation?_update (by intro r; rfl)).trans (congrArg _ h), ?_⟩
  dsimp only
  split
  · rename_i hold
    simp only [Ledger.outlived, Bool.and_eq_true, Bool.or_eq_true, decide_eq_true_eq] at hold
    obtain ⟨⟨-, hcall⟩, hage⟩ := hold
    refine .inr ⟨by simp, .inr ⟨_, hop, ?_, hage⟩⟩
    rcases hcall with hcall | hcall <;> simp [hcall]
  · exact .inl rfl

theorem reservation?_insert {requestKey fingerprint period : String} {estimate : ℤ} {created updated : Time} :
    (l.insertReservation tenant requestKey fingerprint period estimate created updated).reservation?
        key =
      (l.reservation? key).or (if (tenant, l.drawn) = key then
        some ⟨tenant, l.drawn, requestKey, fingerprint, period, estimate, none, .reserved, created,
          updated⟩ else none) :=
  get_append _

theorem reservation?_openAccount {period : String} :
    (l.openAccount tenant period).reservation? key = l.reservation? key := by
  unfold Ledger.reservation?
  rw [openAccount_reservations]

theorem reservation?_settleRow {row : Reservation} {actual : ℤ} {status : Status} {updated : Time} :
    (l.settleRow row actual status updated).reservation? key =
      (l.setReservation row.tenant row.id (Reservation.retire actual status updated)).reservation?
        key := rfl

theorem Op.names_of_target (h : op.target = some key) : op.names = some key := by
  cases op with
  | cancel | release | settle | reconcile => exact h
  | configure | reserve | dispatch | uncertain => cases h

/-- What a call does to a row that is there. -/
theorem Effect.row (h : Effect lib l op l') (hr : l.reservation? key = some r) :
    ∃ r', l'.reservation? key = some r' ∧ Moved op key r r' := by
  cases h with
  | same => exact ⟨r, hr, .inl rfl⟩
  | configured => exact ⟨r, hr, .inl rfl⟩
  | reconfigured => exact ⟨r, hr, .inl rfl⟩
  | @reserved active tenant requestKey fingerprint currency full estimate now settings account =>
    obtain ⟨r', hr', hmoved⟩ := moved_of_expire
      (.reserve active tenant requestKey fingerprint estimate currency now) tenant rfl hr
    refine ⟨r', ?_, hmoved⟩
    rw [reservation?_insert, reservation?_openAccount, hr']
    rfl
  | @dispatched active tenant now row hrow htenant hstatus =>
    obtain ⟨r₁, hr₁, hmoved⟩ := moved_of_expire (.dispatch active tenant row.id now) tenant rfl hr
    refine ⟨_, reservation?_setReservation (by intro r; rfl) hr₁, ?_⟩
    split
    · rename_i hkey
      refine .inr ⟨by simp, .inl ?_⟩
      rw [← htenant, ← key_of_reservation? hr₁, hkey]
      rfl
    · exact hmoved
  | uncertain => exact moved_of_set (by intro r; rfl) (by simp) rfl hr
  | @retired _ row status updated hrow hheld hstatus htarget hactual =>
    rw [reservation?_settleRow]
    refine moved_of_set (by intro r; rfl) (fun r => ?_) (Op.names_of_target htarget) hr
    intro heq
    rw [show (r.retire op.actual status updated).status = status from rfl] at heq
    rw [heq] at hstatus
    cases hstatus

/-- The reservation is there, and no longer `reserved`. -/
def Ledger.Gone (l : Ledger) (key : String × Uuid) : Prop :=
  ∃ r, l.reservation? key = some r ∧ r.status ≠ .reserved

theorem Ledger.Gone.status (h : l.Gone key) : l.status? key ≠ some .reserved := by
  obtain ⟨r, hr, hne⟩ := h
  simpa [Ledger.status?, hr] using hne

theorem Step.gone (hs : Step lib l op l') (h : l.Gone key) : l'.Gone key := by
  obtain ⟨r, hr, hne⟩ := h
  obtain ⟨r', hr', rfl | ⟨hne', -⟩⟩ := hs.effect.row hr
  · exact ⟨r', hr', hne⟩
  · exact ⟨r', hr', hne'⟩

/-- The call does not name the reservation, and comes within a slot lease after `start`. -/
def Spares (key : String × Uuid) (start : Time) (op : Op) : Prop :=
  op.names ≠ some key ∧ ∀ t, op.expiry = some t → t - seconds uncertainSlotSeconds < start

theorem Step.spared {start : Time} (hs : Step lib l op l') (hr : l.reservation? key = some r)
    (hu : start ≤ r.updated) (hsp : Spares key start op) : l'.reservation? key = some r := by
  obtain ⟨r', hr', rfl | ⟨-, hnames | ⟨t, ht, -, hold⟩⟩⟩ := hs.effect.row hr
  · exact hr'
  · exact absurd hnames hsp.1
  · have hlt := hsp.2 t ht
    exact absurd (hold.trans_lt hlt) (Int.not_lt.2 hu)

end Rows

/-! ### Calls of others -/

section Others

variable {lib : Library} {l l' : Ledger} {ops : List Op} {key : String × Uuid} {r : Reservation}

theorem others_keep {p : Ledger → Prop} (hp : ∀ l op l', Step lib l op l' → p l → p l') (h : p l) :
    p (l.others lib ops) := by
  induction ops generalizing l with
  | nil => exact h
  | cons op ops ih => exact ih (hp l op _ rfl h)

theorem others_spared (lib : Library) {start : Time} (hr : l.reservation? key = some r) (hu : start ≤ r.updated)
    (hsp : ∀ op ∈ ops, Spares key start op) : (l.others lib ops).reservation? key = some r := by
  induction ops generalizing l with
  | nil => exact hr
  | cons op ops ih =>
    have hstep : Step lib l op (l.after lib op) := rfl
    exact ih (hstep.spared hr hu (hsp op List.mem_cons_self))
      fun op' hop => hsp op' (List.mem_cons_of_mem _ hop)

theorem step_of_exec (op : Op) {out : Option Uuid} (h : exec lib l op = .ok (l', out)) :
    Step lib l op l' := by
  rw [Step, Ledger.after, h, commit_ok]

end Others

/-! ### Dispatching -/

/-- What `dispatch` asks of a reserved reservation: the tenant is active, the month is the
reservation's, and the budget still allows the calls in flight. -/
def Dispatchable (lib : Library) (l : Ledger) (active : Except Err Unit) (key : String × Uuid)
    (now : Readings) : Prop :=
  active = .ok () ∧ ∃ row settings account, l.reservation? key = some row ∧
    row.period = lib.period now.period ∧ l.settingsOf key.1 = some settings ∧
    l.account key.1 row.period = some account ∧
    account.spentMicro + account.reservedMicro ≤ settings.limitMicro ∧
    (l.expireSlots key.1 now).slots key.1 now.slots ≤ settings.maxInflight

section Dispatch

variable {lib : Library} {l l' : Ledger} {active : Except Err Unit} {tenant : String} {id : Uuid}
  {now : Readings} {out : Option Uuid}

theorem dispatch_ok (h : dispatch lib l active tenant id now = .ok (l', out)) :
    l.status? (tenant, id) = some .reserved ∧ Dispatchable lib l active (tenant, id) now ∧
      l' = (l.expireSlots tenant now).setReservation tenant id fun r =>
        { r with status := .dispatching, updated := now.updated } := by
  simp only [dispatch, bind_eq_ok, exists_unit, ensure_eq_ok, need_eq_ok, pure_eq_ok,
    Prod.mk.injEq, Ledger.row] at h
  obtain ⟨hactive, row, hrow, hstatus, hperiod, settings, hsettings, account, haccount,
    ⟨hlimit, hslots⟩, hl, -⟩ := h
  have hrow' : l.reservation? (tenant, id) = some row := hrow
  refine ⟨?_, ⟨hactive, row, settings, account, hrow, hperiod, hsettings, haccount, hlimit, hslots⟩,
    hl.symm⟩
  rw [Ledger.status?, hrow', Option.map_some, hstatus]

theorem dispatch_of (hstatus : l.status? (tenant, id) = some .reserved)
    (h : Dispatchable lib l active (tenant, id) now) :
    dispatch lib l active tenant id now =
      .ok ((l.expireSlots tenant now).setReservation tenant id fun r =>
        { r with status := .dispatching, updated := now.updated }, none) := by
  obtain ⟨hactive, row, settings, account, hrow, hperiod, hsettings, haccount, hlimit, hslots⟩ := h
  rw [Ledger.status?, hrow, Option.map_some, Option.some.injEq] at hstatus
  simp only [dispatch, bind_eq_ok, exists_unit, ensure_eq_ok, need_eq_ok, pure_eq_ok, Ledger.row]
  exact ⟨hactive, row, hrow, hstatus, hperiod, settings, hsettings, account, haccount,
    ⟨hlimit, hslots⟩, trivial⟩

/-- A dispatched row. -/
theorem dispatch_row (h : dispatch lib l active tenant id now = .ok (l', out)) :
    ∃ r, l.reservation? (tenant, id) = some r ∧
      l'.reservation? (tenant, id) = some { r with status := .dispatching, updated := now.updated } := by
  obtain ⟨hstatus, ⟨-, r, -, -, hr, -⟩, rfl⟩ := dispatch_ok h
  refine ⟨r, hr, ?_⟩
  rw [Ledger.status?, hr, Option.map_some, Option.some.injEq] at hstatus
  -- the slot of a reserved row does not expire
  have hexpired : (l.expireSlots tenant now).reservation? (tenant, id) = some r := by
    refine (reservation?_update (by intro r; rfl)).trans ?_
    rw [hr]
    simp [Ledger.outlived, hstatus]
  rw [reservation?_setReservation (by intro r; rfl) hexpired, if_pos (key_of_reservation? hr)]

end Dispatch

/-! ### Closing -/

/-- The status a closing leaves, where the transaction returns. -/
def Meter.closingStatus (m : Meter) : Answer → Status
  | .response value =>
    match receiptCost m.pricing m.name value with
    | .ok _ => .settled
    | .error _ => .uncertain
  | .raised (.failed f) _ => if f.outcome = .unknown then .uncertain else .released
  | .raised (.err _) _ => .uncertain
  | .raised .base _ => .dispatching

theorem amount_ok {value v : ℤ} (h : amount value = .ok v) : v = value ∧ amount v = .ok v := by
  have hv : v = value := by
    simp only [amount, bind_eq_ok, exists_unit, pure_eq_ok] at h
    exact h.2.symm
  subst hv
  exact ⟨rfl, h⟩

theorem receiptCost_amount {pricing response : Json} {name : String} {actual : ℤ}
    (h : receiptCost pricing name response = .ok actual) : amount actual = .ok actual := by
  simp only [receiptCost, bind_eq_ok, exists_unit] at h
  obtain ⟨-, counts, -, h⟩ := h
  simp only [tokenCost, bind_eq_ok] at h
  obtain ⟨_, -, _, -, _, -, _, -, h⟩ := h
  exact (amount_ok h).2

section Closing

variable {m : Meter} {l : Ledger} {rid : Uuid} {i : Attempt} {r : Reservation}

variable {tenant : String}

theorem row_of_reservation? (h : l.reservation? (tenant, rid) = some r) :
    l.row tenant rid = .ok r := need_eq_ok.2 h

theorem settleRow_row {actual : ℤ} {status : Status} {updated : Time}
    (h : l.reservation? (tenant, rid) = some r) :
    (l.settleRow r actual status updated).reservation? (tenant, rid) =
      some (r.retire actual status updated) := by
  have hkey : r.key = (tenant, rid) := key_of_reservation? h
  rw [reservation?_settleRow, reservation?_setReservation (by intro r; rfl) h]
  exact congrArg some (if_pos rfl)

theorem settle_row {actual : ℤ} (updated : Time) (h : l.reservation? (tenant, rid) = some r)
    (hstatus : r.status = .dispatching) (hactual : amount actual = .ok actual) :
    ∃ l', settle l tenant rid actual updated = .ok (l', none) ∧
      l'.reservation? (tenant, rid) = some (r.retire actual .settled updated) := by
  refine ⟨_, ?_, settleRow_row h⟩
  simp only [settle, row_of_reservation? h, hactual, hstatus, bind, Except.bind, reduceCtorEq,
    if_false, ensure, if_true]
  rfl

theorem release_row {reason : String} (updated : Time) (h : l.reservation? (tenant, rid) = some r)
    (hstatus : r.status = .dispatching) (hreason : reason = "not_sent" ∨ reason = "rejected") :
    ∃ l', release l tenant rid reason updated = .ok (l', none) ∧
      l'.reservation? (tenant, rid) = some (r.retire 0 .released updated) := by
  refine ⟨_, ?_, settleRow_row h⟩
  simp only [release, row_of_reservation? h, hreason, hstatus, bind, Except.bind, reduceCtorEq,
    if_false, ensure, if_true]
  rfl

theorem uncertain_row (updated : Time) (h : l.reservation? (tenant, rid) = some r)
    (hstatus : r.status = .dispatching) :
    ∃ l', uncertain l tenant rid updated = .ok (l', none) ∧
      l'.reservation? (tenant, rid) = some { r with status := .uncertain, updated := updated } := by
  refine ⟨l.setReservation tenant rid fun r => { r with status := .uncertain, updated := updated },
    ?_, ?_⟩
  · simp only [uncertain, row_of_reservation? h, hstatus, bind, Except.bind, reduceCtorEq,
      if_false, ensure, if_true]
    rfl
  · rw [reservation?_setReservation (by intro r; rfl) h, if_pos (key_of_reservation? h)]

/-- The closing of a dispatched reservation returns, and leaves the status of the answer. -/
theorem close_row (h : l.reservation? (m.tenant, rid) = some r) (hstatus : r.status = .dispatching)
    {start : Time} (hu : start ≤ r.updated) (hi : start ≤ i.updated) :
    ∃ l' r', (m.close l rid i).1 = .ok (l', none) ∧
      l'.reservation? (m.tenant, rid) = some r' ∧ r'.status = m.closingStatus i.answer ∧
      start ≤ r'.updated := by
  unfold Meter.close Meter.closingStatus
  cases i.answer with
  | response value =>
    dsimp only
    cases hcost : receiptCost m.pricing m.name value with
    | ok actual =>
      obtain ⟨l', hl', hr'⟩ := settle_row i.updated h hstatus (receiptCost_amount hcost)
      exact ⟨l', _, hl', hr', rfl, hi⟩
    | error e =>
      obtain ⟨l', hl', hr'⟩ := uncertain_row i.updated h hstatus
      exact ⟨l', _, hl', hr', rfl, hi⟩
  | raised exc sent =>
    cases exc with
    | failed f =>
      dsimp only
      by_cases hf : f.outcome = .unknown
      · obtain ⟨l', hl', hr'⟩ := uncertain_row i.updated h hstatus
        rw [if_pos hf, if_pos hf]
        exact ⟨l', _, hl', hr', rfl, hi⟩
      · have hreason : f.outcome.text = "not_sent" ∨ f.outcome.text = "rejected" := by
          cases ho : f.outcome with
          | notSent => exact .inl rfl
          | rejected => exact .inr rfl
          | unknown => exact absurd ho hf
        obtain ⟨l', hl', hr'⟩ := release_row i.updated h hstatus hreason
        rw [if_neg hf, if_neg hf]
        exact ⟨l', _, hl', hr', rfl, hi⟩
    | err e =>
      obtain ⟨l', hl', hr'⟩ := uncertain_row i.updated h hstatus
      exact ⟨l', _, hl', hr', rfl, hi⟩
    | base => exact ⟨l, r, rfl, h, hstatus, hu⟩

/-- The closing is one call, or none. -/
theorem close_step {l' : Ledger} {out : Option Uuid} (h : (m.close l rid i).1 = .ok (l', out)) :
    l' = l ∨ ∃ op, Step m.lib l op l' ∧ op.names = some (m.tenant, rid) ∧ op.expiry = none := by
  unfold Meter.close at h
  cases ha : i.answer with
  | response value =>
    rw [ha] at h
    dsimp only at h
    cases hcost : receiptCost m.pricing m.name value with
    | ok actual =>
      rw [hcost] at h
      exact .inr ⟨.settle m.tenant rid actual i.updated, step_of_exec _ h, rfl, rfl⟩
    | error e =>
      rw [hcost] at h
      exact .inr ⟨.uncertain m.tenant rid i.updated, step_of_exec _ h, rfl, rfl⟩
  | raised exc sent =>
    rw [ha] at h
    cases exc with
    | failed f =>
      dsimp only at h
      split at h
      · exact .inr ⟨.uncertain m.tenant rid i.updated, step_of_exec _ h, rfl, rfl⟩
      · exact .inr ⟨.release m.tenant rid f.outcome.text i.updated, step_of_exec _ h, rfl, rfl⟩
    | err e => exact .inr ⟨.uncertain m.tenant rid i.updated, step_of_exec _ h, rfl, rfl⟩
    | base =>
      simp only [Except.ok.injEq, Prod.mk.injEq] at h
      exact .inl h.1.symm

end Closing

/-! ### One attempt -/

/-- Each retry starts where an attempt ended in a classified failure: what holds before the first
attempt, and after an attempt that is retried, holds before every attempt. -/
theorem withRetries_induct {σ α : Type} {t : Timing} {attempt : ℕ → σ → σ × Except Exc α}
    {I Q : σ → Prop}
    (hattempt : ∀ index s, I s → Q (attempt index s).1 ∧
      ∀ exc, (attempt index s).2 = .error exc → (classify exc).isSome → I (attempt index s).1)
    {left : ℕ} (hleft : 0 < left) (index : ℕ) {s : σ} (hs : I s) :
    Q (withRetries t attempt left index s).1 := by
  induction left generalizing index s with
  | zero => exact absurd hleft (Nat.lt_irrefl 0)
  | succ left ih =>
    obtain ⟨hq, hretried⟩ := hattempt index s hs
    rw [withRetries]
    generalize attempt index s = after at hq hretried ⊢
    obtain ⟨s', result⟩ := after
    cases result with
    | ok a => exact hq
    | error exc =>
      dsimp only
      cases hc : classify exc with
      | none => exact hq
      | some f =>
        have hi : I s' := hretried exc rfl (by rw [hc]; rfl)
        dsimp only
        split
        · exact hq
        · rename_i wait hwait
          split
          · exact hq
          · refine ih ?_ (index + 1) hi
            -- the last attempt waits for no other
            by_contra hzero
            rw [if_pos (Nat.eq_zero_of_not_pos hzero)] at hwait
            cases hwait

section Attempts

variable {m : Meter} {l : Ledger} {rid : Uuid} {i : Attempt}

theorem send_refused {e : Err} (h : dispatch m.lib l i.dispatchActive m.tenant rid i.dispatchNow = .error e) :
    m.send l rid i = (l, .error (.err e)) := by
  rw [Meter.send, h]

/-- After a dispatch others go on, and the closing is tried. -/
theorem send_dispatched {l' : Ledger} {out : Option Uuid}
    (h : dispatch m.lib l i.dispatchActive m.tenant rid i.dispatchNow = .ok (l', out)) :
    (∃ l'' out', i.closing = .ok () ∧ (m.close (l'.others m.lib i.during) rid i).1 = .ok (l'', out') ∧
      m.send l rid i = (l'', (m.close (l'.others m.lib i.during) rid i).2)) ∨
    (i.closing ≠ .ok () ∨ ∃ e, (m.close (l'.others m.lib i.during) rid i).1 = .error e) ∧
      ∃ e, m.send l rid i = (l'.others m.lib i.during, .error (.err e)) := by
  rw [Meter.send, h]
  dsimp only
  cases hclosing : i.closing with
  | error e => exact .inr ⟨.inl (by simp), e, rfl⟩
  | ok u =>
    cases hclose : (m.close (l'.others m.lib i.during) rid i).1 with
    | error e =>
      exact .inr ⟨.inr ⟨e, rfl⟩, e, rfl⟩
    | ok r =>
      obtain ⟨l'', out'⟩ := r
      exact .inl ⟨l'', out', rfl, rfl, rfl⟩

/-- Every ledger on the way of an attempt is reached by calls. -/
theorem send_keep {p : Ledger → Prop} (hp : ∀ l op l', Step m.lib l op l' → p l → p l') (h : p l) :
    p (m.send l rid i).1 := by
  cases hd : dispatch m.lib l i.dispatchActive m.tenant rid i.dispatchNow with
  | error e =>
    rw [send_refused hd]
    exact h
  | ok r =>
    obtain ⟨l', out⟩ := r
    have hstep : Step m.lib l (.dispatch i.dispatchActive m.tenant rid i.dispatchNow) l' :=
      step_of_exec _ hd
    have hduring : p (l'.others m.lib i.during) := others_keep hp (hp _ _ _ hstep h)
    rcases send_dispatched hd with ⟨l'', out', -, hclose, hsend⟩ | ⟨-, e, hsend⟩
    · rw [hsend]
      rcases close_step hclose with rfl | ⟨op, hop, -⟩
      · exact hduring
      · exact hp _ _ _ hop hduring
    · rw [hsend]
      exact hduring

/-- An attempt that made no reservation, or what it made of one. -/
theorem attempt_cases (inputs : ℕ → Attempt) (index : ℕ) (s : Metered) :
    (∃ l e, m.attempt inputs index s = ({ s with ledger := l }, .error (.err e)) ∧
      (l = s.ledger.others m.lib (inputs index).before ∨
        Step m.lib (s.ledger.others m.lib (inputs index).before)
          (.reserve (inputs index).reserveActive m.tenant (m.key index) m.fingerprint m.estimate
            m.currency (inputs index).reserveNow) l)) ∨
    ∃ l rid,
      reserve m.lib (s.ledger.others m.lib (inputs index).before) (inputs index).reserveActive m.tenant
        (m.key index) m.fingerprint m.estimate m.currency (inputs index).reserveNow =
        .ok (l, some rid) ∧
      m.attempt inputs index s =
        (⟨(m.send (l.others m.lib (inputs index).between) rid (inputs index)).1,
          s.made ++ [⟨rid,
            decide ((s.ledger.others m.lib (inputs index).before).drawn < l.drawn),
            l.others m.lib (inputs index).between, inputs index⟩]⟩,
          (m.send (l.others m.lib (inputs index).between) rid (inputs index)).2) := by
  cases h : reserve m.lib (s.ledger.others m.lib (inputs index).before) (inputs index).reserveActive
      m.tenant (m.key index) m.fingerprint m.estimate m.currency (inputs index).reserveNow with
  | error e =>
    refine .inl ⟨_, e, ?_, .inl rfl⟩
    simp only [Meter.attempt, h]
  | ok r =>
    obtain ⟨l, out⟩ := r
    cases out with
    | none =>
      refine .inl ⟨l, .notFound "Budget reservation not found", ?_, .inr (step_of_exec _ h)⟩
      simp only [Meter.attempt, h]
    | some rid =>
      refine .inr ⟨l, rid, rfl, ?_⟩
      simp only [Meter.attempt, h]

end Attempts

/-! ### What is left `reserved` -/

section Left

variable (lib : Library) (tenant : String)

/-- The dispatch of the reservation, where it is still `reserved`, is not refused. -/
def Made.Ready (a : Made) : Prop :=
  a.ledger.status? (tenant, a.rid) = some .reserved →
    Dispatchable lib a.ledger a.met.dispatchActive (tenant, a.rid) a.met.dispatchNow

variable {lib tenant} {m : Meter} {l : Ledger} {rid : Uuid} {i : Attempt}

/-- A reservation is left `reserved` where its dispatch was refused, and only there. -/
theorem send_left (rid : Uuid) (inserted : Bool) :
    ((m.send l rid i).1.status? (m.tenant, rid) ≠ some .reserved ↔
      Made.Ready m.lib m.tenant ⟨rid, inserted, l, i⟩) ∧
    ∀ exc, (m.send l rid i).2 = .error exc → (classify exc).isSome →
      Made.Ready m.lib m.tenant ⟨rid, inserted, l, i⟩ ∧ (m.send l rid i).1.Gone (m.tenant, rid) := by
  cases hd : dispatch m.lib l i.dispatchActive m.tenant rid i.dispatchNow with
  | error e =>
    rw [send_refused hd]
    refine ⟨⟨fun hne hstatus => absurd hstatus hne, fun hready hstatus => ?_⟩, ?_⟩
    · rw [dispatch_of hstatus (hready hstatus)] at hd
      cases hd
    · intro exc hexc hclass
      simp only [Except.error.injEq] at hexc
      subst hexc
      cases hclass
  | ok r =>
    obtain ⟨l', out⟩ := r
    obtain ⟨-, hdispatchable, -⟩ := dispatch_ok hd
    obtain ⟨r, -, hr'⟩ := dispatch_row hd
    have hgone' : l'.Gone (m.tenant, rid) := ⟨_, hr', by simp⟩
    have hduring : (l'.others m.lib i.during).Gone (m.tenant, rid) :=
      others_keep (fun _ _ _ hs hg => hs.gone hg) hgone'
    have hgone : (m.send l rid i).1.Gone (m.tenant, rid) := by
      rcases send_dispatched hd with ⟨l'', out', -, hclose, hsend⟩ | ⟨-, e, hsend⟩
      · rw [hsend]
        rcases close_step hclose with rfl | ⟨op, hop, -⟩
        · exact hduring
        · exact hop.gone hduring
      · rw [hsend]
        exact hduring
    exact ⟨⟨fun _ _ => hdispatchable, fun _ => hgone.status⟩,
      fun _ _ _ => ⟨fun _ => hdispatchable, hgone⟩⟩

/-- Before an attempt: every reservation made so far was dispatched. -/
def AllGone (lib : Library) (tenant : String) (s : Metered) : Prop :=
  ∀ a ∈ s.made, a.Ready lib tenant ∧ s.ledger.Gone (tenant, a.rid)

/-- After an attempt: a reservation is `reserved` where its dispatch was refused. -/
def Left (lib : Library) (tenant : String) (s : Metered) : Prop :=
  ∀ a ∈ s.made, s.ledger.status? (tenant, a.rid) ≠ some .reserved ↔ a.Ready lib tenant

theorem AllGone.left {s : Metered} (h : AllGone lib tenant s) : Left lib tenant s :=
  fun a ha => ⟨fun _ => (h a ha).1, fun _ => (h a ha).2.status⟩

theorem attempt_left (inputs : ℕ → Attempt) (index : ℕ) {s : Metered}
    (h : AllGone m.lib m.tenant s) :
    Left m.lib m.tenant (m.attempt inputs index s).1 ∧
    ∀ exc, (m.attempt inputs index s).2 = .error exc → (classify exc).isSome →
      AllGone m.lib m.tenant (m.attempt inputs index s).1 := by
  have hbefore : ∀ a ∈ s.made, (s.ledger.others m.lib (inputs index).before).Gone (m.tenant, a.rid) :=
    fun a ha => others_keep (fun _ _ _ hs hg => hs.gone hg) (h a ha).2
  rcases attempt_cases (m := m) inputs index s with ⟨l, e, heq, hl⟩ | ⟨l, rid, hreserve, heq⟩
  · rw [heq]
    have hall : AllGone m.lib m.tenant { s with ledger := l } := by
      intro a ha
      refine ⟨(h a ha).1, ?_⟩
      rcases hl with rfl | hstep
      · exact hbefore a ha
      · exact hstep.gone (hbefore a ha)
    exact ⟨hall.left, fun _ _ _ => hall⟩
  · rw [heq]
    have hstep := step_of_exec (.reserve (inputs index).reserveActive m.tenant (m.key index)
      m.fingerprint m.estimate m.currency (inputs index).reserveNow) hreserve
    have hold : ∀ a ∈ s.made,
        (m.send (l.others m.lib (inputs index).between) rid (inputs index)).1.Gone (m.tenant, a.rid) :=
      fun a ha => send_keep (fun _ _ _ hs hg => hs.gone hg)
        (others_keep (fun _ _ _ hs hg => hs.gone hg) (hstep.gone (hbefore a ha)))
    obtain ⟨hiff, hretried⟩ := send_left rid (m := m) (l := l.others m.lib (inputs index).between)
      (i := inputs index) (decide ((s.ledger.others m.lib (inputs index).before).drawn < l.drawn))
    refine ⟨fun a ha => ?_, fun exc hexc hclass a ha => ?_⟩
    · rcases List.mem_append.1 ha with ha | ha
      · exact ⟨fun _ => (h a ha).1, fun _ => (hold a ha).status⟩
      · obtain rfl := List.mem_singleton.1 ha
        exact hiff
    · rcases List.mem_append.1 ha with ha | ha
      · exact ⟨(h a ha).1, hold a ha⟩
      · obtain rfl := List.mem_singleton.1 ha
        exact hretried exc hexc hclass

end Left

/-! ### What is released, settled or uncertain -/

/-- The calls others make while the attempt goes on. -/
def Attempt.others (i : Attempt) : List Op := i.before ++ i.between ++ i.during

/-- Every reading of the attempt comes within a slot lease after `start`. -/
structure Attempt.Prompt (start : Time) (i : Attempt) : Prop where
  reserved : start ≤ i.reserveNow.updated
  dispatched : start ≤ i.dispatchNow.updated
  closed : start ≤ i.updated
  reserving : i.reserveNow.expiry - seconds uncertainSlotSeconds < start
  dispatching : i.dispatchNow.expiry - seconds uncertainSlotSeconds < start
  others : ∀ op ∈ i.others, ∀ t, op.expiry = some t → t - seconds uncertainSlotSeconds < start

/-- The closing tells a request that never left: it is released. -/
def Answer.accounted : Answer → Bool
  | .response _ => true
  | .raised (.failed f) sent => sent || decide (f.outcome ≠ .unknown)
  | .raised (.err _) sent => sent
  | .raised .base _ => false

section Accounts

variable (lib : Library) (tenant : String)

/-- The reservation is closed: released, settled or uncertain, and released if the request never left. -/
def Made.Closed (l : Ledger) (a : Made) : Prop :=
  (l.status? (tenant, a.rid) = some .released ∨ l.status? (tenant, a.rid) = some .settled ∨
    l.status? (tenant, a.rid) = some .uncertain) ∧
  (a.met.answer.sent = false → l.status? (tenant, a.rid) = some .released)

/-- The dispatch is not refused, the closing transaction goes through, and an exception raised before
the request left says so. -/
def Made.Complete (a : Made) : Prop :=
  Dispatchable lib a.ledger a.met.dispatchActive (tenant, a.rid) a.met.dispatchNow ∧
    a.met.closing = .ok () ∧ a.met.answer.accounted = true

/-- No other caller names the reservation. -/
def Made.Undisturbed (inputs : ℕ → Attempt) (a : Made) : Prop :=
  ∀ n, ∀ op ∈ (inputs n).others, op.names ≠ some (tenant, a.rid)

end Accounts

section Accounts

variable {m : Meter} {l : Ledger} {rid : Uuid} {i : Attempt} {r : Reservation} {start : Time}
  {key : String × Uuid}

theorem closingStatus_accounted (m : Meter) (answer : Answer) :
    ((m.closingStatus answer = .released ∨ m.closingStatus answer = .settled ∨
        m.closingStatus answer = .uncertain) ∧
      (answer.sent = false → m.closingStatus answer = .released)) ↔ answer.accounted = true := by
  cases answer with
  | response value =>
    simp only [Meter.closingStatus, Answer.sent, Answer.accounted]
    cases receiptCost m.pricing m.name value <;> simp
  | raised exc sent =>
    cases exc with
    | failed f =>
      simp only [Meter.closingStatus, Answer.sent, Answer.accounted]
      by_cases hf : f.outcome = .unknown <;> cases sent <;> simp [hf]
    | err e =>
      simp only [Meter.closingStatus, Answer.sent, Answer.accounted]
      cases sent <;> simp
    | base => simp [Meter.closingStatus, Answer.accounted]

theorem status?_of_row (h : l.reservation? key = some r) : l.status? key = some r.status := by
  rw [Ledger.status?, h, Option.map_some]

/-- `send` on a fresh reservation: closed where it was complete, and only there. -/
theorem send_closes (hr : l.reservation? (m.tenant, rid) = some r) (hstatus : r.status = .reserved)
    (hi : i.Prompt start) (hsp : ∀ op ∈ i.during, Spares (m.tenant, rid) start op) (inserted : Bool) :
    (Made.Closed m.tenant (m.send l rid i).1 ⟨rid, inserted, l, i⟩ ↔
      Made.Complete m.lib m.tenant ⟨rid, inserted, l, i⟩) ∧
    ∀ exc, (m.send l rid i).2 = .error exc → (classify exc).isSome →
      ∃ r', (m.send l rid i).1.reservation? (m.tenant, rid) = some r' ∧ r'.status ≠ .reserved ∧
        start ≤ r'.updated := by
  cases hd : dispatch m.lib l i.dispatchActive m.tenant rid i.dispatchNow with
  | error e =>
    rw [send_refused hd]
    refine ⟨⟨fun hclosed => ?_, fun hcomplete => ?_⟩, fun exc hexc hclass => ?_⟩
    · simp [Made.Closed, status?_of_row hr, hstatus] at hclosed
    · rw [dispatch_of ((status?_of_row hr).trans (by rw [hstatus])) hcomplete.1] at hd
      cases hd
    · simp only [Except.error.injEq] at hexc
      subst hexc
      cases hclass
  | ok d =>
    obtain ⟨l', out⟩ := d
    obtain ⟨-, hdispatchable, -⟩ := dispatch_ok hd
    obtain ⟨r₀, hr₀, hr'⟩ := dispatch_row hd
    have hduring := others_spared m.lib hr' hi.dispatched hsp
    obtain ⟨l₂, r₂, hclose, hr₂, hstatus₂, hu₂⟩ := close_row hduring rfl hi.dispatched hi.closed
    rcases send_dispatched hd with ⟨l₃, out', hok, hclose', hsend⟩ | ⟨hfailed, e, hsend⟩
    · rw [hclose, Except.ok.injEq, Prod.mk.injEq] at hclose'
      obtain ⟨rfl, -⟩ := hclose'
      rw [hsend]
      have hlater : l₂.status? (m.tenant, rid) = some (m.closingStatus i.answer) := by
        rw [status?_of_row hr₂, hstatus₂]
      refine ⟨?_, fun exc hexc hclass => ⟨r₂, hr₂, ?_, hu₂⟩⟩
      · simp only [Made.Closed, Made.Complete, hlater, Option.some.injEq, hdispatchable, hok, true_and]
        exact closingStatus_accounted m i.answer
      · rw [hstatus₂]
        unfold Meter.closingStatus
        intro hres
        split at hres
        · split at hres <;> cases hres
        · split at hres <;> cases hres
        · cases hres
        · cases hres
    · rw [hsend]
      have hnot : i.closing ≠ .ok () := by
        rcases hfailed with h | ⟨e', he'⟩
        · exact h
        · rw [hclose] at he'
          cases he'
      refine ⟨⟨fun hclosed => ?_, fun hcomplete => absurd hcomplete.2.1 hnot⟩,
        fun exc hexc hclass => ?_⟩
      · simp [Made.Closed, status?_of_row hduring] at hclosed
      · simp only [Except.error.injEq] at hexc
        subst hexc
        cases hclass

/-- `send` leaves another row that is not `reserved` as it is. -/
theorem send_spared (rid : Uuid) (hr : l.reservation? key = some r) (hne : r.status ≠ .reserved)
    (hu : start ≤ r.updated) (hi : i.Prompt start) (hsp : ∀ op ∈ i.during, Spares key start op) :
    (m.send l rid i).1.reservation? key = some r := by
  cases hd : dispatch m.lib l i.dispatchActive m.tenant rid i.dispatchNow with
  | error e =>
    rw [send_refused hd]
    exact hr
  | ok d =>
    obtain ⟨l', out⟩ := d
    -- what is dispatched was reserved, so it is another row
    have hkey : (m.tenant, rid) ≠ key := by
      rintro rfl
      have hres := (dispatch_ok hd).1
      rw [status?_of_row hr, Option.some.injEq] at hres
      exact hne hres
    have hstep : Step m.lib l (.dispatch i.dispatchActive m.tenant rid i.dispatchNow) l' :=
      step_of_exec _ hd
    have hdispatched : l'.reservation? key = some r := by
      refine hstep.spared hr hu ⟨fun h => hkey (Option.some.inj h), fun t ht => ?_⟩
      obtain rfl := Option.some.inj ht
      exact hi.dispatching
    have hduring := others_spared m.lib hdispatched hu hsp
    rcases send_dispatched hd with ⟨l'', out', -, hclose, hsend⟩ | ⟨-, e, hsend⟩
    · rw [hsend]
      rcases close_step hclose with rfl | ⟨op, hop, hnames, hexpiry⟩
      · exact hduring
      · refine hop.spared hduring hu ⟨fun h => hkey ?_, fun t ht => ?_⟩
        · exact Option.some.inj (hnames.symm.trans h)
        · rw [hexpiry] at ht
          cases ht
    · rw [hsend]
      exact hduring

/-- A row `reserve` inserted. -/
theorem reserve_inserted {lib : Library} {l' : Ledger} {active : Except Err Unit}
    {tenant requestKey fingerprint currency : String} {estimate : ℤ} {now : Readings} (hinv : Inv l)
    (h : reserve lib l active tenant requestKey fingerprint estimate currency now = .ok (l', some rid))
    (hdrawn : l.drawn < l'.drawn) :
    ∃ r, l'.reservation? (tenant, rid) = some r ∧ r.status = .reserved ∧ r.updated = now.updated := by
  simp only [reserve, bind_eq_ok, exists_unit, ensure_eq_ok, need_eq_ok] at h
  obtain ⟨_, -, _, -, _, -, -, -, settings, -, h⟩ := h
  split at h
  · simp only [bind_eq_ok, exists_unit, ensure_eq_ok, pure_eq_ok, Prod.mk.injEq] at h
    obtain ⟨-, rfl, -⟩ := h
    exact absurd hdrawn (Nat.lt_irrefl _)
  · simp only [bind_eq_ok, exists_unit, ensure_eq_ok, need_eq_ok, pure_eq_ok, Prod.mk.injEq,
      Option.some.injEq] at h
    obtain ⟨-, account, -, -, rfl, rfl⟩ := h
    have hopened := (hinv.expireSlots tenant now).openAccount tenant (lib.period now.period)
    -- every row there has an identifier drawn before
    have hnone : ((l.expireSlots tenant now).openAccount tenant (lib.period now.period)).reservation?
        (tenant, ((l.expireSlots tenant now).openAccount tenant (lib.period now.period)).drawn) =
        none := by
      refine get_eq_none.2 fun r hr heq => ?_
      have hlt := hopened.drawn r hr
      have hid := congrArg Prod.snd heq
      exact absurd hid (Nat.ne_of_lt hlt)
    rw [reservation?_insert, if_pos rfl, hnone]
    exact ⟨_, rfl, rfl, rfl⟩

/-- Before an attempt: what became of the reservations that no other caller names is settled. -/
structure AllClosed (m : Meter) (inputs : ℕ → Attempt) (start : Time) (s : Metered) : Prop where
  inv : Inv s.ledger
  kept : ∀ a ∈ s.made, a.inserted = true → a.Undisturbed m.tenant inputs →
    (∃ r, s.ledger.reservation? (m.tenant, a.rid) = some r ∧ r.status ≠ .reserved ∧
      start ≤ r.updated) ∧
    (a.Closed m.tenant s.ledger ↔ a.Complete m.lib m.tenant)

/-- After an attempt: a reservation is closed where it was complete. -/
def ClosedIff (m : Meter) (inputs : ℕ → Attempt) (s : Metered) : Prop :=
  ∀ a ∈ s.made, a.inserted = true → a.Undisturbed m.tenant inputs →
    (a.Closed m.tenant s.ledger ↔ a.Complete m.lib m.tenant)

theorem Closed.congr {l' : Ledger} {tenant : String} {a : Made}
    (h : l'.reservation? (tenant, a.rid) = l.reservation? (tenant, a.rid)) :
    a.Closed tenant l' ↔ a.Closed tenant l := by
  have hstatus : l'.status? (tenant, a.rid) = l.status? (tenant, a.rid) := by
    rw [Ledger.status?, Ledger.status?, h]
  simp only [Made.Closed, hstatus]

theorem attempt_closes {inputs : ℕ → Attempt} (hprompt : ∀ n, (inputs n).Prompt start) (index : ℕ)
    {s : Metered} (h : AllClosed m inputs start s) :
    ClosedIff m inputs (m.attempt inputs index s).1 ∧
    ∀ exc, (m.attempt inputs index s).2 = .error exc → (classify exc).isSome →
      AllClosed m inputs start (m.attempt inputs index s).1 := by
  have hspares : ∀ a : Made, a.Undisturbed m.tenant inputs → ∀ op ∈ (inputs index).others,
      Spares (m.tenant, a.rid) start op :=
    fun a ha op hop => ⟨ha index op hop, (hprompt index).others op hop⟩
  have hin : ∀ op, op ∈ (inputs index).before ∨ op ∈ (inputs index).between ∨
      op ∈ (inputs index).during → op ∈ (inputs index).others := by
    intro op hop
    simp only [Attempt.others, List.mem_append, or_assoc]
    exact hop
  have hbefore : Inv (s.ledger.others m.lib (inputs index).before) :=
    others_keep (fun _ _ _ hs hi => hi.step hs) h.inv
  have hreserving : ∀ key, Spares key start (.reserve (inputs index).reserveActive m.tenant
      (m.key index) m.fingerprint m.estimate m.currency (inputs index).reserveNow) := by
    refine fun key => ⟨fun hnames => ?_, fun t ht => ?_⟩
    · cases hnames
    obtain rfl := Option.some.inj ht
    exact (hprompt index).reserving
  rcases attempt_cases (m := m) inputs index s with ⟨l, e, heq, hl⟩ | ⟨l, rid, hreserve, heq⟩
  · rw [heq]
    refine ⟨fun a ha hinserted hquiet => ?_, fun exc hexc hclass => ?_⟩
    · obtain ⟨⟨r, hr, hne, hu⟩, hiff⟩ := h.kept a ha hinserted hquiet
      have hr' := others_spared m.lib hr hu
        fun op hop => hspares a hquiet op (hin op (.inl hop))
      have hsame : l.reservation? (m.tenant, a.rid) = some r := by
        rcases hl with rfl | hstep
        · exact hr'
        · exact hstep.spared hr' hu (hreserving _)
      exact (Closed.congr (hsame.trans hr.symm)).trans hiff
    · simp only [Except.error.injEq] at hexc
      subst hexc
      cases hclass
  · rw [heq]
    have hstep := step_of_exec (.reserve (inputs index).reserveActive m.tenant (m.key index)
      m.fingerprint m.estimate m.currency (inputs index).reserveNow) hreserve
    have hinv : Inv l := hbefore.step hstep
    have hbetween : Inv (l.others m.lib (inputs index).between) :=
      others_keep (fun _ _ _ hs hi => hi.step hs) hinv
    -- the reservations made before stay as they are
    have hold : ∀ a ∈ s.made, a.inserted = true → a.Undisturbed m.tenant inputs →
        (∃ r, (m.send (l.others m.lib (inputs index).between) rid (inputs index)).1.reservation?
            (m.tenant, a.rid) = some r ∧ r.status ≠ .reserved ∧ start ≤ r.updated) ∧
          (a.Closed m.tenant (m.send (l.others m.lib (inputs index).between) rid (inputs index)).1 ↔
            a.Complete m.lib m.tenant) := by
      intro a ha hinserted hquiet
      obtain ⟨⟨r, hr, hne, hu⟩, hiff⟩ := h.kept a ha hinserted hquiet
      have hr₁ := others_spared m.lib hr hu
        fun op hop => hspares a hquiet op (hin op (.inl hop))
      have hr₂ := hstep.spared hr₁ hu (hreserving _)
      have hr₃ := others_spared m.lib hr₂ hu
        fun op hop => hspares a hquiet op (hin op (.inr (.inl hop)))
      have hr₄ := send_spared rid (m := m) hr₃ hne hu (hprompt index)
        fun op hop => hspares a hquiet op (hin op (.inr (.inr hop)))
      exact ⟨⟨r, hr₄, hne, hu⟩, (Closed.congr (hr₄.trans hr.symm)).trans hiff⟩
    -- the new one is closed where it is complete
    have hnew : ∀ a, a = (⟨rid, decide ((s.ledger.others m.lib (inputs index).before).drawn < l.drawn),
          l.others m.lib (inputs index).between, inputs index⟩ : Made) →
        a.inserted = true → a.Undisturbed m.tenant inputs →
        (a.Closed m.tenant (m.send (l.others m.lib (inputs index).between) rid (inputs index)).1 ↔
            a.Complete m.lib m.tenant) ∧
          ∀ exc, (m.send (l.others m.lib (inputs index).between) rid (inputs index)).2 = .error exc →
            (classify exc).isSome →
            ∃ r, (m.send (l.others m.lib (inputs index).between) rid (inputs index)).1.reservation?
              (m.tenant, rid) = some r ∧ r.status ≠ .reserved ∧ start ≤ r.updated := by
      rintro a rfl hinserted hquiet
      obtain ⟨r, hr, hstatus, hupdated⟩ :=
        reserve_inserted hbefore hreserve (of_decide_eq_true hinserted)
      have hu : start ≤ r.updated := by
        rw [hupdated]
        exact (hprompt index).reserved
      have hr' := others_spared m.lib hr hu
        fun op hop => hspares _ hquiet op (hin op (.inr (.inl hop)))
      exact send_closes hr' hstatus (hprompt index)
        (fun op hop => hspares _ hquiet op (hin op (.inr (.inr hop)))) _
    refine ⟨fun a ha hinserted hquiet => ?_, fun exc hexc hclass => ⟨?_, fun a ha hinserted hquiet => ?_⟩⟩
    · rcases List.mem_append.1 ha with ha | ha
      · exact (hold a ha hinserted hquiet).2
      · exact (hnew a (List.mem_singleton.1 ha) hinserted hquiet).1
    · exact send_keep (fun _ _ _ hs hi => hi.step hs) hbetween
    · rcases List.mem_append.1 ha with ha | ha
      · exact hold a ha hinserted hquiet
      · obtain ⟨hiff, hretried⟩ := hnew a (List.mem_singleton.1 ha) hinserted hquiet
        obtain rfl := List.mem_singleton.1 ha
        exact ⟨hretried exc hexc hclass, hiff⟩

end Accounts

/-! ### The whole call -/

section Calls

variable {lib : Library} {l : Ledger} {τs : List (Transition Ledger Op)}

theorem prepare_meter {c : Call} {w : World} {t : Timing} {m : Meter}
    (h : c.prepare lib w = .ok (t, some m)) : m.lib = lib ∧ m.tenant = c.tenant := by
  simp only [Call.prepare, bind_eq_ok, exists_unit] at h
  obtain ⟨-, name, -, _, -, timeout, -, pricing, -, h⟩ := h
  cases pricing with
  | none => simp [pure_eq_ok] at h
  | some pricing =>
    simp only [bind_eq_ok, pure_eq_ok, Prod.mk.injEq, Option.some.injEq] at h
    obtain ⟨_, -, estimate, -, -, rfl⟩ := h
    exact ⟨rfl, rfl⟩

/-- A call is metered, or makes no reservation. -/
theorem meteredCompletion_cases (lib : Library) (l : Ledger) (c : Call) (w : World) :
    (meteredCompletion lib l c w).1.made = [] ∨
    ∃ (t : Timing) (m : Meter), m.lib = lib ∧ m.tenant = c.tenant ∧
      meteredCompletion lib l c w = withRetries t (m.attempt w.attempts) maxModelAttempts 0 ⟨l, []⟩ := by
  cases h : c.prepare lib w with
  | error e =>
    refine .inl ?_
    simp only [meteredCompletion, h]
  | ok r =>
    obtain ⟨t, meter⟩ := r
    cases meter with
    | none =>
      refine .inl ?_
      simp only [meteredCompletion, h]
      refine withRetries_induct (I := fun s : Metered => s.made = []) (Q := fun s => s.made = [])
        (fun index s hs => ?_) (by decide) 0 rfl
      have hsame : (unmetered w.attempts index s).1.made = s.made := by
        unfold unmetered
        cases (w.attempts index).answer <;> rfl
      exact ⟨hsame.trans hs, fun _ _ _ => hsame.trans hs⟩
    | some m =>
      obtain ⟨hlib, htenant⟩ := prepare_meter h
      refine .inr ⟨t, m, hlib, htenant, ?_⟩
      simp only [meteredCompletion, h]

/-- **What a metered call leaves behind.** From any ledger callers can reach, whatever others do
between its transactions and whatever the provider answers: a reservation of the call is left
`reserved` exactly where its dispatch was refused. And where the call ends within a slot lease, a
reservation it inserted and no other caller names is released, settled or uncertain, and released if
the request never left, exactly where the dispatch was not refused, the closing transaction went
through, and an exception before the request left said so. -/
theorem metered_closes (h : Run (Step lib) {} τs l) (c : Call) (w : World) :
    (∀ a ∈ (meteredCompletion lib l c w).1.made,
      (meteredCompletion lib l c w).1.ledger.status? (c.tenant, a.rid) ≠ some .reserved ↔
        a.Ready lib c.tenant) ∧
    ∀ start, (∀ n, (w.attempts n).Prompt start) →
      ∀ a ∈ (meteredCompletion lib l c w).1.made, a.inserted = true →
        a.Undisturbed c.tenant w.attempts →
        (a.Closed c.tenant (meteredCompletion lib l c w).1.ledger ↔ a.Complete lib c.tenant) := by
  rcases meteredCompletion_cases lib l c w with hnone | ⟨t, m, rfl, htenant, heq⟩
  · rw [hnone]
    simp
  · rw [heq, ← htenant]
    have hinv : Inv l := h.invariant inv_empty fun _ _ _ hi hs => hi.step hs
    refine ⟨?_, fun start hprompt => ?_⟩
    · exact withRetries_induct (fun index s hs => attempt_left w.attempts index hs) (by decide) 0
        (I := AllGone m.lib m.tenant) (Q := Left m.lib m.tenant) (fun a ha => by cases ha)
    · exact withRetries_induct (fun index s hs => attempt_closes hprompt index hs) (by decide) 0
        (I := AllClosed m w.attempts start) (Q := ClosedIff m w.attempts)
        ⟨hinv, fun a ha => by cases ha⟩

/-! ### A frozen tenant -/

def sampleCall : Call where
  tenant := "acme"
  cfg := .obj [("usage_budget", .obj [("currency", .str "USD"),
    ("input_micro_per_million", .int 1), ("output_micro_per_million", .int 2)])]
  url := "https://m"
  body := .obj [("max_tokens", .int 100)]
  requestKey := "k"
  drawn := "d"

/-- A library whose digests are 64 digits. -/
def meterLibrary : Library := ⟨fun _ => "1970-01", fun _ => sampleFingerprint⟩

def sampleAttempt : Attempt where
  reserveNow := .at (seconds 1)
  dispatchNow := .at (seconds 2)
  answer := .response (.obj [("usage", .obj [("prompt_tokens", .int 9), ("completion_tokens", .int 1)])])
  updated := seconds 3

/-- The provider refuses the first attempt and answers the second. -/
def sampleWorld : World where
  urlsplit := fun _ => .ok ⟨"https", some "m", none, none, "", "", .ok none⟩
  attempts := fun n => if n = 0 then
      { sampleAttempt with answer := .raised (.failed { outcome := .rejected, status := some 503 }) true }
    else sampleAttempt

/-- The tenant is frozen between the reservation and its dispatch. -/
def frozenWorld : World :=
  { sampleWorld with attempts := fun _ =>
      { sampleAttempt with dispatchActive := .error (.forbidden "Tenant stopped") } }

def configured : List Op := [.configure (.ok ()) "acme" "owner" "USD" 1000 1]

def configuredLedger : Ledger := configured.foldl (Ledger.after meterLibrary) {}

theorem configured_run :
    Run (Step meterLibrary) {} (trace (Ledger.after meterLibrary) {} configured) configuredLedger :=
  Run.nil.calls configured

theorem sample_prompt : ∀ n, (sampleWorld.attempts n).Prompt 0 := by
  intro n
  have hothers : (sampleWorld.attempts n).others = [] := by
    unfold sampleWorld
    dsimp only
    split <;> rfl
  refine ⟨?_, ?_, ?_, ?_, ?_, by simp [hothers]⟩ <;> unfold sampleWorld <;> dsimp only <;> split <;>
    decide

theorem metered_closes_sample :
    let s := (meteredCompletion meterLibrary configuredLedger sampleCall sampleWorld).1
    s.made.map (fun a => (a.rid, a.inserted, s.ledger.status? ("acme", a.rid))) =
      [(0, true, some .released), (1, true, some .settled)] ∧
    ∀ a ∈ s.made, a.Ready meterLibrary "acme" ∧ a.Complete meterLibrary "acme" := by
  intro s
  have hmade : s.made.map (fun a => (a.rid, a.inserted, s.ledger.status? ("acme", a.rid))) =
      [(0, true, some .released), (1, true, some .settled)] := by decide +kernel
  have hanswers : s.made.all (fun a => a.met.answer.sent) = true := by decide +kernel
  obtain ⟨hleft, hclosed⟩ := metered_closes configured_run sampleCall sampleWorld
  refine ⟨hmade, fun a ha => ?_⟩
  have hrow := List.mem_map_of_mem (f := fun a => (a.rid, a.inserted, s.ledger.status? ("acme", a.rid))) ha
  rw [hmade] at hrow
  have hfacts : a.inserted = true ∧ (s.ledger.status? ("acme", a.rid) = some .released ∨
      s.ledger.status? ("acme", a.rid) = some .settled) := by
    simp only [List.mem_cons, Prod.mk.injEq, List.not_mem_nil, or_false] at hrow
    obtain ⟨-, hi, hs⟩ | ⟨-, hi, hs⟩ := hrow
    · exact ⟨hi, .inl hs⟩
    · exact ⟨hi, .inr hs⟩
  obtain ⟨hinserted, hstatus⟩ := hfacts
  refine ⟨(hleft a ha).1 ?_, (hclosed 0 sample_prompt a ha hinserted ?_).1 ⟨?_, fun hsent => ?_⟩⟩
  · rcases hstatus with hs | hs <;> exact fun h => by cases hs.symm.trans h
  · intro n op hop
    have hothers : (sampleWorld.attempts n).others = [] := by
      unfold sampleWorld
      dsimp only
      split <;> rfl
    rw [hothers] at hop
    cases hop
  · rcases hstatus with hs | hs
    · exact .inl hs
    · exact .inr (.inl hs)
  · rw [List.all_eq_true.1 hanswers a ha] at hsent
    cases hsent

/-- A frozen tenant's reservation stays `reserved`: its dispatch raises, and nothing cancels it. -/
theorem frozen_stays_reserved :
    (meteredCompletion meterLibrary configuredLedger sampleCall frozenWorld).2 =
      .error (.err (.forbidden "Tenant stopped")) ∧
    ∃ a ∈ (meteredCompletion meterLibrary configuredLedger sampleCall frozenWorld).1.made,
      (meteredCompletion meterLibrary configuredLedger sampleCall frozenWorld).1.ledger.status?
        ("acme", a.rid) = some .reserved := by
  have hmade : ((meteredCompletion meterLibrary configuredLedger sampleCall frozenWorld).1.made.any
      fun a => decide ((meteredCompletion meterLibrary configuredLedger sampleCall
        frozenWorld).1.ledger.status? ("acme", a.rid) = some .reserved)) = true := by decide +kernel
  obtain ⟨a, ha, hstatus⟩ := List.any_eq_true.1 hmade
  have hraised : (match (meteredCompletion meterLibrary configuredLedger sampleCall frozenWorld).2 with
      | .error (.err e) => decide (e = .forbidden "Tenant stopped")
      | _ => false) = true := by decide +kernel
  refine ⟨?_, a, ha, of_decide_eq_true hstatus⟩
  split at hraised
  · rename_i e heq
    rw [heq, of_decide_eq_true hraised]
  · cases hraised

end Calls

end AgentPlatform.Budget
