import Mathlib.Algebra.Order.Ring.Int
import AgentPlatform.Budget.Effects
import AgentPlatform.Lib.Runs

/-!
# The budget ledger is conserved

The counters of `p_budget_accounts` are written by hand beside the reservation rows. `Balanced` says
what they count: the money held, the number of held rows and the money spent, each a total over the
rows of the account's tenant and period. Every effect moves a counter by the change of its total
(`Table.total_update_one`), so the balance holds after any interleaving of callers.

A retired row is never written again (`Effect.retired_kept`).
-/

namespace AgentPlatform.Budget

open Outcome Table Runs

/-! ### What the counters count -/

/-- The amount a row holds in the account of a tenant and period. -/
def heldMicro (tenant period : String) (r : Reservation) : ℤ :=
  if r.tenant = tenant ∧ r.period = period ∧ r.status.held = true then r.amountMicro else 0

/-- One for each row held in the account of a tenant and period. -/
def heldOne (tenant period : String) (r : Reservation) : ℤ :=
  if r.tenant = tenant ∧ r.period = period ∧ r.status.held = true then 1 else 0

/-- The amount a retired row spent in the account of a tenant and period. -/
def retiredMicro (tenant period : String) (r : Reservation) : ℤ :=
  if r.tenant = tenant ∧ r.period = period ∧ r.status.held = false then r.actualMicro.getD 0 else 0

/-- A column of the account of a tenant and period; an account not yet opened counts as zero. -/
def Ledger.counter (column : Account → ℤ) (l : Ledger) (tenant period : String) : ℤ :=
  ((l.account tenant period).map column).getD 0

/-- Each counter is the total it stands for. -/
structure Balanced (l : Ledger) : Prop where
  reserved : ∀ tenant period,
    l.counter Account.reservedMicro tenant period = total (heldMicro tenant period) l.reservations
  inflight : ∀ tenant period,
    l.counter Account.inflight tenant period = total (heldOne tenant period) l.reservations
  spent : ∀ tenant period,
    l.counter Account.spentMicro tenant period = total (retiredMicro tenant period) l.reservations

/-- The inductive invariant of the ledger. -/
structure Inv (l : Ledger) : Prop where
  keyed : Keyed Reservation.key l.reservations
  drawn : ∀ r ∈ l.reservations, r.id < l.drawn
  opened : ∀ r ∈ l.reservations, (l.account r.tenant r.period).isSome
  amount_nonneg : ∀ r ∈ l.reservations, 0 ≤ r.amountMicro
  actual : ∀ r ∈ l.reservations, r.status.held = false → ∃ a, r.actualMicro = some a ∧ 0 ≤ a
  balanced : Balanced l

theorem inv_empty : Inv {} where
  keyed := keyed_nil _
  drawn := by simp
  opened := by simp
  amount_nonneg := by simp
  actual := by simp
  balanced := ⟨fun _ _ => rfl, fun _ _ => rfl, fun _ _ => rfl⟩

/-! ### The account table -/

section Accounts

variable {l : Ledger} {tenant period tenant' period' : String} {column : Account → ℤ}

theorem Account.hold_key (estimate : ℤ) (a : Account) : (a.hold estimate).key = a.key := rfl

theorem Account.retire_key (amount actual : ℤ) (a : Account) :
    (a.retire amount actual).key = a.key := rfl

theorem account_setAccount {f : Account → Account} (hf : ∀ a, (f a).key = a.key) :
    (l.setAccount tenant period f).account tenant' period' =
      if (tenant', period') = (tenant, period) then (l.account tenant' period').map f
      else l.account tenant' period' :=
  get_update hf _

theorem counter_setAccount {f : Account → Account} (hf : ∀ a, (f a).key = a.key) {a : Account}
    (ha : l.account tenant period = some a) :
    (l.setAccount tenant period f).counter column tenant' period' =
      l.counter column tenant' period' +
        if (tenant', period') = (tenant, period) then column (f a) - column a else 0 := by
  unfold Ledger.counter
  rw [account_setAccount hf]
  by_cases hk : (tenant', period') = (tenant, period)
  · obtain ⟨rfl, rfl⟩ := Prod.mk.inj hk
    simp [ha]
  · simp [hk]

theorem account_openAccount :
    (l.openAccount tenant period).account tenant' period' =
      (l.account tenant' period').or
        (if (tenant', period') = (tenant, period) then some ⟨tenant, period, 0, 0, 0⟩ else none) := by
  unfold Ledger.openAccount
  cases ha : l.account tenant period with
  | some a =>
    by_cases hk : (tenant', period') = (tenant, period)
    · obtain ⟨rfl, rfl⟩ := Prod.mk.inj hk
      simp [ha]
    · simp [hk]
  | none =>
    have hkey : ((tenant, period) = (tenant', period')) = ((tenant', period') = (tenant, period)) :=
      propext eq_comm
    simp only [Ledger.account, get_append, Account.key, hkey]

theorem counter_openAccount (hzero : column ⟨tenant, period, 0, 0, 0⟩ = 0) :
    (l.openAccount tenant period).counter column tenant' period' =
      l.counter column tenant' period' := by
  unfold Ledger.counter
  rw [account_openAccount]
  cases l.account tenant' period' with
  | some a => simp
  | none => split <;> simp [hzero]

@[simp] theorem openAccount_reservations :
    (l.openAccount tenant period).reservations = l.reservations := by
  unfold Ledger.openAccount
  split <;> rfl

@[simp] theorem openAccount_drawn : (l.openAccount tenant period).drawn = l.drawn := by
  unfold Ledger.openAccount
  split <;> rfl

@[simp] theorem openAccount_settings : (l.openAccount tenant period).settings = l.settings := by
  unfold Ledger.openAccount
  split <;> rfl

end Accounts

/-! ### The effects keep the invariant -/

variable {l : Ledger}

theorem Inv.setSettings (h : Inv l) (settings : List Settings) :
    Inv { l with settings := settings } :=
  { h with balanced := ⟨h.balanced.reserved, h.balanced.inflight, h.balanced.spent⟩ }

/-- An update of rows that keeps their identity, amounts and weights keeps the invariant. -/
theorem Inv.update (h : Inv l) {p : Reservation → Bool} {f : Reservation → Reservation}
    (hkey : ∀ r, (f r).key = r.key) (hperiod : ∀ r, (f r).period = r.period)
    (hamount : ∀ r, (f r).amountMicro = r.amountMicro) (hactual : ∀ r, (f r).actualMicro = r.actualMicro)
    (hheld : ∀ r ∈ l.reservations, p r = true → (f r).status.held = r.status.held) :
    Inv { l with reservations := Table.update p f l.reservations } := by
  have htenant : ∀ r, (f r).tenant = r.tenant := fun r => congrArg Prod.fst (hkey r)
  have hid : ∀ r, (f r).id = r.id := fun r => congrArg Prod.snd (hkey r)
  have hrow : ∀ r' ∈ Table.update p f l.reservations, ∃ r ∈ l.reservations,
      r'.tenant = r.tenant ∧ r'.id = r.id ∧ r'.period = r.period ∧
        r'.amountMicro = r.amountMicro ∧ r'.actualMicro = r.actualMicro ∧
          r'.status.held = r.status.held := by
    intro r' hr'
    obtain ⟨r, hr, rfl⟩ := mem_update.1 hr'
    by_cases hp : p r = true
    · exact ⟨r, hr, by simp [hp, htenant, hid, hperiod, hamount, hactual, hheld r hr hp]⟩
    · exact ⟨r, hr, by simp [hp]⟩
  refine ⟨h.keyed.update hkey, ?_, ?_, ?_, ?_, ?_⟩
  · intro r' hr'
    obtain ⟨r, hr, -, hi, -⟩ := hrow r' hr'
    exact hi ▸ h.drawn r hr
  · intro r' hr'
    obtain ⟨r, hr, ht, -, hp, -⟩ := hrow r' hr'
    exact ht ▸ hp ▸ h.opened r hr
  · intro r' hr'
    obtain ⟨r, hr, -, -, -, ha, -⟩ := hrow r' hr'
    exact ha ▸ h.amount_nonneg r hr
  · intro r' hr'
    obtain ⟨r, hr, -, -, -, -, ha, hs⟩ := hrow r' hr'
    exact ha ▸ hs ▸ h.actual r hr
  · have hw := h.balanced
    refine ⟨fun t m => (hw.reserved t m).trans ?_, fun t m => (hw.inflight t m).trans ?_,
      fun t m => (hw.spent t m).trans ?_⟩ <;>
    refine (total_update fun r hr hpr => ?_).symm
    · simp [heldMicro, htenant, hperiod, hamount, hheld r hr hpr]
    · simp [heldOne, htenant, hperiod, hheld r hr hpr]
    · simp [retiredMicro, htenant, hperiod, hactual, hheld r hr hpr]

theorem Inv.expireSlots (h : Inv l) (tenant : String) (now : Readings) : Inv (l.expireSlots tenant now) := by
  refine h.update (fun _ => rfl) (fun _ => rfl) (fun _ => rfl) (fun _ => rfl) fun r _ hp => ?_
  simp only [Ledger.outlived, Bool.and_eq_true, Bool.or_eq_true, decide_eq_true_eq] at hp
  rcases hp.1.2 with hs | hs <;> simp [hs, Status.held]

variable {updated : Time}

theorem Inv.setHeld (h : Inv l) {tenant : String} {id : Uuid} {status : Status} (hstatus : status.held = true)
    (hheld : ∀ r ∈ l.reservations, r.key = (tenant, id) → r.status.held = true) :
    Inv (l.setReservation tenant id fun r => { r with status := status, updated := updated }) := by
  refine h.update (fun _ => rfl) (fun _ => rfl) (fun _ => rfl) (fun _ => rfl) fun r hr hp => ?_
  rw [hheld r hr (by simpa using hp)]
  exact hstatus

theorem Inv.openAccount (h : Inv l) (tenant period : String) : Inv (l.openAccount tenant period) := by
  refine ⟨by simpa using h.keyed, by simpa using h.drawn, ?_, by simpa using h.amount_nonneg,
    by simpa using h.actual, ?_⟩
  · intro r hr
    rw [openAccount_reservations] at hr
    rw [account_openAccount, Option.isSome_or, h.opened r hr, Bool.true_or]
  · refine ⟨fun t m => ?_, fun t m => ?_, fun t m => ?_⟩ <;>
      rw [counter_openAccount rfl, openAccount_reservations]
    · exact h.balanced.reserved t m
    · exact h.balanced.inflight t m
    · exact h.balanced.spent t m

/-- The writes of `reserve` keep the invariant: the account and the rows grow by the same amount. -/
theorem Inv.insertReservation (h : Inv l) {tenant requestKey fingerprint period : String} {estimate : ℤ}
    {created : Time} {a : Account} (ha : l.account tenant period = some a) (hestimate : 0 ≤ estimate) :
    Inv (l.insertReservation tenant requestKey fingerprint period estimate created updated) := by
  set row : Reservation := ⟨tenant, l.drawn, requestKey, fingerprint, period, estimate, none,
    .reserved, created, updated⟩ with hrow
  have hrows : (l.insertReservation tenant requestKey fingerprint period estimate created updated).reservations
      = l.reservations ++ [row] := rfl
  refine ⟨?_, ?_, ?_, ?_, ?_, ?_⟩
  · rw [hrows]
    refine h.keyed.insert fun r hr hk => ?_
    exact absurd (congrArg Prod.snd hk) (h.drawn r hr).ne
  · intro r hr
    rcases List.mem_append.1 hr with hr | hr
    · exact Nat.lt_succ_of_lt (h.drawn r hr)
    · obtain rfl := List.mem_singleton.1 hr
      exact Nat.lt_succ_self _
  · intro r hr
    have hopen : (l.account r.tenant r.period).isSome := by
      rcases List.mem_append.1 hr with hr | hr
      · exact h.opened r hr
      · obtain rfl := List.mem_singleton.1 hr
        simp [ha]
    change ((l.setAccount tenant period _).account r.tenant r.period).isSome
    rw [account_setAccount (Account.hold_key _)]
    split <;> simpa using hopen
  · intro r hr
    rcases List.mem_append.1 hr with hr | hr
    · exact h.amount_nonneg r hr
    · obtain rfl := List.mem_singleton.1 hr
      exact hestimate
  · intro r hr
    rcases List.mem_append.1 hr with hr | hr
    · exact h.actual r hr
    · obtain rfl := List.mem_singleton.1 hr
      simp [Status.held]
  · refine ⟨fun t m => ?_, fun t m => ?_, fun t m => ?_⟩ <;>
      rw [hrows, total_append, total_cons, total_nil, add_zero]
    all_goals
      have hkey : ((t, m) = (tenant, period)) ↔ (tenant = t ∧ period = m) := by
        rw [Prod.mk.injEq, @eq_comm _ t, @eq_comm _ m]
      refine (counter_setAccount (Account.hold_key estimate) ha).trans ?_
      simp only [hkey]
    · rw [h.balanced.reserved t m]
      simp [heldMicro, hrow, Status.held, Account.hold]
    · rw [h.balanced.inflight t m]
      simp [heldOne, hrow, Status.held, Account.hold]
    · rw [h.balanced.spent t m]
      simp [retiredMicro, hrow, Status.held, Account.hold]

/-- `_settle` on a held row keeps the invariant: the money leaves the held total and its actual
amount enters the spent one. -/
theorem Inv.settleRow (h : Inv l) {row : Reservation} {actual : ℤ} {status : Status}
    (hrow : row ∈ l.reservations) (hheld : row.status.held = true) (hstatus : status.held = false)
    (hactual : 0 ≤ actual) : Inv (l.settleRow row actual status updated) := by
  set f : Reservation → Reservation := Reservation.retire actual status updated with hf
  have hrows : (l.settleRow row actual status updated).reservations =
      Table.update (fun r => r.key = row.key) f l.reservations := rfl
  have hone : ∀ x ∈ l.reservations, decide (x.key = row.key) = true ↔ x = row := fun x hx =>
    ⟨fun hk => h.keyed.eq_of_key hx hrow (by simpa using hk), fun he => by simp [he]⟩
  have hmem : ∀ r' ∈ (l.settleRow row actual status updated).reservations,
      ∃ r ∈ l.reservations, r'.tenant = r.tenant ∧ r'.id = r.id ∧ r'.period = r.period ∧
        r'.amountMicro = r.amountMicro ∧ (r' = r ∨ r'.actualMicro = some actual) := by
    intro r' hr'
    rw [hrows] at hr'
    obtain ⟨r, hr, rfl⟩ := mem_update.1 hr'
    refine ⟨r, hr, ?_⟩
    split <;> simp [hf, Reservation.retire]
  obtain ⟨a, ha⟩ := Option.isSome_iff_exists.1 (h.opened row hrow)
  refine ⟨?_, ?_, ?_, ?_, ?_, ?_⟩
  · exact h.keyed.update fun _ => rfl
  · intro r' hr'
    obtain ⟨r, hr, -, hi, -⟩ := hmem r' hr'
    exact hi ▸ h.drawn r hr
  · intro r' hr'
    obtain ⟨r, hr, ht, -, hp, -⟩ := hmem r' hr'
    change ((l.setAccount row.tenant row.period _).account r'.tenant r'.period).isSome
    rw [account_setAccount (Account.retire_key _ _), ht, hp]
    split <;> simpa using h.opened r hr
  · intro r' hr'
    obtain ⟨r, hr, -, -, -, ham, -⟩ := hmem r' hr'
    exact ham ▸ h.amount_nonneg r hr
  · intro r' hr'
    obtain ⟨r, hr, -, -, -, -, rfl | hac⟩ := hmem r' hr'
    · exact h.actual r' hr
    · exact fun _ => ⟨actual, hac, hactual⟩
  · refine ⟨fun t m => ?_, fun t m => ?_, fun t m => ?_⟩ <;>
      rw [hrows, total_update_one h.keyed.nodup hrow hone]
    all_goals
      refine (counter_setAccount (Account.retire_key row.amountMicro actual) ha).trans ?_
      have hkey : ((t, m) = (row.tenant, row.period)) ↔ (row.tenant = t ∧ row.period = m) := by
        rw [Prod.mk.injEq, @eq_comm _ t, @eq_comm _ m]
      simp only [hkey]
    · rw [h.balanced.reserved t m]
      by_cases hk : row.tenant = t ∧ row.period = m <;> simp [heldMicro, hf, Account.retire, Reservation.retire, hheld, hstatus, hk]
    · rw [h.balanced.inflight t m]
      by_cases hk : row.tenant = t ∧ row.period = m <;> simp [heldOne, hf, Account.retire, Reservation.retire, hheld, hstatus, hk]
    · rw [h.balanced.spent t m]
      by_cases hk : row.tenant = t ∧ row.period = m <;>
        simp [retiredMicro, hf, Account.retire, Reservation.retire, hheld, hstatus, hk]

variable {lib : Library} {l' : Ledger} {op : Op}

/-- Every call keeps the invariant. -/
theorem Inv.step (h : Inv l) (hs : Step lib l op l') : Inv l' := by
  cases hs.effect with
  | same => exact h
  | configured => exact h.setSettings _
  | reconfigured => exact h.setSettings _
  | reserved _ hestimate _ haccount _ =>
    exact ((h.expireSlots _ _).openAccount _ _).insertReservation haccount hestimate
  | @dispatched _ _ now row hrow htenant hstatus =>
    refine (h.expireSlots _ now).setHeld rfl fun r' hr' hk => ?_
    obtain ⟨r, hr, rfl⟩ := mem_update.1 hr'
    split
    · rfl
    · rename_i hp
      have hk : r.key = row.key := by rwa [if_neg hp] at hk
      rw [h.keyed.eq_of_key hr hrow hk, hstatus]
      rfl
  | @uncertain row _ hrow hstatus =>
    refine h.setHeld rfl fun r hr hk => ?_
    rw [h.keyed.eq_of_key hr hrow hk, hstatus]
    rfl
  | retired _ hrow hheld hstatus _ hactual => exact h.settleRow hrow hheld hstatus hactual

/-! ### Retired rows -/

/-- A retired row is still there, unchanged, after any call. -/
theorem Effect.retired_kept (h : Inv l) (he : Effect lib l op l') {r : Reservation} (hr : r ∈ l.reservations)
    (hretired : r.status.held = false) : r ∈ l'.reservations := by
  have hexpire : ∀ tenant now, r ∈ (l.expireSlots tenant now).reservations := by
    intro tenant now
    refine mem_update_of_not hr ?_
    cases hs : r.status <;> simp_all [Ledger.outlived, Status.held]
  have hother : ∀ row ∈ l.reservations, row.status.held = true →
      decide (r.key = row.key) = false := by
    intro row hrow hheld
    simp only [decide_eq_false_iff_not]
    intro hk
    rw [h.keyed.eq_of_key hr hrow hk, hheld] at hretired
    cases hretired
  cases he with
  | same => exact hr
  | configured => exact hr
  | reconfigured => exact hr
  | reserved =>
    refine List.mem_append_left _ ?_
    change r ∈ (Ledger.openAccount _ _ _).reservations
    rw [openAccount_reservations]
    exact hexpire _ _
  | @dispatched _ _ _ row hrow _ hstatus =>
    exact mem_update_of_not (hexpire _ _) (hother row hrow (by rw [hstatus]; rfl))
  | @uncertain row _ hrow hstatus =>
    exact mem_update_of_not hr (hother row hrow (by rw [hstatus]; rfl))
  | retired _ hrow hheld => exact mem_update_of_not hr (hother _ hrow hheld)

/-- A reservation is retired in a ledger. -/
def Retired (key : String × Uuid) (l : Ledger) : Prop :=
  ∃ r ∈ l.reservations, r.key = key ∧ r.status.held = false

instance (key : String × Uuid) (l : Ledger) : Decidable (Retired key l) := by
  unfold Retired; infer_instance

/-- A transition retires a reservation. -/
def Retires (key : String × Uuid) (τ : Transition Ledger Op) : Prop :=
  ¬ Retired key τ.src ∧ Retired key τ.dst

instance (key : String × Uuid) (τ : Transition Ledger Op) : Decidable (Retires key τ) := by
  unfold Retires; infer_instance

theorem Inv.weights_nonneg (h : Inv l) (tenant period : String) :
    ∀ r ∈ l.reservations, 0 ≤ heldMicro tenant period r ∧ 0 ≤ heldOne tenant period r ∧
      0 ≤ retiredMicro tenant period r := by
  intro r hr
  refine ⟨?_, ?_, ?_⟩
  · unfold heldMicro
    split
    · exact h.amount_nonneg r hr
    · exact Int.le_refl 0
  · unfold heldOne
    split <;> simp
  · unfold retiredMicro
    split
    · rename_i hk
      obtain ⟨a, ha, hnonneg⟩ := h.actual r hr hk.2.2
      simpa [ha] using hnonneg
    · exact Int.le_refl 0

theorem Inv.counters_nonneg (h : Inv l) (tenant period : String) :
    0 ≤ l.counter Account.reservedMicro tenant period ∧
      0 ≤ l.counter Account.inflight tenant period ∧
      0 ≤ l.counter Account.spentMicro tenant period := by
  have hw := h.weights_nonneg tenant period
  rw [h.balanced.reserved, h.balanced.inflight, h.balanced.spent]
  exact ⟨total_nonneg fun r hr => (hw r hr).1, total_nonneg fun r hr => (hw r hr).2.1,
    total_nonneg fun r hr => (hw r hr).2.2⟩

theorem Retired.step {key : String × Uuid} (h : Inv l) (hs : Step lib l op l') (hr : Retired key l) :
    Retired key l' := by
  obtain ⟨r, hr, hk, hretired⟩ := hr
  exact ⟨r, hs.effect.retired_kept h hr hretired, hk, hretired⟩

/-- A library whose clock stands in one month; the text itself stands for its hash. -/
def sampleLibrary : Library := ⟨fun _ => "1970-01", id⟩

/-- A request fingerprint, of 64 hexadecimal digits. -/
def sampleFingerprint : String := "0123456789abcdef0123456789abcdef0123456789abcdef0123456789abcdef"

/-- One call is reserved, dispatched and settled below its estimate. -/
def sampleCalls : List Op :=
  [.configure (.ok ()) "acme" "owner" "USD" 1000 1,
    .reserve (.ok ()) "acme" "k1" sampleFingerprint 400 "USD" (.at 0),
    .dispatch (.ok ()) "acme" 0 (.at (seconds 1)),
    .settle "acme" 0 300 (seconds 2)]

end AgentPlatform.Budget
