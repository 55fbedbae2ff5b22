import AgentPlatform.Budget.Conservation

/-!
# Admission under a fixed budget

`Fixed` is the setting of the guarantee: settings are made once, and nothing settles above its
estimate. The money bound then follows from the reservation's conditional update.

The slot bound is kept through the rows that still may take a slot again, `occupies`, however old
they are: `uncertain` makes an old dispatched row young. A reservation that expires every row older
than the slot lease counts them all, provided its two clock readings agree (`SlotsAgree`): `reserve`
reads the clock once for the cutoff of `_expire_slots` and again for the cutoff of `_slots`, and a
row whose age passes the lease between the two is neither moved nor counted.
-/

namespace AgentPlatform.Budget

open Outcome Table Runs

/-- A row that holds a slot, or may hold one again. -/
def occupies (tenant : String) (r : Reservation) : Bool :=
  decide (r.tenant = tenant) && (decide (r.status = .reserved) || decide (r.status = .dispatching) ||
    decide (r.status = .uncertain))

/-- Settings are made once, and no settlement exceeds its reservation. -/
def Fixed (l : Ledger) : Op → Prop
  | .configure _ tenant _ _ _ _ => l.settingsOf tenant = none
  | .settle tenant reservation actualMicro _ | .reconcile _ tenant reservation _ actualMicro _ _ =>
    ∀ r ∈ l.reservations, r.key = (tenant, reservation) → actualMicro ≤ r.amountMicro
  | _ => True

/-- No row outlives the slot lease between the two cutoffs of a reservation. -/
def SlotsAgree (l : Ledger) : Op → Prop
  | .reserve _ tenant _ _ _ _ now => ∀ r ∈ l.reservations, r.tenant = tenant →
      r.status = .dispatching ∨ r.status = .uncertain →
      ¬ (now.expiry - seconds uncertainSlotSeconds < r.updated ∧
        r.updated ≤ now.slots - seconds uncertainSlotSeconds)
  | _ => True

/-- The invariant of admission. -/
structure Admitted (l : Ledger) : Prop where
  configured : ∀ r ∈ l.reservations, (l.settingsOf r.tenant).isSome
  unopened : ∀ tenant period, l.settingsOf tenant = none → l.account tenant period = none
  within : ∀ tenant period settings, l.settingsOf tenant = some settings →
    l.counter Account.spentMicro tenant period + l.counter Account.reservedMicro tenant period ≤
      settings.limitMicro
  slots : ∀ tenant settings, l.settingsOf tenant = some settings →
    (l.reservations.countP (occupies tenant) : ℤ) ≤ settings.maxInflight

theorem admitted_empty : Admitted {} where
  configured := by simp
  unopened _ _ _ := rfl
  within _ _ _ h := by cases h
  slots _ _ h := by cases h

/-! ### Counting slots -/

theorem slots_le_occupied (l : Ledger) (tenant : String) (now : Time) :
    l.slots tenant now ≤ (l.reservations.countP (occupies tenant) : ℤ) := by
  refine Int.ofNat_le.2 (List.countP_mono_left fun r _ hr => ?_)
  simp only [Ledger.holdsSlot, occupies, Bool.and_eq_true, Bool.or_eq_true,
    decide_eq_true_eq] at hr ⊢
  obtain ⟨ht, hs | ⟨hs | hs, -⟩⟩ := hr
  · exact ⟨ht, .inl (.inl hs)⟩
  · exact ⟨ht, .inl (.inr hs)⟩
  · exact ⟨ht, .inr hs⟩

variable {l : Ledger} {tenant : String}

/-- Where the two cutoffs agree, a reservation counts every row that may take a slot. -/
theorem occupied_le_slots {now : Readings} (hagree : ∀ r ∈ l.reservations, r.tenant = tenant →
      r.status = .dispatching ∨ r.status = .uncertain →
      ¬ (now.expiry - seconds uncertainSlotSeconds < r.updated ∧
        r.updated ≤ now.slots - seconds uncertainSlotSeconds)) :
    ((l.expireSlots tenant now).reservations.countP (occupies tenant) : ℤ) ≤
      (l.expireSlots tenant now).slots tenant now.slots := by
  refine Int.ofNat_le.2 (List.countP_mono_left fun r' hr' ho => ?_)
  obtain ⟨r, hr, rfl⟩ := mem_update.1 hr'
  by_cases hold : Ledger.outlived tenant now.expiry r = true
  · simp [hold, occupies] at ho
  · rw [if_neg hold] at ho ⊢
    simp only [occupies, Ledger.holdsSlot, Bool.and_eq_true, Bool.or_eq_true,
      decide_eq_true_eq] at ho ⊢
    obtain ⟨ht, hs⟩ := ho
    refine ⟨ht, ?_⟩
    by_cases hres : r.status = .reserved
    · exact .inl hres
    · have hcall : r.status = .dispatching ∨ r.status = .uncertain := by
        rcases hs with (hs | hs) | hs
        · exact absurd hs hres
        · exact .inl hs
        · exact .inr hs
      have hyoung : now.expiry - seconds uncertainSlotSeconds < r.updated := by
        by_contra hle
        refine hold ?_
        simp [Ledger.outlived, ht, hcall, Int.not_lt.1 hle]
      exact .inr ⟨hcall, Int.not_le.1 fun hle => hagree r hr ht hcall ⟨hyoung, hle⟩⟩

/-! ### The effects keep admission -/

theorem Admitted.update (h : Admitted l) {p : Reservation → Bool} {f : Reservation → Reservation}
    (htenant : ∀ r, (f r).tenant = r.tenant)
    (hoccupies : ∀ tenant, ∀ r ∈ l.reservations, p r = true → occupies tenant (f r) = true →
      occupies tenant r = true) : Admitted { l with reservations := Table.update p f l.reservations } := by
  refine ⟨fun r' hr' => ?_, h.unopened, h.within, fun tenant settings hs => ?_⟩
  · obtain ⟨r, hr, rfl⟩ := mem_update.1 hr'
    have hr := h.configured r hr
    split
    · rwa [htenant]
    · exact hr
  · have hle := countP_update_le (hoccupies tenant)
    exact (Int.ofNat_le.2 hle).trans (h.slots tenant settings hs)

theorem Admitted.expireSlots (h : Admitted l) (tenant : String) (now : Readings) :
    Admitted (l.expireSlots tenant now) :=
  h.update (fun _ => rfl) fun _ r _ _ ho => by simp [occupies] at ho

theorem Admitted.openAccount (h : Admitted l) {period : String} (hconfigured : (l.settingsOf tenant).isSome) :
    Admitted (l.openAccount tenant period) := by
  have hsettings : ∀ t, (l.openAccount tenant period).settingsOf t = l.settingsOf t := by
    intro t
    unfold Ledger.settingsOf
    rw [openAccount_settings]
  refine ⟨?_, fun t m ht => ?_, fun t m settings hs => ?_, fun t settings hs => ?_⟩
  · simpa [hsettings] using h.configured
  · rw [hsettings] at ht
    have hne : ¬ (t, m) = (tenant, period) := by
      intro hk
      rw [(Prod.mk.inj hk).1] at ht
      simp [ht] at hconfigured
    rw [account_openAccount, h.unopened t m ht, if_neg hne]
    rfl
  · rw [counter_openAccount rfl, counter_openAccount rfl]
    exact h.within t m settings (by rwa [← hsettings])
  · rw [openAccount_reservations]
    exact h.slots t settings (by rwa [← hsettings])

/-- The writes of `reserve`, under the bounds it checked. -/
theorem Admitted.insertReservation (h : Admitted l) {requestKey fingerprint period : String} {estimate : ℤ}
    {created updated : Time} {settings : Settings} {a : Account}
    (hsettings : l.settingsOf tenant = some settings) (ha : l.account tenant period = some a)
    (hlimit : a.spentMicro + a.reservedMicro + estimate ≤ settings.limitMicro)
    (hslots : (l.reservations.countP (occupies tenant) : ℤ) < settings.maxInflight) :
    Admitted (l.insertReservation tenant requestKey fingerprint period estimate created updated) := by
  have hcounter : ∀ (column : Account → ℤ) t m,
      (l.insertReservation tenant requestKey fingerprint period estimate created updated).counter
        column t m =
        l.counter column t m +
          if (t, m) = (tenant, period) then column (a.hold estimate) - column a else 0 :=
    fun column t m => counter_setAccount (Account.hold_key estimate) ha
  refine ⟨fun r hr => ?_, fun t m ht => ?_, fun t m s hs => ?_, fun t s hs => ?_⟩
  · rcases List.mem_append.1 hr with hr | hr
    · exact h.configured r hr
    · obtain rfl := List.mem_singleton.1 hr
      exact Option.isSome_iff_exists.2 ⟨settings, hsettings⟩
  · have hnone := h.unopened t m ht
    refine (account_setAccount (Account.hold_key estimate)).trans ?_
    simp [hnone]
  · have hold := h.within t m s hs
    rw [hcounter, hcounter]
    by_cases hk : (t, m) = (tenant, period)
    · obtain ⟨rfl, rfl⟩ := Prod.mk.inj hk
      obtain rfl : settings = s := Option.some.inj (hsettings.symm.trans hs)
      have hcol : ∀ column : Account → ℤ, l.counter column t m = column a := by
        intro column
        simp [Ledger.counter, ha]
      simp only [hcol, Account.hold, if_true]
      omega
    · simpa [hk] using hold
  · have hold := h.slots t s hs
    change ((l.reservations ++ [_]).countP (occupies t) : ℤ) ≤ s.maxInflight
    rw [List.countP_append]
    by_cases hk : tenant = t
    · subst hk
      obtain rfl : settings = s := Option.some.inj (hsettings.symm.trans hs)
      simp only [occupies, List.countP_singleton] at hslots ⊢
      simp
      omega
    · simpa [occupies, hk] using hold

/-- `_settle` at no more than the reserved amount gives money and slots back. -/
theorem Admitted.settleRow (h : Admitted l) (hinv : Inv l) {row : Reservation} {actual : ℤ} {status : Status}
    {updated : Time} (hrow : row ∈ l.reservations) (hstatus : status.held = false)
    (hactual : actual ≤ row.amountMicro) : Admitted (l.settleRow row actual status updated) := by
  obtain ⟨a, ha⟩ := Option.isSome_iff_exists.1 (hinv.opened row hrow)
  have hcounter : ∀ (column : Account → ℤ) t m,
      (l.settleRow row actual status updated).counter column t m = l.counter column t m +
        if (t, m) = (row.tenant, row.period) then
          column (a.retire row.amountMicro actual) - column a else 0 :=
    fun column t m => counter_setAccount (Account.retire_key row.amountMicro actual) ha
  have haccounts : Admitted
      (l.setAccount row.tenant row.period (Account.retire row.amountMicro actual)) := by
    refine ⟨h.configured, fun t m ht => ?_, fun t m s hs => ?_, h.slots⟩
    · have hnone := h.unopened t m ht
      rw [account_setAccount (Account.retire_key row.amountMicro actual)]
      simp [hnone]
    · have hold := h.within t m s hs
      refine (add_le_add (hcounter Account.spentMicro t m).le
        (hcounter Account.reservedMicro t m).le).trans ?_
      split
      · simp only [Account.retire]
        omega
      · simpa using hold
  refine haccounts.update (fun _ => rfl) fun tenant r _ _ ho => ?_
  cases status <;> simp [occupies, Reservation.retire, Status.held] at ho hstatus

/-- The first settings of a tenant: it has no rows and no accounts yet. -/
theorem Admitted.configure (h : Admitted l) {currency : String} {limit inflight : ℤ} (hlimit : 1 ≤ limit)
    (hinflight : 1 ≤ inflight) (hnew : l.settingsOf tenant = none) :
    Admitted { l with settings := l.settings ++ [⟨tenant, currency, limit, inflight, 1⟩] } := by
  set l' : Ledger := { l with settings := l.settings ++ [⟨tenant, currency, limit, inflight, 1⟩] }
    with hl'
  have hsettings : ∀ t, l'.settingsOf t = (l.settingsOf t).or
      (if tenant = t then some ⟨tenant, currency, limit, inflight, 1⟩ else none) :=
    fun t => get_append _
  have hcases : ∀ t s, l'.settingsOf t = some s → l.settingsOf t = some s ∨
      t = tenant ∧ s = ⟨tenant, currency, limit, inflight, 1⟩ := by
    intro t s hs
    rw [hsettings, Option.or_eq_some_iff] at hs
    rcases hs with hs | ⟨-, hs⟩
    · exact .inl hs
    · split at hs
      · rename_i ht
        exact .inr ⟨ht.symm, (Option.some.inj hs).symm⟩
      · cases hs
  refine ⟨fun r hr => ?_, fun t m ht => ?_, fun t m s hs => ?_, fun t s hs => ?_⟩
  · rw [hsettings, Option.isSome_or, h.configured r hr, Bool.true_or]
  · rw [hsettings, Option.or_eq_none_iff] at ht
    exact h.unopened t m ht.1
  · rcases hcases t s hs with hs | ⟨rfl, rfl⟩
    · exact h.within t m s hs
    · have hnone : l'.account t m = none := h.unopened t m hnew
      simp only [Ledger.counter, hnone, Option.map_none, Option.getD_none]
      omega
  · rcases hcases t s hs with hs | ⟨rfl, rfl⟩
    · exact h.slots t s hs
    · have hzero : l.reservations.countP (occupies t) = 0 := by
        refine List.countP_eq_zero.2 fun r hr ho => ?_
        have ht : r.tenant = t := by
          simp only [occupies, Bool.and_eq_true, decide_eq_true_eq] at ho
          exact ho.1
        simpa [ht, hnew] using h.configured r hr
      change (l.reservations.countP (occupies t) : ℤ) ≤ inflight
      omega

theorem Fixed.actual_le {op : Op} (h : Fixed l op) (hinv : Inv l) {row : Reservation}
    (hrow : row ∈ l.reservations) (htarget : op.target = some row.key) : op.actual ≤ row.amountMicro := by
  cases op with
  | settle tenant reservation actual updated => exact h row hrow (Option.some.inj htarget).symm
  | reconcile authority tenant reservation actor actual evidence updated =>
    exact h row hrow (Option.some.inj htarget).symm
  | cancel => exact hinv.amount_nonneg row hrow
  | release => exact hinv.amount_nonneg row hrow
  | configure => cases htarget
  | reserve => cases htarget
  | dispatch => cases htarget
  | uncertain => cases htarget

/-- Every call under fixed settings whose cutoffs agree keeps admission. -/
theorem Admitted.step {lib : Library} {l' : Ledger} {op : Op} (h : Admitted l) (hinv : Inv l)
    (hfixed : Fixed l op) (hagree : SlotsAgree l op) (hs : Step lib l op l') : Admitted l' := by
  cases hs.effect with
  | same => exact h
  | configured hlimit hinflight hnew => exact h.configure hlimit hinflight hnew
  | reconfigured hold =>
    have hnone : l.settingsOf _ = none := hfixed
    rw [hold] at hnone
    cases hnone
  | @reserved _ tenant _ _ _ _ _ now settings account hsettings _ hslots haccount hlimit =>
    have hopened : Admitted
        ((l.expireSlots tenant now).openAccount tenant (lib.period now.period)) :=
      (h.expireSlots tenant now).openAccount (Option.isSome_iff_exists.2 ⟨settings, hsettings⟩)
    have hsettings' : ((l.expireSlots tenant now).openAccount tenant
        (lib.period now.period)).settingsOf tenant = some settings := by
      simp only [Ledger.settingsOf, openAccount_settings]
      exact hsettings
    refine hopened.insertReservation hsettings' haccount hlimit ?_
    rw [openAccount_reservations]
    exact (occupied_le_slots hagree).trans_lt hslots
  | @dispatched _ tenant now row hrow htenant hstatus =>
    -- The row is still reserved, so the expiry before the dispatch left it alone.
    have hkept : row ∈ (l.expireSlots tenant now).reservations :=
      mem_update_of_not hrow (by simp [Ledger.outlived, hstatus])
    refine (h.expireSlots _ now).update (fun _ => rfl) fun t r hr hk ho => ?_
    obtain rfl : r = row :=
      (hinv.expireSlots _ now).keyed.eq_of_key hr hkept (of_decide_eq_true hk)
    simp only [occupies, Bool.and_eq_true, decide_eq_true_eq] at ho
    simp [occupies, ho.1, hstatus]
  | @uncertain row _ hrow hstatus =>
    refine h.update (fun _ => rfl) fun tenant r hr hk ho => ?_
    obtain rfl : r = row := hinv.keyed.eq_of_key hr hrow (of_decide_eq_true hk)
    simp only [occupies, Bool.and_eq_true, decide_eq_true_eq] at ho
    simp [occupies, ho.1, hstatus]
  | @retired _ row _ _ hrow hheld hstatus htarget hactual =>
    exact h.settleRow hinv hrow hstatus (hfixed.actual_le hinv hrow htarget)

/-- **Admission is kept where the two cutoffs agree.** Under fixed settings, with no settlement above
its estimate, and in every run where no row outlives the slot lease between the two clock readings
of a reservation: the spent and reserved money of every period stays within the limit, and at any
reading of the clock the reserved calls and the young dispatched or uncertain ones stay within the
in-flight bound. -/
theorem admission_holds (lib : Library) {τs : List (Transition Ledger Op)} {l : Ledger}
    (h : Run (guarded (fun l op => Fixed l op ∧ SlotsAgree l op) (Step lib)) {} τs l)
    {tenant : String} {settings : Settings} (hsettings : l.settingsOf tenant = some settings) :
    (∀ period,
      l.counter Account.spentMicro tenant period + l.counter Account.reservedMicro tenant period ≤
        settings.limitMicro) ∧
      ∀ now, l.slots tenant now ≤ settings.maxInflight := by
  have hinv : Inv l ∧ Admitted l := by
    refine h.invariant (I := fun l => Inv l ∧ Admitted l) ⟨inv_empty, admitted_empty⟩ ?_
    rintro l op l' ⟨hinv, hadmitted⟩ ⟨hs, hfixed, hagree⟩
    exact ⟨hinv.step hs, hadmitted.step hinv hfixed hagree hs⟩
  refine ⟨fun period => hinv.2.within tenant period settings hsettings, fun now => ?_⟩
  exact (slots_le_occupied l tenant now).trans (hinv.2.slots tenant settings hsettings)

instance (l : Ledger) : (op : Op) → Decidable (Fixed l op)
  | .configure _ tenant _ _ _ _ => inferInstanceAs (Decidable (l.settingsOf tenant = none))
  | .settle tenant reservation actualMicro _ | .reconcile _ tenant reservation _ actualMicro _ _ =>
    inferInstanceAs (Decidable (∀ r ∈ l.reservations, r.key = (tenant, reservation) →
      actualMicro ≤ r.amountMicro))
  | .reserve .. | .dispatch .. | .uncertain .. | .cancel .. | .release .. => .isTrue trivial

instance (l : Ledger) : (op : Op) → Decidable (SlotsAgree l op)
  | .reserve _ tenant _ _ _ _ now =>
    inferInstanceAs (Decidable (∀ r ∈ l.reservations, r.tenant = tenant →
      r.status = .dispatching ∨ r.status = .uncertain →
      ¬ (now.expiry - seconds uncertainSlotSeconds < r.updated ∧
        r.updated ≤ now.slots - seconds uncertainSlotSeconds)))
  | .configure .. | .settle .. | .reconcile .. | .dispatch .. | .uncertain .. | .cancel ..
  | .release .. => .isTrue trivial

theorem admission_holds_sample :
    let l := sampleCalls.foldl (Ledger.after sampleLibrary) {}
    l.counter Account.spentMicro "acme" "1970-01" + l.counter Account.reservedMicro "acme" "1970-01"
        ≤ 1000 ∧ l.slots "acme" (seconds 2) ≤ 1 := by
  intro l
  have hrun : Run (guarded (fun l op => Fixed l op ∧ SlotsAgree l op) (Step sampleLibrary)) {} _ l :=
    Run.nil.guardedCalls sampleCalls (by decide +kernel)
  have hsettings : l.settingsOf "acme" = some ⟨"acme", "USD", 1000, 1, 1⟩ := by decide +kernel
  obtain ⟨hmoney, hslots⟩ := admission_holds sampleLibrary hrun hsettings
  exact ⟨hmoney "1970-01", hslots (seconds 2)⟩

/-- The first call's row passes the slot lease between the two clock readings of the second
reservation: it is neither moved nor counted, and takes its slot back when it turns uncertain. -/
def crossedCalls : List Op :=
  [.configure (.ok ()) "acme" "owner" "USD" 1000 1,
    .reserve (.ok ()) "acme" "k1" sampleFingerprint 400 "USD" (.at 0),
    .dispatch (.ok ()) "acme" 0 (.at 0),
    .reserve (.ok ()) "acme" "k2" sampleFingerprint 400 "USD"
      { Readings.at (seconds 600) with expiry := seconds 600 - 1 },
    .uncertain "acme" 0 (seconds 601)]

/-- With one slot in the settings, two calls hold one. -/
theorem admission_fails_crossed :
    ∃ τs l settings,
      Run (guarded Fixed (Step sampleLibrary)) {} τs l ∧ l.settingsOf "acme" = some settings ∧
        settings.maxInflight < l.slots "acme" (seconds 601) := by
  refine ⟨_, crossedCalls.foldl (Ledger.after sampleLibrary) {}, ⟨"acme", "USD", 1000, 1, 1⟩,
    Run.nil.guardedCalls crossedCalls ?_, ?_, ?_⟩
  all_goals decide +kernel

end AgentPlatform.Budget
