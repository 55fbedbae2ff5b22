import AgentPlatform.Budget.Ledger

/-!
# What one call can do to the ledger

`exec_effect` says it once, with the guards each branch checked; the invariants of the ledger are
derived from `Effect` and do not unfold the operations.
-/

namespace AgentPlatform.Budget

open Outcome

/-- The reservation a call settles. -/
def Op.target : Op → Option (String × Uuid)
  | .cancel tenant reservation _ | .release tenant reservation _ _
  | .settle tenant reservation _ _ | .reconcile _ tenant reservation _ _ _ _ =>
    some (tenant, reservation)
  | _ => none

/-- The amount a call settles its reservation at. -/
def Op.actual : Op → ℤ
  | .settle _ _ actualMicro _ | .reconcile _ _ _ _ actualMicro _ _ => actualMicro
  | _ => 0

/-- The committed effects of a call. -/
inductive Effect (lib : Library) (l : Ledger) : Op → Ledger → Prop
  | same (op : Op) : Effect lib l op l
  | configured {authority : Except Err Unit} {tenant actor currency : String} {limit inflight : ℤ}
      (hlimit : 1 ≤ limit) (hinflight : 1 ≤ inflight) (hnew : l.settingsOf tenant = none) :
      Effect lib l (.configure authority tenant actor currency limit inflight)
        { l with settings := l.settings ++ [⟨tenant, currency, limit, inflight, 1⟩] }
  | reconfigured {authority : Except Err Unit} {tenant actor currency : String}
      {limit inflight : ℤ} {old : Settings} (hold : l.settingsOf tenant = some old) :
      Effect lib l (.configure authority tenant actor currency limit inflight)
        { l with
          settings := Table.update (fun s => s.tenant = tenant)
            (fun s => { s with limitMicro := limit, maxInflight := inflight,
                               generation := old.generation + 1 }) l.settings }
  | reserved {active : Except Err Unit} {tenant requestKey fingerprint currency full : String}
      {estimate : ℤ} {now : Readings} {settings : Settings} {account : Account}
      (hsettings : l.settingsOf tenant = some settings) (hestimate : 0 ≤ estimate)
      (hslots : (l.expireSlots tenant now).slots tenant now.slots < settings.maxInflight)
      (haccount : ((l.expireSlots tenant now).openAccount tenant (lib.period now.period)).account
        tenant (lib.period now.period) = some account)
      (hlimit : account.spentMicro + account.reservedMicro + estimate ≤ settings.limitMicro) :
      Effect lib l (.reserve active tenant requestKey fingerprint estimate currency now)
        (((l.expireSlots tenant now).openAccount tenant (lib.period now.period)).insertReservation
          tenant
          requestKey full (lib.period now.period) estimate now.created now.updated)
  | dispatched {active : Except Err Unit} {tenant : String} {now : Readings} {row : Reservation}
      (hrow : row ∈ l.reservations) (htenant : row.tenant = tenant)
      (hstatus : row.status = .reserved) :
      Effect lib l (.dispatch active tenant row.id now)
        ((l.expireSlots tenant now).setReservation row.tenant row.id fun r =>
          { r with status := .dispatching, updated := now.updated })
  | uncertain {row : Reservation} {updated : Time} (hrow : row ∈ l.reservations)
      (hstatus : row.status = .dispatching) :
      Effect lib l (.uncertain row.tenant row.id updated)
        (l.setReservation row.tenant row.id fun r =>
          { r with status := .uncertain, updated := updated })
  | retired (op : Op) {row : Reservation} {status : Status} {updated : Time}
      (hrow : row ∈ l.reservations) (hheld : row.status.held = true)
      (hstatus : status.held = false) (htarget : op.target = some row.key)
      (hactual : 0 ≤ op.actual) :
      Effect lib l op (l.settleRow row op.actual status updated)

theorem amount_eq_ok {value : ℤ} {zero : Bool} {v : ℤ} (h : amount value zero = .ok v) :
    (if zero then 0 else 1) ≤ value := by
  simp only [amount, bind_eq_ok, exists_unit, ensure_eq_ok] at h
  exact h.1.1

theorem row_eq_ok {l : Ledger} {tenant : String} {id : Uuid} {row : Reservation}
    (h : l.row tenant id = .ok row) :
    row ∈ l.reservations ∧ row.tenant = tenant ∧ row.id = id := by
  have hg := need_eq_ok.1 h
  have hk := Table.key_of_get hg
  simp only [Reservation.key, Prod.mk.injEq] at hk
  exact ⟨Table.mem_of_get hg, hk⟩

section Cases

variable {lib : Library} {l l' : Ledger} {tenant : String} {id : Uuid} {out : Option Uuid}

theorem configure_effect {authority : Except Err Unit} {actor currency : String}
    {limit inflight : ℤ}
    (h : configure l authority tenant actor currency limit inflight = .ok (l', out)) :
    Effect lib l (.configure authority tenant actor currency limit inflight) l' := by
  simp only [configure, bind_eq_ok, exists_unit, ensure_eq_ok] at h
  obtain ⟨_, -, _, -, _, hlimit, -, hinflight, -, h⟩ := h
  cases hs : l.settingsOf tenant with
  | none =>
    simp only [hs, pure_eq_ok, Prod.mk.injEq] at h
    obtain ⟨rfl, -⟩ := h
    exact .configured (by simpa using amount_eq_ok hlimit) hinflight.1 hs
  | some old =>
    simp only [hs, bind_eq_ok, exists_unit, ensure_eq_ok, pure_eq_ok, Prod.mk.injEq] at h
    obtain ⟨-, rfl, -⟩ := h
    exact .reconfigured hs

theorem reserve_effect {active : Except Err Unit} {requestKey fingerprint currency : String}
    {estimate : ℤ} {now : Readings}
    (h : reserve lib l active tenant requestKey fingerprint estimate currency now =
      .ok (l', out)) :
    Effect lib l (.reserve active tenant requestKey fingerprint estimate currency now) l' := by
  simp only [reserve, bind_eq_ok, exists_unit, ensure_eq_ok, need_eq_ok] at h
  obtain ⟨_, -, _, -, _, hestimate, -, -, settings, hsettings, h⟩ := h
  have hsettings := (Option.filter_eq_some_iff.1 hsettings).1
  split at h
  · simp only [bind_eq_ok, exists_unit, ensure_eq_ok, pure_eq_ok, Prod.mk.injEq] at h
    obtain ⟨-, rfl, -⟩ := h
    exact .same _
  · simp only [bind_eq_ok, exists_unit, ensure_eq_ok, need_eq_ok, pure_eq_ok, Prod.mk.injEq] at h
    obtain ⟨hslots, account, haccount, hlimit, rfl, -⟩ := h
    exact .reserved hsettings (by simpa using amount_eq_ok hestimate) hslots haccount hlimit

theorem dispatch_effect {active : Except Err Unit} {now : Readings}
    (h : dispatch lib l active tenant id now = .ok (l', out)) :
    Effect lib l (.dispatch active tenant id now) l' := by
  simp only [dispatch, bind_eq_ok, exists_unit, ensure_eq_ok, need_eq_ok, pure_eq_ok,
    Prod.mk.injEq] at h
  obtain ⟨-, row, hrow, hstatus, -, _, -, _, -, -, rfl, -⟩ := h
  obtain ⟨hmem, rfl, rfl⟩ := row_eq_ok hrow
  exact .dispatched hmem rfl hstatus

variable {updated : Time}

theorem uncertain_effect (h : uncertain l tenant id updated = .ok (l', out)) :
    Effect lib l (.uncertain tenant id updated) l' := by
  simp only [uncertain, bind_eq_ok] at h
  obtain ⟨row, hrow, h⟩ := h
  obtain ⟨hmem, rfl, rfl⟩ := row_eq_ok hrow
  split at h
  · simp only [pure_eq_ok, Prod.mk.injEq] at h
    obtain ⟨rfl, -⟩ := h
    exact .same _
  · simp only [bind_eq_ok, exists_unit, ensure_eq_ok, pure_eq_ok, Prod.mk.injEq] at h
    obtain ⟨hstatus, rfl, -⟩ := h
    exact .uncertain hmem hstatus

theorem cancel_effect (h : cancel l tenant id updated = .ok (l', out)) :
    Effect lib l (.cancel tenant id updated) l' := by
  simp only [cancel, bind_eq_ok] at h
  obtain ⟨row, hrow, h⟩ := h
  obtain ⟨hmem, rfl, rfl⟩ := row_eq_ok hrow
  split at h
  · simp only [pure_eq_ok, Prod.mk.injEq] at h
    obtain ⟨rfl, -⟩ := h
    exact .same _
  · simp only [bind_eq_ok, exists_unit, ensure_eq_ok, pure_eq_ok, Prod.mk.injEq] at h
    obtain ⟨hstatus, rfl, -⟩ := h
    exact .retired (.cancel row.tenant row.id updated) hmem (by rw [hstatus]; rfl) rfl rfl
      (Int.le_refl 0)

theorem release_effect {reason : String} (h : release l tenant id reason updated = .ok (l', out)) :
    Effect lib l (.release tenant id reason updated) l' := by
  simp only [release, bind_eq_ok, exists_unit, ensure_eq_ok] at h
  obtain ⟨-, row, hrow, h⟩ := h
  obtain ⟨hmem, rfl, rfl⟩ := row_eq_ok hrow
  split at h
  · simp only [pure_eq_ok, Prod.mk.injEq] at h
    obtain ⟨rfl, -⟩ := h
    exact .same _
  · simp only [bind_eq_ok, exists_unit, ensure_eq_ok, pure_eq_ok, Prod.mk.injEq] at h
    obtain ⟨hstatus, rfl, -⟩ := h
    exact .retired (.release row.tenant row.id reason updated) hmem (by rw [hstatus]; rfl)
      rfl rfl (Int.le_refl 0)

theorem settle_effect {actual : ℤ} (h : settle l tenant id actual updated = .ok (l', out)) :
    Effect lib l (.settle tenant id actual updated) l' := by
  simp only [settle, bind_eq_ok] at h
  obtain ⟨_, hactual, row, hrow, h⟩ := h
  obtain ⟨hmem, rfl, rfl⟩ := row_eq_ok hrow
  split at h
  · simp only [bind_eq_ok, exists_unit, ensure_eq_ok, pure_eq_ok, Prod.mk.injEq] at h
    obtain ⟨-, rfl, -⟩ := h
    exact .same _
  · simp only [bind_eq_ok, exists_unit, ensure_eq_ok, pure_eq_ok, Prod.mk.injEq] at h
    obtain ⟨hstatus, rfl, -⟩ := h
    exact .retired (.settle row.tenant row.id actual updated) hmem (by rw [hstatus]; rfl)
      rfl rfl (by simpa [Op.actual] using amount_eq_ok hactual)

theorem reconcile_effect {authority : Except Err Unit} {actor evidence : String} {actual : ℤ}
    (h : reconcile l authority tenant id actor actual evidence updated = .ok (l', out)) :
    Effect lib l (.reconcile authority tenant id actor actual evidence updated) l' := by
  simp only [reconcile, bind_eq_ok, exists_unit, ensure_eq_ok, pure_eq_ok, Prod.mk.injEq] at h
  obtain ⟨_, -, _, -, _, hactual, -, row, hrow, hheld, rfl, -⟩ := h
  obtain ⟨hmem, rfl, rfl⟩ := row_eq_ok hrow
  exact .retired (.reconcile authority row.tenant row.id actor actual evidence updated)
    hmem hheld rfl rfl (by simpa [Op.actual] using amount_eq_ok hactual)

end Cases

theorem exec_effect {lib : Library} {l l' : Ledger} {op : Op} {out : Option Uuid}
    (h : exec lib l op = .ok (l', out)) : Effect lib l op l' := by
  cases op with
  | configure => exact configure_effect h
  | reserve => exact reserve_effect h
  | dispatch => exact dispatch_effect h
  | uncertain => exact uncertain_effect h
  | cancel => exact cancel_effect h
  | release => exact release_effect h
  | settle => exact settle_effect h
  | reconcile => exact reconcile_effect h

theorem Step.effect {lib : Library} {l l' : Ledger} {op : Op} (h : Step lib l op l') :
    Effect lib l op l' := by
  rw [Step, Ledger.after] at h
  cases hx : exec lib l op with
  | ok lo =>
    rw [h, hx, commit_ok]
    exact exec_effect hx
  | error e =>
    rw [h, hx, commit_error]
    exact .same op

end AgentPlatform.Budget
