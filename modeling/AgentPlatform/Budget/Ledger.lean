import AgentPlatform.Json
import AgentPlatform.Lib.Table

/-!
# The usage budget: reservations, dispatch and settlement

`usage_budget.py`. A tenant's monthly account holds three counters; a reservation row remembers the
amount held for one provider call and where the call stands:

* `reserved → dispatching → settled | released | uncertain`, `reserved → cancelled`;
* `dispatching | uncertain → unreconciled` once the row is older than `UNCERTAIN_SLOT_SECONDS`;
* any held row `→ reconciled` by the owner.

Every operation is one transaction. The engine's clock is read several times inside one transaction
(`_expire_slots`, `_slots`, `_period` and each row's `updated` read it anew), so an operation takes
its readings one by one. `require_active` and `require_authority` belong to the engine; an operation
takes their answers.
-/

namespace AgentPlatform.Budget

open Outcome

/-- The status column of `p_budget_reservations`. -/
inductive Status
  | reserved
  | dispatching
  | uncertain
  | unreconciled
  | settled
  | released
  | cancelled
  | reconciled
  deriving DecidableEq, Repr

/-- `HELD`: money still held, whether or not it holds a slot. -/
def Status.held : Status → Bool
  | reserved | dispatching | uncertain | unreconciled => true
  | settled | released | cancelled | reconciled => false

/-- A row of `p_budget_settings`. -/
structure Settings where
  tenant : String
  currency : String
  limitMicro : ℤ
  maxInflight : ℤ
  generation : ℕ
  deriving DecidableEq, Repr

/-- A row of `p_budget_accounts`. -/
structure Account where
  tenant : String
  period : String
  spentMicro : ℤ
  reservedMicro : ℤ
  inflight : ℤ
  deriving DecidableEq, Repr

/-- A row of `p_budget_reservations`. -/
structure Reservation where
  tenant : String
  id : Uuid
  requestKey : String
  fingerprint : String
  period : String
  amountMicro : ℤ
  actualMicro : Option ℤ
  status : Status
  created : Time
  updated : Time
  deriving DecidableEq, Repr

def Settings.key (s : Settings) : String := s.tenant

def Account.key (a : Account) : String × String := (a.tenant, a.period)

def Reservation.key (r : Reservation) : String × Uuid := (r.tenant, r.id)

/-- The account update of `reserve`. -/
def Account.hold (estimateMicro : ℤ) (a : Account) : Account :=
  { a with reservedMicro := a.reservedMicro + estimateMicro, inflight := a.inflight + 1 }

/-- The account update of `_settle`. -/
def Account.retire (amountMicro actual : ℤ) (a : Account) : Account :=
  { a with
    reservedMicro := a.reservedMicro - amountMicro
    spentMicro := a.spentMicro + actual
    inflight := a.inflight - 1 }

/-- The row update of `_settle`. -/
def Reservation.retire (actual : ℤ) (status : Status) (updated : Time) (r : Reservation) :
    Reservation :=
  { r with status := status, actualMicro := some actual, updated := updated }

/-- The budget tables, and how many identifiers have been drawn. -/
structure Ledger where
  settings : List Settings := []
  accounts : List Account := []
  reservations : List Reservation := []
  drawn : Uuid := 0
  deriving DecidableEq, Repr

/-- What the ledger takes from the standard library: `strftime('%Y-%m')` of a reading in UTC, and the
hexadecimal SHA-256 of a text. -/
structure Library where
  period : Time → String
  sha256 : String → String

def maxAmount : ℤ := 10 ^ 15

def uncertainSlotSeconds : ℤ := 600

/-- `amount(value, zero=…)`. -/
def amount (value : ℤ) (zero : Bool := true) : Except Err ℤ := do
  ensure ((if zero then 0 else 1) ≤ value ∧ value ≤ maxAmount)
    (.valueError "Bounded integer microunits required")
  pure value

/-- `bounded(value, maximum)`. -/
def bounded (value : String) (maximum : ℕ := 256) : Except Err String := do
  ensure (isBlank value = false ∧ value.length ≤ maximum ∧ isStripped value = true ∧
      value.toList.all (fun c => !(decide (c.toNat < 32) || c.toNat == 127)) = true)
    (.valueError "Bounded identifier required")
  pure value

/-- The clock readings of one transaction, in the order they are taken: the cutoff of
`_expire_slots`, the stamp of each row it moves, the cutoff of `_slots`, the period, and the stamps
of the row the operation writes. -/
structure Readings where
  expiry : Time
  moved : Uuid → Time
  slots : Time
  period : Time
  created : Time
  updated : Time

/-- All readings alike. -/
def Readings.at (now : Time) : Readings := ⟨now, fun _ => now, now, now, now, now⟩

namespace Ledger

def settingsOf (l : Ledger) (tenant : String) : Option Settings :=
  Table.get Settings.key tenant l.settings

def account (l : Ledger) (tenant period : String) : Option Account :=
  Table.get Account.key (tenant, period) l.accounts

/-- `_row`. -/
def row (l : Ledger) (tenant : String) (reservation : Uuid) : Except Err Reservation :=
  need (Table.get Reservation.key (tenant, reservation) l.reservations)
    (.notFound "Budget reservation not found")

/-- The rows `_SLOTS` counts: undispatched reservations, and dispatched or uncertain calls younger
than the slot lease at the reading `now`. -/
def holdsSlot (tenant : String) (now : Time) (r : Reservation) : Bool :=
  decide (r.tenant = tenant) && (decide (r.status = .reserved) ||
    ((decide (r.status = .dispatching) || decide (r.status = .uncertain)) &&
      decide (now - seconds uncertainSlotSeconds < r.updated)))

/-- `_slots`. -/
def slots (l : Ledger) (tenant : String) (now : Time) : ℤ :=
  l.reservations.countP (holdsSlot tenant now)

/-- The rows `_expire_slots` moves. -/
def outlived (tenant : String) (now : Time) (r : Reservation) : Bool :=
  decide (r.tenant = tenant) &&
    (decide (r.status = .dispatching) || decide (r.status = .uncertain)) &&
    decide (r.updated ≤ now - seconds uncertainSlotSeconds)

/-- `_expire_slots`. -/
def expireSlots (l : Ledger) (tenant : String) (now : Readings) : Ledger :=
  { l with
    reservations := Table.update (outlived tenant now.expiry)
      (fun r => { r with status := .unreconciled, updated := now.moved r.id }) l.reservations }

/-- `UPDATE p_budget_reservations … WHERE tenant=? AND id=?`. -/
def setReservation (l : Ledger) (tenant : String) (id : Uuid) (f : Reservation → Reservation) :
    Ledger :=
  { l with reservations := Table.update (fun r => r.key = (tenant, id)) f l.reservations }

/-- `UPDATE p_budget_accounts … WHERE tenant=? AND period=?`. -/
def setAccount (l : Ledger) (tenant period : String) (f : Account → Account) : Ledger :=
  { l with accounts := Table.update (fun a => a.key = (tenant, period)) f l.accounts }

/-- `INSERT OR IGNORE INTO p_budget_accounts(tenant,period)`. -/
def openAccount (l : Ledger) (tenant period : String) : Ledger :=
  match l.account tenant period with
  | some _ => l
  | none => { l with accounts := l.accounts ++ [⟨tenant, period, 0, 0, 0⟩] }

/-- The writes of `reserve`: the amount moves to the account's held money, and the row is added. -/
def insertReservation (l : Ledger) (tenant requestKey fingerprint period : String) (estimateMicro : ℤ)
    (created updated : Time) : Ledger :=
  let l := l.setAccount tenant period (Account.hold estimateMicro)
  { l with
    reservations := l.reservations ++ [⟨tenant, l.drawn, requestKey, fingerprint, period,
      estimateMicro, none, .reserved, created, updated⟩]
    drawn := l.drawn + 1 }

/-- `_settle`. -/
def settleRow (l : Ledger) (row : Reservation) (actual : ℤ) (status : Status) (updated : Time) :
    Ledger :=
  (l.setAccount row.tenant row.period (Account.retire row.amountMicro actual)).setReservation
    row.tenant row.id (Reservation.retire actual status updated)

end Ledger

open Ledger

/-- `configure`. `authority` is the answer of `require_authority(…, ('owner',))`. -/
def configure (l : Ledger) (authority : Except Err Unit) (tenant actor currency : String)
    (limitMicro maxInflight : ℤ) : Except Err (Ledger × Option Uuid) := do
  let _ ← bounded tenant
  let _ ← bounded actor
  let _ ← amount limitMicro false
  ensure (isRunOf (fun c => 'A' ≤ c && c ≤ 'Z') 3 3 currency = true)
    (.valueError "Three-letter currency required")
  ensure (1 ≤ maxInflight ∧ maxInflight ≤ 100) (.valueError "Parallel call limit must be 1..100")
  authority
  match l.settingsOf tenant with
  | none =>
    pure ({ l with settings := l.settings ++ [⟨tenant, currency, limitMicro, maxInflight, 1⟩] },
      none)
  | some old =>
    ensure (old.currency = currency)
      (.conflict "Currency cannot change while historical ledger exists")
    pure ({ l with
      settings := Table.update (fun s => s.tenant = tenant)
        (fun s => { s with limitMicro := limitMicro, maxInflight := maxInflight,
                           generation := old.generation + 1 }) l.settings }, none)

/-- `reserve`. `active` is the answer of `require_active`. -/
def reserve (lib : Library) (l : Ledger) (active : Except Err Unit)
    (tenant requestKey fingerprint : String) (estimateMicro : ℤ) (currency : String)
    (now : Readings) : Except Err (Ledger × Option Uuid) := do
  let _ ← bounded tenant
  let _ ← bounded requestKey
  let _ ← amount estimateMicro
  ensure (isRunOf (fun c => ('a' ≤ c && c ≤ 'f') || ('0' ≤ c && c ≤ '9')) 64 64 fingerprint = true)
    (.valueError "Request fingerprint required")
  active
  let settings ← need ((l.settingsOf tenant).filter fun s => s.currency = currency)
    (.forbidden "Configured budget with matching currency required")
  let full := digest lib.sha256 (.obj [("request", .str fingerprint), ("estimate", .int estimateMicro),
    ("currency", .str currency)])
  match l.reservations.find? fun r => r.tenant = tenant ∧ r.requestKey = requestKey with
  | some old =>
    ensure (old.fingerprint = full) (.conflict "Budget key reused with different request")
    pure (l, some old.id)
  | none =>
    let l := l.expireSlots tenant now
    ensure (l.slots tenant now.slots < settings.maxInflight)
      (.rateLimited "Budget parallel call limit reached")
    let period := lib.period now.period
    let l := l.openAccount tenant period
    let account ← need (l.account tenant period) (.rateLimited "Budget exhausted")
    ensure (account.spentMicro + account.reservedMicro + estimateMicro ≤ settings.limitMicro)
      (.rateLimited "Budget exhausted")
    pure (l.insertReservation tenant requestKey full period estimateMicro now.created now.updated,
      some l.drawn)

/-- `dispatch`. -/
def dispatch (lib : Library) (l : Ledger) (active : Except Err Unit) (tenant : String)
    (reservation : Uuid) (now : Readings) : Except Err (Ledger × Option Uuid) := do
  active
  let row ← l.row tenant reservation
  ensure (row.status = .reserved) (.conflict "Budget call already dispatched or retired")
  ensure (row.period = lib.period now.period)
    (.conflict "Undispatched reservation expired at period boundary; cancel and reserve again")
  let settings := l.settingsOf tenant
  let account := l.account tenant row.period
  let l := l.expireSlots tenant now
  let count := l.slots tenant now.slots
  let settings ← need settings (.rateLimited "Budget policy changed before dispatch")
  let account ← need account (.typeError "'NoneType' object is not subscriptable")
  ensure (account.spentMicro + account.reservedMicro ≤ settings.limitMicro ∧
      count ≤ settings.maxInflight) (.rateLimited "Budget policy changed before dispatch")
  pure (l.setReservation tenant reservation fun r =>
    { r with status := .dispatching, updated := now.updated }, none)

/-- `uncertain`. -/
def uncertain (l : Ledger) (tenant : String) (reservation : Uuid) (updated : Time) :
    Except Err (Ledger × Option Uuid) := do
  let row ← l.row tenant reservation
  if row.status = .uncertain then pure (l, none)
  else do
    ensure (row.status = .dispatching) (.conflict "Only a dispatched call can be uncertain")
    pure (l.setReservation tenant reservation fun r =>
      { r with status := .uncertain, updated := updated }, none)

/-- `cancel`. -/
def cancel (l : Ledger) (tenant : String) (reservation : Uuid) (updated : Time) :
    Except Err (Ledger × Option Uuid) := do
  let row ← l.row tenant reservation
  if row.status = .cancelled then pure (l, none)
  else do
    ensure (row.status = .reserved) (.conflict "A dispatched charge cannot be cancelled")
    pure (l.settleRow row 0 .cancelled updated, none)

/-- `release`. -/
def release (l : Ledger) (tenant : String) (reservation : Uuid) (reason : String)
    (updated : Time) : Except Err (Ledger × Option Uuid) := do
  ensure (reason = "not_sent" ∨ reason = "rejected")
    (.valueError "Release reason must be not_sent or rejected")
  let row ← l.row tenant reservation
  if row.status = .released then pure (l, none)
  else do
    ensure (row.status = .dispatching) (.conflict "Only a dispatched call can be released")
    pure (l.settleRow row 0 .released updated, none)

/-- `settle`. -/
def settle (l : Ledger) (tenant : String) (reservation : Uuid) (actualMicro : ℤ)
    (updated : Time) : Except Err (Ledger × Option Uuid) := do
  let _ ← amount actualMicro
  let row ← l.row tenant reservation
  if row.status = .settled then do
    ensure (row.actualMicro = some actualMicro) (.conflict "Settlement amount changed")
    pure (l, none)
  else do
    ensure (row.status = .dispatching) (.conflict "Call is not awaiting automatic settlement")
    pure (l.settleRow row actualMicro .settled updated, none)

/-- `reconcile`. -/
def reconcile (l : Ledger) (authority : Except Err Unit) (tenant : String) (reservation : Uuid)
    (actor : String) (actualMicro : ℤ) (evidence : String) (updated : Time) :
    Except Err (Ledger × Option Uuid) := do
  let _ ← bounded actor
  let _ ← bounded evidence 500
  let _ ← amount actualMicro
  authority
  let row ← l.row tenant reservation
  ensure (row.status.held = true) (.conflict "Reservation has already been reconciled")
  pure (l.settleRow row actualMicro .reconciled updated, none)

/-! ### Callers in any interleaving -/

/-- One call of the ledger by anyone. -/
inductive Op
  | configure (authority : Except Err Unit) (tenant actor currency : String)
      (limitMicro maxInflight : ℤ)
  | reserve (active : Except Err Unit) (tenant requestKey fingerprint : String)
      (estimateMicro : ℤ) (currency : String) (now : Readings)
  | dispatch (active : Except Err Unit) (tenant : String) (reservation : Uuid) (now : Readings)
  | uncertain (tenant : String) (reservation : Uuid) (updated : Time)
  | cancel (tenant : String) (reservation : Uuid) (updated : Time)
  | release (tenant : String) (reservation : Uuid) (reason : String) (updated : Time)
  | settle (tenant : String) (reservation : Uuid) (actualMicro : ℤ) (updated : Time)
  | reconcile (authority : Except Err Unit) (tenant : String) (reservation : Uuid)
      (actor : String) (actualMicro : ℤ) (evidence : String) (updated : Time)

/-- The transaction of a call. -/
def exec (lib : Library) (l : Ledger) : Op → Except Err (Ledger × Option Uuid)
  | .configure authority tenant actor currency limitMicro maxInflight =>
    configure l authority tenant actor currency limitMicro maxInflight
  | .reserve active tenant requestKey fingerprint estimateMicro currency now =>
    reserve lib l active tenant requestKey fingerprint estimateMicro currency now
  | .dispatch active tenant reservation now => dispatch lib l active tenant reservation now
  | .uncertain tenant reservation updated => Budget.uncertain l tenant reservation updated
  | .cancel tenant reservation updated => cancel l tenant reservation updated
  | .release tenant reservation reason updated => release l tenant reservation reason updated
  | .settle tenant reservation actualMicro updated => settle l tenant reservation actualMicro updated
  | .reconcile authority tenant reservation actor actualMicro evidence updated =>
    Budget.reconcile l authority tenant reservation actor actualMicro evidence updated

/-- The ledger after a call; a call that raises is rolled back. -/
def Ledger.after (lib : Library) (l : Ledger) (op : Op) : Ledger := commit l (exec lib l op)

/-- One call by any caller. -/
def Step (lib : Library) (l : Ledger) (op : Op) (l' : Ledger) : Prop := l' = l.after lib op

end AgentPlatform.Budget
