import AgentPlatform.Base
import AgentPlatform.Lib.Runs
import AgentPlatform.Lib.Table

/-!
# Deliveries and their leases

`create_delivery`, `claim_delivery` and `update_delivery` of `app/storage.py`. A claim is a
compare-and-swap on the row: it takes a delivery whose lease is free or has run out. An update names no
worker and checks none: whoever calls it writes the status, ends the lease and counts an attempt.

Each operation is one transaction, so workers interleave by transactions. `held` is what the workers
know: the lease end `claim_delivery` gave a worker, until its own update.
-/

namespace AgentPlatform.Deliveries

open Outcome Table Runs

/-- The status column: the values of `DeliveryStatus`, and `claimed`. -/
inductive Status
  | pending
  | sent
  | failed
  | claimed
  deriving DecidableEq, Repr

/-- `DeliveryStatus`. -/
inductive DeliveryStatus
  | pending
  | sent
  | failed
  deriving DecidableEq, Repr

def DeliveryStatus.value : DeliveryStatus → Status
  | pending => .pending
  | sent => .sent
  | failed => .failed

/-- A row of `deliveries`; the times are whole seconds. -/
structure Delivery where
  id : ℕ
  tenant : String
  entityType : String
  entityId : String
  provider : String
  idempotencyKey : String
  status : Status
  externalId : String := ""
  error : String := ""
  attemptCount : ℕ := 0
  claimedBy : String := ""
  leaseUntil : ℤ := 0
  createdAt : ℤ
  updatedAt : ℤ
  deriving DecidableEq, Repr

/-- What an operation names a row by. -/
def Delivery.key (r : Delivery) : String × ℕ := (r.tenant, r.id)

def deliveryLeaseSeconds : ℤ := 60

def maxDeliveryErrorChars : ℕ := 500

structure State where
  rows : List Delivery := []
  /-- `AUTOINCREMENT`: the identifiers given so far. -/
  drawn : ℕ := 0
  /-- The lease end a worker was given for a delivery, until its own update. -/
  held : String × ℕ → String → Option ℤ := fun _ _ => none
  /-- The last reading of a clock. -/
  clock : ℤ := 0

namespace State

def row? (s : State) (key : String × ℕ) : Option Delivery := get Delivery.key key s.rows

/-- A write on the rows that meet a condition. -/
def setRows (s : State) (p : Delivery → Bool) (f : Delivery → Delivery) : State :=
  { s with rows := update p f s.rows }

/-- The row `create_delivery` inserts. -/
def newDelivery (id : ℕ) (tenant entityType entityId provider idempotencyKey : String) (now : ℤ) :
    Delivery where
  id := id
  tenant := tenant
  entityType := entityType
  entityId := entityId
  provider := provider
  idempotencyKey := idempotencyKey
  status := .pending
  createdAt := now
  updatedAt := now

/-- `create_delivery`. -/
def createDelivery (s : State) (tenant entityType entityId provider idempotencyKey : String)
    (now : ℤ) : State × ℕ :=
  match s.rows.find? fun r => r.tenant = tenant ∧ r.idempotencyKey = idempotencyKey with
  | some existing => (s, existing.id)
  | none =>
    let r := newDelivery (s.drawn + 1) tenant entityType entityId provider idempotencyKey now
    ({ s with rows := s.rows ++ [r], drawn := s.drawn + 1 }, r.id)

/-- The row `update_delivery` writes. -/
def updated (status : DeliveryStatus) (externalId error : String) (now : ℤ) (r : Delivery) : Delivery :=
  { r with
    status := status.value, externalId := externalId
    error := String.ofList (error.toList.take maxDeliveryErrorChars)
    attemptCount := r.attemptCount + 1, claimedBy := "", leaseUntil := 0, updatedAt := now }

/-- `update_delivery`, with whether a row was updated. -/
def updateDelivery (s : State) (tenant : String) (id : ℕ) (status : DeliveryStatus)
    (externalId error : String) (now : ℤ) : State × Bool :=
  (s.setRows (fun r => r.key = (tenant, id)) (updated status externalId error now),
    (s.row? (tenant, id)).isSome)

/-- The rows `claim_delivery` takes. -/
def claimable (current : ℤ) (r : Delivery) : Bool :=
  (decide (r.status = .pending) || decide (r.status = .failed) || decide (r.status = .claimed)) &&
    (decide (r.leaseUntil = 0) || decide (r.leaseUntil ≤ current))

/-- The row `claim_delivery` writes. -/
def claimed (worker : String) (current leaseSeconds : ℤ) (r : Delivery) : Delivery :=
  { r with
    status := .claimed, claimedBy := worker
    leaseUntil := current + max 1 leaseSeconds, updatedAt := current }

/-- `claim_delivery`, with whether the row was claimed. -/
def claimDelivery (s : State) (tenant : String) (id : ℕ) (worker : String)
    (current leaseSeconds : ℤ) : Except Err (State × Bool) := do
  ensure (isBlank worker = false) (.valueError "worker_id bo'sh bo'lmasin")
  pure (s.setRows (fun r => decide (r.key = (tenant, id)) && claimable current r)
      (claimed worker current leaseSeconds),
    (s.row? (tenant, id)).any (claimable current))

/-- What the worker knows after its claim returned `True`, and after its update. -/
def hold (s : State) (key : String × ℕ) (worker : String) (lease : Option ℤ) : State :=
  { s with held := fun k w => if k = key ∧ w = worker then lease else s.held k w }

def readClock (s : State) (now : ℤ) : State := { s with clock := now }

end State

/-- One call, with the reading of the clock it goes by; `worker` is who calls `update_delivery`. -/
inductive Label
  | create (tenant entityType entityId provider idempotencyKey : String) (now : ℤ)
  | claim (tenant : String) (id : ℕ) (worker : String) (now leaseSeconds : ℤ)
  | update (worker tenant : String) (id : ℕ) (status : DeliveryStatus) (externalId error : String)
      (now : ℤ)
  deriving DecidableEq

def Label.now : Label → ℤ
  | create _ _ _ _ _ now | claim _ _ _ now _ | update _ _ _ _ _ _ now => now

/-- Whether the call claims a delivery. -/
def State.grants (s : State) (key : String × ℕ) : Label → Bool
  | .claim tenant id worker now leaseSeconds =>
    decide ((tenant, id) = key) &&
      match s.claimDelivery tenant id worker now leaseSeconds with
      | .ok (_, won) => won
      | .error _ => false
  | _ => false

def State.after (s : State) : Label → State
  | .create tenant entityType entityId provider idempotencyKey now =>
    (s.createDelivery tenant entityType entityId provider idempotencyKey now).1.readClock now
  | .claim tenant id worker now leaseSeconds =>
    match s.claimDelivery tenant id worker now leaseSeconds with
    | .ok (t, true) =>
      (t.hold (tenant, id) worker (some (now + max 1 leaseSeconds))).readClock now
    | .ok (t, false) => t.readClock now
    | .error _ => s.readClock now
  | .update worker tenant id status externalId error now =>
    (((s.updateDelivery tenant id status externalId error now).1).hold (tenant, id) worker
      none).readClock now

def Step (s : State) (l : Label) (t : State) : Prop := t = s.after l

/-! ### One step -/

section Steps

variable {s t : State} {l : Label} {key : String × ℕ} {r : Delivery}

/-- What a call does to a row that is there. -/
inductive Change (s : State) (r : Delivery) : Label → Delivery → Prop
  | same (l : Label) : Change s r l r
  | claimed {worker : String} {now leaseSeconds : ℤ} (h : State.claimable now r = true) :
      Change s r (.claim r.tenant r.id worker now leaseSeconds)
        (State.claimed worker now leaseSeconds r)
  | updated {worker : String} {status : DeliveryStatus} {externalId error : String} {now : ℤ} :
      Change s r (.update worker r.tenant r.id status externalId error now)
        (State.updated status externalId error now r)

@[simp] theorem row?_hold (s : State) (k : String × ℕ) (w : String) (lease : Option ℤ) :
    (s.hold k w lease).row? key = s.row? key := rfl

@[simp] theorem row?_readClock (s : State) (now : ℤ) : (s.readClock now).row? key = s.row? key := rfl

@[simp] theorem held_readClock (s : State) (now : ℤ) : (s.readClock now).held = s.held := rfl

@[simp] theorem clock_readClock (s : State) (now : ℤ) : (s.readClock now).clock = now := rfl

theorem row?_setRows {p : Delivery → Bool} {f : Delivery → Delivery} (hf : ∀ r, (f r).key = r.key) :
    (s.setRows p f).row? key = (s.row? key).map fun r => if p r then f r else r :=
  get_update_map hf

theorem claimDelivery_ok {tenant worker : String} {id : ℕ} {now leaseSeconds : ℤ} {won : Bool}
    (h : s.claimDelivery tenant id worker now leaseSeconds = .ok (t, won)) :
    t = s.setRows (fun r => decide (r.key = (tenant, id)) && State.claimable now r)
      (State.claimed worker now leaseSeconds) ∧
    won = (s.row? (tenant, id)).any (State.claimable now) := by
  simp only [State.claimDelivery, bind_eq_ok, exists_unit, pure_eq_ok, Prod.mk.injEq] at h
  exact ⟨h.2.1.symm, h.2.2.symm⟩

/-- A row that is there stays there, changed by the call at most. -/
theorem Step.change (h : Step s l t) (hr : s.row? key = some r) :
    ∃ r', t.row? key = some r' ∧ Change s r l r' := by
  have hkey : r.key = key := key_of_get hr
  subst h
  cases l with
  | create tenant entityType entityId provider idempotencyKey now =>
    refine ⟨r, ?_, .same _⟩
    simp only [State.after, row?_readClock, State.createDelivery]
    split
    · exact hr
    · exact (get_append _).trans (by rw [show get Delivery.key key s.rows = some r from hr]; rfl)
  | claim tenant id worker now leaseSeconds =>
    have hset : ∃ r', (s.setRows (fun r => decide (r.key = (tenant, id)) && State.claimable now r)
        (State.claimed worker now leaseSeconds)).row? key = some r' ∧
        Change s r (.claim tenant id worker now leaseSeconds) r' := by
      refine ⟨_, (row?_setRows (by intro r; rfl)).trans (by rw [hr]; rfl), ?_⟩
      dsimp only
      split
      · rename_i hp
        simp only [Bool.and_eq_true, decide_eq_true_eq] at hp
        obtain ⟨hid, hclaim⟩ := hp
        obtain ⟨rfl, rfl⟩ := Prod.mk.inj hid
        exact .claimed hclaim
      · exact .same _
    simp only [State.after]
    split
    · rename_i t' heq
      obtain ⟨rfl, -⟩ := claimDelivery_ok heq
      exact hset
    · rename_i t' heq
      obtain ⟨rfl, -⟩ := claimDelivery_ok heq
      exact hset
    · exact ⟨r, hr, .same _⟩
  | update worker tenant id status externalId error now =>
    refine ⟨_, (row?_setRows (by intro r; rfl)).trans (by rw [hr]; rfl), ?_⟩
    dsimp only
    split
    · rename_i hp
      obtain ⟨rfl, rfl⟩ := Prod.mk.inj (of_decide_eq_true hp)
      exact .updated
    · exact .same _

theorem Change.attempts {r' : Delivery} (h : Change s r l r') : r.attemptCount ≤ r'.attemptCount := by
  cases h with
  | same => exact Nat.le_refl _
  | claimed => exact Nat.le_refl _
  | updated => exact Nat.le_succ _

end Steps

/-! ### Workers that report in time -/

/-- Clocks do not run back, and whoever updates a delivery was given a lease on it that has not run
out, and has not reported since. -/
def OnTime (s : State) (l : Label) : Prop :=
  s.clock ≤ l.now ∧
  match l with
  | .update worker tenant id _ _ _ now =>
    (s.row? (tenant, id)).isSome → ∃ lease, s.held (tenant, id) worker = some lease ∧ now < lease
  | _ => True

/-- A lease that has not run out is the row's. -/
structure Leased (s : State) : Prop where
  clock : 0 ≤ s.clock
  live : ∀ key worker lease, s.held key worker = some lease →
    ∃ r, s.row? key = some r ∧
      (s.clock < lease → r.status = .claimed ∧ r.claimedBy = worker ∧ r.leaseUntil = lease)

section Leases

variable {s t : State} {l : Label} {key : String × ℕ} {r : Delivery}

theorem leased_empty : Leased {} where
  clock := Int.le_refl 0
  live key worker lease h := by cases h

theorem not_claimable {now : ℤ} (hclock : 0 ≤ now) (hlease : now < r.leaseUntil) :
    State.claimable now r = false := by
  have hzero : r.leaseUntil ≠ 0 := by omega
  have hlate : ¬ r.leaseUntil ≤ now := by omega
  simp [State.claimable, hzero, hlate]

theorem Step.clock (h : Step s l t) : t.clock = l.now := by
  subst h
  cases l with
  | create => rfl
  | update => rfl
  | claim =>
    simp only [State.after]
    split <;> rfl

/-- What a worker holds after a call: what it held before, unless it reports, or what the call gave. -/
theorem Step.held (h : Step s l t) {worker : String} {lease : ℤ}
    (ht : t.held key worker = some lease) :
    s.held key worker = some lease ∧
        (∀ tenant id status externalId error now,
          l = .update worker tenant id status externalId error now → key ≠ (tenant, id)) ∨
      ∃ r, t.row? key = some r ∧ r.status = .claimed ∧ r.claimedBy = worker ∧
        r.leaseUntil = lease := by
  subst h
  cases l with
  | create tenant entityType entityId provider idempotencyKey now =>
    refine .inl ⟨?_, fun _ _ _ _ _ _ heq => by cases heq⟩
    rw [← ht]
    simp only [State.after, held_readClock, State.createDelivery]
    split <;> rfl
  | claim tenant id worker' now leaseSeconds =>
    cases hclaim : s.claimDelivery tenant id worker' now leaseSeconds with
    | error e =>
      simp only [State.after, hclaim, held_readClock] at ht
      exact .inl ⟨ht, fun _ _ _ _ _ _ heq => by cases heq⟩
    | ok res =>
      obtain ⟨t', won⟩ := res
      obtain ⟨rfl, hwon⟩ := claimDelivery_ok hclaim
      cases won with
      | false =>
        simp only [State.after, hclaim, held_readClock] at ht
        exact .inl ⟨ht, fun _ _ _ _ _ _ heq => by cases heq⟩
      | true =>
        simp only [State.after, hclaim, held_readClock, State.hold] at ht
        split at ht
        · rename_i hkey
          obtain ⟨rfl, rfl⟩ := hkey
          obtain rfl := Option.some.inj ht
          obtain ⟨r, hr, hclaimable⟩ := (Option.any_eq_true _ _).1 hwon.symm
          refine .inr ⟨State.claimed worker now leaseSeconds r, ?_, rfl, rfl, rfl⟩
          have hkey : r.key = (tenant, id) := key_of_get hr
          simp only [State.after, hclaim, row?_readClock, row?_hold]
          rw [row?_setRows (by intro r; rfl), hr]
          simp [hkey, hclaimable]
        · exact .inl ⟨ht, fun _ _ _ _ _ _ heq => by cases heq⟩
  | update worker' tenant id status externalId error now =>
    simp only [State.after, held_readClock, State.hold] at ht
    split at ht
    · cases ht
    · rename_i hother
      refine .inl ⟨ht, ?_⟩
      rintro tenant' id' status' externalId' error' now' heq rfl
      obtain ⟨rfl, rfl, rfl⟩ : worker' = worker ∧ tenant = tenant' ∧ id = id' := by
        injection heq with h₁ h₂ h₃
        exact ⟨h₁, h₂, h₃⟩
      exact hother ⟨rfl, rfl⟩

theorem Leased.step (h : Leased s) (hs : Step s l t) (hok : OnTime s l) : Leased t := by
  have hclock : s.clock ≤ t.clock := by
    rw [hs.clock]
    exact hok.1
  refine ⟨h.clock.trans hclock, fun key worker lease ht => ?_⟩
  rcases hs.held ht with ⟨hheld, hother⟩ | ⟨r, hr, hrow⟩
  · obtain ⟨r, hr, hlive⟩ := h.live key worker lease hheld
    have hkey : r.key = key := key_of_get hr
    obtain ⟨r', hr', hchange⟩ := hs.change hr
    refine ⟨r', hr', fun hnow => ?_⟩
    obtain ⟨hstatus, hby, huntil⟩ := hlive (hclock.trans_lt hnow)
    have hnow' : l.now < r.leaseUntil := by rw [← hs.clock, huntil]; exact hnow
    cases hchange with
    | same => exact ⟨hstatus, hby, huntil⟩
    | claimed hclaimable =>
      have hnot := not_claimable (h.clock.trans hok.1) hnow'
      exact absurd (hclaimable.symm.trans hnot) (by simp)
    | @updated worker' status externalId error now =>
      -- who reports holds the lease too, and the row has one holder
      have hthere : (s.row? (r.tenant, r.id)).isSome := by
        rw [show (r.tenant, r.id) = key from hkey, hr]
        rfl
      obtain ⟨lease', hheld', hlate⟩ := hok.2 hthere
      obtain ⟨r₂, hr₂, hlive₂⟩ := h.live _ _ _ hheld'
      rw [show (r.tenant, r.id) = key from hkey, hr] at hr₂
      obtain rfl := Option.some.inj hr₂
      have hby' := (hlive₂ (lt_of_le_of_lt hok.1 hlate)).2.1
      obtain rfl : worker' = worker := hby'.symm.trans hby
      exact absurd hkey.symm (hother _ _ _ _ _ _ rfl)
  · exact ⟨r, hr, fun _ => hrow⟩

theorem Leased.holder (h : Leased s) {worker tenant externalId error : String} {id : ℕ}
    {status : DeliveryStatus} {now : ℤ}
    (hok : OnTime s (.update worker tenant id status externalId error now))
    (hr : s.row? (tenant, id) = some r) :
    r.status = .claimed ∧ r.claimedBy = worker ∧ now < r.leaseUntil := by
  obtain ⟨lease, hheld, hlate⟩ := hok.2 (by rw [hr]; rfl)
  obtain ⟨r', hr', hlive⟩ := h.live _ _ _ hheld
  obtain rfl := Option.some.inj (hr.symm.trans hr')
  obtain ⟨hstatus, hby, huntil⟩ := hlive (lt_of_le_of_lt hok.1 hlate)
  exact ⟨hstatus, hby, by rw [huntil]; exact hlate⟩

theorem Leased.sent (h : Leased s) (hs : Step s l t) (hok : OnTime s l) (hr : s.row? key = some r)
    (hsent : r.status = .sent) : t.row? key = some r := by
  have hkey : r.key = key := key_of_get hr
  obtain ⟨r', hr', hchange⟩ := hs.change hr
  cases hchange with
  | same => exact hr'
  | claimed hclaimable =>
    simp [State.claimable, hsent] at hclaimable
  | updated =>
    have hholder := (h.holder hok (r := r) (by rw [show (r.tenant, r.id) = key from hkey, hr])).1
    rw [hsent] at hholder
    cases hholder

theorem not_granted (hr : s.row? key = some r) (hsent : r.status = .sent) :
    s.grants key l = false := by
  cases l with
  | create => rfl
  | update => rfl
  | claim tenant id worker now leaseSeconds =>
    simp only [State.grants, Bool.and_eq_false_iff, decide_eq_false_iff_not]
    by_cases hkey : (tenant, id) = key
    · subst hkey
      refine .inr ?_
      cases hclaim : s.claimDelivery tenant id worker now leaseSeconds with
      | error e => rfl
      | ok res =>
        obtain ⟨t', won⟩ := res
        obtain ⟨-, hwon⟩ := claimDelivery_ok hclaim
        rw [hr] at hwon
        simp [State.claimable, hsent] at hwon
        simp [hwon]
    · exact .inl hkey

/-- **Deliveries.** Attempts only grow, in every run. Where workers report in time, an update that finds
its delivery comes from the worker whose claim holds it, and a delivery that was sent stays as it is and
is not claimed again. -/
theorem delivery_safe {τs : List (Transition State Label)} (h : Run Step {} τs s) :
    (∀ pre τ post, τs = pre ++ τ :: post → ∀ key r, τ.src.row? key = some r →
      ∃ r', s.row? key = some r' ∧ r.attemptCount ≤ r'.attemptCount) ∧
    ((∀ τ ∈ τs, OnTime τ.src τ.label) →
      (∀ τ ∈ τs, ∀ worker tenant id status externalId error now r,
        τ.label = .update worker tenant id status externalId error now →
        τ.src.row? (tenant, id) = some r →
        r.status = .claimed ∧ r.claimedBy = worker ∧ now < r.leaseUntil) ∧
      ∀ pre τ post, τs = pre ++ τ :: post → ∀ key r, τ.src.row? key = some r → r.status = .sent →
        s.row? key = some r ∧ ∀ τ' ∈ post, τ'.src.grants key τ'.label = false) := by
  refine ⟨?_, fun hontime => ?_⟩
  · rintro pre ⟨src, label, dst⟩ post rfl key r hr
    obtain ⟨-, hstep⟩ := h.split
    obtain ⟨r₁, hr₁, hchange⟩ := hstep.change hr
    refine h.rest.stable (p := fun s => ∃ r', s.row? key = some r' ∧ r.attemptCount ≤ r'.attemptCount)
      ?_ ⟨r₁, hr₁, hchange.attempts⟩
    rintro s l t hs ⟨r₂, hr₂, hle⟩
    obtain ⟨r₃, hr₃, hchange₃⟩ := hs.change hr₂
    exact ⟨r₃, hr₃, hle.trans hchange₃.attempts⟩
  · have hrun : Run (guarded OnTime Step) {} τs s := h.guard hontime
    have hleased : ∀ s l t, Leased s → guarded OnTime Step s l t → Leased t :=
      fun _ _ _ hl hs => hl.step hs.1 hs.2
    refine ⟨fun τ hτ worker tenant id status externalId error now r hl hr => ?_, ?_⟩
    · obtain ⟨⟨-, hok⟩, hl'⟩ := hrun.always leased_empty hleased hτ
      rw [hl] at hok
      exact hl'.holder hok hr
    · rintro pre ⟨src, label, dst⟩ post rfl key r hr hsent
      have hstrong := hrun.strengthen leased_empty hleased
      obtain ⟨-, ⟨hstep, hok⟩, hl⟩ := hstrong.split
      have hdst := hl.sent hstep hok hr hsent
      have hkeep : ∀ s l t, (guarded OnTime Step s l t ∧ Leased s) → s.row? key = some r →
          t.row? key = some r := fun _ _ _ hs hr => hs.2.sent hs.1.1 hs.1.2 hr hsent
      refine ⟨hstrong.rest.stable hkeep hdst, fun τ' hτ' => ?_⟩
      exact not_granted (hstrong.rest.always hdst (fun s l t hr hs => hkeep s l t hs hr) hτ').2 hsent

end Leases

/-! ### A report in time, and a late one -/

section Sample

def sampleClaim (worker : String) (now : ℤ) : Label := .claim "t" 1 worker now deliveryLeaseSeconds

def sampleUpdate (worker : String) (status : DeliveryStatus) (now : ℤ) : Label :=
  .update worker "t" 1 status "" "" now

/-- A delivery is claimed, reported as failed, claimed by another worker and sent. -/
def timelyLabels : List Label :=
  [.create "t" "order" "o1" "telegram" "k1" 1000, sampleClaim "w1" 1000,
    sampleUpdate "w1" .failed 1001, sampleClaim "w2" 1002, sampleUpdate "w2" .sent 1003,
    sampleClaim "w3" 1070]

def timelyState : State := timelyLabels.foldl State.after {}

instance (s : State) (l : Label) : Decidable (OnTime s l) := by
  cases l with
  | create => exact inferInstanceAs (Decidable (_ ∧ True))
  | claim => exact inferInstanceAs (Decidable (_ ∧ True))
  | update worker tenant id status externalId error now =>
    exact decidable_of_iff (s.clock ≤ now ∧ ((s.row? (tenant, id)).isSome = true →
      (s.held (tenant, id) worker).any (fun lease => decide (now < lease)) = true))
      (by simp [OnTime, Label.now, Option.any_eq_true])

theorem delivery_safe_sample :
    (timelyState.row? ("t", 1)).map (fun r => (r.status, r.attemptCount)) = some (.sent, 2) ∧
    ∀ τ ∈ trace State.after {} timelyLabels, ∀ worker tenant id status externalId error now r,
      τ.label = .update worker tenant id status externalId error now →
      τ.src.row? (tenant, id) = some r →
      r.status = .claimed ∧ r.claimedBy = worker ∧ now < r.leaseUntil := by
  have hrun : Run Step {} ([] ++ trace State.after {} timelyLabels) timelyState :=
    Run.nil.calls timelyLabels
  have hontime : ((trace State.after {} timelyLabels).all fun τ => decide (OnTime τ.src τ.label)) =
      true := by decide +kernel
  exact ⟨by decide +kernel, ((delivery_safe hrun).2 fun τ hτ =>
    of_decide_eq_true (List.all_eq_true.1 hontime τ hτ)).1⟩

/-- The lease of `w1` runs out, `w2` sends the delivery, and then `w1` reports its failure. -/
def lateLabels : List Label :=
  [.create "t" "order" "o1" "telegram" "k1" 1000, sampleClaim "w1" 1000, sampleClaim "w2" 1060,
    sampleUpdate "w2" .sent 1061, sampleUpdate "w1" .failed 1062]

def lateState : State := lateLabels.foldl State.after {}

/-- A late report takes effect: the sent delivery is failed again, and claimed once more. -/
theorem late_report_overwrites :
    Run Step {} (trace State.after {} lateLabels) lateState ∧
    (((lateLabels.take 4).foldl State.after {}).row? ("t", 1)).map Delivery.status = some .sent ∧
    (lateState.row? ("t", 1)).map Delivery.status = some .failed ∧
    lateState.grants ("t", 1) (sampleClaim "w3" 1063) = true := by
  have hrun : Run Step {} ([] ++ trace State.after {} lateLabels) lateState := Run.nil.calls lateLabels
  exact ⟨hrun, by decide +kernel, by decide +kernel, by decide +kernel⟩

end Sample

end AgentPlatform.Deliveries
