import AgentPlatform.Json
import AgentPlatform.Lib.Table

/-!
# The posting ledger of `erp.py`

One row of `p_erp_postings` for every attempt at a document. A row whose status is in
`CLAIMING_STATUSES` carries the claim key of its document identity, under a `UNIQUE` index; a
`failed` row carries none.

* `reserve` writes the claiming `posting` row before any byte leaves;
* `finish` records the answer of the `POST` on it;
* `recoverPostings` turns a reservation that outlived its `POST` into `uncertain`;
* `reconcilePosting` is the owner's verdict on an unknown outcome;
* `record` writes down that the ERP already held the document.

Every one of them is one transaction. `require_active` and `require_authority` belong to the engine;
a transaction takes their answers.
-/

namespace AgentPlatform.Erp

open Outcome

/-- The status column of `p_erp_postings`. -/
inductive Status
  | posting
  | posted
  | skippedExisting
  | uncertain
  | unconfirmed
  | failed
  deriving DecidableEq, Repr

/-- `CLAIMING_STATUSES`. -/
def Status.claiming : Status → Bool
  | posted | skippedExisting | posting | uncertain | unconfirmed => true
  | failed => false

/-- `UNKNOWN_STATUSES`. -/
def Status.unknown : Status → Bool
  | uncertain | unconfirmed => true
  | _ => false

def Status.text : Status → String
  | posting => "posting"
  | posted => "posted"
  | skippedExisting => "skipped_existing"
  | uncertain => "uncertain"
  | unconfirmed => "unconfirmed"
  | failed => "failed"

/-- The resolved fields of one document (`resolve_posting`). -/
structure Posting where
  driver : String
  supplier : String
  number : String
  docDate : String
  currency : String
  totalMinor : ℤ
  account : String
  counterparty : String
  deriving DecidableEq, Repr

/-- The key a duplicate posting must collide on: driver, kind, supplier and number. -/
structure Identity where
  driver : String
  kind : String
  supplier : String
  number : String
  deriving DecidableEq, Repr

/-- A row of `p_erp_postings`. -/
structure Row where
  tenant : String
  id : String
  document : String
  driver : String
  kind : String
  supplier : String
  number : String
  currency : String
  totalMinor : ℤ
  externalId : String
  status : Status
  request : String
  response : String
  plan : String
  created : Time
  settled : Option Time
  claimKey : Option String
  deriving DecidableEq, Repr

/-- The primary key. -/
def Row.key (r : Row) : String × String := (r.tenant, r.id)

def Row.identity (r : Row) : Identity := ⟨r.driver, r.kind, r.supplier, r.number⟩

/-- What the ledger takes from the standard library: the hexadecimal SHA-256 of a text, `str` of a
JSON value and `repr` of a text. -/
structure Library where
  sha256 : String → String
  str : Json → String
  repr : String → String

def reservationStaleSeconds : ℤ := 180

/-- `identity`. -/
def identity (posting : Posting) : Identity :=
  ⟨posting.driver, "invoice", posting.supplier, posting.number⟩

/-- The claim key of an identity. -/
def Identity.claimKey (i : Identity) : String :=
  i.driver ++ "|" ++ i.kind ++ "|" ++ i.supplier ++ "|" ++ i.number

/-- `idempotency_key`. -/
def idempotencyKey (lib : Library) (tenant : String) (posting : Posting) (attempt : ℕ) : String :=
  let i := identity posting
  String.ofList ((lib.sha256 ("\x1f".intercalate
    [tenant, i.driver, i.kind, i.supplier, i.number, toString attempt])).toList.take 24)

/-- The `UNIQUE` constraints a new or updated row would break: the primary key, and the claim index,
in which `NULL`s are distinct. -/
def clashes (tenant id : String) (claimKey : Option String) (r : Row) : Bool :=
  decide (r.tenant = tenant) &&
    (decide (r.id = id) || (claimKey.isSome && decide (r.claimKey = claimKey)))

/-- The row update of `recover_postings`. -/
def Row.expire (r : Row) : Row :=
  { r with
    status := .uncertain
    response := (Json.obj [("error", .str "reservation_expired")]).encode }

/-- The row update of `_finish`. -/
def Row.finish (status : Status) (externalId : String) (response : Json)
    (now : Time) (r : Row) : Row :=
  { r with
    status := status
    externalId := externalId
    response := response.encode
    settled := some now
    claimKey := if status = .failed then none else r.claimKey }

/-- The row update of `reconcile_posting`. -/
def Row.settle (status : Status) (externalId : String) (now : Time) (r : Row) : Row :=
  { r with
    status := status
    externalId := if status = .posted then strip externalId else ""
    settled := some now
    claimKey := if status = .posted then some r.identity.claimKey else none }

@[simp] theorem Row.expire_key (r : Row) : r.expire.key = r.key := rfl

@[simp] theorem Row.finish_key (status : Status) (externalId : String) (response : Json)
    (now : Time) (r : Row) : (r.finish status externalId response now).key = r.key := rfl

@[simp] theorem Row.settle_key (status : Status) (externalId : String) (now : Time) (r : Row) :
    (r.settle status externalId now).key = r.key := rfl

/-- `posted`: the row that claims this document. -/
def posted (rows : List Row) (tenant : String) (posting : Posting) : Option Row :=
  rows.find? fun r => decide (r.tenant = tenant) && decide (r.identity = identity posting) &&
    r.status.claiming

/-- `_record` with a status that claims. -/
def record (rows : List Row) (active : Except Err Unit) (tenant drawn : String)
    (posting : Posting) (document : String) (plan : Json) (status : Status) (externalId : String)
    (request response : Json) (now : Time) : Except Err (List Row × String) := do
  let i := identity posting
  let claimKey := if status.claiming then some i.claimKey else none
  active
  ensure (rows.all (fun r => !clashes tenant drawn claimKey r) = true)
    (.conflict ("document " ++ i.supplier ++ "/" ++ i.number ++ " has already been posted to " ++
      i.driver ++ "; refusing a second posting"))
  pure (rows ++ [⟨tenant, drawn, document, i.driver, i.kind, i.supplier, i.number,
    posting.currency, posting.totalMinor, externalId, status, request.encode,
    response.encode, plan.encode, now, none, claimKey⟩], drawn)

/-- `recover_postings`. -/
def recoverPostings (rows : List Row) (tenant : String) (now : Time) : List Row :=
  Table.update (fun r => decide (r.tenant = tenant) && decide (r.status = .posting) &&
      decide (r.created ≤ now - seconds reservationStaleSeconds)) Row.expire rows

/-- `_reserve`. -/
def reserve (lib : Library) (rows : List Row) (active : Except Err Unit) (tenant : String)
    (posting : Posting) (document : String) (plan body : Json) (now : Time) :
    Except Err (List Row × String) := do
  let i := identity posting
  active
  let attempt := rows.countP fun r => decide (r.tenant = tenant) && decide (r.identity = i)
  let rowId := idempotencyKey lib tenant posting attempt
  ensure (rows.all (fun r => !clashes tenant rowId (some i.claimKey) r) = true)
    (.conflict ("document " ++ i.supplier ++ "/" ++ i.number ++ " is already being posted to " ++
      i.driver ++ "; refusing a concurrent posting"))
  pure (rows ++ [⟨tenant, rowId, document, i.driver, i.kind, i.supplier, i.number,
    posting.currency, posting.totalMinor, "", .posting, body.encode, "", plan.encode, now,
    none, some i.claimKey⟩], rowId)

/-- `_finish`. -/
def finish (rows : List Row) (tenant rowId : String) (status : Status)
    (externalId : String) (response : Json) (now : Time) : List Row :=
  Table.update (fun r => decide (r.key = (tenant, rowId)) &&
      (decide (r.status = .posting) || decide (r.status = .uncertain)))
    (Row.finish status externalId response now) rows

/-- `NOT_DEFINITIVE_4XX`. -/
def notDefinitive4xx : List ℤ := [408, 409, 425, 429]

/-- `_definitive_refusal`. -/
def definitiveRefusal : Err → Bool
  | .erpError _ (some status) =>
    decide (400 ≤ status) && decide (status < 500) && !notDefinitive4xx.contains status
  | _ => false

/-- The owner's verdict. -/
inductive Verdict
  | posted
  | failed
  | other (text : String)
  deriving DecidableEq, Repr

/-- The verdict as a status; `none` for a text the code refuses. -/
def Verdict.status? : Verdict → Option Status
  | posted => some .posted
  | failed => some .failed
  | other _ => none

/-- The verdict of `reconcile_posting`; the recovery before it is a transaction of its own.
`authority` is the answer of `require_authority(…, ('owner',))`. -/
def reconcilePosting (rows : List Row) (authority : Except Err Unit) (tenant postingId role : String)
    (outcome : Verdict) (evidence externalId : String) (now : Time) :
    Except Err (List Row × String) := do
  ensure (role = "owner" ∨ role = "super-admin") (.forbidden "Owner required")
  let status ← need outcome.status? (.valueError "outcome must be posted or failed")
  ensure (isBlank evidence = false ∧ evidence.length ≤ 500)
    (.valueError "Evidence required, maximum 500 characters")
  ensure (status = .posted → isBlank externalId = false ∧ externalId.length ≤ 128)
    (.valueError "a posted verdict needs the ERP document id (max 128 characters)")
  authority
  let row ← need (rows.find? fun r => decide (r.key = (tenant, postingId)) && r.status.unknown)
    (.conflict "Posting is not in an unknown state")
  let claimKey := if status = .posted then some row.identity.claimKey else none
  ensure (rows.all (fun r => decide (r.key = (tenant, postingId)) ||
      !clashes tenant postingId claimKey r) = true)
    (.conflict "another row already claims this document")
  pure (Table.update (fun r => r.key = (tenant, postingId)) (Row.settle status externalId now) rows,
    postingId)

end AgentPlatform.Erp
