import AgentPlatform.Json
import AgentPlatform.Ladder.Store
import AgentPlatform.Lib.Table

/-!
# Approvals of the legacy pipeline

`FileApprovalStore` of `app/approvals.py`, with the order table behind `CsvOrderStore.append` and the row of
`LadderStore.record`. Several processes decide at once. In one process a lock lets one `decide` in at a
time; its statements are labels of their own, each its own commit: looking the order up, inserting it,
reading the ladder row, saving it, and marking the approval. A call ends between any two of them where the
process is killed or the statement raises.

The CSV file mirrors the order table for people to read; nothing reads it back but `append` itself.
-/

namespace AgentPlatform.Legacy

open Outcome Table Ladder

/-- `DECISIONS`. -/
inductive Decision
  | approved
  | rejected
  deriving DecidableEq, Repr

def Decision.value : Decision → String
  | approved => "approved"
  | rejected => "rejected"

/-- The decision a text names. -/
def Decision.named (text : String) : Option Decision :=
  [approved, rejected].find? fun decision => decision.value = text

/-- What the ladder records of a decision. -/
def Decision.ok : Decision → Bool
  | approved => true
  | rejected => false

/-- A row of `approvals`; the status `pending` is `none`. -/
structure Approval where
  id : String
  tenant : String
  kind : String
  agent : String
  summary : String
  payload : String
  status : Option Decision := none
  reason : String := ""
  decidedAt : ℤ := 0
  decidedBy : String := ""
  createdAt : ℤ

/-- A row of `orders`. -/
structure Order where
  id : String
  tenant : String
  updateId : ℤ
  customer : String
  phone : String
  productId : String
  qty : ℤ
  branchId : String
  note : String
  status : String
  createdAt : ℤ

/-- What `validate_order_payload` reads of a pack: the ids of its products and branches. -/
structure Catalog where
  products : List String
  branches : List String

/-- The libraries: `json`, `str`, Unicode case and digits, and the checks of the `Order` model, which raise
with a text. -/
structure Library where
  loads : String → Option Json
  dumps : Json → String
  str : Json → String
  upper : String → String
  lower : String → String
  isDigit : Char → Bool
  order : List (String × Json) → ℤ → Except String Order

/-! ### `validate_order_payload` -/

/-- `PHONE_RE.match`; `$` also matches before a final line break. -/
def isPhone (lib : Library) (text : String) : Bool :=
  let rest := text.toList.drop 4
  "+998".toList.isPrefixOf text.toList && (rest.take 9).all lib.isDigit &&
    (rest.length == 9 || (rest.length == 10 && rest.getLast? == some '\n'))

/-- `isinstance(qty, int)` and the range; a truth value is an integer. -/
def isQuantity : Json → Bool
  | .int n => decide (1 ≤ n ∧ n ≤ 99)
  | .bool b => b
  | _ => false

def validateOrderPayload (lib : Library) (payload : Json) (catalog : Catalog) : Except String Unit := do
  ensure ((catalog.products.map lib.upper).contains
    (lib.upper (lib.str (payload.getD "product_id" (.str "")))) = true) "tovar topilmadi"
  ensure ((catalog.branches.map lib.lower).contains
    (lib.lower (lib.str (payload.getD "branch_id" (.str "")))) = true) "filial topilmadi"
  ensure (isQuantity (payload.getD "qty" (.int 0)) = true) "son noto'g'ri"
  ensure (isPhone lib (lib.str (payload.getD "phone" (.str ""))) = true) "telefon noto'g'ri"

/-! ### States -/

/-- A call of `decide` past its checks: the row it read, and its arguments. -/
structure Call where
  row : Approval
  decision : Decision
  reason : String
  actor : String

/-- `"approval-" + approval_id`. -/
def orderId (id : String) : String := "approval-" ++ id

/-- Where the `decide` of a process stands. -/
inductive Stage
  | idle
  /-- `append` looks the order up. -/
  | selecting (call : Call) (order : Order)
  /-- `append` found none and inserts it. -/
  | inserting (call : Call) (order : Order)
  /-- `record` reads the ladder row. -/
  | reading (call : Call)
  /-- `record` saves what it makes of the row it read. -/
  | saving (call : Call) (entry : Entry) (past : List (String × Bool))
  /-- The approval is marked. -/
  | updating (call : Call)

/-- The tables and the processes. `recorded` says of each ladder row which approvals' outcomes it has taken
in, oldest first. -/
structure State where
  approvals : List Approval := []
  orders : List Order := []
  ladder : Ladder.State := {}
  recorded : String → List (String × Bool) := fun _ => []
  procs : ℕ → Stage := fun _ => .idle

namespace State

/-- A process goes on at a stage. -/
def goto (s : State) (p : ℕ) (stage : Stage) : State :=
  { s with procs := Function.update s.procs p stage }

/-- Whether the order of an approval has a row. -/
def hasOrder (s : State) (id : String) : Bool := s.orders.any fun o => o.id = orderId id

/-! ### `submit` -/

/-- A pending approval of the same update. -/
def hasTwin (lib : Library) (s : State) (tenant channel : String) (payload : Json) : Bool :=
  match payload.getD "update_id" .null with
  | .null => false
  | uid => s.approvals.any fun r =>
      decide (r.tenant = tenant) && r.status.isNone &&
        match lib.loads r.payload with
        | some p => (p.getD "update_id" .null).same uid && (p.getD "channel" (.str "")).isText channel
        | none => false

/-- `{**payload, "channel": channel}`. -/
def withChannel (channel : String) : Json → Json
  | .obj members =>
    if members.any fun m => m.1 = "channel" then
      .obj (members.map fun m => if m.1 = "channel" then (m.1, .str channel) else m)
    else .obj (members ++ [("channel", .str channel)])
  | payload => payload

/-- `submit`, with the suffix of the new id drawn. -/
def submit (lib : Library) (s : State) (tenant kind agent summary : String) (payload : Json)
    (channel suffix : String) (now : ℤ) : State :=
  let id := tenant ++ "-" ++ suffix
  if s.hasTwin lib tenant channel payload || s.approvals.any fun r => r.id = id then s
  else
    { s with approvals := s.approvals ++ [{
        id := id
        tenant := tenant
        kind := kind
        agent := agent
        summary := summary
        payload := lib.dumps (withChannel channel payload)
        createdAt := now }] }

/-! ### `decide` -/

/-- The checks of an order, and where its `decide` goes on. -/
def prepare (lib : Library) (call : Call) (payload : Json) (catalog : Option Catalog) (now : ℤ) :
    Except Err Stage := do
  let catalog ← need catalog (.other "PackError" call.row.tenant)
  ensure (payload.isDict = true) (.other "AttributeError" "get")
  match validateOrderPayload lib payload catalog with
  | .error e => throw (.other "CorruptError" ("pack'ga mos emas: " ++ e))
  | .ok () =>
    checkId call.row.agent
    match call.decision with
    | .rejected => pure (.reading call)
    | .approved =>
      match lib.order (payload.members.filter fun m => m.1 ≠ "channel") now with
      | .error e => throw (.other "CorruptError" ("buyurtma yaroqsiz: " ++ e))
      | .ok order => pure (.selecting call { order with id := orderId call.row.id })

/-- `decide`, up to its first statement that writes. -/
def check (lib : Library) (s : State) (id decision reason actor : String) (catalog : Option Catalog)
    (now : ℤ) : Except Err Stage := do
  let decision ← need (Decision.named decision) (.valueError "decision: approved|rejected")
  let row ← need (get Approval.id id s.approvals) (.lookupError "not found")
  ensure (row.status = none) (.valueError "already decided")
  let payload ← need (lib.loads row.payload) (.other "CorruptError" "payload buzilgan")
  if row.kind = "order" then prepare lib ⟨row, decision, reason, actor⟩ payload catalog now
  else pure (.updating ⟨row, decision, reason, actor⟩)

/-- The call of `decide`, in a process where none is under way. -/
def decide (lib : Library) (s : State) (p : ℕ) (id decision reason actor : String)
    (catalog : Option Catalog) (now : ℤ) : State :=
  match s.procs p with
  | .idle =>
    match s.check lib id decision reason actor catalog now with
    | .ok stage => s.goto p stage
    | .error _ => s
  | _ => s

end State

/-- `re.sub(r"[<>]", "", reason)[:MAX_REASON_CHARS]`. -/
def cleanReason (reason : String) : String :=
  String.ofList ((reason.toList.filter fun c => c ≠ '<' ∧ c ≠ '>').take 200)

/-- The marked row. -/
def Call.mark (call : Call) (now : ℤ) (r : Approval) : Approval :=
  { r with
    status := some call.decision
    decidedAt := now
    decidedBy := call.actor
    reason := cleanReason call.reason }

namespace State

/-- The row of an agent takes in the outcome of a call. -/
def saveOutcome (s : State) (call : Call) (entry : Entry) (past : List (String × Bool)) : State :=
  { s with
    ladder := s.ladder.save call.row.agent (LadderStore.weigh {} entry call.decision.ok)
    recorded := Function.update s.recorded call.row.agent (past ++ [(call.row.id, call.decision.ok)]) }

/-- The next statement of the `decide` of a process. -/
def work (s : State) (p : ℕ) (now : ℤ) : State :=
  match s.procs p with
  | .idle => s
  | .selecting call order =>
    if s.orders.any fun o => o.id = order.id then s.goto p (.reading call)
    else s.goto p (.inserting call order)
  | .inserting call order =>
    -- a row of another process is an `IntegrityError`
    if s.orders.any fun o => o.id = order.id then s.goto p .idle
    else { s with orders := s.orders ++ [order] }.goto p (.reading call)
  | .reading call =>
    s.goto p (.saving call (s.ladder.entry call.row.agent) (s.recorded call.row.agent))
  | .saving call entry past => (s.saveOutcome call entry past).goto p (.updating call)
  | .updating call =>
    { s with approvals := update (fun r => r.id = call.row.id) (call.mark now) s.approvals }.goto p .idle

end State

/-- One call or statement. -/
inductive Label
  | submit (tenant kind agent summary : String) (payload : Json) (channel suffix : String) (now : ℤ)
  | decide (p : ℕ) (id decision reason actor : String) (catalog : Option Catalog) (now : ℤ)
  | work (p : ℕ) (now : ℤ)
  /-- The `decide` of a process ends: it is killed, or the next statement raises. -/
  | fail (p : ℕ)
  /-- The owner sets a level. -/
  | setLevel (agent text : String)

def State.after (lib : Library) (s : State) : Label → State
  | .submit tenant kind agent summary payload channel suffix now =>
    s.submit lib tenant kind agent summary payload channel suffix now
  | .decide p id decision reason actor catalog now => s.decide lib p id decision reason actor catalog now
  | .work p now => s.work p now
  | .fail p => s.goto p .idle
  | .setLevel agent text => { s with ladder := commit s.ladder (s.ladder.setLevel agent text) }

/-- One label. -/
def Step (lib : Library) (s : State) (l : Label) (t : State) : Prop := t = s.after lib l

end AgentPlatform.Legacy
