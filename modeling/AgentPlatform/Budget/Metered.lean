import Mathlib.Algebra.Order.Field.Rat
import AgentPlatform.Budget.Ledger

/-!
# A metered model call

`metered_completion` of `usage_budget.py` with `with_retries` and `classify` of `model_transport.py`:
up to three attempts, each with a reservation of its own that is dispatched before the request is sent
and closed after the answer.

Other callers use the ledger between any two of an attempt's transactions; their calls are inputs, as
are the clock readings, the engine's answers and what the transport returns or raises.
-/

namespace AgentPlatform.Budget

open Outcome

/-! ### Failures and retries -/

/-- `NOT_SENT`, `REJECTED` and `UNKNOWN`. -/
inductive SendOutcome
  | notSent
  | rejected
  | unknown
  deriving DecidableEq

/-- The reason `release` takes. -/
def SendOutcome.text : SendOutcome → String
  | notSent => "not_sent"
  | rejected => "rejected"
  | unknown => "unknown"

/-- `ModelRequestFailed`. -/
structure Failure where
  outcome : SendOutcome
  status : Option ℤ := none
  retryAfter : Option ℚ := none
  deriving DecidableEq

/-- What may be raised: an exception `classify` knows as a transport failure, one it does not know, and
one that is no `Exception` at all. -/
inductive Exc
  | failed (f : Failure)
  | err (e : Err)
  | base
  deriving DecidableEq

/-- `classify`. -/
def classify : Exc → Option Failure
  | .failed f => some f
  | .err _ | .base => none

/-- `MAX_MODEL_ATTEMPTS`. -/
def maxModelAttempts : ℕ := 3

/-- `RETRYABLE_CLIENT_STATUSES`, and every server error. -/
def retryableStatus (status : Option ℤ) : Bool :=
  status.any fun n => n == 408 || n == 409 || n == 429 || (decide (500 ≤ n) && decide (n ≤ 599))

/-- `retry_wait`. -/
def retryWait (f : Failure) (index : ℕ) (jitter : ℚ) : Option ℚ :=
  if f.outcome = .rejected ∧ retryableStatus f.status = false then none
  else
    let backoff := min 8 (2 ^ index) * (1 - jitter / 4)
    match f.retryAfter with
    | none => some backoff
    | some wait => if 8 < wait then none else some (max backoff wait)

/-- The clocks of `with_retries`. -/
structure Timing where
  timeout : ℚ
  deadline : ℚ
  started : ℚ
  /-- The reading after the attempt of this index, and its jitter. -/
  clock : ℕ → ℚ
  jitter : ℕ → ℚ

/-- `with_retries`, with `left` attempts left. The last attempt returns or raises, so that the loop does
not run out. -/
def withRetries {σ α : Type} (t : Timing) (attempt : ℕ → σ → σ × Except Exc α) :
    ℕ → ℕ → σ → σ × Except Exc α
  | 0, _, s => (s, .error .base)
  | left + 1, index, s =>
    match attempt index s with
    | (s, .ok a) => (s, .ok a)
    | (s, .error exc) =>
      match classify exc with
      | none => (s, .error exc)
      | some f =>
        match if left = 0 then none else retryWait f index (t.jitter index) with
        | none => (s, .error (.failed f))
        | some wait =>
          if t.deadline < t.clock index - t.started + wait + t.timeout then (s, .error (.failed f))
          else withRetries t attempt left (index + 1) s

/-! ### The configuration -/

/-- `urlsplit(url)`. -/
structure Url where
  scheme : String
  hostname : Option String
  username : Option String
  password : Option String
  query : String
  fragment : String
  port : Except Err (Option ℤ)

/-- `value in names`, for a set of texts. -/
def memberOf (names : List String) (e : Err) : Json → Except Err String
  | .str s => do
    ensure (s ∈ names) e
    pure s
  | .arr _ => .error (.typeError "unhashable type: 'list'")
  | .obj _ => .error (.typeError "unhashable type: 'dict'")
  | _ => .error e

/-- `local_mode`. -/
def localMode (cfg : Json) : Except Err Bool := do
  let mode ← memberOf ["cloud", "local_loopback"] (.valueError "Unknown model provider mode")
    (cfg.getD "provider_mode" (.str "cloud"))
  pure (decide (mode = "local_loopback"))

/-- A text that is there and is not empty. -/
def given (text : Option String) : Bool := text.any fun s => s != ""

/-- The port of a local endpoint. -/
def checkLocal (parts : Url) : Except Err Unit := do
  let explicit := Err.valueError "Local model requires explicit numeric loopback HTTP and port"
  ensure (parts.scheme = "http" ∧ (parts.hostname = some "127.0.0.1" ∨ parts.hostname = some "::1"))
    explicit
  let port ← parts.port
  let port ← need port explicit
  ensure (1024 ≤ port ∧ port ≤ 65535)
    (.valueError "Local model requires an unprivileged service port")

/-- `validate_url`. -/
def validateUrl (urlsplit : String → Except Err Url) (cfg : Json) (url : String) : Except Err Unit := do
  let parts ← urlsplit url
  ensure (given parts.hostname = true ∧ given parts.username = false ∧ given parts.password = false ∧
      parts.fragment = "" ∧ parts.query = "")
    (.valueError "Plain model provider URL required")
  let isLocal ← localMode cfg
  if isLocal then checkLocal parts
  else ensure (parts.scheme = "https") (.valueError "Cloud model HTTPS required")

/-- `provider`. -/
def provider (cfg : Json) : Except Err String :=
  memberOf ["openai", "anthropic"] (.valueError "Unknown model provider")
    (cfg.getD "provider" (.str "openai"))

/-- `model_timeout`. -/
def modelTimeout (cfg : Json) : Except Err ℚ :=
  let invalid := Err.valueError "Model timeout_seconds must be an integer 10..120"
  match cfg.get? "timeout_seconds" with
  | none => pure 60
  | some (.int n) => do
    ensure (10 ≤ n ∧ n ≤ 120) invalid
    pure (n : ℚ)
  | some _ => .error invalid

/-- `usage_budget_required`. -/
def budgetRequired (cfg : Json) : Except Err Bool :=
  match cfg.get? "usage_budget_required" with
  | none => pure false
  | some (.bool required) => pure required
  | some _ => .error (.valueError "usage_budget_required must be boolean")

def pricingFields : List String := ["currency", "input_micro_per_million", "output_micro_per_million"]

/-- The pricing of `cfg`, if there is one. -/
def pricingOf (cfg : Json) : Except Err (Option Json) :=
  match cfg.getD "usage_budget" .null with
  | .null => do
    let required ← budgetRequired cfg
    ensure (required = false) (.forbidden "Model usage budget configuration required")
    pure none
  | pricing => do
    ensure (pricing.isDict = true ∧ (pricing.members.all fun m => pricingFields.contains m.1) = true ∧
        (pricingFields.all fun key => (pricing.get? key).isSome) = true)
      (.valueError "Explicit model pricing required")
    pure (some pricing)

/-! ### Costs -/

/-- A count of tokens. -/
def tokenCount : Json → Except Err ℤ
  | .int n => do
    ensure (0 ≤ n ∧ n ≤ 10 ^ 8) (.valueError "Invalid provider token usage")
    pure n
  | _ => .error (.valueError "Invalid provider token usage")

/-- `amount`, of a value of the configuration. -/
def rate : Json → Except Err ℤ
  | .int n => amount n
  | _ => .error (.valueError "Bounded integer microunits required")

/-- `token_cost`. -/
def tokenCost (input output pricing : Json) : Except Err ℤ := do
  let input ← tokenCount input
  let output ← tokenCount output
  let inputRate ← rate (pricing.getD "input_micro_per_million" .null)
  let outputRate ← rate (pricing.getD "output_micro_per_million" .null)
  amount ((input * inputRate + output * outputRate + 999999) / 1000000)

/-- A count of a receipt. -/
def receiptCount : Json → Except Err ℤ
  | .int n => pure n
  | _ => .error (.valueError "Invalid provider token usage")

/-- `provider_tokens`. -/
def providerTokens (usage : Json) (name : String) : Except Err (Json × Json) := do
  let fields := if name = "anthropic" then ("input_tokens", "output_tokens")
    else ("prompt_tokens", "completion_tokens")
  let missing := Err.valueError "Model usage receipt missing"
  let input ← need (usage.get? fields.1) missing
  let output ← need (usage.get? fields.2) missing
  if name = "anthropic" then do
    let input ← receiptCount input
    let created ← receiptCount (usage.getD "cache_creation_input_tokens" (.int 0))
    let read ← receiptCount (usage.getD "cache_read_input_tokens" (.int 0))
    let output ← receiptCount output
    pure (.int (input + created + read), .int output)
  else pure (input, output)

/-- The cost of an answer, from its receipt. -/
def receiptCost (pricing : Json) (name : String) (response : Json) : Except Err ℤ := do
  let usage := response.getD "usage" .null
  ensure (response.isDict = true ∧ usage.isDict = true) (.valueError "Model usage receipt missing")
  let (input, output) ← providerTokens usage name
  tokenCost input output pricing

/-! ### One attempt -/

/-- What the transport comes to; for an exception, whether the request had left. -/
inductive Answer
  | response (value : Json)
  | raised (exc : Exc) (sent : Bool)

def Answer.sent : Answer → Bool
  | response _ => true
  | raised _ sent => sent

/-- What an attempt meets. -/
structure Attempt where
  /-- What other callers do before the reservation, before the dispatch and before the closing. -/
  before : List Op := []
  between : List Op := []
  during : List Op := []
  reserveActive : Except Err Unit := .ok ()
  reserveNow : Readings
  dispatchActive : Except Err Unit := .ok ()
  dispatchNow : Readings
  answer : Answer
  /-- What the database says to the closing transaction. -/
  closing : Except Err Unit := .ok ()
  updated : Time

/-- A reservation an attempt went on with. -/
structure Made where
  rid : Uuid
  /-- The row is this attempt's own, and not an older one of its key. -/
  inserted : Bool
  /-- The ledger `dispatch` was called on. -/
  ledger : Ledger
  met : Attempt

/-- The ledger, and the reservations made so far. -/
structure Metered where
  ledger : Ledger
  made : List Made := []

/-- What the attempts of a call share. -/
structure Meter where
  lib : Library
  tenant : String
  requestKey : String
  fingerprint : String
  estimate : ℤ
  pricing : Json
  name : String

/-- The ledger after calls of other callers. -/
def Ledger.others (lib : Library) (l : Ledger) (ops : List Op) : Ledger := ops.foldl (Ledger.after lib) l

/-- The key an attempt reserves under. -/
def Meter.key (m : Meter) (index : ℕ) : String :=
  if index = 0 then m.requestKey else m.requestKey ++ "#retry" ++ toString index

/-- The currency of the pricing; what is no text matches no settings. -/
def Meter.currency (m : Meter) : String :=
  match m.pricing.getD "currency" .null with
  | .str currency => currency
  | _ => ""

/-- What is raised where the call failed and may have been billed. -/
def unavailable : Exc :=
  .err (.runtimeError "Metered model call failed or usage unavailable; reconciliation required")

/-- The transaction that closes a reservation, and what the attempt returns or raises after it. -/
def Meter.close (m : Meter) (l : Ledger) (rid : Uuid) (i : Attempt) :
    Except Err (Ledger × Option Uuid) × Except Exc Json :=
  match i.answer with
  | .response value =>
    match receiptCost m.pricing m.name value with
    | .ok actual => (settle l m.tenant rid actual i.updated, .ok value)
    | .error _ => (uncertain l m.tenant rid i.updated, .error unavailable)
  | .raised (.failed f) _ =>
    if f.outcome = .unknown then (uncertain l m.tenant rid i.updated, .error (.failed f))
    else (release l m.tenant rid f.outcome.text i.updated, .error (.failed f))
  | .raised (.err _) _ => (uncertain l m.tenant rid i.updated, .error unavailable)
  | .raised .base _ => (.ok (l, none), .error .base)

/-- `dispatch`, the transport and the closing, on a reservation. -/
def Meter.send (m : Meter) (l : Ledger) (rid : Uuid) (i : Attempt) : Ledger × Except Exc Json :=
  match dispatch m.lib l i.dispatchActive m.tenant rid i.dispatchNow with
  | .error e => (l, .error (.err e))
  | .ok (l, _) =>
    let l := l.others m.lib i.during
    let (closed, result) := m.close l rid i
    match i.closing >>= fun _ => closed with
    | .ok (l, _) => (l, result)
    | .error e => (l, .error (.err e))

/-- `attempt(index)`. -/
def Meter.attempt (m : Meter) (inputs : ℕ → Attempt) (index : ℕ) (s : Metered) :
    Metered × Except Exc Json :=
  let i := inputs index
  let l := s.ledger.others m.lib i.before
  match reserve m.lib l i.reserveActive m.tenant (m.key index) m.fingerprint m.estimate m.currency
      i.reserveNow with
  | .error e => ({ s with ledger := l }, .error (.err e))
  | .ok (l', none) => ({ s with ledger := l' }, .error (.err (.notFound "Budget reservation not found")))
  | .ok (l', some rid) =>
    let inserted := decide (l.drawn < l'.drawn)
    let l := l'.others m.lib i.between
    let (l', result) := m.send l rid i
    (⟨l', s.made ++ [⟨rid, inserted, l, i⟩]⟩, result)

/-! ### `metered_completion` -/

/-- The arguments of a call. -/
structure Call where
  tenant : String
  cfg : Json
  url : String
  body : Json
  requestKey : String := ""
  /-- `uuid.uuid4().hex`. -/
  drawn : String
  timeout : Option ℚ := none
  deadline : Option ℚ := none

/-- The timeout of one attempt. -/
def Call.attemptTimeout (c : Call) : Except Err ℚ :=
  match c.timeout with
  | some timeout => pure timeout
  | none => modelTimeout c.cfg

/-- What a call meets. -/
structure World where
  urlsplit : String → Except Err Url
  attempts : ℕ → Attempt
  started : ℚ := 0
  clock : ℕ → ℚ := fun _ => 0
  jitter : ℕ → ℚ := fun _ => 0

/-- The transport alone, where nothing is metered. -/
def unmetered (attempts : ℕ → Attempt) (index : ℕ) (s : Metered) : Metered × Except Exc Json :=
  match (attempts index).answer with
  | .response value => (s, .ok value)
  | .raised exc _ => (s, .error exc)

/-- The timing of a call and, where it is metered, its meter. -/
def Call.prepare (lib : Library) (c : Call) (w : World) : Except Err (Timing × Option Meter) := do
  validateUrl w.urlsplit c.cfg c.url
  let name ← provider c.cfg
  let _ ← budgetRequired c.cfg
  let timeout ← c.attemptTimeout
  let t : Timing := ⟨timeout, c.deadline.getD 150, w.started, w.clock, w.jitter⟩
  match ← pricingOf c.cfg with
  | none => pure (t, none)
  | some pricing => do
    let maxTokens ← need (c.body.get? "max_tokens") (.lookupError "'max_tokens'")
    let estimate ← tokenCost (.int (c.body.encode.utf8ByteSize + 4096)) maxTokens pricing
    let key := if c.requestKey = "" then "model:" ++ c.drawn else c.requestKey
    let fingerprint := digest lib.sha256
      (.obj [("url", .str c.url), ("body", c.body), ("pricing", pricing)])
    pure (t, some ⟨lib, c.tenant, key, fingerprint, estimate, pricing, name⟩)

/-- `metered_completion`. -/
def meteredCompletion (lib : Library) (l : Ledger) (c : Call) (w : World) : Metered × Except Exc Json :=
  match c.prepare lib w with
  | .error e => (⟨l, []⟩, .error (.err e))
  | .ok (t, none) => withRetries t (unmetered w.attempts) maxModelAttempts 0 ⟨l, []⟩
  | .ok (t, some m) => withRetries t (m.attempt w.attempts) maxModelAttempts 0 ⟨l, []⟩

end AgentPlatform.Budget
