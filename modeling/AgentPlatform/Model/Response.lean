import AgentPlatform.Lib.Binary64
import AgentPlatform.Lib.PyJson

/-!
# Model responses

The strict single-decision parsers of `model_response.py`. The Chat Completions and the Anthropic envelope hand a text
to `decision_from_text`; of a `tools` turn the input of the first `tool_use` block is held to the same bounds. A
response is untrusted JSON, in which every field may be of any type. All three parsers raise `ValueError` and nothing
else, unless the `stop_reason` of an Anthropic message is a list or an object (`valueError_iff`): it is looked up in a
table, and has no hash.
-/

namespace AgentPlatform.Model

open Outcome PyJson

def maxDecisionBytes : ℕ := 20000

def maxJsonDepth : ℕ := 32

def maxJsonNodes : ℕ := 5000

def requiredChoices : ℕ := 1

def maxContentBlocks : ℕ := 64

def maxToolNameChars : ℕ := 64

/-- A double, with the sign of its zero. -/
structure Double where
  negative : Bool
  magnitude : Binary64
  deriving DecidableEq

/-- `float` of a literal; its sign is kept apart. -/
def Double.ofLiteral (l : Literal) : Double := ⟨l.negative, Binary64.ofRat l.magnitude⟩

def Double.isFinite (x : Double) : Bool := x.magnitude.value?.isSome

abbrev Json := Value Double

abbrev Members := List (Text × Json)

/-- What the interpreter decides: how deep reading and writing go, and how a finite double is written. -/
structure Python where
  readLimit : ℕ
  writeLimit : ℕ
  repr : Double → String
  deep : maxJsonDepth ≤ writeLimit

/-- What a parser may raise. -/
inductive Exc
  | valueError (message : String)
  /-- The `ValueError` of `int`, for too many digits. -/
  | digits
  /-- `UnicodeEncodeError`, a `ValueError`. -/
  | unicodeEncode
  /-- The `TypeError` of a list or dictionary that is looked up in a table. -/
  | unhashable
  deriving DecidableEq

def Exc.isValueError : Exc → Bool
  | unhashable => false
  | _ => true

/-! ### Values -/

/-- `members.get(key)`. -/
def get (members : Members) (key : String) : Json := (members.lookup (ofString key)).getD .null

/-- `value == word`. -/
def isWord (value : Json) (word : String) : Bool :=
  match value with
  | .str text => text = ofString word
  | _ => false

/-- `bool(value)`. -/
def truthy : Json → Bool
  | .null => false
  | .bool b => b
  | .int n => n ≠ 0
  | .float x => x.magnitude ≠ Binary64.zero
  | .str text => !text.isEmpty
  | .arr items => !items.isEmpty
  | .obj members => !members.isEmpty

def asObject (value : Json) (message : String) : Except Exc Members :=
  match value with
  | .obj members => .ok members
  | _ => .error (.valueError message)

/-- `table[value]`, where `value` is in `table`. -/
def lookUp (table : List (String × String)) (value : Json) : Except Exc (Option String) :=
  match value with
  | .arr _ | .obj _ => .error .unhashable
  | .str text => .ok ((table.find? fun entry => text = ofString entry.1).map Prod.snd)
  | _ => .ok none

/-- The children of a node, in their order. -/
def children : Json → List Json
  | .arr items => items
  | .obj members => members.map Prod.snd
  | _ => []

/-! ### The rule set -/

def uniqueObject (keys : List Text) : Except String Unit :=
  if keys.Nodup then .ok () else .error "Duplicate model JSON key"

def rejectConstant {F : Type} (_ : String) : Except String F := .error "Non-finite model JSON value"

def decisionHooks : Hooks Double where
  parseFloat := Double.ofLiteral
  parseConstant := rejectConstant
  pairs := uniqueObject

def exceedsLimits : Exc := .valueError "Model JSON structure exceeds limits"

/-- The loop of `bounded_shape`, with the nodes that may still be visited; the last of the stack comes first. -/
def shapeLoop : ℕ → List (Json × ℕ) → Except Exc Unit
  | _, [] => .ok ()
  | 0, _ :: _ => .error exceedsLimits
  | left + 1, (node, depth) :: stack =>
    if maxJsonDepth < depth then .error exceedsLimits
    else shapeLoop left (((children node).map fun child => (child, depth + 1)).reverse ++ stack)

def boundedShape (value : Json) : Except Exc Json := do
  shapeLoop maxJsonNodes [(value, 0)]
  pure value

/-- What `decision_from_text` raises in the place of what `json.loads` raises. -/
def malformed : Error → Exc
  | .decode | .recursion => .valueError "Malformed model decision JSON"
  | .hook message => .valueError message
  | .digits => .digits

def textRequired : Exc := .valueError "Bounded model decision text required"

def decisionFromText (python : Python) (text : Json) (maximumBytes : ℕ) : Except Exc Json :=
  match text with
  | .str text => do
    let size ← need (utf8Size text) .unicodeEncode
    ensure (1 ≤ size ∧ size ≤ maximumBytes) textRequired
    let value ← (loads python.readLimit decisionHooks text).mapError malformed
    let _ ← asObject value "Model decision must be an object"
    boundedShape value
  | _ => .error textRequired

/-! ### The envelopes -/

/-- The one choice of a list. -/
def oneChoice (choices : Json) : Except Exc Members :=
  match choices with
  | .arr choices => do
    ensure (choices.length = requiredChoices) (Exc.valueError "Exactly one model choice required")
    asObject (choices.headD .null) "Exactly one model choice required"
  | _ => .error (.valueError "Exactly one model choice required")

/-- What `parse_decision` takes from its envelope. -/
def choiceContent (response : Json) : Except Exc Json := do
  let response ← asObject response "Model response must be an object"
  let choice ← oneChoice (get response "choices")
  ensure (isWord (get choice "finish_reason") "stop") (Exc.valueError "Complete model response required")
  let message ← asObject (get choice "message") "Complete model response required"
  ensure (!(truthy (get message "refusal") || truthy (get message "tool_calls")))
    (Exc.valueError "Refusal or alternate tool-call envelope is not a JSON decision")
  pure (get message "content")

def parseDecision (python : Python) (response : Json) (maximumBytes : ℕ) : Except Exc Json := do
  let text ← choiceContent response
  decisionFromText python text maximumBytes

def anthropicStopRefused : List (String × String) :=
  [("refusal", "Model refused the request; not a JSON decision"),
   ("max_tokens", "Truncated model response; complete JSON decision required"),
   ("tool_use", "Alternate tool-call envelope is not a JSON decision"),
   ("pause_turn", "Paused model turn is not a complete JSON decision")]

def anthropicToolStopRefused : List (String × String) :=
  [("refusal", "Model refused the request; no tool call is executed"),
   ("max_tokens", "Truncated model response; a tool call may be incomplete"),
   ("pause_turn", "Paused model turn is not a complete tool call"),
   ("end_turn", "Model answered without a tool call; a decision is a tool call")]

/-- The content blocks of an Anthropic message that stopped as it must; both parsers of the envelope begin so. -/
def anthropicContent (refused : List (String × String)) (accepted : String) (response : Json) :
    Except Exc (List Json) := do
  let response ← asObject response "Model response must be an object"
  ensure (isWord (get response "type") "message") (Exc.valueError "Anthropic message envelope required")
  let stop := get response "stop_reason"
  match ← lookUp refused stop with
  | some message => .error (.valueError message)
  | none => do
    ensure (isWord stop accepted) (Exc.valueError "Complete model response required")
    match get response "content" with
    | .arr content => do
      ensure (content.length ≤ maxContentBlocks) (Exc.valueError "Bounded Anthropic content block list required")
      pure content
    | _ => .error (.valueError "Bounded Anthropic content block list required")

/-- The first block of a type. -/
def firstBlock (kind : String) (content : List Json) : Option Members :=
  content.findSome? fun
    | .obj block => if isWord (get block "type") kind then some block else none
    | _ => none

/-- What `parse_anthropic_decision` takes from its envelope. -/
def anthropicText (response : Json) : Except Exc Json := do
  let content ← anthropicContent anthropicStopRefused "end_turn" response
  let block ← need (firstBlock "text" content) textRequired
  pure (get block "text")

def parseAnthropicDecision (python : Python) (response : Json) (maximumBytes : ℕ) : Except Exc Json := do
  let text ← anthropicText response
  decisionFromText python text maximumBytes

/-- The text of a float; `allow_nan=False` refuses what is not finite. -/
def Python.floatText (python : Python) (x : Double) : Option Text :=
  if x.isFinite then some (ofString (python.repr x)) else none

/-- `json.dumps` of a tool input, unless it is too deep to be written. -/
def Python.written (python : Python) (value : Json) : Option Text :=
  if value.depth ≤ python.writeLimit then dumps python.floatText value else none

/-- The name of a tool, where its length is in bounds. -/
def toolName (name : Json) : Except Exc Text :=
  match name with
  | .str name => do
    ensure (1 ≤ name.length ∧ name.length ≤ maxToolNameChars) (Exc.valueError "Bounded tool name required")
    pure name
  | _ => .error (.valueError "Bounded tool name required")

/-- What `parse_anthropic_tool_call` does with its block. -/
def toolInput (python : Python) (block : Members) (maximumBytes : ℕ) : Except Exc (Text × Json) := do
  let name ← toolName (get block "name")
  let arguments := get block "input"
  let _ ← asObject arguments "Tool input must be an object"
  let size ← need ((python.written arguments).bind utf8Size) (Exc.valueError "Malformed tool input")
  ensure (size ≤ maximumBytes) (Exc.valueError "Tool input exceeds byte limit")
  let arguments ← boundedShape arguments
  pure (name, arguments)

def parseAnthropicToolCall (python : Python) (response : Json) (maximumBytes : ℕ) : Except Exc (Text × Json) := do
  let content ← anthropicContent anthropicToolStopRefused "tool_use" response
  let block ← need (firstBlock "tool_use" content) (Exc.valueError "Tool call required")
  toolInput python block maximumBytes

/-! ### What is raised -/

/-- Nothing but `ValueError` is raised. -/
def OnlyValueErrors {α : Type} (x : Except Exc α) : Prop := ∀ e, x = .error e → e.isValueError = true

section Raised

variable {α β : Type}

theorem onlyValueErrors_ok (a : α) : OnlyValueErrors (.ok a : Except Exc α) := nofun

theorem onlyValueErrors_error (e : Exc) : OnlyValueErrors (.error e : Except Exc α) ↔ e.isValueError = true :=
  ⟨fun h => h e rfl, fun h _ he => Except.error.inj he ▸ h⟩

theorem onlyValueErrors_bind {x : Except Exc α} {f : α → Except Exc β} (hx : OnlyValueErrors x)
    (hf : ∀ a, x = .ok a → OnlyValueErrors (f a)) : OnlyValueErrors (x >>= f) := by
  cases x with
  | error e => exact fun e' he => hx e' (Except.error.inj he ▸ rfl)
  | ok a => exact hf a rfl

theorem onlyValueErrors_ensure {c : Prop} [Decidable c] {e : Exc} (he : e.isValueError = true) :
    OnlyValueErrors (ensure c e) := by
  unfold ensure
  split_ifs
  · exact onlyValueErrors_ok ()
  · exact (onlyValueErrors_error e).2 he

theorem onlyValueErrors_need {x : Option α} {e : Exc} (he : e.isValueError = true) : OnlyValueErrors (need x e) := by
  cases x with
  | none => exact (onlyValueErrors_error e).2 he
  | some a => exact onlyValueErrors_ok a

theorem onlyValueErrors_mapError {E : Type} {x : Except E α} {f : E → Exc} (h : ∀ e, (f e).isValueError = true) :
    OnlyValueErrors (x.mapError f) := by
  cases x with
  | error e => exact (onlyValueErrors_error _).2 (h e)
  | ok a => exact onlyValueErrors_ok a

theorem onlyValueErrors_asObject (value : Json) (message : String) : OnlyValueErrors (asObject value message) := by
  unfold asObject
  split
  · exact onlyValueErrors_ok _
  · exact (onlyValueErrors_error _).2 rfl

theorem onlyValueErrors_shapeLoop (left : ℕ) (stack : List (Json × ℕ)) : OnlyValueErrors (shapeLoop left stack) := by
  induction left generalizing stack with
  | zero =>
    cases stack with
    | nil => exact onlyValueErrors_ok ()
    | cons p stack => exact (onlyValueErrors_error _).2 rfl
  | succ left ih =>
    cases stack with
    | nil => exact onlyValueErrors_ok ()
    | cons p stack =>
      rw [shapeLoop]
      split_ifs
      · exact (onlyValueErrors_error _).2 rfl
      · exact ih _

theorem onlyValueErrors_boundedShape (value : Json) : OnlyValueErrors (boundedShape value) :=
  onlyValueErrors_bind (onlyValueErrors_shapeLoop _ _) fun _ _ => onlyValueErrors_ok _

theorem isValueError_malformed (e : Error) : (malformed e).isValueError = true := by
  cases e <;> rfl

theorem onlyValueErrors_decisionFromText (python : Python) (text : Json) (maximumBytes : ℕ) :
    OnlyValueErrors (decisionFromText python text maximumBytes) := by
  unfold decisionFromText
  split
  · refine onlyValueErrors_bind (onlyValueErrors_need rfl) fun size _ => ?_
    refine onlyValueErrors_bind (onlyValueErrors_ensure rfl) fun _ _ => ?_
    refine onlyValueErrors_bind (onlyValueErrors_mapError isValueError_malformed) fun value _ => ?_
    exact onlyValueErrors_bind (onlyValueErrors_asObject _ _) fun _ _ => onlyValueErrors_boundedShape value
  · exact (onlyValueErrors_error _).2 rfl

theorem onlyValueErrors_oneChoice (choices : Json) : OnlyValueErrors (oneChoice choices) := by
  unfold oneChoice
  split
  · exact onlyValueErrors_bind (onlyValueErrors_ensure rfl) fun _ _ => onlyValueErrors_asObject _ _
  · exact (onlyValueErrors_error _).2 rfl

theorem onlyValueErrors_choiceContent (response : Json) : OnlyValueErrors (choiceContent response) := by
  refine onlyValueErrors_bind (onlyValueErrors_asObject _ _) fun response _ => ?_
  refine onlyValueErrors_bind (onlyValueErrors_oneChoice _) fun choice _ => ?_
  refine onlyValueErrors_bind (onlyValueErrors_ensure rfl) fun _ _ => ?_
  refine onlyValueErrors_bind (onlyValueErrors_asObject _ _) fun message _ => ?_
  exact onlyValueErrors_bind (onlyValueErrors_ensure rfl) fun _ _ => onlyValueErrors_ok _

theorem onlyValueErrors_parseDecision (python : Python) (response : Json) (maximumBytes : ℕ) :
    OnlyValueErrors (parseDecision python response maximumBytes) :=
  onlyValueErrors_bind (onlyValueErrors_choiceContent response) fun text _ =>
    onlyValueErrors_decisionFromText python text maximumBytes

theorem onlyValueErrors_toolName (name : Json) : OnlyValueErrors (toolName name) := by
  unfold toolName
  split
  · exact onlyValueErrors_bind (onlyValueErrors_ensure rfl) fun _ _ => onlyValueErrors_ok _
  · exact (onlyValueErrors_error _).2 rfl

theorem onlyValueErrors_toolInput (python : Python) (block : Members) (maximumBytes : ℕ) :
    OnlyValueErrors (toolInput python block maximumBytes) := by
  refine onlyValueErrors_bind (onlyValueErrors_toolName _) fun name _ => ?_
  refine onlyValueErrors_bind (onlyValueErrors_asObject _ _) fun _ _ => ?_
  refine onlyValueErrors_bind (onlyValueErrors_need rfl) fun size _ => ?_
  refine onlyValueErrors_bind (onlyValueErrors_ensure rfl) fun _ _ => ?_
  exact onlyValueErrors_bind (onlyValueErrors_boundedShape _) fun _ _ => onlyValueErrors_ok _

/-- A value that has a hash. -/
def hashable : Json → Bool
  | .arr _ | .obj _ => false
  | _ => true

/-- An Anthropic message whose `stop_reason` cannot be looked up. -/
def StopUnhashable (response : Json) : Prop :=
  ∃ members, response = .obj members ∧ isWord (get members "type") "message" = true ∧
    hashable (get members "stop_reason") = false

theorem lookUp_of_hashable (table : List (String × String)) {value : Json} (h : hashable value = true) :
    ∃ found, lookUp table value = .ok found := by
  cases value with
  | arr items => cases h
  | obj members => cases h
  | _ => exact ⟨_, rfl⟩

theorem lookUp_of_not_hashable {table : List (String × String)} {value : Json} (h : hashable value = false) :
    lookUp table value = .error .unhashable := by
  cases value with
  | arr items => rfl
  | obj members => rfl
  | _ => cases h

/-- The envelope raises something else exactly where the `stop_reason` has no hash. -/
theorem onlyValueErrors_anthropicContent (refused : List (String × String)) (accepted : String) (response : Json) :
    OnlyValueErrors (anthropicContent refused accepted response) ↔ ¬StopUnhashable response := by
  constructor
  · rintro h ⟨members, rfl, htype, hstop⟩
    have hraised : anthropicContent refused accepted (.obj members) = .error .unhashable := by
      simp only [anthropicContent, asObject, bind, Except.bind, ensure, if_pos htype, lookUp_of_not_hashable hstop]
    cases h _ hraised
  · intro h
    refine onlyValueErrors_bind (onlyValueErrors_asObject _ _) fun members hmembers => ?_
    refine onlyValueErrors_bind (onlyValueErrors_ensure rfl) fun _ htype => ?_
    have hresponse : response = .obj members := by
      cases response with
      | obj members' => exact congrArg Value.obj (Except.ok.inj hmembers)
      | _ => cases hmembers
    have hstop : hashable (get members "stop_reason") = true := by
      by_contra hnot
      exact h ⟨members, hresponse, ensure_eq_ok.1 htype, Bool.not_eq_true _ ▸ hnot⟩
    obtain ⟨found, hfound⟩ := lookUp_of_hashable refused hstop
    refine onlyValueErrors_bind (hfound ▸ onlyValueErrors_ok found) fun found _ => ?_
    split
    · exact (onlyValueErrors_error _).2 rfl
    · refine onlyValueErrors_bind (onlyValueErrors_ensure rfl) fun _ _ => ?_
      split
      · exact onlyValueErrors_bind (onlyValueErrors_ensure rfl) fun _ _ => onlyValueErrors_ok _
      · exact (onlyValueErrors_error _).2 rfl

theorem onlyValueErrors_of_bind {x : Except Exc α} {f : α → Except Exc β} (h : OnlyValueErrors (x >>= f)) :
    OnlyValueErrors x := by
  rintro e rfl
  exact h e rfl

theorem onlyValueErrors_parseAnthropicDecision (python : Python) (response : Json) (maximumBytes : ℕ) :
    OnlyValueErrors (parseAnthropicDecision python response maximumBytes) ↔ ¬StopUnhashable response := by
  rw [← onlyValueErrors_anthropicContent anthropicStopRefused "end_turn"]
  constructor
  · intro h
    exact onlyValueErrors_of_bind (onlyValueErrors_of_bind h)
  · intro h
    refine onlyValueErrors_bind (onlyValueErrors_bind h fun content _ => ?_) fun text _ =>
      onlyValueErrors_decisionFromText python text maximumBytes
    exact onlyValueErrors_bind (onlyValueErrors_need rfl) fun _ _ => onlyValueErrors_ok _

theorem onlyValueErrors_parseAnthropicToolCall (python : Python) (response : Json) (maximumBytes : ℕ) :
    OnlyValueErrors (parseAnthropicToolCall python response maximumBytes) ↔ ¬StopUnhashable response := by
  rw [← onlyValueErrors_anthropicContent anthropicToolStopRefused "tool_use"]
  constructor
  · exact onlyValueErrors_of_bind
  · intro h
    refine onlyValueErrors_bind h fun content _ => ?_
    exact onlyValueErrors_bind (onlyValueErrors_need rfl) fun block _ =>
      onlyValueErrors_toolInput python block maximumBytes

/-- Each of the parsers returns or raises `ValueError`. -/
def Total (python : Python) (response : Json) (maximumBytes : ℕ) : Prop :=
  OnlyValueErrors (parseDecision python response maximumBytes) ∧
    OnlyValueErrors (parseAnthropicDecision python response maximumBytes) ∧
    OnlyValueErrors (parseAnthropicToolCall python response maximumBytes)

/-- The parsers are total up to `ValueError` exactly where the `stop_reason` of a message has a hash. -/
theorem valueError_iff (python : Python) (response : Json) (maximumBytes : ℕ) :
    Total python response maximumBytes ↔ ¬StopUnhashable response := by
  constructor
  · intro h
    exact (onlyValueErrors_parseAnthropicDecision python response maximumBytes).1 h.2.1
  · intro h
    refine ⟨onlyValueErrors_parseDecision python response maximumBytes, ?_, ?_⟩
    · exact (onlyValueErrors_parseAnthropicDecision python response maximumBytes).2 h
    · exact (onlyValueErrors_parseAnthropicToolCall python response maximumBytes).2 h

/-- `{"type": "message", "stop_reason": []}`. -/
def listedStop : Json :=
  .obj [(ofString "type", .str (ofString "message")), (ofString "stop_reason", .arr [])]

theorem not_total_listedStop : ¬∀ python : Python, Total python listedStop maxDecisionBytes := by
  intro h
  have hraised : parseAnthropicDecision ⟨1000, 1000, fun _ => "0.0", by decide⟩ listedStop maxDecisionBytes =
      .error .unhashable := rfl
  have := (h ⟨1000, 1000, fun _ => "0.0", by decide⟩).2.1 _ hraised
  cases this

end Raised

end AgentPlatform.Model
