import AgentPlatform.Json

/-!
# The tool registry

`validate_schema` of `tools.py` and the parts of a `Tool` the engine reads. The depth guard of
`validate_schema` is the bound of its recursion: `depth` counts down from `MAX_SCHEMA_DEPTH + 1`.
-/

namespace AgentPlatform.Engine

open Outcome

/-- `RISK_LEVELS`. -/
inductive Risk
  | read
  | write
  | destructive
  | physical
  deriving DecidableEq, Repr

def Risk.text : Risk → String
  | read => "read"
  | write => "write"
  | destructive => "destructive"
  | physical => "physical"

/-- The type an argument schema asks for, with its bounds. -/
inductive SchemaType
  | object
  | array
  | string
  | integer
  | boolean
  deriving DecidableEq, Repr

/-- An argument schema, with the defaults of its bounds filled in. -/
inductive Schema
  | mk (type : SchemaType) (choices : Option (List Json)) (properties : List (String × Schema))
      (required : List String) (items : Option Schema) (minItems maxItems minLength maxLength : ℕ)
      (minimum maximum : ℤ)

def maxSchemaDepth : ℕ := 64

def maxArgumentBytes : ℕ := 20000

/-- `isinstance(value, allowed[typ])`; a boolean is no integer. -/
def SchemaType.accepts : SchemaType → Json → Bool
  | object, .obj _ | array, .arr _ | string, .str _ | integer, .int _ | boolean, .bool _ => true
  | _, _ => false

/-- `validate_schema`. -/
def validateSchema : ℕ → Json → Schema → Except Err Unit
  | 0, _, _ => .error (.valueError "Schema nesting too deep")
  | depth + 1, value, .mk type choices properties required items minItems maxItems minLength
      maxLength minimum maximum => do
    ensure (type.accepts value = true) (.valueError "Schema type mismatch")
    ensure (choices.all (fun cs => cs.any value.same) = true) (.valueError "Value outside enum")
    match value with
    | .obj members => do
      ensure (value.encode.utf8ByteSize ≤ maxArgumentBytes) (.valueError "Arguments too large")
      ensure ((members.all fun m => properties.any fun p => p.1 = m.1) = true ∧
          (required.all fun key => members.any fun m => m.1 = key) = true)
        (.valueError "Schema fields mismatch")
      members.forM fun m =>
        match properties.find? fun p => p.1 = m.1 with
        | some p => validateSchema depth m.2 p.2
        | none => .ok ()
    | .arr values => do
      ensure (minItems ≤ values.length ∧ values.length ≤ maxItems) (.valueError "Array length")
      values.forM fun v =>
        match items with
        | some schema => validateSchema depth v schema
        | none => .error (.lookupError "'items'")
    | .str text =>
      ensure (minLength ≤ text.length ∧ text.length ≤ maxLength) (.valueError "String length")
    | .int n => ensure (minimum ≤ n ∧ n ≤ maximum) (.valueError "Integer bounds")
    | _ => .ok ()

/-- What the engine reads of a registered `Tool`. -/
structure Tool where
  name : String
  risk : Risk
  schema : Schema
  runner : Bool

/-- `Tool.validate`. -/
def Tool.validate (tool : Tool) (args : Json) : Except Err Unit :=
  validateSchema (maxSchemaDepth + 1) args tool.schema

/-- `Registry`: the tools in the order of their registration. -/
abbrev Registry := List Tool

/-- `Registry.get`. -/
def Registry.get (registry : Registry) (name : String) : Except Err Tool :=
  need (registry.find? fun t => t.name = name) (.lookupError "Unknown executable tool")

end AgentPlatform.Engine
