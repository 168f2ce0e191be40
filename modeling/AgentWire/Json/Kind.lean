import AgentWire.Json.Basic
import AgentWire.Json.Fault

/-!
# Kinds — the six sorts of JSON value

What a message says it found where it wanted something else.
-/

namespace AgentWire.Json

/-- The sort of a JSON value. -/
inductive Kind where
  | null
  | boolean
  | number
  | string
  | array
  | object
deriving DecidableEq, Repr

/-- The sort of a value. -/
def kind : Json → Kind
  | .null => .null
  | .bool _ => .boolean
  | .number _ => .number
  | .string _ => .string
  | .array _ => .array
  | .object _ => .object

/-- How a value is described where another kind of value was wanted. -/
def found : Json → Found
  | .null => .null
  | .bool b => .bool b
  | .number n => .number n
  | .string text => .text text
  | .array _ => .sequence
  | .object _ => .map

/-- A sort of value, with its article. -/
def Kind.describe : Kind → String
  | .null => "null"
  | .boolean => "a boolean"
  | .number => "a number"
  | .string => "a string"
  | .array => "an array"
  | .object => "an object"

end AgentWire.Json
