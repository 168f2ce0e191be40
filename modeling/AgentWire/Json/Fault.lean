import AgentWire.Json.Number
import AgentWire.Text.Quoted

/-!
# Faults of reading JSON — why a text is no value, or not the value wanted

`TextFault` says what is wrong with the text; a `Fault` is one of those, or says how a value
differs from the kind of value that was wanted. The causes are data; `message` has the words.
-/

namespace AgentWire.Json

/-- What is wrong with a text that is no JSON. -/
inductive TextFault where
  | endInValue
  | endInList
  | endInObject
  | endInString
  | noValue
  | noWord
  | noColon
  | noCommaInList
  | noCommaInObject
  | trailingComma
  | keyNotString
  | trailingText
  | badNumber
  | numberTooLarge
  | badEscape
  | brokenSurrogatePair
  | loneSurrogate
  | bareControl
  | badUnicode
  | tooDeep
deriving DecidableEq, Repr

namespace TextFault

/-- The words for what is wrong with a text. -/
def message : TextFault → String
  | endInValue => "EOF while parsing a value"
  | endInList => "EOF while parsing a list"
  | endInObject => "EOF while parsing an object"
  | endInString => "EOF while parsing a string"
  | noValue => "expected value"
  | noWord => "expected ident"
  | noColon => "expected `:`"
  | noCommaInList => "expected `,` or `]`"
  | noCommaInObject => "expected `,` or `\x7d`"
  | trailingComma => "trailing comma"
  | keyNotString => "key must be a string"
  | trailingText => "trailing characters"
  | badNumber => "invalid number"
  | numberTooLarge => "number out of range"
  | badEscape => "invalid escape"
  | brokenSurrogatePair => "unexpected end of hex escape"
  | loneSurrogate => "lone leading surrogate in hex escape"
  | bareControl => "control character (\\u0000-\\u001F) found while parsing a string"
  | badUnicode => "invalid unicode code point"
  | tooDeep => "recursion limit exceeded"

end TextFault

/-- A value that was found where another kind of value was wanted. -/
inductive Found where
  | null
  | bool (b : Bool)
  | number (n : Number)
  | text (text : String)
  | sequence
  | map
deriving DecidableEq

namespace Found

/-- How a value that was found is described. -/
def describe : Found → String
  | null => "null"
  | bool true => "boolean `true`"
  | bool false => "boolean `false`"
  | number (.integer n _) => "integer `" ++ String.ofList (Numeral.ofInt n) ++ "`"
  | number (.double x) => "floating point `" ++ String.ofList (renderDouble x) ++ "`"
  | text t => "string " ++ Quoted.quote t
  | sequence => "sequence"
  | map => "map"

end Found

/-- The kind of value that was wanted. -/
inductive Wanted where
  | text
  | map
  | signed32
  | unsigned32
  | unit
  | variant
  | record (name : String)
deriving DecidableEq, Repr

namespace Wanted

/-- How a kind of value is described. -/
def describe : Wanted → String
  | text => "a string"
  | map => "a map"
  | signed32 => "i32"
  | unsigned32 => "u32"
  | unit => "unit"
  | variant => "string or map"
  | record name => "struct " ++ name

end Wanted

/-- Why a text or a value could not be read as what was wanted. -/
inductive Fault where
  /-- The text is no JSON. -/
  | text (cause : TextFault)
  /-- A value of another kind stands there. -/
  | wrongKind (found : Found) (wanted : Wanted)
  /-- An integer stands there that the wanted kind does not hold. -/
  | outOfRange (n : Int) (wanted : Wanted)
  | missingField (name : String)
  | repeatedField (name : String)
  /-- An object that names a choice has no member, or more than one. -/
  | notOneMember
  | unknownVariant (name : String) (known : List String)
  /-- A record written as a list stops before a field that it needs. -/
  | tooShort (length : Nat) (wanted : Wanted) (fields : Nat)
  /-- The value was read, and refused for a reason of its own. -/
  | refused (reason : String)
deriving DecidableEq

namespace Fault

/-- A name in backquotes. -/
def ticked (name : String) : String :=
  "`" ++ name ++ "`"

/-- The words for a fault. -/
def message : Fault → String
  | text cause => cause.message
  | wrongKind found wanted =>
    "invalid type: " ++ found.describe ++ ", expected " ++ wanted.describe
  | outOfRange n wanted =>
    "invalid value: integer `" ++ String.ofList (Numeral.ofInt n) ++ "`, expected " ++
      wanted.describe
  | missingField name => "missing field " ++ ticked name
  | repeatedField name => "duplicate field " ++ ticked name
  | notOneMember => "invalid value: map, expected map with a single key"
  | unknownVariant name known =>
    "unknown variant " ++ ticked name ++ ", expected one of " ++
      String.intercalate ", " (known.map ticked)
  | tooShort length wanted fields =>
    "invalid length " ++ String.ofList (Numeral.ofNat length) ++ ", expected " ++
      wanted.describe ++ " with " ++ String.ofList (Numeral.ofNat fields) ++ " elements"
  | refused reason => reason

end Fault

end AgentWire.Json
