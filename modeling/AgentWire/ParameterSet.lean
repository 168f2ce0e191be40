import AgentWire.Fault
import AgentWire.Json.Record
import AgentWire.Reference

/-!
# Parameter sets — the values that references select

A parameter has a list of values; a reference selects one of them by its index, or the first.
A set is read from the section of a message, where a bare string counts as a list of one, and
can be completed with the defaults that a document declares under
`parameters.<name>.default`. Values that are there already always win over defaults.
-/

namespace AgentWire

/-- The values of every parameter, by name. -/
structure ParameterSet where
  values : NameMap (List String)
deriving DecidableEq

namespace ParameterSet

/-- No parameters. -/
def empty : ParameterSet := ⟨NameMap.empty⟩

instance : Inhabited ParameterSet := ⟨empty⟩

/-- The set with `name` set to `values`. -/
def insert (p : ParameterSet) (name : String) (values : List String) : ParameterSet :=
  ⟨p.values.insert name values⟩

/-- All values of a parameter. -/
def get? (p : ParameterSet) (name : String) : Option (List String) :=
  p.values.get? name

/-- The value that a name and an index select: the first where there is no index. -/
def selectAt? (p : ParameterSet) (name : String) (index : Option UInt64) : Option String :=
  (p.get? name).bind fun values => values[(index.getD 0).toNat]?

/-- The value that a reference selects. -/
def select? (p : ParameterSet) (reference : Reference) : Option String :=
  p.selectAt? reference.name reference.index

/-- The number of parameters. -/
def size (p : ParameterSet) : Nat :=
  p.values.size

/-- Whether there are no parameters. -/
def isEmpty (p : ParameterSet) : Bool :=
  p.values.isEmpty

/-- The parameters in the order of their names. -/
def toList (p : ParameterSet) : List (String × List String) :=
  p.values.entries

/-- The set of a list of parameters; of several with one name the last counts. -/
def ofList (parameters : List (String × List String)) : ParameterSet :=
  ⟨NameMap.ofList parameters⟩

-- ── The section of a message ──────────────────────────────────────────────────────

/-- The values of one parameter of a section. -/
def readValues (name : String) : Json → Except Malformation (List String)
  | .string text => .ok [text]
  | .array items =>
    match Json.strings? items with
    | some texts => .ok texts
    | none => .error (.parameterItems name)
  | other => .error (.parameterKind name other.kind)

/-- Reads the parameters of a section into a set, up to the first that is refused. -/
def readSection (p : ParameterSet) : List (String × Json) → Except Malformation ParameterSet
  | [] => .ok p
  | (name, value) :: rest =>
    match readValues name value with
    | .error cause => .error cause
    | .ok values => readSection (p.insert name values) rest

/-- The set that a section of a message holds. -/
def ofSection (members : List (String × Json)) : Except Malformation ParameterSet :=
  readSection empty members

/-- Reads a set from where a section stands in a text. -/
def decoder : Json.Decoder ParameterSet :=
  Json.Decoder.members.checked fun members =>
    (ofSection members).mapError fun cause => .refused (Fault.malformed cause).message

/-- The members of the section that a set is written as. -/
def sectionMembers (p : ParameterSet) : List (String × Json) :=
  p.toList.map fun parameter => (parameter.1, Json.ofStrings parameter.2)

/-- A set as a value: an object of lists in the order of the names. -/
def toJson (p : ParameterSet) : Json :=
  .object p.sectionMembers

-- ── Defaults of a document ────────────────────────────────────────────────────────

/-- The values of a default, if it is a string or a list of strings. -/
def defaultValues? : Json → Option (List String)
  | .string text => some [text]
  | .array items => Json.strings? items
  | _ => none

/-- The default that a declaration holds. -/
def declaredDefault? (declaration : Json) : Option (List String) :=
  (declaration.member? "default").bind defaultValues?

/-- The parameters that a document declares. -/
def declarations (content : Json) : List (String × Json) :=
  ((content.member? "parameters").bind Json.members?).getD []

/-- The set with one declared parameter, unless it is there already or has no default. -/
def addDefault (p : ParameterSet) (declared : String × Json) : ParameterSet :=
  if p.values.contains declared.1 then p
  else
    match declaredDefault? declared.2 with
    | some values => p.insert declared.1 values
    | none => p

/-- The set completed with the defaults that a document declares. -/
def withDefaults (p : ParameterSet) (content : Json) : ParameterSet :=
  (declarations content).foldl addDefault p

end ParameterSet

end AgentWire
