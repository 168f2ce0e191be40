import AgentWire.Agent.Identity
import AgentWire.Fault
import AgentWire.Yaml.Node

/-!
# Agent files — an identity kept in a file

The file is YAML when its name ends in `.yaml` or `.yml`, in letters of either case, and JSON
otherwise. Fields that the file does not mention stay empty; others than those of an identity
say nothing, but in YAML a field of an identity must hold a scalar and must not come twice.
-/

namespace AgentWire.Agent

-- ── Names of files ────────────────────────────────────────────────────────────────

/-- The last part of a path, slashes at its end aside. -/
def fileName (path : List Char) : List Char :=
  let trimmed := (path.reverse.dropWhile (· == '/'))
  (trimmed.takeWhile (· != '/')).reverse

/-- What follows the last dot of a file's name. A name has no such part when its only dot comes
    first. -/
def extension? (path : String) : Option String :=
  let name := fileName path.toList
  let ending := (name.reverse.takeWhile (· != '.')).reverse
  let before := name.length - ending.length
  if name = ['.', '.'] ∨ before ≤ 1 then none else some (String.ofList ending)

/-- The path names a YAML file. -/
def isYamlPath (path : String) : Bool :=
  match extension? path with
  | some ending => ending.toLower == "yaml" || ending.toLower == "yml"
  | none => false

-- ── Contents ──────────────────────────────────────────────────────────────────────

/-- The identity with one of its fields set, if the name is that of a field. -/
def setField? (a : Agent) (name : String) (text : String) : Option Agent :=
  match name with
  | "lang" => some { a with lang := text }
  | "name" => some { a with name := text }
  | "version" => some { a with version := text }
  | "os" => some { a with os := text }
  | "osver" => some { a with osVersion := text }
  | _ => none

/-- Takes the entries of a mapping into an identity. Every key must be a scalar, and so must the
    value of a field, which must not come twice. -/
def takeEntries (a : Agent) (seen : List String) : List (Yaml.Node × Yaml.Node) → Option Agent
  | [] => some a
  | (key, value) :: rest =>
    match key.text? with
    | none => none
    | some name =>
      if (a.setField? name "").isNone then takeEntries a seen rest
      else
        match value.text?.bind (a.setField? name) with
        | some a => if name ∈ seen then none else takeEntries a (name :: seen) rest
        | none => none

/-- The identity that a YAML text holds. One without a document, or whose document is left out,
    mentions no field. -/
def ofYaml? (text : String) : Option Agent :=
  match Yaml.parse? text with
  | some none | some (some .empty) => some {}
  | some (some (.mapping entries)) => takeEntries {} [] entries
  | _ => none

/-- The identity in the contents of a file of a given path. -/
def parseFile (path contents : String) : Except Fault Agent :=
  if isYamlPath path then
    match ofYaml? contents with
    | some agent => .ok agent
    | none => .error (.malformed .badAgentYaml)
  else
    (Json.decode decoder (Symbol.ofString contents)).mapError fun fault =>
      .malformed (.badAgentJson fault)

end AgentWire.Agent
