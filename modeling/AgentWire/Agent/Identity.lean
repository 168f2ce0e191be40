import AgentWire.Json.Printer
import AgentWire.Json.Record

/-!
# Agents — who sends a reply

An agent has a locale, a name, a version and an operating system. `Overrides` replace some of
these and leave the others.
-/

namespace AgentWire

/-- The identity of an agent. -/
structure Agent where
  lang : String := ""
  name : String := ""
  version : String := ""
  os : String := ""
  osVersion : String := ""
deriving DecidableEq, Repr

namespace Agent

instance : Inhabited Agent := ⟨{}⟩

/-- The version of this program. -/
def programVersion : String := "0.1.0"

/-- The name of this program. -/
def programName : String := "agent-message"

/-- The identity of this program on its platform. The version of the operating system is a
    matter of the machine and stays empty. -/
def builtIn : Agent where
  lang := "en-US"
  name := programName
  version := programVersion
  os := "linux"

/-- New values for some fields of an identity. -/
structure Overrides where
  lang : Option String := none
  name : Option String := none
  version : Option String := none
  os : Option String := none
  osVersion : Option String := none
deriving DecidableEq, Repr

/-- The identity with the fields replaced that have a new value. -/
def override (a : Agent) (o : Overrides) : Agent where
  lang := o.lang.getD a.lang
  name := o.name.getD a.name
  version := o.version.getD a.version
  os := o.os.getD a.os
  osVersion := o.osVersion.getD a.osVersion

/-- An identity as a value. -/
def toJson (a : Agent) : Json :=
  .object
    [("lang", .string a.lang), ("name", .string a.name), ("version", .string a.version),
      ("os", .string a.os), ("osver", .string a.osVersion)]

/-- Reads an identity. -/
def decoder : Json.Decoder Agent :=
  (Json.Record.ofDefaults "AgentInfo" {}
    [.of "lang" .text (fun a x => { a with lang := x }),
      .of "name" .text (fun a x => { a with name := x }),
      .of "version" .text (fun a x => { a with version := x }),
      .of "os" .text (fun a x => { a with os := x }),
      .of "osver" .text (fun a x => { a with osVersion := x })]).decoder

end Agent

end AgentWire
