import AgentWire.Agent.Identity

/-!
# Arguments — what the command line asks for

An argument is an option with two hyphens, a group of letters behind one, the escape `--`, or a
word. Options are read from left to right up to the first word, which names a verb; the
options of the verb follow. An option's value stands behind `=`, or it is the next argument,
which must be a word. Such a word is judged late: when the next option of its level is met, or
when everything else has been read. So asking for help with the verb `help` comes before it.

**Stops.** Help and the version are shown as soon as they are met. Everything that fits no form
is misuse: an unknown option, one that is given twice at its level, a value that is missing or
not admitted, a word too many.
-/

namespace AgentWire.CommandLine

-- ── Single arguments ──────────────────────────────────────────────────────────────

/-- How an argument reads. -/
inductive Argument where
  /-- `--name`, or `--name=value`. -/
  | long (name : String) (value : Option String)
  /-- `-abc`. -/
  | letters (letters : List Char)
  /-- `--`: only words follow. -/
  | escape
  | word (text : String)
deriving DecidableEq, Repr

namespace Argument

/-- Cuts `name=value` at its first equals sign. -/
def cut (text : List Char) : String × Option String :=
  (String.ofList (text.takeWhile (· ≠ '=')),
    match text.dropWhile (· ≠ '=') with
    | [] => none
    | _ :: value => some (String.ofList value))

/-- The reading of an argument. -/
def ofText (text : String) : Argument :=
  match text.toList with
  | ['-', '-'] => escape
  | '-' :: '-' :: rest => long (cut rest).1 (cut rest).2
  | '-' :: c :: rest => letters (c :: rest)
  | _ => word text

end Argument

-- ── Options ───────────────────────────────────────────────────────────────────────

/-- Why there is nothing to perform. -/
inductive Stop where
  /-- The help on a verb is wanted, or that on the program. -/
  | help (verb : Option String)
  | version
  | misuse
deriving DecidableEq, Repr

/-- What an option wants. -/
inductive Want where
  /-- No value; the option ends the reading. -/
  | stop (s : Stop)
  /-- No value. -/
  | nothing
  | text
  /-- A text that is not empty. -/
  | path
  | oneOf (choices : List String)
deriving DecidableEq, Repr

/-- Whether a value is one that is wanted. -/
def Want.admits : Want → String → Bool
  | stop _, _ | nothing, _ => false
  | text, _ => true
  | path, value => value ≠ ""
  | oneOf choices, value => value ∈ choices

/-- An option: its name, a letter that stands for it, and what it wants. -/
structure Form where
  name : String
  letter : Option Char := none
  want : Want
deriving DecidableEq, Repr

/-- The options met at one level with their values, and the one whose value is not judged
    yet. -/
structure Reading where
  settings : List (String × String) := []
  pending : Option (Form × String) := none
deriving Repr

namespace Reading

/-- The value of an option. -/
def get? (r : Reading) (name : String) : Option String :=
  r.settings.lookup name

/-- Whether an option was met. -/
def has (r : Reading) (name : String) : Bool :=
  (r.get? name).isSome

/-- Stores the value of an option, which must not be there yet. -/
def store (r : Reading) (name value : String) : Except Stop Reading :=
  if r.has name then .error .misuse
  else .ok { r with settings := (name, value) :: r.settings }

/-- Judges the value that is pending. -/
def settle (r : Reading) : Except Stop Reading :=
  match r.pending with
  | none => .ok r
  | some (form, value) =>
    if form.want.admits value then { r with pending := none }.store form.name value
    else .error .misuse

/-- Meets an option that has its value with it, or has none. -/
def meet (r : Reading) (form : Form) (value : Option String) : Except Stop Reading := do
  let r ← r.settle
  match form.want, value with
  | .stop s, none => .error s
  | .nothing, none => r.store form.name ""
  | _, none => .error .misuse
  | want, some value =>
    if want.admits value then r.store form.name value else .error .misuse

/-- Meets an option, or a word for it, whose value is judged later. -/
def await (r : Reading) (form : Form) (value : String) : Except Stop Reading := do
  return { ← r.settle with pending := some (form, value) }

end Reading

/-- Meets the options of a group of letters. -/
def readLetters (forms : List Form) (r : Reading) : List Char → Except Stop Reading
  | [] => .ok r
  | c :: rest => do
    match forms.find? (·.letter = some c) with
    | some form => readLetters forms (← r.meet form none) rest
    | none => .error .misuse

/-- An option takes the next word as its value. -/
def Form.takesWord (form : Form) : Bool :=
  match form.want with
  | .stop _ | .nothing => false
  | .text | .path | .oneOf _ => true

/-- Reads options up to a word that is not the value of one, or to the escape. -/
def readOptions (forms : List Form) (r : Reading) :
    List String → Except Stop (Reading × List String)
  | [] => .ok (r, [])
  | arg :: rest => do
    match Argument.ofText arg with
    | .word _ | .escape => return (r, arg :: rest)
    | .letters letters => readOptions forms (← readLetters forms r letters) rest
    | .long name value =>
      match forms.find? (·.name = name) with
      | none => .error .misuse
      | some form =>
        if value.isNone && form.takesWord then
          match rest with
          | [] => .error .misuse
          | next :: rest =>
            match Argument.ofText next with
            | .word text => readOptions forms (← r.await form text) rest
            | _ => .error .misuse
        else readOptions forms (← r.meet form value) rest

-- ── Commands ──────────────────────────────────────────────────────────────────────

/-- The shells for which there are completions. -/
inductive Shell where
  | bash
  | elvish
  | fish
  | powershell
  | zsh
deriving DecidableEq, Repr

namespace Shell

/-- Every shell. -/
def all : List Shell :=
  [bash, elvish, fish, powershell, zsh]

/-- The name of a shell. -/
def name : Shell → String
  | bash => "bash"
  | elvish => "elvish"
  | fish => "fish"
  | powershell => "powershell"
  | zsh => "zsh"

/-- The shell of a name. -/
def ofName? (name : String) : Option Shell :=
  all.find? (·.name = name)

end Shell

/-- What the program can be told to do. -/
inductive Verb where
  | parse
  | reply
  | references
  | completions
deriving DecidableEq, Repr

namespace Verb

/-- Every verb. -/
def all : List Verb :=
  [parse, reply, references, completions]

/-- The name of a verb. -/
def name : Verb → String
  | parse => "parse"
  | reply => "reply"
  | references => "references"
  | completions => "completions"

/-- The verb of a name. -/
def ofName? (name : String) : Option Verb :=
  all.find? (·.name = name)

/-- The options that the program and every verb know. -/
def sharedForms (verb : Option String) : List Form :=
  [⟨"color", none, .oneOf ["auto", "always", "never"]⟩, ⟨"verbose", some 'v', .nothing⟩,
    ⟨"help", some 'h', .stop (.help verb)⟩]

/-- The options of a verb that it does not share with the others. -/
def ownForms : Verb → List Form
  | parse | references => [⟨"message", none, .path⟩, ⟨"json", none, .nothing⟩]
  | reply =>
    [⟨"results", none, .path⟩, ⟨"agent", none, .path⟩, ⟨"agent-name", none, .text⟩,
      ⟨"agent-version", none, .text⟩, ⟨"lang", none, .text⟩, ⟨"os", none, .text⟩,
      ⟨"os-version", none, .text⟩, ⟨"at", none, .text⟩, ⟨"json", none, .nothing⟩]
  | completions => []

/-- The options of a verb. -/
def forms (verb : Verb) : List Form :=
  verb.ownForms ++ sharedForms (some verb.name)

/-- The word that a verb wants, under a name for it. -/
def wordForm? : Verb → Option Form
  | completions => some ⟨"SHELL", none, .oneOf (Shell.all.map Shell.name)⟩
  | parse | reply | references => none

/-- Reads the arguments of a verb. -/
def readArguments (verb : Verb) (args : List String) : Except Stop Reading := do
  let (r, rest) ← readOptions verb.forms {} args
  match rest, verb.wordForm? with
  | [], _ | ["--"], _ => r.settle
  | ["--", word], some form => (← r.await form word).settle
  | word :: rest, some form =>
    if word = "--" then .error .misuse
    else
      let (r, rest) ← readOptions verb.forms (← r.await form word) rest
      match rest with
      | [] | ["--"] => r.settle
      | _ => .error .misuse
  | _, none => .error .misuse

end Verb

-- ── Invocations ───────────────────────────────────────────────────────────────────

/-- The options of the program before a verb. -/
def programForms : List Form :=
  ⟨"version", some 'V', .stop .version⟩ :: Verb.sharedForms none

/-- What a reply is to be made of. A time that is not given is the present. -/
structure ReplySources where
  results : String
  agentFile : Option String
  overrides : Agent.Overrides
  time : Option String
deriving DecidableEq, Repr

/-- What is to be done. A message that is not given is read from the input. -/
inductive Task where
  | parse (message : Option String)
  | references (message : Option String)
  | reply (sources : ReplySources)
  | completions (shell : Shell)
deriving DecidableEq, Repr

/-- A task, whether failures and references are to be written as JSON, and whether every event
    is to be shown. -/
structure Invocation where
  task : Task
  json : Bool
  verbose : Bool
deriving DecidableEq, Repr

/-- The task of a verb with its arguments, unless one that it needs is missing. -/
def Verb.task? (verb : Verb) (r : Reading) : Option Task :=
  match verb with
  | parse => some (.parse (r.get? "message"))
  | references => some (.references (r.get? "message"))
  | reply =>
    (r.get? "results").map fun results =>
      .reply
        { results := results
          agentFile := r.get? "agent"
          overrides :=
            { lang := r.get? "lang"
              name := r.get? "agent-name"
              version := r.get? "agent-version"
              os := r.get? "os"
              osVersion := r.get? "os-version" }
          time := r.get? "at" }
  | completions => ((r.get? "SHELL").bind Shell.ofName?).map .completions

/-- The help that a list of names asks for. -/
def helpOn : List String → Stop
  | [] => .help none
  | [name] => if name = "help" ∨ (Verb.ofName? name).isSome then .help (some name) else .misuse
  | _ => .misuse

/-- Reads the arguments of the program. -/
def readInvocation (args : List String) : Except Stop Invocation := do
  let (program, rest) ← readOptions programForms {} args
  match rest with
  | [] => .error .misuse
  | name :: rest =>
    if name = "help" then .error (helpOn rest)
    else
      match Verb.ofName? name with
      | none => .error .misuse
      | some verb =>
        let r ← verb.readArguments rest
        let program ← program.settle
        match verb.task? r with
        | none => .error .misuse
        | some task => return ⟨task, r.has "json", program.has "verbose" || r.has "verbose"⟩

end AgentWire.CommandLine
