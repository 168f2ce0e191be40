import AgentWire.CommandLine.Arguments

/-!
# Help — what the program says about itself

The version, the help on the program and on each of its verbs, and the scripts with which a
shell completes their names. All of it is read off the forms of the options.
-/

namespace AgentWire.CommandLine

/-- Several lines as a text. -/
def joinLines (lines : List String) : String :=
  String.intercalate "\n" lines

/-- The line that states the version. -/
def versionText : String :=
  Agent.programName ++ " " ++ Agent.programVersion

/-- What a verb is for. -/
def Verb.purpose : Verb → String
  | parse => "Parse a command message and resolve its parameter references"
  | reply => "Build a reply payload from plugin results"
  | references => "List the parameter references in a message's document content"
  | completions => "Generate shell completions"

/-- What an option is for. -/
def Form.purpose (form : Form) : String :=
  match form.name with
  | "color" => "Control color output: auto, always or never"
  | "verbose" => "Log every step to stderr"
  | "help" => "Print help"
  | "version" => "Print version"
  | "message" => "Message file, or - for stdin (default: stdin)"
  | "json" => "Report as JSON on stdout"
  | "results" => "JSON file mapping plugin name to plugin result"
  | "agent" => "Agent identity file (JSON or YAML)"
  | "at" => "Reply time, e.g. 2016-07-19T22:30:09.123Z (default: now)"
  | "SHELL" => String.intercalate ", " (Shell.all.map Shell.name)
  | name => "Use another " ++ name ++ " than the agent has"

/-- How an option is written. -/
def Form.usage (form : Form) : String :=
  let letter :=
    match form.letter with
    | some c => String.ofList ['-', c, ',', ' ']
    | none => ""
  letter ++ "--" ++ form.name ++ (if form.takesWord then " <VALUE>" else "")

/-- The lines on some options. -/
def optionLines (forms : List Form) : List String :=
  forms.flatMap fun form => ["  " ++ form.usage, "      " ++ form.purpose]

/-- The help on a verb. -/
def Verb.help (verb : Verb) : String :=
  let words := verb.wordForm?.toList
  joinLines <|
    [verb.purpose, "",
      "Usage: " ++ Agent.programName ++ " " ++ verb.name ++ " [OPTIONS]" ++
        String.join (words.map fun form => " <" ++ form.name ++ ">"), ""] ++
    words.map (fun form => "  <" ++ form.name ++ ">  " ++ form.purpose) ++
    ["Options:"] ++ optionLines verb.forms

/-- The help on the program. -/
def programHelp : String :=
  joinLines <|
    ["Read agent command messages and assemble replies", "",
      "Usage: " ++ Agent.programName ++ " [OPTIONS] <COMMAND>", "", "Commands:"] ++
    Verb.all.map (fun verb => "  " ++ verb.name ++ "  " ++ verb.purpose) ++
    ["  help  Print this message or the help of a command", "", "Options:"] ++
    optionLines programForms

/-- The help on what is named, or on the program. -/
def helpText (name : Option String) : String :=
  match name.bind Verb.ofName? with
  | some verb => verb.help
  | none => programHelp

/-- The words that a shell completes: the verbs and every option. -/
def completionWords : List String :=
  let forms := programForms ++ Verb.all.flatMap Verb.ownForms
  Verb.all.map Verb.name ++ ["help"] ++
    (forms.map fun form => "--" ++ form.name).eraseDups

/-- The script with which a shell completes the words of the program. -/
def Shell.script (shell : Shell) : String :=
  let name := Agent.programName
  let words := String.intercalate " " completionWords
  match shell with
  | bash => "complete -W \"" ++ words ++ "\" " ++ name
  | elvish =>
    "set edit:completion:arg-completer[" ++ name ++ "] = \x7b|@words| put " ++ words ++ " \x7d"
  | fish => "complete -c " ++ name ++ " -f -a \"" ++ words ++ "\""
  | powershell =>
    joinLines
      ["Register-ArgumentCompleter -Native -CommandName " ++ name ++ " -ScriptBlock \x7b",
        "  param($word)",
        "  \"" ++ words ++ "\" -split \" \" | Where-Object \x7b $_ -like \"$word*\" \x7d",
        "\x7d"]
  | zsh => joinLines ["#compdef " ++ name, "compadd -- " ++ words]

end AgentWire.CommandLine
