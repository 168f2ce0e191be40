import AgentWire.Proofs.Command.Stability
import AgentWire.Proofs.CommandLine.Output
import AgentWire.Proofs.CommandLine.References

/-!
# Printing — a resolved command is printed as a message that says the same

A command is printed in the spread form and goes over the wire in the compact one. Both are texts of
the value of the command, so both are messages that are decoded to it (`Carries`). As it has been
resolved before, its references all select values, no default is missing, and resolving it once more
makes no difference if it has no references at all.
-/

namespace AgentWire.CommandLine

/-- A text is a message of a resolved command: it is decoded to the command, the report on its
    references lists each with a value, and it is resolved to the command if it lists none. -/
structure Carries (text : String) (c : Command) : Prop where
  decoded : Command.decode text.toUTF8 = .ok c
  listed : ∃ listing entries hdistinct,
    (referencesReport true text.toUTF8).result = .ok listing ∧
      Json.parse (Symbol.ofString listing) = .ok ⟨.array entries, hdistinct⟩ ∧
        entries = c.references.map (referenceEntry c.completedParameters) ∧
          ∀ entry ∈ entries, entry.member? "resolved" = some (.bool true)
  resolved : c.references = [] → Command.parse text.toUTF8 = .ok c

/-- The entries of a resolved command all have values. -/
theorem resolved_of_resolve {sent c : Command} (h : sent.resolve = .ok c) :
    ∀ entry ∈ referenceEntries c, entry.member? "resolved" = some (.bool true) := by
  intro entry hmem
  obtain ⟨r, hr, rfl⟩ := List.mem_map.mp hmem
  rw [member?_resolved, Command.completedParameters_of_resolve h]
  have hselected := (Command.resolves_of_resolve h).selected r hr
  rw [hselected]

/-- **Every text of a resolved command carries it.** -/
theorem carries_of_parse {raw : ByteArray} {c : Command} (h : Command.parse raw = .ok c)
    {text : List Char} (htext : Json.WrittenText c.toJson text) :
    Carries (String.ofList text) c := by
  obtain ⟨sent, -, hresolve⟩ := Command.exists_of_parse h
  have hdecode := (Command.sendable_of_parse h).decode_written htext
  refine ⟨hdecode, ?_, ?_⟩
  · refine ⟨referencesText true c, referenceEntries c, distinct_referenceEntries c, ?_,
      parse_referencesText c, rfl, resolved_of_resolve hresolve⟩
    rw [result_referencesReport, hdecode]
    rfl
  · intro hnone
    rw [Command.parse_of_decode hdecode]
    exact Command.resolve_of_references_eq_nil
      (Command.completedParameters_of_resolve hresolve) hnone

/-- **A COMMAND THAT IS PRINTED IS STABLE.** What is printed of a message that is resolved, and the
    wire form of the command, both carry the command, and its parameters are complete. -/
theorem printed_command_is_stable (raw : ByteArray) (c : Command) (h : Command.parse raw = .ok c) :
    (∀ json verbose, ((parseReport raw).exit json verbose).code = 0 ∧
      Carries ((parseReport raw).exit json verbose).output c) ∧
    Carries c.encode c ∧
    c.parameters.withDefaults c.content.tree = c.parameters := by
  obtain ⟨sent, -, hresolve⟩ := Command.exists_of_parse h
  refine ⟨?_, ?_, Command.completedParameters_of_resolve hresolve⟩
  · intro json verbose
    have hreport : (parseReport raw).result = .ok (String.ofList (c.toJson.renderSpread 0)) := by
      rw [result_parseReport, h]
      rfl
    obtain ⟨hcode, printed, houtput, htext⟩ :=
      exit_of_written (Json.written_renderSpread 0 c.toJson) hreport json verbose
    rw [houtput]
    exact ⟨hcode, carries_of_parse h htext⟩
  · exact carries_of_parse h (Json.written_render c.toJson).writtenText

/-- A greeting that says something is printed as a message that is resolved to the same command. -/
theorem printed_command_is_stable_greeting :
    ∃ c, Command.parse (Command.greeting (.ofList [("say", ["Hi"])])).encode.toUTF8 = .ok c ∧
      Carries c.encode c ∧ c.references = [] ∧
      Command.parse ((parseReport (Command.greeting
        (.ofList [("say", ["Hi"])])).encode.toUTF8).exit false false).output.toUTF8 = .ok c := by
  have hline : (ParameterSet.ofList [("say", ["Hi"]), ("who", ["you"])]).substituteText
      Command.greetingLine = .ok "Hi you" := by decide +kernel
  obtain ⟨c, hparse⟩ :=
    Command.exists_parse_greeting (Command.completedParameters_greeting_say "Hi") hline
  obtain ⟨hprinted, hencoded, -⟩ := printed_command_is_stable _ c hparse
  have hnone : c.references = [] := by
    rw [Command.parse_of_decode (Command.sendable_greeting _).decode_encode] at hparse
    obtain ⟨content, hcontent, rfl⟩ := Command.resolve_eq_ok_iff.mp hparse
    have htree := Document.substitute_eq_ok hcontent
    rw [show (Command.greeting (.ofList [("say", ["Hi"])])).content = Command.greetingContent from
      rfl, Command.completedParameters_greeting_say, Command.substitute_greetingContent,
      hline] at htree
    show Reference.inContent content.tree = []
    rw [← Except.ok.inj htree]
    decide +kernel
  exact ⟨c, hparse, hencoded, hnone, (hprinted false false).2.resolved hnone⟩

end AgentWire.CommandLine
