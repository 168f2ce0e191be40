import AgentWire.CommandLine.Run
import AgentWire.Proofs.Json.Written

/-!
# Output — what a run prints of a value is a text of the value

A report that is a layout of a value is printed with a line end behind it. The line end is a blank,
so whatever reads every text of the value (`Json.WrittenText`) reads what is printed.
-/

namespace AgentWire.CommandLine

theorem asOutput_ofList {text : List Char} (h : text ≠ []) :
    asOutput (String.ofList text) = String.ofList (text ++ ['\n']) := by
  have hne : String.ofList text ≠ "" := by
    intro heq
    have hchars := congrArg String.toList heq
    rw [String.toList_ofList] at hchars
    exact h hchars
  have hend : String.ofList ['\n'] = "\n" := rfl
  unfold asOutput
  rw [if_neg hne, String.ofList_append, hend]

/-- **A layout that is reported is printed as a text of its value**, and the run has succeeded. -/
theorem exit_of_written {report : Report} {value : Json} {text : List Char}
    (hwritten : Json.Written value text) (h : report.result = .ok (String.ofList text))
    (json verbose : Bool) :
    (report.exit json verbose).code = 0 ∧
      ∃ printed, (report.exit json verbose).output = String.ofList printed ∧
        Json.WrittenText value printed := by
  have hne : text ≠ [] := by
    obtain ⟨c, tail, rfl, -⟩ := hwritten.exists_head
    exact List.cons_ne_nil c tail
  unfold Report.exit
  rw [h]
  exact ⟨rfl, _, asOutput_ofList hne, hwritten.writtenText_newLine⟩

end AgentWire.CommandLine
