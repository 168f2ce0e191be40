import AgentWire.Proofs.CommandLine.Output
import AgentWire.Proofs.CommandLine.References

/-!
# Listing — the references of a message, a line each

A run that lists references without JSON prints each token with a line feed behind it. Whoever cuts
what is printed at line feeds (`linesOf`) has the tokens back exactly if none of them holds a line
feed itself:

    linesOf printed = tokens  ↔  no token holds a line feed

A token is kept as it is written, and the blanks in it may be line feeds, so there are messages of
which the lines do not tell the tokens. The report in JSON has no such exception, since a string in
it holds no line feed as such.
-/

namespace AgentWire.CommandLine

-- ── Lines ─────────────────────────────────────────────────────────────────────────

/-- A text without the line feed at its end, if one stands there. -/
def withoutLineEnd (text : List Char) : List Char :=
  if text.getLast? = some '\n' then text.dropLast else text

/-- The lines of what is printed: it is cut at line feeds, not counting the one at the end. Where
    nothing is printed there are none. -/
def linesOf (printed : String) : List String :=
  if printed = "" then []
  else ((withoutLineEnd printed.toList).splitOn '\n').map String.ofList

theorem withoutLineEnd_append (text : List Char) : withoutLineEnd (text ++ ['\n']) = text := by
  rw [withoutLineEnd, if_pos List.getLast?_concat, List.dropLast_concat]

/-- What stands between two cuts is not cut itself. -/
theorem not_mem_of_mem_splitOn {c : Char} {text line : List Char} (h : line ∈ text.splitOn c) :
    c ∉ line := by
  induction text generalizing line with
  | nil =>
      rw [List.splitOn_nil, List.mem_singleton] at h
      rw [h]
      exact List.not_mem_nil
  | cons first rest ih =>
      rw [List.splitOn_cons_eq_if_modifyHead] at h
      by_cases hfirst : (first == c) = true
      · rw [if_pos hfirst] at h
        rcases List.mem_cons.mp h with rfl | hmem
        · exact List.not_mem_nil
        · exact ih hmem
      · rw [if_neg hfirst] at h
        obtain ⟨line', lines, hrest⟩ := List.exists_cons_of_ne_nil (List.splitOn_ne_nil c rest)
        rw [hrest] at h ih
        rcases List.mem_cons.mp h with rfl | hmem
        · have hne : c ≠ first := fun heq => hfirst (beq_iff_eq.mpr heq.symm)
          exact List.not_mem_cons_of_ne_of_not_mem hne (ih List.mem_cons_self)
        · exact ih (List.mem_cons_of_mem _ hmem)

/-- With one more separator at the end, each part has one behind it. -/
theorem intercalate_append (c : Char) {parts : List (List Char)} (hne : parts ≠ []) :
    [c].intercalate parts ++ [c] = parts.flatMap (· ++ [c]) := by
  induction parts with
  | nil => exact absurd rfl hne
  | cons part rest ih =>
      rw [List.flatMap_cons]
      by_cases hrest : rest = []
      · rw [hrest, List.intercalate_singleton, List.flatMap_nil, List.append_nil]
      · rw [List.intercalate_cons_of_ne_nil hrest, List.append_assoc, ih hrest]

variable {lines : List String}

theorem toList_joinLines :
    (joinLines lines).toList = ['\n'].intercalate (lines.map String.toList) :=
  String.toList_intercalate

/-- Lines with a line feed behind each, as they are joined with one more at the end. -/
theorem toList_join_feed (hne : lines ≠ []) :
    (String.join (lines.map (· ++ "\n"))).toList = (joinLines lines).toList ++ ['\n'] := by
  rw [toList_joinLines, intercalate_append _ (mt List.map_eq_nil_iff.mp hne), String.toList_join,
    List.flatMap_map, List.flatMap_map]
  refine List.flatMap_congr ?_
  intro line _
  exact String.toList_append

/-- Lines of which the first says something are joined to a text that does. -/
theorem joinLines_ne_empty {first : String} (h : first ≠ "") (rest : List String) :
    joinLines (first :: rest) ≠ "" := by
  have hfirst : first.toList ≠ [] := mt String.toList_eq_nil_iff.mp h
  rw [Ne, ← String.toList_eq_nil_iff, toList_joinLines]
  cases rest with
  | nil =>
      rw [List.map_singleton, List.intercalate_singleton]
      exact hfirst
  | cons second rest =>
      rw [List.map_cons, List.map_cons, List.intercalate_cons_cons, List.append_assoc]
      exact List.append_ne_nil_of_left_ne_nil hfirst _

/-- **Lines that say something are printed with a line feed behind each.** -/
theorem asOutput_joinLines (h : ∀ line ∈ lines, line ≠ "") :
    asOutput (joinLines lines) = String.join (lines.map (· ++ "\n")) := by
  cases lines with
  | nil => rfl
  | cons first rest =>
      have hne := joinLines_ne_empty (h first List.mem_cons_self) rest
      rw [asOutput, if_neg hne, ← String.toList_inj, toList_join_feed (List.cons_ne_nil _ _),
        String.toList_append]
      rfl

/-- **Lines are read back exactly if none of them holds a line feed.** -/
theorem linesOf_join_eq_iff :
    linesOf (String.join (lines.map (· ++ "\n"))) = lines ↔ ∀ line ∈ lines, '\n' ∉ line.toList := by
  by_cases hlines : lines = []
  · rw [hlines]
    exact iff_of_true rfl nofun
  · -- one line feed ends the text, and the others stand between the lines
    have hchars := toList_join_feed hlines
    have hne : String.join (lines.map (· ++ "\n")) ≠ "" := by
      intro hempty
      rw [hempty] at hchars
      exact absurd hchars (List.append_ne_nil_of_right_ne_nil _ (List.cons_ne_nil _ _)).symm
    rw [linesOf, if_neg hne, hchars, withoutLineEnd_append, toList_joinLines]
    constructor
    · intro hread line hmem
      rw [← hread] at hmem
      obtain ⟨text, htext, rfl⟩ := List.mem_map.mp hmem
      rw [String.toList_ofList]
      exact not_mem_of_mem_splitOn htext
    · intro hnone
      have hparts : ∀ part ∈ lines.map String.toList, '\n' ∉ part := by
        intro part hmem
        obtain ⟨line, hline, rfl⟩ := List.mem_map.mp hmem
        exact hnone line hline
      rw [List.splitOn_intercalate _ hparts (mt List.map_eq_nil_iff.mp hlines), List.map_map]
      refine (List.map_congr_left ?_).trans (List.map_id lines)
      intro line _
      exact String.ofList_toList

-- ── The references of a message ───────────────────────────────────────────────────

/-- A token says something. -/
theorem token_ne_empty {content : Json} {r : Reference} (h : r ∈ Reference.inContent content) :
    r.token ≠ "" := by
  obtain ⟨text, -, hfound⟩ := List.mem_flatMap.mp h
  have hparse := Reference.parse?_token hfound
  intro hempty
  rw [hempty] at hparse
  exact nomatch hparse

/-- **The tokens of a command are printed with a line feed behind each.** -/
theorem exit_referencesReport {raw : ByteArray} {c : Command} (h : Command.decode raw = .ok c)
    (verbose : Bool) : (referencesReport false raw).exit false verbose =
      ⟨0, String.join ((c.references.map Reference.token).map (· ++ "\n")), []⟩ := by
  have hlines : ∀ line ∈ c.references.map Reference.token, line ≠ "" := by
    intro line hmem
    obtain ⟨r, hr, rfl⟩ := List.mem_map.mp hmem
    exact token_ne_empty hr
  have hreport : referencesReport false raw =
      ⟨.ok (joinLines (c.references.map Reference.token)), []⟩ := by
    rw [referencesReport, Command.decodeTraced, h]
    rfl
  rw [hreport, ← asOutput_joinLines hlines]
  rfl

variable {m : Type → Type} [Monad m] [LawfulMonad m]

/-- A run that lists references reads the message and reports on it. -/
theorem run_references {host : Host m} {args : List String} {message : Option String}
    {raw : ByteArray} {json verbose : Bool}
    (hargs : readInvocation args = .ok ⟨.references message, json, verbose⟩)
    (hread : readSource host message = pure raw) :
    run host args = pure ((referencesReport json raw).exit json verbose) := by
  rw [run, hargs]
  dsimp only [perform]
  rw [hread, map_pure, ExceptT.run_pure, pure_bind]

/-- **REFERENCES ARE A LINE EACH EXACTLY IF NO TOKEN HOLDS A LINE FEED.** A run that lists the
    references of a message succeeds and prints every token, in the order of the document, with a
    line feed behind it. The report in JSON always has these tokens; the lines are these tokens
    exactly if none of them holds a line feed. -/
theorem references_are_lines_iff (host : Host m) (args : List String) (message : Option String)
    (verbose : Bool) (raw : ByteArray) (c : Command)
    (hargs : readInvocation args = .ok ⟨.references message, false, verbose⟩)
    (hread : readSource host message = pure raw) (hdecode : Command.decode raw = .ok c) :
    ∃ exit listing entries hdistinct,
      run host args = pure exit ∧ exit.code = 0 ∧
      exit.output = String.join ((c.references.map Reference.token).map (· ++ "\n")) ∧
      (referencesReport true raw).result = .ok listing ∧
      Json.parse (Symbol.ofString listing) = .ok ⟨.array entries, hdistinct⟩ ∧
      entries.map (·.member? "token") = c.references.map (fun r => some (.string r.token)) ∧
      (linesOf exit.output = c.references.map Reference.token ↔
        ∀ r ∈ c.references, '\n' ∉ r.token.toList) := by
  refine ⟨_, referencesText true c, referenceEntries c, distinct_referenceEntries c,
    run_references hargs hread, ?_⟩
  rw [exit_referencesReport hdecode]
  refine ⟨rfl, rfl, ?_, parse_referencesText c, map_member?_entries (member?_token _), ?_⟩
  · rw [result_referencesReport, hdecode]
    rfl
  · rw [linesOf_join_eq_iff]
    exact List.forall_mem_map

/-- A host whose input is a message. -/
def onInput (raw : ByteArray) : Host Id where
  file _ := .error "lost"
  input := .ok raw
  now := .zero

/-- The two references of a greeting are two lines. -/
theorem references_are_lines_iff_greeting :
    linesOf (run (onInput (Command.greeting .empty).encode.toUTF8) ["references"]).output =
      ["{{ say }}", "{{ who }}"] := by
  have hargs : readInvocation ["references"] = .ok ⟨.references none, false, false⟩ := by
    decide +kernel
  obtain ⟨exit, -, -, -, hrun, -, -, -, -, -, hlines⟩ :=
    references_are_lines_iff (onInput (Command.greeting .empty).encode.toUTF8) _ _ _ _ _ hargs rfl
      (Command.sendable_greeting .empty).decode_encode
  rw [Command.references_greeting] at hlines
  rw [show run (onInput (Command.greeting .empty).encode.toUTF8) ["references"] = exit from hrun]
  exact hlines.mpr (by decide)

/-- A command whose one reference goes over the end of a line. -/
def twoLineCommand : Command where
  id := "1"
  documentName := "d"
  content := Document.ofJson <| .object [("a", .string "\x7b\x7b\nx\x7d\x7d")]
  parameters := .empty
  outputBucket := ""
  outputKeys := ""

theorem sendable_twoLineCommand : twoLineCommand.Sendable where
  id_not_blank := by
    show isBlankText "1" = false
    decide
  content_object := rfl
  content_depth := by
    show twoLineCommand.content.tree.depth + 1 ≤ Json.nestingLimit
    decide

theorem references_twoLineCommand :
    twoLineCommand.references = [⟨"x", none, "\x7b\x7b\nx\x7d\x7d"⟩] := by
  show Reference.inContent twoLineCommand.content.tree = _
  cbv

/-- **A TOKEN THAT GOES OVER THE END OF A LINE IS TWO LINES**, and neither of them is the token. -/
theorem references_are_not_lines_two :
    Command.decode twoLineCommand.encode.toUTF8 = .ok twoLineCommand ∧
    twoLineCommand.references.map Reference.token = ["\x7b\x7b\nx\x7d\x7d"] ∧
    (run (onInput twoLineCommand.encode.toUTF8) ["references"]).output =
      "\x7b\x7b\nx\x7d\x7d\n" ∧
    linesOf (run (onInput twoLineCommand.encode.toUTF8) ["references"]).output =
      ["\x7b\x7b", "x\x7d\x7d"] ∧
    linesOf (run (onInput twoLineCommand.encode.toUTF8) ["references"]).output ≠
      twoLineCommand.references.map Reference.token := by
  have hargs : readInvocation ["references"] = .ok ⟨.references none, false, false⟩ := by
    decide +kernel
  have hdecode := sendable_twoLineCommand.decode_encode
  have hrun : run (onInput twoLineCommand.encode.toUTF8) ["references"] =
      (referencesReport false twoLineCommand.encode.toUTF8).exit false false :=
    run_references (m := Id) hargs rfl
  rw [hrun, exit_referencesReport hdecode, references_twoLineCommand]
  exact ⟨hdecode, rfl, rfl, by decide +kernel, by decide +kernel⟩

end AgentWire.CommandLine
