import AgentWire.Proofs.NameMap
import AgentWire.Proofs.Parameters.Completion
import AgentWire.Proofs.Substitution.Outcome

/-!
# Extension — more parameters change nothing that has come out

A set extends to another one if every token that selects a value in the first selects the same value
in the second (`ExtendsTo`). So it is when names are added, when values are added behind those that
are there, and when a set is completed with the defaults of a document.

What substitution makes of a text depends on the set in two ways: on the values that are put in, and
on whether what comes up is asked for in vain. Both are about tokens that select values:

1. A text is accepted if its own tokens all select values. They select the same ones in the larger
   set, so the same text is put together (`ExtendsTo.filled_eq`).
2. The tokens of that text all select values, too. In the larger set they still do.

So the larger set accepts the text with the same outcome, and a content leaf by leaf.
-/

namespace AgentWire

open Reference

namespace ParameterSet

/-- Whatever a token selects in one set it selects in the other. -/
def ExtendsTo (p q : ParameterSet) : Prop :=
  ∀ r value, parse? r.token = some r → p.select? r = some value → q.select? r = some value

variable {p q : ParameterSet}

-- ── Larger sets ───────────────────────────────────────────────────────────────────

/-- Values behind those that are there are selected by none of the old numbers. -/
theorem select?_of_append
    (h : ∀ name values, p.get? name = some values → ∃ more, q.get? name = some (values ++ more))
    {r : Reference} {value : String} (hselect : p.select? r = some value) :
    q.select? r = some value := by
  obtain ⟨values, hvalues, hvalue⟩ := Option.bind_eq_some_iff.mp hselect
  obtain ⟨more, hmore⟩ := h r.name values hvalues
  obtain ⟨hbound, -⟩ := List.getElem?_eq_some_iff.mp hvalue
  show (q.get? r.name).bind (fun values => values[(r.index.getD 0).toNat]?) = some value
  rw [hmore, Option.bind_some, List.getElem?_append_left hbound, hvalue]

/-- **A set extends to one with more names and with more values behind its own.** -/
theorem extendsTo_of_append
    (h : ∀ name values, p.get? name = some values → ∃ more, q.get? name = some (values ++ more)) :
    p.ExtendsTo q :=
  fun _ _ _ hselect => select?_of_append h hselect

/-- **A set extends to itself completed with defaults.** -/
theorem extendsTo_withDefaults (p : ParameterSet) (document : Json) :
    p.ExtendsTo (p.withDefaults document) := by
  refine extendsTo_of_append ?_
  intro name values hvalues
  refine ⟨[], ?_⟩
  rw [List.append_nil]
  exact get?_withDefaults_of_some hvalues document

-- ── What comes out ────────────────────────────────────────────────────────────────

namespace ExtendsTo

/-- Where the tokens of a text all select values, each selects the same one in the larger set. -/
theorem select?_eq (h : p.ExtendsTo q) {text : List Char} (hall : p.SelectsAll (inChars text))
    {r : Reference} (hmem : r ∈ inChars text) : q.select? r = p.select? r := by
  obtain ⟨value, hselect⟩ := Option.isSome_iff_exists.mp (hall r hmem)
  rw [hselect, h r value (parse?_token hmem) hselect]

/-- Tokens that all select values still do so. -/
theorem selectsAll (h : p.ExtendsTo q) {text : List Char} (hall : p.SelectsAll (inChars text)) :
    q.SelectsAll (inChars text) := by
  intro r hmem
  rw [h.select?_eq hall hmem]
  exact hall r hmem

/-- A text whose tokens all select values is filled in with the same ones. -/
theorem filled_eq (h : p.ExtendsTo q) {text : List Char} (hall : p.SelectsAll (inChars text)) :
    q.filled text = p.filled text := by
  refine List.flatMap_congr ?_
  intro piece hpiece
  cases piece with
  | literal c => rfl
  | token r => rw [fillPiece, fillPiece, h.select?_eq hall (mem_inChars_iff.mpr hpiece)]

/-- **A text that has come out comes out the same.** -/
theorem substituteText_eq_ok (h : p.ExtendsTo q) {text text' : String}
    (htext : p.substituteText text = .ok text') : q.substituteText text = .ok text' := by
  obtain ⟨hbefore, hfilled, hafter⟩ := substituteText_eq_ok_iff.mp htext
  refine substituteText_eq_ok_iff.mpr ⟨h.selectsAll hbefore, ?_, h.selectsAll hafter⟩
  rw [h.filled_eq hbefore]
  exact hfilled

/-- **A content that has come out comes out the same.** -/
theorem substitute_eq_ok (h : p.ExtendsTo q) {content result : Json}
    (hcontent : p.substitute content = .ok result) : q.substitute content = .ok result := by
  obtain ⟨hshape, hleaves⟩ := Json.mapLeavesM_eq_ok hcontent
  refine Json.mapLeavesM_eq_ok_iff.mpr ⟨hshape, hleaves.imp ?_⟩
  intro text text' htext
  exact h.substituteText_eq_ok htext

end ExtendsTo

/-- **MORE PARAMETERS CHANGE NOTHING THAT HAS COME OUT.** A content that comes out with some
    parameters comes out the same with any to which they extend; so with further names, with
    further values behind those of a name, and completed with the defaults of its document. -/
theorem substitute_survives_extension (p : ParameterSet) (content result : Json)
    (h : p.substitute content = .ok result) :
    (∀ q, p.ExtendsTo q → q.substitute content = .ok result) ∧
    (∀ q : ParameterSet,
      (∀ name values, p.get? name = some values → ∃ more, q.get? name = some (values ++ more)) →
      q.substitute content = .ok result) ∧
    (p.withDefaults content).substitute content = .ok result := by
  refine ⟨?_, ?_, ?_⟩
  · intro q hextends
    exact hextends.substitute_eq_ok h
  · intro q happend
    exact (extendsTo_of_append happend).substitute_eq_ok h
  · exact (extendsTo_withDefaults p content).substitute_eq_ok h

/-- A content that declares defaults for two names and has a line to run. -/
def declaringContent (line : String) : Json :=
  .object
    [("parameters", .object [("x", .object [("default", .string "9")]),
      ("y", .object [("default", .string "8")])]), ("run", .string line)]

/-- A default for a name that is there, one for a name that is not, a further name and a further
    value make no difference to a token that has its value already. -/
theorem substitute_survives_extension_default :
    (ofList [("x", ["1", "2"])]).substitute (declaringContent "{{x}}-{{ x[1] }}") =
      .ok (declaringContent "1-2") ∧
    (ofList [("w", ["0"]), ("x", ["1", "2", "3"])]).substitute
      (declaringContent "{{x}}-{{ x[1] }}") = .ok (declaringContent "1-2") ∧
    (ofList [("x", ["1", "2"])]).withDefaults (declaringContent "{{x}}-{{ x[1] }}") =
      ofList [("x", ["1", "2"]), ("y", ["8"])] ∧
    ((ofList [("x", ["1", "2"])]).withDefaults (declaringContent "{{x}}-{{ x[1] }}")).substitute
      (declaringContent "{{x}}-{{ x[1] }}") = .ok (declaringContent "1-2") := by
  have hcontent : (ofList [("x", ["1", "2"])]).substitute (declaringContent "{{x}}-{{ x[1] }}") =
      .ok (declaringContent "1-2") := by cbv
  obtain ⟨-, happend, hdefaults⟩ := substitute_survives_extension _ _ _ hcontent
  refine ⟨hcontent, ?_, rfl, hdefaults⟩
  refine happend _ ?_
  intro name values hvalues
  have hmem : (name, values) ∈ [("x", ["1", "2"])] := NameMap.get?_eq_some_iff.mp hvalues
  obtain ⟨rfl, rfl⟩ := Prod.mk.inj (List.mem_singleton.mp hmem)
  exact ⟨["3"], rfl⟩

end ParameterSet

end AgentWire
