import AgentWire.Proofs.Command.Resolution
import AgentWire.Proofs.Parameters.Priority

/-!
# Stability — a command that is resolved stays as it is

Resolving replaces strings anywhere in a content, also in what the content declares. But a default
is a string or a list of strings before as after, so contents of one shape declare defaults for the
same names:

    SameShape a b  →  Declares b name …  →  Declares a name …

Every one of these names has a value once the command is resolved. So completing its parameters
again adds nothing, and a resolved command without references is resolved to itself.
-/

namespace AgentWire

namespace ParameterSet

-- ── Defaults of contents of one shape ─────────────────────────────────────────────

/-- A value of the shape of a default is a default. -/
theorem exists_isDefault_of_sameShape {a b : Json} (h : Json.SameShape a b) {values : List String}
    (hb : IsDefault b values) : ∃ others, IsDefault a others := by
  cases hb with
  | single text =>
      cases a with
      | string other => exact ⟨[other], .single other⟩
      | _ => exact False.elim h
  | list texts =>
      cases a with
      | array items =>
          obtain ⟨others, rfl⟩ := Json.SameShapeItems.exists_strings h
          exact ⟨others, .list others⟩
      | _ => exact False.elim h

/-- **Contents of one shape declare defaults for the same names.** -/
theorem exists_declares_of_sameShape {a b : Json} (h : Json.SameShape a b) {name : String}
    {values : List String} (hb : Declares b name values) : ∃ others, Declares a name others := by
  obtain ⟨declared, declaration, default, hsection, hmem, hdefault, hvalues⟩ := hb
  obtain ⟨found, hfound, hshape⟩ := h.exists_member? hsection
  obtain ⟨declared', rfl, hmembers⟩ := hshape.exists_object
  obtain ⟨declaration', hmem', hdeclaration⟩ := hmembers.exists_mem hmem
  obtain ⟨default', hdefault', hsame⟩ := hdeclaration.exists_member? hdefault
  obtain ⟨others, hothers⟩ := exists_isDefault_of_sameShape hsame hvalues
  exact ⟨others, declared', declaration', default', hfound, hmem', hdefault', hothers⟩

/-- **COMPLETING AGAIN ADDS NOTHING**, with the same content or with one of its shape. -/
theorem withDefaults_withDefaults {a b : Json} (ha : a.Distinct) (hb : b.Distinct)
    (h : Json.SameShape a b) (p : ParameterSet) :
    (p.withDefaults a).withDefaults b = p.withDefaults a :=
  withDefaults_withDefaults_eq ha hb (fun _ _ hdeclares => exists_declares_of_sameShape h hdeclares)
    p

end ParameterSet

namespace Command

-- ── Resolved commands ─────────────────────────────────────────────────────────────

/-- The parameters of a resolved command are complete. -/
theorem completedParameters_of_resolve {sent resolved : Command}
    (h : sent.resolve = .ok resolved) : resolved.completedParameters = resolved.parameters := by
  obtain ⟨content, hcontent, rfl⟩ := resolve_eq_ok_iff.mp h
  have hshape := (ParameterSet.substitute_eq_ok (Document.substitute_eq_ok hcontent)).1
  exact ParameterSet.withDefaults_withDefaults sent.content.distinct content.distinct hshape
    sent.parameters

/-- **A resolved command without references is resolved to itself.** -/
theorem resolve_of_references_eq_nil {c : Command}
    (hcompleted : c.completedParameters = c.parameters) (h : c.references = []) :
    c.resolve = .ok c := by
  refine resolve_eq_ok_iff.mpr ⟨c.content, ?_, ?_⟩
  · exact c.content.substitute_of_inContent_eq_nil c.completedParameters h
  · rw [hcompleted]

end Command

end AgentWire
