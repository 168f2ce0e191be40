import AgentWire.Proofs.Substitution.Outcome

/-!
# Leaf by leaf — what substitution does to a content

A content is substituted one string leaf after the other, in the order of the document, and each
leaf by itself. So there are two ends, and the leaves tell which one it is:

    every leaf can be filled in   ↔  a content of the same shape comes out, leaf by leaf
    some leaf cannot              ↔  the content fails as the first such leaf does

Names of members are no leaves: whatever they look like, they stay as they are and nothing is asked
of them. A leaf that fails names a token that selects nothing. The token may be one that the leaf had
all along, or one that has come up where a value was put in; in both cases the search has found it,
so it is a token by itself, and the name is its own.
-/

namespace AgentWire

open Reference

/-- A fault that is right about some parameters: what it names is a token of the name that it gives,
    and the token selects nothing. -/
def Fault.IsGenuine (fault : Fault) (p : ParameterSet) : Prop :=
  ∃ name token r, fault = .unresolved name token ∧ parse? token = some r ∧ r.name = name ∧
    p.select? r = none

namespace ParameterSet

variable {p : ParameterSet}

/-- What is found in a text and selects nothing makes a fault that is right. -/
theorem isGenuine_unresolved {text : List Char} {r : Reference} (hmem : r ∈ inChars text)
    (hnone : p.select? r = none) : (unresolved r).IsGenuine p :=
  ⟨r.name, r.token, r, rfl, parse?_token hmem, rfl, hnone⟩

/-- **A text that is refused is refused rightly.** -/
theorem isGenuine_of_substituteText {text : String} {fault : Fault}
    (h : p.substituteText text = .error fault) : fault.IsGenuine p := by
  obtain ⟨r, rfl, hnone, hwhere⟩ := exists_of_substituteText_error h
  rcases hwhere with hmem | hmem
  · exact isGenuine_unresolved hmem hnone
  · exact isGenuine_unresolved hmem hnone

/-- **SUBSTITUTION GOES LEAF BY LEAF.** A content comes out exactly if each of its string leaves
    does, with these in the place of its own and everything else as it was. Otherwise it fails as
    the first leaf that is refused, whatever is wrong with those behind it; and the fault is
    right. -/
theorem substitute_goes_leaf_by_leaf (p : ParameterSet) (content : Json) :
    ((∃ result, p.substitute content = .ok result) ↔
      ∀ text ∈ content.leaves, ∃ text', p.substituteText text = .ok text') ∧
    (∀ result, p.substitute content = .ok result ↔
      Json.SameShape content result ∧
        Json.LeavesTo p.substituteText content.leaves result.leaves) ∧
    (∀ fault, p.substitute content = .error fault ↔
      Json.FirstRefused p.substituteText content.leaves fault) ∧
    (∀ fault, p.substitute content = .error fault → fault.IsGenuine p) := by
  refine ⟨Json.exists_mapLeavesM_iff, fun _ => Json.mapLeavesM_eq_ok_iff,
    fun _ => Json.mapLeavesM_eq_error_iff, ?_⟩
  intro fault hfault
  obtain ⟨_, text, _, -, -, hrefused⟩ := Json.mapLeavesM_eq_error hfault
  exact isGenuine_of_substituteText hrefused

/-- A name that looks like a token is left alone. Of three leaves that fail the first one counts,
    which fails for a token that only comes up when its value is put in. -/
theorem substitute_goes_leaf_by_leaf_nested :
    (ofList [("x", ["1"])]).substitute
        (.object [("{{k}}", .array [.string "a {{ x }}", .null]), ("n", .bool true)]) =
      .ok (.object [("{{k}}", .array [.string "a 1", .null]), ("n", .bool true)]) ∧
    (ofList [("x", ["\x7b\x7b"])]).substitute
        (.object [("{{k}}", .array [.string "ok", .string "{{x}}z\x7d\x7d", .string "{{lost}}"]),
          ("n", .string "{{gone}}")]) = .error (.unresolved "z" "{{z}}") ∧
    (Fault.unresolved "z" "{{z}}").IsGenuine (ofList [("x", ["\x7b\x7b"])]) := by
  refine ⟨?_, ?_⟩
  · obtain ⟨-, hok, -⟩ := substitute_goes_leaf_by_leaf (ofList [("x", ["1"])])
      (.object [("{{k}}", .array [.string "a {{ x }}", .null]), ("n", .bool true)])
    have hfilled : (ofList [("x", ["1"])]).substituteText "a {{ x }}" = .ok "a 1" := by
      decide +kernel
    exact (hok _).mpr ⟨⟨rfl, ⟨trivial, trivial, trivial⟩, rfl, rfl, trivial⟩, .cons hfilled .nil⟩
  · obtain ⟨-, -, herror, hgenuine⟩ := substitute_goes_leaf_by_leaf (ofList [("x", ["\x7b\x7b"])])
      (.object [("{{k}}", .array [.string "ok", .string "{{x}}z\x7d\x7d", .string "{{lost}}"]),
        ("n", .string "{{gone}}")])
    have hplain : (ofList [("x", ["\x7b\x7b"])]).substituteText "ok" = .ok "ok" := rfl
    have hrefused : (ofList [("x", ["\x7b\x7b"])]).substituteText "{{x}}z\x7d\x7d" =
        .error (.unresolved "z" "{{z}}") := by decide +kernel
    have hfirst := (herror _).mpr
      ⟨["ok"], _, ["{{lost}}", "{{gone}}"], rfl, by simp [hplain], hrefused⟩
    exact ⟨hfirst, hgenuine _ hfirst⟩

end ParameterSet

end AgentWire
