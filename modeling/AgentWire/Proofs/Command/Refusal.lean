import AgentWire.Proofs.Command.Acceptance
import AgentWire.Proofs.Command.Faults

/-!
# Refusals — of everything that is wrong with a message, the first is reported

A message has to pass checks, one stage after the other and within a stage one place after the
other (`Check.Before`): its text is a value, the value is an object, each field is of a sort that it
takes, the needed fields are there, the id is not blank, the content is an object, and each
parameter is a string or a list of strings. What each check notices is said without regard to the
others (`Problem`), of the values that were written last and of the places where their names came
first. A message is refused for what is noticed first:

    decode raw = .error (.malformed cause)  ↔  NoticedFirst (Problem raw) cause

1. Collected names stand in the order in which they first came, so the first kept member that is bad
   is the one whose name came first of all the bad ones (`idxOf_le_of_kept`).
2. Each way in which a message fails finds nothing at the stages before, and nothing at an earlier
   place of its own (`noticedFirst_of_ofDocument`).
3. A check notices one thing at most, so what is noticed first is one thing.
-/

namespace AgentWire.Command

open Envelope (Mistyped neededFields)

-- ── Checks ────────────────────────────────────────────────────────────────────────

/-- The checks that a message has to pass. -/
inductive Check where
  /-- The message is the text of a value. -/
  | text
  /-- The value is an object. -/
  | object
  /-- A field is of a sort that it takes; its place is where its name comes first. -/
  | field (place : ℕ)
  /-- A field that is needed is there; its place is that among the needed fields. -/
  | needed (place : ℕ)
  /-- The id is not blank. -/
  | id
  /-- The content is an object. -/
  | content
  /-- A parameter is a string or a list of strings; its place is where its name comes first. -/
  | parameter (place : ℕ)
deriving DecidableEq

namespace Check

/-- The stage at which a check is made. -/
def stage : Check → ℕ
  | text => 0
  | object => 1
  | field _ => 2
  | needed _ => 3
  | id => 4
  | content => 5
  | parameter _ => 6

/-- The place of a check among those of its stage. -/
def place : Check → ℕ
  | field place | needed place | parameter place => place
  | text | object | id | content => 0

/-- A check is made before another: at an earlier stage, or at an earlier place of the same. -/
def Before (a b : Check) : Prop :=
  a.stage < b.stage ∨ a.stage = b.stage ∧ a.place < b.place

instance (a b : Check) : Decidable (a.Before b) :=
  inferInstanceAs (Decidable (_ ∨ _))

/-- Of two checks one is made before the other. -/
theorem eq_of_not_before {a b : Check} (h : ¬a.Before b) (h' : ¬b.Before a) : a = b := by
  rw [Before] at h h'
  have hstage : a.stage = b.stage := by omega
  have hplace : a.place = b.place := by omega
  cases a <;> cases b <;> simp_all [stage, place]

end Check

/-- What is noticed at the first check that notices anything. -/
def NoticedFirst (noticed : Check → Malformation → Prop) (cause : Malformation) : Prop :=
  ∃ check, noticed check cause ∧ ∀ earlier, earlier.Before check → ∀ other, ¬noticed earlier other

/-- What is noticed first is one thing, where each check notices one thing at most. -/
theorem NoticedFirst.unique {noticed : Check → Malformation → Prop} {cause other : Malformation}
    (hone : ∀ check a b, noticed check a → noticed check b → a = b)
    (h : NoticedFirst noticed cause) (h' : NoticedFirst noticed other) : cause = other := by
  obtain ⟨check, hcheck, hfirst⟩ := h
  obtain ⟨check', hcheck', hfirst'⟩ := h'
  have hsame : check = check' :=
    Check.eq_of_not_before (fun hbefore => hfirst' check hbefore cause hcheck)
      fun hbefore => hfirst check' hbefore other hcheck'
  subst hsame
  exact hone check cause other hcheck hcheck'

-- ── What the checks notice ────────────────────────────────────────────────────────

/-- What is wrong with a value as a message, with the check that notices it. Of a name that comes
    again the last value counts, at the place where the name comes first. -/
inductive Flaw : Json → Check → Malformation → Prop where
  | object {tree : Json} : tree.kind ≠ .object → Flaw tree .object (.notObject tree.kind)
  | field {members : List (String × Json)} {name : String} {value : Json} {fault : Json.Fault} :
      Json.lastValue? members name = some value → Mistyped name value fault →
        Flaw (.object members) (.field ((Json.names members).idxOf name)) (.badEnvelope fault)
  | needed {members : List (String × Json)} {name : String} : name ∈ neededFields →
      Json.lastValue? members name = none →
        Flaw (.object members) (.needed (neededFields.idxOf name))
          (.badEnvelope (.missingField name))
  | id {members : List (String × Json)} {text : String} :
      Json.lastValue? members "CommandId" = some (.string text) →
        (∀ char ∈ text.toList, isBlank char = true) →
          Flaw (.object members) .id .blankCommandId
  | content {members : List (String × Json)} {value : Json} :
      Json.lastValue? members "DocumentContent" = some value → value.kind ≠ .object →
        Flaw (.object members) .content (.contentNotObject value.kind)
  | parameter {members sent : List (String × Json)} {name : String} {value : Json}
      {cause : Malformation} : Json.lastValue? members "Parameters" = some (.object sent) →
        Json.lastValue? sent name = some value → ParameterSet.Refused name value cause →
          Flaw (.object members) (.parameter ((Json.names sent).idxOf name)) cause

/-- What is wrong with a message, with the check that notices it. -/
inductive Problem (raw : ByteArray) : Check → Malformation → Prop where
  | text {fault : Json.Fault} : Json.parse (Symbol.ofBytes raw) = .error fault →
      Problem raw .text (.notJson fault)
  | value {tree : Json} {check : Check} {cause : Malformation} :
      Json.Spells (Symbol.ofBytes raw) tree → Flaw tree check cause → Problem raw check cause

variable {members : List (String × Json)} {cause : Malformation}

theorem eq_of_idxOf_eq {a b : String} {value : Json}
    (hlast : Json.lastValue? members a = some value)
    (hplace : (Json.names members).idxOf a = (Json.names members).idxOf b) : a = b :=
  (List.idxOf_inj (Json.mem_names_iff_lastValue?.mpr ⟨value, hlast⟩)).mp hplace

/-- A check notices one flaw at most. -/
theorem Flaw.unique {tree : Json} {check : Check} {other : Malformation}
    (h : Flaw tree check cause) (h' : Flaw tree check other) : cause = other := by
  -- the check tells which kind of flaw it is, and its place which field has it
  generalize hcheck : check = check' at h'
  cases h with
  | object _ =>
      cases h' with
      | object _ => rfl
      | _ => exact nomatch hcheck
  | field hlast hmistyped =>
      cases h' with
      | field hlast' hmistyped' =>
          have hname := eq_of_idxOf_eq hlast (Check.field.inj hcheck)
          subst hname
          cases hlast.symm.trans hlast'
          rw [hmistyped.unique hmistyped']
      | _ => exact nomatch hcheck
  | needed hmem _ =>
      cases h' with
      | needed _ _ => rw [(List.idxOf_inj hmem).mp (Check.needed.inj hcheck)]
      | _ => exact nomatch hcheck
  | id _ _ =>
      cases h' with
      | id _ _ => rfl
      | _ => exact nomatch hcheck
  | content hlast _ =>
      cases h' with
      | content hlast' _ =>
          cases hlast.symm.trans hlast'
          rfl
      | _ => exact nomatch hcheck
  | parameter hsent hlast hrefused =>
      cases h' with
      | parameter hsent' hlast' hrefused' =>
          cases hsent.symm.trans hsent'
          have hname := eq_of_idxOf_eq hlast (Check.parameter.inj hcheck)
          subst hname
          cases hlast.symm.trans hlast'
          rw [← ParameterSet.readValues_eq_error_iff] at hrefused hrefused'
          exact Except.error.inj (hrefused.symm.trans hrefused')
      | _ => exact nomatch hcheck

-- ── What is kept of a message ─────────────────────────────────────────────────────

/-- What is kept under a name is what was written last, as what it stands for. -/
theorem lastValue?_kept (members : List (String × Json)) :
    Json.lastValue? (Json.collect (Json.merged.mergedMembers members)) =
      fun name => (Json.lastValue? members name).map Json.merged := by
  funext name
  rw [Json.lastValue?_of_nodup (Json.nodup_collect _), Json.lookup_merged]

/-- A member that is kept is what was written last under its name. -/
theorem exists_last_of_kept {name : String} {value : Json}
    (h : (name, value) ∈ Json.collect (Json.merged.mergedMembers members)) :
    ∃ last, Json.lastValue? members name = some last ∧ last.merged = value := by
  have hlookup := Json.lookup_of_mem (Json.nodup_collect _) h
  rw [Json.lookup_merged] at hlookup
  exact Option.map_eq_some_iff.mp hlookup

/-- **The first kept member that is bad has the first name** of all those with a bad last value. -/
theorem idxOf_le_of_kept {before after : List (String × Json)} {name other : String}
    {value last : Json} {p : String → Json → Prop}
    (h : Json.collect (Json.merged.mergedMembers members) = before ++ (name, value) :: after)
    (hbefore : ∀ member ∈ before, ¬p member.1 member.2)
    (hlast : Json.lastValue? members other = some last) (hbad : p other last.merged) :
    (Json.names members).idxOf name ≤ (Json.names members).idxOf other := by
  -- a name with a bad last value was not kept before the first bad member
  have hnot : other ∉ Json.names before := by
    intro hmem
    obtain ⟨⟨first, kept⟩, hin, hname⟩ := List.mem_map.mp hmem
    have hfirst : first = other := hname
    subst hfirst
    obtain ⟨last', hlast', rfl⟩ : ∃ last, Json.lastValue? members first = some last ∧
        last.merged = kept := by
      refine exists_last_of_kept ?_
      rw [h]
      exact List.mem_append_left _ hin
    cases hlast.symm.trans hlast'
    exact hbefore _ hin hbad
  have hmem : other ∈ Json.names (Json.merged.mergedMembers members) := by
    rw [Json.names_mergedMembers]
    exact Json.mem_names_iff_lastValue?.mpr ⟨last, hlast⟩
  have hle := Json.idxOf_le_of_collect_eq h hmem hnot
  rwa [Json.names_mergedMembers] at hle

/-- A value is refused as a parameter exactly if what it stands for is. -/
theorem refused_merged {name : String} {value : Json} :
    ParameterSet.Refused name value.merged cause ↔ ParameterSet.Refused name value cause := by
  rw [← ParameterSet.readValues_eq_error_iff, ← ParameterSet.readValues_eq_error_iff]
  cases value with
  | array items =>
      have hstrings : Json.strings? (Json.merged.mergedItems items) = Json.strings? items := by
        refine Option.ext ?_
        intro texts
        rw [Json.strings?_eq_some_iff, Json.strings?_eq_some_iff, Json.mergedItems_eq_strings_iff]
      show ParameterSet.readValues name (.array (Json.merged.mergedItems items)) = _ ↔ _
      rw [ParameterSet.readValues, ParameterSet.readValues, hstrings]
  | _ => exact Iff.rfl

-- ── Stage by stage ────────────────────────────────────────────────────────────────

/-- Of the fields that are mistyped the first is noticed. -/
theorem noticedFirst_of_takeAll {fault : Json.Fault}
    (h : Envelope.Draft.takeAll {} (Json.collect (Json.merged.mergedMembers members)) =
      .error fault) : NoticedFirst (Flaw (.object members)) (.badEnvelope fault) := by
  obtain ⟨before, name, value, after, hsplit, hbefore, hfault⟩ :=
    Envelope.Draft.takeAll_eq_error_iff.mp h
  obtain ⟨last, hlast, rfl⟩ : ∃ last, Json.lastValue? members name = some last ∧
      last.merged = value := by
    refine exists_last_of_kept ?_
    rw [hsplit]
    exact List.mem_append_right before List.mem_cons_self
  refine ⟨_, .field hlast (Envelope.mistyped_merged.mp hfault), ?_⟩
  intro earlier hearlier other hflaw
  cases hflaw with
  | object hkind => exact hkind rfl
  | field hlast' hmistyped =>
      have hle := idxOf_le_of_kept (p := fun name value => ∃ fault, Mistyped name value fault)
        hsplit (fun member hmem => not_exists.mpr (hbefore member hmem)) hlast'
        ⟨_, Envelope.mistyped_merged.mpr hmistyped⟩
      simp only [Check.Before, Check.stage, Check.place] at hearlier
      omega
  | _ => simp [Check.Before, Check.stage] at hearlier

variable {e : Envelope} {d : Envelope.Draft}

/-- Of the fields that are needed and missing the first is noticed. -/
theorem noticedFirst_of_finish {fault : Json.Fault}
    (htakes : Envelope.Draft.Takes {} (fun name => (Json.lastValue? members name).map Json.merged) d)
    (hfinish : d.finish .missingField = .error fault) :
    NoticedFirst (Flaw (.object members)) (.badEnvelope fault) := by
  obtain ⟨name, hfind, rfl⟩ := htakes.finish_eq_error_iff.mp hfinish
  simp only [Option.isNone_map] at hfind
  obtain ⟨hmissing, before, after, hsplit, hbefore⟩ := List.find?_eq_some_iff_append.mp hfind
  have hnone : Json.lastValue? members name = none := Option.isNone_iff_eq_none.mp hmissing
  have hmem : name ∈ neededFields := List.mem_of_find?_eq_some hfind
  have hnot : ∀ other, Json.lastValue? members other = none → other ∉ before := by
    intro other hother hin
    simpa [hother] using hbefore other hin
  refine ⟨_, .needed hmem hnone, ?_⟩
  intro earlier hearlier other hflaw
  cases hflaw with
  | object hkind => exact hkind rfl
  | field hlast hmistyped =>
      exact htakes.not_mistyped (congrArg (Option.map Json.merged) hlast)
        (Envelope.mistyped_merged.mpr hmistyped)
  | needed hneeded hother =>
      -- a missing field is not among those before the first that is missing
      simp only [Check.Before, Check.stage, Check.place] at hearlier
      rw [hsplit, List.idxOf_append_of_notMem (hnot _ hnone),
        List.idxOf_append_of_notMem (hnot _ hother), List.idxOf_cons_self] at hearlier
      omega
  | _ => simp [Check.Before, Check.stage] at hearlier

section

variable (hmade : e.IsMadeOf fun name => (Json.lastValue? members name).map Json.merged)

include hmade

/-- A flaw of members that make an envelope is noticed at the id or later. -/
theorem Flaw.stage_of_isMadeOf {check : Check} (h : Flaw (.object members) check cause) :
    4 ≤ check.stage := by
  cases h with
  | object hkind => exact absurd rfl hkind
  | field hlast hmistyped =>
      exact absurd (Envelope.mistyped_merged.mpr hmistyped)
        ((Envelope.isMadeOf_iff.mp hmade).not_mistyped (congrArg (Option.map Json.merged) hlast))
  | needed hneeded hmissing =>
      exact absurd (congrArg (Option.map Json.merged) hmissing) (hmade.ne_none _ hneeded)
  | id _ _ | content _ _ | parameter _ _ _ => simp [Check.stage]

/-- The section whose parameters are refused was written last. -/
theorem exists_sent_of_isMadeOf (hrefused : e.parameterSet = .error cause) :
    ∃ sent, Json.lastValue? members "Parameters" = some (.object sent) ∧
      ParameterSet.ofSection (Json.collect (Json.merged.mergedMembers sent)) = .error cause := by
  obtain ⟨kept, hkept, hsection⟩ := Envelope.exists_section_of_parameterSet hrefused
  have hread := hmade.parameters
  rw [hkept] at hread
  cases hlast : Json.lastValue? members "Parameters" with
  | none =>
      rw [hlast] at hread
      exact nomatch (hread : some kept = none)
  | some value =>
      rw [hlast] at hread
      have hvalue : Envelope.optionalMembersOf value.merged = .ok (some kept) := hread
      cases value with
      | object sent =>
          cases hvalue
          exact ⟨sent, rfl, hsection⟩
      | _ => exact nomatch hvalue

/-- The id of members that make an envelope is that of the envelope. -/
theorem lastValue?_id_of_isMadeOf : Json.lastValue? members "CommandId" = some (.string e.id) :=
  map_merged_eq_string_iff.mp hmade.id

/-- The content of members that make an envelope is of the kind of that of the envelope. -/
theorem exists_content_of_isMadeOf :
    ∃ value, Json.lastValue? members "DocumentContent" = some value ∧
      e.content.tree.kind = value.kind := by
  obtain ⟨kept, hkept, hcontent⟩ := hmade.content
  obtain ⟨value, hvalue, rfl⟩ := Option.map_eq_some_iff.mp hkept
  rw [hcontent, Document.ofJson_merged]
  exact ⟨value, hvalue, value.kind_merged⟩

/-- Nothing is wrong with an id that is not blank. -/
theorem not_flaw_id (hid : isBlankText e.id = false) : ¬Flaw (.object members) .id cause := by
  intro hflaw
  cases hflaw with
  | id hlast hall =>
      cases (lastValue?_id_of_isMadeOf hmade).symm.trans hlast
      rw [(isBlankText_iff e.id).mpr hall] at hid
      exact nomatch hid

/-- Nothing is wrong with a content that is an object. -/
theorem not_flaw_content (hobject : e.content.tree.kind = .object) :
    ¬Flaw (.object members) .content cause := by
  obtain ⟨content, hcontent, hkind⟩ := exists_content_of_isMadeOf hmade
  intro hflaw
  cases hflaw with
  | content hlast hnot =>
      cases hcontent.symm.trans hlast
      exact hnot (hkind.symm.trans hobject)

/-- An id that is blank is noticed first. -/
theorem noticedFirst_of_blank (hid : isBlankText e.id = true) :
    NoticedFirst (Flaw (.object members)) .blankCommandId := by
  refine ⟨_, .id (lastValue?_id_of_isMadeOf hmade) ((isBlankText_iff e.id).mp hid), ?_⟩
  intro earlier hearlier other hflaw
  have hstage := hflaw.stage_of_isMadeOf hmade
  rcases hearlier with hlt | ⟨-, hlt⟩
  · exact Nat.not_lt.mpr hstage hlt
  · exact Nat.not_lt_zero _ hlt

/-- A content that is no object is noticed first, if the id is not blank. -/
theorem noticedFirst_of_content (hid : isBlankText e.id = false)
    (hnot : e.content.tree.kind ≠ .object) :
    NoticedFirst (Flaw (.object members)) (.contentNotObject e.content.tree.kind) := by
  obtain ⟨content, hcontent, hkind⟩ := exists_content_of_isMadeOf hmade
  rw [hkind] at hnot ⊢
  refine ⟨_, .content hcontent hnot, ?_⟩
  intro earlier hearlier other hflaw
  have hstage := hflaw.stage_of_isMadeOf hmade
  cases earlier with
  | text | object | field _ | needed _ => simp [Check.stage] at hstage
  | id => exact not_flaw_id hmade hid hflaw
  | content | parameter _ => simp [Check.Before, Check.stage, Check.place] at hearlier

/-- The first parameter that is refused is noticed first, if the id is not blank and the content is
    an object. -/
theorem noticedFirst_of_parameters (hid : isBlankText e.id = false)
    (hobject : e.content.tree.kind = .object) (hparameters : e.parameterSet = .error cause) :
    NoticedFirst (Flaw (.object members)) cause := by
  obtain ⟨sent, hsent, hsection⟩ := exists_sent_of_isMadeOf hmade hparameters
  obtain ⟨before, name, value, after, hsplit, hbefore, hrefused⟩ :=
    ParameterSet.readSection_eq_error_iff.mp hsection
  obtain ⟨last, hlast, rfl⟩ : ∃ last, Json.lastValue? sent name = some last ∧
      last.merged = value := by
    refine exists_last_of_kept ?_
    rw [hsplit]
    exact List.mem_append_right before List.mem_cons_self
  refine ⟨_, .parameter hsent hlast (refused_merged.mp hrefused), ?_⟩
  -- the earlier checks have nothing to notice, nor has this one at an earlier parameter
  intro earlier hearlier other hflaw
  have hstage := hflaw.stage_of_isMadeOf hmade
  cases hflaw with
  | object _ | field _ _ | needed _ _ => simp [Check.stage] at hstage
  | id hlast hall => exact not_flaw_id hmade hid (.id hlast hall)
  | content hlast hnot => exact not_flaw_content hmade hobject (.content hlast hnot)
  | parameter hsent' hlast' hother =>
      cases hsent.symm.trans hsent'
      have hle := idxOf_le_of_kept (p := fun _ value => ¬ParameterSet.Readable value) hsplit
        (fun member hmem => not_not.mpr (hbefore member hmem)) hlast'
        (ParameterSet.exists_refused_iff.mp ⟨_, refused_merged.mpr hother⟩)
      simp only [Check.Before, Check.stage, Check.place] at hearlier
      omega

/-- **Of what is wrong with an envelope the first is noticed.** -/
theorem noticedFirst_of_command (hcommand : e.command = .error cause) :
    NoticedFirst (Flaw (.object members)) cause := by
  rcases Envelope.command_eq_error_iff.mp hcommand with
    ⟨hblank, rfl⟩ | ⟨hid, ⟨hnot, rfl⟩ | ⟨hobject, hparameters⟩⟩
  · exact noticedFirst_of_blank hmade hblank
  · exact noticedFirst_of_content hmade hid hnot
  · exact noticedFirst_of_parameters hmade hid hobject hparameters

end

-- ── Whole messages ────────────────────────────────────────────────────────────────

/-- **A value that is no command is refused for its first flaw.** -/
theorem noticedFirst_of_ofDocument {tree : Json}
    (h : ofDocument (Document.ofJson tree) = .error cause) : NoticedFirst (Flaw tree) cause := by
  cases tree with
  | object members =>
      have htree : (Document.ofJson (.object members)).tree =
          .object (Json.collect (Json.merged.mergedMembers members)) := rfl
      rw [ofDocument, htree] at h
      dsimp only at h
      rw [Envelope.ofMembers] at h
      cases htake : Envelope.Draft.takeAll {}
          (Json.collect (Json.merged.mergedMembers members)) with
      | error fault =>
          -- a field has a value of the wrong kind
          rw [htake] at h
          cases h
          exact noticedFirst_of_takeAll htake
      | ok d =>
          rw [htake] at h
          dsimp only at h
          have htakes := Envelope.Draft.takes_of_takeAll htake
          rw [lastValue?_kept] at htakes
          cases hfinish : d.finish .missingField with
          | error fault =>
              -- every value has the right kind, and a field is missing
              rw [hfinish] at h
              cases h
              exact noticedFirst_of_finish htakes hfinish
          | ok e =>
              -- no field is missing, and the command is refused for what the fields say
              rw [hfinish] at h
              rw [Envelope.Draft.finish_eq_ok_iff.mp hfinish] at htakes
              exact noticedFirst_of_command (Envelope.isMadeOf_iff.mpr htakes) h
  | _ =>
      -- no check comes before that of the kind
      cases h
      refine ⟨.object, .object (by simp [Json.kind]), ?_⟩
      intro earlier hearlier other hflaw
      cases hflaw with
      | object _ => simp [Check.Before, Check.stage, Check.place] at hearlier

/-- A command has no flaw. -/
theorem IsCommand.not_flaw {c : Command} {check : Check}
    (h : IsCommand (Json.lastValue? members) c) : ¬Flaw (.object members) check cause := by
  intro hflaw
  obtain ⟨e, hmade, -⟩ := exists_envelope_iff.mpr h
  have hstage := hflaw.stage_of_isMadeOf hmade
  cases hflaw with
  | object _ | field _ _ | needed _ _ => simp [Check.stage] at hstage
  | id hlast hall =>
      obtain ⟨char, hmem, hchar⟩ := h.id_not_blank
      cases h.id.symm.trans hlast
      rw [hall char hmem] at hchar
      exact nomatch hchar
  | content hlast hnot =>
      obtain ⟨kept, hkept, -⟩ := h.content
      cases hkept.symm.trans hlast
      exact hnot rfl
  | parameter hsent hlast hrefused =>
      have hparameters := h.parameters
      rw [hsent] at hparameters
      cases hparameters with
      | object hsection =>
          have hreadable := ParameterSet.readable_iff.mpr (hsection.readable _ _ hlast)
          exact ParameterSet.exists_refused_iff.mp ⟨_, hrefused⟩ hreadable

variable {raw : ByteArray}

/-- The problems of a text that spells a value are the flaws of the value. -/
theorem problem_iff_flaw {tree : Json} {check : Check}
    (h : Json.Spells (Symbol.ofBytes raw) tree) :
    Problem raw check cause ↔ Flaw tree check cause := by
  constructor
  · intro hproblem
    cases hproblem with
    | text hfault => exact nomatch hfault.symm.trans (Json.parse_eq_ok_iff.mpr ⟨tree, h, rfl⟩)
    | value hspells hflaw =>
        have hsame : tree = _ := Except.ok.inj (Eq.trans (Eq.symm h) hspells)
        rw [hsame]
        exact hflaw
  · exact .value h

/-- A check notices one problem at most. -/
theorem Problem.unique {check : Check} {other : Malformation} (h : Problem raw check cause)
    (h' : Problem raw check other) : cause = other := by
  cases h with
  | text hfault =>
      cases h' with
      | text hfault' => rw [Except.error.inj (hfault.symm.trans hfault')]
      | value hspells _ =>
          exact nomatch hfault.symm.trans (Json.parse_eq_ok_iff.mpr ⟨_, hspells, rfl⟩)
  | value hspells hflaw => exact hflaw.unique ((problem_iff_flaw hspells).mp h')

/-- A message that is refused is refused for its first problem. -/
theorem noticedFirst_of_decode {fault : Fault} (h : decode raw = .error fault) :
    ∃ cause, fault = .malformed cause ∧ NoticedFirst (Problem raw) cause := by
  rw [decode] at h
  cases hparse : Json.parse (Symbol.ofBytes raw) with
  | error cause =>
      rw [hparse] at h
      cases h
      refine ⟨.notJson cause, rfl, .text, .text hparse, ?_⟩
      intro earlier hearlier other _
      simp [Check.Before, Check.stage, Check.place] at hearlier
  | ok message =>
      -- the text spells a value, so its problems are the flaws of that value
      rw [hparse] at h
      obtain ⟨tree, hspells, rfl⟩ := Json.parse_eq_ok_iff.mp hparse
      dsimp only at h
      cases hdocument : ofDocument (Document.ofJson tree) with
      | ok c =>
          rw [hdocument] at h
          cases h
      | error cause =>
          rw [hdocument] at h
          cases h
          obtain ⟨check, hflaw, hfirst⟩ := noticedFirst_of_ofDocument hdocument
          refine ⟨cause, rfl, check, .value hspells hflaw, ?_⟩
          intro earlier hearlier other hproblem
          exact hfirst earlier hearlier other ((problem_iff_flaw hspells).mp hproblem)

/-- A message that is accepted has no problem. -/
theorem not_problem_of_decode {c : Command} {check : Check} (h : decode raw = .ok c) :
    ¬Problem raw check cause := by
  obtain ⟨members, hspells, hc⟩ := decode_eq_ok_iff_isCommand.mp h
  rw [problem_iff_flaw hspells]
  exact hc.not_flaw

/-- **A MESSAGE IS REFUSED FOR ITS FIRST PROBLEM**, wherever events go, and for nothing that a later
    check notices; it is accepted if there is no problem at all. The text is no value exactly if the
    first check notices something, and each check notices one thing at most. -/
theorem decode_reports_first_problem (raw : ByteArray) (log : Destination) :
    (∀ fault, ((decodeTraced raw).sendTo log).1 = .error fault ↔
      ∃ cause, fault = .malformed cause ∧ NoticedFirst (Problem raw) cause) ∧
    ((∃ c, ((decodeTraced raw).sendTo log).1 = .ok c) ↔ ∀ check cause, ¬Problem raw check cause) ∧
    ((∃ cause, Problem raw .text cause) ↔ ∀ tree, ¬Json.Spells (Symbol.ofBytes raw) tree) ∧
    (∀ check cause other, Problem raw check cause → Problem raw check other → cause = other) := by
  simp only [fst_sendTo_decodeTraced]
  have hunique : ∀ check cause other, Problem raw check cause → Problem raw check other →
      cause = other := by
    intro check cause other h h'
    exact h.unique h'
  refine ⟨?_, ?_, ?_, hunique⟩
  · intro fault
    constructor
    · exact noticedFirst_of_decode
    · rintro ⟨cause, rfl, hfirst⟩
      cases hdecode : decode raw with
      | ok c =>
          -- nothing is wrong with a message that is accepted
          obtain ⟨check, hproblem, -⟩ := hfirst
          exact absurd hproblem (not_problem_of_decode hdecode)
      | error fault =>
          obtain ⟨other, rfl, hother⟩ := noticedFirst_of_decode hdecode
          rw [hother.unique hunique hfirst]
  · constructor
    · rintro ⟨c, hdecode⟩ check cause
      exact not_problem_of_decode hdecode
    · intro hnone
      cases hdecode : decode raw with
      | ok c => exact ⟨c, rfl⟩
      | error fault =>
          obtain ⟨cause, -, check, hproblem, -⟩ := noticedFirst_of_decode hdecode
          exact absurd hproblem (hnone check cause)
  · constructor
    · rintro ⟨cause, hproblem⟩ tree hspells
      cases (problem_iff_flaw hspells).mp hproblem
    · intro hnone
      cases hparse : Json.parse (Symbol.ofBytes raw) with
      | error fault => exact ⟨.notJson fault, .text hparse⟩
      | ok message =>
          obtain ⟨tree, hspells, -⟩ := Json.parse_eq_ok_iff.mp hparse
          exact absurd hspells (hnone tree)

/-- The members of a message with four problems: the name of the document is mistyped where it comes
    again, the parameters are mistyped, the content is missing, and the id is blank. -/
def faultyMembers : List (String × Json) :=
  [("OutputS3KeyPrefix", .null), ("DocumentName", .string "d"), ("CommandId", .string " "),
    ("Parameters", .array []), ("DocumentName", .bool true)]

/-- The bytes of such a message. -/
def faultyMessage : ByteArray :=
  (String.ofList (Json.object faultyMembers).render).toUTF8

/-- Of the four problems of a message that of the name of the document is reported, as it is noticed
    first; the checks of the others notice them all the same. -/
theorem decode_reports_first_problem_faulty :
    decode faultyMessage =
      .error (.malformed (.badEnvelope (.wrongKind (.bool true) .text))) ∧
    NoticedFirst (Problem faultyMessage) (.badEnvelope (.wrongKind (.bool true) .text)) ∧
    (∀ other, Problem faultyMessage (.field 1) other →
      .badEnvelope (.wrongKind (.bool true) .text) = other) ∧
    Problem faultyMessage (.field 3) (.badEnvelope (.wrongKind .sequence .map)) ∧
    Problem faultyMessage (.needed 0) (.badEnvelope (.missingField "DocumentContent")) ∧
    Problem faultyMessage .id .blankCommandId := by
  obtain ⟨hreports, -, -, hone⟩ := decode_reports_first_problem faultyMessage .nowhere
  have hspells : Json.Spells (Symbol.ofBytes faultyMessage) (.object faultyMembers) :=
    (Json.written_render (.object faultyMembers)).writtenText.spells (by decide)
  have hdecode : decode faultyMessage =
      .error (.malformed (.badEnvelope (.wrongKind (.bool true) .text))) := by decide +kernel
  have hlast : Json.lastValue? faultyMembers "DocumentName" = some (.bool true) ∧
      Json.lastValue? faultyMembers "Parameters" = some (.array []) ∧
      Json.lastValue? faultyMembers "DocumentContent" = none ∧
      Json.lastValue? faultyMembers "CommandId" = some (.string " ") := ⟨rfl, rfl, rfl, rfl⟩
  obtain ⟨hname, hparameters, hcontent, hid⟩ := hlast
  have hproblem : Problem faultyMessage (.field 1) (.badEnvelope (.wrongKind (.bool true) .text)) :=
    .value hspells (.field hname (.neededText (by decide) (by decide)))
  obtain ⟨cause, hcause, hfirst⟩ := (hreports _).mp ((fst_sendTo_decodeTraced _ _).trans hdecode)
  cases hcause
  refine ⟨hdecode, hfirst, fun other => hone _ _ other hproblem, ?_, ?_, ?_⟩
  · exact .value hspells (.field hparameters (.parameters (by decide) (by decide)))
  · exact .value hspells (.needed (by decide) hcontent)
  · exact .value hspells (.id hid ((isBlankText_iff " ").mp (by decide)))

end AgentWire.Command
