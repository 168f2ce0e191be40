import AgentWire.CommandLine.Run
import AgentWire.Proofs.Command.Resolution

/-!
# References and parsing — the two reports agree

The report of references reads a message and asks of each reference in its content whether a
value is there; the report of a command resolves the references one after the other and looks at
what comes out. They read the message alike, so they refuse the same messages for the same fault,
and otherwise

    some entry has no value            →  the command is refused
    every entry has a value, and the
    command is refused all the same    →  for a token that is none of the entries'

because a reference that is not in the content can only stand in a text that is filled in, and a
token tells the reference.
-/

namespace AgentWire.CommandLine

/-- The entries of the report on the references of a command, in the order of the document. -/
def referenceEntries (c : Command) : List Json :=
  c.references.map (referenceEntry c.completedParameters)

-- ── What an entry says ────────────────────────────────────────────────────────────

theorem member?_resolved (p : ParameterSet) (r : Reference) :
    (referenceEntry p r).member? "resolved" = some (.bool (p.select? r).isSome) := rfl

theorem member?_token (p : ParameterSet) (r : Reference) :
    (referenceEntry p r).member? "token" = some (.string r.token) := rfl

theorem member?_name (p : ParameterSet) (r : Reference) :
    (referenceEntry p r).member? "name" = some (.string r.name) := rfl

theorem member?_index (p : ParameterSet) (r : Reference) :
    (referenceEntry p r).member? "index" =
      some (r.index.elim .null fun index => .number (.ofUInt64 index)) := by
  show some _ = some _
  cases r.index <;> rfl

/-- **What the entries say under a name is what each of them says there**, in the order of the
    references. -/
theorem map_member?_entries {c : Command} {name : String} {said : Reference → Json}
    (h : ∀ r, (referenceEntry c.completedParameters r).member? name = some (said r)) :
    (referenceEntries c).map (·.member? name) = c.references.map fun r => some (said r) := by
  rw [referenceEntries, List.map_map]
  exact List.map_congr_left fun r _ => h r

theorem distinct_referenceEntry (p : ParameterSet) (r : Reference) :
    (referenceEntry p r).Distinct := by
  refine ⟨?_, trivial, ?_, trivial, trivial, trivial⟩
  · show List.Nodup ["name", "index", "token", "resolved"]
    decide
  · cases r.index with
    | none => trivial
    | some index => trivial

theorem depth_referenceEntry_le (p : ParameterSet) (r : Reference) :
    (referenceEntry p r).depth ≤ 1 := by
  refine Nat.succ_le_succ (Json.depthMembers_le_iff.mpr ?_)
  intro member hmem
  simp only [List.mem_cons, List.not_mem_nil, or_false] at hmem
  rcases hmem with rfl | rfl | rfl | rfl
  · exact Nat.le_refl 0
  · cases r.index with
    | none => exact Nat.le_refl 0
    | some index => exact Nat.le_refl 0
  · exact Nat.le_refl 0
  · exact Nat.le_refl 0

theorem distinct_referenceEntries (c : Command) : (Json.array (referenceEntries c)).Distinct := by
  show Json.Distinct.distinctItems (c.references.map _)
  induction c.references with
  | nil => trivial
  | cons r rest ih => exact ⟨distinct_referenceEntry _ r, ih⟩

/-- **The report on references is a text of JSON that reads as its entries.** -/
theorem parse_referencesText (c : Command) :
    Json.parse (Symbol.ofString (referencesText true c)) =
      .ok ⟨.array (referenceEntries c), distinct_referenceEntries c⟩ := by
  have hdepth : (Json.array (referenceEntries c)).depth ≤ Json.nestingLimit := by
    have hitems : Json.depth.depthItems (referenceEntries c) ≤ 1 := by
      refine Json.depthItems_le_iff.mpr ?_
      intro entry hmem
      obtain ⟨r, -, rfl⟩ := List.mem_map.mp hmem
      exact depth_referenceEntry_le _ r
    exact Nat.le_trans (Nat.succ_le_succ hitems) (by decide)
  have hparse :=
    Json.parse_written hdepth (Json.written_render (.array (referenceEntries c))).writtenText
  rw [Document.ofJson_tree ⟨.array (referenceEntries c), distinct_referenceEntries c⟩] at hparse
  rw [← hparse, ← Symbol.ofBytes_toByteArray]
  rfl

-- ── What the entries say of the command ───────────────────────────────────────────

/-- An entry without a value is a reference that selects nothing. -/
theorem exists_select?_eq_none {c : Command} {entry : Json} (hmem : entry ∈ referenceEntries c)
    (hopen : entry.member? "resolved" = some (.bool false)) :
    ∃ r ∈ c.references, c.completedParameters.select? r = none := by
  obtain ⟨r, hr, rfl⟩ := List.mem_map.mp hmem
  rw [member?_resolved] at hopen
  have hfalse : (c.completedParameters.select? r).isSome = false :=
    Json.bool.inj (Option.some.inj hopen)
  exact ⟨r, hr, Option.isNone_iff_eq_none.mp (Option.isSome_eq_false_iff.mp hfalse)⟩

/-- Where every entry has a value, every reference in the content selects one. -/
theorem selectsAll_of_entries {c : Command}
    (hclosed : ∀ entry ∈ referenceEntries c, entry.member? "resolved" = some (.bool true)) :
    c.completedParameters.SelectsAll c.references := by
  intro r hr
  have hentry := hclosed _ (List.mem_map.mpr ⟨r, hr, rfl⟩)
  rw [member?_resolved] at hentry
  exact Json.bool.inj (Option.some.inj hentry)

/-- **An entry without a value refuses the command.** -/
theorem resolve_eq_error_of_entry {c : Command} {entry : Json} (hmem : entry ∈ referenceEntries c)
    (hopen : entry.member? "resolved" = some (.bool false)) :
    ∃ name token, c.resolve = .error (.unresolved name token) := by
  obtain ⟨r, hr, hnone⟩ := exists_select?_eq_none hmem hopen
  obtain ⟨fault, hfault⟩ := ParameterSet.exists_error_of_select?_eq_none hr hnone
  have hresolve := Command.resolve_eq_error_iff.mpr hfault
  obtain ⟨name, token, rfl⟩ := Command.isUnresolved_of_resolve hresolve
  exact ⟨name, token, hresolve⟩

/-- **A command whose entries all have values is refused for a token of none of them.** -/
theorem token_of_resolve_eq_error {c : Command} {fault : Fault}
    (hclosed : ∀ entry ∈ referenceEntries c, entry.member? "resolved" = some (.bool true))
    (h : c.resolve = .error fault) :
    ∃ name token, fault = .unresolved name token ∧
      ∀ entry ∈ referenceEntries c, entry.member? "token" ≠ some (.string token) := by
  have hall := selectsAll_of_entries hclosed
  obtain ⟨r, hfault, hnone, hwhere⟩ :=
    ParameterSet.exists_of_substitute_error (Command.resolve_eq_error_iff.mp h)
  have hnot : r ∉ c.references := by
    intro hr
    have hsome := hall r hr
    rw [hnone] at hsome
    exact Bool.noConfusion hsome
  refine ⟨r.name, r.token, hfault, ?_⟩
  intro entry hmem htoken
  obtain ⟨listed, hlisted, rfl⟩ := List.mem_map.mp hmem
  rw [member?_token] at htoken
  have hsame : listed.token = r.token := Json.string.inj (Option.some.inj htoken)
  -- what is left was in the content or came in with a value
  rcases hwhere with hr | ⟨text, -, hr⟩
  · exact hnot hr
  · obtain ⟨leaf, -, hleaf⟩ := List.mem_flatMap.mp hlisted
    rw [Reference.eq_of_token_eq hleaf hr hsame] at hlisted
    exact hnot hlisted

-- ── The two reports ───────────────────────────────────────────────────────────────

theorem result_referencesReport (raw : ByteArray) :
    (referencesReport true raw).result = (Command.decode raw).map (referencesText true) := by
  show (Command.decodeTraced raw).result.map (referencesText true) = _
  rw [show (Command.decodeTraced raw).result = Command.decode raw from
    Command.fst_sendTo_decodeTraced raw .own]

theorem result_parseReport (raw : ByteArray) :
    (parseReport raw).result = (Command.parse raw).map fun command => command.toJson.spread := rfl

/-- **THE REPORTS ON REFERENCES AND ON COMMANDS AGREE** on every message. Of one that is decoded the
    first lists the references in its content, each with its name, its index, its token and whether
    a value is there, and what it says there of values decides how the second fails; a message that
    is not decoded is refused by both for the same fault. -/
theorem references_agree_with_parse (raw : ByteArray) :
    (∀ sent, Command.decode raw = .ok sent → ∃ text entries hdistinct,
      (referencesReport true raw).result = .ok text ∧
      Json.parse (Symbol.ofString text) = .ok ⟨.array entries, hdistinct⟩ ∧
      entries = sent.references.map (referenceEntry sent.completedParameters) ∧
      entries.map (·.member? "name") = sent.references.map (fun r => some (.string r.name)) ∧
      entries.map (·.member? "index") = sent.references.map (fun r =>
        some (r.index.elim .null fun index => .number (.ofUInt64 index))) ∧
      entries.map (·.member? "token") = sent.references.map (fun r => some (.string r.token)) ∧
      entries.map (·.member? "resolved") = sent.references.map (fun r =>
        some (.bool (sent.completedParameters.select? r).isSome)) ∧
      ((∃ entry ∈ entries, entry.member? "resolved" = some (.bool false)) →
        ∃ name token, Command.parse raw = .error (.unresolved name token)) ∧
      (∀ fault, (∀ entry ∈ entries, entry.member? "resolved" = some (.bool true)) →
        Command.parse raw = .error fault → ∃ name token, fault = .unresolved name token ∧
          ∀ entry ∈ entries, entry.member? "token" ≠ some (.string token))) ∧
    (∀ fault, Command.decode raw = .error fault → ∃ cause, fault = .malformed cause ∧
      (referencesReport true raw).result = .error fault ∧
      (parseReport raw).result = .error fault ∧ Command.parse raw = .error fault) := by
  constructor
  · intro sent hdecode
    refine ⟨referencesText true sent, referenceEntries sent, distinct_referenceEntries sent,
      ?_, parse_referencesText sent, rfl, map_member?_entries (member?_name _),
      map_member?_entries (member?_index _), map_member?_entries (member?_token _),
      map_member?_entries (member?_resolved _), ?_, ?_⟩
    · rw [result_referencesReport, hdecode]
      rfl
    · -- a reference of the content that selects no value is reported by the substitution
      rintro ⟨entry, hmem, hopen⟩
      rw [Command.parse_of_decode hdecode]
      exact resolve_eq_error_of_entry hmem hopen
    · -- all of them select one, so only a reference that a value brought in is left
      intro fault hclosed hparse
      rw [Command.parse_of_decode hdecode] at hparse
      exact token_of_resolve_eq_error hclosed hparse
  · intro fault hdecode
    obtain ⟨cause, hcause⟩ := Command.exists_malformed_of_decode hdecode
    have hparse := Command.parse_of_decode_error hdecode
    refine ⟨cause, hcause, ?_, ?_, hparse⟩
    · rw [result_referencesReport, hdecode]
      rfl
    · rw [result_parseReport, hparse]
      rfl

/-- A greeting without anything to say has an entry without a value; one that says a reference of
    its own is refused for that; and no bytes at all are refused by both. -/
theorem references_agree_with_parse_greeting :
    (∃ name token, Command.parse (Command.greeting .empty).encode.toUTF8 =
      .error (.unresolved name token)) ∧
    (∃ name token, Command.parse
        (Command.greeting (.ofList [("say", ["{{ other }}"])])).encode.toUTF8 =
          .error (.unresolved name token) ∧
      token ≠ "{{ say }}" ∧ token ≠ "{{ who }}") ∧
    (∃ cause, (referencesReport true .empty).result = .error (.malformed cause) ∧
      Command.parse .empty = .error (.malformed cause)) := by
  refine ⟨?_, ?_, ?_⟩
  · obtain ⟨-, entries, -, -, -, hentries, -, -, -, -, hopen, -⟩ :=
      (references_agree_with_parse _).1 _ (Command.sendable_greeting .empty).decode_encode
    refine hopen ⟨referenceEntry (.ofList [("who", ["you"])]) ⟨"say", none, "{{ say }}"⟩, ?_, ?_⟩
    · rw [hentries, Command.completedParameters_greeting_empty, Command.references_greeting]
      exact List.mem_cons_self
    · decide +kernel
  · have hline : (ParameterSet.ofList [("say", ["{{ other }}"]), ("who", ["you"])]).substituteText
        Command.greetingLine = .error (.unresolved "other" "{{ other }}") := by cbv
    have hparse := Command.parse_greeting_eq_error
      (Command.completedParameters_greeting_say _) hline
    obtain ⟨-, entries, -, -, -, hentries, -, -, -, -, -, hclosed⟩ :=
      (references_agree_with_parse _).1 _ (Command.sendable_greeting _).decode_encode
    have hlist : entries = [referenceEntry (.ofList [("say", ["{{ other }}"]), ("who", ["you"])])
          ⟨"say", none, "{{ say }}"⟩,
        referenceEntry (.ofList [("say", ["{{ other }}"]), ("who", ["you"])])
          ⟨"who", none, "{{ who }}"⟩] := by
      rw [hentries, Command.completedParameters_greeting_say, Command.references_greeting]
      rfl
    obtain ⟨name, token, hfault, htokens⟩ := hclosed _ (by rw [hlist]; decide +kernel) hparse
    rw [hlist] at htokens
    refine ⟨name, token, hfault ▸ hparse, ?_, ?_⟩
    · rintro rfl
      exact htokens _ List.mem_cons_self rfl
    · rintro rfl
      exact htokens _ (List.mem_cons_of_mem _ List.mem_cons_self) rfl
  · have hdecode : Command.decode .empty =
        .error (.malformed (.notJson (.text .endInValue))) := by cbv
    obtain ⟨cause, hcause, hreferencesReport, -, hparse⟩ :=
      (references_agree_with_parse .empty).2 _ hdecode
    rw [hcause] at hreferencesReport hparse
    exact ⟨cause, hreferencesReport, hparse⟩

end AgentWire.CommandLine
