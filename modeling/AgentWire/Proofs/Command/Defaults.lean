import AgentWire.Proofs.Command.Acceptance
import AgentWire.Proofs.Command.Resolution

/-!
# Defaults — sending a default is the same as leaving it out

A sender may leave out a parameter that the document has a default for, or send the default: as a
text, as a list, anywhere among the other parameters, and with or without a section that was there
before (`SendsDefaults`). Both messages have one outcome.

1. The set that is sent then has the values it had, and declared defaults under names that had none
   (`AddsDefaults`).
2. Completion adds the declared defaults where nothing is there, so it makes the same set of both:

       AddsDefaults content p p'  →  p'.withDefaults content = p.withDefaults content

3. Resolving looks at the parameters of a command when they are completed, and not before.
-/

namespace AgentWire

namespace ParameterSet

-- ── Sets ──────────────────────────────────────────────────────────────────────────

/-- A value is a default of one list of values at most. -/
theorem IsDefault.unique {value : Json} {values others : List String} (h : IsDefault value values)
    (h' : IsDefault value others) : values = others := by
  rw [← defaultValues?_eq_some_iff] at h h'
  exact Option.some.inj (h.symm.trans h')

/-- A document declares one default for a name at most. -/
theorem Declares.unique {content : Json} (hdistinct : content.Distinct) {name : String}
    {values others : List String} (h : Declares content name values)
    (h' : Declares content name others) : values = others := by
  have hnone : empty.get? name = none := rfl
  have hvalues := (get?_withDefaults hdistinct empty name values).mpr (.inr ⟨hnone, h⟩)
  have hothers := (get?_withDefaults hdistinct empty name others).mpr (.inr ⟨hnone, h'⟩)
  exact Option.some.inj (hvalues.symm.trans hothers)

/-- A set has what another one has, and declared defaults under some names that have nothing in
    it. -/
def AddsDefaults (content : Json) (p p' : ParameterSet) : Prop :=
  ∀ name, p'.get? name = p.get? name ∨
    p.get? name = none ∧ ∃ values, Declares content name values ∧ p'.get? name = some values

/-- **DEFAULTS THAT ARE THERE ALREADY MAKE NO DIFFERENCE TO COMPLETION.** -/
theorem AddsDefaults.withDefaults_eq {content : Json} (hdistinct : content.Distinct)
    {p p' : ParameterSet} (h : AddsDefaults content p p') :
    p'.withDefaults content = p.withDefaults content := by
  refine ext_get? ?_
  intro name values
  rw [get?_withDefaults hdistinct, get?_withDefaults hdistinct]
  rcases h name with hsame | ⟨hnone, added, hdeclares, hadded⟩
  · rw [hsame]
  · rw [hnone, hadded]
    constructor
    · rintro (hvalues | ⟨hnever, -⟩)
      · exact .inr ⟨rfl, Option.some.inj hvalues ▸ hdeclares⟩
      · exact nomatch hnever
    · rintro (hnever | ⟨-, hvalues⟩)
      · exact nomatch hnever
      · exact .inl (congrArg some (hdeclares.unique hdistinct hvalues))

-- ── Sections ──────────────────────────────────────────────────────────────────────

/-- A section with declared defaults among its members, each under a name that `sent` does not
    have. -/
inductive Supplemented (content : Json) (sent : List (String × Json)) :
    List (String × Json) → List (String × Json) → Prop
  | nil : Supplemented content sent [] []
  | keep {before after : List (String × Json)} (member : String × Json) :
      Supplemented content sent before after →
        Supplemented content sent (member :: before) (member :: after)
  | add {before after : List (String × Json)} {name : String} {value : Json}
      {values : List String} : name ∉ Json.names sent → Declares content name values →
        IsDefault value values → Supplemented content sent before after →
          Supplemented content sent before ((name, value) :: after)

variable {content : Json} {sent before after : List (String × Json)}

/-- Under a name that was sent stands what stood there. -/
theorem Supplemented.lastValue?_of_mem (h : Supplemented content sent before after) {name : String}
    (hname : name ∈ Json.names sent) :
    Json.lastValue? after name = Json.lastValue? before name := by
  induction h with
  | nil => rfl
  | keep member _ ih => rw [Json.lastValue?_cons, Json.lastValue?_cons, ih]
  | @add _ _ other _ _ hfresh _ _ _ ih =>
      have hother : name ≠ other := by
        rintro rfl
        exact hfresh hname
      rw [Json.lastValue?_cons, ih, if_neg hother, Option.or_none]

/-- What stands in the section stood there before or is a declared default. -/
theorem Supplemented.mem_or_isDefault (h : Supplemented content sent before after)
    {member : String × Json} (hmem : member ∈ after) :
    member ∈ before ∨
      ∃ values, Declares content member.1 values ∧ IsDefault member.2 values := by
  induction h with
  | nil => exact nomatch hmem
  | keep first _ ih =>
      rcases List.mem_cons.mp hmem with rfl | hin
      · exact .inl List.mem_cons_self
      · exact (ih hin).imp_left (List.mem_cons_of_mem first)
  | add _ hdeclares hdefault _ ih =>
      rcases List.mem_cons.mp hmem with rfl | hin
      · exact .inr ⟨_, hdeclares, hdefault⟩
      · exact ih hin

/-- **A supplemented section holds the parameters that were sent, and declared defaults.** -/
theorem Supplemented.exists_addsDefaults (h : Supplemented content sent sent after)
    {p : ParameterSet} (hp : IsSection (Json.lastValue? sent) p) :
    ∃ p', IsSection (Json.lastValue? after) p' ∧ AddsDefaults content p p' := by
  have hdeclared : ∀ name value, name ∉ Json.names sent →
      Json.lastValue? after name = some value →
        ∃ values, Declares content name values ∧ IsDefault value values := by
    intro name value hfresh hlast
    rcases h.mem_or_isDefault (Json.mem_of_lastValue? hlast) with hmem | hdefault
    · exact absurd (List.mem_map.mpr ⟨_, hmem, rfl⟩) hfresh
    · exact hdefault
  have hreadable : ∀ name value, Json.lastValue? after name = some value →
      ∃ values, IsDefault value values := by
    intro name value hlast
    by_cases hname : name ∈ Json.names sent
    · rw [h.lastValue?_of_mem hname] at hlast
      exact hp.readable name value hlast
    · obtain ⟨values, -, hdefault⟩ := hdeclared name value hname hlast
      exact ⟨values, hdefault⟩
  obtain ⟨p', hp'⟩ := exists_isSection hreadable
  refine ⟨p', hp', ?_⟩
  intro name
  by_cases hname : name ∈ Json.names sent
  · refine .inl (Option.ext fun values => ?_)
    rw [hp'.values, hp.values, h.lastValue?_of_mem hname]
  · have hnone : p.get? name = none := by
      refine Option.eq_none_iff_forall_ne_some.mpr fun values hsome => ?_
      obtain ⟨value, hvalue, -⟩ := (hp.values name values).mp hsome
      exact nomatch (Json.lastValue?_of_not_mem hname).symm.trans hvalue
    -- under a name that was not sent there is a default or nothing
    cases hget : p'.get? name with
    | none => exact .inl hnone.symm
    | some values =>
        obtain ⟨value, hvalue, hvalues⟩ := (hp'.values name values).mp hget
        obtain ⟨others, hdeclares, hothers⟩ := hdeclared name value hname hvalue
        rw [hothers.unique hvalues] at hdeclares
        exact .inr ⟨hnone, values, hdeclares, rfl⟩

/-- A section without members holds no parameters. -/
theorem isSection_nil : IsSection (Json.lastValue? []) empty :=
  isSection_lastValue?_iff.mpr rfl

/-- A supplemented section is nested no deeper than lists of strings, unless it was before. -/
theorem Supplemented.depth_le (h : Supplemented content sent before after) {bound : Nat}
    (hbound : 1 ≤ bound) (hdepth : Json.depth.depthMembers before ≤ bound) :
    Json.depth.depthMembers after ≤ bound := by
  rw [Json.depthMembers_le_iff] at hdepth ⊢
  intro member hmem
  rcases h.mem_or_isDefault hmem with hin | ⟨values, -, hdefault⟩
  · exact hdepth member hin
  · exact Nat.le_trans hdefault.depth_le hbound

end ParameterSet

namespace Command

open ParameterSet (Supplemented AddsDefaults)

-- ── Messages ──────────────────────────────────────────────────────────────────────

/-- A message that sends declared defaults in addition: in its last section of parameters, or in one
    of its own where there was none. -/
inductive SendsDefaults (content : Json) : List (String × Json) → List (String × Json) → Prop
  | missing {before after supplied : List (String × Json)} :
      "Parameters" ∉ Json.names (before ++ after) → Supplemented content [] [] supplied →
        SendsDefaults content (before ++ after)
          (before ++ ("Parameters", .object supplied) :: after)
  | null {before after supplied : List (String × Json)} :
      "Parameters" ∉ Json.names after → Supplemented content [] [] supplied →
        SendsDefaults content (before ++ ("Parameters", .null) :: after)
          (before ++ ("Parameters", .object supplied) :: after)
  | object {before after sent supplied : List (String × Json)} :
      "Parameters" ∉ Json.names after → Supplemented content sent sent supplied →
        SendsDefaults content (before ++ ("Parameters", .object sent) :: after)
          (before ++ ("Parameters", .object supplied) :: after)

variable {content : Json} {members members' : List (String × Json)}

/-- What stands under other names stays. -/
theorem SendsDefaults.lastValue?_of_ne (h : SendsDefaults content members members') {name : String}
    (hname : name ≠ "Parameters") :
    Json.lastValue? members' name = Json.lastValue? members name := by
  cases h with
  | missing _ _ => rw [Json.lastValue?_among_of_ne hname]
  | null _ _ => rw [Json.lastValue?_among_of_ne hname, Json.lastValue?_among_of_ne hname]
  | object _ _ => rw [Json.lastValue?_among_of_ne hname, Json.lastValue?_among_of_ne hname]

/-- Where there were no parameters, the declared defaults are all there are. -/
theorem exists_addsDefaults_empty {supplied : List (String × Json)}
    (h : Supplemented content [] [] supplied) :
    ∃ p', HoldsParameters (some (.object supplied)) p' ∧ AddsDefaults content .empty p' := by
  obtain ⟨p', hp', hadds⟩ := h.exists_addsDefaults ParameterSet.isSection_nil
  exact ⟨p', .object hp', hadds⟩

/-- **The parameters of the message are those it had before, with declared defaults.** -/
theorem SendsDefaults.exists_addsDefaults (h : SendsDefaults content members members')
    {p : ParameterSet} (hp : HoldsParameters (Json.lastValue? members "Parameters") p) :
    ∃ p', HoldsParameters (Json.lastValue? members' "Parameters") p' ∧
      AddsDefaults content p p' := by
  cases h with
  | @missing before after supplied hfresh hsupplied =>
      have hafter : "Parameters" ∉ Json.names after := by
        intro hmem
        rw [Json.names, List.map_append] at hfresh
        exact hfresh (List.mem_append_right _ hmem)
      rw [Json.lastValue?_of_not_mem hfresh] at hp
      rw [Json.lastValue?_among_self hafter]
      cases hp
      exact exists_addsDefaults_empty hsupplied
  | null hafter hsupplied =>
      rw [Json.lastValue?_among_self hafter] at hp ⊢
      cases hp
      exact exists_addsDefaults_empty hsupplied
  | object hafter hsupplied =>
      rw [Json.lastValue?_among_self hafter] at hp ⊢
      cases hp with
      | object hsection =>
          obtain ⟨p', hp', hadds⟩ := hsupplied.exists_addsDefaults hsection
          exact ⟨p', .object hp', hadds⟩

/-- A message that sends defaults in addition makes the same command, but for its parameters. -/
theorem SendsDefaults.exists_isCommand (h : SendsDefaults content members members') {c : Command}
    (hc : IsCommand (Json.lastValue? members) c) :
    ∃ p', IsCommand (Json.lastValue? members') { c with parameters := p' } ∧
      AddsDefaults content c.parameters p' := by
  obtain ⟨p', hp', hadds⟩ := h.exists_addsDefaults hc.parameters
  refine ⟨p', ?_, hadds⟩
  exact
    { id := (h.lastValue?_of_ne (by decide)).trans hc.id
      id_not_blank := hc.id_not_blank
      documentName := (h.lastValue?_of_ne (by decide)).trans hc.documentName
      content := by
        rw [h.lastValue?_of_ne (by decide)]
        exact hc.content
      parameters := hp'
      outputKeys := by
        rw [h.lastValue?_of_ne (by decide)]
        exact hc.outputKeys
      outputBucket := by
        rw [h.lastValue?_of_ne (by decide)]
        exact hc.outputBucket }

/-- A section of parameters may stand where sections of lists may. -/
theorem depth_supplied_le {sent supplied : List (String × Json)}
    (h : Supplemented content sent sent supplied) {bound : Nat} (hbound : 2 ≤ bound)
    (hdepth : (Json.object sent).depth ≤ bound) : (Json.object supplied).depth ≤ bound := by
  obtain ⟨bound, rfl⟩ := Nat.exists_eq_add_of_le' hbound
  exact Nat.succ_le_succ
    (h.depth_le (Nat.le_add_left 1 bound) (Nat.le_of_succ_le_succ hdepth))

/-- Sending defaults nests a message no deeper than sections of lists are nested, unless it was
    before. -/
theorem SendsDefaults.depth_le (h : SendsDefaults content members members') {bound : Nat}
    (hbound : 2 ≤ bound) (hdepth : Json.depth.depthMembers members ≤ bound) :
    Json.depth.depthMembers members' ≤ bound := by
  have hnone : (Json.object []).depth ≤ bound := Nat.le_trans (Nat.le_succ 1) hbound
  cases h with
  | missing _ hsupplied =>
      exact Json.depthMembers_among_le_iff.mpr ⟨depth_supplied_le hsupplied hbound hnone, hdepth⟩
  | null _ hsupplied =>
      rw [Json.depthMembers_among_le_iff] at hdepth ⊢
      exact ⟨depth_supplied_le hsupplied hbound hnone, hdepth.2⟩
  | object _ hsupplied =>
      rw [Json.depthMembers_among_le_iff] at hdepth ⊢
      exact ⟨depth_supplied_le hsupplied hbound hdepth.1, hdepth.2⟩

-- ── Outcomes ──────────────────────────────────────────────────────────────────────

/-- **A COMMAND IS RESOLVED BY ITS COMPLETED PARAMETERS**, whichever of them were sent. -/
theorem resolve_of_addsDefaults {c : Command} {p' : ParameterSet}
    (h : AddsDefaults c.content.tree c.parameters p') :
    { c with parameters := p' }.resolve = c.resolve := by
  have hcompleted : { c with parameters := p' }.completedParameters = c.completedParameters :=
    h.withDefaults_eq c.content.distinct
  rw [resolve, resolve, hcompleted]

/-- **SENDING A DEFAULT IS THE SAME AS LEAVING IT OUT**: the message is resolved to the same command
    or refused for the same reference. Each text of the message with the defaults can be read. -/
theorem sending_defaults_changes_nothing {raw : ByteArray} {c : Command}
    (hspells : Json.Spells (Symbol.ofBytes raw) (.object members)) (hdecode : decode raw = .ok c)
    (hsends : SendsDefaults c.content.tree members members') :
    (∀ raw', Json.Spells (Symbol.ofBytes raw') (.object members') → parse raw' = parse raw) ∧
    ((∃ resolved, parse raw = .ok resolved) ∨
      ∃ fault, parse raw = .error fault ∧ fault.IsUnresolved) ∧
    (∀ text, Json.WrittenText (.object members') text →
      Json.Spells (Symbol.ofBytes (String.ofList text).toUTF8) (.object members')) := by
  refine ⟨?_, ?_, ?_⟩
  · intro raw' hspells'
    obtain ⟨p', hc', hadds⟩ := hsends.exists_isCommand ((decode_of_spells hspells c).mp hdecode)
    have hdecode' := (decode_of_spells hspells' _).mpr hc'
    rw [parse_of_decode hdecode', parse_of_decode hdecode, resolve_of_addsDefaults hadds]
  · rw [parse_of_decode hdecode]
    cases hresolve : c.resolve with
    | ok resolved => exact .inl ⟨resolved, rfl⟩
    | error fault => exact .inr ⟨fault, rfl, isUnresolved_of_resolve hresolve⟩
  · intro text htext
    refine htext.spells (Nat.succ_le_succ (hsends.depth_le ?_ ?_))
    · decide
    · exact Nat.le_of_succ_le_succ hspells.depth_le

/-- The members of a greeting with some parameters. -/
def greetingMembers (sent : List (String × Json)) : List (String × Json) :=
  [("Parameters", .object sent), ("DocumentContent", greetingContent.tree),
    ("CommandId", .string "1"), ("DocumentName", .string "")]

/-- The message of a greeting with some parameters. -/
def greetingMessage (sent : List (String × Json)) : ByteArray :=
  (String.ofList (Json.object (greetingMembers sent)).render).toUTF8

/-- A greeting is decoded with the parameters that it is sent with. -/
theorem isCommand_greetingMembers {sent : List (String × Json)} {p : ParameterSet}
    (h : ParameterSet.IsSection (Json.lastValue? sent) p) :
    IsCommand (Json.lastValue? (greetingMembers sent)) (greeting p) where
  id := rfl
  id_not_blank := isBlankText_eq_false_iff.mp (sendable_greeting p).id_not_blank
  documentName := rfl
  content := ⟨_, rfl, (Document.ofJson_tree greetingContent).symm⟩
  parameters := .object h
  outputKeys := .missing
  outputBucket := .missing

/-- A greeting is resolved as the command that it is decoded to. -/
theorem parse_greetingMessage {sent : List (String × Json)} {p : ParameterSet}
    (hspells : Json.Spells (Symbol.ofBytes (greetingMessage sent))
      (.object (greetingMembers sent)))
    (h : ParameterSet.IsSection (Json.lastValue? sent) p) :
    decode (greetingMessage sent) = .ok (greeting p) ∧
      parse (greetingMessage sent) = parse (greeting p).encode.toUTF8 := by
  have hdecode := (decode_of_spells hspells _).mpr (isCommand_greetingMembers h)
  refine ⟨hdecode, ?_⟩
  rw [parse_of_decode hdecode, parse_of_decode (sendable_greeting p).decode_encode]

/-- Parameters that are added to a greeting are added to its section. -/
theorem sendsDefaults_greetingMembers {sent supplied : List (String × Json)}
    (h : Supplemented greetingContent.tree sent sent supplied) :
    SendsDefaults greetingContent.tree (greetingMembers sent) (greetingMembers supplied) :=
  @SendsDefaults.object _ [] _ _ _ (by decide) h

/-- A greeting with something to say is resolved alike whether it says for whom, and one without is
    refused alike. -/
theorem sending_defaults_changes_nothing_greeting :
    (∃ resolved, parse (greetingMessage [("say", .string "Hi")]) = .ok resolved ∧
      parse (greetingMessage [("who", .array [.string "you"]), ("say", .string "Hi")]) =
        .ok resolved) ∧
    (∃ fault, fault.IsUnresolved ∧ parse (greetingMessage []) = .error fault ∧
      parse (greetingMessage [("who", .string "you")]) = .error fault) := by
  have hdeclares : ParameterSet.Declares greetingContent.tree "who" ["you"] :=
    ⟨_, _, _, rfl, List.mem_cons_self, rfl, .single "you"⟩
  constructor
  · have hspells := (Json.written_render
      (.object (greetingMembers [("say", .string "Hi")]))).writtenText.spells (by decide)
    have hsection : ParameterSet.IsSection (Json.lastValue? [("say", .string "Hi")])
        (.ofList [("say", ["Hi"])]) := ParameterSet.isSection_lastValue?_iff.mpr rfl
    obtain ⟨hdecode, hparse⟩ := parse_greetingMessage hspells hsection
    have hsends := sendsDefaults_greetingMembers
      (.add (by decide) hdeclares (.list ["you"]) (.keep ("say", .string "Hi") .nil))
    obtain ⟨hsame, -, htexts⟩ := sending_defaults_changes_nothing hspells hdecode hsends
    have hline : (ParameterSet.ofList [("say", ["Hi"]), ("who", ["you"])]).substituteText
        greetingLine = .ok "Hi you" := by cbv
    obtain ⟨resolved, hresolved⟩ := exists_parse_greeting (completedParameters_greeting_say _) hline
    rw [← hparse] at hresolved
    exact ⟨resolved, hresolved,
      (hsame _ (htexts _ (Json.written_render _).writtenText)).trans hresolved⟩
  · have hspells :=
      (Json.written_render (.object (greetingMembers []))).writtenText.spells (by decide)
    obtain ⟨hdecode, hparse⟩ := parse_greetingMessage hspells ParameterSet.isSection_nil
    have hsends := sendsDefaults_greetingMembers (.add (by decide) hdeclares (.single "you") .nil)
    obtain ⟨hsame, -, htexts⟩ := sending_defaults_changes_nothing hspells hdecode hsends
    have hline : (ParameterSet.ofList [("who", ["you"])]).substituteText greetingLine =
        .error (.unresolved "say" "{{ say }}") := by cbv
    have hrefused := parse_greeting_eq_error completedParameters_greeting_empty hline
    rw [← hparse] at hrefused
    exact ⟨_, ⟨"say", "{{ say }}", rfl⟩, hrefused,
      (hsame _ (htexts _ (Json.written_render _).writtenText)).trans hrefused⟩

end Command

end AgentWire
