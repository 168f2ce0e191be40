import AgentWire.Command.Draft
import AgentWire.Proofs.Command.Acceptance
import AgentWire.Proofs.Command.Resolution

/-!
# Drafting — a message that is put together is decoded as what was set last

A draft is put together in edits, each of which sets one thing: the id, the content, the values of
one parameter, or where output goes. What a draft says of any of these is what the last edit said
that set it, and where none did what it said before:

    of (d.applyAll edits)  =  what was set last in edits,  else  of d

1. That is one lemma for all of them (`applyAll_eq_last`), with one case for each edit.
2. The parameters of a draft stay strings and lists of strings, each named once (`Sound`), so the
   section that is written holds for each name the values that were set last.
3. The text of a draft spells its members, so it is decoded as the command that these make, if the
   id is not blank and the content is an object.
-/

namespace AgentWire

open ParameterSet (IsDefault)

-- ── What an edit sets ─────────────────────────────────────────────────────────────

namespace MessageEdit

/-- The id that an edit sets. -/
def id? : MessageEdit → Option String
  | setId id => some id
  | setContent _ | setValues _ _ | setValue _ _ | setOutput _ _ => none

/-- The content that an edit sets. -/
def content? : MessageEdit → Option Document
  | setContent content => some content
  | setId _ | setValues _ _ | setValue _ _ | setOutput _ _ => none

/-- The values that an edit sets for a parameter. -/
def values? (name : String) : MessageEdit → Option (List String)
  | setValues other values => if name = other then some values else none
  | setValue other value => if name = other then some [value] else none
  | setId _ | setContent _ | setOutput _ _ => none

/-- The bucket and the keys for output that an edit sets. -/
def output? : MessageEdit → Option (String × String)
  | setOutput bucket keys => some (bucket, keys)
  | setId _ | setContent _ | setValues _ _ | setValue _ _ => none

/-- What was set by the last edit that set anything of the kind. -/
def last? {α : Type} (set? : MessageEdit → Option α) (edits : List MessageEdit) : Option α :=
  edits.reverse.findSome? set?

theorem last?_cons {α : Type} (set? : MessageEdit → Option α) (edit : MessageEdit)
    (rest : List MessageEdit) : last? set? (edit :: rest) = (last? set? rest).or (set? edit) := by
  rw [last?, List.reverse_cons, List.findSome?_append, List.findSome?_singleton]
  rfl

end MessageEdit

namespace MessageDraft

open MessageEdit

variable {d : MessageDraft} {c : Command} {name : String}

-- ── Drafts ────────────────────────────────────────────────────────────────────────

/-- **A draft says what was set last.** What an edit does to one aspect of a draft is all that is
    needed to know what several do. -/
theorem applyAll_eq_last {α : Type} (set? : MessageEdit → Option α)
    (aspect : MessageDraft → Option α)
    (h : ∀ d edit, aspect (d.apply edit) = (set? edit).or (aspect d)) (edits : List MessageEdit) :
    ∀ d, aspect (d.applyAll edits) = (last? set? edits).or (aspect d) := by
  induction edits with
  | nil => exact fun _ => rfl
  | cons edit rest ih =>
      intro d
      show aspect ((d.apply edit).applyAll rest) = _
      rw [ih, h, last?_cons, Option.or_assoc]

theorem id_applyAll (d : MessageDraft) (edits : List MessageEdit) :
    (d.applyAll edits).id = (last? id? edits).getD d.id := by
  have h := applyAll_eq_last id? (fun d => some d.id)
    (by intro d edit; cases edit <;> rfl) edits d
  rwa [Option.or_some, Option.some_inj] at h

theorem content_applyAll (d : MessageDraft) (edits : List MessageEdit) :
    (d.applyAll edits).content = (last? content? edits).getD d.content := by
  have h := applyAll_eq_last content? (fun d => some d.content)
    (by intro d edit; cases edit <;> rfl) edits d
  rwa [Option.or_some, Option.some_inj] at h

theorem output_applyAll (d : MessageDraft) (edits : List MessageEdit) :
    (d.applyAll edits).output = (last? output? edits).or d.output :=
  applyAll_eq_last output? output (by intro d edit; cases edit <;> rfl) edits d

/-- No edit sets the name of the document. -/
theorem documentName_applyAll (d : MessageDraft) (edits : List MessageEdit) :
    (d.applyAll edits).documentName = d.documentName := by
  have h := applyAll_eq_last (fun _ => none) (fun d => some d.documentName)
    (by intro d edit; cases edit <;> rfl) edits d
  have hnone : last? (fun _ => (none : Option String)) edits = none := by simp [last?]
  rwa [hnone, Option.none_or, Option.some_inj] at h

-- ── Parameters ────────────────────────────────────────────────────────────────────

/-- The parameters of a draft are strings and lists of strings, and each is named once. -/
structure Sound (d : MessageDraft) : Prop where
  nodup : (Json.names d.parameters).Nodup
  readable : ∀ member ∈ d.parameters, ∃ values, IsDefault member.2 values

theorem Sound.put {value : Json} {values : List String} (h : d.Sound)
    (hvalue : IsDefault value values) (name : String) :
    Sound { d with parameters := Json.put name value d.parameters } := by
  refine ⟨Json.nodup_put h.nodup name value, ?_⟩
  intro member hmem
  rcases Json.mem_put hmem with rfl | hmem
  · exact ⟨values, hvalue⟩
  · exact h.readable member hmem

/-- An edit leaves the parameters sound. -/
theorem Sound.apply (h : d.Sound) (edit : MessageEdit) : (d.apply edit).Sound := by
  cases edit with
  | setValues name values => exact h.put (ParameterSet.isDefault_ofStrings.mpr rfl) name
  | setValue name value => exact h.put (.single value) name
  | setId _ | setContent _ | setOutput _ _ => exact ⟨h.nodup, h.readable⟩

theorem Sound.applyAll (h : d.Sound) (edits : List MessageEdit) : (d.applyAll edits).Sound := by
  induction edits generalizing d with
  | nil => exact h
  | cons edit rest ih => exact ih (h.apply edit)

/-- The values that a draft has for a parameter. -/
def valuesOf? (d : MessageDraft) (name : String) : Option (List String) :=
  (d.parameters.lookup name).bind ParameterSet.defaultValues?

theorem valuesOf?_apply (d : MessageDraft) (edit : MessageEdit) (name : String) :
    (d.apply edit).valuesOf? name = (edit.values? name).or (d.valuesOf? name) := by
  -- both edits of parameters put a value that can be read under their name
  have hput : ∀ other value values, IsDefault value values →
      ((Json.put other value d.parameters).lookup name).bind ParameterSet.defaultValues? =
        (if name = other then some values else none).or (d.valuesOf? name) := by
    intro other value values hvalue
    rw [Json.lookup_put]
    by_cases hname : name = other
    · rw [if_pos hname, if_pos hname]
      exact ParameterSet.defaultValues?_eq_some_iff.mpr hvalue
    · rw [if_neg hname, if_neg hname]
      rfl
  cases edit with
  | setValues other values => exact hput other _ values (ParameterSet.isDefault_ofStrings.mpr rfl)
  | setValue other value => exact hput other _ [value] (.single value)
  | setId _ | setContent _ | setOutput _ _ => rfl

theorem valuesOf?_applyAll (d : MessageDraft) (edits : List MessageEdit) (name : String) :
    (d.applyAll edits).valuesOf? name = (last? (values? name) edits).or (d.valuesOf? name) :=
  applyAll_eq_last (values? name) (fun d => d.valuesOf? name)
    (fun d edit => d.valuesOf?_apply edit name) edits d

/-- **The section of a draft holds what the draft has for each parameter.** -/
theorem Sound.isSection_iff (h : d.Sound) {p : ParameterSet} :
    ParameterSet.IsSection (Json.lastValue? d.parameters) p ↔
      ∀ name, p.get? name = d.valuesOf? name := by
  have hvalues : ∀ name values, d.valuesOf? name = some values ↔
      ∃ value, Json.lastValue? d.parameters name = some value ∧ IsDefault value values := by
    intro name values
    rw [valuesOf?, Json.lastValue?_of_nodup h.nodup, Option.bind_eq_some_iff]
    simp only [ParameterSet.defaultValues?_eq_some_iff]
  constructor
  · intro hsection name
    refine Option.ext ?_
    intro values
    rw [hsection.values, hvalues]
  · intro hget
    refine ⟨?_, ?_⟩
    · intro name value hlast
      exact h.readable _ (Json.mem_of_lastValue? hlast)
    · intro name values
      rw [hget, hvalues]

-- ── The message ───────────────────────────────────────────────────────────────────

/-- What stands in the fields of the message. -/
theorem lastValue?_members (d : MessageDraft) :
    Json.lastValue? d.members "Parameters" = some (.object d.parameters) ∧
    Json.lastValue? d.members "DocumentContent" = some d.content.tree ∧
    Json.lastValue? d.members "CommandId" = some (.string d.id) ∧
    Json.lastValue? d.members "DocumentName" = some (.string d.documentName) ∧
    Json.lastValue? d.members "OutputS3BucketName" = d.output.map (.string ·.1) ∧
    Json.lastValue? d.members "OutputS3KeyPrefix" = d.output.map (.string ·.2) := by
  rw [members, outputMembers]
  cases d.output with
  | none => exact ⟨rfl, rfl, rfl, rfl, rfl, rfl⟩
  | some output => exact ⟨rfl, rfl, rfl, rfl, rfl, rfl⟩

/-- A part of what was set for output is read as it was set, or as the empty text. -/
theorem holdsText_map_iff {part : String × String → String} {text : String} :
    Command.HoldsText (d.output.map fun output => .string (part output)) text ↔
      text = (d.output.map part).getD "" := by
  cases d.output with
  | none =>
      constructor
      · rintro ⟨⟩
        rfl
      · rintro rfl
        exact .missing
  | some output =>
      constructor
      · rintro ⟨⟩
        rfl
      · rintro rfl
        exact .text _

/-- The section that is written holds what the draft has for each parameter. -/
theorem Sound.holdsParameters_iff (h : d.Sound) {p : ParameterSet} :
    Command.HoldsParameters (some (.object d.parameters)) p ↔
      ∀ name, p.get? name = d.valuesOf? name := by
  rw [← h.isSection_iff]
  constructor
  · rintro ⟨⟩
    assumption
  · exact .object

/-- A content that is an object is read as it was written. -/
theorem exists_object_iff {tree : Json} {content written : Document} (h : tree = written.tree) :
    (∃ members, some tree = some (.object members) ∧
      content = Document.ofJson (.object members)) ↔
        tree.kind = .object ∧ content = written := by
  constructor
  · rintro ⟨members, htree, rfl⟩
    cases htree
    refine ⟨rfl, ?_⟩
    rw [h, Document.ofJson_tree]
  · rintro ⟨hkind, rfl⟩
    cases tree with
    | object members =>
        refine ⟨members, rfl, ?_⟩
        rw [h, Document.ofJson_tree]
    | _ => exact nomatch hkind

/-- A draft whose message is accepted: its id is not blank and its content is an object. -/
def Acceptable (d : MessageDraft) : Prop :=
  (∃ char ∈ d.id.toList, isBlank char = false) ∧ d.content.tree.kind = .object

/-- A draft agrees with a command: what the command has is what the draft says. -/
structure AgreesWith (d : MessageDraft) (c : Command) : Prop where
  documentName : c.documentName = d.documentName
  id : c.id = d.id
  content : c.content = d.content
  parameters : ∀ name, c.parameters.get? name = d.valuesOf? name
  outputBucket : c.outputBucket = (d.output.map (·.1)).getD ""
  outputKeys : c.outputKeys = (d.output.map (·.2)).getD ""

/-- **The fields of a message make the command that agrees with the draft**, if the draft is
    acceptable. -/
theorem Sound.isCommand_iff (h : d.Sound) :
    Command.IsCommand (Json.lastValue? d.members) c ↔ d.Acceptable ∧ d.AgreesWith c := by
  obtain ⟨hparameters, hcontent, hid, hname, hbucket, hkeys⟩ := d.lastValue?_members
  constructor
  · intro hc
    have hsameId : d.id = c.id := by simpa [hid] using hc.id
    have hsameName : d.documentName = c.documentName := by simpa [hname] using hc.documentName
    obtain ⟨hkind, hsame⟩ := (exists_object_iff rfl).mp (hcontent ▸ hc.content)
    exact ⟨⟨hsameId ▸ hc.id_not_blank, hkind⟩,
      { documentName := hsameName.symm
        id := hsameId.symm
        content := hsame
        parameters := h.holdsParameters_iff.mp (hparameters ▸ hc.parameters)
        outputBucket := holdsText_map_iff.mp (hbucket ▸ hc.outputBucket)
        outputKeys := holdsText_map_iff.mp (hkeys ▸ hc.outputKeys) }⟩
  · rintro ⟨⟨hblank, hkind⟩, hagrees⟩
    exact
      { id := by rw [hid, hagrees.id]
        id_not_blank := hagrees.id.symm ▸ hblank
        documentName := by rw [hname, hagrees.documentName]
        content := by
          rw [hcontent]
          exact (exists_object_iff rfl).mpr ⟨hkind, hagrees.content⟩
        parameters := hparameters ▸ h.holdsParameters_iff.mpr hagrees.parameters
        outputKeys := hkeys ▸ holdsText_map_iff.mpr hagrees.outputKeys
        outputBucket := hbucket ▸ holdsText_map_iff.mpr hagrees.outputBucket }

/-- The message is nested within the limit if the content leaves a level for it. -/
theorem Sound.depth_le (h : d.Sound) (hcontent : d.content.tree.depth ≤ 126) :
    d.toJson.depth ≤ Json.nestingLimit := by
  have hsection : (Json.object d.parameters).depth ≤ 2 := by
    refine Nat.succ_le_succ (Json.depthMembers_le_iff.mpr ?_)
    intro member hmem
    obtain ⟨values, hvalues⟩ := h.readable member hmem
    exact hvalues.depth_le
  refine Nat.succ_le_succ (Json.depthMembers_le_iff.mpr ?_)
  rw [members, outputMembers]
  refine List.forall_mem_append.mpr ⟨?_, ?_⟩
  · simp only [List.forall_mem_cons]
    exact ⟨Nat.le_trans hsection (by decide), hcontent, Nat.zero_le _, Nat.zero_le _, nofun⟩
  · cases d.output with
    | none => exact nofun
    | some output =>
        simp only [List.forall_mem_cons]
        exact ⟨Nat.zero_le _, Nat.zero_le _, nofun⟩

/-- **The message of a draft is decoded as the command that agrees with it.** -/
theorem Sound.decode_encode_iff (h : d.Sound) (hcontent : d.content.tree.depth ≤ 126) :
    Command.decode d.encode.toUTF8 = .ok c ↔ d.Acceptable ∧ d.AgreesWith c := by
  have hspells : Json.Spells (Symbol.ofBytes d.encode.toUTF8) (.object d.members) :=
    (Json.written_render d.toJson).writtenText.spells (h.depth_le hcontent)
  rw [Command.decode_of_spells hspells, h.isCommand_iff]

/-- A draft agrees with some command. -/
theorem Sound.exists_agreeing (h : d.Sound) : ∃ c, d.AgreesWith c := by
  obtain ⟨p, hp⟩ := ParameterSet.exists_isSection fun name value hlast =>
    h.readable (name, value) (Json.mem_of_lastValue? hlast)
  exact ⟨⟨d.id, d.documentName, d.content, p, _, _⟩, rfl, rfl, rfl, h.isSection_iff.mp hp, rfl, rfl⟩

/-- The message of a draft is accepted if the draft is acceptable. -/
theorem Sound.exists_decode_encode_iff (h : d.Sound) (hcontent : d.content.tree.depth ≤ 126) :
    (∃ c, Command.decode d.encode.toUTF8 = .ok c) ↔ d.Acceptable := by
  simp only [h.decode_encode_iff hcontent, exists_and_left]
  exact and_iff_left h.exists_agreeing

/-- A draft of which only the id and the name of the document are set. -/
def fresh (id documentName : String) : MessageDraft where
  id := id
  documentName := documentName

/-- **A MESSAGE THAT IS PUT TOGETHER IS DECODED AS WHAT WAS SET LAST**, wherever events go. It is
    accepted exactly if the last id is not blank and the last content is an object, and then it is
    the command with the name of the document, the last id, the last content, under each name the
    values that were set last, and the last bucket and keys for output, or none. -/
theorem drafts_decode_as_set_last (id documentName : String) (edits : List MessageEdit)
    (log : Destination) (hdepth : ((last? content? edits).getD .empty).tree.depth ≤ 126) :
    ((∃ c, ((Command.decodeTraced
        ((fresh id documentName).applyAll edits).encode.toUTF8).sendTo log).1 = .ok c) ↔
      (∃ char ∈ ((last? id? edits).getD id).toList, isBlank char = false) ∧
        ((last? content? edits).getD .empty).tree.kind = .object) ∧
    ∀ c, ((Command.decodeTraced
        ((fresh id documentName).applyAll edits).encode.toUTF8).sendTo log).1 = .ok c →
      c.documentName = documentName ∧ c.id = (last? id? edits).getD id ∧
      c.content = (last? content? edits).getD .empty ∧
      (∀ name, c.parameters.get? name = last? (values? name) edits) ∧
      (c.outputBucket, c.outputKeys) = (last? output? edits).getD ("", "") := by
  simp only [Command.fst_sendTo_decodeTraced]
  have hfresh : (fresh id documentName).Sound := ⟨List.nodup_nil, nofun⟩
  have hsound := hfresh.applyAll edits
  have hid := (fresh id documentName).id_applyAll edits
  have hcontent := (fresh id documentName).content_applyAll edits
  have hname := (fresh id documentName).documentName_applyAll edits
  have houtput := (fresh id documentName).output_applyAll edits
  have hvalues := (fresh id documentName).valuesOf?_applyAll edits
  -- nothing is set in a fresh draft but its id and the name of the document
  rw [show (fresh id documentName).output = none from rfl, Option.or_none] at houtput
  rw [← show (fresh id documentName).content = .empty from rfl, ← hcontent] at hdepth ⊢
  rw [← show (fresh id documentName).id = id from rfl, ← hid]
  refine ⟨hsound.exists_decode_encode_iff hdepth, ?_⟩
  intro c hdecode
  obtain ⟨-, hagrees⟩ := (hsound.decode_encode_iff hdepth).mp hdecode
  refine ⟨hagrees.documentName.trans hname, hagrees.id, hagrees.content, ?_, ?_⟩
  · intro parameter
    rw [hagrees.parameters, hvalues, show (fresh id documentName).valuesOf? parameter = none from rfl,
      Option.or_none]
  · rw [hagrees.outputBucket, hagrees.outputKeys, houtput]
    cases last? output? edits <;> rfl

/-- Edits that set everything more than once, a parameter in both forms. -/
def secondThoughts : List MessageEdit :=
  [.setId " ", .setValues "a" ["1", "2"], .setContent Command.greetingContent, .setValue "b" "3",
    .setOutput "old" "old/", .setValue "a" "4", .setId "second", .setValues "b" [],
    .setOutput "bucket" "keys/"]

/-- Of what was set more than once the last counts, whatever its form; with a blank id at the end
    the message is refused. -/
theorem drafts_decode_as_set_last_twice :
    (∃ c, Command.decode ((fresh "first" "Doc").applyAll secondThoughts).encode.toUTF8 = .ok c ∧
      c.documentName = "Doc" ∧ c.id = "second" ∧ c.content = Command.greetingContent ∧
      c.parameters.get? "a" = some ["4"] ∧ c.parameters.get? "b" = some [] ∧
      c.parameters.get? "c" = none ∧ c.outputBucket = "bucket" ∧ c.outputKeys = "keys/") ∧
    ¬∃ c, Command.decode ((fresh "first" "Doc").applyAll
      (secondThoughts ++ [.setId "\t"])).encode.toUTF8 = .ok c := by
  have hdepth : Command.greetingContent.tree.depth ≤ 126 := by decide
  obtain ⟨haccepted, hset⟩ := drafts_decode_as_set_last "first" "Doc" secondThoughts .own hdepth
  obtain ⟨hrefused, -⟩ :=
    drafts_decode_as_set_last "first" "Doc" (secondThoughts ++ [MessageEdit.setId "\t"]) .nowhere
      hdepth
  simp only [Command.fst_sendTo_decodeTraced] at haccepted hset hrefused
  constructor
  · obtain ⟨c, hdecode⟩ := haccepted.mpr ⟨⟨'s', by decide, by decide⟩, rfl⟩
    obtain ⟨hname, hid, hcontent, hget, houtput⟩ := hset c hdecode
    obtain ⟨hbucket, hkeys⟩ := Prod.mk.inj houtput
    exact ⟨c, hdecode, hname, hid, hcontent, hget "a", hget "b", hget "c", hbucket, hkeys⟩
  · intro hdecode
    obtain ⟨⟨char, hmem, hblank⟩, -⟩ := hrefused.mp hdecode
    rw [List.mem_singleton.mp (show char ∈ ['\t'] from hmem)] at hblank
    exact absurd hblank (by decide)

end MessageDraft

end AgentWire
