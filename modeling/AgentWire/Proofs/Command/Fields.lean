import AgentWire.Command.Envelope
import AgentWire.Proofs.Json.Reading
import AgentWire.Proofs.Parameters.Section

/-!
# Fields — an envelope is made of what was written last

The members of a message are taken one by one, and each changes the field of its name at most. So
whatever their order, every one of the six fields ends with what was written last under its name:

    d.takeAll members = .ok d'  →  d.Takes (lastValue? members) d'

Each field is read apart from the others, so the fields have one outcome, and members that can be
read, each under its own name, are taken. A message that names no field twice therefore makes an
envelope exactly if its fields are what the values under the six names are read as.
-/

namespace AgentWire.Envelope

-- ── One field ─────────────────────────────────────────────────────────────────────

/-- A field after a message: what the value under its name is read as, or what it held before. -/
def ReadInto {α : Type} (read : Json → Except Json.Fault α) (found : Option Json)
    (before after : α) : Prop :=
  match found with
  | none => after = before
  | some value => read value = .ok after

variable {α : Type} {read : Json → Except Json.Fault α}

theorem ReadInto.trans {found later : Option Json} {a b c : α} (h : ReadInto read found a b)
    (h' : ReadInto read later b c) : ReadInto read (later.or found) a c := by
  cases later with
  | some value => exact h'
  | none =>
      have hsame : c = b := h'
      rw [hsame]
      exact h

theorem ReadInto.unique {found : Option Json} {a b c : α} (h : ReadInto read found a b)
    (h' : ReadInto read found a c) : b = c := by
  cases found with
  | none =>
      have hb : b = a := h
      have hc : c = a := h'
      rw [hb, hc]
  | some value => exact Except.ok.inj ((h : read value = .ok b).symm.trans h')

/-- The content of a message is any value. -/
def contentOf (value : Json) : Except Json.Fault (Option Document) :=
  .ok (some (Document.ofJson value))

/-- A text that a message needs. -/
def neededTextOf (value : Json) : Except Json.Fault (Option String) :=
  (textOf value).map some

-- ── All fields ────────────────────────────────────────────────────────────────────

/-- The fields after a message, given what stands under each name. -/
structure Draft.Takes (d : Draft) (found : String → Option Json) (d' : Draft) : Prop where
  parameters : ReadInto optionalMembersOf (found "Parameters") d.parameters d'.parameters
  content : ReadInto contentOf (found "DocumentContent") d.content d'.content
  id : ReadInto neededTextOf (found "CommandId") d.id d'.id
  documentName : ReadInto neededTextOf (found "DocumentName") d.documentName d'.documentName
  outputKeys : ReadInto optionalTextOf (found "OutputS3KeyPrefix") d.outputKeys d'.outputKeys
  outputBucket : ReadInto optionalTextOf (found "OutputS3BucketName") d.outputBucket d'.outputBucket

theorem Draft.Takes.trans {d between d' : Draft} {found later : String → Option Json}
    (h : d.Takes found between) (h' : between.Takes later d') :
    d.Takes (fun name => (later name).or (found name)) d' where
  parameters := h.parameters.trans h'.parameters
  content := h.content.trans h'.content
  id := h.id.trans h'.id
  documentName := h.documentName.trans h'.documentName
  outputKeys := h.outputKeys.trans h'.outputKeys
  outputBucket := h.outputBucket.trans h'.outputBucket

/-- What stands under the names settles the fields. -/
theorem Draft.Takes.unique {d a b : Draft} {found : String → Option Json} (h : d.Takes found a)
    (h' : d.Takes found b) : a = b := by
  have hparameters := h.parameters.unique h'.parameters
  have hcontent := h.content.unique h'.content
  have hid := h.id.unique h'.id
  have hname := h.documentName.unique h'.documentName
  have hkeys := h.outputKeys.unique h'.outputKeys
  have hbucket := h.outputBucket.unique h'.outputBucket
  cases a
  cases b
  dsimp only at *
  rw [hparameters, hcontent, hid, hname, hkeys, hbucket]

-- ── Taking members ────────────────────────────────────────────────────────────────

/-- One member changes the field of its name, and no other. -/
theorem Draft.takes_of_take {d d' : Draft} {name : String} {value : Json}
    (h : d.take (name, value) = .ok d') :
    d.Takes (fun other => if other = name then some value else none) d' := by
  unfold Draft.take at h
  dsimp only at h
  -- the names of the six fields in turn, and in the end any other name
  split_ifs at h with hparameters hcontent hid hname hkeys hbucket
  · obtain ⟨x, hx, rfl⟩ := exists_of_map_eq_ok h
    subst hparameters
    exact ⟨hx, rfl, rfl, rfl, rfl, rfl⟩
  · cases h
    subst hcontent
    exact ⟨rfl, rfl, rfl, rfl, rfl, rfl⟩
  · obtain ⟨x, hx, rfl⟩ := exists_of_map_eq_ok h
    subst hid
    exact ⟨rfl, rfl, congrArg (Except.map some) hx, rfl, rfl, rfl⟩
  · obtain ⟨x, hx, rfl⟩ := exists_of_map_eq_ok h
    subst hname
    exact ⟨rfl, rfl, rfl, congrArg (Except.map some) hx, rfl, rfl⟩
  · obtain ⟨x, hx, rfl⟩ := exists_of_map_eq_ok h
    subst hkeys
    exact ⟨rfl, rfl, rfl, rfl, hx, rfl⟩
  · obtain ⟨x, hx, rfl⟩ := exists_of_map_eq_ok h
    subst hbucket
    exact ⟨rfl, rfl, rfl, rfl, rfl, hx⟩
  · cases h
    -- the name is none of the six, so nothing stands under any of them
    have hkept : ∀ other : String, name ≠ other →
        (if other = name then some value else none) = none := by
      intro other hne
      exact if_neg (Ne.symm hne)
    constructor
    · rw [hkept _ hparameters]
      rfl
    · rw [hkept _ hcontent]
      rfl
    · rw [hkept _ hid]
      rfl
    · rw [hkept _ hname]
      rfl
    · rw [hkept _ hkeys]
      rfl
    · rw [hkept _ hbucket]
      rfl

/-- **THE LAST VALUE UNDER A NAME IS THE ONE THAT COUNTS**, whatever the order of the members. -/
theorem Draft.takes_of_takeAll {members : List (String × Json)} :
    ∀ {d d' : Draft}, d.takeAll members = .ok d' → d.Takes (Json.lastValue? members) d' := by
  induction members with
  | nil =>
      intro d d' h
      cases h
      exact ⟨rfl, rfl, rfl, rfl, rfl, rfl⟩
  | cons member rest ih =>
      intro d d' h
      obtain ⟨name, value⟩ := member
      rw [Draft.takeAll] at h
      cases hfirst : d.take (name, value) with
      | error fault =>
          rw [hfirst] at h
          exact nomatch h
      | ok between =>
          rw [hfirst] at h
          have hlast : Json.lastValue? ((name, value) :: rest) = fun other =>
              (Json.lastValue? rest other).or (if other = name then some value else none) :=
            funext (Json.lastValue?_cons name value rest)
          rw [hlast]
          exact (Draft.takes_of_take hfirst).trans (ih h)

/-- A member is taken if the value under its name can be read. -/
theorem Draft.exists_take {d last : Draft} {found : String → Option Json} (h : d.Takes found last)
    {name : String} {value : Json} (hfound : found name = some value) (before : Draft) :
    ∃ after, before.take (name, value) = .ok after := by
  obtain ⟨hparameters, -, hid, hname, hkeys, hbucket⟩ := h
  unfold Draft.take
  dsimp only
  split_ifs with h1 h2 h3 h4 h5 h6
  · subst h1
    rw [hfound] at hparameters
    exact ⟨_, congrArg (Except.map _) hparameters⟩
  · exact ⟨_, rfl⟩
  · subst h3
    rw [hfound] at hid
    obtain ⟨text, htext, -⟩ := exists_of_map_eq_ok hid
    exact ⟨_, congrArg (Except.map _) htext⟩
  · subst h4
    rw [hfound] at hname
    obtain ⟨text, htext, -⟩ := exists_of_map_eq_ok hname
    exact ⟨_, congrArg (Except.map _) htext⟩
  · subst h5
    rw [hfound] at hkeys
    exact ⟨_, congrArg (Except.map _) hkeys⟩
  · subst h6
    rw [hfound] at hbucket
    exact ⟨_, congrArg (Except.map _) hbucket⟩
  · exact ⟨_, rfl⟩

/-- Members are taken if each of them is. -/
theorem Draft.exists_takeAll {members : List (String × Json)}
    (h : ∀ member ∈ members, ∀ before : Draft, ∃ after, before.take member = .ok after) :
    ∀ d : Draft, ∃ d', d.takeAll members = .ok d' := by
  induction members with
  | nil => exact fun d => ⟨d, rfl⟩
  | cons member rest ih =>
      intro d
      obtain ⟨hfirst, hrest⟩ := List.forall_mem_cons.mp h
      obtain ⟨between, hbetween⟩ := hfirst d
      rw [Draft.takeAll, hbetween]
      exact ih hrest between

/-- A member of a name that is none of the six says nothing. -/
theorem Draft.take_of_unknown {d : Draft} {name : String} {value : Json}
    (h : name ∉ record.fields.map (·.name)) : d.take (name, value) = .ok d := by
  have hunknown : name ∉ ["Parameters", "DocumentContent", "CommandId", "DocumentName",
      "OutputS3KeyPrefix", "OutputS3BucketName"] := h
  simp only [List.mem_cons, List.not_mem_nil, or_false, not_or] at hunknown
  obtain ⟨hparameters, hcontent, hid, hname, hkeys, hbucket⟩ := hunknown
  show (if name = "Parameters" then _ else _) = _
  rw [if_neg hparameters, if_neg hcontent, if_neg hid, if_neg hname, if_neg hkeys, if_neg hbucket]

/-- A message names each field of an envelope once at most. -/
def NamesOnce (members : List (String × Json)) : Prop :=
  ∀ field ∈ record.fields, (Json.names members).count field.name ≤ 1

instance (members : List (String × Json)) : Decidable (NamesOnce members) :=
  inferInstanceAs (Decidable (∀ field ∈ record.fields, _))

/-- **Members that name no field twice are taken exactly if the values of the fields can be
    read.** -/
theorem Draft.takeAll_eq_ok_iff {members : List (String × Json)} (h : NamesOnce members)
    {d d' : Draft} : d.takeAll members = .ok d' ↔ d.Takes (Json.lastValue? members) d' := by
  refine ⟨Draft.takes_of_takeAll, ?_⟩
  intro htakes
  have hreadable : ∀ member ∈ members, ∀ before : Draft,
      ∃ after, before.take member = .ok after := by
    rintro ⟨name, value⟩ hmem before
    by_cases hknown : name ∈ record.fields.map (·.name)
    · obtain ⟨field, hfield, rfl⟩ := List.mem_map.mp hknown
      exact Draft.exists_take htakes (Json.lastValue?_of_mem (h field hfield) hmem) before
    · exact ⟨before, Draft.take_of_unknown hknown⟩
  obtain ⟨last, hlast⟩ := Draft.exists_takeAll hreadable d
  rw [htakes.unique (Draft.takes_of_takeAll hlast)]
  exact hlast

-- ── From the fields to the envelope ───────────────────────────────────────────────

/-- An envelope is made of what stands under the names of its fields. -/
structure IsMadeOf (e : Envelope) (found : String → Option Json) : Prop where
  parameters : ReadInto optionalMembersOf (found "Parameters") none e.parameters
  content : ∃ value, found "DocumentContent" = some value ∧ e.content = Document.ofJson value
  id : found "CommandId" = some (.string e.id)
  documentName : found "DocumentName" = some (.string e.documentName)
  outputKeys : ReadInto optionalTextOf (found "OutputS3KeyPrefix") none e.outputKeys
  outputBucket : ReadInto optionalTextOf (found "OutputS3BucketName") none e.outputBucket

/-- The fields of an envelope. -/
def draft (e : Envelope) : Draft where
  parameters := e.parameters
  content := some e.content
  id := some e.id
  documentName := some e.documentName
  outputKeys := e.outputKeys
  outputBucket := e.outputBucket

/-- The fields make an envelope if those that are needed are there. -/
theorem Draft.finish_eq_ok_iff {missing : String → Json.Fault} {d : Draft} {e : Envelope} :
    d.finish missing = .ok e ↔ d = e.draft := by
  obtain ⟨parameters, content, id, documentName, outputKeys, outputBucket⟩ := d
  obtain ⟨parameters', content', id', documentName', outputKeys', outputBucket'⟩ := e
  unfold finish draft
  dsimp only
  cases content with
  | none => simp
  | some content =>
      cases id with
      | none => simp
      | some id =>
          cases documentName with
          | none => simp
          | some documentName => simp

theorem neededTextOf_eq_ok_iff {value : Json} {text : String} :
    neededTextOf value = .ok (some text) ↔ value = .string text := by
  cases value <;> simp [neededTextOf, textOf, Except.map]

theorem readInto_needed_iff {found : Option Json} {text : String} :
    ReadInto neededTextOf found none (some text) ↔ found = some (.string text) := by
  cases found with
  | none => simp [ReadInto]
  | some value =>
      rw [Option.some_inj]
      exact neededTextOf_eq_ok_iff

theorem readInto_content_iff {found : Option Json} {content : Document} :
    ReadInto contentOf found none (some content) ↔
      ∃ value, found = some value ∧ content = Document.ofJson value := by
  cases found with
  | none => simp [ReadInto]
  | some value => simp [ReadInto, contentOf, eq_comm]

/-- The fields of an envelope are those of what it is made of. -/
theorem isMadeOf_iff {e : Envelope} {found : String → Option Json} :
    e.IsMadeOf found ↔ Draft.Takes {} found e.draft := by
  constructor
  · rintro ⟨hparameters, hcontent, hid, hname, hkeys, hbucket⟩
    exact ⟨hparameters, readInto_content_iff.mpr hcontent, readInto_needed_iff.mpr hid,
      readInto_needed_iff.mpr hname, hkeys, hbucket⟩
  · rintro ⟨hparameters, hcontent, hid, hname, hkeys, hbucket⟩
    exact ⟨hparameters, readInto_content_iff.mp hcontent, readInto_needed_iff.mp hid,
      readInto_needed_iff.mp hname, hkeys, hbucket⟩

/-- **A MESSAGE MAKES THE ENVELOPE THAT IS MADE OF ITS VALUES**, if it names no field twice. -/
theorem ofMembers_eq_ok_iff {members : List (String × Json)} {e : Envelope}
    (h : NamesOnce members) :
    ofMembers members = .ok e ↔ e.IsMadeOf (Json.lastValue? members) := by
  rw [isMadeOf_iff, ← Draft.takeAll_eq_ok_iff h]
  unfold ofMembers
  cases htake : Draft.takeAll {} members with
  | error fault =>
      constructor
      · intro h
        exact nomatch h
      · intro h
        exact nomatch h
  | ok d =>
      dsimp only
      rw [Draft.finish_eq_ok_iff, Except.ok.injEq]

/-- Where every name comes once, so does each field. -/
theorem namesOnce_of_nodup {members : List (String × Json)} (h : (Json.names members).Nodup) :
    NamesOnce members := by
  intro field _
  exact List.nodup_iff_count_le_one.mp h field.name

-- ── From the envelope to the command ──────────────────────────────────────────────

/-- An envelope makes a command if its id is not blank, its content is an object and its
    parameters are read. -/
theorem command_eq_ok_iff {e : Envelope} {c : Command} :
    e.command = .ok c ↔
      isBlankText e.id = false ∧ e.content.tree.kind = .object ∧
        ∃ parameters, e.parameterSet = .ok parameters ∧
          c = ⟨e.id, e.documentName, e.content, parameters, e.outputBucket.getD "",
            e.outputKeys.getD ""⟩ := by
  unfold command
  split_ifs with hblank hkind
  · simp [hblank]
  · simp [hkind]
  · have hnot : isBlankText e.id = false := Bool.eq_false_iff.mpr hblank
    have hobject : e.content.tree.kind = .object := not_not.mp hkind
    cases e.parameterSet with
    | error cause => simp
    | ok parameters => simp [hnot, hobject, eq_comm]

end AgentWire.Envelope
