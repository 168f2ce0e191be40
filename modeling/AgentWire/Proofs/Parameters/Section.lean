import AgentWire.Proofs.NameMap
import AgentWire.Proofs.Parameters.Completion

/-!
# Sections — a section is read as the parameters that it holds

A section holds parameters (`IsSection`) when whatever stands under one of its names is a string or
a list of strings, and each parameter has the values that stand under its name. Reading inserts them
one after the other, so of a section that names each of them once it makes that set, and it refuses
any other section:

    ofSection members = .ok p  ↔  IsSection members.lookup p

A set is written as an object of lists in the order of the names. That section holds the set, so it
is read back; it names every parameter once, so it is a document of its own, nested two levels deep.
-/

namespace AgentWire

namespace ParameterSet

-- ── Reading a section ─────────────────────────────────────────────────────────────

/-- A value that parameters can be sent with: a string or a list of strings. -/
def Readable (value : Json) : Prop :=
  (∃ text, value = .string text) ∨ ∃ texts : List String, value = .array (texts.map .string)

theorem readable_iff {value : Json} : Readable value ↔ ∃ values, IsDefault value values := by
  constructor
  · rintro (⟨text, rfl⟩ | ⟨texts, rfl⟩)
    · exact ⟨[text], .single text⟩
    · exact ⟨texts, .list texts⟩
  · rintro ⟨values, text | _⟩
    · exact .inl ⟨text, rfl⟩
    · exact .inr ⟨values, rfl⟩

/-- What stands under the names of a section holds parameters: it is all strings and lists of
    strings, and the parameter of each name has its values. -/
structure IsSection (found : String → Option Json) (p : ParameterSet) : Prop where
  readable : ∀ name value, found name = some value → ∃ values, IsDefault value values
  values : ∀ name values, p.get? name = some values ↔
    ∃ value, found name = some value ∧ IsDefault value values

/-- The values of a parameter are those that its value stands for. -/
theorem readValues_eq_ok_iff {name : String} {value : Json} {values : List String} :
    readValues name value = .ok values ↔ IsDefault value values := by
  rw [← defaultValues?_eq_some_iff]
  cases value with
  | string text => simp [readValues, defaultValues?]
  | array items =>
      rw [readValues, defaultValues?]
      cases Json.strings? items with
      | some texts => simp
      | none => simp
  | _ => simp [readValues, defaultValues?]

/-- A section that is read holds nothing but strings and lists of strings, and every parameter has
    the values that come last under its name, or those it had before. -/
theorem get?_of_readSection {members : List (String × Json)} :
    ∀ {p p' : ParameterSet}, readSection p members = .ok p' →
      (∀ member ∈ members, ∃ values, IsDefault member.2 values) ∧
      ∀ name, p'.get? name =
        ((Json.lastValue? members name).bind defaultValues?).or (p.get? name) := by
  induction members with
  | nil =>
      intro p p' h
      cases h
      refine ⟨?_, fun name => rfl⟩
      intro member hmem
      exact nomatch hmem
  | cons member rest ih =>
      intro p p' h
      obtain ⟨first, value⟩ := member
      rw [readSection] at h
      cases hvalues : readValues first value with
      | error cause =>
          rw [hvalues] at h
          exact nomatch h
      | ok values =>
          rw [hvalues] at h
          obtain ⟨hreadable, hget⟩ := ih h
          have hdefault := readValues_eq_ok_iff.mp hvalues
          refine ⟨List.forall_mem_cons.mpr ⟨⟨values, hdefault⟩, hreadable⟩, ?_⟩
          intro name
          rw [hget, get?_insert, Json.lastValue?_cons]
          cases hlast : Json.lastValue? rest name with
          | some last =>
              -- what comes later under the name has values, so those of the first do not count
              obtain ⟨others, hothers⟩ := hreadable _ (Json.mem_of_lastValue? hlast)
              have hsome : defaultValues? last = some others :=
                defaultValues?_eq_some_iff.mpr hothers
              simp [hsome]
          | none =>
              have hsome : defaultValues? value = some values :=
                defaultValues?_eq_some_iff.mpr hdefault
              by_cases hname : name = first
              · simp [hname, hsome]
              · simp [hname]

/-- A section of strings and lists of strings is read. -/
theorem exists_readSection {members : List (String × Json)}
    (h : ∀ member ∈ members, ∃ values, IsDefault member.2 values) :
    ∀ p : ParameterSet, ∃ p', readSection p members = .ok p' := by
  induction members with
  | nil => exact fun p => ⟨p, rfl⟩
  | cons member rest ih =>
      intro p
      obtain ⟨first, value⟩ := member
      obtain ⟨⟨values, hvalues⟩, hrest⟩ := List.forall_mem_cons.mp h
      rw [readSection, readValues_eq_ok_iff.mpr hvalues]
      exact ih hrest (p.insert first values)

/-- A set is what its parameters have for values. -/
theorem ext_get? {p p' : ParameterSet}
    (h : ∀ name values, p.get? name = some values ↔ p'.get? name = some values) : p = p' := by
  have hvalues : p.values = p'.values :=
    NameMap.ext_get? fun name => Option.ext (h name)
  cases p
  exact congrArg ParameterSet.mk hvalues

/-- A section holds one set of parameters at most. -/
theorem IsSection.unique {found : String → Option Json} {p p' : ParameterSet}
    (h : IsSection found p) (h' : IsSection found p') : p = p' := by
  refine ext_get? ?_
  intro name values
  exact (h.values name values).trans (h'.values name values).symm

/-- What a section holds does not change when its values are merged. -/
theorem isSection_map_merged {found : String → Option Json} {p : ParameterSet} :
    IsSection (fun name => (found name).map Json.merged) p ↔ IsSection found p := by
  have hvalues : ∀ name values,
      (∃ value, (found name).map Json.merged = some value ∧ IsDefault value values) ↔
        ∃ value, found name = some value ∧ IsDefault value values := by
    intro name values
    cases found name with
    | none => simp
    | some value => simp [isDefault_merged]
  constructor
  · rintro ⟨hreadable, hget⟩
    refine ⟨?_, fun name values => (hget name values).trans (hvalues name values)⟩
    intro name value hfound
    obtain ⟨values, hdefault⟩ := hreadable name value.merged (congrArg (Option.map _) hfound)
    exact ⟨values, isDefault_merged.mp hdefault⟩
  · rintro ⟨hreadable, hget⟩
    refine ⟨?_, fun name values => (hget name values).trans (hvalues name values).symm⟩
    intro name value hfound
    obtain ⟨written, hwritten, rfl⟩ := Option.map_eq_some_iff.mp hfound
    obtain ⟨values, hdefault⟩ := hreadable name written hwritten
    exact ⟨values, isDefault_merged.mpr hdefault⟩

/-- **A SECTION IS READ AS THE PARAMETERS THAT IT HOLDS**, if it names each of them once. -/
theorem ofSection_eq_ok_iff {members : List (String × Json)} {p : ParameterSet}
    (hnodup : (Json.names members).Nodup) :
    ofSection members = .ok p ↔ IsSection (fun name => members.lookup name) p := by
  have hsound : ∀ {p' : ParameterSet}, ofSection members = .ok p' →
      IsSection (fun name => members.lookup name) p' := by
    intro p' h
    obtain ⟨hreadable, hget⟩ := get?_of_readSection h
    refine ⟨?_, ?_⟩
    · intro name value hlookup
      exact hreadable _ (Json.mem_of_lookup hlookup)
    · intro name values
      rw [hget, show empty.get? name = none from rfl, Option.or_none, Option.bind_eq_some_iff,
        Json.lastValue?_of_nodup hnodup]
      simp only [defaultValues?_eq_some_iff]
  refine ⟨hsound, ?_⟩
  -- conversely the section can be read, and what is read is the only set there is
  intro h
  have hreadable : ∀ member ∈ members, ∃ values, IsDefault member.2 values := by
    rintro ⟨name, value⟩ hmem
    exact h.readable name value (Json.lookup_of_mem hnodup hmem)
  obtain ⟨p', hp'⟩ := exists_readSection hreadable empty
  rw [h.unique (hsound hp')]
  exact hp'

/-- Members that may come again hold the parameters that are read of the last of each name. -/
theorem isSection_lastValue?_iff {members : List (String × Json)} {p : ParameterSet} :
    IsSection (Json.lastValue? members) p ↔ ofSection (Json.collect members) = .ok p := by
  rw [ofSection_eq_ok_iff (Json.nodup_collect members), funext (Json.lookup_collect members)]

/-- Members whose last values are strings and lists of strings hold parameters. -/
theorem exists_isSection {members : List (String × Json)}
    (h : ∀ name value, Json.lastValue? members name = some value →
      ∃ values, IsDefault value values) :
    ∃ p, IsSection (Json.lastValue? members) p := by
  have hreadable : ∀ member ∈ Json.collect members, ∃ values, IsDefault member.2 values := by
    rintro ⟨name, value⟩ hmem
    refine h name value ?_
    rw [← Json.lookup_collect]
    exact Json.lookup_of_mem (Json.nodup_collect members) hmem
  obtain ⟨p, hp⟩ := exists_readSection hreadable empty
  exact ⟨p, isSection_lastValue?_iff.mpr hp⟩

-- ── The section as a value ────────────────────────────────────────────────────────

theorem names_sectionMembers (p : ParameterSet) :
    Json.names p.sectionMembers = Json.names p.values.entries := by
  unfold Json.names sectionMembers toList
  rw [List.map_map]
  rfl

/-- **A SECTION THAT IS WRITTEN IS READ BACK** as the set that wrote it. -/
theorem ofSection_sectionMembers (p : ParameterSet) : ofSection p.sectionMembers = .ok p := by
  have hnodup : (Json.names p.sectionMembers).Nodup := by
    rw [names_sectionMembers]
    exact NameMap.nodup_names p.values.ascending
  have hlookup : ∀ name, p.sectionMembers.lookup name = (p.get? name).map Json.ofStrings :=
    NameMap.get?_mapValues p.values fun _ => Json.ofStrings
  refine (ofSection_eq_ok_iff hnodup).mpr ⟨?_, ?_⟩
  · intro name value hfound
    obtain ⟨texts, -, rfl⟩ := Option.map_eq_some_iff.mp ((hlookup name).symm.trans hfound)
    exact ⟨texts, isDefault_ofStrings.mpr rfl⟩
  · intro name values
    rw [hlookup]
    cases p.get? name with
    | none => simp
    | some texts => simp [isDefault_ofStrings, eq_comm]

theorem distinct_ofStrings (texts : List String) : (Json.ofStrings texts).Distinct := by
  show Json.Distinct.distinctItems (texts.map .string)
  induction texts with
  | nil => trivial
  | cons text rest ih => exact ⟨trivial, ih⟩

theorem depth_ofStrings_le (texts : List String) : (Json.ofStrings texts).depth ≤ 1 := by
  refine Nat.succ_le_succ (Json.depthItems_le_iff.mpr ?_)
  intro item hmem
  obtain ⟨text, -, rfl⟩ := List.mem_map.mp hmem
  exact Nat.le_refl 0

/-- A default is nested no deeper than a list of strings. -/
theorem IsDefault.depth_le {value : Json} {values : List String} (h : IsDefault value values) :
    value.depth ≤ 1 := by
  cases h with
  | single text => exact Nat.zero_le 1
  | list _ => exact depth_ofStrings_le values

/-- A section names every parameter once. -/
theorem distinct_toJson (p : ParameterSet) : p.toJson.Distinct := by
  refine ⟨?_, (Json.distinctMembers_iff _).mpr ?_⟩
  · rw [names_sectionMembers]
    exact NameMap.nodup_names p.values.ascending
  · intro member hmem
    obtain ⟨entry, -, rfl⟩ := List.mem_map.mp hmem
    exact distinct_ofStrings entry.2

/-- A section holds lists of strings and nothing deeper. -/
theorem depthMembers_sectionMembers_le (p : ParameterSet) :
    Json.depth.depthMembers p.sectionMembers ≤ 1 := by
  refine Json.depthMembers_le_iff.mpr ?_
  intro member hmem
  obtain ⟨entry, -, rfl⟩ := List.mem_map.mp hmem
  exact depth_ofStrings_le entry.2

end ParameterSet

end AgentWire
