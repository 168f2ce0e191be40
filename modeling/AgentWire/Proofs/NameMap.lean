import AgentWire.NameMap
import AgentWire.Proofs.Json.Merging
import Mathlib.Data.List.Nodup
import Mathlib.Data.List.Perm.Subperm

/-!
# Name maps — one form for each map

The entries of a map ascend by name, so each name comes once, and what is looked up under a name
is the one entry that has it. Two maps in which every name has the same value therefore have the
same entries, in the same order:

    (∀ name, m.get? name = n.get? name)  →  m = n

A map is made again by inserting its entries one after the other, each behind all that are there
already.
-/

namespace AgentWire.NameMap

variable {α β : Type}

-- ── Names ─────────────────────────────────────────────────────────────────────────

/-- The names of ascending entries are distinct. -/
theorem nodup_names {entries : List (String × α)} (h : Ascending entries) :
    (Json.names entries).Nodup := by
  refine List.pairwise_map.mpr (List.Pairwise.imp ?_ h)
  intro a b hlt heq
  rw [heq] at hlt
  exact name_lt_irrefl _ hlt

/-- The entries of a map are what its names have for values. -/
theorem get?_eq_some_iff {m : NameMap α} {name : String} {value : α} :
    m.get? name = some value ↔ (name, value) ∈ m.entries := by
  constructor
  · intro h
    exact Json.mem_of_lookup h
  · intro h
    exact Json.lookup_of_mem (nodup_names m.ascending) h

/-- **A MAP IS WHAT ITS NAMES HAVE FOR VALUES.** -/
theorem ext_get? {m n : NameMap α} (h : ∀ name, m.get? name = n.get? name) : m = n := by
  have hentries : ∀ entry, entry ∈ m.entries ↔ entry ∈ n.entries := by
    rintro ⟨name, value⟩
    rw [← get?_eq_some_iff, ← get?_eq_some_iff, h]
  have hnodup : ∀ map : NameMap α, map.entries.Nodup := by
    intro map
    exact (nodup_names map.ascending).of_map
  have hperm : m.entries.Perm n.entries :=
    (List.perm_ext_iff_of_nodup (hnodup m) (hnodup n)).mpr hentries
  refine ext_entries (hperm.eq_of_pairwise ?_ m.ascending n.ascending)
  intro a b _ _ hab hba
  exact absurd (name_lt_trans hab hba) (name_lt_irrefl a.1)

theorem contains_iff {m : NameMap α} {name : String} :
    m.contains name = true ↔ ∃ value, m.get? name = some value :=
  Option.isSome_iff_exists

/-- The names of a map are those that have a value. -/
theorem mem_names_iff {m : NameMap α} {name : String} :
    name ∈ m.names ↔ m.contains name = true := by
  simp only [contains_iff, get?_eq_some_iff]
  constructor
  · intro h
    obtain ⟨⟨name, value⟩, hmem, rfl⟩ := List.mem_map.mp h
    exact ⟨value, hmem⟩
  · rintro ⟨value, hmem⟩
    exact List.mem_map.mpr ⟨_, hmem, rfl⟩

/-- The values of a map are what its names have. -/
theorem mem_values_iff {m : NameMap α} {value : α} :
    value ∈ m.values ↔ ∃ name, m.get? name = some value := by
  simp only [get?_eq_some_iff]
  constructor
  · intro h
    obtain ⟨⟨name, value'⟩, hmem, rfl⟩ := List.mem_map.mp h
    exact ⟨name, hmem⟩
  · rintro ⟨name, hmem⟩
    exact List.mem_map.mpr ⟨_, hmem, rfl⟩

/-- **A map in which more names have values is no smaller.** -/
theorem size_le_of_contains {m : NameMap α} {n : NameMap β}
    (h : ∀ name, m.contains name = true → n.contains name = true) : m.size ≤ n.size := by
  have hsubset : m.names ⊆ n.names := by
    intro name hmem
    exact mem_names_iff.mpr (h name (mem_names_iff.mp hmem))
  have hlength : m.names.length ≤ n.names.length :=
    (List.subperm_of_subset (nodup_names m.ascending) hsubset).length_le
  rwa [names, names, List.length_map, List.length_map] at hlength

theorem isEmpty_iff {m : NameMap α} : m.isEmpty = true ↔ m = empty := by
  constructor
  · intro h
    exact ext_entries (List.isEmpty_iff.mp h)
  · rintro rfl
    rfl

/-- Entries that are inserted one after the other leave the last value of each name. -/
theorem get?_foldl_insert (entries : List (String × α)) (name : String) :
    ∀ m : NameMap α, (entries.foldl (fun m entry => m.insert entry.1 entry.2) m).get? name =
      (Json.lastValue? entries name).or (m.get? name) := by
  induction entries with
  | nil => exact fun _ => rfl
  | cons entry rest ih =>
      intro m
      obtain ⟨first, value⟩ := entry
      rw [List.foldl_cons, ih, get?_insert, Json.lastValue?_cons, Option.or_assoc]
      by_cases hname : name = first
      · rw [if_pos hname, if_pos hname]
        rfl
      · rw [if_neg hname, if_neg hname]
        rfl

/-- **Of several entries with one name the last counts.** -/
theorem get?_ofList (entries : List (String × α)) (name : String) :
    (ofList entries).get? name = Json.lastValue? entries name := by
  rw [ofList, get?_foldl_insert]
  exact Option.or_none

theorem isEmpty_iff_size_eq_zero {m : NameMap α} : m.isEmpty = true ↔ m.size = 0 := by
  rw [isEmpty, size, List.isEmpty_iff, List.length_eq_zero_iff]

/-- Inserting under different names can be done in either order. -/
theorem insert_comm {name other : String} (h : name ≠ other) (m : NameMap α) (value more : α) :
    (m.insert name value).insert other more = (m.insert other more).insert name value := by
  refine ext_get? ?_
  intro asked
  rw [get?_insert, get?_insert, get?_insert, get?_insert]
  by_cases hasked : asked = name
  · rw [if_pos hasked, if_pos hasked, if_neg (hasked ▸ h)]
  · rw [if_neg hasked, if_neg hasked]

-- ── Values replaced ───────────────────────────────────────────────────────────────

theorem names_mapValues (m : NameMap α) (f : String → α → β) :
    (m.mapValues f).names = m.names := by
  show (m.entries.map fun entry => (entry.1, f entry.1 entry.2)).map (·.1) = m.entries.map (·.1)
  rw [List.map_map]
  rfl

theorem get?_mapValues (m : NameMap α) (f : String → α → β) (name : String) :
    (m.mapValues f).get? name = (m.get? name).map (f name) := by
  show (m.entries.map fun entry => (entry.1, f entry.1 entry.2)).lookup name =
    (m.entries.lookup name).map (f name)
  induction m.entries with
  | nil => rfl
  | cons entry rest ih =>
      obtain ⟨first, value⟩ := entry
      rw [List.map_cons, lookup_cons, lookup_cons]
      by_cases hname : name = first
      · rw [if_pos hname, if_pos hname, hname]
        rfl
      · rw [if_neg hname, if_neg hname]
        exact ih

-- ── Inserting entries in their order ──────────────────────────────────────────────

/-- An entry goes behind all those whose names are below its own. -/
theorem insertEntry_append {name : String} {before : List (String × α)}
    (h : ∀ entry ∈ before, entry.1 < name) (value : α) (rest : List (String × α)) :
    insertEntry name value (before ++ rest) = before ++ insertEntry name value rest := by
  induction before with
  | nil => rfl
  | cons first between ih =>
      obtain ⟨n, v⟩ := first
      obtain ⟨hfirst, hbetween⟩ := List.forall_mem_cons.mp h
      have hnot : ¬name < n := by
        intro hlt
        exact name_lt_irrefl n (name_lt_trans hfirst hlt)
      have hne : name ≠ n := by
        rintro rfl
        exact name_lt_irrefl name hfirst
      rw [List.cons_append, insertEntry, if_neg hnot, if_neg hne, ih hbetween]
      rfl

/-- A name above all others goes to the end. -/
theorem insertEntry_above {name : String} {entries : List (String × α)}
    (h : ∀ entry ∈ entries, entry.1 < name) (value : α) :
    insertEntry name value entries = entries ++ [(name, value)] := by
  have hinsert := insertEntry_append h value []
  rwa [List.append_nil] at hinsert

/-- **Setting a name that is there changes its one entry**, and no other. -/
theorem exists_entries_insert {m : NameMap α} {name : String} {old : α}
    (h : m.get? name = some old) :
    ∃ before after, m.entries = before ++ (name, old) :: after ∧
      ∀ value, (m.insert name value).entries = before ++ (name, value) :: after := by
  obtain ⟨before, after, hentries⟩ := List.append_of_mem (get?_eq_some_iff.mp h)
  have hbelow : ∀ entry ∈ before, entry.1 < name := by
    have hascending := m.ascending
    rw [hentries] at hascending
    intro entry hmem
    exact (List.pairwise_append.mp hascending).2.2 entry hmem _ List.mem_cons_self
  refine ⟨before, after, hentries, ?_⟩
  intro value
  show insertEntry name value m.entries = _
  rw [hentries, insertEntry_append hbelow, insertEntry, if_neg (name_lt_irrefl name), if_pos rfl]

/-- Entries that are inserted in their order stand behind those before them. -/
theorem entries_foldl_insert (entries : List (String × α)) :
    ∀ m : NameMap α, Ascending (m.entries ++ entries) →
      (entries.foldl (fun m entry => m.insert entry.1 entry.2) m).entries =
        m.entries ++ entries := by
  induction entries with
  | nil => exact fun m _ => (List.append_nil m.entries).symm
  | cons entry rest ih =>
      intro m h
      have habove : ∀ earlier ∈ m.entries, earlier.1 < entry.1 := by
        intro earlier hmem
        exact (List.pairwise_append.mp h).2.2 earlier hmem entry List.mem_cons_self
      have hinsert : (m.insert entry.1 entry.2).entries = m.entries ++ [entry] :=
        insertEntry_above habove entry.2
      rw [List.foldl_cons, ih, hinsert, List.append_assoc]
      · rfl
      · rw [hinsert, List.append_assoc]
        exact h

/-- **A map is made again of its entries.** -/
theorem ofList_entries (m : NameMap α) : ofList m.entries = m :=
  ext_entries (entries_foldl_insert m.entries empty m.ascending)

end AgentWire.NameMap
