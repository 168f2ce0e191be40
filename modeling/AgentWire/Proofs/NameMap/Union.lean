import AgentWire.Proofs.NameMap

/-!
# Unions — two maps in one, and one map under other names

Inserting an entry under a new name makes the entries one more, wherever the order of the names puts
it. So what is inserted one after the other under names that are all different, and all new, is in
the end there beside what was there, but for the order:

    (entries.foldl insert m).entries  ~  m.entries ++ entries

Two maps without a common name (`Apart`) are united in this way, and a map is put under other names
in this way, if no two of its names become one.
-/

namespace AgentWire.NameMap

variable {α : Type} {m n : NameMap α}

-- ── Inserting new entries ─────────────────────────────────────────────────────────

/-- An entry under a new name is one more. -/
theorem insertEntry_perm {name : String} {entries : List (String × α)}
    (h : name ∉ Json.names entries) (value : α) :
    (insertEntry name value entries).Perm ((name, value) :: entries) := by
  induction entries with
  | nil => exact .refl _
  | cons first rest ih =>
      obtain ⟨n, v⟩ := first
      obtain ⟨hne, hrest⟩ := not_or.mp (mt List.mem_cons.mpr h)
      rw [insertEntry, if_neg hne]
      by_cases hlt : name < n
      · rw [if_pos hlt]
      · rw [if_neg hlt]
        exact ((ih hrest).cons (n, v)).trans (.swap (name, value) (n, v) rest)

/-- **Entries under new names stand beside those that are there**, but for the order. -/
theorem foldl_insert_perm (entries : List (String × α)) :
    ∀ m : NameMap α, (Json.names (m.entries ++ entries)).Nodup →
      (entries.foldl (fun m entry => m.insert entry.1 entry.2) m).entries.Perm
        (m.entries ++ entries) := by
  induction entries with
  | nil =>
      intro m _
      rw [List.append_nil]
      exact .refl _
  | cons entry rest ih =>
      intro m hnodup
      have hnew : entry.1 ∉ Json.names m.entries := by
        intro hmem
        rw [Json.names, List.map_append, List.nodup_append] at hnodup
        exact hnodup.2.2 entry.1 hmem entry.1 List.mem_cons_self rfl
      have hinsert : ((m.insert entry.1 entry.2).entries ++ rest).Perm
          (m.entries ++ entry :: rest) :=
        ((insertEntry_perm hnew entry.2).append_right rest).trans List.perm_middle.symm
      have hrest : (Json.names ((m.insert entry.1 entry.2).entries ++ rest)).Nodup :=
        (hinsert.map Prod.fst).nodup_iff.mpr hnodup
      exact (ih _ hrest).trans hinsert

-- ── Unions ────────────────────────────────────────────────────────────────────────

/-- No name has a value in both maps. -/
def Apart (m n : NameMap α) : Prop :=
  ∀ name, m.get? name = none ∨ n.get? name = none

/-- The entries of two maps in one; under a common name the value of the second. -/
def union (m n : NameMap α) : NameMap α :=
  n.entries.foldl (fun both entry => both.insert entry.1 entry.2) m

theorem get?_eq_none_iff {name : String} : m.get? name = none ↔ name ∉ m.names := by
  rw [mem_names_iff, contains, Bool.not_eq_true, Option.isSome_eq_false_iff, Option.isNone_iff_eq_none]

/-- Maps are apart if their names are. -/
theorem apart_iff : m.Apart n ↔ ∀ name ∈ m.names, name ∉ n.names := by
  simp only [Apart, get?_eq_none_iff]
  constructor
  · intro h name hm hn
    rcases h name with hnot | hnot
    · exact hnot hm
    · exact hnot hn
  · intro h name
    by_cases hm : name ∈ m.names
    · exact .inr (h name hm)
    · exact .inl hm

instance : Decidable (m.Apart n) :=
  decidable_of_iff _ apart_iff.symm

/-- **The entries of a union are those of both maps.** -/
theorem entries_union_perm (h : m.Apart n) : (m.union n).entries.Perm (m.entries ++ n.entries) := by
  refine foldl_insert_perm n.entries m ?_
  rw [Json.names, List.map_append]
  refine List.nodup_append.mpr ⟨nodup_names m.ascending, nodup_names n.ascending, ?_⟩
  rintro name hm _ hn rfl
  exact apart_iff.mp h name hm hn

/-- A value in a union is one of either map. -/
theorem get?_union_eq_some_iff (h : m.Apart n) {name : String} {value : α} :
    (m.union n).get? name = some value ↔ m.get? name = some value ∨ n.get? name = some value := by
  rw [get?_eq_some_iff, get?_eq_some_iff, get?_eq_some_iff, (entries_union_perm h).mem_iff,
    List.mem_append]

theorem values_union_perm (h : m.Apart n) : (m.union n).values.Perm (m.values ++ n.values) := by
  have hvalues := (entries_union_perm h).map (·.2)
  rwa [List.map_append] at hvalues

-- ── Other names ───────────────────────────────────────────────────────────────────

/-- The values of a map under other names; of several under one name the last counts. -/
def rename (f : String → String) (m : NameMap α) : NameMap α :=
  ofList (m.entries.map fun entry => (f entry.1, entry.2))

/-- No two names of a map become one. -/
def RenamesApart (f : String → String) (m : NameMap α) : Prop :=
  ∀ name ∈ m.names, ∀ other ∈ m.names, f name = f other → name = other

instance (f : String → String) : Decidable (RenamesApart f m) :=
  inferInstanceAs (Decidable (∀ name ∈ m.names, ∀ other ∈ m.names, f name = f other → name = other))

/-- The entries of a renamed map are those of the map, each under its other name. -/
theorem entries_rename_perm {f : String → String} (h : RenamesApart f m) :
    (m.rename f).entries.Perm (m.entries.map fun entry => (f entry.1, entry.2)) := by
  refine foldl_insert_perm _ empty ?_
  have hnames : Json.names (m.entries.map fun entry => (f entry.1, entry.2)) = m.names.map f := by
    rw [Json.names, names, List.map_map, List.map_map]
    rfl
  show (Json.names (m.entries.map fun entry => (f entry.1, entry.2))).Nodup
  rw [hnames]
  exact (nodup_names m.ascending).map_on h

/-- A value in a renamed map is one of the map. -/
theorem get?_rename_eq_some_iff {f : String → String} (h : RenamesApart f m) {name : String}
    {value : α} :
    (m.rename f).get? name = some value ↔ ∃ old, m.get? old = some value ∧ f old = name := by
  rw [get?_eq_some_iff, (entries_rename_perm h).mem_iff, List.mem_map]
  constructor
  · rintro ⟨⟨old, value⟩, hmem, heq⟩
    cases heq
    exact ⟨old, get?_eq_some_iff.mpr hmem, rfl⟩
  · rintro ⟨old, hold, rfl⟩
    exact ⟨(old, value), get?_eq_some_iff.mp hold, rfl⟩

end AgentWire.NameMap
