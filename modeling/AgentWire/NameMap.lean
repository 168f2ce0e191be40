/-!
# Name maps — finite maps from names, in the order of the names

Entries are kept strictly ascending by name (code point by code point), so a map has one form:
two maps with the same values under the same names are equal, whatever writes produced them.

    (m.insert name value).get? other = if other = name then some value else m.get? other
-/

namespace AgentWire

/-- Entries strictly ascending by name. -/
def Ascending {α : Type} (entries : List (String × α)) : Prop :=
  entries.Pairwise fun a b => a.1 < b.1

/-- A finite map from names. -/
structure NameMap (α : Type) where
  entries : List (String × α)
  ascending : Ascending entries

namespace NameMap

variable {α β : Type}

-- ── The order of names ────────────────────────────────────────────────────────────

theorem name_lt_trans {a b c : String} (h : a < b) (k : b < c) : a < c := by
  rw [String.lt_iff] at *
  exact List.lt_trans h k

theorem name_lt_irrefl (a : String) : ¬a < a := by
  rw [String.lt_iff]
  exact List.lt_irrefl a.toList

theorem name_lt_of_not_lt {a b : String} (h : ¬a < b) (ne : a ≠ b) : b < a := by
  rw [String.lt_iff] at *
  rcases List.le_iff_lt_or_eq.1 (List.not_lt.1 h) with h | h
  · exact h
  · exact absurd (String.toList_inj.1 h).symm ne

-- ── Operations ────────────────────────────────────────────────────────────────────

/-- The map without entries. -/
def empty : NameMap α := ⟨[], .nil⟩

instance : Inhabited (NameMap α) := ⟨empty⟩

/-- Puts an entry in its place, over any earlier one of the same name. -/
def insertEntry (name : String) (value : α) : List (String × α) → List (String × α)
  | [] => [(name, value)]
  | (n, v) :: rest =>
    if name < n then (name, value) :: (n, v) :: rest
    else if name = n then (name, value) :: rest
    else (n, v) :: insertEntry name value rest

theorem mem_insertEntry {name : String} {value : α} {entries : List (String × α)}
    {entry : String × α} (h : entry ∈ insertEntry name value entries) :
    entry = (name, value) ∨ entry ∈ entries := by
  induction entries with
  | nil => simpa [insertEntry] using h
  | cons first rest ih =>
      obtain ⟨n, v⟩ := first
      simp only [insertEntry] at h
      split at h
      · rcases List.mem_cons.1 h with h | h
        · exact .inl h
        · exact .inr h
      · split at h
        · rcases List.mem_cons.1 h with h | h
          · exact .inl h
          · exact .inr (List.mem_cons_of_mem _ h)
        · rcases List.mem_cons.1 h with h | h
          · exact .inr (h ▸ List.mem_cons_self)
          · exact (ih h).imp id (List.mem_cons_of_mem _)

/-- Inserting keeps the entries ascending. -/
theorem ascending_insertEntry {entries : List (String × α)} (h : Ascending entries)
    (name : String) (value : α) : Ascending (insertEntry name value entries) := by
  induction entries with
  | nil => simp [insertEntry, Ascending]
  | cons first rest ih =>
      obtain ⟨n, v⟩ := first
      obtain ⟨below, sorted⟩ := List.pairwise_cons.1 h
      simp only [insertEntry]
      split
      · -- the name comes before all others
        rename_i lower
        refine List.pairwise_cons.2 ⟨fun entry mem => ?_, h⟩
        rcases List.mem_cons.1 mem with rfl | mem
        · exact lower
        · exact name_lt_trans lower (below _ mem)
      · split
        · rename_i same
          exact List.pairwise_cons.2 ⟨fun entry mem => same ▸ below _ mem, sorted⟩
        · -- the name comes behind the first, and it cannot pass it
          rename_i lower same
          refine List.pairwise_cons.2 ⟨fun entry mem => ?_, ih sorted⟩
          rcases mem_insertEntry mem with rfl | mem
          · exact name_lt_of_not_lt lower same
          · exact below _ mem

/-- The map with `name` set to `value`. -/
def insert (m : NameMap α) (name : String) (value : α) : NameMap α :=
  ⟨insertEntry name value m.entries, ascending_insertEntry m.ascending name value⟩

/-- The value under a name. -/
def get? (m : NameMap α) (name : String) : Option α :=
  m.entries.lookup name

/-- Whether a name has a value. -/
def contains (m : NameMap α) (name : String) : Bool :=
  (m.get? name).isSome

/-- The number of names. -/
def size (m : NameMap α) : Nat :=
  m.entries.length

/-- Whether there are no names. -/
def isEmpty (m : NameMap α) : Bool :=
  m.entries.isEmpty

/-- The names in order. -/
def names (m : NameMap α) : List String :=
  m.entries.map (·.1)

/-- The values in the order of their names. -/
def values (m : NameMap α) : List α :=
  m.entries.map (·.2)

/-- The map of a list of entries; of several with one name the last counts. -/
def ofList (entries : List (String × α)) : NameMap α :=
  entries.foldl (fun m entry => m.insert entry.1 entry.2) empty

theorem ascending_map {entries : List (String × α)} (h : Ascending entries)
    (f : String → α → β) : Ascending (entries.map fun entry => (entry.1, f entry.1 entry.2)) :=
  List.pairwise_map.2 h

/-- The map with every value replaced by what `f` makes of it and its name. -/
def mapValues (m : NameMap α) (f : String → α → β) : NameMap β :=
  ⟨m.entries.map fun entry => (entry.1, f entry.1 entry.2), ascending_map m.ascending f⟩

/-- The map without a name. -/
def erase (m : NameMap α) (name : String) : NameMap α :=
  ⟨m.entries.filter (·.1 ≠ name), m.ascending.filter _⟩

-- ── Laws ──────────────────────────────────────────────────────────────────────────

theorem ext_entries {m n : NameMap α} (h : m.entries = n.entries) : m = n := by
  cases m; cases n; cases h; rfl

instance [DecidableEq α] : DecidableEq (NameMap α) := fun m n =>
  decidable_of_iff (m.entries = n.entries) ⟨ext_entries, fun h => h ▸ rfl⟩

theorem lookup_cons (name other : String) (value : α) (rest : List (String × α)) :
    ((name, value) :: rest).lookup other =
      if other = name then some value else rest.lookup other := by
  by_cases h : other = name
  · rw [if_pos h, h, List.lookup_cons_self]
  · rw [if_neg h, List.lookup_cons, beq_eq_false_iff_ne.2 h]

theorem lookup_insertEntry (name other : String) (value : α) (entries : List (String × α)) :
    (insertEntry name value entries).lookup other =
      if other = name then some value else entries.lookup other := by
  induction entries with
  | nil => rw [insertEntry, lookup_cons]
  | cons first rest ih =>
      obtain ⟨n, v⟩ := first
      simp only [insertEntry]
      split
      · rw [lookup_cons]
      · split
        · rename_i _ same
          subst same
          rw [lookup_cons, lookup_cons]
          split <;> rfl
        · rename_i _ other_name
          rw [lookup_cons, lookup_cons, ih]
          by_cases h : other = n
          · subst h
            simp [Ne.symm other_name]
          · simp [h]

/-- **What was written last under a name is what is read there.** -/
theorem get?_insert (m : NameMap α) (name other : String) (value : α) :
    (m.insert name value).get? other = if other = name then some value else m.get? other :=
  lookup_insertEntry name other value m.entries

@[simp] theorem get?_empty (name : String) : (empty : NameMap α).get? name = none := rfl

end NameMap

end AgentWire
