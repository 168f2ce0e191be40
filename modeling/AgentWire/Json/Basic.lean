import AgentWire.Json.Number

/-!
# JSON values — trees with ordered members

An object is the list of its members in the order they were written. Where a text names a
member twice, the value it stands for (`merged`) has that member once: at its first place,
with its last value. A `Document` is a value in which that has happened throughout; it is what
a message carries.
-/

namespace AgentWire

/-- A JSON value. -/
inductive Json where
  | null
  | bool (b : Bool)
  | number (n : Json.Number)
  | string (text : String)
  | array (items : List Json)
  | object (members : List (String × Json))

namespace Json

instance : Inhabited Json := ⟨.null⟩

-- ── Equality ──────────────────────────────────────────────────────────────────────

mutual

/-- Decides whether two values are the same tree. -/
def decEq : (a b : Json) → Decidable (a = b)
  | .null, .null => isTrue rfl
  | .bool a, .bool b => decidable_of_iff (a = b) (by simp)
  | .number a, .number b => decidable_of_iff (a = b) (by simp)
  | .string a, .string b => decidable_of_iff (a = b) (by simp)
  | .array a, .array b =>
    match decEqItems a b with
    | isTrue h => isTrue (by rw [h])
    | isFalse h => isFalse (by simpa using h)
  | .object a, .object b =>
    match decEqMembers a b with
    | isTrue h => isTrue (by rw [h])
    | isFalse h => isFalse (by simpa using h)
  | .null, .bool _ | .null, .number _ | .null, .string _ | .null, .array _ | .null, .object _
  | .bool _, .null | .bool _, .number _ | .bool _, .string _ | .bool _, .array _
  | .bool _, .object _ | .number _, .null | .number _, .bool _ | .number _, .string _
  | .number _, .array _ | .number _, .object _ | .string _, .null | .string _, .bool _
  | .string _, .number _ | .string _, .array _ | .string _, .object _ | .array _, .null
  | .array _, .bool _ | .array _, .number _ | .array _, .string _ | .array _, .object _
  | .object _, .null | .object _, .bool _ | .object _, .number _ | .object _, .string _
  | .object _, .array _ => isFalse (by simp)

/-- Decides whether two lists of values are the same. -/
def decEqItems : (a b : List Json) → Decidable (a = b)
  | [], [] => isTrue rfl
  | [], _ :: _ => isFalse (by simp)
  | _ :: _, [] => isFalse (by simp)
  | x :: xs, y :: ys =>
    match decEq x y, decEqItems xs ys with
    | isTrue h, isTrue hs => isTrue (by rw [h, hs])
    | isFalse h, _ => isFalse (by simp [h])
    | _, isFalse hs => isFalse (by simp [hs])

/-- Decides whether two lists of members are the same. -/
def decEqMembers : (a b : List (String × Json)) → Decidable (a = b)
  | [], [] => isTrue rfl
  | [], _ :: _ => isFalse (by simp)
  | _ :: _, [] => isFalse (by simp)
  | (k, x) :: xs, (l, y) :: ys =>
    match decEq x y, decEqMembers xs ys with
    | isTrue h, isTrue hs => decidable_of_iff (k = l) (by simp [h, hs])
    | isFalse h, _ => isFalse (by simp [h])
    | _, isFalse hs => isFalse (by simp [hs])

end

instance : DecidableEq Json := decEq

-- ── Members ───────────────────────────────────────────────────────────────────────

/-- Sets a member: in its place when the name is there already, at the end otherwise. -/
def put {α : Type} (name : String) (value : α) : List (String × α) → List (String × α)
  | [] => [(name, value)]
  | (n, v) :: rest =>
    if n = name then (name, value) :: rest else (n, v) :: put name value rest

/-- The members written in a list, each name once: at its first place with its last value. -/
def collect {α : Type} (members : List (String × α)) : List (String × α) :=
  members.foldl (fun kept member => put member.1 member.2 kept) []

/-- The names in a list of members, in order. -/
def names {α : Type} (members : List (String × α)) : List String :=
  members.map (·.1)

/-- The members of an object. -/
def members? : Json → Option (List (String × Json))
  | .object members => some members
  | _ => none

/-- The text of a string. -/
def string? : Json → Option String
  | .string text => some text
  | _ => none

/-- The member of an object with a given name. -/
def member? (name : String) (value : Json) : Option Json :=
  value.members?.bind (·.lookup name)

/-- The texts of a list of values, if all of them are strings. -/
def strings? (items : List Json) : Option (List String) :=
  items.mapM string?

/-- A list of texts as a value. -/
def ofStrings (texts : List String) : Json :=
  .array (texts.map .string)

/-- How many lists and objects stand inside one another at the deepest place. -/
def depth : Json → Nat
  | .array items => depthItems items + 1
  | .object members => depthMembers members + 1
  | _ => 0
where
  /-- The deepest nesting among the items of a list. -/
  depthItems : List Json → Nat
    | [] => 0
    | item :: rest => max (depth item) (depthItems rest)
  /-- The deepest nesting among the members of an object. -/
  depthMembers : List (String × Json) → Nat
    | [] => 0
    | (_, value) :: rest => max (depth value) (depthMembers rest)

-- ── Names that occur once ─────────────────────────────────────────────────────────

/-- No object in the tree names a member twice. -/
def Distinct : Json → Prop
  | .array items => distinctItems items
  | .object members => (names members).Nodup ∧ distinctMembers members
  | _ => True
where
  /-- `Distinct` of every item of a list. -/
  distinctItems : List Json → Prop
    | [] => True
    | item :: rest => Distinct item ∧ distinctItems rest
  /-- `Distinct` of every member of an object. -/
  distinctMembers : List (String × Json) → Prop
    | [] => True
    | (_, value) :: rest => Distinct value ∧ distinctMembers rest

/-- The value a tree stands for: every object with each name once. -/
def merged : Json → Json
  | .array items => .array (mergedItems items)
  | .object members => .object (collect (mergedMembers members))
  | other => other
where
  /-- `merged` of every item of a list. -/
  mergedItems : List Json → List Json
    | [] => []
    | item :: rest => merged item :: mergedItems rest
  /-- `merged` of every member of an object. -/
  mergedMembers : List (String × Json) → List (String × Json)
    | [] => []
    | (name, value) :: rest => (name, merged value) :: mergedMembers rest

theorem mem_names_put {α : Type} (name : String) (value : α) (members : List (String × α))
    (other : String) :
    other ∈ names (put name value members) ↔ other = name ∨ other ∈ names members := by
  induction members with
  | nil => simp [put, names]
  | cons member rest ih =>
      obtain ⟨n, v⟩ := member
      simp only [names] at ih
      by_cases h : n = name
      · subst h; simp [put, names]
      · simp only [put, h, if_false, names, List.map_cons, List.mem_cons, ih]
        grind

/-- Setting a member keeps the names distinct. -/
theorem nodup_put {α : Type} {members : List (String × α)} (h : (names members).Nodup)
    (name : String) (value : α) : (names (put name value members)).Nodup := by
  induction members with
  | nil => simp [put, names]
  | cons member rest ih =>
      obtain ⟨n, v⟩ := member
      simp only [names, List.map_cons, List.nodup_cons] at h
      by_cases same : n = name
      · subst same
        simpa [put, names] using h
      · have other := mem_names_put name value rest n
        simp only [names] at other ih
        simp only [put, same, if_false, names, List.map_cons, List.nodup_cons]
        refine ⟨?_, ih h.2⟩
        rw [other]
        rintro (bad | bad)
        · exact same bad
        · exact h.1 bad

theorem nodup_foldl_put {α : Type} (members : List (String × α)) :
    ∀ kept : List (String × α), (names kept).Nodup →
      (names (members.foldl (fun kept member => put member.1 member.2 kept) kept)).Nodup := by
  induction members with
  | nil => exact fun _ h => h
  | cons member rest ih => exact fun kept h => ih _ (nodup_put h _ _)

/-- **Collected members have distinct names.** -/
theorem nodup_collect {α : Type} (members : List (String × α)) :
    (names (collect members)).Nodup :=
  nodup_foldl_put members [] (by simp [names])

theorem distinctMembers_iff (members : List (String × Json)) :
    Distinct.distinctMembers members ↔ ∀ member ∈ members, member.2.Distinct := by
  induction members with
  | nil => simp [Distinct.distinctMembers]
  | cons member rest ih => simp [Distinct.distinctMembers, ih]

theorem mem_put {α : Type} {name : String} {value : α} {members : List (String × α)}
    {member : String × α} (h : member ∈ put name value members) :
    member = (name, value) ∨ member ∈ members := by
  induction members with
  | nil => simpa [put] using h
  | cons first rest ih =>
      simp only [put] at h
      split at h
      · rcases List.mem_cons.1 h with h | h
        · exact .inl h
        · exact .inr (List.mem_cons_of_mem _ h)
      · rcases List.mem_cons.1 h with h | h
        · exact .inr (h ▸ List.mem_cons_self)
        · exact (ih h).imp id (List.mem_cons_of_mem _)

theorem mem_foldl_put {α : Type} (members : List (String × α)) :
    ∀ (kept : List (String × α)) (member : String × α),
      member ∈ members.foldl (fun kept member => put member.1 member.2 kept) kept →
      member ∈ kept ∨ member ∈ members := by
  induction members with
  | nil => exact fun _ _ h => .inl h
  | cons first rest ih =>
      intro kept member h
      rcases ih _ _ h with h | h
      · rcases mem_put h with h | h
        · exact .inr (h ▸ List.mem_cons_self)
        · exact .inl h
      · exact .inr (List.mem_cons_of_mem _ h)

theorem mem_of_mem_collect {α : Type} {members : List (String × α)} {member : String × α}
    (h : member ∈ collect members) : member ∈ members := by
  rcases mem_foldl_put members [] member h with h | h
  · simp at h
  · exact h

mutual

/-- **Merging leaves no name twice.** -/
theorem distinct_merged : ∀ value : Json, value.merged.Distinct
  | .null | .bool _ | .number _ | .string _ => by simp [merged, Distinct]
  | .array items => by
      simpa [merged, Distinct] using distinct_mergedItems items
  | .object members => by
      simp only [merged, Distinct]
      refine ⟨nodup_collect _, (distinctMembers_iff _).2 fun member h => ?_⟩
      exact (distinctMembers_iff _).1 (distinct_mergedMembers members) _ (mem_of_mem_collect h)

theorem distinct_mergedItems :
    ∀ items : List Json, Distinct.distinctItems (merged.mergedItems items)
  | [] => by simp [merged.mergedItems, Distinct.distinctItems]
  | item :: rest => by
      simp only [merged.mergedItems, Distinct.distinctItems]
      exact ⟨distinct_merged item, distinct_mergedItems rest⟩

theorem distinct_mergedMembers :
    ∀ members : List (String × Json),
      Distinct.distinctMembers (merged.mergedMembers members)
  | [] => by simp [merged.mergedMembers, Distinct.distinctMembers]
  | (_, value) :: rest => by
      simp only [merged.mergedMembers, Distinct.distinctMembers]
      exact ⟨distinct_merged value, distinct_mergedMembers rest⟩

end

end Json

/-- A value in which no object names a member twice. -/
structure Document where
  tree : Json
  distinct : tree.Distinct
deriving DecidableEq

namespace Document

/-- The value a tree stands for. -/
def ofJson (tree : Json) : Document :=
  ⟨tree.merged, tree.distinct_merged⟩

/-- The object without members. -/
def empty : Document :=
  ⟨.object [], by simp [Json.Distinct, Json.names, Json.Distinct.distinctMembers]⟩

instance : Inhabited Document := ⟨empty⟩

end Document

end AgentWire
