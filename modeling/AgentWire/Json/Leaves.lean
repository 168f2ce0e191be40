import AgentWire.Json.Basic

/-!
# String leaves — the texts inside a value

The strings that stand as values in a tree, in the order of the document: items from first to
last, members in their order. Names of members are no leaves. `mapLeavesM` replaces every leaf,
stops at the first one that cannot be replaced, and leaves everything else as it is.
-/

namespace AgentWire.Json

mutual

/-- The strings of a value, in the order of the document. -/
def leaves : Json → List String
  | .string text => [text]
  | .array items => leavesItems items
  | .object members => leavesMembers members
  | _ => []

/-- The strings of the items of a list. -/
def leavesItems : List Json → List String
  | [] => []
  | item :: rest => leaves item ++ leavesItems rest

/-- The strings of the members of an object. -/
def leavesMembers : List (String × Json) → List String
  | [] => []
  | (_, value) :: rest => leaves value ++ leavesMembers rest

end

variable {ε : Type}

mutual

/-- The value with every string replaced, or the first failure in the order of the document. -/
def mapLeavesM (f : String → Except ε String) : Json → Except ε Json
  | .string text =>
    match f text with
    | .ok text => .ok (.string text)
    | .error e => .error e
  | .array items =>
    match mapItemsM f items with
    | .ok items => .ok (.array items)
    | .error e => .error e
  | .object members =>
    match mapMembersM f members with
    | .ok members => .ok (.object members)
    | .error e => .error e
  | .null => .ok .null
  | .bool b => .ok (.bool b)
  | .number n => .ok (.number n)

/-- `mapLeavesM` on the items of a list. -/
def mapItemsM (f : String → Except ε String) : List Json → Except ε (List Json)
  | [] => .ok []
  | item :: rest =>
    match mapLeavesM f item with
    | .error e => .error e
    | .ok item =>
      match mapItemsM f rest with
      | .error e => .error e
      | .ok rest => .ok (item :: rest)

/-- `mapLeavesM` on the members of an object. -/
def mapMembersM (f : String → Except ε String) :
    List (String × Json) → Except ε (List (String × Json))
  | [] => .ok []
  | (name, value) :: rest =>
    match mapLeavesM f value with
    | .error e => .error e
    | .ok value =>
      match mapMembersM f rest with
      | .error e => .error e
      | .ok rest => .ok ((name, value) :: rest)

end

-- ── Names stay as they are ────────────────────────────────────────────────────────

theorem names_of_mapMembersM {f : String → Except ε String} {members members' : List (String × Json)}
    (h : mapMembersM f members = .ok members') : names members' = names members := by
  induction members generalizing members' with
  | nil => cases h; rfl
  | cons member rest ih =>
      obtain ⟨name, value⟩ := member
      simp only [mapMembersM] at h
      split at h
      · cases h
      · split at h
        · cases h
        · rename_i rest' mapped
          cases h
          have := ih mapped
          simp only [names, List.map_cons] at this ⊢
          rw [this]

mutual

/-- **Replacing leaves keeps names distinct.** -/
theorem distinct_of_mapLeavesM {f : String → Except ε String} :
    ∀ {value value' : Json}, value.Distinct → mapLeavesM f value = .ok value' → value'.Distinct
  | .null, _, _, h | .bool _, _, _, h | .number _, _, _, h => by
      cases h; simp [Distinct]
  | .string _, _, _, h => by
      simp only [mapLeavesM] at h
      split at h
      · cases h; simp [Distinct]
      · cases h
  | .array items, _, distinct, h => by
      simp only [mapLeavesM] at h
      split at h
      · rename_i mapped
        cases h
        simp only [Distinct] at distinct ⊢
        exact distinct_of_mapItemsM distinct mapped
      · cases h
  | .object members, _, distinct, h => by
      simp only [mapLeavesM] at h
      split at h
      · rename_i mapped
        cases h
        simp only [Distinct] at distinct ⊢
        exact ⟨names_of_mapMembersM mapped ▸ distinct.1,
          distinct_of_mapMembersM distinct.2 mapped⟩
      · cases h

theorem distinct_of_mapItemsM {f : String → Except ε String} :
    ∀ {items items' : List Json}, Distinct.distinctItems items → mapItemsM f items = .ok items' →
      Distinct.distinctItems items'
  | [], _, _, h => by cases h; simp [Distinct.distinctItems]
  | item :: rest, _, distinct, h => by
      simp only [mapItemsM] at h
      split at h
      · cases h
      · rename_i mapped
        split at h
        · cases h
        · rename_i mappedRest
          cases h
          simp only [Distinct.distinctItems] at distinct ⊢
          exact ⟨distinct_of_mapLeavesM distinct.1 mapped,
            distinct_of_mapItemsM distinct.2 mappedRest⟩

theorem distinct_of_mapMembersM {f : String → Except ε String} :
    ∀ {members members' : List (String × Json)}, Distinct.distinctMembers members →
      mapMembersM f members = .ok members' → Distinct.distinctMembers members'
  | [], _, _, h => by cases h; simp [Distinct.distinctMembers]
  | (_, value) :: rest, _, distinct, h => by
      simp only [mapMembersM] at h
      split at h
      · cases h
      · rename_i mapped
        split at h
        · cases h
        · rename_i mappedRest
          cases h
          simp only [Distinct.distinctMembers] at distinct ⊢
          exact ⟨distinct_of_mapLeavesM distinct.1 mapped,
            distinct_of_mapMembersM distinct.2 mappedRest⟩

end

end AgentWire.Json
