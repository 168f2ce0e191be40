import AgentWire.Json.Kind
import AgentWire.NameMap
import Mathlib.Data.List.Basic
import Mathlib.Data.List.Induction

/-!
# Merging — what it leaves alone, what it keeps and what it cannot deepen

A value that names no member twice is what it stands for, so a document is made again of its own
tree:

    v.Distinct  →  v.merged = v            Document.ofJson d.tree = d

Of a value that does name a member twice, merging keeps what was written last under each name
(`lastValue?`), so it is nested no deeper afterwards. What is kept is merged itself, and merging
changes no value without members.
-/

namespace AgentWire.Json

-- ── Collecting ────────────────────────────────────────────────────────────────────

/-- A new name goes to the end. -/
theorem put_of_not_mem {α : Type} {name : String} {members : List (String × α)}
    (h : name ∉ names members) (value : α) :
    put name value members = members ++ [(name, value)] := by
  induction members with
  | nil => rfl
  | cons member rest ih =>
      obtain ⟨n, v⟩ := member
      obtain ⟨hne, hrest⟩ := not_or.mp (mt List.mem_cons.mpr h)
      rw [put, if_neg (Ne.symm hne), ih hrest]
      rfl

theorem foldl_put_of_nodup {α : Type} (members : List (String × α)) :
    ∀ kept : List (String × α), (names (kept ++ members)).Nodup →
      members.foldl (fun kept member => put member.1 member.2 kept) kept = kept ++ members := by
  induction members with
  | nil => exact fun kept _ => (List.append_nil kept).symm
  | cons member rest ih =>
      intro kept h
      have hnew : member.1 ∉ names kept := by
        intro hmem
        rw [names, List.map_append, List.nodup_append] at h
        exact h.2.2 member.1 hmem member.1 List.mem_cons_self rfl
      rw [List.foldl_cons, put_of_not_mem hnew, ih, List.append_assoc]
      · rfl
      · rw [List.append_assoc]
        exact h

/-- **Members with distinct names are collected as they are.** -/
theorem collect_of_nodup {α : Type} {members : List (String × α)} (h : (names members).Nodup) :
    collect members = members :=
  foldl_put_of_nodup members [] h

/-- A name that is there already keeps its place. -/
theorem names_put_of_mem {α : Type} {name : String} {members : List (String × α)}
    (h : name ∈ names members) (value : α) : names (put name value members) = names members := by
  induction members with
  | nil => exact nomatch h
  | cons member rest ih =>
      obtain ⟨first, old⟩ := member
      rw [put]
      by_cases hsame : first = name
      · rw [if_pos hsame, ← hsame]
        rfl
      · have hrest : name ∈ names rest := (List.mem_cons.mp h).resolve_left (Ne.symm hsame)
        rw [if_neg hsame]
        exact congrArg (first :: ·) (ih hrest)

theorem collect_concat {α : Type} (members : List (String × α)) (name : String) (value : α) :
    collect (members ++ [(name, value)]) = put name value (collect members) := by
  rw [collect, List.foldl_append]
  rfl

/-- Collecting keeps every name. -/
theorem mem_names_collect_iff {α : Type} {members : List (String × α)} {name : String} :
    name ∈ names (collect members) ↔ name ∈ names members := by
  induction members using List.reverseRecOn with
  | nil => rfl
  | append_singleton members member ih =>
      rw [collect_concat, mem_names_put, ih, names, names, List.map_append, List.mem_append,
        or_comm, List.map_singleton, List.mem_singleton]

/-- **Collected names stand in the order in which they first came.** -/
theorem pairwise_names_collect {α : Type} (members : List (String × α)) :
    (names (collect members)).Pairwise fun a b =>
      (names members).idxOf a < (names members).idxOf b := by
  induction members using List.reverseRecOn with
  | nil => exact .nil
  | append_singleton members member ih =>
      obtain ⟨name, value⟩ := member
      have hnames : names (members ++ [(name, value)]) = names members ++ [name] := List.map_append
      have hplace : ∀ other ∈ names (collect members),
          (names members ++ [name]).idxOf other = (names members).idxOf other := by
        intro other hmem
        exact List.idxOf_append_of_mem (mem_names_collect_iff.mp hmem)
      have hkept : (names (collect members)).Pairwise fun a b =>
          (names members ++ [name]).idxOf a < (names members ++ [name]).idxOf b := by
        refine ih.imp_of_mem ?_
        intro a b ha hb hlt
        rw [hplace a ha, hplace b hb]
        exact hlt
      rw [hnames, collect_concat]
      by_cases hmem : name ∈ names (collect members)
      · -- a name that came before keeps its place
        rw [names_put_of_mem hmem]
        exact hkept
      · -- a new name is put behind the others, which all came before it
        have hnew : name ∉ names members := mt mem_names_collect_iff.mpr hmem
        have hlast : names (put name value (collect members)) =
            names (collect members) ++ [name] := by
          rw [put_of_not_mem hmem]
          exact List.map_append
        rw [hlast]
        refine List.pairwise_append.mpr ⟨hkept, List.pairwise_singleton _ _, ?_⟩
        intro a ha b hb
        rw [List.mem_singleton.mp hb, hplace a ha, List.idxOf_append_of_notMem hnew]
        exact Nat.lt_add_right _ (List.idxOf_lt_length_of_mem (mem_names_collect_iff.mp ha))

/-- Of collected members, one that does not stand before another did not come before it. -/
theorem idxOf_le_of_collect_eq {α : Type} {members before after : List (String × α)}
    {name other : String} {value : α} (h : collect members = before ++ (name, value) :: after)
    (hother : other ∈ names members) (hnot : other ∉ names before) :
    (names members).idxOf name ≤ (names members).idxOf other := by
  have hpairs := pairwise_names_collect members
  have hmem := mem_names_collect_iff.mpr hother
  have hnames : names (collect members) = names before ++ name :: names after := by
    rw [h]
    exact List.map_append
  rw [hnames] at hpairs hmem
  rcases List.mem_cons.mp ((List.mem_append.mp hmem).resolve_left hnot) with rfl | hafter
  · exact Nat.le_refl _
  · have hrest := (List.pairwise_append.mp hpairs).2.1
    exact Nat.le_of_lt ((List.pairwise_cons.mp hrest).1 other hafter)

-- ── Looking up ────────────────────────────────────────────────────────────────────

/-- A member adds one to how often its name comes. -/
theorem count_names_cons {α : Type} (first : String) (value : α) (rest : List (String × α))
    (name : String) :
    (names ((first, value) :: rest)).count name =
      (names rest).count name + if first = name then 1 else 0 := by
  show List.count name (first :: names rest) = _
  rw [List.count_cons]
  simp only [beq_iff_eq]

/-- The value that was written last under a name. -/
def lastValue? {α : Type} (members : List (String × α)) (name : String) : Option α :=
  members.reverse.lookup name

/-- A member that is looked up is there. -/
theorem mem_of_lookup {α : Type} {members : List (String × α)} {name : String} {value : α}
    (h : members.lookup name = some value) : (name, value) ∈ members := by
  obtain ⟨before, after, rfl, -⟩ := List.lookup_eq_some_iff.mp h
  exact List.mem_append_right before List.mem_cons_self

/-- Where a name comes once, its member is the one that is looked up. -/
theorem lookup_of_mem {α : Type} {members : List (String × α)} {name : String} {value : α}
    (hnodup : (names members).Nodup) (hmem : (name, value) ∈ members) :
    members.lookup name = some value := by
  induction members with
  | nil => exact nomatch hmem
  | cons member rest ih =>
      obtain ⟨first, other⟩ := member
      obtain ⟨hfresh, hrest⟩ := List.nodup_cons.mp hnodup
      rw [NameMap.lookup_cons]
      rcases List.mem_cons.mp hmem with heq | hin
      · cases heq
        exact if_pos rfl
      · have hne : name ≠ first := by
          rintro rfl
          exact hfresh (List.mem_map.mpr ⟨_, hin, rfl⟩)
        rw [if_neg hne, ih hrest hin]

theorem lastValue?_cons {α : Type} (first : String) (value : α) (rest : List (String × α))
    (name : String) :
    lastValue? ((first, value) :: rest) name =
      (lastValue? rest name).or (if name = first then some value else none) := by
  unfold lastValue?
  rw [List.reverse_cons, List.lookup_append, NameMap.lookup_cons]
  rfl

/-- The value that was written last is one that was written. -/
theorem mem_of_lastValue? {α : Type} {members : List (String × α)} {name : String} {value : α}
    (h : lastValue? members name = some value) : (name, value) ∈ members :=
  List.mem_reverse.mp (mem_of_lookup h)

/-- Nothing was written last under a name that does not come. -/
theorem lastValue?_of_not_mem {α : Type} {members : List (String × α)} {name : String}
    (h : name ∉ names members) : lastValue? members name = none := by
  cases hlast : lastValue? members name with
  | none => rfl
  | some value => exact absurd (List.mem_map.mpr ⟨_, mem_of_lastValue? hlast, rfl⟩) h

/-- What comes behind other members was written later. -/
theorem lastValue?_append {α : Type} (before after : List (String × α)) (name : String) :
    lastValue? (before ++ after) name = (lastValue? after name).or (lastValue? before name) := by
  rw [lastValue?, List.reverse_append, List.lookup_append]
  rfl

/-- A member among others says nothing about the names of these. -/
theorem lastValue?_among_of_ne {α : Type} {first name : String} (h : name ≠ first)
    (before after : List (String × α)) (value : α) :
    lastValue? (before ++ (first, value) :: after) name = lastValue? (before ++ after) name := by
  rw [lastValue?_append, lastValue?_cons, if_neg h, Option.or_none, ← lastValue?_append]

/-- A member whose name does not come again was written last under it. -/
theorem lastValue?_among_self {α : Type} {first : String} {after : List (String × α)}
    (h : first ∉ names after) (before : List (String × α)) (value : α) :
    lastValue? (before ++ (first, value) :: after) first = some value := by
  rw [lastValue?_append, lastValue?_cons, lastValue?_of_not_mem h, if_pos rfl]
  rfl

/-- Where a name comes once at most, the value that was written under it was written last. -/
theorem lastValue?_of_mem {α : Type} {members : List (String × α)} {name : String} {value : α}
    (hcount : (names members).count name ≤ 1) (hmem : (name, value) ∈ members) :
    lastValue? members name = some value := by
  induction members with
  | nil => exact nomatch hmem
  | cons member rest ih =>
      obtain ⟨first, other⟩ := member
      have hcons : names ((first, other) :: rest) = first :: names rest := rfl
      rw [lastValue?_cons]
      rcases List.mem_cons.mp hmem with heq | hin
      · cases heq
        rw [hcons, List.count_cons_self] at hcount
        have hfresh : name ∉ names rest :=
          List.count_eq_zero.mp (Nat.le_zero.mp (Nat.le_of_succ_le_succ hcount))
        rw [lastValue?_of_not_mem hfresh, if_pos rfl]
        rfl
      · rw [hcons, List.count_cons] at hcount
        rw [ih (Nat.le_trans (Nat.le_add_right _ _) hcount) hin]
        rfl

theorem lookup_put {α : Type} (name other : String) (value : α) (members : List (String × α)) :
    (put name value members).lookup other =
      if other = name then some value else members.lookup other := by
  induction members with
  | nil => exact NameMap.lookup_cons name other value []
  | cons member rest ih =>
      obtain ⟨first, old⟩ := member
      rw [put]
      by_cases hsame : first = name
      · subst hsame
        rw [if_pos rfl, NameMap.lookup_cons, NameMap.lookup_cons]
        by_cases hother : other = first
        · rw [if_pos hother, if_pos hother]
        · rw [if_neg hother, if_neg hother, if_neg hother]
      · rw [if_neg hsame, NameMap.lookup_cons, NameMap.lookup_cons, ih]
        by_cases hother : other = first
        · rw [if_pos hother, if_pos hother, if_neg (hother ▸ hsame)]
        · rw [if_neg hother, if_neg hother]

theorem lookup_foldl_put {α : Type} (members : List (String × α)) (name : String) :
    ∀ kept : List (String × α),
      (members.foldl (fun kept member => put member.1 member.2 kept) kept).lookup name =
        (lastValue? members name).or (kept.lookup name) := by
  induction members with
  | nil => exact fun _ => rfl
  | cons member rest ih =>
      intro kept
      obtain ⟨first, value⟩ := member
      rw [List.foldl_cons, ih, lookup_put, lastValue?_cons, Option.or_assoc]
      by_cases hname : name = first
      · rw [if_pos hname, if_pos hname]
        rfl
      · rw [if_neg hname, if_neg hname]
        rfl

/-- **Collecting keeps under each name what was written last.** -/
theorem lookup_collect {α : Type} (members : List (String × α)) (name : String) :
    (collect members).lookup name = lastValue? members name := by
  unfold collect
  rw [lookup_foldl_put]
  exact Option.or_none

/-- A name comes exactly if something was written last under it. -/
theorem mem_names_iff_lastValue? {α : Type} {members : List (String × α)} {name : String} :
    name ∈ names members ↔ ∃ value, lastValue? members name = some value := by
  constructor
  · intro h
    obtain ⟨⟨_, value⟩, hmem, rfl⟩ := List.mem_map.mp (mem_names_collect_iff.mpr h)
    refine ⟨value, ?_⟩
    rw [← lookup_collect]
    exact lookup_of_mem (nodup_collect members) hmem
  · rintro ⟨value, h⟩
    exact List.mem_map_of_mem (mem_of_lastValue? h)

/-- Where every name comes once, what is looked up was written last. -/
theorem lastValue?_of_nodup {α : Type} {members : List (String × α)}
    (h : (names members).Nodup) (name : String) :
    lastValue? members name = members.lookup name := by
  rw [← lookup_collect, collect_of_nodup h]

-- ── Values that are merged already ────────────────────────────────────────────────

mutual

/-- **A value that names no member twice is what it stands for.** -/
theorem merged_of_distinct : ∀ {value : Json}, value.Distinct → value.merged = value
  | .null, _ | .bool _, _ | .number _, _ | .string _, _ => rfl
  | .array items, h => congrArg Json.array (mergedItems_of_distinct h)
  | .object members, h => by
      obtain ⟨hnodup, hvalues⟩ := h
      rw [merged, mergedMembers_of_distinct hvalues, collect_of_nodup hnodup]

theorem mergedItems_of_distinct : ∀ {items : List Json}, Distinct.distinctItems items →
    merged.mergedItems items = items
  | [], _ => rfl
  | item :: rest, h => by
      rw [merged.mergedItems, merged_of_distinct h.1, mergedItems_of_distinct h.2]

theorem mergedMembers_of_distinct : ∀ {members : List (String × Json)},
    Distinct.distinctMembers members → merged.mergedMembers members = members
  | [], _ => rfl
  | (name, value) :: rest, h => by
      rw [merged.mergedMembers, merged_of_distinct h.1, mergedMembers_of_distinct h.2]

end

-- ── What is kept ──────────────────────────────────────────────────────────────────

theorem lastValue?_mergedMembers (members : List (String × Json)) (name : String) :
    lastValue? (merged.mergedMembers members) name = (lastValue? members name).map merged := by
  induction members with
  | nil => rfl
  | cons member rest ih =>
      obtain ⟨first, value⟩ := member
      rw [merged.mergedMembers, lastValue?_cons, lastValue?_cons, ih, Option.map_or]
      by_cases hname : name = first
      · rw [if_pos hname, if_pos hname]
        rfl
      · rw [if_neg hname, if_neg hname]
        rfl

/-- **A merged object has under each name what was written last, merged.** -/
theorem lookup_merged (members : List (String × Json)) (name : String) :
    (collect (merged.mergedMembers members)).lookup name =
      (lastValue? members name).map merged := by
  rw [lookup_collect, lastValue?_mergedMembers]

/-- Merging the values under names keeps the names. -/
theorem names_mergedMembers {members : List (String × Json)} :
    names (merged.mergedMembers members) = names members := by
  induction members with
  | nil => rfl
  | cons member rest ih => exact congrArg (member.1 :: ·) ih

/-- Merging changes neither the sort of a value nor how it is described. -/
theorem kind_merged (value : Json) : value.merged.kind = value.kind := by
  cases value <;> rfl

theorem found_merged (value : Json) : value.merged.found = value.found := by
  cases value <;> rfl

theorem merged_eq_string_iff {value : Json} {text : String} :
    value.merged = .string text ↔ value = .string text := by
  cases value <;> simp [merged]

theorem merged_eq_object_iff {value : Json} {kept : List (String × Json)} :
    value.merged = .object kept ↔
      ∃ members, value = .object members ∧ kept = collect (merged.mergedMembers members) := by
  cases value <;> simp [merged, eq_comm]

theorem mergedItems_eq_strings_iff {items : List Json} {texts : List String} :
    merged.mergedItems items = texts.map .string ↔ items = texts.map .string := by
  induction items generalizing texts with
  | nil => rfl
  | cons item rest ih =>
      cases texts with
      | nil => simp [merged.mergedItems]
      | cons text more =>
          simp only [merged.mergedItems, List.map_cons, List.cons.injEq, merged_eq_string_iff, ih]

theorem merged_eq_strings_iff {value : Json} {texts : List String} :
    value.merged = .array (texts.map .string) ↔ value = .array (texts.map .string) := by
  cases value <;> simp [merged, mergedItems_eq_strings_iff]

-- ── Depth ─────────────────────────────────────────────────────────────────────────

theorem depthItems_le_iff {items : List Json} {bound : Nat} :
    depth.depthItems items ≤ bound ↔ ∀ item ∈ items, item.depth ≤ bound := by
  induction items with
  | nil => simp [depth.depthItems]
  | cons item rest ih =>
      rw [depth.depthItems, Nat.max_le, ih]
      rw [List.forall_mem_cons]

theorem depthMembers_le_iff {members : List (String × Json)} {bound : Nat} :
    depth.depthMembers members ≤ bound ↔ ∀ member ∈ members, member.2.depth ≤ bound := by
  induction members with
  | nil => simp [depth.depthMembers]
  | cons member rest ih =>
      rw [depth.depthMembers, Nat.max_le, ih]
      rw [List.forall_mem_cons]

/-- A member and those around it are nested as deep as they are apart. -/
theorem depthMembers_among_le_iff {before after : List (String × Json)} {name : String}
    {value : Json} {bound : Nat} :
    depth.depthMembers (before ++ (name, value) :: after) ≤ bound ↔
      value.depth ≤ bound ∧ depth.depthMembers (before ++ after) ≤ bound := by
  simp only [depthMembers_le_iff, List.forall_mem_append, List.forall_mem_cons]
  exact and_left_comm

/-- Collecting members nests them no deeper. -/
theorem depthMembers_collect_le {members : List (String × Json)} {bound : Nat}
    (h : depth.depthMembers members ≤ bound) :
    depth.depthMembers (collect members) ≤ bound := by
  rw [depthMembers_le_iff] at h ⊢
  intro member hmem
  exact h member (mem_of_mem_collect hmem)

mutual

/-- **Merging nests nothing deeper.** -/
theorem depth_merged_le : ∀ value : Json, value.merged.depth ≤ value.depth
  | .null | .bool _ | .number _ | .string _ => Nat.le_refl _
  | .array items => Nat.succ_le_succ (depthItems_mergedItems_le items)
  | .object members =>
      Nat.succ_le_succ (depthMembers_collect_le (depthMembers_mergedMembers_le members))

theorem depthItems_mergedItems_le : ∀ items : List Json,
    depth.depthItems (merged.mergedItems items) ≤ depth.depthItems items
  | [] => Nat.le_refl _
  | item :: rest => Nat.max_le.mpr
      ⟨Nat.le_trans (depth_merged_le item) (Nat.le_max_left _ _),
        Nat.le_trans (depthItems_mergedItems_le rest) (Nat.le_max_right _ _)⟩

theorem depthMembers_mergedMembers_le : ∀ members : List (String × Json),
    depth.depthMembers (merged.mergedMembers members) ≤ depth.depthMembers members
  | [] => Nat.le_refl _
  | (_, value) :: rest => Nat.max_le.mpr
      ⟨Nat.le_trans (depth_merged_le value) (Nat.le_max_left _ _),
        Nat.le_trans (depthMembers_mergedMembers_le rest) (Nat.le_max_right _ _)⟩

end

end AgentWire.Json

namespace AgentWire.Document

/-- **A document is made again of its own tree.** -/
theorem ofJson_tree (d : Document) : ofJson d.tree = d := by
  obtain ⟨tree, hdistinct⟩ := d
  show (⟨tree.merged, _⟩ : Document) = ⟨tree, _⟩
  congr 1
  exact Json.merged_of_distinct hdistinct

/-- Merging once more makes no difference. -/
theorem ofJson_merged (tree : Json) : ofJson tree.merged = ofJson tree :=
  ofJson_tree (ofJson tree)

end AgentWire.Document
