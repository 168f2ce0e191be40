import AgentWire.Json.Leaves
import AgentWire.NameMap
import Mathlib.Data.List.Forall2

/-!
# Shape — what replacing the strings of a value leaves alone

Two values have the same shape when they differ in the text of their strings only: the same names
in the same order, the same lengths, the same numbers, truth values and nulls.

    mapLeavesM f v = .ok v'     ↔  SameShape v v', and f takes each leaf of v to that of v'
    mapLeavesM f v = .error e   ↔  e is the failure of the first leaf that f refuses
    f keeps every leaf of v     →  mapLeavesM f v = .ok v

Each is an induction over the tree, its items and its members together. Values of one shape have
the same depth, and members of one shape under the same names.
-/

namespace AgentWire.Json

mutual

/-- The values differ in the text of their strings at most. -/
def SameShape : (a b : Json) → Prop
  | .null, .null => True
  | .bool a, .bool b => a = b
  | .number a, .number b => a = b
  | .string _, .string _ => True
  | .array items, .array others => SameShapeItems items others
  | .object members, .object others => SameShapeMembers members others
  | _, _ => False

/-- Item by item, the values differ in the text of their strings at most. -/
def SameShapeItems : (items others : List Json) → Prop
  | [], [] => True
  | item :: rest, other :: others => SameShape item other ∧ SameShapeItems rest others
  | _, _ => False

/-- Member by member, the names are the same and the values differ in the text of their strings
    at most. -/
def SameShapeMembers : (members others : List (String × Json)) → Prop
  | [], [] => True
  | (name, value) :: rest, (other, value') :: others =>
    name = other ∧ SameShape value value' ∧ SameShapeMembers rest others
  | _, _ => False

end

/-- The leaves of one value are taken to those of another, one by one. -/
def LeavesTo {ε : Type} (f : String → Except ε String) (leaves leaves' : List String) : Prop :=
  List.Forall₂ (fun text text' => f text = .ok text') leaves leaves'

/-- A failure is that of the first leaf that is refused. -/
def FirstRefused {ε : Type} (f : String → Except ε String) (leaves : List String) (e : ε) :
    Prop :=
  ∃ before text after, leaves = before ++ text :: after ∧
    (∀ earlier ∈ before, ∃ replaced, f earlier = .ok replaced) ∧ f text = .error e

variable {ε : Type} {f : String → Except ε String}

-- ── Leaves of a part and leaves of the whole ──────────────────────────────────────

/-- The leaves of a list are those of its items, in their order. -/
theorem leaves_array (items : List Json) : (array items).leaves = items.flatMap leaves := by
  show leavesItems items = _
  induction items with
  | nil => rfl
  | cons item rest ih => rw [leavesItems, ih, List.flatMap_cons]

/-- The leaves of an object are those of the values of its members, in their order. -/
theorem leaves_object (members : List (String × Json)) :
    (object members).leaves = members.flatMap fun member => member.2.leaves := by
  show leavesMembers members = _
  induction members with
  | nil => rfl
  | cons member rest ih => rw [leavesMembers, ih, List.flatMap_cons]

theorem LeavesTo.append {a a' b b' : List String} (ha : LeavesTo f a a') (hb : LeavesTo f b b') :
    LeavesTo f (a ++ b) (a' ++ b') :=
  List.rel_append ha hb

/-- Leaves that are all taken somewhere are none of them refused. -/
theorem LeavesTo.exists_ok {leaves leaves' : List String} (h : LeavesTo f leaves leaves') :
    ∀ text ∈ leaves, ∃ text', f text = .ok text' := by
  induction h with
  | nil => intro text hmem; exact nomatch hmem
  | cons hfirst _ ih =>
      intro text hmem
      rcases List.mem_cons.mp hmem with heq | hrest
      · exact ⟨_, heq ▸ hfirst⟩
      · exact ih text hrest

/-- Every leaf that comes out was put in the place of one. -/
theorem LeavesTo.exists_source {leaves leaves' : List String} (h : LeavesTo f leaves leaves') :
    ∀ text' ∈ leaves', ∃ text ∈ leaves, f text = .ok text' := by
  induction h with
  | nil => intro text' hmem; exact nomatch hmem
  | cons hfirst _ ih =>
      intro text' hmem
      rcases List.mem_cons.mp hmem with heq | hrest
      · exact ⟨_, List.mem_cons_self, heq ▸ hfirst⟩
      · obtain ⟨text, hin, hto⟩ := ih text' hrest
        exact ⟨text, List.mem_cons_of_mem _ hin, hto⟩

theorem FirstRefused.append_right {leaves : List String} {e : ε} (h : FirstRefused f leaves e)
    (more : List String) : FirstRefused f (leaves ++ more) e := by
  obtain ⟨before, text, after, rfl, hbefore, hrefused⟩ := h
  exact ⟨before, text, after ++ more, by simp, hbefore, hrefused⟩

theorem FirstRefused.append_left {leaves leaves' more : List String} {e : ε}
    (hto : LeavesTo f leaves leaves') (h : FirstRefused f more e) :
    FirstRefused f (leaves ++ more) e := by
  obtain ⟨before, text, after, rfl, hbefore, hrefused⟩ := h
  refine ⟨leaves ++ before, text, after, by simp, ?_, hrefused⟩
  intro earlier hmem
  rcases List.mem_append.mp hmem with hin | hin
  · exact hto.exists_ok earlier hin
  · exact hbefore earlier hin

/-- Leaves of which one is refused are not all taken somewhere. -/
theorem FirstRefused.not_ok {leaves : List String} {e : ε} (h : FirstRefused f leaves e) :
    ¬ ∀ text ∈ leaves, ∃ text', f text = .ok text' := by
  obtain ⟨before, text, after, rfl, -, hrefused⟩ := h
  intro hall
  obtain ⟨text', hto⟩ := hall text (List.mem_append_right before List.mem_cons_self)
  exact nomatch hrefused.symm.trans hto

/-- Only one leaf is the first to be refused. -/
theorem FirstRefused.unique {leaves : List String} {e e' : ε} (h : FirstRefused f leaves e)
    (h' : FirstRefused f leaves e') : e = e' := by
  obtain ⟨before, text, after, rfl, hbefore, hrefused⟩ := h
  obtain ⟨before', text', after', heq, hbefore', hrefused'⟩ := h'
  have hnot : text ∉ before' := by
    intro hmem
    obtain ⟨replaced, hok⟩ := hbefore' text hmem
    exact nomatch hrefused.symm.trans hok
  have hnot' : text' ∉ before := by
    intro hmem
    obtain ⟨replaced, hok⟩ := hbefore text' hmem
    exact nomatch hrefused'.symm.trans hok
  rcases List.append_eq_append_iff.mp heq with ⟨gap, rfl, hgap⟩ | ⟨gap, rfl, hgap⟩
  · cases gap with
    | nil =>
        obtain ⟨rfl, -⟩ := List.cons.inj hgap
        exact Except.error.inj (hrefused.symm.trans hrefused')
    | cons first gap =>
        -- the first of the two stands among those before the other, where none is refused
        obtain ⟨rfl, -⟩ := List.cons.inj hgap
        exact absurd (List.mem_append_right before List.mem_cons_self) hnot
  · cases gap with
    | nil =>
        obtain ⟨rfl, -⟩ := List.cons.inj hgap
        exact Except.error.inj (hrefused.symm.trans hrefused')
    | cons first gap =>
        obtain ⟨rfl, -⟩ := List.cons.inj hgap
        exact absurd (List.mem_append_right before' List.mem_cons_self) hnot'

-- ── Replacing the leaves of a value ───────────────────────────────────────────────

mutual

/-- **Replacing strings changes strings only**, each into what `f` makes of it. -/
theorem mapLeavesM_eq_ok : ∀ {value value' : Json}, mapLeavesM f value = .ok value' →
    SameShape value value' ∧ LeavesTo f value.leaves value'.leaves
  | .null, _, h => by cases h; exact ⟨trivial, .nil⟩
  | .bool _, _, h => by cases h; exact ⟨rfl, .nil⟩
  | .number _, _, h => by cases h; exact ⟨rfl, .nil⟩
  | .string text, _, h => by
      simp only [mapLeavesM] at h
      split at h
      · rename_i text' hto
        cases h
        exact ⟨trivial, .cons hto .nil⟩
      · cases h
  | .array items, _, h => by
      simp only [mapLeavesM] at h
      split at h
      · rename_i items' hto
        cases h
        exact mapItemsM_eq_ok hto
      · cases h
  | .object members, _, h => by
      simp only [mapLeavesM] at h
      split at h
      · rename_i members' hto
        cases h
        exact mapMembersM_eq_ok hto
      · cases h

theorem mapItemsM_eq_ok : ∀ {items items' : List Json}, mapItemsM f items = .ok items' →
    SameShapeItems items items' ∧ LeavesTo f (leavesItems items) (leavesItems items')
  | [], _, h => by cases h; exact ⟨trivial, .nil⟩
  | item :: rest, _, h => by
      simp only [mapItemsM] at h
      split at h
      · cases h
      · rename_i item' hitem
        split at h
        · cases h
        · rename_i rest' hrest
          cases h
          obtain ⟨hshape, hleaves⟩ := mapLeavesM_eq_ok hitem
          obtain ⟨hshapes, hmore⟩ := mapItemsM_eq_ok hrest
          exact ⟨⟨hshape, hshapes⟩, hleaves.append hmore⟩

theorem mapMembersM_eq_ok : ∀ {members members' : List (String × Json)},
    mapMembersM f members = .ok members' →
    SameShapeMembers members members' ∧ LeavesTo f (leavesMembers members) (leavesMembers members')
  | [], _, h => by cases h; exact ⟨trivial, .nil⟩
  | (name, value) :: rest, _, h => by
      simp only [mapMembersM] at h
      split at h
      · cases h
      · rename_i value' hvalue
        split at h
        · cases h
        · rename_i rest' hrest
          cases h
          obtain ⟨hshape, hleaves⟩ := mapLeavesM_eq_ok hvalue
          obtain ⟨hshapes, hmore⟩ := mapMembersM_eq_ok hrest
          exact ⟨⟨rfl, hshape, hshapes⟩, hleaves.append hmore⟩

end

mutual

/-- **The failure is that of the first leaf refused**, in the order of the document. -/
theorem mapLeavesM_eq_error : ∀ {value : Json} {e : ε}, mapLeavesM f value = .error e →
    FirstRefused f value.leaves e
  | .null, _, h | .bool _, _, h | .number _, _, h => by cases h
  | .string text, _, h => by
      simp only [mapLeavesM] at h
      split at h
      · cases h
      · rename_i hrefused
        cases h
        exact ⟨[], text, [], rfl, by simp, hrefused⟩
  | .array items, _, h => by
      simp only [mapLeavesM] at h
      split at h
      · cases h
      · rename_i hrefused
        cases h
        exact mapItemsM_eq_error hrefused
  | .object members, _, h => by
      simp only [mapLeavesM] at h
      split at h
      · cases h
      · rename_i hrefused
        cases h
        exact mapMembersM_eq_error hrefused

theorem mapItemsM_eq_error : ∀ {items : List Json} {e : ε}, mapItemsM f items = .error e →
    FirstRefused f (leavesItems items) e
  | [], _, h => by cases h
  | item :: rest, _, h => by
      simp only [mapItemsM] at h
      split at h
      · rename_i hrefused
        cases h
        exact (mapLeavesM_eq_error hrefused).append_right _
      · rename_i item' hitem
        split at h
        · rename_i hrefused
          cases h
          exact (mapItemsM_eq_error hrefused).append_left (mapLeavesM_eq_ok hitem).2
        · cases h

theorem mapMembersM_eq_error : ∀ {members : List (String × Json)} {e : ε},
    mapMembersM f members = .error e → FirstRefused f (leavesMembers members) e
  | [], _, h => by cases h
  | (_, value) :: rest, _, h => by
      simp only [mapMembersM] at h
      split at h
      · rename_i hrefused
        cases h
        exact (mapLeavesM_eq_error hrefused).append_right _
      · rename_i value' hvalue
        split at h
        · rename_i hrefused
          cases h
          exact (mapMembersM_eq_error hrefused).append_left (mapLeavesM_eq_ok hvalue).2
        · cases h

end

mutual

/-- Leaves that are taken to those of a value of the same shape make it what comes out, with any
    leaves behind them left over. -/
theorem mapLeavesM_of_leavesTo : ∀ (value : Json) {value' : Json} {more more' : List String},
    SameShape value value' → LeavesTo f (value.leaves ++ more) (value'.leaves ++ more') →
    mapLeavesM f value = .ok value' ∧ LeavesTo f more more'
  | .null, value', _, _, hshape, hto => by
      cases value' with
      | null => exact ⟨rfl, hto⟩
      | _ => exact False.elim hshape
  | .bool b, value', _, _, hshape, hto => by
      cases value' with
      | bool b' => exact ⟨congrArg (Except.ok <| bool ·) hshape, hto⟩
      | _ => exact False.elim hshape
  | .number n, value', _, _, hshape, hto => by
      cases value' with
      | number n' => exact ⟨congrArg (Except.ok <| number ·) hshape, hto⟩
      | _ => exact False.elim hshape
  | .string text, value', _, _, hshape, hto => by
      cases value' with
      | string text' =>
          -- a text takes the first leaf and leaves the others
          obtain ⟨htext, hmore⟩ := List.forall₂_cons.mp hto
          refine ⟨?_, hmore⟩
          rw [mapLeavesM, htext]
      | _ => exact False.elim hshape
  | .array items, value', _, _, hshape, hto => by
      cases value' with
      | array items' =>
          -- the items take as many leaves as they have, and leave those behind them
          obtain ⟨hitems, hmore⟩ := mapItemsM_of_leavesTo items hshape hto
          refine ⟨?_, hmore⟩
          rw [mapLeavesM, hitems]
      | _ => exact False.elim hshape
  | .object members, value', _, _, hshape, hto => by
      cases value' with
      | object members' =>
          obtain ⟨hmembers, hmore⟩ := mapMembersM_of_leavesTo members hshape hto
          refine ⟨?_, hmore⟩
          rw [mapLeavesM, hmembers]
      | _ => exact False.elim hshape

theorem mapItemsM_of_leavesTo : ∀ (items : List Json) {items' : List Json}
    {more more' : List String}, SameShapeItems items items' →
    LeavesTo f (leavesItems items ++ more) (leavesItems items' ++ more') →
    mapItemsM f items = .ok items' ∧ LeavesTo f more more'
  | [], items', _, _, hshape, hto => by
      cases items' with
      | nil => exact ⟨rfl, hto⟩
      | cons _ _ => exact False.elim hshape
  | item :: rest, items', _, _, hshape, hto => by
      cases items' with
      | nil => exact False.elim hshape
      | cons item' rest' =>
          obtain ⟨hfirst, hrest⟩ := hshape
          rw [leavesItems, leavesItems, List.append_assoc, List.append_assoc] at hto
          obtain ⟨hitem, hto⟩ := mapLeavesM_of_leavesTo item hfirst hto
          obtain ⟨hitems, hmore⟩ := mapItemsM_of_leavesTo rest hrest hto
          refine ⟨?_, hmore⟩
          rw [mapItemsM, hitem, hitems]

theorem mapMembersM_of_leavesTo : ∀ (members : List (String × Json))
    {members' : List (String × Json)} {more more' : List String},
    SameShapeMembers members members' →
    LeavesTo f (leavesMembers members ++ more) (leavesMembers members' ++ more') →
    mapMembersM f members = .ok members' ∧ LeavesTo f more more'
  | [], members', _, _, hshape, hto => by
      cases members' with
      | nil => exact ⟨rfl, hto⟩
      | cons _ _ => exact False.elim hshape
  | (name, value) :: rest, members', _, _, hshape, hto => by
      cases members' with
      | nil => exact False.elim hshape
      | cons member rest' =>
          obtain ⟨name', value'⟩ := member
          obtain ⟨rfl, hfirst, hrest⟩ := hshape
          rw [leavesMembers, leavesMembers, List.append_assoc, List.append_assoc] at hto
          obtain ⟨hvalue, hto⟩ := mapLeavesM_of_leavesTo value hfirst hto
          obtain ⟨hmembers, hmore⟩ := mapMembersM_of_leavesTo rest hrest hto
          refine ⟨?_, hmore⟩
          rw [mapMembersM, hvalue, hmembers]

end

/-- **What comes out has the shape of the value and the leaves that `f` makes**, and there is one
    value of which that is so. -/
theorem mapLeavesM_eq_ok_iff {value value' : Json} : mapLeavesM f value = .ok value' ↔
    SameShape value value' ∧ LeavesTo f value.leaves value'.leaves := by
  constructor
  · exact mapLeavesM_eq_ok
  · rintro ⟨hshape, hto⟩
    rw [← List.append_nil value.leaves, ← List.append_nil value'.leaves] at hto
    exact (mapLeavesM_of_leavesTo value hshape hto).1

/-- **A value fails for the first of its leaves that is refused**, and for no other. -/
theorem mapLeavesM_eq_error_iff {value : Json} {e : ε} :
    mapLeavesM f value = .error e ↔ FirstRefused f value.leaves e := by
  constructor
  · exact mapLeavesM_eq_error
  · intro hfirst
    cases hresult : mapLeavesM f value with
    | ok value' => exact absurd (mapLeavesM_eq_ok hresult).2.exists_ok hfirst.not_ok
    | error e' => rw [hfirst.unique (mapLeavesM_eq_error hresult)]

/-- Something comes out of a value unless one of its leaves is refused. -/
theorem exists_mapLeavesM_iff {value : Json} : (∃ value', mapLeavesM f value = .ok value') ↔
    ∀ text ∈ value.leaves, ∃ text', f text = .ok text' := by
  constructor
  · rintro ⟨value', hresult⟩
    exact (mapLeavesM_eq_ok hresult).2.exists_ok
  · intro hall
    cases hresult : mapLeavesM f value with
    | ok value' => exact ⟨value', rfl⟩
    | error e => exact absurd hall (mapLeavesM_eq_error hresult).not_ok

mutual

/-- **A value all of whose leaves are kept is left as it is.** -/
theorem mapLeavesM_eq_self : ∀ value : Json, (∀ text ∈ value.leaves, f text = .ok text) →
    mapLeavesM f value = .ok value
  | .null, _ | .bool _, _ | .number _, _ => rfl
  | .string text, h => by rw [mapLeavesM, h text List.mem_cons_self]
  | .array items, h => by rw [mapLeavesM, mapItemsM_eq_self items h]
  | .object members, h => by rw [mapLeavesM, mapMembersM_eq_self members h]

theorem mapItemsM_eq_self : ∀ items : List Json, (∀ text ∈ leavesItems items, f text = .ok text) →
    mapItemsM f items = .ok items
  | [], _ => rfl
  | item :: rest, h => by
      obtain ⟨hfirst, hrest⟩ := List.forall_mem_append.mp h
      rw [mapItemsM, mapLeavesM_eq_self item hfirst, mapItemsM_eq_self rest hrest]

theorem mapMembersM_eq_self : ∀ members : List (String × Json),
    (∀ text ∈ leavesMembers members, f text = .ok text) → mapMembersM f members = .ok members
  | [], _ => rfl
  | (_, value) :: rest, h => by
      obtain ⟨hfirst, hrest⟩ := List.forall_mem_append.mp h
      rw [mapMembersM, mapLeavesM_eq_self value hfirst, mapMembersM_eq_self rest hrest]

end

-- ── What values of one shape share ────────────────────────────────────────────────

mutual

/-- Values of one shape nest equally deep. -/
theorem SameShape.depth_eq : ∀ (a : Json) {b : Json}, SameShape a b → a.depth = b.depth
  | .array items, b, h => by
      cases b with
      | array others =>
          simp only [depth]
          rw [SameShapeItems.depth_eq items h]
      | _ => exact False.elim h
  | .object members, b, h => by
      cases b with
      | object others =>
          simp only [depth]
          rw [SameShapeMembers.depth_eq members h]
      | _ => exact False.elim h
  | .null, b, h | .bool _, b, h | .number _, b, h | .string _, b, h => by
      cases b with
      | array _ => exact False.elim h
      | object _ => exact False.elim h
      | _ => rfl

theorem SameShapeItems.depth_eq : ∀ (items : List Json) {others : List Json},
    SameShapeItems items others → depth.depthItems items = depth.depthItems others
  | [], others, h => by
      cases others with
      | nil => rfl
      | cons _ _ => exact False.elim h
  | item :: rest, others, h => by
      cases others with
      | nil => exact False.elim h
      | cons other others =>
          obtain ⟨hfirst, hrest⟩ := h
          simp only [depth.depthItems]
          rw [SameShape.depth_eq item hfirst, SameShapeItems.depth_eq rest hrest]

theorem SameShapeMembers.depth_eq : ∀ (members : List (String × Json))
    {others : List (String × Json)}, SameShapeMembers members others →
    depth.depthMembers members = depth.depthMembers others
  | [], others, h => by
      cases others with
      | nil => rfl
      | cons _ _ => exact False.elim h
  | (_, value) :: rest, others, h => by
      cases others with
      | nil => exact False.elim h
      | cons other others =>
          obtain ⟨-, hfirst, hrest⟩ := h
          simp only [depth.depthMembers]
          rw [SameShape.depth_eq value hfirst, SameShapeMembers.depth_eq rest hrest]

end

/-- A value of the shape of an object is an object. -/
theorem SameShape.exists_object {a : Json} {others : List (String × Json)}
    (h : SameShape a (.object others)) :
    ∃ members, a = .object members ∧ SameShapeMembers members others := by
  cases a with
  | object members => exact ⟨members, rfl, h⟩
  | _ => exact False.elim h

/-- A member of one value has a member of the same name and shape in the other. -/
theorem SameShapeMembers.exists_mem {members others : List (String × Json)}
    (h : SameShapeMembers members others) {name : String} {value' : Json}
    (hmem : (name, value') ∈ others) :
    ∃ value, (name, value) ∈ members ∧ SameShape value value' := by
  induction others generalizing members with
  | nil => exact nomatch hmem
  | cons other others ih =>
      cases members with
      | nil => exact False.elim h
      | cons member rest =>
          obtain ⟨hname, hfirst, hrest⟩ := h
          rcases List.mem_cons.mp hmem with rfl | hin
          · exact ⟨member.2, List.mem_cons.mpr (.inl (Prod.ext hname.symm rfl)), hfirst⟩
          · obtain ⟨value, hvalue, hshape⟩ := ih hrest hin
            exact ⟨value, List.mem_cons_of_mem _ hvalue, hshape⟩

/-- What is looked up in one value is looked up in the other, in the same shape. -/
theorem SameShapeMembers.exists_lookup {members others : List (String × Json)}
    (h : SameShapeMembers members others) {name : String} {value' : Json}
    (hlookup : others.lookup name = some value') :
    ∃ value, members.lookup name = some value ∧ SameShape value value' := by
  induction others generalizing members with
  | nil => exact nomatch hlookup
  | cons other others ih =>
      cases members with
      | nil => exact False.elim h
      | cons member rest =>
          obtain ⟨first, value⟩ := member
          obtain ⟨first', other⟩ := other
          obtain ⟨rfl, hfirst, hrest⟩ := h
          rw [NameMap.lookup_cons] at hlookup ⊢
          by_cases hname : name = first
          · rw [if_pos hname] at hlookup ⊢
            cases hlookup
            exact ⟨value, rfl, hfirst⟩
          · rw [if_neg hname] at hlookup ⊢
            exact ih hrest hlookup

theorem SameShape.exists_member? {a b : Json} (h : SameShape a b) {name : String} {inner' : Json}
    (hmember : b.member? name = some inner') :
    ∃ inner, a.member? name = some inner ∧ SameShape inner inner' := by
  cases b with
  | object others =>
      obtain ⟨members, rfl, hmembers⟩ := h.exists_object
      exact hmembers.exists_lookup hmember
  | _ => exact nomatch hmember

/-- Items of the shape of strings are strings. -/
theorem SameShapeItems.exists_strings {items : List Json} {texts : List String}
    (h : SameShapeItems items (texts.map .string)) :
    ∃ others : List String, items = others.map .string := by
  induction items generalizing texts with
  | nil => exact ⟨[], rfl⟩
  | cons item rest ih =>
      cases texts with
      | nil => exact False.elim h
      | cons text texts =>
          obtain ⟨hfirst, hrest⟩ := h
          obtain ⟨others, rfl⟩ := ih hrest
          cases item with
          | string other => exact ⟨other :: others, rfl⟩
          | _ => exact False.elim hfirst

end AgentWire.Json
