import AgentWire.Json.Printer
import AgentWire.Proofs.Json.Numeral
import AgentWire.Proofs.Json.Reading

/-!
# Written values — every layout of a value

A value may be written with blanks around its brackets, commas and colons; the rest of its text
is settled. `Written v text` says that `text` is a layout of `v`, by one rule for each form of
value, item and member. The items of a list are laid out behind their lead, which is empty for
the first and a comma for every later one.

    Written v v.render        Written v (v.renderSpread level)

So what holds of every layout of a value holds of both forms in which values are written, and of
a text of the value, which has blanks around the layout.
-/

namespace AgentWire.Json

open Reader

mutual

/-- A layout of a value. -/
inductive Written : Json → List Char → Prop
  | null : Written .null renderNull
  | bool (b : Bool) : Written (.bool b) (renderBool b)
  | number (n : Number) : Written (.number n) n.render
  | string (text : String) : Written (.string text) (renderString text)
  | array {items : List Json} {body : List Char} :
      WrittenItems [] items body → Written (.array items) ('[' :: body)
  | object {members : List (String × Json)} {body : List Char} :
      WrittenMembers [] members body → Written (.object members) ('{' :: body)

/-- A layout of the items of a list behind a lead, through the closing bracket. -/
inductive WrittenItems : List Char → List Json → List Char → Prop
  | close (lead : List Char) {blanks : List Char} :
      AllBlank blanks → WrittenItems lead [] (blanks ++ [']'])
  | item (lead : List Char) {before blanks text body : List Char} {item : Json}
      {rest : List Json} :
      AllBlank before → AllBlank blanks → Written item text → WrittenItems [','] rest body →
        WrittenItems lead (item :: rest) (before ++ (lead ++ (blanks ++ (text ++ body))))

/-- A layout of the members of an object behind a lead, through the closing brace. -/
inductive WrittenMembers : List Char → List (String × Json) → List Char → Prop
  | close (lead : List Char) {blanks : List Char} :
      AllBlank blanks → WrittenMembers lead [] (blanks ++ ['}'])
  | member (lead : List Char) (name : String) {before blanks toColon toValue text body : List Char}
      {value : Json} {rest : List (String × Json)} :
      AllBlank before → AllBlank blanks → AllBlank toColon → AllBlank toValue →
        Written value text → WrittenMembers [','] rest body →
          WrittenMembers lead ((name, value) :: rest) (before ++ (lead ++ (blanks ++
            (renderString name ++ (toColon ++ ':' :: (toValue ++ (text ++ body)))))))

end

/-- A text of a value: one of its layouts, with blanks around it. -/
inductive WrittenText (value : Json) : List Char → Prop
  | around {before inner after : List Char} :
      AllBlank before → Written value inner → AllBlank after →
        WrittenText value (before ++ (inner ++ after))

-- ── Both forms are layouts ────────────────────────────────────────────────────────

mutual

/-- **The compact form is a layout.** -/
theorem written_render : ∀ value : Json, Written value value.render
  | .null => .null
  | .bool b => .bool b
  | .number n => .number n
  | .string text => .string text
  | .array [] => .array (.close [] allBlank_nil)
  | .array (item :: rest) => by
      have hitems := WrittenItems.item [] allBlank_nil allBlank_nil (written_render item)
        (written_renderMoreItems rest)
      refine Eq.mp ?_ (Written.array hitems)
      simp [render, renderItems]
  | .object [] => .object (.close [] allBlank_nil)
  | .object ((name, value) :: rest) => by
      have hmembers := WrittenMembers.member [] name allBlank_nil allBlank_nil
        allBlank_nil allBlank_nil (written_render value) (written_renderMoreMembers rest)
      refine Eq.mp ?_ (Written.object hmembers)
      simp [render, renderMembers]

theorem written_renderMoreItems :
    ∀ items : List Json, WrittenItems [','] items (renderMoreItems items ++ [']'])
  | [] => .close [','] allBlank_nil
  | item :: rest => by
      have hitems := WrittenItems.item [','] allBlank_nil allBlank_nil (written_render item)
        (written_renderMoreItems rest)
      refine Eq.mp ?_ hitems
      simp [renderMoreItems]

theorem written_renderMoreMembers :
    ∀ members : List (String × Json),
      WrittenMembers [','] members (renderMoreMembers members ++ ['}'])
  | [] => .close [','] allBlank_nil
  | (name, value) :: rest => by
      have hmembers := WrittenMembers.member [','] name allBlank_nil allBlank_nil
        allBlank_nil allBlank_nil (written_render value) (written_renderMoreMembers rest)
      refine Eq.mp ?_ hmembers
      simp [renderMoreMembers]

end

theorem allBlank_newLine (level : Nat) : AllBlank (newLine level) := by
  intro c hmem
  rcases List.mem_cons.mp hmem with rfl | hspace
  · rfl
  · rw [List.eq_of_mem_replicate hspace]
    rfl

theorem allBlank_space : AllBlank [' '] := by
  intro c hmem
  rw [List.mem_singleton.mp hmem]
  rfl

/-- A layout is a text without blanks around it. -/
theorem Written.writtenText {value : Json} {text : List Char} (h : Written value text) :
    WrittenText value text := by
  have htext := WrittenText.around allBlank_nil h allBlank_nil
  rwa [List.nil_append, List.append_nil] at htext

/-- A layout may end in a new line. -/
theorem Written.writtenText_newLine {value : Json} {text : List Char} (h : Written value text) :
    WrittenText value (text ++ ['\n']) :=
  .around allBlank_nil h (allBlank_newLine 0)

mutual

/-- **The spread form is a layout.** -/
theorem written_renderSpread :
    ∀ (level : Nat) (value : Json), Written value (value.renderSpread level)
  | _, .null => .null
  | _, .bool b => .bool b
  | _, .number n => .number n
  | _, .string text => .string text
  | _, .array [] => .array (.close [] allBlank_nil)
  | level, .array (item :: rest) => by
      have hitems := WrittenItems.item [] allBlank_nil (allBlank_newLine (level + 1))
        (written_renderSpread (level + 1) item) (written_renderSpreadItems level rest)
      refine Eq.mp ?_ (Written.array hitems)
      simp [renderSpread]
  | _, .object [] => .object (.close [] allBlank_nil)
  | level, .object ((name, value) :: rest) => by
      have hmembers := WrittenMembers.member [] name allBlank_nil
        (allBlank_newLine (level + 1)) allBlank_nil allBlank_space
        (written_renderSpread (level + 1) value) (written_renderSpreadMembers level rest)
      refine Eq.mp ?_ (Written.object hmembers)
      simp [renderSpread]

theorem written_renderSpreadItems : ∀ (level : Nat) (items : List Json),
    WrittenItems [','] items (renderSpreadItems (level + 1) items ++ (newLine level ++ [']']))
  | level, [] => .close [','] (allBlank_newLine level)
  | level, item :: rest => by
      have hitems := WrittenItems.item [','] allBlank_nil (allBlank_newLine (level + 1))
        (written_renderSpread (level + 1) item) (written_renderSpreadItems level rest)
      refine Eq.mp ?_ hitems
      simp [renderSpreadItems]

theorem written_renderSpreadMembers : ∀ (level : Nat) (members : List (String × Json)),
    WrittenMembers [','] members
      (renderSpreadMembers (level + 1) members ++ (newLine level ++ ['}']))
  | level, [] => .close [','] (allBlank_newLine level)
  | level, (name, value) :: rest => by
      have hmembers := WrittenMembers.member [','] name allBlank_nil
        (allBlank_newLine (level + 1)) allBlank_nil allBlank_space
        (written_renderSpread (level + 1) value) (written_renderSpreadMembers level rest)
      refine Eq.mp ?_ hmembers
      simp [renderSpreadMembers]

end

-- ── Where a layout begins ─────────────────────────────────────────────────────────

/-- What kind of value a value is at its first symbol. -/
def start : Json → Start
  | .null => .null
  | .bool true => .yes
  | .bool false => .no
  | .number _ => .number
  | .string _ => .text
  | .array _ => .list
  | .object _ => .object

theorem startOf?_of_isDigit {c : Char} (h : c.isDigit = true) :
    startOf? (.char c) = some .number := by
  have hne : ∀ other : Char, other.isDigit = false → c = other → False := by
    intro other hother heq
    rw [← heq, h] at hother
    exact nomatch hother
  rw [startOf?]
  · rw [if_pos (.inr h)]
  all_goals exact hne _ rfl

/-- The first symbol of a layout tells the kind of the value. -/
theorem Written.exists_head {value : Json} {text : List Char} (h : Written value text) :
    ∃ c tail, text = c :: tail ∧ startOf? (.char c) = some value.start := by
  cases h with
  | null => exact ⟨_, _, rfl, rfl⟩
  | bool b =>
      cases b with
      | false => exact ⟨_, _, rfl, rfl⟩
      | true => exact ⟨_, _, rfl, rfl⟩
  | number n =>
      -- a numeral begins with a sign or with a digit
      obtain ⟨c, tail, htext, hhead⟩ := exists_head_of_render n
      refine ⟨c, tail, htext, ?_⟩
      rcases hhead with rfl | hdigit
      · rfl
      · exact startOf?_of_isDigit hdigit
  | string text => exact ⟨_, _, rfl, rfl⟩
  | array hitems => exact ⟨_, _, rfl, rfl⟩
  | object hmembers => exact ⟨_, _, rfl, rfl⟩

/-- A blank closes a numeral. -/
theorem continuesNumeral_of_isJsonBlank {c : Char} (h : isJsonBlank (.char c) = true) :
    continuesNumeral (.char c) = false := by
  unfold isJsonBlank at h
  split at h
  · rename_i heq
    cases heq
    rfl
  · rename_i heq
    cases heq
    rfl
  · rename_i heq
    cases heq
    rfl
  · rename_i heq
    cases heq
    rfl
  · exact nomatch h

theorem closes_blanks {blanks : List Char} (hblank : AllBlank blanks) {c : Char}
    (hc : continuesNumeral (.char c) = false) (rest : List Symbol) :
    Closes (blanks.map .char ++ .char c :: rest) := by
  cases blanks with
  | nil => exact closes_cons hc rest
  | cons blank blanks =>
      exact closes_cons (continuesNumeral_of_isJsonBlank (hblank blank List.mem_cons_self)) _

/-- Blanks at the end of a text close what stands before them. -/
theorem AllBlank.closes {blanks : List Char} (h : AllBlank blanks) :
    Closes (blanks.map Symbol.char) := by
  cases blanks with
  | nil => exact closes_nil
  | cons blank blanks =>
      exact closes_cons (continuesNumeral_of_isJsonBlank (h blank List.mem_cons_self)) _

/-- What stands behind an item closes it. -/
theorem WrittenItems.closes {items : List Json} {body : List Char}
    (h : WrittenItems [','] items body) (rest : List Symbol) :
    Closes (body.map .char ++ rest) := by
  cases h with
  | close _ hblank =>
      rw [List.map_append, List.append_assoc]
      exact closes_blanks hblank rfl _
  | item _ hbefore _ _ _ =>
      rw [List.map_append, List.append_assoc]
      exact closes_blanks hbefore rfl _

/-- What stands behind a member closes it. -/
theorem WrittenMembers.closes {members : List (String × Json)} {body : List Char}
    (h : WrittenMembers [','] members body) (rest : List Symbol) :
    Closes (body.map .char ++ rest) := by
  cases h with
  | close _ hblank =>
      rw [List.map_append, List.append_assoc]
      exact closes_blanks hblank rfl _
  | member _ _ hbefore _ _ _ _ _ =>
      rw [List.map_append, List.append_assoc]
      exact closes_blanks hbefore rfl _

end AgentWire.Json
