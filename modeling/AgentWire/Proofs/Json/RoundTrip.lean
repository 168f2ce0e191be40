import AgentWire.Json.Value
import AgentWire.Proofs.Json.Quoted
import AgentWire.Proofs.Json.Written

/-!
# The round trip — every layout of a value is read as the value

`ReadsAs r v a` says that `r` takes every layout of `v`, behind any blanks, as `a`, and stops
where the layout ends. It is shown for the readers of one value, and lifted through the loops:

    each item is read by one turn      →  the loop reads the list
    each member is read by one turn    →  the loop reads the object

A loop turns once for each item and has a turn left for the bracket, because a layout has a
symbol for each. So reading a value undoes writing it, as long as it is not nested too deeply,
and the whole text of a value parses to what the value stands for.
-/

namespace AgentWire.Json

open Reader

variable {α σ : Type}

/-- A reader takes every layout of a value as a result, up to what closes it. -/
def ReadsAs (r : Reader α) (value : Json) (result : α) : Prop :=
  ∀ ⦃blanks text : List Char⦄ ⦃rest : List Symbol⦄, AllBlank blanks → Written value text →
    Closes rest → r (blanks.map .char ++ (text.map .char ++ rest)) = .ok (result, rest)

/-- A reader takes every layout of a member as a result, from the quote of its name on. -/
def ReadsMember (r : Reader α) (name : String) (value : Json) (result : α) : Prop :=
  ∀ ⦃toColon toValue text : List Char⦄ ⦃rest : List Symbol⦄, AllBlank toColon →
    AllBlank toValue → Written value text → Closes rest →
      r ((renderString name).map .char ++ (toColon.map .char ++ .char ':' ::
        (toValue.map .char ++ (text.map .char ++ rest)))) = .ok (result, rest)

/-- Item by item, the turns of a loop take a list from one state to another. -/
inductive TakesItems (item : σ → Reader σ) : σ → List Json → σ → Prop
  | nil (state : σ) : TakesItems item state [] state
  | cons {state next last : σ} {value : Json} {rest : List Json} :
      ReadsAs (item state) value next → TakesItems item next rest last →
        TakesItems item state (value :: rest) last

/-- Member by member, the turns of a loop take an object from one state to another. -/
inductive TakesMembers (member : σ → Reader σ) : σ → List (String × Json) → σ → Prop
  | nil (state : σ) : TakesMembers member state [] state
  | cons {state next last : σ} {name : String} {value : Json} {rest : List (String × Json)} :
      ReadsMember (member state) name value next → TakesMembers member next rest last →
        TakesMembers member state ((name, value) :: rest) last

theorem ReadsAs.at_start {r : Reader α} {value : Json} {result : α} (h : ReadsAs r value result)
    {text : List Char} (htext : Written value text) {rest : List Symbol} (hrest : Closes rest) :
    r (text.map .char ++ rest) = .ok (result, rest) :=
  h allBlank_nil htext hrest

-- ── Where a value begins ──────────────────────────────────────────────────────────

/-- The kind of a value is seen past the blanks in front of it. -/
theorem peekStart_written {blanks text : List Char} {value : Json} (hblank : AllBlank blanks)
    (h : Written value text) (rest : List Symbol) :
    peekStart (blanks.map .char ++ (text.map .char ++ rest)) =
      .ok (value.start, text.map .char ++ rest) := by
  obtain ⟨c, tail, rfl, hstart⟩ := h.exists_head
  exact peekStart_of_blanks hblank hstart _

/-- Past the blanks in front of a value stands a symbol that begins it. -/
theorem peekPastBlanks_written {blanks text : List Char} {value : Json}
    (hblank : AllBlank blanks) (h : Written value text) (rest : List Symbol) :
    ∃ c, startOf? (.char c) = some value.start ∧
      peekPastBlanks (blanks.map .char ++ (text.map .char ++ rest)) =
        .ok (some (.char c), text.map .char ++ rest) := by
  obtain ⟨c, tail, rfl, hstart⟩ := h.exists_head
  exact ⟨c, hstart, peekPastBlanks_of_blanks hblank (isJsonBlank_of_startOf? hstart) _⟩

/-- Past the blanks in front of a name stands its quote. -/
theorem peekPastBlanks_name {blanks : List Char} (hblank : AllBlank blanks) (name : String)
    (rest : List Symbol) :
    peekPastBlanks (blanks.map .char ++ ((renderString name).map .char ++ rest)) =
      .ok (some (.char '"'), (renderString name).map .char ++ rest) :=
  peekPastBlanks_of_blanks hblank rfl _

theorem map_close (blanks : List Char) (c : Char) (rest : List Symbol) :
    (blanks ++ [c]).map Symbol.char ++ rest = blanks.map .char ++ .char c :: rest := by
  rw [List.map_append, List.append_assoc]
  rfl

-- ── Loops ─────────────────────────────────────────────────────────────────────────

theorem WrittenItems.length_lt {items : List Json} {body : List Char}
    (h : WrittenItems [','] items body) : items.length < body.length := by
  induction items generalizing body with
  | nil =>
      cases h with
      | close _ _ => simp
  | cons item rest ih =>
      cases h with
      | item _ _ _ _ hrest =>
          have hlt := ih hrest
          simp only [List.length_append, List.length_cons, List.length_nil]
          omega

theorem WrittenMembers.length_lt {members : List (String × Json)} {body : List Char}
    (h : WrittenMembers [','] members body) : members.length < body.length := by
  induction members generalizing body with
  | nil =>
      cases h with
      | close _ _ => simp
  | cons member rest ih =>
      cases h with
      | member _ _ _ _ _ _ _ hrest =>
          have hlt := ih hrest
          simp only [List.length_append, List.length_cons, List.length_nil]
          omega

theorem ne_close_of_startOf? {c : Char} {start : Start} (h : startOf? (.char c) = some start) :
    Symbol.char c ≠ .char ']' := by
  rintro heq
  rw [heq] at h
  exact nomatch h

/-- At a closing bracket, the loop ends. -/
theorem moreItems_close (after : AfterComma) (item : σ → Reader σ) (turns : Nat) (state : σ)
    {input close : List Symbol} (hclose : peekPastBlanks input = .ok (some (.char ']'), close)) :
    moreItems after item (turns + 1) state input = .ok (state, close.tail) :=
  bind_ok hclose

/-- Behind a comma, the loop reads an item and turns again. -/
theorem moreItems_comma (after : AfterComma) (item : σ → Reader σ) (turns : Nat) (state : σ)
    {input comma atItem : List Symbol} {symbol : Symbol}
    (hcomma : peekPastBlanks input = .ok (some (.char ','), comma))
    (hpeek : peekPastBlanks comma.tail = .ok (some symbol, atItem)) (hne : symbol ≠ .char ']') :
    moreItems after item (turns + 1) state input =
      (item state >>= moreItems after item turns) atItem := by
  have hadvance : advance comma = .ok ((), comma.tail) := rfl
  rw [moreItems, bind_ok hcomma]
  show (advance >>= _) _ = _
  rw [bind_ok hadvance, bind_ok hpeek]
  refine congrFun ?_ atItem
  split
  · rename_i heq
    exact nomatch heq
  · rename_i heq
    exact absurd (Option.some.inj heq) hne
  · rfl

/-- A list without items is left as it was begun. -/
theorem items_close (after : AfterComma) (item : σ → Reader σ) (state : σ)
    {input close : List Symbol} (hclose : peekPastBlanks input = .ok (some (.char ']'), close)) :
    items after item state input = .ok (state, close.tail) :=
  bind_ok hclose

/-- Behind the opening bracket, the loop reads the first item and turns for the others. -/
theorem items_first (after : AfterComma) (item : σ → Reader σ) (state : σ)
    {input atItem : List Symbol} {symbol : Symbol}
    (hpeek : peekPastBlanks input = .ok (some symbol, atItem)) (hne : symbol ≠ .char ']') :
    items after item state input =
      (item state >>= fun state => remaining >>= fun turns =>
        moreItems after item turns state) atItem := by
  rw [items, bind_ok hpeek]
  refine congrFun ?_ atItem
  split
  · rename_i heq
    exact nomatch heq
  · rename_i heq
    exact absurd (Option.some.inj heq) hne
  · rfl

/-- At a closing brace, the loop ends. -/
theorem moreMembers_close (after : AfterComma) (member : σ → Reader σ) (turns : Nat) (state : σ)
    {input close : List Symbol} (hclose : peekPastBlanks input = .ok (some (.char '}'), close)) :
    moreMembers after member (turns + 1) state input = .ok (state, close.tail) :=
  bind_ok hclose

/-- Behind a comma, the loop reads a member and turns again. -/
theorem moreMembers_comma (after : AfterComma) (member : σ → Reader σ) (turns : Nat) (state : σ)
    {input comma atMember : List Symbol}
    (hcomma : peekPastBlanks input = .ok (some (.char ','), comma))
    (hquote : peekPastBlanks comma.tail = .ok (some (.char '"'), atMember)) :
    moreMembers after member (turns + 1) state input =
      (member state >>= moreMembers after member turns) atMember := by
  have hadvance : advance comma = .ok ((), comma.tail) := rfl
  exact (bind_ok hcomma).trans ((bind_ok hadvance).trans (bind_ok hquote))

/-- An object without members is left as it was begun. -/
theorem members_close (after : AfterComma) (member : σ → Reader σ) (state : σ)
    {input close : List Symbol} (hclose : peekPastBlanks input = .ok (some (.char '}'), close)) :
    members after member state input = .ok (state, close.tail) :=
  bind_ok hclose

/-- Behind the opening brace, the loop reads the first member and turns for the others. -/
theorem members_first (after : AfterComma) (member : σ → Reader σ) (state : σ)
    {input atMember : List Symbol}
    (hquote : peekPastBlanks input = .ok (some (.char '"'), atMember)) :
    members after member state input =
      (member state >>= fun state => remaining >>= fun turns =>
        moreMembers after member turns state) atMember :=
  bind_ok hquote

/-- The turns of a loop read the items after the first, through the closing bracket. -/
theorem moreItems_written (after : AfterComma) {item : σ → Reader σ} {state last : σ}
    {items : List Json} (htakes : TakesItems item state items last) {body : List Char}
    (h : WrittenItems [','] items body) {turns : Nat} (hturns : items.length < turns)
    (rest : List Symbol) :
    moreItems after item turns state (body.map .char ++ rest) = .ok (last, rest) := by
  induction htakes generalizing body turns with
  | nil state =>
      obtain ⟨turns, rfl⟩ := Nat.exists_eq_succ_of_ne_zero (Nat.ne_of_gt hturns)
      cases h with
      | close _ hblank =>
          rw [map_close]
          exact moreItems_close after item turns state (peekPastBlanks_of_blanks hblank rfl rest)
  | cons hitem _ ih =>
      obtain ⟨turns, rfl⟩ := Nat.exists_eq_succ_of_ne_zero (Nat.ne_of_gt (Nat.zero_lt_of_lt hturns))
      cases h with
      | @item _ before blanks text body _ _ hbefore hblank htext hbody =>
          obtain ⟨c, hstart, hpeek⟩ :=
            peekPastBlanks_written hblank htext (body.map .char ++ rest)
          -- the text parts into the blanks, the comma, the item and what is behind it
          have hcomma : (before ++ ([','] ++ (blanks ++ (text ++ body)))).map Symbol.char ++ rest =
              before.map .char ++ .char ',' ::
                (blanks.map .char ++ (text.map .char ++ (body.map .char ++ rest))) := by
            simp
          rw [hcomma, moreItems_comma after item turns _ (peekPastBlanks_of_blanks hbefore rfl _)
              hpeek (ne_close_of_startOf? hstart), bind_ok (hitem.at_start htext (hbody.closes rest))]
          exact ih hbody (Nat.lt_of_succ_lt_succ hturns)

/-- **A loop that takes the items of a list reads every layout of the list.** -/
theorem items_written (after : AfterComma) {item : σ → Reader σ} {state last : σ}
    {list : List Json} (htakes : TakesItems item state list last) {body : List Char}
    (h : WrittenItems [] list body) (rest : List Symbol) :
    items after item state (body.map .char ++ rest) = .ok (last, rest) := by
  cases htakes with
  | nil state =>
      cases h with
      | close _ hblank =>
          rw [map_close]
          exact items_close after item state (peekPastBlanks_of_blanks hblank rfl rest)
  | cons hitem hmore =>
      cases h with
      | @item _ before blanks text body _ more hbefore hblank htext hbody =>
          have hfirst : (before ++ ([] ++ (blanks ++ (text ++ body)))).map Symbol.char ++ rest =
              (before ++ blanks).map .char ++ (text.map .char ++ (body.map .char ++ rest)) := by
            simp
          obtain ⟨c, hstart, hpeek⟩ :=
            peekPastBlanks_written (hbefore.append hblank) htext (body.map .char ++ rest)
          rw [hfirst, items_first after item _ hpeek (ne_close_of_startOf? hstart),
            bind_ok (hitem.at_start htext (hbody.closes rest))]
          -- every item takes up a symbol at least, so there are turns enough
          refine moreItems_written after hmore hbody ?_ rest
          have hlt := hbody.length_lt
          rw [List.length_append, List.length_map]
          omega

/-- The turns of a loop read the members after the first, through the closing brace. -/
theorem moreMembers_written (after : AfterComma) {member : σ → Reader σ} {state last : σ}
    {members : List (String × Json)} (htakes : TakesMembers member state members last)
    {body : List Char} (h : WrittenMembers [','] members body) {turns : Nat}
    (hturns : members.length < turns) (rest : List Symbol) :
    moreMembers after member turns state (body.map .char ++ rest) = .ok (last, rest) := by
  induction htakes generalizing body turns with
  | nil state =>
      obtain ⟨turns, rfl⟩ := Nat.exists_eq_succ_of_ne_zero (Nat.ne_of_gt hturns)
      cases h with
      | close _ hblank =>
          rw [map_close]
          exact moreMembers_close after member turns state
            (peekPastBlanks_of_blanks hblank rfl rest)
  | @cons _ _ _ name _ _ hmember _ ih =>
      obtain ⟨turns, rfl⟩ := Nat.exists_eq_succ_of_ne_zero (Nat.ne_of_gt (Nat.zero_lt_of_lt hturns))
      cases h with
      | @member _ _ before blanks toColon toValue text body _ _ hbefore hblank hcolon hvalue htext
          hbody =>
          -- the text parts into the comma, the name, the colon, the value and what is behind it
          have hcomma : (before ++ ([','] ++ (blanks ++ (renderString name ++ (toColon ++ ':' ::
              (toValue ++ (text ++ body))))))).map Symbol.char ++ rest =
                before.map .char ++ .char ',' :: (blanks.map .char ++
                  ((renderString name).map .char ++ (toColon.map .char ++ .char ':' ::
                    (toValue.map .char ++ (text.map .char ++ (body.map .char ++ rest)))))) := by
            simp
          rw [hcomma, moreMembers_comma after member turns _ (peekPastBlanks_of_blanks hbefore rfl _)
            (peekPastBlanks_name hblank name _),
            bind_ok (hmember hcolon hvalue htext (hbody.closes rest))]
          exact ih hbody (Nat.lt_of_succ_lt_succ hturns)

/-- **A loop that takes the members of an object reads every layout of the object.** -/
theorem members_written (after : AfterComma) {member : σ → Reader σ} {state last : σ}
    {list : List (String × Json)} (htakes : TakesMembers member state list last)
    {body : List Char} (h : WrittenMembers [] list body) (rest : List Symbol) :
    members after member state (body.map .char ++ rest) = .ok (last, rest) := by
  cases htakes with
  | nil state =>
      cases h with
      | close _ hblank =>
          rw [map_close]
          exact members_close after member state (peekPastBlanks_of_blanks hblank rfl rest)
  | @cons _ _ _ name _ _ hmember hmore =>
      cases h with
      | @member _ _ before blanks toColon toValue text body _ _ hbefore hblank hcolon hvalue htext
          hbody =>
          have hfirst : (before ++ ([] ++ (blanks ++ (renderString name ++ (toColon ++ ':' ::
              (toValue ++ (text ++ body))))))).map Symbol.char ++ rest =
                (before ++ blanks).map .char ++ ((renderString name).map .char ++
                  (toColon.map .char ++ .char ':' ::
                    (toValue.map .char ++ (text.map .char ++ (body.map .char ++ rest))))) := by
            simp
          rw [hfirst,
            members_first after member _ (peekPastBlanks_name (hbefore.append hblank) name _),
            bind_ok (hmember hcolon hvalue htext (hbody.closes rest))]
          refine moreMembers_written after hmore hbody ?_ rest
          have hlt := hbody.length_lt
          rw [List.length_append, List.length_map]
          omega

-- ── Values ────────────────────────────────────────────────────────────────────────

theorem nullWord_append (rest : List Symbol) :
    nullWord (renderNull.map .char ++ rest) = .ok ((), rest) :=
  ofText_ok (readWord_append ['n', 'u', 'l', 'l'] rest)

theorem boolWord_append (b : Bool) (rest : List Symbol) :
    boolWord b ((renderBool b).map .char ++ rest) = .ok ((), rest) := by
  cases b with
  | false => exact ofText_ok (readWord_append ['f', 'a', 'l', 's', 'e'] rest)
  | true => exact ofText_ok (readWord_append ['t', 'r', 'u', 'e'] rest)

/-- A member is read as its name and what its value is read as. -/
theorem readsMember_memberOf {read : Reader Json} {value : Json} (h : ReadsAs read value value)
    (name : String) : ReadsMember (memberOf read) name value (name, value) := by
  intro toColon toValue text rest hcolon hvalue htext hrest
  unfold memberOf
  rw [bind_ok (stringAtQuote_renderString name _), bind_ok (colon_of_blanks hcolon _),
    bind_ok (h hvalue htext hrest)]
  rfl

/-- A list whose items are kept one by one is read from its opening bracket on. -/
theorem listOf_written {item : Reader Json} {list : List Json} {body : List Char}
    (htakes : TakesItems (fun before => return (← item) :: before) [] list (list.reverse ++ []))
    (h : WrittenItems [] list body) (rest : List Symbol) :
    listOf item (.char '[' :: (body.map .char ++ rest)) = .ok (.array list, rest) := by
  unfold listOf
  rw [bind_ok (advance_cons _ _), bind_ok (items_written keeping htakes h rest),
    List.append_nil, List.reverse_reverse]
  rfl

/-- An object whose members are kept one by one is read after its opening brace. -/
theorem membersOf_written {read : Reader Json} {list : List (String × Json)} {body : List Char}
    (htakes : TakesMembers (fun before => return (← memberOf read) :: before) [] list
      (list.reverse ++ []))
    (h : WrittenMembers [] list body) (rest : List Symbol) :
    membersOf read (body.map .char ++ rest) = .ok (list, rest) := by
  unfold membersOf
  rw [bind_ok (members_written keeping htakes h rest), List.append_nil, List.reverse_reverse]
  rfl

/-- An object whose members are kept one by one is read from its opening brace on. -/
theorem objectOf_written {read : Reader Json} {list : List (String × Json)} {body : List Char}
    (htakes : TakesMembers (fun before => return (← memberOf read) :: before) [] list
      (list.reverse ++ []))
    (h : WrittenMembers [] list body) (rest : List Symbol) :
    objectOf read (.char '{' :: (body.map .char ++ rest)) = .ok (.object list, rest) := by
  unfold objectOf
  rw [bind_ok (advance_cons _ _), bind_ok (membersOf_written htakes h rest)]
  rfl

/-- A value without brackets is read, whatever readers lists and objects have. -/
theorem readsAs_valueWith {list object : Reader Json} :
    ∀ {value : Json}, (value.start ≠ .list) → (value.start ≠ .object) →
      ReadsAs (valueWith list object) value value := by
  intro value hlist hobject blanks text rest hblank htext hrest
  unfold valueWith
  rw [bind_ok (peekStart_written hblank htext rest)]
  cases htext with
  | null =>
      show (nullWord >>= _) _ = _
      rw [bind_ok (nullWord_append rest)]
      rfl
  | bool b =>
      cases b with
      | false =>
          show (boolWord false >>= _) _ = _
          rw [bind_ok (boolWord_append false rest)]
          rfl
      | true =>
          show (boolWord true >>= _) _ = _
          rw [bind_ok (boolWord_append true rest)]
          rfl
  | number n =>
      show (ofText readNumber >>= _) _ = _
      rw [bind_ok (ofText_ok (readNumber_render n hrest))]
      rfl
  | string text =>
      show (stringAtQuote >>= _) _ = _
      rw [bind_ok (stringAtQuote_renderString text rest)]
      rfl
  | array _ => exact absurd rfl hlist
  | object _ => exact absurd rfl hobject

mutual

/-- **A VALUE THAT IS WRITTEN READS BACK** from every layout, if it is not nested too deeply. -/
theorem readsAs_value : ∀ (tree : Json) (levels : Nat), tree.depth ≤ levels →
    ReadsAs (value levels) tree tree
  | .null, 0, _ | .null, _ + 1, _ | .bool true, 0, _ | .bool true, _ + 1, _
  | .bool false, 0, _ | .bool false, _ + 1, _ | .number _, 0, _ | .number _, _ + 1, _
  | .string _, 0, _ | .string _, _ + 1, _ =>
      readsAs_valueWith (by intro h; exact nomatch h) (by intro h; exact nomatch h)
  | .array list, levels, hdepth => by
      cases levels with
      | zero => exact absurd hdepth (Nat.not_succ_le_zero _)
      | succ levels =>
          intro blanks text rest hblank htext hrest
          have htakes := takesItems_value list levels (Nat.le_of_succ_le_succ hdepth) []
          rw [value, valueWith, bind_ok (peekStart_written hblank htext rest)]
          cases htext with
          | array hbody => exact listOf_written htakes hbody rest
  | .object list, levels, hdepth => by
      cases levels with
      | zero => exact absurd hdepth (Nat.not_succ_le_zero _)
      | succ levels =>
          intro blanks text rest hblank htext hrest
          have htakes := takesMembers_value list levels (Nat.le_of_succ_le_succ hdepth) []
          rw [value, valueWith, bind_ok (peekStart_written hblank htext rest)]
          cases htext with
          | object hbody => exact objectOf_written htakes hbody rest

theorem takesItems_value : ∀ (list : List Json) (levels : Nat),
    depth.depthItems list ≤ levels → ∀ before : List Json,
      TakesItems (fun before => return (← value levels) :: before) before list
        (list.reverse ++ before)
  | [], _, _, before => .nil before
  | item :: rest, levels, hdepth, before => by
      have hitem := readsAs_value item levels (Nat.le_trans (Nat.le_max_left _ _) hdepth)
      have hrest := takesItems_value rest levels (Nat.le_trans (Nat.le_max_right _ _) hdepth)
        (item :: before)
      rw [List.reverse_cons, List.append_assoc]
      refine .cons ?_ hrest
      intro blanks text rest hblank htext hcloses
      rw [bind_ok (hitem hblank htext hcloses)]
      rfl

theorem takesMembers_value : ∀ (list : List (String × Json)) (levels : Nat),
    depth.depthMembers list ≤ levels → ∀ before : List (String × Json),
      TakesMembers (fun before => return (← memberOf (value levels)) :: before) before list
        (list.reverse ++ before)
  | [], _, _, before => .nil before
  | (name, item) :: rest, levels, hdepth, before => by
      have hitem := readsAs_value item levels (Nat.le_trans (Nat.le_max_left _ _) hdepth)
      have hrest := takesMembers_value rest levels (Nat.le_trans (Nat.le_max_right _ _) hdepth)
        ((name, item) :: before)
      rw [List.reverse_cons, List.append_assoc]
      refine .cons ?_ hrest
      intro toColon toValue text rest hcolon hvalue htext hcloses
      rw [bind_ok (readsMember_memberOf hitem name hcolon hvalue htext hcloses)]
      rfl

end

-- ── Whole texts ───────────────────────────────────────────────────────────────────

/-- A reader that takes every layout of a value takes every text of it. -/
theorem whole_written {r : Reader α} {tree : Json} {result : α} (h : ReadsAs r tree result)
    {text : List Char} (htext : WrittenText tree text) :
    whole r (text.map .char) = .ok result := by
  obtain @⟨before, inner, after, hbefore, hinner, hafter⟩ := htext
  have hread := h hbefore hinner hafter.closes
  rw [← List.map_append, ← List.map_append] at hread
  have hrest : (after.map Symbol.char).dropWhile isJsonBlank = [] := by
    have hdrop := dropWhile_blanks hafter []
    rwa [List.append_nil] at hdrop
  unfold whole
  rw [hread]
  show (if ((after.map Symbol.char).dropWhile isJsonBlank).isEmpty then _ else _) = _
  rw [hrest]
  rfl

/-- A text of a value is read as the value, with levels enough. -/
theorem WrittenText.whole_value {tree : Json} {text : List Char} (h : WrittenText tree text)
    {levels : Nat} (hdepth : tree.depth ≤ levels) :
    whole (value levels) (Symbol.ofBytes (String.ofList text).toUTF8) = .ok tree := by
  rw [ofBytes_toUTF8]
  exact whole_written (readsAs_value tree levels hdepth) h

/-- **A TEXT OF A VALUE SPELLS THE VALUE**, if it is not nested too deeply. -/
theorem WrittenText.spells {tree : Json} {text : List Char} (h : WrittenText tree text)
    (hdepth : tree.depth ≤ nestingLimit) :
    Spells (Symbol.ofBytes (String.ofList text).toUTF8) tree :=
  h.whole_value hdepth

/-- **EVERY TEXT OF A VALUE PARSES TO WHAT THE VALUE STANDS FOR.** -/
theorem parse_written {tree : Json} (hdepth : tree.depth ≤ nestingLimit) {text : List Char}
    (htext : WrittenText tree text) :
    parse (Symbol.ofBytes (String.ofList text).toUTF8) = .ok (Document.ofJson tree) :=
  parse_eq_ok_iff.mpr ⟨tree, htext.spells hdepth, rfl⟩

end AgentWire.Json
