import AgentWire.Json.Value

/-!
# Reading — one step of a reader at a time

A reader that succeeds hands what is left to the one behind it, and a reader of several steps
succeeds only if each step does:

    x input = .ok (a, rest)    →  (x >>= f) input = f a rest
    (x >>= f) input = .ok …    →  x input = .ok (a, rest) for some a and rest

Blanks in front of a value are passed over, and what stands behind them decides what is read. A
whole text spells the value that is read of it (`Spells`), and parses to what that stands for.
-/

namespace AgentWire

/-- What is made of a success is a success. -/
theorem exists_of_map_eq_ok {ε α β : Type} {f : α → β} {x : Except ε α} {b : β}
    (h : x.map f = .ok b) : ∃ a, x = .ok a ∧ f a = b := by
  cases x with
  | error e => exact nomatch h
  | ok a => exact ⟨a, rfl, Except.ok.inj h⟩

/-- Nothing is made of a failure. -/
theorem map_eq_error_iff {ε α β : Type} {f : α → β} {x : Except ε α} {e : ε} :
    x.map f = .error e ↔ x = .error e := by
  cases x with
  | error e' =>
      show Except.error e' = Except.error e ↔ Except.error e' = Except.error e
      rw [Except.error.injEq, Except.error.injEq]
  | ok a =>
      constructor
      · intro h
        cases h
      · intro h
        cases h

/-- Two successes in a row are a success and what it leads to. -/
theorem exists_of_bind_eq_ok {ε α β : Type} {x : Except ε α} {f : α → Except ε β} {b : β}
    (h : (x >>= f) = .ok b) : ∃ a, x = .ok a ∧ f a = .ok b := by
  cases x with
  | error e => exact nomatch h
  | ok a => exact ⟨a, rfl, h⟩

/-- Another description of a failure makes no success. -/
theorem mapError_eq_ok_iff {ε ε' α : Type} {f : ε → ε'} {x : Except ε α} {a : α} :
    x.mapError f = .ok a ↔ x = .ok a := by
  cases x with
  | error e =>
      constructor
      · intro h
        exact nomatch h
      · intro h
        exact nomatch h
  | ok b =>
      show Except.ok b = Except.ok a ↔ Except.ok b = Except.ok a
      rw [Except.ok.injEq, Except.ok.injEq]

/-- **Steps stop at the first item that is refused**, if an item is refused or not whatever came
    before it. -/
theorem foldlM_eq_error_iff {ε σ α : Type} {step : σ → α → Except ε σ} {refused : α → ε → Prop}
    (h : ∀ s a e, step s a = .error e ↔ refused a e) {list : List α} {e : ε} : ∀ {s : σ},
    list.foldlM step s = .error e ↔
      ∃ before a after, list = before ++ a :: after ∧ (∀ b ∈ before, ∀ other, ¬refused b other) ∧
        refused a e := by
  induction list with
  | nil =>
      intro s
      constructor
      · intro hfold
        cases hfold
      · rintro ⟨before, a, after, hsplit, -⟩
        exact absurd hsplit.symm (List.append_ne_nil_of_right_ne_nil before (List.cons_ne_nil _ _))
  | cons first rest ih =>
      intro s
      rw [List.foldlM_cons]
      cases hstep : step s first with
      | error e' =>
          -- the first item is refused, so none can stand before the one that is reported
          show Except.error e' = .error e ↔ _
          have hfirst : refused first e' := (h s first e').mp hstep
          constructor
          · intro hfold
            cases hfold
            refine ⟨[], first, rest, rfl, ?_, hfirst⟩
            intro b hmem
            cases hmem
          · rintro ⟨before, a, after, hsplit, hbefore, ha⟩
            cases before with
            | nil =>
                cases hsplit
                rw [← h s, hstep] at ha
                exact ha
            | cons _ before =>
                cases hsplit
                exact absurd hfirst (hbefore _ List.mem_cons_self e')
      | ok next =>
          -- the first item is taken, so it stands before the one that is reported
          show rest.foldlM step next = .error e ↔ _
          have hfirst : ∀ other, ¬refused first other := by
            intro other hother
            exact nomatch hstep.symm.trans ((h s first other).mpr hother)
          rw [ih]
          constructor
          · rintro ⟨before, a, after, rfl, hbefore, ha⟩
            exact ⟨first :: before, a, after, rfl, List.forall_mem_cons.mpr ⟨hfirst, hbefore⟩, ha⟩
          · rintro ⟨before, a, after, hsplit, hbefore, ha⟩
            cases before with
            | nil =>
                cases hsplit
                exact absurd ha (hfirst e)
            | cons _ before =>
                cases hsplit
                exact ⟨before, a, after, rfl, (List.forall_mem_cons.mp hbefore).2, ha⟩

/-- Items that can all be read are read one after the other, and where each of them is written back
    as it was, so is the list. -/
theorem exists_mapM_of_inverse {ε α β : Type} {f : α → Except ε β} {g : β → α} {list : List α}
    (h : ∀ a ∈ list, ∃ b, f a = .ok b ∧ g b = a) :
    ∃ read, list.mapM f = .ok read ∧ read.map g = list := by
  induction list with
  | nil => exact ⟨[], rfl, rfl⟩
  | cons a rest ih =>
      obtain ⟨⟨b, hb, hback⟩, hrest⟩ := List.forall_mem_cons.mp h
      obtain ⟨read, hread, hbacks⟩ := ih hrest
      refine ⟨b :: read, ?_, ?_⟩
      · rw [List.mapM_cons, hb, hread]
        rfl
      · rw [List.map_cons, hback, hbacks]

end AgentWire

namespace AgentWire.Json

open Reader

namespace Reader

variable {α β : Type}

/-- A step that succeeds leaves the next one to go on. -/
theorem bind_ok {x : Reader α} {f : α → Reader β} {input rest : List Symbol} {a : α}
    (h : x input = .ok (a, rest)) : (x >>= f) input = f a rest := by
  show (x input >>= fun step => f step.1 step.2) = f a rest
  rw [h]
  rfl

/-- Two steps that succeed together succeed one after the other. -/
theorem of_bind_eq_ok {x : Reader α} {f : α → Reader β} {input : List Symbol}
    {result : β × List Symbol} (h : (x >>= f) input = .ok result) :
    ∃ a rest, x input = .ok (a, rest) ∧ f a rest = .ok result := by
  have hsteps : (x input >>= fun step => f step.1 step.2) = .ok result := h
  cases hx : x input with
  | error fault =>
      rw [hx] at hsteps
      exact nomatch hsteps
  | ok step =>
      obtain ⟨a, rest⟩ := step
      rw [hx] at hsteps
      exact ⟨a, rest, rfl, hsteps⟩

theorem ofText_ok {read : List Symbol → Except TextFault (α × List Symbol)}
    {input rest : List Symbol} {a : α} (h : read input = .ok (a, rest)) :
    ofText read input = .ok (a, rest) := by
  unfold ofText
  rw [h]

/-- What a lifted computation returns is what it returns without being lifted. -/
theorem of_ofText_eq_ok {read : List Symbol → Except TextFault (α × List Symbol)}
    {input rest : List Symbol} {a : α} (h : ofText read input = .ok (a, rest)) :
    read input = .ok (a, rest) := by
  unfold ofText at h
  split at h
  · rename_i heq
    cases h
    exact heq
  · exact nomatch h

theorem advance_cons (symbol : Symbol) (rest : List Symbol) :
    advance (symbol :: rest) = .ok ((), rest) := rfl

end Reader

-- ── Blanks ────────────────────────────────────────────────────────────────────────

/-- Nothing but blanks. -/
def AllBlank (blanks : List Char) : Prop :=
  ∀ c ∈ blanks, isJsonBlank (.char c) = true

theorem allBlank_nil : AllBlank [] := by
  intro c hmem
  exact nomatch hmem

theorem AllBlank.append {blanks more : List Char} (h : AllBlank blanks) (h' : AllBlank more) :
    AllBlank (blanks ++ more) := by
  intro c hmem
  rcases List.mem_append.mp hmem with hin | hin
  · exact h c hin
  · exact h' c hin

theorem dropWhile_blanks {blanks : List Char} (hblank : AllBlank blanks) (rest : List Symbol) :
    (blanks.map Symbol.char ++ rest).dropWhile isJsonBlank = rest.dropWhile isJsonBlank := by
  refine List.dropWhile_append_of_pos ?_
  intro symbol hmem
  obtain ⟨c, hin, rfl⟩ := List.mem_map.mp hmem
  exact hblank c hin

/-- Past blanks stands the symbol behind them. -/
theorem peekPastBlanks_of_blanks {blanks : List Char} (hblank : AllBlank blanks) {symbol : Symbol}
    (hsymbol : isJsonBlank symbol = false) (rest : List Symbol) :
    peekPastBlanks (blanks.map .char ++ symbol :: rest) = .ok (some symbol, symbol :: rest) := by
  have hdrop :
      (blanks.map Symbol.char ++ symbol :: rest).dropWhile isJsonBlank = symbol :: rest := by
    rw [dropWhile_blanks hblank, List.dropWhile_cons, hsymbol]
    rfl
  show Except.ok ((List.dropWhile isJsonBlank _).head?, List.dropWhile isJsonBlank _) = _
  rw [hdrop]
  rfl

/-- A blank begins no value. -/
theorem isJsonBlank_of_startOf? {symbol : Symbol} {start : Start}
    (h : startOf? symbol = some start) : isJsonBlank symbol = false := by
  unfold isJsonBlank
  split
  · exact nomatch h
  · exact nomatch h
  · exact nomatch h
  · exact nomatch h
  · rfl

/-- The symbol behind blanks tells what kind of value comes. -/
theorem peekStart_of_blanks {blanks : List Char} (hblank : AllBlank blanks) {symbol : Symbol}
    {start : Start} (hstart : startOf? symbol = some start) (rest : List Symbol) :
    peekStart (blanks.map .char ++ symbol :: rest) = .ok (start, symbol :: rest) := by
  unfold peekStart
  rw [bind_ok (peekPastBlanks_of_blanks hblank (isJsonBlank_of_startOf? hstart) rest)]
  dsimp only
  rw [hstart]
  rfl

/-- The colon behind a name, with blanks before it. -/
theorem colon_of_blanks {blanks : List Char} (hblank : AllBlank blanks) (rest : List Symbol) :
    colon (blanks.map .char ++ .char ':' :: rest) = .ok ((), rest) := by
  unfold colon
  rw [bind_ok (peekPastBlanks_of_blanks hblank rfl rest)]
  rfl

theorem readWord_append (word : List Char) (rest : List Symbol) :
    readWord word (word.map .char ++ rest) = .ok ((), rest) := by
  induction word with
  | nil => rfl
  | cons c word ih =>
      show (if Symbol.char c = .char c then readWord word (word.map .char ++ rest) else _) = _
      rw [if_pos rfl, ih]

-- ── Whole texts ───────────────────────────────────────────────────────────────────

/-- The bytes of a text are read as its characters. -/
theorem ofBytes_toUTF8 (text : List Char) :
    Symbol.ofBytes (String.ofList text).toUTF8 = text.map .char := by
  have hbytes : Symbol.ofBytes (String.ofList text).toUTF8 = Symbol.ofString (String.ofList text) :=
    Symbol.ofBytes_toByteArray _
  rw [hbytes, Symbol.ofString, String.toList_ofList]

/-- A text holds one thing if that is read of it and nothing but blanks is left. -/
theorem whole_eq_ok_iff {α : Type} {r : Reader α} {input : List Symbol} {a : α} :
    whole r input = .ok a ↔
      ∃ rest, r input = .ok (a, rest) ∧ (rest.dropWhile isJsonBlank).isEmpty = true := by
  unfold whole
  constructor
  · intro h
    obtain ⟨⟨found, rest⟩, hread, hend⟩ := exists_of_bind_eq_ok h
    dsimp only at hend
    split at hend
    · rename_i hblank
      cases hend
      exact ⟨rest, hread, hblank⟩
    · exact nomatch hend
  · rintro ⟨rest, hread, hblank⟩
    rw [hread]
    show (if _ then _ else _) = _
    rw [if_pos hblank]
    rfl

/-- A text spells a value if the value is read of it, with every member as it is written. -/
def Spells (input : List Symbol) (tree : Json) : Prop :=
  whole (value nestingLimit) input = .ok tree

/-- A text is parsed to what the value that it spells stands for. -/
theorem parse_eq_ok_iff {input : List Symbol} {message : Document} :
    parse input = .ok message ↔ ∃ tree, Spells input tree ∧ Document.ofJson tree = message := by
  unfold parse Spells
  cases whole (value nestingLimit) input with
  | error fault => simp [Except.map]
  | ok tree => simp [Except.map]

end AgentWire.Json
