import AgentWire.Proofs.Json.Decoding
import AgentWire.Proofs.Json.Outline

/-!
# Cells — a record that keeps each field in a place of its own

The state of a record that is being filled has a cell for each field: a value is put there, and is
looked up there in the end. Cells are independent (`Independent`) if putting a value into one of them
leaves the others alone, and if together they are the whole state. Members are then taken whatever
their order, and each cell ends with what stands under its name, or with what it held before:

    no field twice  →  ( members.foldlM (take cells) before = .ok last
                         ↔  every cell holds what stands under its name )

So a record in cells (`Record.InCells`) is decoded of an object if no field comes twice and each
value can be decoded, and its state is settled by what stands under the names.
-/

namespace AgentWire.Json

variable {α ρ : Type}

/-- A field with the place of its value: its name, its decoder, what that makes of values, and where
    the state of the record keeps the result. -/
structure Cell (ρ : Type) where
  {β : Type}
  name : String
  decoder : Decoder β
  of : Json → Except Fault β
  get : ρ → β
  set : ρ → β → ρ

namespace Cell

/-- The field of a cell. -/
def field (c : Cell ρ) : Field ρ :=
  .of c.name c.decoder c.set

/-- A cell holds what is found under its name, or what it held before if nothing is. -/
def Holds (c : Cell ρ) (found : Option Json) (before after : ρ) : Prop :=
  match found with
  | none => c.get after = c.get before
  | some v => c.of v = .ok (c.get after)

/-- Takes a member into the cell of its name. -/
def take (cells : List (Cell ρ)) (state : ρ) (member : String × Json) : Except Fault ρ :=
  match cells.find? (·.name = member.1) with
  | none => .ok state
  | some c => (c.of member.2).map (c.set state)

/-- Cells are independent: each has a name and a place of its own, and there is nothing else in the
    state. -/
structure Independent (cells : List (Cell ρ)) : Prop where
  names : (cells.map (·.name)).Nodup
  get_set : ∀ c ∈ cells, ∀ state x, c.get (c.set state x) = x
  get_set_of_ne : ∀ c ∈ cells, ∀ d ∈ cells, d.name ≠ c.name →
    ∀ state x, d.get (c.set state x) = d.get state
  ext : ∀ state state', (∀ c ∈ cells, c.get state = c.get state') → state = state'

/-- Only what a cell held before matters of the state before. -/
theorem holds_congr {c : Cell ρ} {found : Option Json} {before before' after : ρ}
    (h : c.get before = c.get before') :
    c.Holds found before after ↔ c.Holds found before' after := by
  cases found with
  | none =>
      show c.get after = _ ↔ c.get after = _
      rw [h]
  | some v => exact Iff.rfl

variable {cells : List (Cell ρ)}

theorem take_of_unknown {name : String} (h : name ∉ cells.map (·.name)) (state : ρ) (v : Json) :
    take cells state (name, v) = .ok state := by
  have hfind : cells.find? (·.name = name) = none := by
    refine List.find?_eq_none.mpr ?_
    intro c hc heq
    exact h (List.mem_map.mpr ⟨c, hc, of_decide_eq_true heq⟩)
  unfold take
  rw [hfind]

theorem take_of_mem (h : Independent cells) {c : Cell ρ} (hc : c ∈ cells) (state : ρ) (v : Json) :
    take cells state (c.name, v) = (c.of v).map (c.set state) := by
  have hfind : cells.find? (·.name = c.name) = some c := Record.find?_name h.names hc
  unfold take
  rw [hfind]

/-- Each of the names comes once at most. -/
def EachOnce (names : List String) (members : List (String × Json)) : Prop :=
  ∀ name ∈ names, (Json.names members).count name ≤ 1

variable {known : List String} {name : String} {v : Json} {rest : List (String × Json)}
  {before last : ρ} {c d : Cell ρ}

theorem EachOnce.of_cons (h : EachOnce known ((name, v) :: rest)) : EachOnce known rest := by
  intro other hother
  have hmore := h other hother
  rw [count_names_cons] at hmore
  exact Nat.le_of_add_right_le hmore

/-- A name that is here does not come again. -/
theorem EachOnce.not_mem (h : EachOnce known ((name, v) :: rest)) (hknown : name ∈ known) :
    name ∉ names rest := by
  intro hmem
  have hpos := List.count_pos_iff.mpr hmem
  have htwice := h name hknown
  rw [count_names_cons, if_pos rfl] at htwice
  exact absurd (Nat.le_of_succ_le_succ htwice) (Nat.not_le_of_lt hpos)

/-- A cell of another name holds the same with a member in front as without it. -/
theorem holds_cons_of_ne (hne : c.name ≠ name) :
    c.Holds (lastValue? ((name, v) :: rest) c.name) before last ↔
      c.Holds (lastValue? rest c.name) before last := by
  rw [lastValue?_cons, if_neg hne, Option.or_none]

/-- A cell holds the value under its name, if the name does not come again. -/
theorem holds_cons_self (hfresh : c.name ∉ names rest) :
    c.Holds (lastValue? ((c.name, v) :: rest) c.name) before last ↔ c.of v = .ok (c.get last) := by
  rw [lastValue?_cons, lastValue?_of_not_mem hfresh, if_pos rfl]
  exact Iff.rfl

/-- **A value that is put into its cell is what the cell holds of its member**, and the other cells
    hold what they held. -/
theorem holds_set_iff (h : Independent cells) (hc : c ∈ cells) (hd : d ∈ cells) {x : c.β}
    (hof : c.of v = .ok x) (hfresh : c.name ∉ names rest) :
    d.Holds (lastValue? rest d.name) (c.set before x) last ↔
      d.Holds (lastValue? ((c.name, v) :: rest) d.name) before last := by
  by_cases hsame : d.name = c.name
  · -- nothing comes under the name behind the member, so the cell keeps the value it was given
    obtain rfl := List.inj_on_of_nodup_map h.names hd hc hsame
    rw [holds_cons_self hfresh, lastValue?_of_not_mem hfresh, hof]
    show d.get last = d.get (d.set before x) ↔ _
    rw [h.get_set d hd, Except.ok.injEq, eq_comm]
  · rw [holds_cons_of_ne hsame]
    exact holds_congr (h.get_set_of_ne c hc d hd hsame before x)

/-- **MEMBERS ARE TAKEN IF EACH CELL HOLDS WHAT STANDS UNDER ITS NAME**, where none comes twice. -/
theorem foldlM_take_iff (h : Independent cells) {members : List (String × Json)} :
    ∀ {before last : ρ}, EachOnce (cells.map (·.name)) members →
      (members.foldlM (take cells) before = .ok last ↔
        ∀ c ∈ cells, c.Holds (lastValue? members c.name) before last) := by
  induction members with
  | nil =>
      intro before last _
      constructor
      · intro heq c _
        cases heq
        rfl
      · intro hsame
        exact congrArg Except.ok (h.ext before last fun c hc => (hsame c hc).symm)
  | cons member rest ih =>
      intro before last honce
      obtain ⟨name, v⟩ := member
      rw [List.foldlM_cons]
      by_cases hknown : name ∈ cells.map (·.name)
      · have hfresh := honce.not_mem hknown
        obtain ⟨c, hc, rfl⟩ := List.mem_map.mp hknown
        rw [take_of_mem h hc]
        cases hof : c.of v with
        | error fault =>
            -- the cell of the member can hold no value of it
            refine iff_of_false nofun ?_
            intro hholds
            exact nomatch hof.symm.trans ((holds_cons_self hfresh).mp (hholds c hc))
        | ok x =>
            refine (ih honce.of_cons).trans (forall₂_congr ?_)
            intro d hd
            exact holds_set_iff h hc hd hof hfresh
      · -- no cell has the name, so the member says nothing
        rw [take_of_unknown hknown]
        refine (ih honce.of_cons).trans (forall₂_congr ?_)
        intro c hc
        have hne : c.name ≠ name := by
          rintro rfl
          exact hknown (List.mem_map_of_mem hc)
        exact (holds_cons_of_ne hne).symm

end Cell

namespace Record

/-- A record keeps its fields in independent cells, whose decoders judge values. -/
structure InCells (r : Record ρ α) (cells : List (Cell ρ)) : Prop where
  fields : r.fields = cells.map Cell.field
  independent : Cell.Independent cells
  judges : ∀ c ∈ cells, ∀ levels, Judges (c.decoder (levels + 1)) c.of

variable {r : Record ρ α} {cells : List (Cell ρ)}

/-- The names of the fields are those of the cells. -/
theorem InCells.names_eq (h : r.InCells cells) :
    r.fields.map (·.name) = cells.map (·.name) := by
  rw [h.fields, List.map_map]
  rfl

/-- Each field judges the value that is taken into its cell. -/
theorem InCells.judges_field (h : r.InCells cells) (levels : Nat) :
    ∀ field ∈ r.fields, ∀ state : ρ,
      Judges (field.read state (levels + 1)) fun v => Cell.take cells state (field.name, v) := by
  intro field hfield state
  rw [h.fields] at hfield
  obtain ⟨c, hc, rfl⟩ := List.mem_map.mp hfield
  have htake : (fun v => Cell.take cells state (c.field.name, v)) =
      fun v => (c.of v).map (c.set state) :=
    funext fun v => Cell.take_of_mem h.independent hc state v
  rw [htake]
  exact (h.judges c hc levels).map (c.set state)

/-- A record is made of what is found under the names of its cells. -/
def MadeOf (r : Record ρ α) (cells : List (Cell ρ)) (found : String → Option Json) (a : α) : Prop :=
  ∃ last, (∀ c ∈ cells, c.Holds (found c.name) r.start last) ∧ r.finish .missingField last = .ok a

/-- **MEMBERS MAKE THE RECORD THAT IS MADE OF THEIR VALUES**, if no field comes twice. -/
theorem InCells.foldlM_eq_ok_iff (h : r.InCells cells) {members : List (String × Json)} {a : α} :
    (members.foldlM (r.takeMember (Cell.take cells)) ([], r.start) >>= fun last =>
        r.finish .missingField last.2) = .ok a ↔
      Cell.EachOnce (cells.map (·.name)) members ∧ r.MadeOf cells (lastValue? members) a := by
  have htaken : ∀ last, (∃ seen, members.foldlM (r.takeMember (Cell.take cells)) ([], r.start) =
      .ok (seen, last)) ↔ Cell.EachOnce (cells.map (·.name)) members ∧
        members.foldlM (Cell.take cells) r.start = .ok last := by
    intro last
    have hunknown : ∀ {name : String}, name ∉ r.fields.map (·.name) → ∀ (state : ρ) (v : Json),
        Cell.take cells state (name, v) = .ok state := by
      intro name hname state v
      rw [h.names_eq] at hname
      exact Cell.take_of_unknown hname state v
    refine (foldlM_takeMember_iff hunknown).trans (and_congr_left' ?_)
    rw [← h.names_eq, Cell.EachOnce, List.forall_mem_map]
    exact Iff.rfl
  constructor
  · intro hok
    obtain ⟨⟨seen, last⟩, hfold, hfinish⟩ := exists_of_bind_eq_ok hok
    obtain ⟨honce, htake⟩ := (htaken last).mp ⟨seen, hfold⟩
    exact ⟨honce, last, (Cell.foldlM_take_iff h.independent honce).mp htake, hfinish⟩
  · rintro ⟨honce, last, hholds, hfinish⟩
    obtain ⟨seen, hfold⟩ := (htaken last).mpr
      ⟨honce, (Cell.foldlM_take_iff h.independent honce).mpr hholds⟩
    rw [hfold]
    exact hfinish

variable {input : List Symbol} {members : List (String × Json)} {a : α}

/-- **A record is decoded of an outline to what its last values make.** -/
theorem InCells.decode_of_outlines (h : r.InCells cells)
    (houtline : Outlines (cells.map (·.name)) input members) :
    decode r.decoder input = .ok a ↔
      Cell.EachOnce (cells.map (·.name)) members ∧ r.MadeOf cells (lastValue? members) a := by
  rw [← h.names_eq] at houtline
  rw [← h.foldlM_eq_ok_iff, ← whole_of_outlines (h.judges_field 125) houtline]
  rfl

/-- **A record is decoded of a value to what its last values make.** -/
theorem InCells.decode_of_value (h : r.InCells cells) {outer : Nat}
    (hvalue : whole (value (outer + 1)) input = .ok (.object members)) :
    decode r.decoder input = .ok a ↔
      Cell.EachOnce (cells.map (·.name)) members ∧ r.MadeOf cells (lastValue? members) a := by
  obtain ⟨rest, hread, hblank⟩ := whole_eq_ok_iff.mp hvalue
  have hrecord := decoder_of_value (fun field hfield bound state =>
    (h.judges_field 125 field hfield state).follows bound outer) hread
  rw [← h.foldlM_eq_ok_iff, ← whole_eq_of_map hrecord hblank]
  rfl

/-- **An object that is decoded has an outline.** -/
theorem InCells.exists_outlines (h : r.InCells cells) (hobject : IsObjectText input)
    (hdecode : decode r.decoder input = .ok a) :
    ∃ members, Outlines (cells.map (·.name)) input members := by
  rw [← h.names_eq]
  exact exists_outlines_of_whole (h.judges_field 125) hobject hdecode

end Record

end AgentWire.Json
