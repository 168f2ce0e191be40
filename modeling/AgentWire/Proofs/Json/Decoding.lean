import AgentWire.Json.Record
import AgentWire.Proofs.Json.RoundTrip
import AgentWire.Proofs.NameMap

/-!
# Decoding — what the decoders make of a layout

Each decoder has one law: given a layout of a value of its kind, it returns what it wants of the
value. The law of a record is put together from the laws of its fields (`FieldsRead`), and that of
a dictionary from the law of its values:

    each field in turn is read as …    →  the record is what `finish` makes of them
    each value is read as itself       →  the dictionary is read as itself
-/

namespace AgentWire.Json

open Reader

variable {α β ρ : Type}

/-- What is made of a result that is read. -/
theorem ReadsAs.map {r : Reader α} {value : Json} {result : α} (h : ReadsAs r value result)
    (f : α → β) : ReadsAs (do return f (← r)) value (f result) := by
  intro blanks text rest hblank htext hrest
  rw [bind_ok (h hblank htext hrest)]
  rfl

namespace Decoder

/-- Any value is decoded as what it stands for. -/
theorem readsAs_any {tree : Json} {levels : Nat} (hdepth : tree.depth ≤ levels) :
    ReadsAs (any levels) tree (Document.ofJson tree) :=
  (readsAs_value tree levels hdepth).map Document.ofJson

theorem readsAs_text (text : String) (levels : Nat) :
    ReadsAs (Decoder.text levels) (.string text) text := by
  intro blanks written rest hblank htext hrest
  unfold Decoder.text
  rw [bind_ok (peekStart_written hblank htext rest)]
  cases htext with
  | string _ => exact stringAtQuote_renderString text rest

/-- A signed number is decoded as itself. -/
theorem readsAs_signed32 (n : Int32) (levels : Nat) :
    ReadsAs (signed32 levels) (.number (.ofInt32 n)) n := by
  intro blanks text rest hblank htext hrest
  unfold signed32
  rw [bind_ok (peekStart_written hblank htext rest)]
  cases htext with
  | number _ =>
      have hrange : -2147483648 ≤ n.toInt ∧ n.toInt < 2147483648 := ⟨n.le_toInt, n.toInt_lt⟩
      show (ofText readNumber >>= _) _ = _
      rw [bind_ok (ofText_ok (readNumber_render (.ofInt32 n) hrest))]
      dsimp only [Number.ofInt32]
      rw [if_pos hrange, Int32.ofInt_toInt]
      rfl

/-- An unsigned number is decoded as itself. -/
theorem readsAs_unsigned32 (n : UInt32) (levels : Nat) :
    ReadsAs (unsigned32 levels) (.number (.ofUInt32 n)) n := by
  intro blanks text rest hblank htext hrest
  unfold unsigned32
  rw [bind_ok (peekStart_written hblank htext rest)]
  cases htext with
  | number _ =>
      have hrange : 0 ≤ (n.toNat : Int) ∧ (n.toNat : Int) < 4294967296 :=
        ⟨Int.natCast_nonneg _, Int.ofNat_lt.mpr n.toNat_lt⟩
      show (ofText readNumber >>= _) _ = _
      rw [bind_ok (ofText_ok (readNumber_render (.ofUInt32 n) hrest))]
      dsimp only [Number.ofUInt32]
      rw [if_pos hrange, Int.toNat_natCast, UInt32.ofNat_toNat]
      rfl

/-- A choice is decoded from its name. -/
theorem readsAs_choice {known : List String} {ofName? : String → Option α} {name : String}
    {chosen : α} (hname : ofName? name = some chosen) (levels : Nat) :
    ReadsAs (choice known ofName? levels) (.string name) chosen := by
  intro blanks text rest hblank htext hrest
  cases htext with
  | string _ =>
      unfold choice
      rw [bind_ok (peekPastBlanks_name hblank name rest)]
      show (stringAtQuote >>= choose known ofName?) _ = _
      rw [bind_ok (stringAtQuote_renderString name rest)]
      unfold choose
      rw [hname]
      rfl

/-- What is not the word for nothing is decoded as it would be if it had to be there. -/
theorem readsAs_optional {decoder : Decoder α} {levels : Nat} {value : Json} {result : α}
    (h : ReadsAs (decoder levels) value result) (hvalue : value ≠ .null) :
    ReadsAs (optional decoder levels) value (some result) := by
  intro blanks text rest hblank htext hrest
  obtain ⟨c, hstart, hpeek⟩ := peekPastBlanks_written hblank htext rest
  -- no other value begins with the letter of the word for nothing
  have hne : c ≠ 'n' := by
    rintro rfl
    cases htext with
    | null => exact hvalue rfl
    | bool b => cases b <;> exact nomatch hstart
    | number _ => exact nomatch hstart
    | string _ => exact nomatch hstart
    | array _ => exact nomatch hstart
    | object _ => exact nomatch hstart
  unfold optional
  rw [bind_ok hpeek]
  refine Eq.trans (congrFun (?_ : _ = (do return some (← decoder levels) : Reader (Option α))) _)
    (h.map some |>.at_start htext hrest)
  split
  · rename_i heq
    cases heq
    exact absurd rfl hne
  · rfl

/-- The members of an object are decoded, each name once. -/
theorem readsAs_members {list : List (String × Json)} {levels : Nat}
    (hdepth : depth.depthMembers list ≤ levels) :
    ReadsAs (Decoder.members (levels + 1)) (.object list)
      (collect (merged.mergedMembers list)) := by
  intro blanks text rest hblank htext hrest
  unfold Decoder.members
  rw [bind_ok (peekStart_written hblank htext rest)]
  cases htext with
  | object hbody =>
      show sectionMembers levels (List.map Symbol.char _ ++ rest) = _
      unfold sectionMembers
      rw [bind_ok (membersOf_written (takesMembers_value list levels hdepth []) hbody rest)]
      rfl

/-- Entry by entry, the values of an object are inserted under their names. -/
theorem takesMembers_entry {decoder : Decoder α} {levels : Nat} {encode : α → Json}
    (h : ∀ a, ReadsAs (decoder levels) (encode a) a) (entries : List (String × α)) :
    ∀ before : NameMap α, TakesMembers (entry decoder levels) before
      (entries.map fun e => (e.1, encode e.2))
      (entries.foldl (fun m e => m.insert e.1 e.2) before) := by
  induction entries with
  | nil => exact fun before => .nil before
  | cons first rest ih =>
      intro before
      obtain ⟨name, a⟩ := first
      refine .cons ?_ (ih (before.insert name a))
      intro toColon toValue text rest hcolon hvalue htext hrest
      unfold entry
      rw [bind_ok (stringAtQuote_renderString name _), bind_ok (colon_of_blanks hcolon _),
        bind_ok (h a hvalue htext hrest)]
      rfl

/-- **A dictionary is decoded as itself** if its values are. -/
theorem readsAs_dictionary {decoder : Decoder α} {levels : Nat} {encode : α → Json}
    (h : ∀ a, ReadsAs (decoder levels) (encode a) a) (m : NameMap α) :
    ReadsAs (dictionary decoder (levels + 1))
      (.object (m.entries.map fun e => (e.1, encode e.2))) m := by
  intro blanks text rest hblank htext hrest
  have htakes := takesMembers_entry h m.entries .empty
  rw [show m.entries.foldl _ NameMap.empty = m from NameMap.ofList_entries m] at htakes
  unfold dictionary
  rw [bind_ok (peekStart_written hblank htext rest)]
  cases htext with
  | object hbody => exact members_written keeping htakes hbody rest

/-- A check is made of what has been decoded. -/
theorem readsAs_checked {decoder : Decoder α} {levels : Nat} {value : Json} {found : α}
    (h : ReadsAs (decoder levels) value found) {check : α → Except Fault β} {result : β}
    (hcheck : check found = .ok result) :
    ReadsAs (decoder.checked check levels) value result := by
  intro blanks text rest hblank htext hrest
  unfold checked
  rw [bind_ok (h hblank htext hrest), hcheck]
  rfl

end Decoder

namespace Record

variable (r : Record ρ α)

/-- A field that has not been seen is read into the record. -/
theorem readsMember_member {levels : Nat} {seen : List String} {state next : ρ}
    (field : Field ρ) {value : Json} (hfield : r.fields.find? (·.name = field.name) = some field)
    (hseen : field.name ∉ seen) (h : ReadsAs (field.read state levels) value next) :
    ReadsMember (r.member levels (seen, state)) field.name value (field.name :: seen, next) := by
  intro toColon toValue text rest hcolon hvalue htext hrest
  unfold member
  rw [bind_ok (stringAtQuote_renderString field.name _), hfield]
  dsimp only
  rw [if_neg hseen]
  show (colon >>= _) _ = _
  rw [bind_ok (colon_of_blanks hcolon _), bind_ok (h hvalue htext hrest)]
  rfl

/-- Field by field, the members of an object take a record from one state to another. -/
inductive FieldsRead (levels : Nat) : List (Field ρ) → ρ → List (String × Json) → ρ → Prop
  | nil (state : ρ) : FieldsRead levels [] state [] state
  | cons {field : Field ρ} {fields : List (Field ρ)} {state next last : ρ} {value : Json}
      {rest : List (String × Json)} :
      ReadsAs (field.read state levels) value next → FieldsRead levels fields next rest last →
        FieldsRead levels (field :: fields) state ((field.name, value) :: rest) last

/-- A field that is stored as it is decoded. -/
theorem FieldsRead.of {levels : Nat} {name : String} {decoder : Decoder α} {set : ρ → α → ρ}
    {fields : List (Field ρ)} {state last : ρ} {value : Json} {found : α}
    {rest : List (String × Json)} (h : ReadsAs (decoder levels) value found)
    (hrest : FieldsRead levels fields (set state found) rest last) :
    FieldsRead levels (.of name decoder set :: fields) state ((name, value) :: rest) last :=
  .cons (h.map (set state)) hrest

/-- What has a name is found by its name where every name comes once. -/
theorem find?_name {β : Type*} {fields : List β} {name : β → String}
    (hnodup : (fields.map name).Nodup) {field : β} (hmem : field ∈ fields) :
    fields.find? (name · = name field) = some field := by
  have hsome : (fields.find? (name · = name field)).isSome :=
    List.find?_isSome.mpr ⟨field, hmem, decide_eq_true rfl⟩
  obtain ⟨found, hfound⟩ := Option.isSome_iff_exists.mp hsome
  have hname : name found = name field := by simpa using List.find?_some hfound
  rw [hfound, List.inj_on_of_nodup_map hnodup (List.mem_of_find?_eq_some hfound) hmem hname]

/-- Fields that have not been seen are taken one by one. -/
theorem takesMembers_of_fieldsRead {levels : Nat} {fields : List (Field ρ)} {state last : ρ}
    {list : List (String × Json)} (h : FieldsRead levels fields state list last)
    (hknown : ∀ field ∈ fields, r.fields.find? (·.name = field.name) = some field)
    (hnodup : (fields.map (·.name)).Nodup) :
    ∀ seen : List String, (∀ field ∈ fields, field.name ∉ seen) →
      ∃ seen', TakesMembers (r.member levels) (seen, state) list (seen', last) := by
  induction h with
  | nil state => exact fun seen _ => ⟨seen, .nil _⟩
  | @cons field fields _ _ _ _ _ hfield _ ih =>
      intro seen hseen
      obtain ⟨hfirst, hothers⟩ := List.forall_mem_cons.mp hseen
      obtain ⟨hfresh, hrest⟩ := List.nodup_cons.mp hnodup
      have hunseen : ∀ other ∈ fields, other.name ∉ field.name :: seen := by
        intro other hmem hin
        rcases List.mem_cons.mp hin with heq | hin
        · exact hfresh (List.mem_map.mpr ⟨other, hmem, heq⟩)
        · exact hothers other hmem hin
      obtain ⟨seen', htakes⟩ := ih (fun other hmem => hknown other (List.mem_cons_of_mem _ hmem))
        hrest (field.name :: seen) hunseen
      exact ⟨seen', .cons (r.readsMember_member field (hknown field List.mem_cons_self) hfirst
        hfield) htakes⟩

/-- **A record is what `finish` makes of its fields**, read in their order. -/
theorem readsAs_decoder {levels : Nat} {list : List (String × Json)} {last : ρ} {result : α}
    (hnodup : (r.fields.map (·.name)).Nodup)
    (h : FieldsRead levels r.fields r.start list last)
    (hfinish : r.finish .missingField last = .ok result) :
    ReadsAs (r.decoder (levels + 1)) (.object list) result := by
  obtain ⟨seen, htakes⟩ := r.takesMembers_of_fieldsRead h (fun _ => find?_name hnodup) hnodup []
    (fun _ _ hin => nomatch hin)
  intro blanks text rest hblank htext hrest
  unfold decoder
  rw [bind_ok (peekStart_written hblank htext rest)]
  cases htext with
  | object hbody =>
      show r.asObject levels (List.map Symbol.char _ ++ rest) = _
      unfold asObject
      rw [bind_ok (members_written keeping htakes hbody rest)]
      show (ofExcept (r.finish .missingField last) : Reader α) rest = _
      rw [hfinish]
      rfl

/-- A record all of whose fields may be left out is what its fields make of it. -/
theorem readsAs_ofDefaults {name : String} {start last : ρ} {fields : List (Field ρ)}
    {levels : Nat} {list : List (String × Json)} (hnodup : (fields.map (·.name)).Nodup)
    (h : FieldsRead levels fields start list last) :
    ReadsAs ((ofDefaults name start fields).decoder (levels + 1)) (.object list) last :=
  readsAs_decoder (ofDefaults name start fields) hnodup h rfl

end Record

/-- **A decoder that takes every layout of a value decodes every text of it.** -/
theorem decode_written {decoder : Decoder α} {tree : Json} {result : α}
    (h : ReadsAs (decoder nestingLimit) tree result) {text : List Char}
    (htext : WrittenText tree text) :
    decode decoder (Symbol.ofBytes (String.ofList text).toUTF8) = .ok result := by
  rw [ofBytes_toUTF8]
  exact whole_written h htext

end AgentWire.Json
