import AgentWire.Plugin.Result
import AgentWire.Proofs.Json.Cells
import AgentWire.Proofs.Timestamp.RoundTrip

/-!
# Records of results — what is read of a record, and what is written into one

A result has one outcome, but its record has two fields for it, `output` and `error`, each of which
may be missing or null; of the two, an error decides. What the fields of a record say is put
together in two predicates:

    outcome.IsOf output error    what stands under the two names is the outcome
    r.IsMadeOf found             what stands under all names is the result, and what is missing
                                 is as in `default`

The record keeps its fields in cells, so an object is parsed to `r` exactly if it names no field
twice and `r` is made of it (`parse_of_outlines`). The record of `r` names each field once and `r`
is made of it, an empty output or error included, because a text that is empty is not missing; so
what is written is parsed as it was.
-/

namespace AgentWire

open Json

-- ── What a field says ─────────────────────────────────────────────────────────────

/-- Nothing is found under a name, or null. -/
def IsNothing (found : Option Json) : Prop :=
  found = none ∨ found = some .null

/-- A field is what is found under its name, in one of the forms of such a field, or what it usually
    is if nothing is found. -/
inductive IsField {α : Type} (form : α → Json → Prop) (usual : α) : Option Json → α → Prop
  | missing : IsField form usual none usual
  | found {a : α} {v : Json} : form a v → IsField form usual (some v) a

/-- The outcome that the fields `output` and `error` stand for: an error decides, whatever the output
    is, and without one there is the output, or an empty one. -/
inductive Outcome.IsOf : (output error : Option Json) → Outcome → Prop
  | failed {output : Option Json} (error : String) :
      IsNothing output ∨ (∃ text, output = some (.string text)) →
        IsOf output (some (.string error)) (.failed error)
  | completed {error : Option Json} (output : String) :
      IsNothing error → IsOf (some (.string output)) error (.completed output)
  | silent {output error : Option Json} :
      IsNothing output → IsNothing error → IsOf output error (.completed "")

section

variable {output error : Option Json} {outcome : Outcome} {text : String}

/-- A run failed with what its error says. -/
theorem Outcome.IsOf.failed_iff (h : outcome.IsOf output error) :
    outcome = .failed text ↔ error = some (.string text) := by
  cases h with
  | failed error _ => simp
  | completed _ hnone | silent _ hnone => rcases hnone with rfl | rfl <;> simp

/-- A run failed if it has an error that is something. -/
theorem Outcome.IsOf.exists_failed_iff (h : outcome.IsOf output error) :
    (∃ text, outcome = .failed text) ↔ ∃ v, error = some v ∧ v ≠ .null := by
  cases h with
  | failed error _ => simp
  | completed _ hnone | silent _ hnone => rcases hnone with rfl | rfl <;> simp

/-- A run that did not fail has its output, or an empty one. -/
theorem Outcome.IsOf.completed_iff (h : outcome.IsOf output error) :
    outcome = .completed text ↔
      IsNothing error ∧ (output = some (.string text) ∨ IsNothing output ∧ text = "") := by
  cases h with
  | failed error _ => simp [IsNothing]
  | completed output hnone =>
      rw [and_iff_right hnone]
      simp [IsNothing]
  | silent hsilent hnone =>
      rw [and_iff_right hnone]
      rcases hsilent with rfl | rfl <;> simp [IsNothing, eq_comm]

end

namespace PluginResult

/-- A result is made of what is found under the names of its record, and is as results usually are
    where nothing is found. -/
structure IsMadeOf (r : PluginResult) (found : String → Option Json) : Prop where
  status : IsField (fun (s : Status) v => v = .string s.text ∨ v = .object [(s.text, .null)])
    (default : PluginResult).status (found "status") r.status
  code : IsField (fun n v => v = .number (.ofInt32 n))
    (default : PluginResult).code (found "code") r.code
  outcome : r.outcome.IsOf (found "output") (found "error")
  startTime : IsField (fun (t : Timestamp) v => v = .string t.text)
    (default : PluginResult).startTime (found "startDateTime") r.startTime
  endTime : IsField (fun (t : Timestamp) v => v = .string t.text)
    (default : PluginResult).endTime (found "endDateTime") r.endTime
  outputBucket : IsField (fun text v => v = .string text)
    (default : PluginResult).outputBucket (found "outputS3BucketName") r.outputBucket
  outputKeys : IsField (fun text v => v = .string text)
    (default : PluginResult).outputKeys (found "outputS3KeyPrefix") r.outputKeys

-- ── The cells of a record ─────────────────────────────────────────────────────────

/-- The time that a value names. -/
def timeOf (v : Json) : Except Json.Fault Timestamp :=
  Decoder.textOf v >>= fun text =>
    (Timestamp.parse text).mapError fun fault => .refused fault.message

/-- The cells of the record of a result. -/
def cells : List (Cell Draft) :=
  [⟨"status", Status.decoder, Decoder.choiceOf (Status.all.map Status.text) Status.ofText?,
      (·.status), fun d x => { d with status := x }⟩,
    ⟨"code", .signed32, Decoder.signed32Of, (·.code), fun d x => { d with code := x }⟩,
    ⟨"output", .optional .text, Decoder.optionalOf Decoder.textOf,
      (·.output), fun d x => { d with output := x }⟩,
    ⟨"error", .optional .text, Decoder.optionalOf Decoder.textOf,
      (·.error), fun d x => { d with error := x }⟩,
    ⟨"startDateTime", Timestamp.decoder, timeOf,
      (·.startTime), fun d x => { d with startTime := x }⟩,
    ⟨"endDateTime", Timestamp.decoder, timeOf, (·.endTime), fun d x => { d with endTime := x }⟩,
    ⟨"outputS3BucketName", .text, Decoder.textOf,
      (·.outputBucket), fun d x => { d with outputBucket := x }⟩,
    ⟨"outputS3KeyPrefix", .text, Decoder.textOf,
      (·.outputKeys), fun d x => { d with outputKeys := x }⟩]

theorem independent_cells : Cell.Independent cells where
  names := by decide
  get_set := by
    simp only [cells, List.forall_mem_cons, List.not_mem_nil, IsEmpty.forall_iff, implies_true,
      and_true]
  get_set_of_ne := by
    simp [cells]
  ext := by
    intro d d' hsame
    simp only [cells, List.forall_mem_cons] at hsame
    obtain ⟨hstatus, hcode, houtput, herror, hstart, hend, hbucket, hkeys, -⟩ := hsame
    cases d
    cases d'
    dsimp only at *
    rw [hstatus, hcode, houtput, herror, hstart, hend, hbucket, hkeys]

theorem inCells_record : record.InCells cells where
  fields := rfl
  independent := independent_cells
  judges := by
    intro c hc levels
    simp only [cells, List.mem_cons, List.not_mem_nil, or_false] at hc
    rcases hc with rfl | rfl | rfl | rfl | rfl | rfl | rfl | rfl
    · exact Decoder.judges_choice
    · exact Decoder.judges_signed32 (levels + 1)
    · exact Decoder.judges_optional (Decoder.judges_text (levels + 1))
    · exact Decoder.judges_optional (Decoder.judges_text (levels + 1))
    · exact Decoder.judges_checked (Decoder.judges_text (levels + 1)) _
    · exact Decoder.judges_checked (Decoder.judges_text (levels + 1)) _
    · exact Decoder.judges_text (levels + 1)
    · exact Decoder.judges_text (levels + 1)

-- ── From the cells to the result ──────────────────────────────────────────────────

section Forms

variable {v : Json}

theorem timeOf_string (text : String) :
    timeOf (.string text) =
      (Timestamp.parse text).mapError fun fault => .refused fault.message := rfl

theorem timeOf_eq_ok_iff {t : Timestamp} : timeOf v = .ok t ↔ v = .string t.text := by
  constructor
  · intro h
    obtain ⟨text, htext, hparse⟩ := exists_of_bind_eq_ok h
    rw [Decoder.textOf_eq_ok_iff.mp htext, Timestamp.text_of_parse (mapError_eq_ok_iff.mp hparse)]
  · rintro rfl
    rw [timeOf_string]
    exact mapError_eq_ok_iff.mpr (Timestamp.parse_text t).2

theorem chosenOf_eq_ok_iff {name : String} {s : Status} :
    Decoder.chosenOf (Status.all.map Status.text) Status.ofText? name = .ok s ↔ name = s.text := by
  unfold Decoder.chosenOf
  constructor
  · intro h
    split at h
    · rename_i chosen hchosen
      cases h
      have hname : s.text = name := by simpa using List.find?_some hchosen
      exact hname.symm
    · exact nomatch h
  · rintro rfl
    rw [Status.ofText?_text]

theorem statusOf_eq_ok_iff {s : Status} :
    Decoder.choiceOf (Status.all.map Status.text) Status.ofText? v = .ok s ↔
      v = .string s.text ∨ v = .object [(s.text, .null)] := by
  constructor
  · intro h
    unfold Decoder.choiceOf at h
    split at h
    · rw [chosenOf_eq_ok_iff.mp h]
      exact .inl rfl
    · obtain ⟨chosen, hchosen, h⟩ := exists_of_bind_eq_ok h
      split_ifs at h with hnull hmore
      cases h
      rw [chosenOf_eq_ok_iff.mp hchosen, hnull, hmore]
      exact .inr rfl
    · exact nomatch h
  · rintro (rfl | rfl)
    · exact chosenOf_eq_ok_iff.mpr rfl
    · show (Decoder.chosenOf _ _ s.text >>= _) = _
      rw [chosenOf_eq_ok_iff.mpr rfl]
      rfl

end Forms

/-- A cell holds what is found in one of the forms of its values. -/
theorem isField_iff {α : Type} {of : Json → Except Json.Fault α} {form : α → Json → Prop}
    (hform : ∀ v a, of v = .ok a ↔ form a v) {usual a : α} {found : Option Json} :
    (match found with | none => a = usual | some v => of v = .ok a) ↔
      IsField form usual found a := by
  cases found with
  | none =>
      constructor
      · rintro rfl
        exact .missing
      · rintro ⟨⟩
        rfl
  | some v =>
      refine (hform v a).trans ⟨.found, ?_⟩
      intro h
      cases h with
      | found h => exact h

/-- A text that may be missing is one that is found, or nothing. -/
theorem isField_optional_iff {found : Option Json} {x : Option String} :
    IsField (fun x v => Decoder.optionalOf Decoder.textOf v = .ok x) none found x ↔
      (IsNothing found ∧ x = none) ∨ ∃ text, found = some (.string text) ∧ x = some text := by
  constructor
  · rintro (_ | h)
    · exact .inl ⟨.inl rfl, rfl⟩
    · rcases Decoder.optionalOf_textOf_eq_ok_iff.mp h with ⟨rfl, rfl⟩ | ⟨text, rfl, rfl⟩
      · exact .inl ⟨.inr rfl, rfl⟩
      · exact .inr ⟨text, rfl, rfl⟩
  · rintro (⟨rfl | rfl, rfl⟩ | ⟨text, rfl, rfl⟩)
    · exact .missing
    · exact .found rfl
    · exact .found rfl

/-- The outcome of two fields is that of the texts that are found under their names. -/
theorem isOf_iff {output error : Option Json} {outcome : Outcome} :
    outcome.IsOf output error ↔ ∃ x y,
      ((IsNothing output ∧ x = none) ∨ ∃ text, output = some (.string text) ∧ x = some text) ∧
      ((IsNothing error ∧ y = none) ∨ ∃ text, error = some (.string text) ∧ y = some text) ∧
      outcome = .ofFields x y := by
  constructor
  · rintro (⟨text, houtput | ⟨other, houtput⟩⟩ | ⟨text, herror⟩ | ⟨houtput, herror⟩)
    · exact ⟨none, some text, .inl ⟨houtput, rfl⟩, .inr ⟨text, rfl, rfl⟩, rfl⟩
    · exact ⟨some other, some text, .inr ⟨other, houtput, rfl⟩, .inr ⟨text, rfl, rfl⟩, rfl⟩
    · exact ⟨some text, none, .inr ⟨text, rfl, rfl⟩, .inl ⟨herror, rfl⟩, rfl⟩
    · exact ⟨none, none, .inl ⟨houtput, rfl⟩, .inl ⟨herror, rfl⟩, rfl⟩
  · rintro ⟨x, y, houtput, ⟨herror, rfl⟩ | ⟨text, rfl, rfl⟩, rfl⟩
    · rcases houtput with ⟨houtput, rfl⟩ | ⟨text, rfl, rfl⟩
      · exact .silent houtput herror
      · exact .completed text herror
    · rcases houtput with ⟨houtput, rfl⟩ | ⟨other, rfl, rfl⟩
      · exact .failed text (.inl houtput)
      · exact .failed text (.inr ⟨other, rfl⟩)

/-- **What the cells hold in the end is what the result is made of.** -/
theorem madeOf_iff {found : String → Option Json} {r : PluginResult} :
    record.MadeOf cells found r ↔ r.IsMadeOf found := by
  constructor
  · rintro ⟨last, hholds, hfinish⟩
    simp only [cells, List.forall_mem_cons] at hholds
    obtain ⟨hstatus, hcode, houtput, herror, hstart, hend, hbucket, hkeys, -⟩ := hholds
    cases hfinish
    exact
      { status := (isField_iff fun _ _ => statusOf_eq_ok_iff).mp hstatus
        code := (isField_iff fun _ _ => Decoder.signed32Of_eq_ok_iff).mp hcode
        outcome := isOf_iff.mpr ⟨last.output, last.error,
          isField_optional_iff.mp ((isField_iff fun _ _ => Iff.rfl).mp houtput),
          isField_optional_iff.mp ((isField_iff fun _ _ => Iff.rfl).mp herror), rfl⟩
        startTime := (isField_iff fun _ _ => timeOf_eq_ok_iff).mp hstart
        endTime := (isField_iff fun _ _ => timeOf_eq_ok_iff).mp hend
        outputBucket := (isField_iff fun _ _ => Decoder.textOf_eq_ok_iff).mp hbucket
        outputKeys := (isField_iff fun _ _ => Decoder.textOf_eq_ok_iff).mp hkeys }
  · -- conversely the output and the error are told apart by the outcome
    intro h
    obtain ⟨x, y, houtput, herror, houtcome⟩ := isOf_iff.mp h.outcome
    refine ⟨⟨r.status, r.code, x, y, r.startTime, r.endTime, r.outputBucket, r.outputKeys⟩, ?_, ?_⟩
    · simp only [cells, List.forall_mem_cons]
      exact ⟨(isField_iff fun _ _ => statusOf_eq_ok_iff).mpr h.status,
        (isField_iff fun _ _ => Decoder.signed32Of_eq_ok_iff).mpr h.code,
        (isField_iff fun _ _ => Iff.rfl).mpr (isField_optional_iff.mpr houtput),
        (isField_iff fun _ _ => Iff.rfl).mpr (isField_optional_iff.mpr herror),
        (isField_iff fun _ _ => timeOf_eq_ok_iff).mpr h.startTime,
        (isField_iff fun _ _ => timeOf_eq_ok_iff).mpr h.endTime,
        (isField_iff fun _ _ => Decoder.textOf_eq_ok_iff).mpr h.outputBucket,
        (isField_iff fun _ _ => Decoder.textOf_eq_ok_iff).mpr h.outputKeys, nofun⟩
    · show Except.ok (Draft.result _) = Except.ok r
      rw [Draft.result, ← houtcome]

-- ── Records ───────────────────────────────────────────────────────────────────────

/-- The wire form of a result. -/
def encode (r : PluginResult) : String :=
  r.toJson.compact

/-- The result in the bytes of a record. -/
def parse (raw : ByteArray) : Except Json.Fault PluginResult :=
  decode decoder (Symbol.ofBytes raw)

/-- The names of the fields of a record. -/
def fieldNames : List String :=
  record.fields.map (·.name)

/-- **A record is parsed to what its last values make**, if no field comes twice. -/
theorem parse_of_outlines {raw : ByteArray} {members : List (String × Json)}
    (h : Outlines fieldNames (Symbol.ofBytes raw) members) (r : PluginResult) :
    parse raw = .ok r ↔ Cell.EachOnce fieldNames members ∧ r.IsMadeOf (lastValue? members) := by
  rw [← madeOf_iff]
  exact inCells_record.decode_of_outlines h

/-- A record that is written as an object of values is parsed to what its last values make. -/
theorem parse_of_writtenText {text : List Char} {members : List (String × Json)}
    (h : WrittenText (.object members) text) (r : PluginResult) :
    parse (String.ofList text).toUTF8 = .ok r ↔
      Cell.EachOnce fieldNames members ∧ r.IsMadeOf (lastValue? members) := by
  rw [← madeOf_iff]
  exact inCells_record.decode_of_value (h.whole_value (Nat.le_succ _))

/-- The record of a result names no field twice, and the result is made of it. -/
theorem isMadeOf_toJson (r : PluginResult) : ∃ members, r.toJson = .object members ∧
    (names members).Nodup ∧ r.IsMadeOf (lastValue? members) := by
  obtain ⟨status, code, outcome, startTime, endTime, bucket, keys⟩ := r
  cases outcome with
  | completed output =>
      refine ⟨_, rfl, (by decide : ["status", "code", "output", "startDateTime", "endDateTime",
        "outputS3BucketName", "outputS3KeyPrefix"].Nodup), ?_⟩
      exact ⟨.found (.inl rfl), .found rfl, .completed output (.inl rfl), .found rfl, .found rfl,
        .found rfl, .found rfl⟩
  | failed error =>
      refine ⟨_, rfl, (by decide : ["status", "code", "error", "startDateTime", "endDateTime",
        "outputS3BucketName", "outputS3KeyPrefix"].Nodup), ?_⟩
      exact ⟨.found (.inl rfl), .found rfl, .failed error (.inl (.inl rfl)), .found rfl, .found rfl,
        .found rfl, .found rfl⟩

/-- **Every text of the record of a result is parsed to the result.** -/
theorem parse_of_toJson (r : PluginResult) {text : List Char} (h : WrittenText r.toJson text) :
    parse (String.ofList text).toUTF8 = .ok r := by
  obtain ⟨members, hmembers, hnodup, hmade⟩ := r.isMadeOf_toJson
  rw [hmembers] at h
  refine (parse_of_writtenText h r).mpr ⟨?_, hmade⟩
  intro name _
  exact List.nodup_iff_count_le_one.mp hnodup name

theorem parse_encode (r : PluginResult) : parse r.encode.toUTF8 = .ok r :=
  parse_of_toJson r (written_render r.toJson).writtenText

/-- **RECORDS ROUND TRIP, AND AN ERROR DECIDES.** What is encoded of a result is parsed to it. Every
    object that is parsed names no field twice, and the result is made of its fields, with defaults
    for those that are missing: it failed exactly if there is an error that is not null, whatever the
    output is, and otherwise it has the output, or an empty one. Every object of such fields is
    parsed so, and whatever is parsed is parsed again of its encoding. -/
theorem records_round_trip :
    (∀ r : PluginResult, parse r.encode.toUTF8 = .ok r) ∧
    (∀ (raw : ByteArray) (r : PluginResult), parse raw = .ok r →
      IsObjectText (Symbol.ofBytes raw) →
      ∃ members, Outlines fieldNames (Symbol.ofBytes raw) members ∧
        Cell.EachOnce fieldNames members ∧ r.IsMadeOf (lastValue? members) ∧
        ((∃ error, r.outcome = .failed error) ↔
          ∃ v, lastValue? members "error" = some v ∧ v ≠ .null) ∧
        (∀ error, r.outcome = .failed error ↔
          lastValue? members "error" = some (.string error)) ∧
        (∀ output, r.outcome = .completed output ↔ IsNothing (lastValue? members "error") ∧
          (lastValue? members "output" = some (.string output) ∨
            IsNothing (lastValue? members "output") ∧ output = ""))) ∧
    (∀ (raw : ByteArray) (members : List (String × Json)),
      Outlines fieldNames (Symbol.ofBytes raw) members → ∀ r : PluginResult,
        (parse raw = .ok r ↔
          Cell.EachOnce fieldNames members ∧ r.IsMadeOf (lastValue? members))) ∧
    (∀ (raw : ByteArray) (r : PluginResult), parse raw = .ok r → parse r.encode.toUTF8 = .ok r) := by
  refine ⟨parse_encode, ?_, fun raw members => parse_of_outlines, fun _ r _ => parse_encode r⟩
  intro raw r hparse hobject
  obtain ⟨members, houtline⟩ := inCells_record.exists_outlines hobject hparse
  obtain ⟨honce, hmade⟩ := (parse_of_outlines houtline r).mp hparse
  exact ⟨members, houtline, honce, hmade, hmade.outcome.exists_failed_iff,
    fun _ => hmade.outcome.failed_iff, fun _ => hmade.outcome.completed_iff⟩

/-- The members of a record with an output and an error, a status in the form of an object, and
    something that nobody knows. -/
def failureMembers : List (String × Json) :=
  [("output", .string "partial"), ("trace", .array [.array [.null]]),
    ("code", .number (.ofInt32 (-7))), ("error", .string "exit code 1"),
    ("status", .object [("Failed", .null)])]

/-- The result of such a record. -/
def failure : PluginResult where
  status := .failed
  code := -7
  outcome := .failed "exit code 1"

/-- All parts apply to such a record: it is parsed to a failure, of which the output is dropped, and
    parsed to the same again of its encoding. -/
theorem records_round_trip_failure :
    ∃ members,
      Outlines fieldNames (Symbol.ofBytes (String.ofList (Json.object failureMembers).render).toUTF8)
        members ∧
      lastValue? members "error" = some (.string "exit code 1") ∧
      parse (String.ofList (Json.object failureMembers).render).toUTF8 = .ok failure ∧
      parse failure.encode.toUTF8 = .ok failure := by
  obtain ⟨hencode, hobject, houtlines, hagain⟩ := records_round_trip
  have hwritten := (written_render (.object failureMembers)).writtenText
  have hparse : parse (String.ofList (Json.object failureMembers).render).toUTF8 = .ok failure := by
    refine (parse_of_writtenText hwritten failure).mpr ⟨?_, ?_⟩
    · unfold Cell.EachOnce
      decide
    · exact ⟨.found (.inr rfl), .found rfl, .failed _ (.inr ⟨_, rfl⟩), .missing, .missing, .missing,
        .missing⟩
  have hbegins := isObjectText_of_value (hwritten.whole_value (Nat.le_succ _))
  obtain ⟨members, houtline, -, -, -, hfailed, -⟩ := hobject _ failure hparse hbegins
  exact ⟨members, houtline, (hfailed "exit code 1").mp rfl,
    (houtlines _ members houtline failure).mpr ((houtlines _ members houtline failure).mp hparse),
    hagain _ failure hparse⟩

end PluginResult

end AgentWire
