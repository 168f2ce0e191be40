import AgentWire.Proofs.Parameters.Exchange
import AgentWire.Proofs.Parameters.Priority
import AgentWire.Proofs.Text.Bytes
import AgentWire.Substitution
import Mathlib.Data.Finset.Card

/-!
# Histories — a set is what was written last under each name

A set is made in steps: values are inserted under a name, a section is read or parameters are
collected, which makes another set of it, or the defaults of a document fill the gaps. What a step
writes under a name (`Writes`) is said of the step and of the set before it. Whatever the steps are,
a name has in the end the values that were written last:

    (run history).get? name = some values
      ↔ history = before ++ step :: after,   step writes the values after before,
          no step of after writes the name or makes another set

1. One step leaves under a name what it writes, or, if it spares the name, what was there
   (`get?_apply`).
2. From any set a history leaves what its last write under a name wrote, or, if all of its steps
   spare the name, what was there (`get?_foldl_apply`).
3. A set is what its names have for values, so sets with the same values are the same, are written
   in the same way and select the same values.
-/

namespace AgentWire.ParameterSet

-- ── Steps ─────────────────────────────────────────────────────────────────────────

/-- A step in the making of a set. -/
inductive Step where
  /-- Values are inserted under a name. -/
  | insert (name : String) (values : List String)
  /-- The section of a message is read. -/
  | read (members : List (String × Json))
  /-- Parameters are collected. -/
  | collect (parameters : List (String × List String))
  /-- The defaults of a document fill the gaps. -/
  | complete (content : Document)

/-- The set after a step. A section that is refused leaves the set that was there. -/
def Step.apply (p : ParameterSet) : Step → ParameterSet
  | .insert name values => p.insert name values
  | .read members =>
    match ofSection members with
    | .ok made => made
    | .error _ => p
  | .collect parameters => ofList parameters
  | .complete content => p.withDefaults content.tree

/-- The set at the end of a history that begins with no parameters. -/
def run (history : List Step) : ParameterSet :=
  history.foldl Step.apply empty

/-- What a step writes under a name, where `p` is the set before it. -/
def Writes (p : ParameterSet) (name : String) : Step → List String → Prop
  | .insert first written, values => name = first ∧ values = written
  | .read members, values => (∃ made, ofSection members = .ok made) ∧
      ∃ value, Json.lastValue? members name = some value ∧ IsDefault value values
  | .collect parameters, values => Json.lastValue? parameters name = some values
  | .complete content, values => p.get? name = none ∧ Declares content.tree name values

/-- A step that makes another set, whatever was there. -/
def Replaces : Step → Prop
  | .read members => ∃ made, ofSection members = .ok made
  | .collect _ => True
  | .insert _ _ | .complete _ => False

/-- A step that neither makes another set nor writes anything under a name. -/
def Spares (p : ParameterSet) (name : String) (step : Step) : Prop :=
  ¬Replaces step ∧ ∀ values, ¬Writes p name step values

/-- All steps of a history that begins with a set spare a name. -/
def SparedBy (name : String) : ParameterSet → List Step → Prop
  | _, [] => True
  | p, step :: rest => Spares p name step ∧ SparedBy name (step.apply p) rest

variable {p : ParameterSet} {name other : String} {values more : List String}

-- ── One step ──────────────────────────────────────────────────────────────────────

/-- A step that makes no other set and writes nothing under a name leaves what was there. -/
theorem iff_of_spares {q : Prop} {step : Step} (h : Spares p name step)
    (hsame : q ↔ p.get? name = some values) :
    q ↔ Writes p name step values ∨ Spares p name step ∧ p.get? name = some values := by
  rw [hsame]
  constructor
  · exact fun hget => .inr ⟨h, hget⟩
  · rintro (hwrites | ⟨-, hget⟩)
    · exact absurd hwrites (h.2 values)
    · exact hget

/-- A step that makes another set leaves what it writes. -/
theorem iff_of_replaces {q : Prop} {step : Step} (h : Replaces step)
    (hwrites : q ↔ Writes p name step values) :
    q ↔ Writes p name step values ∨ Spares p name step ∧ p.get? name = some values := by
  rw [hwrites]
  constructor
  · exact .inl
  · rintro (hwrites | ⟨⟨hnot, -⟩, -⟩)
    · exact hwrites
    · exact absurd h hnot

/-- **A step leaves under a name what it writes**, and where it spares the name what was there. -/
theorem get?_apply {step : Step} : (step.apply p).get? name = some values ↔
    Writes p name step values ∨ Spares p name step ∧ p.get? name = some values := by
  cases step with
  | insert first written =>
      have hget : (Step.apply p (.insert first written)).get? name =
          if name = first then some written else p.get? name := get?_insert p first name written
      by_cases hname : name = first
      · rw [hget, if_pos hname]
        constructor
        · rintro ⟨⟩
          exact .inl ⟨hname, rfl⟩
        · rintro (⟨-, rfl⟩ | ⟨⟨-, hnot⟩, -⟩)
          · rfl
          · exact absurd ⟨hname, rfl⟩ (hnot written)
      · refine iff_of_spares ⟨not_false, fun others h => hname h.1⟩ ?_
        rw [hget, if_neg hname]
  | read members =>
      cases hsection : ofSection members with
      | error cause =>
          -- a section that is refused leaves the set as it was
          have hnot : ¬∃ made, ofSection members = .ok made := by simp [hsection]
          refine iff_of_spares ⟨hnot, fun others h => hnot h.1⟩ ?_
          rw [Step.apply, hsection]
      | ok made =>
          -- a section that is read makes a set of its own, with nothing of the one before
          refine iff_of_replaces ⟨made, hsection⟩ ?_
          have hget := (get?_of_readSection hsection).2 name
          rw [show empty.get? name = none from rfl, Option.or_none] at hget
          rw [Step.apply, hsection]
          show made.get? name = some values ↔ (∃ made, _) ∧ ∃ value, _
          rw [hget, Option.bind_eq_some_iff]
          simp only [defaultValues?_eq_some_iff]
          exact (and_iff_right ⟨made, hsection⟩).symm
  | collect parameters =>
      refine iff_of_replaces trivial ?_
      show (NameMap.ofList parameters).get? name = some values ↔ Json.lastValue? parameters name = _
      rw [NameMap.get?_ofList]
  | complete content =>
      -- a default is written only where nothing was, so the name cannot be spared and written
      have hget := get?_withDefaults content.distinct p name values
      refine hget.trans ⟨?_, ?_⟩
      · rintro (hthere | hwrites)
        · refine .inr ⟨⟨not_false, fun others hwrites => ?_⟩, hthere⟩
          exact nomatch hthere.symm.trans hwrites.1
        · exact .inl hwrites
      · rintro (hwrites | ⟨-, hthere⟩)
        · exact .inr hwrites
        · exact .inl hthere

-- ── Whole histories ───────────────────────────────────────────────────────────────

/-- From the set `p`, the last step of a history that writes a name writes these values, and no
    later step makes another set. -/
def WritesLast (p : ParameterSet) (name : String) (history : List Step) (values : List String) :
    Prop :=
  ∃ before step after, history = before ++ step :: after ∧
    Writes (before.foldl Step.apply p) name step values ∧
      SparedBy name ((before ++ [step]).foldl Step.apply p) after

theorem writesLast_cons_iff {step : Step} {rest : List Step} :
    WritesLast p name (step :: rest) values ↔
      Writes p name step values ∧ SparedBy name (step.apply p) rest ∨
        WritesLast (step.apply p) name rest values := by
  constructor
  · rintro ⟨before, last, after, hsplit, hwrites, hspared⟩
    cases before with
    | nil =>
        cases hsplit
        exact .inl ⟨hwrites, hspared⟩
    | cons first before =>
        cases hsplit
        exact .inr ⟨before, last, after, rfl, hwrites, hspared⟩
  · rintro (⟨hwrites, hspared⟩ | ⟨before, last, after, rfl, hwrites, hspared⟩)
    · exact ⟨[], step, rest, rfl, hwrites, hspared⟩
    · exact ⟨step :: before, last, after, rfl, hwrites, hspared⟩

/-- **A history leaves under a name what was written last**, and where all of its steps spare the
    name what was there. -/
theorem get?_foldl_apply {history : List Step} :
    (history.foldl Step.apply p).get? name = some values ↔
      WritesLast p name history values ∨
        SparedBy name p history ∧ p.get? name = some values := by
  induction history generalizing p with
  | nil => simp [WritesLast, SparedBy]
  | cons step rest ih =>
      rw [List.foldl_cons, ih, get?_apply, writesLast_cons_iff, SparedBy]
      tauto

/-- **What a set has under a name is what was written there last.** -/
theorem get?_run {history : List Step} :
    (run history).get? name = some values ↔ WritesLast empty name history values := by
  rw [run, get?_foldl_apply]
  simp [empty, get?]

/-- A set lists a parameter exactly if it has the values of the parameter under its name. -/
theorem mem_toList_iff : (name, values) ∈ p.toList ↔ p.get? name = some values :=
  NameMap.get?_eq_some_iff.symm

/-- A set has as many parameters as there are names with values. -/
theorem exists_card_eq_size (p : ParameterSet) : ∃ names : Finset String,
    (∀ name, name ∈ names ↔ ∃ values, p.get? name = some values) ∧ p.size = names.card := by
  refine ⟨p.values.names.toFinset, ?_, ?_⟩
  · intro name
    rw [List.mem_toFinset, NameMap.mem_names_iff, NameMap.contains_iff]
    rfl
  · have hnodup : p.values.names.Nodup := NameMap.nodup_names p.values.ascending
    rw [List.toFinset_card_of_nodup hnodup, NameMap.names, List.length_map]
    rfl

/-- The text of a set is that of its section, in the order of the bytes of the names. -/
theorem spells_compact (p : ParameterSet) :
    Json.Spells (Symbol.ofBytes p.toJson.compact.toUTF8) (.object p.sectionMembers) ∧
      (Json.names p.sectionMembers).Pairwise fun a b => bytesOf a < bytesOf b := by
  constructor
  · have hinner : p.toJson.depth ≤ 2 := Nat.succ_le_succ p.depthMembers_sectionMembers_le
    exact (Json.written_render p.toJson).writtenText.spells (Nat.le_trans hinner (by decide))
  · exact p.pairwise_names_sectionMembers.imp bytesOf_lt_iff.mpr

/-- Values that are inserted one after the other under different names can be inserted in the other
    order. -/
theorem run_insert_comm (h : name ≠ other) (before after : List Step) :
    run (before ++ .insert name values :: .insert other more :: after) =
      run (before ++ .insert other more :: .insert name values :: after) := by
  have hcomm := congrArg ParameterSet.mk
    (NameMap.insert_comm h (before.foldl Step.apply empty).values values more)
  rw [run, run, List.foldl_append, List.foldl_append]
  exact congrArg (after.foldl Step.apply) hcomm

/-- **A SET IS WHAT WAS WRITTEN LAST UNDER EACH NAME**, whatever the steps that made it. It has as
    many parameters as there are names that something was written under, lists each of them once in
    the order of the bytes, and is written as text in this order. Values under different names can
    be inserted in any order, and sets that end with the same values are the same set, are written
    as the same text, and are put in the place of references alike. -/
theorem histories_make_maps :
    (∀ (history : List Step) (name : String) (values : List String),
      (run history).get? name = some values ↔
        ∃ before step after, history = before ++ step :: after ∧
          Writes (run before) name step values ∧ SparedBy name (run (before ++ [step])) after) ∧
    (∀ history : List Step, (∃ names : Finset String,
      (∀ name, name ∈ names ↔ ∃ values, (run history).get? name = some values) ∧
        (run history).size = names.card) ∧
      ((run history).isEmpty = true ↔ (run history).size = 0)) ∧
    (∀ history : List Step,
      (∀ name values, (name, values) ∈ (run history).toList ↔
        (run history).get? name = some values) ∧
      (Json.names (run history).toList).Pairwise (fun a b => bytesOf a < bytesOf b) ∧
      ∃ written, Json.Spells (Symbol.ofBytes (run history).toJson.compact.toUTF8)
          (.object written) ∧
        written = (run history).toList.map (fun parameter =>
          (parameter.1, .array (parameter.2.map .string))) ∧
        (Json.names written).Pairwise fun a b => bytesOf a < bytesOf b) ∧
    (∀ (before after : List Step) (name other : String) (values more : List String), name ≠ other →
      run (before ++ .insert name values :: .insert other more :: after) =
        run (before ++ .insert other more :: .insert name values :: after)) ∧
    (∀ first second : List Step,
      (∀ name, (run first).get? name = (run second).get? name) →
        run first = run second ∧ (run first).toJson.compact = (run second).toJson.compact ∧
          (∀ text, (run first).substituteText text = (run second).substituteText text) ∧
            ∀ content : Document,
              content.substitute (run first) = content.substitute (run second)) := by
  refine ⟨?_, ?_, ?_, ?_, ?_⟩
  · intro history name values
    exact get?_run
  · intro history
    exact ⟨(run history).exists_card_eq_size, NameMap.isEmpty_iff_size_eq_zero⟩
  · intro history
    obtain ⟨hspells, hpairwise⟩ := (run history).spells_compact
    refine ⟨fun name values => mem_toList_iff, ?_, _, hspells, rfl, hpairwise⟩
    rw [names_sectionMembers] at hpairwise
    exact hpairwise
  · intro before after name other values more h
    exact run_insert_comm h before after
  · intro first second h
    have hsame : run first = run second := by
      refine ext_get? ?_
      intro name values
      rw [h name]
    rw [hsame]
    exact ⟨rfl, rfl, fun _ => rfl, fun _ => rfl⟩

/-- A history with a section that is refused, gaps that are filled, and a name that is written
    again. -/
def mixedHistory : List Step :=
  [.insert "lost" ["0"], .collect [("é", ["1"]), ("b", ["2"]), ("b", [])],
    .read [("é", .string "3"), ("bad", .null)],
    .complete (declaring [("b", .object [("default", .string "4")]),
      ("z", .object [("default", .string "5")])]),
    .insert "é" ["6"]]

/-- What is replaced is gone, of two pairs with one name the last counts, a value that is there wins
    over a default, a section that is refused writes nothing, and the order of the insertions at the
    end does not matter. -/
theorem histories_make_maps_mixed :
    (run mixedHistory).get? "lost" = none ∧ (run mixedHistory).get? "b" = some [] ∧
    (∃ before step after, mixedHistory = before ++ step :: after ∧
      Writes (run before) "z" step ["5"] ∧ SparedBy "z" (run (before ++ [step])) after) ∧
    (run mixedHistory).toList = [("b", []), ("z", ["5"]), ("é", ["6"])] ∧
    run (mixedHistory ++ [.insert "y" ["7"], .insert "x" ["8"]]) =
      run (mixedHistory ++ [.insert "x" ["8"], .insert "y" ["7"]]) ∧
    (run mixedHistory).toJson.compact =
      (run [.insert "é" ["6"], .insert "z" ["5"], .insert "b" []]).toJson.compact := by
  obtain ⟨hget, -, -, hcomm, hsame⟩ := histories_make_maps
  have hlist : (run mixedHistory).toList =
      (run [.insert "é" ["6"], .insert "z" ["5"], .insert "b" []]).toList := by decide +kernel
  refine ⟨by decide +kernel, by decide +kernel, (hget _ _ _).mp (by decide +kernel),
    by decide +kernel, hcomm mixedHistory [] "y" "x" ["7"] ["8"] (by decide), ?_⟩
  refine (hsame _ _ ?_).2.1
  intro name
  exact congrArg (List.lookup name) hlist

end AgentWire.ParameterSet
