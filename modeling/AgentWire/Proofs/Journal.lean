import AgentWire.Plugin.RuntimeStatus
import AgentWire.Proofs.Command.Resolution
import AgentWire.Proofs.Parameters.History

/-!
# Journals — what is noted tells how a call went, and never changes it

A call that may fail notes one warning if it does, as the last of its events, and none if it does
not (`WarnsOfFault`). Of a message that is resolved three things are noted: what was decoded, how
many parameters the defaults of its document added, if they added any, and whether its references
were resolved. Of plugin results one warning is noted for each that failed, in the order of the
names of the plugins:

    events of results  =  warnings of the plugins that failed, in the order of their names

Where the events of a call go is the choice of its log, and each recipient gets all of them or none.
A call for every plugin, one after the other, each with the log, leaves in the journal what one call
for all of them leaves.
-/

namespace AgentWire

open Command

-- ── Warnings ──────────────────────────────────────────────────────────────────────

/-- A call notes one warning if it fails, as its last event and with the fault in it, and none if it
    succeeds. -/
def Traced.WarnsOfFault {α : Type} (call : Traced (Except Fault α)) : Prop :=
  match call.result with
  | .ok _ => ∀ event ∈ call.events, event.level ≠ .warn
  | .error fault => ∃ before last, call.events = before ++ [last] ∧ last.level = .warn ∧
      ("error", fault.message) ∈ last.fields ∧ ∀ event ∈ before, event.level ≠ .warn

namespace Command

/-- What is noted of a command at the end: whether its references were resolved. -/
def resolutionEvent (c : Command) : Event :=
  match c.resolve with
  | .error fault => .unresolved c.id fault
  | .ok _ => .resolved c.id

variable {raw : ByteArray} {c : Command} {fault : Fault}

theorem decodeTraced_of_error (h : decode raw = .error fault) :
    decodeTraced raw = ⟨.error fault, [.rejected fault raw.size]⟩ := by
  rw [decodeTraced, h]

theorem decodeTraced_of_ok (h : decode raw = .ok c) : decodeTraced raw = ⟨.ok c, []⟩ := by
  rw [decodeTraced, h]

theorem parseTraced_of_error (h : decode raw = .error fault) :
    parseTraced raw = ⟨.error fault, [.rejected fault raw.size]⟩ := by
  rw [parseTraced, h]

/-- **Of a message that is decoded three things are noted**, the second only if there is something
    to it. -/
theorem parseTraced_of_ok (h : decode raw = .ok c) :
    parseTraced raw = ⟨c.resolve,
      .decoded c.id c.documentName c.parameters.size :: c.completionEvents ++
        [c.resolutionEvent]⟩ := by
  rw [parseTraced, h, resolutionEvent]
  dsimp only
  cases c.resolve with
  | error fault => rfl
  | ok resolved => rfl

theorem level_ne_warn_of_mem_completionEvents {event : Event} (h : event ∈ c.completionEvents) :
    event.level ≠ .warn := by
  rw [completionEvents] at h
  split at h
  · rw [List.mem_singleton.mp h]
    exact nofun
  · exact nomatch h

/-- A message that is not decoded is warned of, and nothing else is noted. -/
theorem warnsOfFault_rejected {α : Type} (fault : Fault) (bytes : Nat) :
    (⟨.error fault, [.rejected fault bytes]⟩ : Traced (Except Fault α)).WarnsOfFault := by
  refine ⟨[], .rejected fault bytes, rfl, rfl, List.mem_cons_self, ?_⟩
  intro event hmem
  exact absurd hmem List.not_mem_nil

theorem warnsOfFault_decodeTraced (raw : ByteArray) : (decodeTraced raw).WarnsOfFault := by
  cases h : decode raw with
  | error fault =>
      rw [decodeTraced_of_error h]
      exact warnsOfFault_rejected fault raw.size
  | ok c =>
      rw [decodeTraced_of_ok h]
      intro event hmem
      exact absurd hmem List.not_mem_nil

/-- **A message that is refused is warned of once, at the end.** -/
theorem warnsOfFault_parseTraced (raw : ByteArray) : (parseTraced raw).WarnsOfFault := by
  cases h : decode raw with
  | error fault =>
      rw [parseTraced_of_error h]
      exact warnsOfFault_rejected fault raw.size
  | ok c =>
      have hbefore : ∀ event ∈ .decoded c.id c.documentName c.parameters.size :: c.completionEvents,
          event.level ≠ .warn := by
        refine List.forall_mem_cons.mpr ⟨nofun, ?_⟩
        exact fun event hmem => level_ne_warn_of_mem_completionEvents hmem
      rw [parseTraced_of_ok h, resolutionEvent]
      cases hresolve : c.resolve with
      | error fault => exact ⟨_, _, rfl, rfl, by simp [Event.fields], hbefore⟩
      | ok resolved => exact List.forall_mem_append.mpr ⟨hbefore, by simp [Event.level]⟩

-- ── Parameters that are added ─────────────────────────────────────────────────────

/-- The names under which the defaults of its document give a command values. -/
def AddedTo (c : Command) (names : Finset String) : Prop :=
  ∀ name, name ∈ names ↔ c.parameters.get? name = none ∧
    ∃ values, c.completedParameters.get? name = some values

/-- **A set grows by the names that are added to it.** -/
theorem exists_addedTo (c : Command) : ∃ added, c.AddedTo added ∧
    c.parameters.size + added.card = c.completedParameters.size := by
  obtain ⟨sent, hsent, hsize⟩ := c.parameters.exists_card_eq_size
  obtain ⟨completed, hcompleted, hgrown⟩ := c.completedParameters.exists_card_eq_size
  have hsubset : sent ⊆ completed := by
    intro name hmem
    obtain ⟨values, hvalues⟩ := (hsent name).mp hmem
    exact (hcompleted name).mpr ⟨values, ParameterSet.get?_withDefaults_of_some hvalues _⟩
  refine ⟨completed \ sent, ?_, ?_⟩
  · intro name
    rw [Finset.mem_sdiff, hsent, hcompleted, ← Option.isSome_iff_exists, ← Option.isSome_iff_exists,
      Option.not_isSome_iff_eq_none, and_comm]
  · rw [hsize, hgrown, add_comm]
    exact Finset.card_sdiff_add_card_eq_card hsubset

/-- What is noted of completing a set is the number of names that are added, if there are any. -/
theorem completionEvents_eq {added : Finset String}
    (h : c.parameters.size + added.card = c.completedParameters.size) :
    c.completionEvents = if 0 < added.card then [.defaulted c.id added.card] else [] := by
  have hadded : c.completedParameters.size - c.parameters.size = added.card := by omega
  have hgrown : c.parameters.size < c.completedParameters.size ↔ 0 < added.card := by omega
  rw [completionEvents, hadded]
  simp only [hgrown]

/-- **What is noted of a message that is decoded**, with the number of names that are added. -/
theorem exists_events_parseTraced (h : decode raw = .ok c) : ∃ added, c.AddedTo added ∧
    c.parameters.size + added.card = c.completedParameters.size ∧
    (parseTraced raw).events = .decoded c.id c.documentName c.parameters.size ::
      (if 0 < added.card then [.defaulted c.id added.card] else []) ++ [c.resolutionEvent] := by
  obtain ⟨added, hadded, hsize⟩ := c.exists_addedTo
  refine ⟨added, hadded, hsize, ?_⟩
  rw [parseTraced_of_ok h, completionEvents_eq hsize]

/-- Defaults are noted exactly if they add a name. -/
theorem exists_defaults_noted_iff (h : decode raw = .ok c) :
    (∃ event ∈ (parseTraced raw).events,
      event.message = "filled parameters from document defaults") ↔
    ∃ name values, c.parameters.get? name = none ∧
      c.completedParameters.get? name = some values := by
  obtain ⟨added, hadded, -, hevents⟩ := exists_events_parseTraced h
  -- how the substitution ends is told in other words
  have hlast : c.resolutionEvent.message ≠ "filled parameters from document defaults" := by
    rw [resolutionEvent]
    cases c.resolve with
    | error fault => show "parameter substitution failed" ≠ _; decide
    | ok resolved => show "resolved document parameters" ≠ _; decide
  have hnonempty : 0 < added.card ↔ ∃ name values, c.parameters.get? name = none ∧
      c.completedParameters.get? name = some values := by
    rw [Finset.card_pos]
    constructor
    · rintro ⟨name, hmem⟩
      obtain ⟨hnone, values, hvalues⟩ := (hadded name).mp hmem
      exact ⟨name, values, hnone, hvalues⟩
    · rintro ⟨name, values, hnone, hvalues⟩
      exact ⟨name, (hadded name).mpr ⟨hnone, values, hvalues⟩⟩
  rw [hevents, ← hnonempty]
  by_cases hpositive : 0 < added.card
  · rw [if_pos hpositive]
    exact iff_of_true ⟨.defaulted c.id added.card, by simp, rfl⟩ hpositive
  · -- the events left are the first and the last, and neither is about defaults
    rw [if_neg hpositive]
    refine iff_of_false ?_ hpositive
    rintro ⟨event, hmem, hmessage⟩
    rcases List.mem_cons.mp hmem with rfl | hmem
    · exact absurd hmessage (by simp [Event.message])
    · rw [List.mem_singleton.mp hmem] at hmessage
      exact hlast hmessage

end Command

-- ── Plugins ───────────────────────────────────────────────────────────────────────

namespace RuntimeStatus

/-- An event warns that a plugin failed, and says how. -/
def WarnsOf (plugin : String × PluginResult) (event : Event) : Prop :=
  event.level = .warn ∧ ∃ error, plugin.2.outcome = .failed error ∧
    event = .pluginFailed plugin.2.status plugin.2.code error

/-- The plugins that failed, in the order of their names. -/
def failedPlugins (results : NameMap PluginResult) : List (String × PluginResult) :=
  results.entries.filter fun plugin => plugin.2.outcome.error?.isSome

theorem mem_failedPlugins_iff {results : NameMap PluginResult} {plugin : String}
    {r : PluginResult} : (plugin, r) ∈ failedPlugins results ↔
      results.get? plugin = some r ∧ ∃ error, r.outcome = .failed error := by
  rw [failedPlugins, List.mem_filter, NameMap.get?_eq_some_iff]
  refine and_congr_right fun _ => ?_
  cases r.outcome with
  | completed output => simp [Outcome.error?]
  | failed error => simp [Outcome.error?]

theorem pairwise_failedPlugins (results : NameMap PluginResult) :
    (Json.names (failedPlugins results)).Pairwise fun a b => bytesOf a < bytesOf b := by
  refine List.pairwise_map.mpr ?_
  exact (results.ascending.filter _).imp bytesOf_lt_iff.mpr

/-- **One warning for each plugin that failed**, in the order of the plugins. -/
theorem forall₂_warnsOf (plugins : List (String × PluginResult)) :
    List.Forall₂ WarnsOf (plugins.filter fun plugin => plugin.2.outcome.error?.isSome)
      ((plugins.map (·.2)).flatMap eventsOf) := by
  induction plugins with
  | nil => exact .nil
  | cons plugin rest ih =>
      rw [List.map_cons, List.flatMap_cons, eventsOf]
      cases houtcome : plugin.2.outcome with
      | completed output =>
          rw [List.filter_cons_of_neg (by simp [houtcome, Outcome.error?])]
          exact ih
      | failed error =>
          rw [List.filter_cons_of_pos (by simp [houtcome, Outcome.error?])]
          exact .cons ⟨rfl, error, houtcome, rfl⟩ ih

end RuntimeStatus

-- ── Recipients ────────────────────────────────────────────────────────────────────

/-- What each recipient got of two calls, one after the other. -/
def Journal.append (first second : Journal) : Journal :=
  ⟨first.own ++ second.own, first.ambient ++ second.ambient⟩

theorem Destination.deliver_append (first second : List Event) (log : Destination) :
    log.deliver (first ++ second) = (log.deliver first).append (log.deliver second) := by
  cases log <;> rfl

/-- **Calls for one plugin after the other leave in the journal what one call for all leaves.** -/
theorem RuntimeStatus.scope_ofResultsTraced (log : MessageLog) (results : NameMap PluginResult) :
    (log.scope (ofResultsTraced results)).2 =
      (results.values.map fun r => (log.scope (ofResultTraced r)).2).foldr Journal.append
        ⟨[], []⟩ := by
  show log.destination.deliver (results.values.flatMap eventsOf) = _
  induction results.values with
  | nil => cases log.destination <;> rfl
  | cons r rest ih =>
      rw [List.flatMap_cons, Destination.deliver_append, ih]
      rfl

/-- **EVENTS MATCH RESULTS AND NEVER CHANGE THEM.** With any log a call has the result that it has
    without one. A message that is refused is warned of once, at the end, and one that is accepted
    is not warned of. Defaults are noted exactly if they add a name, with the number of names that
    they add, which is positive and which the set grows by. Of plugin results one warning is noted
    for each that failed, in the order of the bytes of the names, and nothing for the others, as in
    a call for one plugin after the other. All events of a call go to the recipient of a log that
    has one, to whoever listens by default if the log has no dispatcher, and otherwise nowhere. -/
theorem events_match_results :
    (∀ (log : MessageLog) (raw : ByteArray), (log.scope (decodeTraced raw)).1 = decode raw ∧
      (log.scope (parseTraced raw)).1 = parse raw) ∧
    (∀ (log : MessageLog) (r : PluginResult) (results : NameMap PluginResult),
      (log.scope (RuntimeStatus.ofResultTraced r)).1 = .ofResult r ∧
      (log.scope (RuntimeStatus.ofResultsTraced results)).1 = RuntimeStatus.ofResults results) ∧
    (∀ raw : ByteArray, (decodeTraced raw).WarnsOfFault ∧ (parseTraced raw).WarnsOfFault) ∧
    (∀ (raw : ByteArray) (c : Command), decode raw = .ok c →
      ((∃ event ∈ (parseTraced raw).events,
        event.message = "filled parameters from document defaults") ↔
          ∃ name values, c.parameters.get? name = none ∧
            c.completedParameters.get? name = some values) ∧
      ∃ added : Finset String, (∀ name, name ∈ added ↔ c.parameters.get? name = none ∧
          ∃ values, c.completedParameters.get? name = some values) ∧
        c.parameters.size + added.card = c.completedParameters.size ∧
        (parseTraced raw).events = .decoded c.id c.documentName c.parameters.size ::
          (if 0 < added.card then [.defaulted c.id added.card] else []) ++ [c.resolutionEvent] ∧
        (Event.defaulted c.id added.card).fields =
          [("command_id", c.id), ("defaults", Event.countText added.card)]) ∧
    (∀ (raw : ByteArray) (fault : Fault), decode raw = .error fault →
      (decodeTraced raw).events = [.rejected fault raw.size] ∧
      (parseTraced raw).events = [.rejected fault raw.size]) ∧
    (∀ results : NameMap PluginResult, ∃ failed : List (String × PluginResult),
      (∀ plugin r, (plugin, r) ∈ failed ↔
        results.get? plugin = some r ∧ ∃ error, r.outcome = .failed error) ∧
      (Json.names failed).Pairwise (fun a b => bytesOf a < bytesOf b) ∧
      List.Forall₂ RuntimeStatus.WarnsOf failed (RuntimeStatus.ofResultsTraced results).events) ∧
    (∀ (log : MessageLog) (results : NameMap PluginResult),
      (log.scope (RuntimeStatus.ofResultsTraced results)).2 =
        (results.values.map fun r =>
          (log.scope (RuntimeStatus.ofResultTraced r)).2).foldr Journal.append ⟨[], []⟩) ∧
    (∀ {α : Type} (call : Traced α),
      ((MessageLog.new .recipient).scope call).2 = ⟨call.events, []⟩ ∧
      ((MessageLog.ofDispatcher .recipient).scope call).2 = ⟨call.events, []⟩ ∧
      (MessageLog.disabled.scope call).2 = ⟨[], []⟩ ∧
      (MessageLog.current.scope call).2 = ⟨[], call.events⟩ ∧
      ((default : MessageLog).scope call).2 = ⟨[], call.events⟩) := by
  refine ⟨?_, ?_, ?_, ?_, ?_, ?_, ?_, ?_⟩
  · intro log raw
    exact ⟨fst_sendTo_decodeTraced raw log.destination, fst_sendTo_parseTraced raw log.destination⟩
  · intro log r results
    exact ⟨rfl, rfl⟩
  · intro raw
    exact ⟨warnsOfFault_decodeTraced raw, warnsOfFault_parseTraced raw⟩
  · intro raw c h
    obtain ⟨added, hadded, hsize, hevents⟩ := exists_events_parseTraced h
    exact ⟨exists_defaults_noted_iff h, added, hadded, hsize, hevents, rfl⟩
  · intro raw fault h
    rw [decodeTraced_of_error h, parseTraced_of_error h]
    exact ⟨rfl, rfl⟩
  · intro results
    exact ⟨RuntimeStatus.failedPlugins results, fun _ _ => RuntimeStatus.mem_failedPlugins_iff,
      RuntimeStatus.pairwise_failedPlugins results, RuntimeStatus.forall₂_warnsOf results.entries⟩
  · intro log results
    exact RuntimeStatus.scope_ofResultsTraced log results
  · intro α call
    exact ⟨rfl, rfl, rfl, rfl, rfl⟩

/-- A greeting whose document gives one of its two parameters a default is refused for the other:
    the default is noted, and the refusal is warned of. A message without a text is refused at
    once. -/
theorem events_match_results_greeting :
    decode (greeting .empty).encode.toUTF8 = .ok (greeting .empty) ∧
    (parseTraced (greeting .empty).encode.toUTF8).events =
      [.decoded "1" "" 0, .defaulted "1" 1, .unresolved "1" (.unresolved "say" "{{ say }}")] ∧
    (parseTraced ByteArray.empty).events =
      [.rejected (.malformed (.notJson (.text .endInValue))) 0] := by
  obtain ⟨-, -, -, hdecoded, hrefused, -, -, -⟩ := events_match_results
  have hdecode := (sendable_greeting .empty).decode_encode
  refine ⟨hdecode, ?_, (hrefused .empty _ (by decide +kernel)).2⟩
  obtain ⟨-, added, -, hsize, hevents, -⟩ := hdecoded _ _ hdecode
  have hsent : (greeting .empty).parameters.size = 0 := rfl
  have hcompleted : (greeting .empty).completedParameters.size = 1 := by
    rw [completedParameters_greeting_empty]
    rfl
  have hcard : added.card = 1 := by omega
  have hline : (ParameterSet.ofList [("who", ["you"])]).substituteText greetingLine =
      .error (.unresolved "say" "{{ say }}") := by cbv
  have hparse := parse_greeting_eq_error completedParameters_greeting_empty hline
  rw [parse_of_decode hdecode] at hparse
  rw [hevents, hcard, hsent, resolutionEvent, hparse]
  rfl

end AgentWire
