import Choreo.Protocols.ToolCallLimits

/-!
# The ids of the tool calls that reach the agent loop

The agent loop finds the call of a result by its id. The OpenAI adapters take the ids from optional
fields: a fragment of a chat completion may have none, and an event of the Responses protocol
without `call_id` is read with the empty id (`parse_responses_stream_event` of
`choreo-ai-protocols/src/openai/sse.rs`), although its documentation says that this is an error.
Whole answers are handed over with whatever ids they have.
-/

namespace Choreo

open List

/-- Calls with ids that are not empty and pairwise distinct. -/
def Identified (calls : List ChatToolCall) : Prop :=
  (∀ call ∈ calls, call.id ≠ "") ∧ (calls.map (·.id)).Nodup

/-- The calls of an answer that the agent loop gets; none of a rejected one. -/
def handedOver {ε : Type} : Except ε ChatTurnResult → List ChatToolCall
  | .ok result => result.toolCalls
  | .error _ => []

theorem identified_nil : Identified [] := ⟨fun _ h => absurd h not_mem_nil, nodup_nil⟩

namespace ChatCompletions

variable {Value : Type} (serde : SerdeJson Value)

/-! ### Chat completions -/

def keptCalls (message : AssistantMessage) : List AssistantToolCall :=
  message.toolCalls.filter fun call => (serde.fromStr call.arguments).isSome

def keptIndices (deltas : List StreamToolCallDelta) : Finset ℕ :=
  (callIndices deltas).filter fun index => (serde.fromStr (argumentsAt deltas index)).isSome

/-- The id of the call at an index: the last one that its fragments have, or the empty text. -/
def idAt (deltas : List StreamToolCallDelta) (index : ℕ) : String :=
  ((ownDeltas index deltas).filterMap (·.id)).getLast?.getD ""

theorem handedOver_responseToTurn (message : AssistantMessage) (others : List AssistantMessage)
    (usage : Option TokenUsage) :
    handedOver (responseToTurn serde (message :: others) usage) =
      (keptCalls serde message).map toChatToolCall := by
  have hvalid : validCalls serde (message.toolCalls.map toChatToolCall) =
      (keptCalls serde message).map toChatToolCall := by
    rw [validCalls, validateToolCallArguments, partition_eq_filter_filter, filter_map]
    rfl
  by_cases hfails : message.toolCalls = [] ∧ trim (message.content.getD "") = ""
  · rw [responseToTurn_eq_error serde others usage hfails, keptCalls, hfails.1]
    rfl
  · rw [responseToTurn_eq_ok serde others usage hfails, ← hvalid]
    split_ifs with hnil
    · exact hnil.symm
    · rfl

theorem toolDeltas_eq_nil {deltas : List StreamDelta}
    (h : deltas.any StreamDelta.isOutput = false) : toolDeltas deltas = [] := by
  refine flatMap_eq_nil_iff.2 fun delta hdelta => ?_
  have hsilent := any_eq_false.1 h delta hdelta
  rcases hcalls : delta.toolCalls with - | calls
  · rfl
  · simp [StreamDelta.isOutput, hcalls] at hsilent

theorem handedOver_streamedTurn {chunks : List StreamResponse} {s : StreamAccumulator}
    (hs : chunks.foldlM StreamAccumulator.apply {} = .ok s) :
    ∃ order : List ℕ, order.Nodup ∧
      order.toFinset = keptIndices serde (toolDeltas (deltasOf chunks)) ∧
      handedOver (streamedTurn serde chunks) =
        order.map (callAt (toolDeltas (deltasOf chunks))) := by
  have houtcome := reads_nil.outcome_chunks (index_lt_of_chunks hs)
  rw [hs] at houtcome
  obtain ⟨order, hsorted, hset, hcalls⟩ :=
    accumulateToolCalls_eq_map (toolDeltas (deltasOf chunks))
  have hvalid : validCalls serde (accumulateToolCallsFromDeltas s.rawToolCallDeltas) =
      (order.filter fun index =>
        (serde.fromStr (argumentsAt (toolDeltas (deltasOf chunks)) index)).isSome).map
          (callAt (toolDeltas (deltasOf chunks))) := by
    rw [houtcome.2.tools.raw_eq, nil_append, hcalls, validCalls, validateToolCallArguments,
      partition_eq_filter_filter, filter_map]
    rfl
  have hturn : streamedTurn serde chunks = s.intoTurnResult serde := by
    rw [streamedTurn, hs]
    rfl
  refine ⟨_, (hsorted.imp Nat.ne_of_lt).filter _, ?_, Eq.trans ?_ hvalid⟩
  · rw [toFinset_filter, hset]
    rfl
  · rw [hturn]
    rcases houtput : s.hasAnyOutput with - | -
    · have hnone : s.rawToolCallDeltas = [] := by
        rw [houtcome.2.tools.raw_eq]
        exact toolDeltas_eq_nil (houtcome.2.texts.output_eq.symm.trans houtput)
      rw [intoTurnResult_eq_error serde houtput, hnone]
      rfl
    · rw [intoTurnResult_eq_ok serde houtput]
      split_ifs with hnil
      · exact hnil.symm
      · rfl

theorem identified_responseToTurn_iff (choices : List AssistantMessage)
    (usage : Option TokenUsage) :
    Identified (handedOver (responseToTurn serde choices usage)) ↔
      ∀ message ∈ choices.head?, (∀ call ∈ keptCalls serde message, call.id ≠ "") ∧
        ((keptCalls serde message).map (·.id)).Nodup := by
  rcases choices with - | ⟨message, others⟩
  · exact iff_of_true identified_nil fun message h => by cases h
  · rw [handedOver_responseToTurn, Identified, map_map, forall_mem_map, List.head?_cons]
    simp only [Option.mem_some_iff, forall_eq']
    rfl

/-- The calls of a stream that is accumulated are identified exactly if those with valid arguments
have ids that differ. -/
theorem identified_streamedTurn_iff (chunks : List StreamResponse) :
    Identified (handedOver (streamedTurn serde chunks)) ↔
      ((∀ tool ∈ toolDeltas (deltasOf chunks), tool.index < maxToolCalls) ∧
          BelowLimit (toolDeltas (deltasOf chunks)) →
        (∀ index ∈ keptIndices serde (toolDeltas (deltasOf chunks)),
          idAt (toolDeltas (deltasOf chunks)) index ≠ "") ∧
        ∀ i ∈ keptIndices serde (toolDeltas (deltasOf chunks)),
          ∀ j ∈ keptIndices serde (toolDeltas (deltasOf chunks)),
            idAt (toolDeltas (deltasOf chunks)) i = idAt (toolDeltas (deltasOf chunks)) j →
              i = j) := by
  rw [← foldlM_apply_eq_ok_iff]
  rcases hs : chunks.foldlM StreamAccumulator.apply {} with error | s
  · have hturn : streamedTurn serde chunks = .error error := by
      rw [streamedTurn, hs]
      rfl
    rw [hturn]
    refine iff_of_true identified_nil ?_
    rintro ⟨_, hok⟩
    cases hok
  · obtain ⟨order, hnodup, hset, hcalls⟩ := handedOver_streamedTurn serde hs
    rw [hcalls, ← hset, Identified, map_map, forall_mem_map,
      nodup_map_iff_inj_on hnodup]
    simp only [mem_toFinset]
    exact ⟨fun h _ => h, fun h => h ⟨s, rfl⟩⟩

end ChatCompletions

namespace Responses

variable (packages : Packages)

/-! ### Responses -/

/-- The calls of the items of a whole answer that have valid arguments. -/
def keptCalls (items : List ResponseOutputItem) : List ChatToolCall :=
  (items.filterMap ResponseOutputItem.call?).filter fun call =>
    (packages.fromStr call.argumentsJson).isSome

def CallEvent.name? : CallEvent → Option String
  | done _ name _ => some name
  | delta _ _ => none

def nameOf (own : List CallEvent) : String := (own.filterMap CallEvent.name?).getLast?.getD ""

variable (events : List CallEvent)

def callOf (callId : String) : ChatToolCall where
  id := callId
  name := nameOf (ownEvents callId events)
  argumentsJson := argumentsOf (ownEvents callId events)

def IsComplete (callId : String) : Bool :=
  nameOf (ownEvents callId events) ≠ "" &&
    (packages.fromStr (argumentsOf (ownEvents callId events))).isSome

theorem handedOver_result (responseId : Option String) (usage : Option TokenUsage) (c : Collected) :
    handedOver (c.result packages responseId usage) = validCalls packages c.toolCalls := by
  by_cases hvalid : validCalls packages c.toolCalls = []
  · rw [hvalid]
    by_cases htext : c.fullText = ""
    · obtain ⟨error, herror⟩ :=
        @Collected.result_error packages responseId usage c hvalid htext
      rw [herror]
      rfl
    · rw [Collected.result_finalText hvalid htext]
      rfl
  · rw [Collected.result_toolUse hvalid]
    rfl

/-- A whole answer is collected if its items can be read, and else it is rejected. -/
theorem foldlM_read_cases (output : List Json) (c : Collected) :
    (∃ items c', output.mapM packages.itemFromValue = some items ∧
        output.foldlM (Collected.read packages) c = .ok c' ∧
        c'.toolCalls = c.toolCalls ++ items.filterMap ResponseOutputItem.call?) ∨
      output.mapM packages.itemFromValue = none ∧
        ∃ error, output.foldlM (Collected.read packages) c = .error error := by
  induction output generalizing c with
  | nil => exact .inl ⟨[], c, rfl, rfl, (append_nil _).symm⟩
  | cons raw output ih =>
    rw [mapM_cons, foldlM_cons, Collected.read]
    rcases packages.itemFromValue raw with - | item
    · exact .inr ⟨rfl, _, rfl⟩
    · rcases ih (c.add raw item) with ⟨items, c', hitems, hc', hcalls⟩ | ⟨hitems, error, herror⟩
      · refine .inl ⟨item :: items, c', by rw [hitems]; rfl, hc', ?_⟩
        rw [hcalls]
        rcases item with content | summary | ⟨callId, name, arguments, caller⟩ | callId | callId <;>
          simp [Collected.add, ResponseOutputItem.call?, filterMap_cons]
      · exact .inr ⟨by rw [hitems]; rfl, error, herror⟩

/-- The calls of a whole answer are identified exactly if it cannot be read, or those with valid
arguments are. -/
theorem identified_responseToTurn_iff (responseId : Option String) (output : List Json)
    (usage : Option TokenUsage) :
    Identified (handedOver (responseToTurn packages responseId output usage)) ↔
      ∀ items, output.mapM packages.itemFromValue = some items →
        (∀ call ∈ keptCalls packages items, call.id ≠ "") ∧
          ((keptCalls packages items).map (·.id)).Nodup := by
  rcases foldlM_read_cases packages output {} with
    ⟨items, c, hitems, hc, hcalls⟩ | ⟨hitems, error, herror⟩
  · have hturn : responseToTurn packages responseId output usage =
        c.result packages responseId usage := by
      rw [responseToTurn, hc]
      rfl
    rw [hturn, handedOver_result, validCalls_eq_filter, hcalls, nil_append, hitems]
    simp only [Option.some.injEq, forall_eq']
    rfl
  · have hturn : responseToTurn packages responseId output usage = .error error := by
      rw [responseToTurn, herror]
      rfl
    rw [hturn, hitems]
    exact iff_of_true identified_nil fun items h => by cases h

theorem nodup_firstSeen : (firstSeen events).Nodup := by
  induction events using List.reverseRecOn with
  | nil => exact nodup_nil
  | append_singleton events event ih =>
    rw [firstSeen_concat]
    split_ifs with hmem
    · exact ih
    · exact concat_eq_append ▸ ih.concat hmem

theorem name_foldl_apply (own : List CallEvent) (call : AccCall) :
    (own.foldl AccCall.apply call).name =
      (own.filterMap CallEvent.name?).getLast?.or call.name := by
  induction own generalizing call with
  | nil => rfl
  | cons event own ih =>
    rw [foldl_cons, ih, ChatCompletions.getLast?_filterMap_cons_or]
    rcases event with ⟨callId, text⟩ | ⟨callId, name, arguments⟩ <;> rfl

theorem ReadsCalls.toolCalls_eq_map {events : List CallEvent} {s : Streamed}
    (h : ReadsCalls events s) :
    s.toolCalls = ((firstSeen events).filter fun callId =>
      nameOf (ownEvents callId events) ≠ "").map (callOf events) := by
  rw [Streamed.toolCalls, h.calls_eq,
    mergeSort_of_pairwise (pairwise_index events (firstSeen events)), filterMap_map,
    ← filterMap_eq_map', filterMap_filter]
  conv_rhs => rw [← zipIdx_map_fst 0 (firstSeen events), filterMap_map]
  refine filterMap_congr fun entry _ => ?_
  have hname : (accumulatedCall events entry).2.name =
      ((ownEvents entry.1 events).filterMap CallEvent.name?).getLast? := by
    rw [accumulatedCall, name_foldl_apply, Option.or_none]
  have harguments : (accumulatedCall events entry).2.arguments =
      argumentsOf (ownEvents entry.1 events) := by
    rw [accumulatedCall, arguments_foldl_apply]
    rfl
  simp only [Function.comp_apply, hname, harguments, nameOf, callOf]
  obtain hlast | ⟨name, hlast⟩ :=
    Option.eq_none_or_eq_some ((ownEvents entry.1 events).filterMap CallEvent.name?).getLast?
  · simp [hlast]
  · by_cases hempty : name = ""
    · simp [hlast, hempty, Option.filter_some]
    · simp [hlast, hempty, Option.filter_some, accumulatedCall]

/-- A stream that cannot be read or reports a failure is rejected. -/
theorem run_eq_error {payloads : List Json} (h : eventsOf packages payloads = none) (s : Streamed) :
    ∃ error, Streamed.run packages payloads s = .error error := by
  induction payloads generalizing s with
  | nil => cases h
  | cons payload payloads ih =>
    rw [eventsOf] at h
    rcases hparse : parseStreamEvent packages payload with error | ⟨- | event⟩
    · rw [Streamed.run, hparse]
      exact ⟨error, rfl⟩
    · rw [hparse] at h
      rw [Streamed.run, hparse]
      exact ih h s
    · rw [hparse] at h
      dsimp only at h
      split_ifs at h with hcompletes hends
      · rw [Streamed.run, hparse]
        rcases event
        case responseCompleted => exact absurd rfl hcompletes
        case responseFailed error => exact ⟨_, rfl⟩
        case responseIncomplete => exact ⟨_, rfl⟩
        all_goals cases hends
      · rw [run_cons hparse (Bool.eq_false_iff.2 hends)]
        rcases s.handle (some event) with error | s'
        · exact ⟨error, rfl⟩
        · exact ih (Option.map_eq_none_iff.1 h) s'

theorem handedOver_streamedTurn {payloads : List Json} {events : List StreamEvent} {s : Streamed}
    (hs : Streamed.run packages payloads {} = .ok s) (h : Reads events s) :
    handedOver (streamedTurn packages payloads) =
      ((firstSeen (events.filterMap StreamEvent.call?)).filter
        (IsComplete packages (events.filterMap StreamEvent.call?))).map
          (callOf (events.filterMap StreamEvent.call?)) := by
  have hturn : streamedTurn packages payloads = s.result packages := by
    rw [streamedTurn, hs]
    rfl
  have hvalid : validCalls packages s.toolCalls =
      ((firstSeen (events.filterMap StreamEvent.call?)).filter
        (IsComplete packages (events.filterMap StreamEvent.call?))).map
          (callOf (events.filterMap StreamEvent.call?)) := by
    rw [validCalls_eq_filter, h.calls.toolCalls_eq_map, filter_map, filter_filter]
    congr 1
    refine filter_congr fun callId _ => ?_
    rw [IsComplete, Bool.and_comm]
    rfl
  have houtput : s.accCalls ≠ [] → s.hasAnyOutput = true := fun hcalls =>
    Bool.of_not_eq_false fun hnone => hcalls (h.output hnone).2
  rw [hturn, ← hvalid]
  by_cases hnil : validCalls packages s.toolCalls = []
  · rw [hnil]
    by_cases htext : s.fullContent = ""
    · obtain ⟨error, herror⟩ := Streamed.result_error hnil htext
      rw [herror]
      rfl
    · have hsome : s.hasAnyOutput = true :=
        Bool.of_not_eq_false fun hnone => htext (h.output hnone).1
      rw [Streamed.result_finalText hsome hnil htext]
      rfl
  · rw [Streamed.result_toolUse houtput hnil]
    rfl

theorem identified_map_callOf :
    Identified (((firstSeen events).filter (IsComplete packages events)).map (callOf events)) ↔
      ("" ∈ events.map CallEvent.callId → IsComplete packages events "" = false) := by
  have hids : (((firstSeen events).filter (IsComplete packages events)).map (callOf events)).map
      (·.id) = (firstSeen events).filter (IsComplete packages events) := by
    rw [map_map]
    exact List.map_id _
  rw [Identified, hids, forall_mem_map, ← mem_firstSeen_iff]
  constructor
  · rintro ⟨hne, -⟩ hmem
    exact Bool.of_not_eq_true fun hcomplete => hne "" (mem_filter.2 ⟨hmem, hcomplete⟩) rfl
  · rintro h
    refine ⟨fun callId hcall (hempty : callId = "") => ?_, (nodup_firstSeen events).filter _⟩
    obtain ⟨hmem, hcomplete⟩ := mem_filter.1 (hempty ▸ hcall)
    rw [h hmem] at hcomplete
    cases hcomplete

/-- The calls of a stream that reports no failure and is accumulated are identified exactly if no
complete call has the empty id. -/
theorem identified_streamedTurn_iff (payloads : List Json) :
    Identified (handedOver (streamedTurn packages payloads)) ↔
      ∀ events, eventsOf packages payloads = some events →
        BelowLimit (events.filterMap StreamEvent.call?) →
        "" ∈ (events.filterMap StreamEvent.call?).map CallEvent.callId →
        IsComplete packages (events.filterMap StreamEvent.call?) "" = false := by
  rcases hevents : eventsOf packages payloads with - | events
  · obtain ⟨error, herror⟩ := run_eq_error packages hevents {}
    have hturn : streamedTurn packages payloads = .error error := by
      rw [streamedTurn, herror]
      rfl
    rw [hturn]
    exact iff_of_true identified_nil fun events h => by cases h
  · simp only [Option.some.injEq, forall_eq']
    have houtcome := reads_nil.outcome_payloads hevents
    rcases hs : Streamed.run packages payloads {} with error | s
    · rw [hs] at houtcome
      have hturn : streamedTurn packages payloads = .error error := by
        rw [streamedTurn, hs]
        rfl
      rw [hturn]
      exact iff_of_true identified_nil fun hbelow => absurd ((belowLimit_iff _).1 hbelow) houtcome
    · rw [hs] at houtcome
      rw [handedOver_streamedTurn packages hs houtcome.2, identified_map_callOf]
      exact ⟨fun h _ => h, fun h => h ((belowLimit_iff _).2 houtcome.1)⟩

end Responses

/-- The calls that the OpenAI adapters hand over have ids that are not empty and differ if and only
if those of the provider do: for a whole chat completion and for a whole answer of the Responses
protocol, the ids of the calls with valid arguments; for a stream of chat completions, the last ids
of their fragments; and for a stream of the Responses protocol, if no complete call has the empty
id, as the events without `call_id` do. -/
theorem handedOver_identified_iff {Value : Type} (serde : SerdeJson Value)
    (choices : List ChatCompletions.AssistantMessage) (usage : Option TokenUsage)
    (chunks : List ChatCompletions.StreamResponse) (packages : Responses.Packages)
    (responseId : Option String) (output payloads : List Json) :
    (Identified (handedOver (ChatCompletions.responseToTurn serde choices usage)) ↔
      ∀ message ∈ choices.head?, (∀ call ∈ ChatCompletions.keptCalls serde message, call.id ≠ "") ∧
        ((ChatCompletions.keptCalls serde message).map (·.id)).Nodup) ∧
    (Identified (handedOver (ChatCompletions.streamedTurn serde chunks)) ↔
      let deltas := ChatCompletions.toolDeltas (ChatCompletions.deltasOf chunks)
      (∀ tool ∈ deltas, tool.index < maxToolCalls) ∧ ChatCompletions.BelowLimit deltas →
        (∀ index ∈ ChatCompletions.keptIndices serde deltas,
          ChatCompletions.idAt deltas index ≠ "") ∧
        ∀ i ∈ ChatCompletions.keptIndices serde deltas,
          ∀ j ∈ ChatCompletions.keptIndices serde deltas,
            ChatCompletions.idAt deltas i = ChatCompletions.idAt deltas j → i = j) ∧
    (Identified (handedOver (Responses.responseToTurn packages responseId output usage)) ↔
      ∀ items, output.mapM packages.itemFromValue = some items →
        (∀ call ∈ Responses.keptCalls packages items, call.id ≠ "") ∧
          ((Responses.keptCalls packages items).map (·.id)).Nodup) ∧
    (Identified (handedOver (Responses.streamedTurn packages payloads)) ↔
      ∀ events, Responses.eventsOf packages payloads = some events →
        Responses.BelowLimit (events.filterMap Responses.StreamEvent.call?) →
        "" ∈ (events.filterMap Responses.StreamEvent.call?).map Responses.CallEvent.callId →
        Responses.IsComplete packages (events.filterMap Responses.StreamEvent.call?) "" = false) :=
  ⟨ChatCompletions.identified_responseToTurn_iff serde choices usage,
    ChatCompletions.identified_streamedTurn_iff serde chunks,
    Responses.identified_responseToTurn_iff packages responseId output usage,
    Responses.identified_streamedTurn_iff packages payloads⟩

/-- An event that completes a call, without the `call_id` that the protocol guarantees. -/
def anonymousCall : Json :=
  .object [("type", .string "response.function_call_arguments.done"), ("name", .string "list"),
    ("arguments", .string "\x7b\x7d")]

/-- A stream whose call has no id is accepted, and the call is handed over with the empty id. -/
theorem not_identified_anonymousCall : ¬ Identified (handedOver
    (Responses.streamedTurn Responses.Sample.packages
      [anonymousCall, Responses.Sample.completedPayload])) := by
  rw [Responses.identified_streamedTurn_iff]
  rintro h
  have hcall := h [.functionCallArgumentsDone "" "list" "\x7b\x7d"] rfl
    ((Responses.belowLimit_iff _).2 trivial) (by decide)
  exact absurd hcall (by decide)

end Choreo
