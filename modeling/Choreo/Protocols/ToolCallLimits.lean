import Choreo.Protocols.ChatCompletions
import Choreo.Protocols.Responses

/-!
# The limit on the tool calls of a stream

Both streams of the OpenAI adapters accept at most `maxToolCalls` tool calls
(`ChatCompletionsStreamAccumulator::apply` of `choreo-ai-protocols/src/openai/chat_completions.rs`,
`responses_request_streaming_with_tools` of `responses.rs`). The number is tested before it is known
whether a fragment opens a new call, and in the Responses stream it is not tested when a call is
announced as complete. The limit is therefore exact for some streams only.
-/

namespace Choreo

open List

namespace ChatCompletions

/-! ### Chat completions -/

variable (deltas : List StreamToolCallDelta)

def callIndices : Finset ℕ := (deltas.map (·.index)).toFinset

def argumentsAt (index : ℕ) : String :=
  String.join ((ownDeltas index deltas).filterMap fun delta => delta.function.bind (·.arguments))

def callAt (index : ℕ) : ChatToolCall where
  id := ((ownDeltas index deltas).filterMap (·.id)).getLast?.getD ""
  name := ((ownDeltas index deltas).filterMap fun delta =>
    delta.function.bind (·.name)).getLast?.getD ""
  argumentsJson := argumentsAt deltas index

variable (chunks : List StreamResponse)

/-- The limit is exact for a stream. With no more calls than the limit it is accumulated, and its
calls, ordered by their indices, have their whole arguments; with more calls it fails. -/
def LimitExact : Prop :=
  let deltas := toolDeltas (deltasOf chunks)
  ((callIndices deltas).card ≤ maxToolCalls →
    ∃ s, ∃ order : List ℕ, chunks.foldlM StreamAccumulator.apply {} = .ok s ∧
      order.Pairwise (· < ·) ∧
      order.toFinset = callIndices deltas ∧
      (accumulateToolCallsFromDeltas s.rawToolCallDeltas).map (·.argumentsJson) =
        order.map (argumentsAt deltas)) ∧
  (maxToolCalls < (callIndices deltas).card →
    ∃ error, chunks.foldlM StreamAccumulator.apply {} = .error error)

variable {s s' : StreamAccumulator}

theorem index_lt_of_pushToolCall {delta : StreamToolCallDelta}
    (h : s.pushToolCall delta = .ok s') : delta.index < maxToolCalls := by
  rw [StreamAccumulator.pushToolCall] at h
  split_ifs at h with hcount hindex
  all_goals exact Nat.lt_of_not_le hindex

theorem index_lt_of_foldlM {deltas : List StreamToolCallDelta}
    (h : deltas.foldlM StreamAccumulator.pushToolCall s = .ok s') :
    ∀ delta ∈ deltas, delta.index < maxToolCalls := by
  induction deltas generalizing s with
  | nil => exact fun delta hdelta => absurd hdelta not_mem_nil
  | cons first deltas ih =>
    obtain ⟨s₁, hpush, hrest⟩ := Folds.foldlM_cons_eq_ok.1 h
    exact forall_mem_cons.2 ⟨index_lt_of_pushToolCall hpush, ih hrest⟩

theorem index_lt_of_applyDelta {delta : StreamDelta}
    (h : s.applyDelta delta = .ok s') :
    ∀ tool ∈ toolDeltas [delta], tool.index < maxToolCalls := by
  rw [toolDeltas_singleton]
  rw [StreamAccumulator.applyDelta] at h
  rcases hcalls : delta.toolCalls with - | calls
  · exact fun tool htool => absurd htool not_mem_nil
  · rw [hcalls] at h
    exact index_lt_of_foldlM h

theorem index_lt_of_apply {chunk : StreamResponse}
    (h : s.apply chunk = .ok s') :
    ∀ tool ∈ toolDeltas (chunk.choices.filterMap id), tool.index < maxToolCalls := by
  rw [StreamAccumulator.apply] at h
  generalize { s with lastUsage := chunk.usage.or s.lastUsage } = s₀ at h
  generalize chunk.choices = choices at h ⊢
  induction choices generalizing s₀ with
  | nil => exact fun tool htool => absurd htool not_mem_nil
  | cons choice choices ih =>
    obtain ⟨s₁, hchoice, hrest⟩ := Folds.foldlM_cons_eq_ok.1 h
    rcases choice with - | delta
    · exact ih s₁ hrest
    · have hsplit : (some delta :: choices).filterMap id = [delta] ++ choices.filterMap id := rfl
      rw [hsplit, toolDeltas_append]
      exact forall_mem_append.2 ⟨index_lt_of_applyDelta hchoice, ih s₁ hrest⟩

theorem index_lt_of_chunks {chunks : List StreamResponse}
    (h : chunks.foldlM StreamAccumulator.apply s = .ok s') :
    ∀ tool ∈ toolDeltas (deltasOf chunks), tool.index < maxToolCalls := by
  induction chunks generalizing s with
  | nil => exact fun tool htool => absurd htool not_mem_nil
  | cons chunk chunks ih =>
    have hsplit : deltasOf (chunk :: chunks) = chunk.choices.filterMap id ++ deltasOf chunks :=
      flatMap_cons
    obtain ⟨s₁, hchunk, hrest⟩ := Folds.foldlM_cons_eq_ok.1 h
    rw [hsplit, toolDeltas_append]
    exact forall_mem_append.2 ⟨index_lt_of_apply hchunk, ih hrest⟩

/-- A stream is accumulated exactly if its indices are within the limit, and whenever a tool-call
fragment comes, fewer calls than the limit have been seen before it. -/
theorem foldlM_apply_eq_ok_iff :
    (∃ s, chunks.foldlM StreamAccumulator.apply {} = .ok s) ↔
      (∀ tool ∈ toolDeltas (deltasOf chunks), tool.index < maxToolCalls) ∧
        BelowLimit (toolDeltas (deltasOf chunks)) := by
  constructor
  · rintro ⟨s, hs⟩
    have hindex := index_lt_of_chunks hs
    have houtcome := reads_nil.outcome_chunks hindex
    rw [hs] at houtcome
    exact ⟨hindex, (belowLimit_iff _).2 houtcome.1⟩
  · rintro ⟨hindex, hbelow⟩
    have houtcome := reads_nil.outcome_chunks hindex
    rcases hs : chunks.foldlM StreamAccumulator.apply {} with error | s
    · rw [hs] at houtcome
      exact absurd ((belowLimit_iff _).1 hbelow) houtcome
    · exact ⟨s, rfl⟩

theorem accumulateToolCalls_eq_map :
    ∃ order : List ℕ, order.Pairwise (· < ·) ∧ order.toFinset = callIndices deltas ∧
      accumulateToolCallsFromDeltas deltas = order.map (callAt deltas) := by
  have hget (index : ℕ) : (deltas.foldl addToolCallDelta ∅)[index]? =
      if ownDeltas index deltas = [] then none
      else some ((ownDeltas index deltas).foldl AccumulatingToolCall.add {}) := by
    rw [get_foldl_addToolCallDelta, Std.ExtTreeMap.getElem?_empty, Option.getD_none]
  refine ⟨(deltas.foldl addToolCallDelta ∅).keys,
    Std.ExtTreeMap.ordered_keys.imp fun hlt => Nat.compare_eq_lt.1 hlt, ?_, ?_⟩
  · ext index
    rw [mem_toFinset, Std.ExtTreeMap.mem_keys, ← Std.ExtTreeMap.isSome_getElem?_iff_mem,
      hget, callIndices, mem_toFinset, mem_map]
    by_cases hown : ownDeltas index deltas = []
    · rw [if_pos hown]
      refine iff_of_false Bool.false_ne_true ?_
      rintro ⟨delta, hdelta, heq⟩
      exact filter_eq_nil_iff.1 hown delta hdelta (decide_eq_true heq)
    · rw [if_neg hown]
      obtain ⟨delta, hdelta⟩ := exists_mem_of_ne_nil _ hown
      obtain ⟨hmem, heq⟩ := mem_filter.1 hdelta
      exact iff_of_true rfl ⟨delta, hmem, of_decide_eq_true heq⟩
  · rw [accumulateToolCallsFromDeltas, ← Std.ExtTreeMap.map_fst_toList_eq_keys, map_map]
    refine map_congr_left ?_
    rintro ⟨index, call⟩ hmem
    have hcall := Std.ExtTreeMap.mem_toList_iff_getElem?_eq_some.1 hmem
    rw [hget] at hcall
    split_ifs at hcall
    cases hcall
    simp only [Function.comp_apply, AccumulatingToolCall.toChat, foldl_add, callAt, argumentsAt,
      String.empty_append, Option.or_none]

theorem card_callIndices_le {deltas : List StreamToolCallDelta}
    (h : ∀ tool ∈ deltas, tool.index < maxToolCalls) :
    (callIndices deltas).card ≤ maxToolCalls := by
  rw [← Finset.card_range maxToolCalls]
  refine Finset.card_le_card fun index hindex => ?_
  obtain ⟨tool, htool, rfl⟩ := mem_map.1 (mem_toFinset.1 hindex)
  exact Finset.mem_range.2 (h tool htool)

/-- The limit is exact for a stream with more calls, and for one whose indices are within the limit
and in which no tool-call fragment comes after the limit is reached. -/
theorem limitExact_iff :
    LimitExact chunks ↔
      maxToolCalls < (callIndices (toolDeltas (deltasOf chunks))).card ∨
        (∀ tool ∈ toolDeltas (deltasOf chunks), tool.index < maxToolCalls) ∧
          BelowLimit (toolDeltas (deltasOf chunks)) := by
  rw [← foldlM_apply_eq_ok_iff]
  constructor
  · rintro ⟨hwithin, -⟩
    rcases Nat.lt_or_ge maxToolCalls (callIndices (toolDeltas (deltasOf chunks))).card with
      hmore | hle
    · exact .inl hmore
    · obtain ⟨s, -, hs, -⟩ := hwithin hle
      exact .inr ⟨s, hs⟩
  · rintro (hmore | ⟨s, hs⟩)
    · refine ⟨fun hle => absurd hle (Nat.not_le.2 hmore), fun _ => ?_⟩
      rcases hs : chunks.foldlM StreamAccumulator.apply {} with error | s
      · exact ⟨error, rfl⟩
      · exact absurd (card_callIndices_le (index_lt_of_chunks hs)) (Nat.not_le.2 hmore)
    · have hle := card_callIndices_le (index_lt_of_chunks hs)
      refine ⟨fun _ => ?_, fun hmore => absurd hle (Nat.not_le.2 hmore)⟩
      have houtcome := reads_nil.outcome_chunks (index_lt_of_chunks hs)
      rw [hs] at houtcome
      obtain ⟨order, hsorted, hset, hcalls⟩ :=
        accumulateToolCalls_eq_map (toolDeltas (deltasOf chunks))
      refine ⟨s, order, hs, hsorted, hset, ?_⟩
      rw [houtcome.2.tools.raw_eq, nil_append, hcalls, map_map]
      rfl

end ChatCompletions

namespace Responses

/-! ### Responses -/

def StreamEvent.completes : StreamEvent → Bool
  | responseCompleted .. => true
  | _ => false

/-- The events of a stream up to its completion, unless one cannot be read or reports a failure. -/
def eventsOf (packages : Packages) : List Json → Option (List StreamEvent)
  | [] => some []
  | payload :: payloads =>
    match parseStreamEvent packages payload with
    | .error _ => none
    | .ok none => eventsOf packages payloads
    | .ok (some event) =>
      if event.completes then some []
      else if event.endsStream then none
      else (eventsOf packages payloads).map (event :: ·)

/-- The arguments of a call after an event: a fragment extends them, and the event of the complete
call replaces them. -/
def CallEvent.onto (arguments : String) : CallEvent → String
  | delta _ text => arguments ++ text
  | done _ _ whole => whole

/-- The arguments that the events of a call add up to. -/
def argumentsOf (own : List CallEvent) : String := own.foldl CallEvent.onto ""

/-- The limit is exact for a stream that reports no failure. With no more calls than the limit it is
accumulated, and the calls have the arguments of their events; with more calls it fails. -/
def LimitExact (packages : Packages) (payloads : List Json) : Prop :=
  ∀ events, eventsOf packages payloads = some events →
    let calls := events.filterMap StreamEvent.call?
    ((firstSeen calls).length ≤ maxToolCalls →
      ∃ s, Streamed.run packages payloads {} = .ok s ∧
        s.accCalls.map (fun entry => (entry.1, entry.2.arguments)) =
          (firstSeen calls).map fun callId => (callId, argumentsOf (ownEvents callId calls))) ∧
    (maxToolCalls < (firstSeen calls).length →
      ∃ error, Streamed.run packages payloads {} = .error error)

theorem arguments_foldl_apply (own : List CallEvent) (call : AccCall) :
    (own.foldl AccCall.apply call).arguments = own.foldl CallEvent.onto call.arguments := by
  induction own generalizing call with
  | nil => rfl
  | cons event own ih =>
    rw [foldl_cons, foldl_cons, ih]
    rcases event with ⟨callId, text⟩ | ⟨callId, name, arguments⟩ <;> rfl

theorem ReadsCalls.arguments_eq {events : List CallEvent} {s : Streamed} (h : ReadsCalls events s) :
    s.accCalls.map (fun entry => (entry.1, entry.2.arguments)) =
      (firstSeen events).map fun callId => (callId, argumentsOf (ownEvents callId events)) := by
  have hseen : (firstSeen events).map (fun callId =>
      (callId, argumentsOf (ownEvents callId events))) =
      (firstSeen events).zipIdx.map fun entry =>
        (entry.1, argumentsOf (ownEvents entry.1 events)) := by
    conv_lhs => rw [← zipIdx_map_fst 0 (firstSeen events), map_map]
    rfl
  rw [h.calls_eq, hseen, map_map]
  refine map_congr_left fun entry _ => ?_
  rw [Function.comp_apply, accumulatedCall, arguments_foldl_apply]
  rfl

theorem Outcome.bind {before more rest : List StreamEvent} {x : Except OpenAiError Streamed}
    {f : Streamed → Except OpenAiError Streamed} (hx : Outcome before more x)
    (hf : ∀ s, Reads (before ++ more) s → Outcome (before ++ more) rest (f s)) :
    Outcome before (more ++ rest) (x >>= f) := by
  have hsplit := belowFrom_append (before.filterMap StreamEvent.call?)
    (more.filterMap StreamEvent.call?) (rest.filterMap StreamEvent.call?)
  rw [← filterMap_append, ← filterMap_append] at hsplit
  rcases x with error | s
  · exact fun hbelow => hx (hsplit.1 hbelow).1
  · have hs := hf s hx.2
    change Outcome before (more ++ rest) (f s)
    rcases hfs : f s with error | s'
    · rw [hfs] at hs
      exact fun hbelow => hs (hsplit.1 hbelow).2
    · rw [hfs] at hs
      exact ⟨hsplit.2 ⟨hx.1, hs.1⟩, append_assoc before more rest ▸ hs.2⟩

/-- A stream that reports no failure is read, unless a fragment comes after the limit is reached. -/
theorem Reads.outcome_payloads {packages : Packages} {payloads : List Json}
    {before events : List StreamEvent} {s : Streamed} (h : Reads before s)
    (hevents : eventsOf packages payloads = some events) :
    Outcome before events (Streamed.run packages payloads s) := by
  induction payloads generalizing before events s with
  | nil =>
    cases hevents
    exact ⟨trivial, by rwa [append_nil]⟩
  | cons payload payloads ih =>
    rw [eventsOf] at hevents
    rcases hparse : parseStreamEvent packages payload with error | ⟨- | event⟩
    · rw [hparse] at hevents
      cases hevents
    · rw [hparse] at hevents
      rw [Streamed.run, hparse]
      exact ih h hevents
    · rw [hparse] at hevents
      dsimp only at hevents
      split_ifs at hevents with hcompletes hends
      · cases hevents
        rw [Streamed.run, hparse]
        rcases event
        case responseCompleted => exact ⟨trivial, by rw [append_nil]; exact h.complete _ _⟩
        all_goals cases hcompletes
      · obtain ⟨more, hmore, rfl⟩ := Option.map_eq_some_iff.1 hevents
        have hend : event.endsStream = false := Bool.eq_false_iff.2 hends
        rw [run_cons hparse hend]
        rw [← singleton_append]
        exact (h.outcome_handle hend).bind fun s' hs' => ih hs' hmore

theorem run_eq_ok_iff {packages : Packages} {payloads : List Json} {events : List StreamEvent}
    (hevents : eventsOf packages payloads = some events) :
    (∃ s, Streamed.run packages payloads {} = .ok s) ↔
      BelowLimit (events.filterMap StreamEvent.call?) := by
  have houtcome := reads_nil.outcome_payloads hevents
  rw [belowLimit_iff]
  rcases hs : Streamed.run packages payloads {} with error | s
  · rw [hs] at houtcome
    exact iff_of_false (by rintro ⟨_, hok⟩; cases hok) houtcome
  · rw [hs] at houtcome
    exact iff_of_true ⟨s, rfl⟩ houtcome.1

/-- The limit is exact for a stream that reports no failure if no fragment comes after the limit is
reached, given that its calls are within the limit, and if one does, given that they are not. -/
theorem limitExact_iff (packages : Packages) (payloads : List Json) :
    LimitExact packages payloads ↔ ∀ events, eventsOf packages payloads = some events →
      ((firstSeen (events.filterMap StreamEvent.call?)).length ≤ maxToolCalls ↔
        BelowLimit (events.filterMap StreamEvent.call?)) := by
  refine forall₂_congr fun events hevents => ?_
  have houtcome := reads_nil.outcome_payloads hevents
  rw [← run_eq_ok_iff hevents]
  dsimp only
  rcases hs : Streamed.run packages payloads {} with error | s
  · constructor
    · rintro ⟨hwithin, -⟩
      refine ⟨fun hle => ?_, by rintro ⟨_, hok⟩; cases hok⟩
      obtain ⟨s, hok, -⟩ := hwithin hle
      exact ⟨s, hok⟩
    · rintro hiff
      refine ⟨fun hle => ?_, fun _ => ⟨error, rfl⟩⟩
      obtain ⟨s, hok⟩ := hiff.1 hle
      cases hok
  · rw [hs] at houtcome
    constructor
    · rintro ⟨-, hmore⟩
      refine ⟨fun _ => ⟨s, rfl⟩, fun _ => Nat.le_of_not_lt fun hlt => ?_⟩
      obtain ⟨error, hfail⟩ := hmore hlt
      cases hfail
    · rintro hiff
      have hle := hiff.2 ⟨s, rfl⟩
      exact ⟨fun _ => ⟨s, rfl, houtcome.2.calls.arguments_eq⟩,
        fun hlt => absurd hle (Nat.not_le.2 hlt)⟩

end Responses

/-- The limit on tool calls is exact for a stream of chat completions if and only if it has more
calls than the limit, or its indices are within the limit and no tool-call fragment comes after
the limit is reached. It is exact for a stream of the Responses protocol if and only if, when the
stream reports no failure, a fragment comes after the limit is reached precisely if there are more
calls. -/
theorem toolCallLimits_exact_iff (chunks : List ChatCompletions.StreamResponse)
    (packages : Responses.Packages) (payloads : List Json) :
    (ChatCompletions.LimitExact chunks ↔
      maxToolCalls <
          (ChatCompletions.callIndices
            (ChatCompletions.toolDeltas (ChatCompletions.deltasOf chunks))).card ∨
        (∀ tool ∈ ChatCompletions.toolDeltas (ChatCompletions.deltasOf chunks),
          tool.index < maxToolCalls) ∧
        ChatCompletions.BelowLimit
          (ChatCompletions.toolDeltas (ChatCompletions.deltasOf chunks))) ∧
    (Responses.LimitExact packages payloads ↔
      ∀ events, Responses.eventsOf packages payloads = some events →
        ((Responses.firstSeen (events.filterMap Responses.StreamEvent.call?)).length ≤
            maxToolCalls ↔
          Responses.BelowLimit (events.filterMap Responses.StreamEvent.call?))) :=
  ⟨ChatCompletions.limitExact_iff chunks, Responses.limitExact_iff packages payloads⟩

/-- The fragments that open as many calls as the limit allows. -/
def openingDeltas : List ChatCompletions.StreamToolCallDelta :=
  (List.range maxToolCalls).map fun index => { index := index, id := some "call" }

/-- A chunk that opens as many calls as the limit allows, and then extends the first. -/
def fullChunk : ChatCompletions.StreamResponse where
  choices := [some { toolCalls := some (openingDeltas ++
    [{ index := 0, function := some { arguments := some "\x7b\x7d" } }]) }]

/-- The limit is not exact: a stream with as many calls as the limit allows fails when a fragment of
one of them follows the first fragment of the last. -/
theorem not_limitExact_fullChunk : ¬ ChatCompletions.LimitExact [fullChunk] := by
  have hdeltas : ChatCompletions.toolDeltas (ChatCompletions.deltasOf [fullChunk]) =
      openingDeltas ++ [{ index := 0, function := some { arguments := some "\x7b\x7d" } }] :=
    rfl
  have hindices : openingDeltas.map (·.index) = List.range maxToolCalls := by
    rw [openingDeltas, map_map]
    exact List.map_id _
  have hcard : (openingDeltas.map (·.index)).toFinset.card = maxToolCalls := by
    rw [hindices, toFinset_card_of_nodup nodup_range, length_range]
  rw [ChatCompletions.limitExact_iff, hdeltas]
  have hindex : ∀ tool ∈ openingDeltas, tool.index < maxToolCalls := fun tool htool => by
    rw [← mem_range, ← hindices]
    exact mem_map_of_mem htool
  rintro (hmore | ⟨-, hbelow⟩)
  · refine absurd hmore (Nat.not_lt.2 (ChatCompletions.card_callIndices_le ?_))
    exact forall_mem_append.2 ⟨hindex, forall_mem_singleton.2 (by decide)⟩
  · have hlast := hbelow openingDeltas _ [] rfl
    omega

end Choreo
