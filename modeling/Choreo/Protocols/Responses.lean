import Choreo.Library.Folds
import Choreo.Protocols.Chat
import Mathlib.Data.Finset.Card

/-!
# Whole and streamed answers of the Responses protocol

An answer of the Responses protocol is a list of output items: messages, reasoning items, function
calls, and the programs of hosted tools. It comes whole (`responses_response_to_turn` of
`choreo-ai-protocols/src/openai/responses.rs`), or as a stream of events
(`parse_responses_stream_event` of `sse.rs` and `responses_request_streaming_with_tools`). A stream
takes its text, its reasoning text, its reasoning items and its calls from different kinds of
events. A call gets its place when its first event comes, and its caller is never read.
-/

namespace Choreo

open List

namespace Responses

/-- Failures of the adapter after the answer has begun. -/
inductive OpenAiError
  | emptyResponse
  | truncatedToolCall (discarded : List ChatToolCall)
  | io (error : String)
deriving DecidableEq, Repr

/-- A part of a message item. -/
structure ResponseContentPart where
  kind : String
  text : Option String := none
deriving DecidableEq, Repr

inductive ResponseOutputItem
  | message (content : List ResponseContentPart)
  | reasoning (summary : List Json)
  | functionCall (callId name arguments : String) (caller : Option String)
  | program (callId : String)
  | programOutput (callId : String)

/-- The packages that the adapter uses: JSON texts, output items and token counts read from JSON
values, and the bytes of reasoning items. -/
structure Packages extends SerdeJson Json where
  itemFromValue : Json → Option ResponseOutputItem
  usageFromValue : Json → Option TokenUsage
  itemsToVec : List Json → Bytes

def responsesItemsArtifact (packages : Packages) (items : List Json) : Option ReasoningArtifact :=
  if items.isEmpty then none else some (.responsesItems (packages.itemsToVec items))

def extractReasoningText (summary : List Json) : Option String :=
  let parts := summary.filterMap fun part => part.asStr.or (part.getStr "text")
  if parts.isEmpty then none else some (" ".intercalate parts)

/-! ### Whole answers -/

/-- What a whole answer is collected into. -/
structure Collected where
  fullText : String := ""
  fullReasoning : String := ""
  toolCalls : List ChatToolCall := []
  reasoningItems : List Json := []

def messageText (content : List ResponseContentPart) : String :=
  String.join ((content.filter fun part => part.kind = "output_text").filterMap (·.text))

def Collected.add (c : Collected) (raw : Json) : ResponseOutputItem → Collected
  | .message content => { c with fullText := c.fullText ++ messageText content }
  | .reasoning summary =>
    { c with
      fullReasoning := c.fullReasoning ++ (extractReasoningText summary).getD ""
      reasoningItems := c.reasoningItems ++ [raw] }
  | .functionCall callId name arguments caller =>
    { c with toolCalls := c.toolCalls ++ [⟨callId, name, arguments, caller⟩] }
  | .program _ | .programOutput _ => c

def Collected.read (packages : Packages) (c : Collected) (raw : Json) :
    Except OpenAiError Collected :=
  match packages.itemFromValue raw with
  | none => .error (.io "invalid output item")
  | some item => .ok (c.add raw item)

/-- The result of what was collected. -/
def Collected.result (packages : Packages) (responseId : Option String) (usage : Option TokenUsage)
    (c : Collected) : Except OpenAiError ChatTurnResult :=
  let reasoningArtifact := responsesItemsArtifact packages c.reasoningItems
  let (toolCalls, discarded) := validateToolCallArguments packages.toSerdeJson c.toolCalls
  let finalText : Except OpenAiError ChatTurnResult :=
    .ok (.finalText {
      content := c.fullText
      reasoning := nonempty c.fullReasoning
      usage := usage
      responseId := responseId
      reasoningArtifact := reasoningArtifact })
  if !toolCalls.isEmpty then
    .ok (.toolUse {
      content := nonempty c.fullText
      toolCalls := toolCalls
      reasoning := nonempty c.fullReasoning
      usage := usage
      responseId := responseId
      reasoningArtifact := reasoningArtifact })
  else if !discarded.isEmpty then
    if c.fullText ≠ "" then finalText else .error (.truncatedToolCall discarded)
  else if c.fullText = "" then .error .emptyResponse
  else finalText

/-- The result of a whole answer. -/
def responseToTurn (packages : Packages) (responseId : Option String) (output : List Json)
    (usage : Option TokenUsage) : Except OpenAiError ChatTurnResult := do
  (← output.foldlM (Collected.read packages) {}).result packages responseId usage

/-! ### Events of a stream -/

inductive StreamEvent
  | textDelta (text : String)
  | textDone
  | reasoningSummary (summary : List Json)
  | reasoningItem (item : Json)
  | functionCallArgumentsDelta (callId delta : String)
  | functionCallArgumentsDone (callId name arguments : String)
  | responseCompleted (id : Option String) (usage : Option TokenUsage)
  | responseFailed (error : String)
  | responseIncomplete
  | programCodeDelta (delta : String)
  | programCodeDone (callId : String) (fingerprint : Option String)
  | programOutputDone (callId result status : String)

def failedError (packages : Packages) (payload : Json) : String :=
  match payload.get "error" with
  | none => ""
  | some (.string text) => text
  | some other => (other.getStr "message").getD (packages.toStr other)

def parseStreamEvent (packages : Packages) (payload : Json) :
    Except OpenAiError (Option StreamEvent) :=
  match payload.getStr "type" with
  | none => .ok none
  | some kind =>
    if kind = "response.output_text.delta" then
      .ok ((payload.getStr "delta").map .textDelta)
    else if kind = "response.output_text.done" then .ok (some .textDone)
    else if kind = "response.reasoning.summary" then
      .ok (some (.reasoningSummary (((payload.get "summary").bind Json.asArray).getD [])))
    else if kind = "response.output_item.added" ∨ kind = "response.output_item.done" then
      match payload.get "item" with
      | none => .ok none
      | some item =>
        if item.getStr "type" = some "reasoning" then .ok (some (.reasoningItem item)) else .ok none
    else if kind = "response.function_call_arguments.delta" then
      .ok (some (.functionCallArgumentsDelta ((payload.getStr "call_id").getD "")
        ((payload.getStr "delta").getD "")))
    else if kind = "response.function_call_arguments.done" then
      .ok (some (.functionCallArgumentsDone ((payload.getStr "call_id").getD "")
        ((payload.getStr "name").getD "") ((payload.getStr "arguments").getD "")))
    else if kind = "response.completed" then
      .ok (some (.responseCompleted (payload.getStr "id")
        ((payload.get "usage").bind packages.usageFromValue)))
    else if kind = "response.failed" then
      .ok (some (.responseFailed (failedError packages payload)))
    else if kind = "response.incomplete" then .ok (some .responseIncomplete)
    else if kind = "response.program.code.delta" then
      .ok ((payload.getStr "delta").map .programCodeDelta)
    else if kind = "response.program.code.done" then
      match payload.getStr "call_id" with
      | none => .error (.io "missing call_id in response.program.code.done")
      | some callId => .ok (some (.programCodeDone callId (payload.getStr "fingerprint")))
    else if kind = "response.program_output.done" then
      match payload.getStr "call_id" with
      | none => .error (.io "missing call_id in response.program_output.done")
      | some callId =>
        .ok (some (.programOutputDone callId ((payload.getStr "result").getD "")
          ((payload.getStr "status").getD "")))
    else .ok none

/-! ### Streamed answers -/

/-- A call that is being accumulated, with the place of its first event. -/
structure AccCall where
  name : Option String := none
  arguments : String := ""
  index : ℕ
deriving DecidableEq, Repr

/-- The identity of a reasoning item. -/
def itemId (item : Json) : Option String := item.getStr "id"

def mergeReasoningItem (items : List Json) (item : Json) : List Json :=
  match itemId item with
  | none => items ++ [item]
  | some id =>
    match items.findIdx? fun other => itemId other = some id with
    | some position => items.set position item
    | none => items ++ [item]

/-- What a stream is accumulated into. The entries of the calls are kept in no particular order. -/
structure Streamed where
  hasAnyOutput : Bool := false
  fullContent : String := ""
  fullReasoning : String := ""
  lastUsage : Option TokenUsage := none
  responseId : Option String := none
  reasoningItems : List Json := []
  accCalls : List (String × AccCall) := []
  nextToolIndex : ℕ := 0

namespace Streamed

def modifyCall (s : Streamed) (callId : String) (change : AccCall → AccCall) : Streamed :=
  if (s.accCalls.map Prod.fst).contains callId then
    { s with
      accCalls := s.accCalls.map fun entry =>
        if entry.1 = callId then (entry.1, change entry.2) else entry }
  else
    { s with
      accCalls := s.accCalls ++ [(callId, change { index := s.nextToolIndex })]
      nextToolIndex := s.nextToolIndex + 1 }

/-- Handles an event other than the completion. -/
def handle (s : Streamed) : Option StreamEvent → Except OpenAiError Streamed
  | some (.textDelta text) =>
    .ok { s with hasAnyOutput := true, fullContent := s.fullContent ++ text }
  | some (.reasoningSummary summary) =>
    match extractReasoningText summary with
    | none => .ok s
    | some text => .ok { s with hasAnyOutput := true, fullReasoning := s.fullReasoning ++ text }
  | some (.reasoningItem item) =>
    .ok { s with reasoningItems := mergeReasoningItem s.reasoningItems item }
  | some (.functionCallArgumentsDelta callId delta) =>
    if maxToolCalls ≤ s.accCalls.length then
      .error (.io s!"too many tool calls (max {maxToolCalls})")
    else
      .ok ({ s with hasAnyOutput := true }.modifyCall callId fun call =>
        { call with arguments := call.arguments ++ delta })
  | some (.functionCallArgumentsDone callId name arguments) =>
    .ok ({ s with hasAnyOutput := true }.modifyCall callId fun call =>
      { call with name := some name, arguments := arguments })
  | some (.responseFailed error) => .error (.io error)
  | some .responseIncomplete => .error (.io "response incomplete")
  | _ => .ok s

/-- Accumulates a stream up to its completion. -/
def run (packages : Packages) : List Json → Streamed → Except OpenAiError Streamed
  | [], s => .ok s
  | payload :: payloads, s => do
    match ← parseStreamEvent packages payload with
    | some (.responseCompleted id usage) =>
      .ok { s with responseId := id, lastUsage := usage.or s.lastUsage }
    | event => do
      let s ← s.handle event
      run packages payloads s

/-- The calls of a stream that have a name, ordered by the places of their first events. -/
def toolCalls (s : Streamed) : List ChatToolCall :=
  (s.accCalls.mergeSort fun a b => a.2.index ≤ b.2.index).filterMap fun (callId, call) =>
    (call.name.filter (· ≠ "")).map fun name =>
      { id := callId, name := name, argumentsJson := call.arguments }

/-- The result of what was accumulated. -/
def result (packages : Packages) (s : Streamed) : Except OpenAiError ChatTurnResult :=
  let reasoningArtifact := responsesItemsArtifact packages s.reasoningItems
  let finalText : Except OpenAiError ChatTurnResult :=
    .ok (.finalText {
      content := s.fullContent
      reasoning := nonempty s.fullReasoning
      usage := s.lastUsage
      responseId := s.responseId
      reasoningArtifact := reasoningArtifact })
  let text := if s.fullContent = "" then .error .emptyResponse else finalText
  if !s.hasAnyOutput then .error .emptyResponse
  else if !s.accCalls.isEmpty then
    let (toolCalls, discarded) := validateToolCallArguments packages.toSerdeJson s.toolCalls
    if !toolCalls.isEmpty then
      .ok (.toolUse {
        content := nonempty s.fullContent
        toolCalls := toolCalls
        reasoning := nonempty s.fullReasoning
        usage := s.lastUsage
        responseId := s.responseId
        reasoningArtifact := reasoningArtifact })
    else if !discarded.isEmpty && s.fullContent ≠ "" then finalText
    else if !discarded.isEmpty then .error (.truncatedToolCall discarded)
    else text
  else text

end Streamed

def streamedTurn (packages : Packages) (payloads : List Json) :
    Except OpenAiError ChatTurnResult := do
  (← Streamed.run packages payloads {}).result packages

/-! ### Ways of streaming an answer -/

namespace ResponseOutputItem

def text : ResponseOutputItem → String
  | message content => messageText content
  | _ => ""

def summary? : ResponseOutputItem → Option (List Json)
  | reasoning summary => some summary
  | _ => none

def call? : ResponseOutputItem → Option ChatToolCall
  | functionCall callId name arguments caller => some ⟨callId, name, arguments, caller⟩
  | _ => none

end ResponseOutputItem

/-- An output item and the value it is read from. -/
abbrev Item := Json × ResponseOutputItem

def textOf (items : List Item) : String := String.join (items.map fun item => item.2.text)

/-- The reasoning summaries of an answer. -/
def summariesOf (items : List Item) : List (List Json) := items.filterMap fun item => item.2.summary?

def reasoningText (summaries : List (List Json)) : String :=
  String.join (summaries.map fun summary => (extractReasoningText summary).getD "")

/-- The reasoning items of an answer, as they were received. -/
def reasoningItemsOf (items : List Item) : List Json :=
  items.filterMap fun item => item.2.summary?.map fun _ => item.1

def callsOf (items : List Item) : List ChatToolCall := items.filterMap fun item => item.2.call?

/-- An event about a call: a fragment of its arguments, or its name and arguments. -/
inductive CallEvent
  | delta (callId text : String)
  | done (callId name arguments : String)
deriving DecidableEq, Repr

namespace CallEvent

def callId : CallEvent → String
  | delta callId _ => callId
  | done callId _ _ => callId

end CallEvent

namespace StreamEvent

def text? : StreamEvent → Option String
  | textDelta text => some text
  | _ => none

def summary? : StreamEvent → Option (List Json)
  | reasoningSummary summary => some summary
  | _ => none

def item? : StreamEvent → Option Json
  | reasoningItem item => some item
  | _ => none

/-- An event about a call. -/
def call? : StreamEvent → Option CallEvent
  | functionCallArgumentsDelta callId text => some (.delta callId text)
  | functionCallArgumentsDone callId name arguments => some (.done callId name arguments)
  | _ => none

def endsStream : StreamEvent → Bool
  | responseCompleted .. | responseFailed _ | responseIncomplete => true
  | _ => false

end StreamEvent

/-- The events about one call. -/
def ownEvents (callId : String) (events : List CallEvent) : List CallEvent :=
  events.filter fun event => event.callId = callId

/-- The values announced for the item at a position. -/
def ownValues (position : ℕ) (tagged : List (ℕ × Json)) : List Json :=
  (tagged.filter fun entry => entry.1 = position).map Prod.snd

/-- The announcements of reasoning items, tagged with the positions of their items: each item is
announced when it is complete, and possibly once before with the same identity; and no item is
announced before those at earlier positions. -/
structure Announces (raws : List Json) (tagged : List (ℕ × Json)) : Prop where
  lt : ∀ entry ∈ tagged, entry.1 < raws.length
  own : ∀ position raw, raws[position]? = some raw → ownValues position tagged = [raw] ∨
    ∃ opened, itemId opened = itemId raw ∧ ownValues position tagged = [opened, raw]
  in_order : ∀ before position value after, tagged = before ++ (position, value) :: after →
    ∀ earlier < position, earlier ∈ before.map Prod.fst

/-- The events deliver the items: the fragments of the text add up to it; summaries may be sent, in
order; the reasoning items are announced; and the events of a call are fragments of its arguments
followed by its name and arguments, in any interleaving with those of other calls. -/
structure DeliversItems (items : List Item) (events : List StreamEvent) : Prop where
  not_ended : ∀ event ∈ events, event.endsStream = false
  text_eq : String.join (events.filterMap StreamEvent.text?) = textOf items
  summaries : (events.filterMap StreamEvent.summary?).Sublist (summariesOf items)
  announced : ∃ tagged, tagged.map Prod.snd = events.filterMap StreamEvent.item? ∧
    Announces (reasoningItemsOf items) tagged
  call_mem : ∀ event ∈ events.filterMap StreamEvent.call?,
    ∃ call ∈ callsOf items, call.id = event.callId
  call_own : ∀ call ∈ callsOf items, ∃ texts : List String,
    ownEvents call.id (events.filterMap StreamEvent.call?) =
      texts.map (CallEvent.delta call.id) ++ [.done call.id call.name call.argumentsJson]

/-- The payloads deliver the answer: up to its completion they are read as events that deliver its
items, besides payloads of unknown kinds. -/
def Delivers (packages : Packages) (responseId : Option String) (items : List Item)
    (events : List StreamEvent) (payloads : List Json) : Prop :=
  ∃ body last rest parsed usage, payloads = body ++ last :: rest ∧
    List.Forall₂ (fun payload event => parseStreamEvent packages payload = .ok event) body parsed ∧
    events = parsed.filterMap id ∧ DeliversItems items events ∧
    parseStreamEvent packages last = .ok (some (.responseCompleted responseId usage))

/-- What the answers have in common: their items can be read, their calls have distinct ids and
names, and there are at most as many calls as the limit. -/
structure Answer (packages : Packages) (items : List Item) : Prop where
  read : ∀ item ∈ items, packages.itemFromValue item.1 = some item.2
  nodup_ids : ((callsOf items).map (·.id)).Nodup
  name_ne : ∀ call ∈ callsOf items, call.name ≠ ""
  calls_le : (callsOf items).length ≤ maxToolCalls

/-- The same result, apart from the token counts. -/
def SameTurn : ChatTurnResult → ChatTurnResult → Prop
  | .finalText a, .finalText b => { a with usage := none } = { b with usage := none }
  | .toolUse a, .toolUse b => { a with usage := none } = { b with usage := none }
  | _, _ => False

/-- A stream gives what the whole answer gives. -/
def Agrees (packages : Packages) (responseId : Option String) (items : List Item)
    (usage : Option TokenUsage) (payloads : List Json) : Prop :=
  AgreeOn SameTurn (streamedTurn packages payloads)
    (responseToTurn packages responseId (items.map Prod.fst) usage)

/-! ### The condition -/

/-- The calls whose arguments are JSON. -/
def validCalls (packages : Packages) (calls : List ChatToolCall) : List ChatToolCall :=
  (validateToolCallArguments packages.toSerdeJson calls).1

def firstSeen (events : List CallEvent) : List String :=
  events.foldl (fun seen event =>
    if event.callId ∈ seen then seen else seen ++ [event.callId]) []

/-- Whenever a fragment of arguments comes, there are fewer calls before it than the limit. -/
def BelowLimit (events : List CallEvent) : Prop :=
  ∀ before callId text after, events = before ++ .delta callId text :: after →
    (firstSeen before).length < maxToolCalls

/-- The answers and events that are taken like the whole answer: no fragment comes after the limit is
reached; the summaries that are sent have the whole reasoning text; no two reasoning items have the
same identity, and those without one are announced once; no call with valid arguments has a caller;
and the first events of these calls come in the order of the calls. -/
structure StreamedLikeWhole (packages : Packages) (items : List Item) (events : List StreamEvent) :
    Prop where
  below : BelowLimit (events.filterMap StreamEvent.call?)
  reasoning : reasoningText (events.filterMap StreamEvent.summary?) =
    reasoningText (summariesOf items)
  nodup_items : ((reasoningItemsOf items).filterMap itemId).Nodup
  once : ((events.filterMap StreamEvent.item?).filter fun item => (itemId item).isNone).length =
    ((reasoningItemsOf items).filter fun item => (itemId item).isNone).length
  callers : ∀ call ∈ validCalls packages (callsOf items), call.caller = none
  order : ((firstSeen (events.filterMap StreamEvent.call?)).filter fun callId =>
      callId ∈ (validCalls packages (callsOf items)).map (·.id)) =
    (validCalls packages (callsOf items)).map (·.id)

def Fails (packages : Packages) (items : List Item) : Prop :=
  validCalls packages (callsOf items) = [] ∧ textOf items = ""

/-! ### Whole answers -/

theorem foldlM_read {packages : Packages} {items : List Item}
    (h : ∀ item ∈ items, packages.itemFromValue item.1 = some item.2) (c : Collected) :
    (items.map Prod.fst).foldlM (Collected.read packages) c =
      .ok {
        fullText := c.fullText ++ textOf items
        fullReasoning := c.fullReasoning ++ reasoningText (summariesOf items)
        toolCalls := c.toolCalls ++ callsOf items
        reasoningItems := c.reasoningItems ++ reasoningItemsOf items } := by
  induction items generalizing c with
  | nil => simp [textOf, reasoningText, summariesOf, callsOf, reasoningItemsOf, pure, Except.pure]
  | cons item items ih =>
    obtain ⟨raw, item⟩ := item
    have hraw := h (raw, item) mem_cons_self
    rw [map_cons, foldlM_cons, Collected.read, hraw]
    refine (ih (fun other hother => h other (mem_cons_of_mem _ hother)) _).trans ?_
    rcases item with content | summary | ⟨callId, name, arguments, caller⟩ | callId | callId <;>
      simp [Collected.add, textOf, reasoningText, summariesOf, callsOf, reasoningItemsOf,
        ResponseOutputItem.text, ResponseOutputItem.summary?, ResponseOutputItem.call?,
        String.join_cons, String.append_assoc]

variable {calls : List ChatToolCall}

theorem isEmpty_valid {packages : Packages} :
    (validateToolCallArguments packages.toSerdeJson calls).1.isEmpty = true ↔
      validCalls packages calls = [] :=
  List.isEmpty_iff

section Results

variable {packages : Packages} {responseId : Option String} {usage : Option TokenUsage}

theorem Collected.result_toolUse {c : Collected} (h : validCalls packages c.toolCalls ≠ []) :
    c.result packages responseId usage =
      .ok (.toolUse {
        content := nonempty c.fullText
        toolCalls := validCalls packages c.toolCalls
        reasoning := nonempty c.fullReasoning
        usage := usage
        responseId := responseId
        reasoningArtifact := responsesItemsArtifact packages c.reasoningItems }) := by
  have hvalid : (validateToolCallArguments packages.toSerdeJson c.toolCalls).1.isEmpty = false :=
    Bool.eq_false_iff.2 fun hempty => h (isEmpty_valid.1 hempty)
  simp only [Collected.result, hvalid, Bool.not_false, if_true]
  rfl

theorem Collected.result_finalText {c : Collected} (h : validCalls packages c.toolCalls = [])
    (htext : c.fullText ≠ "") :
    c.result packages responseId usage =
      .ok (.finalText {
        content := c.fullText
        reasoning := nonempty c.fullReasoning
        usage := usage
        responseId := responseId
        reasoningArtifact := responsesItemsArtifact packages c.reasoningItems }) := by
  simp only [Collected.result, isEmpty_valid.2 h, Bool.not_true, Bool.false_eq_true, if_false,
    if_neg htext, if_pos htext, ite_self]

theorem Collected.result_error {c : Collected} (h : validCalls packages c.toolCalls = [])
    (htext : c.fullText = "") :
    ∃ error, c.result packages responseId usage = .error error := by
  simp only [Collected.result, isEmpty_valid.2 h, Bool.not_true, Bool.false_eq_true, if_false,
    htext, ne_eq, not_true_eq_false, if_true]
  split_ifs
  · exact ⟨_, rfl⟩
  · exact ⟨_, rfl⟩

theorem Streamed.result_toolUse {s : Streamed} (houtput : s.accCalls ≠ [] → s.hasAnyOutput = true)
    (h : validCalls packages s.toolCalls ≠ []) :
    s.result packages =
      .ok (.toolUse {
        content := nonempty s.fullContent
        toolCalls := validCalls packages s.toolCalls
        reasoning := nonempty s.fullReasoning
        usage := s.lastUsage
        responseId := s.responseId
        reasoningArtifact := responsesItemsArtifact packages s.reasoningItems }) := by
  have hcalls : s.accCalls ≠ [] := by
    intro hnil
    refine h ?_
    simp [Streamed.toolCalls, hnil, validCalls, validateToolCallArguments]
  have hvalid : (validateToolCallArguments packages.toSerdeJson s.toolCalls).1.isEmpty = false :=
    Bool.eq_false_iff.2 fun hempty => h (isEmpty_valid.1 hempty)
  have hsome : s.accCalls.isEmpty = false :=
    Bool.eq_false_iff.2 fun hempty => hcalls (List.isEmpty_iff.1 hempty)
  simp only [Streamed.result, houtput hcalls, hsome, hvalid, Bool.not_true, Bool.not_false,
    Bool.false_eq_true, if_true, if_false]
  rfl

theorem Streamed.result_finalText {s : Streamed} (houtput : s.hasAnyOutput = true)
    (h : validCalls packages s.toolCalls = []) (htext : s.fullContent ≠ "") :
    s.result packages =
      .ok (.finalText {
        content := s.fullContent
        reasoning := nonempty s.fullReasoning
        usage := s.lastUsage
        responseId := s.responseId
        reasoningArtifact := responsesItemsArtifact packages s.reasoningItems }) := by
  simp only [Streamed.result, houtput, isEmpty_valid.2 h, Bool.not_true, Bool.false_eq_true,
    if_false, if_neg htext]
  rcases (validateToolCallArguments packages.toSerdeJson s.toolCalls).2.isEmpty with _ | _
  · simp [htext]
  · simp

theorem Streamed.result_error {s : Streamed} (h : validCalls packages s.toolCalls = [])
    (htext : s.fullContent = "") : ∃ error, s.result packages = .error error := by
  simp only [Streamed.result, isEmpty_valid.2 h, Bool.not_true, Bool.false_eq_true, if_false,
    htext, if_true, ne_eq, not_true_eq_false, decide_false, Bool.and_false]
  split_ifs
  · exact ⟨_, rfl⟩
  · exact ⟨_, rfl⟩
  · exact ⟨_, rfl⟩
  · exact ⟨_, rfl⟩

end Results

/-! ### Reasoning items -/

theorem mergeReasoningItem_cases (items : List Json) (item : Json) :
    (mergeReasoningItem items item = items ++ [item] ∧
      ∀ id, itemId item = some id → id ∉ items.filterMap itemId) ∨
    ∃ before other after id, items = before ++ other :: after ∧ itemId other = some id ∧
      itemId item = some id ∧ mergeReasoningItem items item = before ++ item :: after := by
  rw [mergeReasoningItem]
  rcases hid : itemId item with _ | id
  · exact Or.inl ⟨rfl, fun id hsome => by cases hsome⟩
  rcases hfind : items.findIdx? fun other => itemId other = some id with _ | position
  · refine Or.inl ⟨by simp only [hfind], ?_⟩
    rintro id' hid' hmem
    cases hid'
    obtain ⟨other, hother, heq⟩ := mem_filterMap.1 hmem
    exact absurd heq (of_decide_eq_false (List.findIdx?_eq_none_iff.1 hfind other hother))
  · obtain ⟨hlt, hfound, -⟩ := List.findIdx?_eq_some_iff_getElem.1 hfind
    refine Or.inr ⟨items.take position, items[position], items.drop (position + 1), id, ?_,
      of_decide_eq_true hfound, rfl, ?_⟩
    · rw [getElem_cons_drop, take_append_drop]
    · simp only [hfind]
      exact set_eq_take_append_cons_drop.trans (if_pos hlt)

theorem nodup_merge {items : List Json} (h : (items.filterMap itemId).Nodup) (item : Json) :
    ((mergeReasoningItem items item).filterMap itemId).Nodup := by
  rcases mergeReasoningItem_cases items item with
    ⟨hmerge, hnew⟩ | ⟨before, other, after, id, hitems, hother, hid, hmerge⟩
  · rw [hmerge, filterMap_append]
    rcases hid : itemId item with _ | id
    · rwa [filterMap_cons_none hid, filterMap_nil, append_nil]
    · rw [filterMap_cons_some hid, filterMap_nil]
      exact nodup_append.2 ⟨h, nodup_singleton id,
        fun a ha b hb hab => hnew id hid (mem_singleton.1 hb ▸ hab ▸ ha)⟩
  · rw [hitems, filterMap_append, filterMap_cons_some hother] at h
    rwa [hmerge, filterMap_append, filterMap_cons_some hid]

/-- How many items have no identity. -/
def anonymousCount (items : List Json) : ℕ :=
  (items.filter fun item => (itemId item).isNone).length

theorem anonymousCount_append (items more : List Json) :
    anonymousCount (items ++ more) = anonymousCount items + anonymousCount more := by
  rw [anonymousCount, filter_append, length_append, anonymousCount, anonymousCount]

theorem anonymousCount_merge (items : List Json) (item : Json) :
    anonymousCount (mergeReasoningItem items item) =
      anonymousCount items + anonymousCount [item] := by
  rcases mergeReasoningItem_cases items item with
    ⟨hmerge, -⟩ | ⟨before, other, after, id, hitems, hother, hid, hmerge⟩
  · rw [hmerge, anonymousCount_append]
  · have hnamed : ∀ {value : Json}, itemId value = some id → ∀ values,
        anonymousCount (value :: values) = anonymousCount values := by
      intro value hvalue values
      simp [anonymousCount, hvalue]
    rw [hmerge, hitems, anonymousCount_append, anonymousCount_append, hnamed hid, hnamed hother,
      hnamed hid, anonymousCount]
    rfl

theorem anonymousCount_foldl (items values : List Json) :
    anonymousCount (values.foldl mergeReasoningItem items) =
      anonymousCount items + anonymousCount values := by
  induction values generalizing items with
  | nil => rfl
  | cons value values ih =>
    have hsplit := anonymousCount_append [value] values
    rw [singleton_append] at hsplit
    rw [foldl_cons, ih, anonymousCount_merge, hsplit, Nat.add_assoc]

variable {raws : List Json}

theorem position_eq_of_itemId (h : (raws.filterMap itemId).Nodup)
    {position position' : ℕ} {raw raw' : Json} {id : String} (hraw : raws[position]? = some raw)
    (hraw' : raws[position']? = some raw') (hid : itemId raw = some id)
    (hid' : itemId raw' = some id) : position = position' := by
  obtain ⟨hlt, rfl⟩ := List.getElem?_eq_some_iff.1 hraw
  obtain ⟨hlt', rfl⟩ := List.getElem?_eq_some_iff.1 hraw'
  rw [List.Nodup, pairwise_filterMap, pairwise_iff_getElem] at h
  rcases Nat.lt_trichotomy position position' with hless | heq | hless
  · exact absurd rfl (h position position' hlt hlt' hless id hid id hid')
  · exact heq
  · exact absurd rfl (h position' position hlt' hlt hless id hid' id hid)

namespace Announces

variable {raws : List Json} {tagged : List (ℕ × Json)} {entry : ℕ × Json}

theorem mem_ownValues (h : entry ∈ tagged) :
    entry.2 ∈ ownValues entry.1 tagged :=
  mem_map.2 ⟨entry, mem_filter.2 ⟨h, decide_eq_true rfl⟩, rfl⟩

variable {raw : Json}

theorem itemId_eq (h : Announces raws tagged) (hentry : entry ∈ tagged)
    (hraw : raws[entry.1]? = some raw) : itemId entry.2 = itemId raw := by
  have hmem := mem_ownValues hentry
  rcases h.own entry.1 raw hraw with hown | ⟨opened, hopened, hown⟩
  · rw [hown] at hmem
    rw [mem_singleton.1 hmem]
  · rw [hown] at hmem
    rcases mem_cons.1 hmem with heq | hmem
    · rw [heq, hopened]
    · rw [mem_singleton.1 hmem]

theorem exists_raw (h : Announces raws tagged) (hentry : entry ∈ tagged) :
    ∃ raw, raws[entry.1]? = some raw :=
  ⟨_, List.getElem?_eq_getElem (h.lt entry hentry)⟩

theorem getLast?_ownValues (h : Announces raws tagged) {position : ℕ}
    (hraw : raws[position]? = some raw) : (ownValues position tagged).getLast? = some raw := by
  rcases h.own position raw hraw with hown | ⟨opened, -, hown⟩
  · rw [hown]
    rfl
  · rw [hown]
    rfl

theorem mem_tags (h : Announces raws tagged) {position : ℕ}
    (hraw : raws[position]? = some raw) : position ∈ tagged.map Prod.fst := by
  have hne : ownValues position tagged ≠ [] := by
    intro hnil
    have hlast := h.getLast?_ownValues hraw
    rw [hnil] at hlast
    cases hlast
  obtain ⟨value, hvalue⟩ := exists_mem_of_ne_nil _ hne
  obtain ⟨entry, hentry, -⟩ := mem_map.1 hvalue
  obtain ⟨hmem, htag⟩ := mem_filter.1 hentry
  exact mem_map.2 ⟨entry, hmem, of_decide_eq_true htag⟩

/-- The positions of the announcements without an identity. -/
def anonymousTags (tagged : List (ℕ × Json)) : List ℕ :=
  (tagged.filter fun entry => (itemId entry.2).isNone).map Prod.fst

/-- The positions of the items without an identity. -/
def anonymousPositions (raws : List Json) : List ℕ :=
  (List.range raws.length).filter fun position => ((raws[position]?).bind itemId).isNone

theorem length_anonymousTags (tagged : List (ℕ × Json)) :
    (anonymousTags tagged).length = anonymousCount (tagged.map Prod.snd) := by
  rw [anonymousTags, anonymousCount, filter_map, List.length_map, List.length_map]
  rfl

theorem length_anonymousPositions (raws : List Json) :
    (anonymousPositions raws).length = anonymousCount raws := by
  have hraws : raws = (List.range raws.length).map fun position => raws[position]?.getD .null := by
    refine ext_getElem (by simp) fun position hleft hright => ?_
    simp [hleft]
  have hcount : anonymousCount raws = ((List.range raws.length).filter fun position =>
      (itemId (raws[position]?.getD .null)).isNone).length := by
    conv_lhs => rw [hraws]
    rw [anonymousCount, filter_map, List.length_map]
    rfl
  rw [hcount, anonymousPositions]
  refine congrArg List.length (filter_congr fun position hposition => ?_)
  rw [List.getElem?_eq_getElem (mem_range.1 hposition)]
  rfl

/-- Items without an identity are announced once, if as many announcements without one come as there
are such items. -/
theorem ownValues_of_anonymous (h : Announces raws tagged)
    (hcount : anonymousCount (tagged.map Prod.snd) = anonymousCount raws) {position : ℕ}
    (hraw : raws[position]? = some raw) (hid : itemId raw = none) :
    ownValues position tagged = [raw] := by
  have hsubset : anonymousPositions raws ⊆ anonymousTags tagged := by
    intro other hother
    obtain ⟨hrange, hnone⟩ := mem_filter.1 hother
    obtain ⟨raw', hother'⟩ : ∃ raw', raws[other]? = some raw' :=
      ⟨_, List.getElem?_eq_getElem (mem_range.1 hrange)⟩
    obtain ⟨entry, hentry, htag⟩ := mem_map.1 (h.mem_tags hother')
    refine mem_map.2 ⟨entry, mem_filter.2 ⟨hentry, ?_⟩, htag⟩
    rw [hother'] at hnone
    rw [← htag] at hother'
    rwa [h.itemId_eq hentry hother']
  have hnodup : (anonymousPositions raws).Nodup := nodup_range.filter _
  have hperm : (anonymousPositions raws).Perm (anonymousTags tagged) := by
    refine (subperm_of_subset hnodup hsubset).perm_of_length_le ?_
    rw [length_anonymousTags, length_anonymousPositions, hcount]
  have hle := nodup_iff_count_le_one.1 (hperm.nodup_iff.1 hnodup) position
  rcases h.own position raw hraw with hown | ⟨opened, -, hown⟩
  · exact hown
  · have htwo : (anonymousTags tagged).count position = (ownValues position tagged).length := by
      rw [anonymousTags, ownValues, List.length_map, List.count, countP_map,
        countP_eq_length_filter, filter_filter]
      refine congrArg List.length (filter_congr fun entry hentry => ?_)
      by_cases htag : entry.1 = position
      · simp [htag, h.itemId_eq hentry (htag ▸ hraw), hid]
      · simp [htag]
    rw [htwo, hown] at hle
    exact absurd hle (by simp)

end Announces

/-- The merged values of some announcements: the last value of each item that was announced, at its
position. -/
structure Merged (before : List (ℕ × Json)) (merged : List Json) : Prop where
  tags_iff : ∀ position, position ∈ before.map Prod.fst ↔ position < merged.length
  get_eq : ∀ position < merged.length, merged[position]? = (ownValues position before).getLast?

theorem merged_nil : Merged [] [] where
  tags_iff position := by simp
  get_eq position hlt := absurd hlt (Nat.not_lt_zero position)

theorem ownValues_append (position : ℕ) (before after : List (ℕ × Json)) :
    ownValues position (before ++ after) =
      ownValues position before ++ ownValues position after := by
  rw [ownValues, filter_append, map_append, ownValues, ownValues]

theorem ownValues_cons_self (entry : ℕ × Json) (after : List (ℕ × Json)) :
    ownValues entry.1 (entry :: after) = entry.2 :: ownValues entry.1 after := by
  simp [ownValues]

theorem ownValues_concat (position : ℕ) (before : List (ℕ × Json)) (entry : ℕ × Json) :
    ownValues position (before ++ [entry]) =
      if entry.1 = position then ownValues position before ++ [entry.2]
      else ownValues position before := by
  by_cases htag : entry.1 = position
  · simp [ownValues, htag]
  · simp [ownValues, htag]

variable {merged : List Json} {before after : List (ℕ × Json)}

theorem Merged.itemId_eq
    (hmerged : Merged before merged) (h : Announces raws (before ++ after)) {position : ℕ}
    {value raw : Json} (hvalue : merged[position]? = some value)
    (hraw : raws[position]? = some raw) : itemId value = itemId raw := by
  obtain ⟨hlt, -⟩ := List.getElem?_eq_some_iff.1 hvalue
  rw [hmerged.get_eq position hlt] at hvalue
  obtain ⟨entry, hentry, rfl⟩ := mem_map.1 (List.mem_of_getLast? hvalue)
  obtain ⟨hmem, htag⟩ := mem_filter.1 hentry
  refine h.itemId_eq (mem_append_left _ hmem) ?_
  rwa [of_decide_eq_true htag]

variable {entry : ℕ × Json}

/-- The next announcement of an item that was not announced is added at the end. -/
theorem Merged.concat_new {before : List (ℕ × Json)}
    (hmerged : Merged before merged) (hnew : entry.1 = merged.length) :
    Merged (before ++ [entry]) (merged ++ [entry.2]) where
  tags_iff position := by
    rw [map_append, mem_append, hmerged.tags_iff, length_append,
      length_singleton, map_singleton, mem_singleton, hnew]
    omega
  get_eq position hlt := by
    rw [length_append, length_singleton] at hlt
    rw [ownValues_concat, List.getElem?_append]
    by_cases hold : position < merged.length
    · rw [if_pos hold, if_neg (by omega), hmerged.get_eq position hold]
    · have heq : position = merged.length := by omega
      rw [if_neg hold, if_pos (hnew.trans heq.symm), heq, Nat.sub_self, List.getLast?_concat]
      rfl

theorem Merged.concat_old {before : List (ℕ × Json)}
    (hmerged : Merged before merged) (hold : entry.1 < merged.length) :
    Merged (before ++ [entry]) (merged.set entry.1 entry.2) where
  tags_iff position := by
    rw [map_append, mem_append, hmerged.tags_iff, length_set, map_singleton,
      mem_singleton]
    omega
  get_eq position hlt := by
    rw [length_set] at hlt
    rw [ownValues_concat, List.getElem?_set]
    by_cases htag : entry.1 = position
    · rw [if_pos htag, if_pos htag, if_pos (htag ▸ hold), List.getLast?_concat]
    · rw [if_neg htag, if_neg htag, hmerged.get_eq position hlt]

theorem Merged.step
    (hmerged : Merged before merged)
    (h : Announces raws (before ++ entry :: after)) (hnodup : (raws.filterMap itemId).Nodup)
    (hcount : anonymousCount ((before ++ entry :: after).map Prod.snd) = anonymousCount raws) :
    Merged (before ++ [entry]) (mergeReasoningItem merged entry.2) := by
  have hmem : entry ∈ before ++ entry :: after := mem_append_right _ mem_cons_self
  obtain ⟨raw, hraw⟩ := h.exists_raw hmem
  have hentry := h.itemId_eq hmem hraw
  have hle : entry.1 ≤ merged.length := by
    by_contra hgt
    have htag := h.in_order before entry.1 entry.2 after rfl merged.length (by omega)
    exact absurd ((hmerged.tags_iff _).1 htag) (lt_irrefl _)
  rcases mergeReasoningItem_cases merged entry.2 with
    ⟨hmerge, hfresh⟩ | ⟨first, other, rest, id, hsplit, hother, hid, hmerge⟩
  · rw [hmerge]
    refine hmerged.concat_new (le_antisymm hle (Nat.not_lt.1 fun hold => ?_))
    have hvalue := List.getElem?_eq_getElem hold
    rcases hanonymous : itemId raw with _ | id
    · -- An item without an identity has no second announcement.
      have hown := h.ownValues_of_anonymous hcount hraw hanonymous
      have hbefore : ownValues entry.1 before ≠ [] := by
        intro hnil
        rw [hmerged.get_eq _ hold, hnil] at hvalue
        cases hvalue
      have hlength := congrArg List.length hown
      have hpos := length_pos_iff.2 hbefore
      rw [ownValues_append, ownValues_cons_self, length_append, length_cons,
        length_singleton] at hlength
      omega
    · have hmemId : id ∈ merged.filterMap itemId := by
        refine mem_filterMap.2 ⟨_, getElem_mem hold, ?_⟩
        rw [hmerged.itemId_eq h hvalue hraw, hanonymous]
      exact hfresh id (hentry.trans hanonymous) hmemId
  · have hget : merged[first.length]? = some other := by
      rw [hsplit, List.getElem?_append_right le_rfl, Nat.sub_self, List.getElem?_cons_zero]
    obtain ⟨hlt, -⟩ := List.getElem?_eq_some_iff.1 hget
    obtain ⟨entry', hentry', htag⟩ := mem_map.1 ((hmerged.tags_iff _).2 hlt)
    obtain ⟨raw', hraw'⟩ := h.exists_raw (mem_append_left _ hentry')
    rw [htag] at hraw'
    have hposition : first.length = entry.1 :=
      position_eq_of_itemId hnodup hraw' hraw ((hmerged.itemId_eq h hget hraw').symm.trans hother)
        (hentry.symm.trans hid)
    have hset : first ++ entry.2 :: rest = merged.set entry.1 entry.2 := by
      rw [← hposition, hsplit, set_append_right _ _ le_rfl, Nat.sub_self, set_cons_zero]
    rw [hmerge, hset]
    exact hmerged.concat_old (hposition ▸ hlt)

theorem Merged.run
    (hmerged : Merged before merged) (h : Announces raws (before ++ after))
    (hnodup : (raws.filterMap itemId).Nodup)
    (hcount : anonymousCount ((before ++ after).map Prod.snd) = anonymousCount raws) :
    Merged (before ++ after) ((after.map Prod.snd).foldl mergeReasoningItem merged) := by
  induction after generalizing before merged with
  | nil => rwa [append_nil]
  | cons entry after ih =>
    have hstep := hmerged.step h hnodup hcount
    rw [append_cons] at h hcount ⊢
    exact ih hstep h hcount

/-- The reasoning items of a stream are those of the answer exactly when no two of them have the same
identity and those without one are announced once. -/
theorem merge_eq_iff {raws values : List Json}
    (h : ∃ tagged, tagged.map Prod.snd = values ∧ Announces raws tagged) :
    values.foldl mergeReasoningItem [] = raws ↔
      (raws.filterMap itemId).Nodup ∧ anonymousCount values = anonymousCount raws := by
  obtain ⟨tagged, rfl, h⟩ := h
  constructor
  · intro hmerge
    constructor
    · rw [← hmerge]
      exact Folds.foldl_invariant
        (P := fun items : List Json => (items.filterMap itemId).Nodup)
        (fun items item hitems => nodup_merge hitems item) _ nodup_nil
    · have hcount := anonymousCount_foldl [] (tagged.map Prod.snd)
      have hzero : anonymousCount [] = 0 := rfl
      rw [hmerge, hzero, Nat.zero_add] at hcount
      exact hcount.symm
  · rintro ⟨hnodup, hcount⟩
    have hmerged := merged_nil.run h hnodup hcount
    rw [nil_append] at hmerged
    refine ext_getElem? fun position => ?_
    rcases hraw : raws[position]? with _ | raw
    · refine List.getElem?_eq_none_iff.2 (Nat.not_lt.1 fun hlt => ?_)
      obtain ⟨entry, hentry, htag⟩ := mem_map.1 ((hmerged.tags_iff _).2 hlt)
      have hlt' := h.lt entry hentry
      rw [htag] at hlt'
      exact absurd hlt' (Nat.not_lt.2 (List.getElem?_eq_none_iff.1 hraw))
    · rw [hmerged.get_eq position ((hmerged.tags_iff _).1 (h.mem_tags hraw)),
        h.getLast?_ownValues hraw]

/-! ### Calls -/

/-- What an event about a call does to its entry. -/
def AccCall.apply (call : AccCall) : CallEvent → AccCall
  | .delta _ text => { call with arguments := call.arguments ++ text }
  | .done _ name arguments => { call with name := some name, arguments := arguments }

def accumulatedCall (events : List CallEvent) (entry : String × ℕ) : String × AccCall :=
  (entry.1, (ownEvents entry.1 events).foldl AccCall.apply { index := entry.2 })

/-- What is known of the calls after some events: there is an entry for each, numbered by the places
of their first events. -/
structure ReadsCalls (events : List CallEvent) (s : Streamed) : Prop where
  calls_eq : s.accCalls = (firstSeen events).zipIdx.map (accumulatedCall events)
  next_eq : s.nextToolIndex = (firstSeen events).length

theorem firstSeen_concat (events : List CallEvent) (event : CallEvent) :
    firstSeen (events ++ [event]) =
      if event.callId ∈ firstSeen events then firstSeen events
      else firstSeen events ++ [event.callId] := by
  rw [firstSeen, foldl_append]
  rfl

theorem ownEvents_concat (callId : String) (events : List CallEvent) (event : CallEvent) :
    ownEvents callId (events ++ [event]) =
      if event.callId = callId then ownEvents callId events ++ [event]
      else ownEvents callId events := by
  by_cases h : event.callId = callId
  · simp [ownEvents, h]
  · simp [ownEvents, h]

theorem mem_firstSeen_iff {events : List CallEvent} {callId : String} :
    callId ∈ firstSeen events ↔ callId ∈ events.map CallEvent.callId := by
  induction events using List.reverseRecOn with
  | nil => rfl
  | append_singleton events event ih =>
    rw [firstSeen_concat, map_append, mem_append, map_singleton, mem_singleton,
      ← ih]
    by_cases h : event.callId ∈ firstSeen events
    · rw [if_pos h]
      refine ⟨Or.inl, fun hmem => hmem.elim id fun heq => ?_⟩
      rwa [heq]
    · rw [if_neg h, mem_append, mem_singleton]

theorem ownEvents_eq_nil {events : List CallEvent} {callId : String}
    (h : callId ∉ firstSeen events) : ownEvents callId events = [] := by
  refine filter_eq_nil_iff.2 fun event hevent hown => h (mem_firstSeen_iff.2 ?_)
  exact mem_map.2 ⟨event, hevent, of_decide_eq_true hown⟩

theorem accumulatedCall_concat (events : List CallEvent) (event : CallEvent)
    (entry : String × ℕ) :
    accumulatedCall (events ++ [event]) entry =
      if entry.1 = event.callId then
        (entry.1, (accumulatedCall events entry).2.apply event)
      else accumulatedCall events entry := by
  rw [accumulatedCall, ownEvents_concat]
  by_cases h : event.callId = entry.1
  · rw [if_pos h, if_pos h.symm, foldl_append]
    rfl
  · rw [if_neg h, if_neg (Ne.symm h)]
    rfl

theorem map_fst_accumulatedCall (events : List CallEvent) (seen : List String) :
    (seen.zipIdx.map (accumulatedCall events)).map Prod.fst = seen := by
  rw [map_map]
  exact zipIdx_map_fst 0 seen

variable {s : Streamed}

theorem ReadsCalls.modifyCall {events : List CallEvent} (h : ReadsCalls events s)
    (event : CallEvent) :
    ReadsCalls (events ++ [event]) (s.modifyCall event.callId (AccCall.apply · event)) := by
  rw [Streamed.modifyCall, h.calls_eq, map_fst_accumulatedCall]
  have hconcat := firstSeen_concat events event
  by_cases hmem : event.callId ∈ firstSeen events
  · rw [if_pos (contains_iff_mem.2 hmem)]
    rw [if_pos hmem] at hconcat
    refine ⟨?_, ?_⟩
    · rw [hconcat, map_map]
      refine map_congr_left fun entry _ => ?_
      rw [accumulatedCall_concat]
      rfl
    · rw [hconcat]
      exact h.next_eq
  · rw [if_neg (mt contains_iff_mem.1 hmem)]
    rw [if_neg hmem] at hconcat
    refine ⟨?_, ?_⟩
    · have hold : ∀ entry ∈ (firstSeen events).zipIdx,
          accumulatedCall (events ++ [event]) entry = accumulatedCall events entry := by
        intro entry hentry
        have hseen : entry.1 ∈ firstSeen events := (mem_zipIdx' hentry).2 ▸ getElem_mem _
        rw [accumulatedCall_concat, if_neg]
        rintro heq
        exact hmem (heq ▸ hseen)
      rw [hconcat, zipIdx_append, map_append, map_congr_left hold, h.next_eq]
      simp [accumulatedCall, ownEvents_concat, ownEvents_eq_nil hmem]
    · rw [hconcat, length_append, ← h.next_eq]
      rfl

theorem index_foldl_apply (events : List CallEvent) (call : AccCall) :
    (events.foldl AccCall.apply call).index = call.index := by
  refine Folds.foldl_invariant (P := fun c : AccCall => c.index = call.index) ?_ events rfl
  rintro c (⟨callId, text⟩ | ⟨callId, name, arguments⟩) hc
  · exact hc
  · exact hc

theorem pairwise_index (events : List CallEvent) (seen : List String) :
    (seen.zipIdx.map (accumulatedCall events)).Pairwise fun a b =>
      decide (a.2.index ≤ b.2.index) = true := by
  rw [pairwise_map, pairwise_iff_getElem]
  intro i j hi hj hij
  rw [decide_eq_true_iff, accumulatedCall, accumulatedCall, index_foldl_apply, index_foldl_apply,
    getElem_zipIdx, getElem_zipIdx]
  exact Nat.add_le_add_left hij.le 0

def streamedCall (calls : List ChatToolCall) (callId : String) : Option ChatToolCall :=
  (calls.find? fun call => call.id = callId).map fun call => { call with caller := none }

/-- The events of some calls: each is about one of them, and those about one are fragments followed
by its name and arguments. -/
structure EventsOf (calls : List ChatToolCall) (events : List CallEvent) : Prop where
  mem : ∀ event ∈ events, ∃ call ∈ calls, call.id = event.callId
  own : ∀ call ∈ calls, ∃ texts : List String, ownEvents call.id events =
    texts.map (CallEvent.delta call.id) ++ [.done call.id call.name call.argumentsJson]

/-- The calls of a stream are those of the answer without their callers, in the order of their first
events. -/
theorem ReadsCalls.toolCalls_eq {events : List CallEvent} (h : ReadsCalls events s)
    (hevents : EventsOf calls events)
    (hname : ∀ call ∈ calls, call.name ≠ "") :
    s.toolCalls = (firstSeen events).filterMap (streamedCall calls) := by
  rw [Streamed.toolCalls, h.calls_eq,
    mergeSort_of_pairwise (pairwise_index events (firstSeen events)), filterMap_map]
  conv_rhs => rw [← zipIdx_map_fst 0 (firstSeen events), filterMap_map]
  refine filterMap_congr fun entry hentry => ?_
  have hseen : entry.1 ∈ firstSeen events := (mem_zipIdx' hentry).2 ▸ getElem_mem _
  obtain ⟨event, hevent, hid⟩ := mem_map.1 (mem_firstSeen_iff.1 hseen)
  obtain ⟨call, hcall, hcallId⟩ := hevents.mem event hevent
  rcases hfind : calls.find? fun call => call.id = entry.1 with _ | found
  · exact absurd (decide_eq_true (hcallId.trans hid)) (List.find?_eq_none.1 hfind call hcall)
  · have hfound := List.mem_of_find?_eq_some hfind
    have hfoundId : found.id = entry.1 := by simpa using List.find?_some hfind
    obtain ⟨texts, hown⟩ := hevents.own found hfound
    rw [hfoundId] at hown
    simp [accumulatedCall, streamedCall, hfind, hown, AccCall.apply, hname found hfound,
      Option.filter_some, hfoundId]

theorem validCalls_eq_filter (packages : Packages) (calls : List ChatToolCall) :
    validCalls packages calls =
      calls.filter fun call => (packages.fromStr call.argumentsJson).isSome := by
  rw [validCalls, validateToolCallArguments, partition_eq_filter_filter]

theorem streamedCall_of_mem (hnodup : (calls.map (·.id)).Nodup)
    {call : ChatToolCall} (hcall : call ∈ calls) :
    streamedCall calls call.id = some { call with caller := none } := by
  rcases hfind : calls.find? fun other => other.id = call.id with _ | found
  · exact absurd (decide_eq_true rfl) (List.find?_eq_none.1 hfind call hcall)
  · have hfound := List.mem_of_find?_eq_some hfind
    have hid : found.id = call.id := by simpa using List.find?_some hfind
    have heq : found = call := inj_on_of_nodup_map hnodup hfound hcall hid
    rw [streamedCall, hfind, heq]
    rfl

section ValidCalls

variable {packages : Packages} {calls : List ChatToolCall} {events : List CallEvent}

theorem validCalls_streamed (hevents : EventsOf calls events)
    (hnodup : (calls.map (·.id)).Nodup) :
    validCalls packages ((firstSeen events).filterMap (streamedCall calls)) =
      ((firstSeen events).filter fun callId =>
        callId ∈ (validCalls packages calls).map (·.id)).filterMap (streamedCall calls) := by
  rw [validCalls_eq_filter, validCalls_eq_filter, filter_filterMap, filterMap_filter]
  refine filterMap_congr fun callId hcallId => ?_
  obtain ⟨event, hevent, rfl⟩ := mem_map.1 (mem_firstSeen_iff.1 hcallId)
  obtain ⟨call, hcall, hid⟩ := hevents.mem event hevent
  rw [← hid, streamedCall_of_mem hnodup hcall]
  have hvalid : call.id ∈ (calls.filter fun call =>
      (packages.fromStr call.argumentsJson).isSome).map (·.id) ↔
        (packages.fromStr call.argumentsJson).isSome = true := by
    constructor
    · intro hmem
      obtain ⟨other, hother, heq⟩ := mem_map.1 hmem
      obtain ⟨hotherMem, hotherParse⟩ := mem_filter.1 hother
      rwa [inj_on_of_nodup_map hnodup hotherMem hcall heq] at hotherParse
    · intro hparse
      exact mem_map.2 ⟨call, mem_filter.2 ⟨hcall, hparse⟩, rfl⟩
  rw [Option.filter_some]
  by_cases hparse : (packages.fromStr call.argumentsJson).isSome = true
  · rw [if_pos hparse, if_pos (decide_eq_true (hvalid.2 hparse))]
  · rw [if_neg hparse, if_neg (mt (fun hmem => hvalid.1 (of_decide_eq_true hmem)) hparse)]

theorem filterMap_streamedCall (hnodup : (calls.map (·.id)).Nodup) :
    ((validCalls packages calls).map (·.id)).filterMap (streamedCall calls) =
      (validCalls packages calls).map fun call => { call with caller := none } := by
  rw [validCalls_eq_filter, filterMap_map, ← filterMap_eq_map]
  refine filterMap_congr fun call hcall => ?_
  exact streamedCall_of_mem hnodup (mem_filter.1 hcall).1

theorem map_id_filterMap_streamedCall (hevents : EventsOf calls events)
    (hnodup : (calls.map (·.id)).Nodup) {callIds : List String}
    (hsub : ∀ callId ∈ callIds, callId ∈ firstSeen events) :
    (callIds.filterMap (streamedCall calls)).map (·.id) = callIds := by
  rw [map_filterMap]
  conv_rhs => rw [← filterMap_some (l := callIds)]
  refine filterMap_congr fun callId hcallId => ?_
  obtain ⟨event, hevent, rfl⟩ := mem_map.1 (mem_firstSeen_iff.1 (hsub callId hcallId))
  obtain ⟨call, hcall, hid⟩ := hevents.mem event hevent
  rw [← hid, streamedCall_of_mem hnodup hcall]
  rfl

theorem mem_firstSeen_of_mem (hevents : EventsOf calls events) {call : ChatToolCall}
    (hcall : call ∈ calls) : call.id ∈ firstSeen events := by
  obtain ⟨texts, hown⟩ := hevents.own call hcall
  have hmem : CallEvent.done call.id call.name call.argumentsJson ∈ ownEvents call.id events := by
    rw [hown]
    exact mem_append_right _ (mem_singleton_self _)
  exact mem_firstSeen_iff.2 (mem_map.2 ⟨_, (mem_filter.1 hmem).1, rfl⟩)

/-- The streamed calls are those of the answer exactly when none of these has a caller and their
first events come in their order. -/
theorem validCalls_streamed_eq_iff (hevents : EventsOf calls events)
    (hnodup : (calls.map (·.id)).Nodup) :
    validCalls packages ((firstSeen events).filterMap (streamedCall calls)) =
        validCalls packages calls ↔
      (∀ call ∈ validCalls packages calls, call.caller = none) ∧
        ((firstSeen events).filter fun callId =>
          callId ∈ (validCalls packages calls).map (·.id)) =
        (validCalls packages calls).map (·.id) := by
  rw [validCalls_streamed hevents hnodup]
  constructor
  · intro heq
    constructor
    · intro call hcall
      rw [← heq] at hcall
      obtain ⟨callId, -, hstreamed⟩ := mem_filterMap.1 hcall
      obtain ⟨found, -, rfl⟩ := Option.map_eq_some_iff.1 hstreamed
      rfl
    · conv_rhs => rw [← heq]
      exact (map_id_filterMap_streamedCall hevents hnodup
        fun callId hcallId => (mem_filter.1 hcallId).1).symm
  · rintro ⟨hcallers, horder⟩
    rw [horder, filterMap_streamedCall hnodup]
    refine (map_congr_left fun call hcall => ?_).trans (map_id' _)
    rw [← hcallers call hcall]

theorem validCalls_streamed_eq_nil_iff (hevents : EventsOf calls events)
    (hnodup : (calls.map (·.id)).Nodup) :
    validCalls packages ((firstSeen events).filterMap (streamedCall calls)) = [] ↔
      validCalls packages calls = [] := by
  rw [validCalls_streamed hevents hnodup]
  constructor
  · intro hnil
    refine eq_nil_iff_forall_not_mem.2 fun call hcall => ?_
    have hmem : call ∈ calls := by
      rw [validCalls_eq_filter] at hcall
      exact (mem_filter.1 hcall).1
    have hid : call.id ∈ (firstSeen events).filter fun callId =>
        callId ∈ (validCalls packages calls).map (·.id) :=
      mem_filter.2 ⟨mem_firstSeen_of_mem hevents hmem,
        decide_eq_true (mem_map.2 ⟨call, hcall, rfl⟩)⟩
    have hnone := filterMap_eq_nil_iff.1 hnil call.id hid
    rw [streamedCall_of_mem hnodup hmem] at hnone
    cases hnone
  · intro hnil
    simp [hnil]

end ValidCalls

/-! ### Reading a stream -/

/-- What is known after some events. -/
structure Reads (events : List StreamEvent) (s : Streamed) : Prop where
  content_eq : s.fullContent = String.join (events.filterMap StreamEvent.text?)
  reasoning_eq : s.fullReasoning = reasoningText (events.filterMap StreamEvent.summary?)
  items_eq : s.reasoningItems =
    (events.filterMap StreamEvent.item?).foldl mergeReasoningItem []
  calls : ReadsCalls (events.filterMap StreamEvent.call?) s
  output : s.hasAnyOutput = false → s.fullContent = "" ∧ s.accCalls = []

theorem reads_nil : Reads [] {} where
  content_eq := rfl
  reasoning_eq := rfl
  items_eq := rfl
  calls := ⟨rfl, rfl⟩
  output := fun _ => ⟨rfl, rfl⟩

/-- Whenever a fragment of arguments of the second list comes, there are fewer calls in the first
list and before it than the limit. -/
def BelowFrom : List CallEvent → List CallEvent → Prop
  | _, [] => True
  | before, .delta callId text :: events =>
    (firstSeen before).length < maxToolCalls ∧ BelowFrom (before ++ [.delta callId text]) events
  | before, event :: events => BelowFrom (before ++ [event]) events

theorem belowFrom_cons (seen : List CallEvent) (event : CallEvent) (events : List CallEvent) :
    BelowFrom seen (event :: events) ↔
      (∀ callId text, event = .delta callId text → (firstSeen seen).length < maxToolCalls) ∧
        BelowFrom (seen ++ [event]) events := by
  rcases event with ⟨callId, text⟩ | ⟨callId, name, arguments⟩
  · exact and_congr_left fun _ => ⟨fun h _ _ _ => h, fun h => h callId text rfl⟩
  · exact (and_iff_right fun _ _ heq => by cases heq).symm

theorem belowFrom_iff (seen events : List CallEvent) :
    BelowFrom seen events ↔ ∀ before callId text after,
      events = before ++ .delta callId text :: after →
        (firstSeen (seen ++ before)).length < maxToolCalls := by
  induction events generalizing seen with
  | nil =>
    refine iff_of_true trivial fun before callId text after h => ?_
    exact absurd h.symm (append_ne_nil_of_right_ne_nil _ (cons_ne_nil _ _))
  | cons event events ih =>
    rw [belowFrom_cons, ih]
    constructor
    · rintro ⟨hfirst, hrest⟩ (_ | ⟨first, before⟩) callId text after h
      · rw [append_nil]
        exact hfirst callId text (cons.inj h).1
      · obtain ⟨rfl, htail⟩ := cons.inj h
        have hlater := hrest before callId text after htail
        rwa [append_assoc] at hlater
    · intro h
      refine ⟨fun callId text heq => ?_, fun before callId text after htail => ?_⟩
      · have hfirst := h [] callId text events (by rw [heq, nil_append])
        rwa [append_nil] at hfirst
      · have hlater := h (event :: before) callId text after (by rw [htail, cons_append])
        rwa [append_assoc]

theorem belowLimit_iff (events : List CallEvent) : BelowLimit events ↔ BelowFrom [] events := by
  rw [belowFrom_iff]
  rfl

theorem ReadsCalls.length_eq {events : List CallEvent} (h : ReadsCalls events s) :
    s.accCalls.length = (firstSeen events).length := by
  rw [h.calls_eq, List.length_map, length_zipIdx]

/-- Reading a call leaves everything but the calls. -/
theorem modifyCall_frame (s : Streamed) (callId : String) (change : AccCall → AccCall) :
    (s.modifyCall callId change).fullContent = s.fullContent ∧
      (s.modifyCall callId change).fullReasoning = s.fullReasoning ∧
      (s.modifyCall callId change).reasoningItems = s.reasoningItems ∧
      (s.modifyCall callId change).hasAnyOutput = s.hasAnyOutput := by
  rw [Streamed.modifyCall]
  split_ifs
  · exact ⟨rfl, rfl, rfl, rfl⟩
  · exact ⟨rfl, rfl, rfl, rfl⟩

theorem Reads.modifyCall {events : List StreamEvent} (h : Reads events s)
    {event : StreamEvent} {call : CallEvent} (hcall : event.call? = some call) :
    Reads (events ++ [event])
      ({ s with hasAnyOutput := true }.modifyCall call.callId (AccCall.apply · call)) := by
  obtain ⟨hcontent, hreasoning, hitems, houtput⟩ := modifyCall_frame
    { s with hasAnyOutput := true } call.callId (AccCall.apply · call)
  have hnone : event.text? = none ∧ event.summary? = none ∧ event.item? = none := by
    rcases event <;> first | exact ⟨rfl, rfl, rfl⟩ | cases hcall
  have hcalls : ReadsCalls (events.filterMap StreamEvent.call?) { s with hasAnyOutput := true } :=
    ⟨h.calls.calls_eq, h.calls.next_eq⟩
  refine ⟨?_, ?_, ?_, ?_, ?_⟩
  · rw [hcontent, filterMap_append, filterMap_cons_none hnone.1, filterMap_nil,
      append_nil]
    exact h.content_eq
  · rw [hreasoning, filterMap_append, filterMap_cons_none hnone.2.1, filterMap_nil,
      append_nil]
    exact h.reasoning_eq
  · rw [hitems, filterMap_append, filterMap_cons_none hnone.2.2, filterMap_nil,
      append_nil]
    exact h.items_eq
  · rw [filterMap_append, filterMap_cons_some hcall, filterMap_nil]
    exact hcalls.modifyCall call
  · rw [houtput]
    exact fun htrue => absurd htrue.symm Bool.false_ne_true

theorem filterMap_concat_none {α β : Type} {f : α → Option β} {as : List α} {a : α}
    (h : f a = none) : (as ++ [a]).filterMap f = as.filterMap f := by
  rw [filterMap_append, filterMap_cons_none h, filterMap_nil, append_nil]

theorem filterMap_concat_some {α β : Type} {f : α → Option β} {as : List α} {a : α} {b : β}
    (h : f a = some b) : (as ++ [a]).filterMap f = as.filterMap f ++ [b] := by
  rw [filterMap_append, filterMap_cons_some h, filterMap_nil]

theorem Reads.skip {events : List StreamEvent} (h : Reads events s)
    {event : StreamEvent} (htext : event.text? = none) (hsummary : event.summary? = none)
    (hitem : event.item? = none) (hcall : event.call? = none) : Reads (events ++ [event]) s := by
  refine ⟨?_, ?_, ?_, ?_, h.output⟩
  · rw [filterMap_concat_none htext]
    exact h.content_eq
  · rw [filterMap_concat_none hsummary]
    exact h.reasoning_eq
  · rw [filterMap_concat_none hitem]
    exact h.items_eq
  · rw [filterMap_concat_none hcall]
    exact h.calls

theorem reasoningText_concat (summaries : List (List Json)) (summary : List Json) :
    reasoningText (summaries ++ [summary]) =
      reasoningText summaries ++ (extractReasoningText summary).getD "" := by
  rw [reasoningText, map_append, String.join_append, map_singleton, String.join_cons,
    String.join_nil, String.append_empty]
  rfl

/-- How reading more events ends: they are read, or a fragment comes after the limit is reached. -/
def Outcome (events more : List StreamEvent) : Except OpenAiError Streamed → Prop
  | .ok s => BelowFrom (events.filterMap StreamEvent.call?) (more.filterMap StreamEvent.call?) ∧
      Reads (events ++ more) s
  | .error _ =>
    ¬ BelowFrom (events.filterMap StreamEvent.call?) (more.filterMap StreamEvent.call?)

theorem Reads.outcome_delta {events : List StreamEvent} (h : Reads events s)
    (callId delta : String) :
    Outcome events [.functionCallArgumentsDelta callId delta]
      (s.handle (some (.functionCallArgumentsDelta callId delta))) := by
  have hlength := h.calls.length_eq
  rw [Streamed.handle]
  split_ifs with hlimit
  · rintro ⟨hbelow, -⟩
    omega
  · refine ⟨⟨by omega, trivial⟩, ?_⟩
    exact @Reads.modifyCall _ _ h (.functionCallArgumentsDelta callId delta) _ rfl

theorem Reads.textDelta {events : List StreamEvent} (h : Reads events s)
    (text : String) :
    Reads (events ++ [.textDelta text])
      { s with hasAnyOutput := true, fullContent := s.fullContent ++ text } := by
  refine ⟨?_, ?_, ?_, ?_, fun htrue => absurd htrue.symm Bool.false_ne_true⟩
  · rw [filterMap_concat_some (f := StreamEvent.text?) rfl, String.join_append, String.join_cons,
      String.join_nil, String.append_empty, ← h.content_eq]
  · rw [filterMap_concat_none (f := StreamEvent.summary?) rfl]
    exact h.reasoning_eq
  · rw [filterMap_concat_none (f := StreamEvent.item?) rfl]
    exact h.items_eq
  · rw [filterMap_concat_none (f := StreamEvent.call?) rfl]
    exact ⟨h.calls.calls_eq, h.calls.next_eq⟩

theorem Reads.reasoningItem {events : List StreamEvent} (h : Reads events s)
    (item : Json) :
    Reads (events ++ [.reasoningItem item])
      { s with reasoningItems := mergeReasoningItem s.reasoningItems item } := by
  refine ⟨?_, ?_, ?_, ?_, h.output⟩
  · rw [filterMap_concat_none (f := StreamEvent.text?) rfl]
    exact h.content_eq
  · rw [filterMap_concat_none (f := StreamEvent.summary?) rfl]
    exact h.reasoning_eq
  · rw [filterMap_concat_some (f := StreamEvent.item?) rfl, foldl_append, ← h.items_eq]
    rfl
  · rw [filterMap_concat_none (f := StreamEvent.call?) rfl]
    exact ⟨h.calls.calls_eq, h.calls.next_eq⟩

theorem Reads.reasoningSummary {events : List StreamEvent} (h : Reads events s)
    (summary : List Json) :
    ∃ s', s.handle (some (.reasoningSummary summary)) = .ok s' ∧
      Reads (events ++ [.reasoningSummary summary]) s' := by
  have hconcat : reasoningText ((events ++ [StreamEvent.reasoningSummary summary]).filterMap
      StreamEvent.summary?) = s.fullReasoning ++ (extractReasoningText summary).getD "" := by
    rw [filterMap_concat_some (f := StreamEvent.summary?) rfl, reasoningText_concat,
      ← h.reasoning_eq]
  have hframe : ∀ {output : Bool} {text : String},
      (output = false → s.fullContent = "" ∧ s.accCalls = []) →
      s.fullReasoning ++ (extractReasoningText summary).getD "" = text →
      Reads (events ++ [.reasoningSummary summary])
        { s with hasAnyOutput := output, fullReasoning := text } := by
    intro output text houtput htext
    refine ⟨?_, htext.symm.trans hconcat.symm, ?_, ?_, houtput⟩
    · rw [filterMap_concat_none (f := StreamEvent.text?) rfl]
      exact h.content_eq
    · rw [filterMap_concat_none (f := StreamEvent.item?) rfl]
      exact h.items_eq
    · rw [filterMap_concat_none (f := StreamEvent.call?) rfl]
      exact ⟨h.calls.calls_eq, h.calls.next_eq⟩
  rw [Streamed.handle]
  rcases hextract : extractReasoningText summary with _ | text
  · refine ⟨s, rfl, hframe h.output ?_⟩
    rw [hextract, Option.getD_none, String.append_empty]
  · refine ⟨_, rfl, hframe (fun htrue => absurd htrue.symm Bool.false_ne_true) ?_⟩
    rw [hextract, Option.getD_some]

theorem Reads.outcome_handle {events : List StreamEvent} (h : Reads events s)
    {event : StreamEvent} (hend : event.endsStream = false) :
    Outcome events [event] (s.handle (some event)) := by
  rcases event with text | _ | summary | item | ⟨callId, delta⟩ | ⟨callId, name, arguments⟩ |
    ⟨id, usage⟩ | error | _ | delta | ⟨callId, fingerprint⟩ | ⟨callId, result, status⟩
  case functionCallArgumentsDelta => exact h.outcome_delta callId delta
  case functionCallArgumentsDone =>
    exact ⟨trivial,
      @Reads.modifyCall _ _ h (.functionCallArgumentsDone callId name arguments) _ rfl⟩
  case responseCompleted => cases hend
  case responseFailed => cases hend
  case responseIncomplete => cases hend
  case textDelta => exact ⟨trivial, h.textDelta text⟩
  case reasoningSummary =>
    obtain ⟨s', hs', hread⟩ := h.reasoningSummary summary
    rw [hs']
    exact ⟨trivial, hread⟩
  case reasoningItem => exact ⟨trivial, h.reasoningItem item⟩
  all_goals exact ⟨trivial, h.skip rfl rfl rfl rfl⟩

theorem belowFrom_append (seen events more : List CallEvent) :
    BelowFrom seen (events ++ more) ↔
      BelowFrom seen events ∧ BelowFrom (seen ++ events) more := by
  induction events generalizing seen with
  | nil => rw [nil_append, append_nil, BelowFrom, true_and]
  | cons event events ih =>
    rw [cons_append, belowFrom_cons, belowFrom_cons, ih, append_assoc,
      singleton_append, and_assoc]

/-- Reads events one after the other, unless a fragment comes after the limit is reached. -/
theorem Reads.outcome_run {events more : List StreamEvent} (h : Reads events s)
    (hend : ∀ event ∈ more, event.endsStream = false) :
    Outcome events more (more.foldlM (fun s event => s.handle (some event)) s) := by
  induction more generalizing events s with
  | nil => exact ⟨trivial, by rwa [append_nil]⟩
  | cons event more ih =>
    have hsplit := belowFrom_append (events.filterMap StreamEvent.call?)
      ([event].filterMap StreamEvent.call?) (more.filterMap StreamEvent.call?)
    rw [← filterMap_append, ← filterMap_append, singleton_append] at hsplit
    have hhandle := h.outcome_handle (hend event mem_cons_self)
    rw [foldlM_cons]
    rcases hs : s.handle (some event) with error | s'
    · rw [hs] at hhandle
      exact fun hbelow => hhandle (hsplit.1 hbelow).1
    · rw [hs] at hhandle
      have hrest := ih hhandle.2 fun other hother => hend other (mem_cons_of_mem _ hother)
      change Outcome events (event :: more) (more.foldlM (fun s event => s.handle (some event)) s')
      rcases hmore : more.foldlM (fun s event => s.handle (some event)) s' with error | s''
      · rw [hmore] at hrest ⊢
        exact fun hbelow => hrest (hsplit.1 hbelow).2
      · rw [hmore] at hrest ⊢
        refine ⟨hsplit.2 ⟨hhandle.1, hrest.1⟩, ?_⟩
        rw [append_cons]
        exact hrest.2

theorem run_cons {packages : Packages} {payload : Json} {event : StreamEvent}
    (hpayload : parseStreamEvent packages payload = .ok (some event))
    (hend : event.endsStream = false) (payloads : List Json) (s : Streamed) :
    Streamed.run packages (payload :: payloads) s =
      s.handle (some event) >>= Streamed.run packages payloads := by
  rw [Streamed.run, hpayload]
  rcases event
  case responseCompleted => cases hend
  all_goals rfl

theorem run_eq {packages : Packages} {body rest : List Json} {parsed : List (Option StreamEvent)}
    {last : Json} {responseId : Option String} {usage : Option TokenUsage}
    (hbody : List.Forall₂ (fun payload event => parseStreamEvent packages payload = .ok event)
      body parsed)
    (hend : ∀ event ∈ parsed.filterMap id, event.endsStream = false)
    (hlast : parseStreamEvent packages last = .ok (some (.responseCompleted responseId usage)))
    (s : Streamed) :
    Streamed.run packages (body ++ last :: rest) s =
      (parsed.filterMap id).foldlM (fun s event => s.handle (some event)) s >>=
        fun s => .ok { s with responseId := responseId, lastUsage := usage.or s.lastUsage } := by
  induction hbody generalizing s with
  | nil =>
    rw [nil_append, Streamed.run, hlast]
    rfl
  | @cons payload event body parsed hpayload hbody ih =>
    rw [cons_append]
    rcases event with _ | event
    · rw [Streamed.run, hpayload]
      exact ih hend s
    · rw [run_cons hpayload (hend event mem_cons_self),
        filterMap_cons_some (f := id) rfl, foldlM_cons, bind_assoc]
      exact bind_congr fun s => ih (fun other hother => hend other (mem_cons_of_mem _ hother)) s

/-! ### The two paths -/

theorem nonempty_eq_iff (a b : String) : nonempty a = nonempty b ↔ a = b := by
  constructor
  · intro h
    by_cases ha : a = "" <;> by_cases hb : b = ""
    · rw [ha, hb]
    · simp [nonempty, ha, hb] at h
    · simp [nonempty, ha, hb] at h
    · simpa [nonempty, ha, hb] using h
  · rintro rfl
    rfl

theorem artifact_eq_iff {packages : Packages}
    (hbytes : ∀ items, packages.itemsToVec items = packages.itemsToVec raws → items = raws)
    (items : List Json) :
    responsesItemsArtifact packages items = responsesItemsArtifact packages raws ↔
      items = raws := by
  constructor
  · rcases items with _ | ⟨item, items⟩ <;> rcases raws with _ | ⟨raw, raws⟩
    · exact fun _ => rfl
    · intro h
      cases h
    · intro h
      cases h
    · intro h
      refine hbytes _ ?_
      simpa [responsesItemsArtifact] using h
  · rintro rfl
    rfl

theorem responseToTurn_eq {packages : Packages} {items : List Item} (h : Answer packages items)
    (responseId : Option String) (usage : Option TokenUsage) :
    responseToTurn packages responseId (items.map Prod.fst) usage =
      Collected.result packages responseId usage {
        fullText := textOf items
        fullReasoning := reasoningText (summariesOf items)
        toolCalls := callsOf items
        reasoningItems := reasoningItemsOf items } := by
  rw [responseToTurn, foldlM_read h.read]
  simp only [String.empty_append, nil_append]
  rfl

/-- A stream that was read, against the whole answer. -/
theorem Reads.agreeOn_iff {packages : Packages} {items : List Item}
    (hbytes : ∀ merged, packages.itemsToVec merged =
      packages.itemsToVec (reasoningItemsOf items) → merged = reasoningItemsOf items)
    (hanswer : Answer packages items) {events : List StreamEvent}
    (hdeliver : DeliversItems items events) (h : Reads events s)
    (usage : Option TokenUsage) (hfails : ¬ Fails packages items) :
    AgreeOn SameTurn (s.result packages)
        (responseToTurn packages s.responseId (items.map Prod.fst) usage) ↔
      reasoningText (events.filterMap StreamEvent.summary?) = reasoningText (summariesOf items) ∧
      (events.filterMap StreamEvent.item?).foldl mergeReasoningItem [] = reasoningItemsOf items ∧
      validCalls packages ((firstSeen (events.filterMap StreamEvent.call?)).filterMap
        (streamedCall (callsOf items))) = validCalls packages (callsOf items) := by
  have hevents : EventsOf (callsOf items) (events.filterMap StreamEvent.call?) :=
    ⟨hdeliver.call_mem, hdeliver.call_own⟩
  have hcalls := h.calls.toolCalls_eq hevents hanswer.name_ne
  have hcontent : s.fullContent = textOf items := h.content_eq.trans hdeliver.text_eq
  have hnil := @validCalls_streamed_eq_nil_iff packages _ _ hevents hanswer.nodup_ids
  rw [responseToTurn_eq hanswer, ← artifact_eq_iff hbytes, ← nonempty_eq_iff, ← h.reasoning_eq,
    ← h.items_eq, ← hcalls]
  rw [← hcalls] at hnil
  by_cases hvalid : validCalls packages (callsOf items) = []
  · have htext : textOf items ≠ "" := fun htext => hfails ⟨hvalid, htext⟩
    have houtput : s.hasAnyOutput = true := by
      by_contra hfalse
      exact htext (hcontent ▸ (h.output (Bool.eq_false_iff.2 hfalse)).1)
    have hsame : validCalls packages s.toolCalls = validCalls packages (callsOf items) :=
      (hnil.2 hvalid).trans hvalid.symm
    rw [Streamed.result_finalText houtput (hnil.2 hvalid) (hcontent ▸ htext),
      Collected.result_finalText hvalid htext]
    simp [AgreeOn, SameTurn, hcontent, hsame]
  · have hoccurs : s.accCalls ≠ [] → s.hasAnyOutput = true := by
      intro hne
      by_contra hfalse
      exact hne (h.output (Bool.eq_false_iff.2 hfalse)).2
    rw [Streamed.result_toolUse hoccurs (mt hnil.1 hvalid), Collected.result_toolUse hvalid]
    simp only [AgreeOn, SameTurn, hcontent, ChatAssistantToolUse.mk.injEq, true_and]
    constructor
    · rintro ⟨hsame, hreasoning, hartifact⟩
      exact ⟨hreasoning, hartifact, hsame⟩
    · rintro ⟨hreasoning, hartifact, hsame⟩
      exact ⟨hsame, hreasoning, hartifact⟩

theorem Reads.complete {events : List StreamEvent} (h : Reads events s)
    (responseId : Option String) (usage : Option TokenUsage) :
    Reads events { s with responseId := responseId, lastUsage := usage } :=
  ⟨h.content_eq, h.reasoning_eq, h.items_eq, ⟨h.calls.calls_eq, h.calls.next_eq⟩, h.output⟩

theorem Reads.result_error {packages : Packages} {items : List Item}
    (hanswer : Answer packages items) {events : List StreamEvent}
    (hdeliver : DeliversItems items events) (h : Reads events s)
    (hfails : Fails packages items) : ∃ error, s.result packages = .error error := by
  have hevents : EventsOf (callsOf items) (events.filterMap StreamEvent.call?) :=
    ⟨hdeliver.call_mem, hdeliver.call_own⟩
  refine Streamed.result_error ?_ ((h.content_eq.trans hdeliver.text_eq).trans hfails.2)
  rw [h.calls.toolCalls_eq hevents hanswer.name_ne]
  exact (validCalls_streamed_eq_nil_iff hevents hanswer.nodup_ids).2 hfails.1

theorem responseToTurn_error {packages : Packages} {items : List Item}
    (hanswer : Answer packages items) (hfails : Fails packages items)
    (responseId : Option String) (usage : Option TokenUsage) :
    ∃ error, responseToTurn packages responseId (items.map Prod.fst) usage = .error error := by
  rw [responseToTurn_eq hanswer]
  exact Collected.result_error hfails.1 hfails.2

theorem responseToTurn_ok {packages : Packages} {items : List Item}
    (hanswer : Answer packages items) (hfails : ¬ Fails packages items)
    (responseId : Option String) (usage : Option TokenUsage) :
    ∃ result, responseToTurn packages responseId (items.map Prod.fst) usage = .ok result := by
  rw [responseToTurn_eq hanswer]
  by_cases hvalid : validCalls packages (callsOf items) = []
  · exact ⟨_, Collected.result_finalText hvalid fun htext => hfails ⟨hvalid, htext⟩⟩
  · exact ⟨_, Collected.result_toolUse hvalid⟩

/-- **A stream gives what the whole answer gives exactly when both fail or the stream is taken like
the whole answer.** -/
theorem agrees_iff_streamedLikeWhole {packages : Packages} {responseId : Option String}
    {items : List Item} (hbytes : ∀ merged, packages.itemsToVec merged =
      packages.itemsToVec (reasoningItemsOf items) → merged = reasoningItemsOf items)
    (hanswer : Answer packages items) {events : List StreamEvent}
    {payloads : List Json} (hdeliver : Delivers packages responseId items events payloads)
    (usage : Option TokenUsage) :
    Agrees packages responseId items usage payloads ↔
      Fails packages items ∨ StreamedLikeWhole packages items events := by
  obtain ⟨body, last, rest, parsed, lastUsage, rfl, hbody, rfl, hitems, hlast⟩ := hdeliver
  have houtcome := reads_nil.outcome_run hitems.not_ended
  rw [Agrees, streamedTurn, run_eq hbody hitems.not_ended hlast]
  rcases hfold : (parsed.filterMap id).foldlM (fun s event => s.handle (some event))
    ({} : Streamed) with error | s
  · rw [hfold] at houtcome ⊢
    by_cases hfails : Fails packages items
    · obtain ⟨error', herror⟩ := responseToTurn_error hanswer hfails responseId usage
      rw [herror]
      exact iff_of_true trivial (Or.inl hfails)
    · obtain ⟨result, hresult⟩ := responseToTurn_ok hanswer hfails responseId usage
      rw [hresult]
      refine iff_of_false not_false ?_
      rintro (hfails' | hlike)
      · exact hfails hfails'
      · exact houtcome ((belowLimit_iff _).1 hlike.below)
  · rw [hfold] at houtcome ⊢
    obtain ⟨hbelow, hread⟩ := houtcome
    have hread := hread.complete responseId (lastUsage.or s.lastUsage)
    change AgreeOn SameTurn (Streamed.result packages
      { s with responseId := responseId, lastUsage := lastUsage.or s.lastUsage }) _ ↔ _
    by_cases hfails : Fails packages items
    · obtain ⟨error, herror⟩ := hread.result_error hanswer hitems hfails
      obtain ⟨error', herror'⟩ := responseToTurn_error hanswer hfails responseId usage
      rw [herror, herror']
      exact iff_of_true trivial (Or.inl hfails)
    · have hagree := hread.agreeOn_iff hbytes hanswer hitems usage hfails
      rw [merge_eq_iff hitems.announced, validCalls_streamed_eq_iff
        ⟨hitems.call_mem, hitems.call_own⟩ hanswer.nodup_ids] at hagree
      refine hagree.trans ⟨?_, ?_⟩
      · rintro ⟨hreasoning, ⟨hnodup, honce⟩, hcallers, horder⟩
        exact Or.inr ⟨(belowLimit_iff _).2 hbelow, hreasoning, hnodup, honce, hcallers, horder⟩
      · rintro (hfails' | hlike)
        · exact absurd hfails' hfails
        · exact ⟨hlike.reasoning, ⟨hlike.nodup_items, hlike.once⟩, hlike.callers, hlike.order⟩

namespace Sample

/-- Reads an output item of the kinds of the samples. -/
def itemFromValue (raw : Json) : Option ResponseOutputItem :=
  match raw.getStr "type" with
  | some "message" =>
    some (.message ((((raw.get "content").bind Json.asArray).getD []).map fun part =>
      { kind := (part.getStr "type").getD "", text := part.getStr "text" }))
  | some "function_call" =>
    some (.functionCall ((raw.getStr "call_id").getD "") ((raw.getStr "name").getD "")
      ((raw.getStr "arguments").getD "") ((raw.get "caller").bind (·.getStr "caller_id")))
  | _ => none

/-- The packages on the values of the samples, whose calls have no arguments and which have no
reasoning items. -/
def packages : Packages where
  fromStr text := if text = "\x7b\x7d" then some (.object []) else none
  toStr _ := "\x7b\x7d"
  null := .null
  emptyObject := .object []
  itemFromValue := itemFromValue
  usageFromValue _ := none
  itemsToVec items := 91 :: items.map (fun _ => 44) ++ [93]

def messageValue : Json :=
  .object [("type", .string "message"), ("content", .array [.object
    [("type", .string "output_text"), ("text", .string "Let me look")]])]

/-- The value of a call with the given further fields. -/
def callValue (fields : List (String × Json)) : Json :=
  .object ([("type", .string "function_call"), ("call_id", .string "call_1"),
    ("name", .string "list"), ("arguments", .string "\x7b\x7d")] ++ fields)

def items : List Item :=
  [(messageValue, .message [⟨"output_text", some "Let me look"⟩]),
    (callValue [], .functionCall "call_1" "list" "\x7b\x7d" none)]

def callPayloads : List Json :=
  [.object [("type", .string "response.function_call_arguments.delta"),
      ("call_id", .string "call_1"), ("delta", .string "\x7b")],
    .object [("type", .string "response.function_call_arguments.delta"),
      ("call_id", .string "call_1"), ("delta", .string "\x7d")],
    .object [("type", .string "response.function_call_arguments.done"),
      ("call_id", .string "call_1"), ("name", .string "list"),
      ("arguments", .string "\x7b\x7d")]]

/-- The completion. -/
def completedPayload : Json :=
  .object [("type", .string "response.completed"), ("id", .string "resp_1")]

def payloads : List Json :=
  [.object [("type", .string "response.output_text.delta"), ("delta", .string "Let me ")],
    .object [("type", .string "response.output_text.delta"), ("delta", .string "look")],
    .object [("type", .string "response.output_item.done"), ("item", messageValue)]] ++
  callPayloads ++ [completedPayload]

def callEvents : List StreamEvent :=
  [.functionCallArgumentsDelta "call_1" "\x7b", .functionCallArgumentsDelta "call_1" "\x7d",
    .functionCallArgumentsDone "call_1" "list" "\x7b\x7d"]

def events : List StreamEvent := .textDelta "Let me " :: .textDelta "look" :: callEvents

theorem answer_items : Answer packages items where
  read := by
    simp only [items, forall_mem_cons]
    exact ⟨rfl, rfl, by simp⟩
  nodup_ids := nodup_singleton _
  name_ne := by decide
  calls_le := by decide

theorem announces_nil : Announces [] [] where
  lt := by simp
  own := by
    intro position raw hraw
    cases hraw
  in_order := by
    intro before position value after hsplit
    exact absurd hsplit.symm (append_ne_nil_of_right_ne_nil _ (cons_ne_nil _ _))

theorem delivers_payloads : Delivers packages (some "resp_1") items events payloads := by
  refine ⟨[_, _, _, _, _, _], completedPayload, [],
    [some (.textDelta "Let me "), some (.textDelta "look"), none,
      some (.functionCallArgumentsDelta "call_1" "\x7b"),
      some (.functionCallArgumentsDelta "call_1" "\x7d"),
      some (.functionCallArgumentsDone "call_1" "list" "\x7b\x7d")], none, rfl, ?_, rfl, ?_, rfl⟩
  · exact .cons rfl (.cons rfl (.cons rfl (.cons rfl (.cons rfl (.cons rfl .nil)))))
  · refine ⟨?_, rfl, List.Sublist.slnil, ⟨[], rfl, announces_nil⟩, by decide, ?_⟩
    · simp [events, callEvents, StreamEvent.endsStream]
    · rintro call hcall
      obtain rfl := mem_singleton.1 hcall
      exact ⟨["\x7b", "\x7d"], rfl⟩

/-- The sample answer is streamed like it comes whole. -/
theorem agrees_payloads :
    StreamedLikeWhole packages items events ∧
      Agrees packages (some "resp_1") items none payloads := by
  have hlike : StreamedLikeWhole packages items events := by
    refine ⟨(belowLimit_iff _).2 ⟨by decide, by decide, trivial⟩, rfl, nodup_nil, rfl, ?_, ?_⟩
    · decide
    · decide
  refine ⟨hlike, (agrees_iff_streamedLikeWhole ?_ answer_items delivers_payloads none).2
    (Or.inr hlike)⟩
  intro merged hmerged
  have hlength := congrArg List.length hmerged
  simp [packages, items, reasoningItemsOf, ResponseOutputItem.summary?] at hlength
  rw [hlength]
  rfl

/-- A call that a hosted program makes. -/
def calledItems : List Item :=
  [(callValue [("caller", .object [("type", .string "program"),
    ("caller_id", .string "prog_1")])], .functionCall "call_1" "list" "\x7b\x7d" (some "prog_1"))]

/-- A stream does not give the caller of a call, which the whole answer has. -/
theorem not_agrees_calledItems :
    Answer packages calledItems ∧
      Delivers packages (some "resp_1") calledItems callEvents
        (callPayloads ++ [completedPayload]) ∧
      ¬ Agrees packages (some "resp_1") calledItems none (callPayloads ++ [completedPayload]) := by
  refine ⟨⟨?_, nodup_singleton _, by decide, by decide⟩, ?_, ?_⟩
  · simp only [calledItems, forall_mem_cons]
    exact ⟨rfl, by simp⟩
  · refine ⟨callPayloads, completedPayload, [], callEvents.map some, none, rfl, ?_, rfl, ?_, rfl⟩
    · exact .cons rfl (.cons rfl (.cons rfl .nil))
    · refine ⟨?_, rfl, List.Sublist.slnil, ⟨[], rfl, announces_nil⟩, by decide, ?_⟩
      · simp [callEvents, StreamEvent.endsStream]
      · rintro call hcall
        obtain rfl := mem_singleton.1 hcall
        exact ⟨["\x7b", "\x7d"], rfl⟩
  · have hrun : Streamed.run packages (callPayloads ++ [completedPayload]) {} =
        .ok { hasAnyOutput := true, responseId := some "resp_1",
              accCalls := [("call_1", ⟨some "list", "\x7b\x7d", 0⟩)], nextToolIndex := 1 } := rfl
    have hcalls : ∀ s : Streamed, s.accCalls = [("call_1", ⟨some "list", "\x7b\x7d", 0⟩)] →
        validCalls packages s.toolCalls = [⟨"call_1", "list", "\x7b\x7d", none⟩] := by
      intro s hs
      rw [Streamed.toolCalls, hs, mergeSort_singleton]
      decide
    have hwhole : responseToTurn packages (some "resp_1") (calledItems.map Prod.fst) none =
        .ok (.toolUse {
          toolCalls := [⟨"call_1", "list", "\x7b\x7d", some "prog_1"⟩]
          responseId := some "resp_1" }) := rfl
    have hbind : ∀ s : Streamed, (Except.ok s >>= fun s => s.result packages) = s.result packages :=
      fun _ => rfl
    rw [Agrees, streamedTurn, hrun, hwhole, hbind,
      Streamed.result_toolUse (fun _ => rfl) (by rw [hcalls _ rfl]; exact cons_ne_nil _ _),
      hcalls _ rfl]
    intro hsame
    exact absurd (congrArg ChatAssistantToolUse.toolCalls hsame) (by decide)

end Sample

end Responses

end Choreo
