import Choreo.Library.Folds
import Choreo.Protocols.Chat
import Mathlib.Data.Finset.Card
import Mathlib.Data.List.DropRight

/-!
# Whole and streamed chat completions

An assistant message of the chat-completions protocol has a text, tool calls, and its reasoning in
one of three fields. It comes whole (`chat_completions_response_to_turn` of
`choreo-ai-protocols/src/openai/chat_completions.rs`), or in chunks that are folded into a
`ChatCompletionsStreamAccumulator`. The whole message takes its reasoning from the first field that
is there. The accumulator takes it from the field of the first fragment that is not empty.
-/

namespace Choreo

open List Option

namespace ChatCompletions

variable {Value : Type}

/-- Failures of the adapter after the answer has begun. -/
inductive OpenAiError
  | emptyResponse
  | io (error : String)
deriving DecidableEq, Repr

/-- The artifact of a reasoning text, tagged with the field it came from. -/
def chatReasoningArtifact (field : ChatReasoningField) (reasoning : String) :
    Option ReasoningArtifact :=
  if reasoning = "" then none
  else some (.chatReasoning field reasoning.toUTF8.data.toList)

/-! ### Whole messages -/

/-- A whole assistant message. -/
structure AssistantMessage where
  content : Option String := none
  toolCalls : List AssistantToolCall := []
  reasoningContent : Option String := none
  reasoning : Option String := none
  reasoningText : Option String := none
deriving DecidableEq, Repr

namespace AssistantMessage

def reasoningOf (message : AssistantMessage) : ChatReasoningField → Option String
  | .reasoningContent => message.reasoningContent
  | .reasoning => message.reasoning
  | .reasoningText => message.reasoningText

def takeReasoning (message : AssistantMessage) : Option String × Option ReasoningArtifact :=
  match message.reasoningContent with
  | some text => (some text, chatReasoningArtifact .reasoningContent text)
  | none =>
    match message.reasoning with
    | some text => (some text, chatReasoningArtifact .reasoning text)
    | none =>
      match message.reasoningText with
      | some text => (some text, chatReasoningArtifact .reasoningText text)
      | none => (none, none)

end AssistantMessage

/-- A call of a message as a result has it. -/
def toChatToolCall (call : AssistantToolCall) : ChatToolCall where
  id := call.id
  name := call.name
  argumentsJson := call.arguments

/-- The result of a whole answer, which is that of its first message. -/
def responseToTurn (serde : SerdeJson Value) (choices : List AssistantMessage)
    (usage : Option TokenUsage) : Except OpenAiError ChatTurnResult :=
  match choices with
  | [] => .error .emptyResponse
  | message :: _ =>
    let (reasoning, reasoningArtifact) := message.takeReasoning
    let (toolCalls, discarded) :=
      validateToolCallArguments serde (message.toolCalls.map toChatToolCall)
    let content := trim (message.content.getD "")
    if !toolCalls.isEmpty then
      .ok (.toolUse {
        content := message.content
        toolCalls := toolCalls
        reasoning := reasoning
        usage := usage
        reasoningArtifact := reasoningArtifact })
    else if !discarded.isEmpty then
      .ok (.finalText {
        content := content
        reasoning := reasoning
        usage := usage
        reasoningArtifact := reasoningArtifact })
    else if content = "" then .error .emptyResponse
    else
      .ok (.finalText {
        content := content
        reasoning := reasoning
        usage := usage
        reasoningArtifact := reasoningArtifact })

/-! ### Chunks -/

/-- A fragment of the function of a tool call. -/
structure StreamToolCallFunctionDelta where
  name : Option String := none
  arguments : Option String := none
deriving DecidableEq, Repr

/-- A fragment of the tool call at an index. -/
structure StreamToolCallDelta where
  index : ℕ
  id : Option String := none
  function : Option StreamToolCallFunctionDelta := none
deriving DecidableEq, Repr

/-- A fragment of a message. -/
structure StreamDelta where
  content : Option String := none
  toolCalls : Option (List StreamToolCallDelta) := none
  reasoningContent : Option String := none
  reasoning : Option String := none
  reasoningText : Option String := none
deriving DecidableEq, Repr

/-- A chunk of a stream. -/
structure StreamResponse where
  choices : List (Option StreamDelta)
  usage : Option TokenUsage := none
deriving DecidableEq, Repr

variable (delta : StreamDelta)

/-- A reasoning field of a fragment. -/
def StreamDelta.reasoningOf : ChatReasoningField → Option String
  | .reasoningContent => delta.reasoningContent
  | .reasoning => delta.reasoning
  | .reasoningText => delta.reasoningText

/-! ### Tool calls of a stream -/

/-- A tool call that is being accumulated. -/
structure AccumulatingToolCall where
  id : Option String := none
  name : Option String := none
  arguments : String := ""
deriving DecidableEq, Repr

namespace AccumulatingToolCall

/-- Adds a fragment: the last id and the last name count, and the arguments are joined. -/
def add (call : AccumulatingToolCall) (delta : StreamToolCallDelta) : AccumulatingToolCall where
  id := delta.id.or call.id
  name := (delta.function.bind (·.name)).or call.name
  arguments := call.arguments ++ (delta.function.bind (·.arguments)).getD ""

/-- A call as a result has it. -/
def toChat (call : AccumulatingToolCall) : ChatToolCall where
  id := call.id.getD ""
  name := call.name.getD ""
  argumentsJson := call.arguments

end AccumulatingToolCall

def addToolCallDelta (calls : Std.ExtTreeMap ℕ AccumulatingToolCall) (delta : StreamToolCallDelta) :
    Std.ExtTreeMap ℕ AccumulatingToolCall :=
  calls.insert delta.index ((calls[delta.index]?.getD {}).add delta)

/-- The tool calls of the fragments, ordered by their indices. -/
def accumulateToolCallsFromDeltas (deltas : List StreamToolCallDelta) : List ChatToolCall :=
  (deltas.foldl addToolCallDelta ∅).toList.map fun (_, call) => call.toChat

/-! ### The accumulator -/

/-- What the chunks of a stream are folded into. -/
structure StreamAccumulator where
  hasAnyOutput : Bool := false
  fullContent : String := ""
  fullReasoning : String := ""
  reasoningField : Option ChatReasoningField := none
  rawToolCallDeltas : List StreamToolCallDelta := []
  seenToolCallIndices : ℕ → Bool := fun _ => false
  distinctToolCallCount : ℕ := 0
  lastUsage : Option TokenUsage := none

namespace StreamAccumulator

variable (s : StreamAccumulator)

/-- Adds a text. -/
def pushContent (content : Option String) : StreamAccumulator :=
  match content.filter (· ≠ "") with
  | none => s
  | some content => { s with hasAnyOutput := true, fullContent := s.fullContent ++ content }

/-- Adds a reasoning text. The field of the first one that is not empty is locked in, and the texts
of other fields are ignored. -/
def pushReasoning (field : ChatReasoningField) (text : Option String) :
    StreamAccumulator :=
  match text.filter (· ≠ "") with
  | none => s
  | some text =>
    let chosen := s.reasoningField.getD field
    let s := { s with hasAnyOutput := true, reasoningField := some chosen }
    if chosen ≠ field then s else { s with fullReasoning := s.fullReasoning ++ text }

/-- Adds a fragment of a tool call, whose index is limited, as is the number of distinct indices. -/
def pushToolCall (delta : StreamToolCallDelta) :
    Except OpenAiError StreamAccumulator :=
  if maxToolCalls ≤ s.distinctToolCallCount then
    .error (.io s!"too many tool calls (max {maxToolCalls})")
  else if maxToolCalls ≤ delta.index then
    .error (.io
      s!"tool call index {delta.index} out of bounds (max {maxToolCalls - 1})")
  else
    let s :=
      if !s.seenToolCallIndices delta.index then
        { s with
          seenToolCallIndices := Function.update s.seenToolCallIndices delta.index true
          distinctToolCallCount := s.distinctToolCallCount + 1 }
      else s
    .ok { s with rawToolCallDeltas := s.rawToolCallDeltas ++ [delta] }

/-- Adds the text and the reasoning of a fragment. -/
def pushTexts (delta : StreamDelta) : StreamAccumulator :=
  ((((s.pushContent delta.content).pushReasoning
    .reasoningContent delta.reasoningContent).pushReasoning
    .reasoning delta.reasoning).pushReasoning
    .reasoningText delta.reasoningText)

/-- Adds a fragment of the message. -/
def applyDelta (delta : StreamDelta) :
    Except OpenAiError StreamAccumulator :=
  let s := s.pushTexts delta
  match delta.toolCalls with
  | none => .ok s
  | some toolCalls => toolCalls.foldlM pushToolCall { s with hasAnyOutput := true }

/-- Folds a chunk into the accumulated state. -/
def apply (payload : StreamResponse) :
    Except OpenAiError StreamAccumulator :=
  payload.choices.foldlM (fun s choice =>
      match choice with
      | none => .ok s
      | some delta => s.applyDelta delta)
    { s with lastUsage := payload.usage.or s.lastUsage }

/-- The result of what was accumulated. -/
def intoTurnResult (serde : SerdeJson Value) (s : StreamAccumulator) :
    Except OpenAiError ChatTurnResult :=
  let reasoningArtifact := s.reasoningField.bind (chatReasoningArtifact · s.fullReasoning)
  let finalText : Except OpenAiError ChatTurnResult :=
    .ok (.finalText {
      content := s.fullContent
      reasoning := nonempty s.fullReasoning
      usage := s.lastUsage
      reasoningArtifact := reasoningArtifact })
  if !s.hasAnyOutput then .error .emptyResponse
  else if !s.rawToolCallDeltas.isEmpty then
    let (toolCalls, discarded) :=
      validateToolCallArguments serde (accumulateToolCallsFromDeltas s.rawToolCallDeltas)
    if !toolCalls.isEmpty then
      .ok (.toolUse {
        content := nonempty s.fullContent
        toolCalls := toolCalls
        reasoning := nonempty s.fullReasoning
        usage := s.lastUsage
        reasoningArtifact := reasoningArtifact })
    else if !discarded.isEmpty then finalText
    else finalText
  else finalText

end StreamAccumulator

def streamedTurn (serde : SerdeJson Value) (chunks : List StreamResponse) :
    Except OpenAiError ChatTurnResult := do
  (← chunks.foldlM StreamAccumulator.apply {}).intoTurnResult serde

/-! ### Ways of streaming a message -/

/-- The fragments of a stream, in order. -/
def deltasOf (chunks : List StreamResponse) : List StreamDelta :=
  chunks.flatMap fun chunk => chunk.choices.filterMap id

/-- The tool-call fragments of fragments, in order. -/
def toolDeltas (deltas : List StreamDelta) : List StreamToolCallDelta :=
  deltas.flatMap fun delta => delta.toolCalls.getD []

/-- The fragments of one call. -/
def ownDeltas (index : ℕ) (deltas : List StreamToolCallDelta) : List StreamToolCallDelta :=
  deltas.filter fun delta => delta.index = index

/-- The fragments deliver a call: there is one, the last id and the last name are those of the call,
and the arguments add up to its arguments. -/
structure DeliversCall (call : AssistantToolCall) (own : List StreamToolCallDelta) : Prop where
  exists_delta : own ≠ []
  id_eq : (own.filterMap (·.id)).getLast?.getD "" = call.id
  name_eq : (own.filterMap fun delta => delta.function.bind (·.name)).getLast?.getD "" = call.name
  arguments_eq :
    String.join (own.filterMap fun delta => delta.function.bind (·.arguments)) = call.arguments

/-- The chunks deliver a message: the fragments of each text add up to it, and the tool-call
fragments of each index deliver the call at that position. -/
structure Delivers (message : AssistantMessage) (chunks : List StreamResponse) : Prop where
  content_eq : String.join ((deltasOf chunks).filterMap (·.content)) = message.content.getD ""
  reasoning_eq : ∀ field, String.join ((deltasOf chunks).filterMap (·.reasoningOf field)) =
    (message.reasoningOf field).getD ""
  index_lt : ∀ delta ∈ toolDeltas (deltasOf chunks), delta.index < message.toolCalls.length
  call : ∀ index call, message.toolCalls[index]? = some call →
    DeliversCall call (ownDeltas index (toolDeltas (deltasOf chunks)))

/-- The same result, apart from the token counts and from blanks around the text. -/
def SameTurn : ChatTurnResult → ChatTurnResult → Prop
  | .finalText a, .finalText b =>
    trim a.content = trim b.content ∧ a.reasoning = b.reasoning ∧
      a.reasoningArtifact = b.reasoningArtifact
  | .toolUse a, .toolUse b =>
    trim (a.content.getD "") = trim (b.content.getD "") ∧ a.toolCalls = b.toolCalls ∧
      a.reasoning = b.reasoning ∧ a.reasoningArtifact = b.reasoningArtifact
  | _, _ => False

/-- The chunks give what the whole message gives. -/
def Agrees (serde : SerdeJson Value) (message : AssistantMessage) (others : List AssistantMessage)
    (usage : Option TokenUsage) (chunks : List StreamResponse) : Prop :=
  AgreeOn SameTurn (streamedTurn serde chunks) (responseToTurn serde (message :: others) usage)

/-! ### The condition -/

variable (deltas : List StreamDelta)

/-- The reasoning fragments that are not empty, with their fields, in order. -/
def reasoningFragments : List (ChatReasoningField × String) :=
  deltas.flatMap fun delta =>
    [ChatReasoningField.reasoningContent, .reasoning, .reasoningText].filterMap fun field =>
      ((delta.reasoningOf field).filter (· ≠ "")).map fun text => (field, text)

def AssistantMessage.firstReasoning (message : AssistantMessage) :
    Option (ChatReasoningField × String) :=
  [ChatReasoningField.reasoningContent, .reasoning, .reasoningText].findSome? fun field =>
    (message.reasoningOf field).map fun text => (field, text)

/-- Whenever a tool-call fragment comes, fewer indices than the limit have been seen before it. -/
def BelowLimit (deltas : List StreamToolCallDelta) : Prop :=
  ∀ before delta after, deltas = before ++ delta :: after →
    (before.map (·.index)).toFinset.card < maxToolCalls

def ReasoningAlike (message : AssistantMessage) (deltas : List StreamDelta) : Prop :=
  message.firstReasoning = none ∨
    ∃ field text, message.firstReasoning = some (field, text) ∧ text ≠ "" ∧
      (reasoningFragments deltas).head?.map Prod.fst = some field

/-- The messages and fragments whose stream is taken like the whole message. If the message has no
call and only blanks for a text, the fragments have no output at all. Otherwise the reasoning is
taken from the same field, and no tool-call fragment comes after the limit is reached. -/
def StreamedAlike (message : AssistantMessage) (deltas : List StreamDelta) : Prop :=
  if message.toolCalls = [] ∧ trim (message.content.getD "") = "" then
    message.content.getD "" = "" ∧ reasoningFragments deltas = [] ∧
      ∀ delta ∈ deltas, delta.toolCalls = none
  else BelowLimit (toolDeltas deltas) ∧ ReasoningAlike message deltas

/-! ### Tool calls -/

theorem getLast?_filterMap_cons_or {α β : Type} (f : α → Option β) (a : α) (as : List α)
    (b : Option β) :
    ((a :: as).filterMap f).getLast?.or b = (as.filterMap f).getLast?.or ((f a).or b) := by
  rcases ha : f a with _ | last
  · rw [filterMap_cons_none ha, none_or]
  · rw [filterMap_cons_some ha, List.getLast?_cons, some_or, some_or]
    rcases (as.filterMap f).getLast? with _ | later
    · rfl
    · rfl

theorem join_filterMap_cons {α : Type} (f : α → Option String) (a : α) (as : List α) :
    String.join ((a :: as).filterMap f) = (f a).getD "" ++ String.join (as.filterMap f) := by
  rcases ha : f a with _ | text
  · rw [filterMap_cons_none ha, getD_none, String.empty_append]
  · rw [filterMap_cons_some ha, String.join_cons, getD_some]

theorem foldl_add (own : List StreamToolCallDelta) (call : AccumulatingToolCall) :
    own.foldl AccumulatingToolCall.add call =
      { id := (own.filterMap (·.id)).getLast?.or call.id
        name := (own.filterMap fun delta => delta.function.bind (·.name)).getLast?.or call.name
        arguments := call.arguments ++
          String.join (own.filterMap fun delta => delta.function.bind (·.arguments)) } := by
  induction own generalizing call with
  | nil => simp
  | cons delta own ih =>
    rw [foldl_cons, ih, getLast?_filterMap_cons_or, getLast?_filterMap_cons_or,
      join_filterMap_cons, AccumulatingToolCall.add, String.append_assoc]

theorem DeliversCall.toChat_foldl_add {call : AssistantToolCall} {own : List StreamToolCallDelta}
    (h : DeliversCall call own) :
    (own.foldl AccumulatingToolCall.add {}).toChat = toChatToolCall call := by
  rw [foldl_add, AccumulatingToolCall.toChat, toChatToolCall, ← h.id_eq, ← h.name_eq,
    ← h.arguments_eq]
  simp

/-- Every fragment goes to the call at its index. -/
theorem get_foldl_addToolCallDelta (deltas : List StreamToolCallDelta)
    (calls : Std.ExtTreeMap ℕ AccumulatingToolCall) (index : ℕ) :
    (deltas.foldl addToolCallDelta calls)[index]? =
      if ownDeltas index deltas = [] then calls[index]?
      else some ((ownDeltas index deltas).foldl AccumulatingToolCall.add
        (calls[index]?.getD {})) := by
  induction deltas generalizing calls with
  | nil => rfl
  | cons delta deltas ih =>
    rw [foldl_cons, ih, addToolCallDelta, Std.ExtTreeMap.get_insert]
    by_cases hindex : delta.index = index
    · have hown : ownDeltas index (delta :: deltas) = delta :: ownDeltas index deltas := by
        rw [ownDeltas, filter_cons_of_pos (by simpa using hindex), ownDeltas]
      rw [hown, if_pos hindex.symm, if_neg (cons_ne_nil _ _), foldl_cons, hindex,
        getD_some]
      by_cases hnil : ownDeltas index deltas = []
      · rw [if_pos hnil, hnil, foldl_nil]
      · rw [if_neg hnil]
    · have hown : ownDeltas index (delta :: deltas) = ownDeltas index deltas := by
        rw [ownDeltas, filter_cons_of_neg (by simpa using hindex), ownDeltas]
      rw [hown, if_neg (Ne.symm hindex)]

variable {deltas : List StreamToolCallDelta}

/-- The calls of the fragments are those of the message, in the same order. -/
theorem accumulateToolCalls_eq {calls : List AssistantToolCall}
    (hindex : ∀ delta ∈ deltas, delta.index < calls.length)
    (hcall : ∀ index call, calls[index]? = some call →
      DeliversCall call (ownDeltas index deltas)) :
    accumulateToolCallsFromDeltas deltas = calls.map toChatToolCall := by
  have hget : ∀ index, (deltas.foldl addToolCallDelta ∅)[index]? =
      if index < calls.length then
        some ((ownDeltas index deltas).foldl AccumulatingToolCall.add {})
      else none := by
    intro index
    rw [get_foldl_addToolCallDelta, Std.ExtTreeMap.getElem?_empty, getD_none]
    by_cases hlt : index < calls.length
    · rw [if_pos hlt, if_neg (hcall index _ (List.getElem?_eq_getElem hlt)).exists_delta]
    · rw [if_neg hlt, if_pos]
      refine filter_eq_nil_iff.2 fun delta hdelta hown => hlt ?_
      rw [← of_decide_eq_true hown]
      exact hindex delta hdelta
  rw [accumulateToolCallsFromDeltas, Std.ExtTreeMap.toList_eq_map_range hget, List.map_map]
  refine ext_getElem (by simp) fun index hleft hright => ?_
  rw [List.length_map] at hright
  have hown := hcall index _ (List.getElem?_eq_getElem hright)
  simp only [getElem_map, getElem_range, Function.comp_apply]
  exact hown.toChat_foldl_add

/-! ### Reading fragments -/

variable (fragments : List (ChatReasoningField × String))

/-- The text that the first reasoning field of some fragments adds up to. -/
def lockedReasoning : String :=
  match fragments with
  | [] => ""
  | (field, _) :: _ =>
    String.join ((fragments.filter fun fragment => fragment.1 = field).map Prod.snd)

def StreamDelta.isOutput : Bool :=
  delta.content.getD "" != "" || !(reasoningFragments [delta]).isEmpty || delta.toolCalls.isSome

/-- What the accumulator knows of the texts of the fragments it has read: the given text, reasoning
fragments, and whether there was output. -/
structure ReadsTexts (content : String) (fragments : List (ChatReasoningField × String))
    (output : Bool) (s : StreamAccumulator) : Prop where
  output_eq : s.hasAnyOutput = output
  content_eq : s.fullContent = content
  field_eq : s.reasoningField = fragments.head?.map Prod.fst
  reasoning_eq : s.fullReasoning = lockedReasoning fragments

/-- What the accumulator knows of the tool-call fragments it has read. -/
structure ReadsTools (deltas : List StreamToolCallDelta) (s : StreamAccumulator) : Prop where
  raw_eq : s.rawToolCallDeltas = deltas
  seen_iff : ∀ index, s.seenToolCallIndices index = true ↔ index ∈ deltas.map (·.index)
  count_eq : s.distinctToolCallCount = (deltas.map (·.index)).toFinset.card

theorem lockedReasoning_concat
    (field : ChatReasoningField) (text : String) :
    lockedReasoning (fragments ++ [(field, text)]) =
      if (fragments.head?.map Prod.fst).getD field = field then lockedReasoning fragments ++ text
      else lockedReasoning fragments := by
  rcases fragments with _ | ⟨⟨first, start⟩, fragments⟩
  · simp [lockedReasoning, String.join_cons]
  · by_cases hfield : first = field
    · subst hfield
      simp [lockedReasoning, String.join_cons, String.join_append, String.append_assoc]
    · have hne : ¬ field = first := fun h => hfield h.symm
      simp [lockedReasoning, hfield, hne]

variable {s : StreamAccumulator} {fragments : List (ChatReasoningField × String)} {content : String}

theorem ReadsTexts.pushContent
    {output : Bool}
    (h : ReadsTexts content fragments output s) (text : Option String) :
    ReadsTexts (content ++ text.getD "") fragments (output || text.getD "" != "")
      (s.pushContent text) := by
  rw [StreamAccumulator.pushContent]
  rcases text with _ | text
  · simpa using h
  · by_cases htext : text = ""
    · simpa [htext, filter_some] using h
    · simp only [filter_some, htext, ne_eq, not_false_eq_true, decide_true, if_true]
      exact ⟨by simp [htext], by simp [h.content_eq], h.field_eq, h.reasoning_eq⟩

theorem ReadsTexts.pushReasoning
    {output : Bool}
    (h : ReadsTexts content fragments output s) (field : ChatReasoningField)
    (text : Option String) :
    ReadsTexts content
      (fragments ++ ((text.filter (· ≠ "")).map fun text => (field, text)).toList)
      (output || (text.filter (· ≠ "")).isSome) (s.pushReasoning field text) := by
  rw [StreamAccumulator.pushReasoning]
  rcases text.filter (· ≠ "") with _ | text
  · simpa using h
  · have hlocked := lockedReasoning_concat fragments field text
    simp only [map_some, toList_some, isSome_some, Bool.or_true]
    have hfield : some (s.reasoningField.getD field) =
        (fragments ++ [(field, text)]).head?.map Prod.fst := by
      rw [h.field_eq]
      rcases fragments with _ | ⟨fragment, fragments⟩
      · rfl
      · rfl
    rw [← h.field_eq, ← h.reasoning_eq] at hlocked
    by_cases hchosen : s.reasoningField.getD field = field
    · rw [if_pos hchosen] at hlocked
      rw [if_neg (not_not.2 hchosen)]
      exact ⟨rfl, h.content_eq, hfield, hlocked.symm⟩
    · rw [if_neg hchosen] at hlocked
      rw [if_pos hchosen]
      exact ⟨rfl, h.content_eq, hfield, h.reasoning_eq ▸ hlocked.symm⟩

theorem reasoningFragments_singleton :
    reasoningFragments [delta] =
      ((delta.reasoningContent.filter (· ≠ "")).map
          fun text => (ChatReasoningField.reasoningContent, text)).toList ++
        ((delta.reasoning.filter (· ≠ "")).map
          fun text => (ChatReasoningField.reasoning, text)).toList ++
        ((delta.reasoningText.filter (· ≠ "")).map
          fun text => (ChatReasoningField.reasoningText, text)).toList := by
  rw [reasoningFragments, flatMap_singleton]
  simp only [filterMap_cons, StreamDelta.reasoningOf, filterMap_nil]
  rcases delta.reasoningContent.filter (· ≠ "") with _ | text <;>
    rcases delta.reasoning.filter (· ≠ "") with _ | text' <;>
    rcases delta.reasoningText.filter (· ≠ "") with _ | text'' <;> rfl

theorem ReadsTexts.pushTexts
    {output : Bool}
    (h : ReadsTexts content fragments output s) (delta : StreamDelta) :
    ReadsTexts (content ++ delta.content.getD "") (fragments ++ reasoningFragments [delta])
      (output || delta.content.getD "" != "" || !(reasoningFragments [delta]).isEmpty)
      (s.pushTexts delta) := by
  have hall := (((h.pushContent delta.content).pushReasoning .reasoningContent
    delta.reasoningContent).pushReasoning .reasoning delta.reasoning).pushReasoning .reasoningText
      delta.reasoningText
  rw [reasoningFragments_singleton]
  have houtput : ∀ a b c : Option (ChatReasoningField × String),
      (!(a.toList ++ b.toList ++ c.toList).isEmpty) = (a.isSome || b.isSome || c.isSome) := by
    rintro (_ | a) (_ | b) (_ | c) <;> rfl
  rw [houtput, StreamAccumulator.pushTexts]
  simpa [Bool.or_assoc, append_assoc] using hall

/-! ### Reading tool calls -/

/-- Whenever a fragment of the second list comes, fewer indices than the limit are among those of the
first list and those before it. -/
def BelowFrom : List StreamToolCallDelta → List StreamToolCallDelta → Prop
  | _, [] => True
  | before, delta :: deltas =>
    (before.map (·.index)).toFinset.card < maxToolCalls ∧ BelowFrom (before ++ [delta]) deltas

theorem belowFrom_iff (seen deltas : List StreamToolCallDelta) :
    BelowFrom seen deltas ↔ ∀ before delta after, deltas = before ++ delta :: after →
      ((seen ++ before).map (·.index)).toFinset.card < maxToolCalls := by
  induction deltas generalizing seen with
  | nil =>
    refine iff_of_true trivial fun before delta after h => ?_
    exact absurd h.symm (append_ne_nil_of_right_ne_nil _ (cons_ne_nil _ _))
  | cons delta deltas ih =>
    rw [BelowFrom, ih]
    constructor
    · rintro ⟨hfirst, hrest⟩ (_ | ⟨first, before⟩) next after h
      · rwa [append_nil]
      · obtain ⟨rfl, htail⟩ := cons.inj h
        have hlater := hrest before next after htail
        rwa [append_assoc] at hlater
    · intro h
      refine ⟨?_, fun before next after htail => ?_⟩
      · have hfirst := h [] delta deltas rfl
        rwa [append_nil] at hfirst
      · have hlater := h (delta :: before) next after (by rw [htail, cons_append])
        rwa [append_assoc]

theorem belowLimit_iff (deltas : List StreamToolCallDelta) :
    BelowLimit deltas ↔ BelowFrom [] deltas := by
  rw [belowFrom_iff]
  rfl

theorem belowFrom_append (seen deltas more : List StreamToolCallDelta) :
    BelowFrom seen (deltas ++ more) ↔
      BelowFrom seen deltas ∧ BelowFrom (seen ++ deltas) more := by
  induction deltas generalizing seen with
  | nil => rw [nil_append, append_nil, BelowFrom, true_and]
  | cons delta deltas ih =>
    rw [cons_append, BelowFrom, BelowFrom, ih, append_assoc, singleton_append,
      and_assoc]

/-- Reading tool calls leaves what is known of the texts. -/
def SameTexts (s s' : StreamAccumulator) : Prop :=
  ∀ content fragments output, ReadsTexts content fragments output s →
    ReadsTexts content fragments output s'

theorem ReadsTools.pushToolCall
    (h : ReadsTools deltas s) {delta : StreamToolCallDelta} (hindex : delta.index < maxToolCalls)
    (hcount : (deltas.map (·.index)).toFinset.card < maxToolCalls) :
    ∃ s', s.pushToolCall delta = .ok s' ∧ ReadsTools (deltas ++ [delta]) s' ∧ SameTexts s s' := by
  have hseen := h.seen_iff delta.index
  have hset : ((deltas ++ [delta]).map (·.index)).toFinset =
      insert delta.index (deltas.map (·.index)).toFinset := by
    rw [map_append, toFinset_append, Finset.union_comm]
    rfl
  rw [StreamAccumulator.pushToolCall, if_neg (h.count_eq ▸ Nat.not_le.2 hcount),
    if_neg (Nat.not_le.2 hindex)]
  rcases hvalue : s.seenToolCallIndices delta.index with _ | _
  · have hnew : delta.index ∉ deltas.map (·.index) := by
      rw [← hseen, hvalue]
      exact Bool.false_ne_true
    refine ⟨_, rfl, ⟨?_, fun index => ?_, ?_⟩, fun _ _ _ htexts => ?_⟩
    · rw [← h.raw_eq]
      rfl
    · change Function.update s.seenToolCallIndices delta.index true index = true ↔ _
      rw [map_append, mem_append, ← h.seen_iff index]
      by_cases hother : index = delta.index
      · simp [hother]
      · simp [hother]
    · rw [hset, Finset.card_insert_of_notMem (by simpa using hnew), ← h.count_eq]
      rfl
    · exact ⟨htexts.output_eq, htexts.content_eq, htexts.field_eq, htexts.reasoning_eq⟩
  · have hold : delta.index ∈ deltas.map (·.index) := hseen.1 hvalue
    refine ⟨_, rfl, ⟨?_, fun index => ?_, ?_⟩, fun _ _ _ htexts => ?_⟩
    · rw [← h.raw_eq]
      rfl
    · change s.seenToolCallIndices index = true ↔ _
      rw [map_append, mem_append, ← h.seen_iff index]
      refine ⟨Or.inl, fun hmem => hmem.elim id fun heq => ?_⟩
      rw [map_singleton, mem_singleton] at heq
      rw [heq, hvalue]
    · rw [hset, Finset.insert_eq_of_mem (List.mem_toFinset.2 hold)]
      exact h.count_eq
    · exact ⟨htexts.output_eq, htexts.content_eq, htexts.field_eq, htexts.reasoning_eq⟩

theorem pushToolCall_error
    (h : ReadsTools deltas s) (delta : StreamToolCallDelta)
    (hcount : ¬ (deltas.map (·.index)).toFinset.card < maxToolCalls) :
    ∃ error, s.pushToolCall delta = .error error := by
  rw [StreamAccumulator.pushToolCall, h.count_eq, if_pos (Nat.not_lt.1 hcount)]
  exact ⟨_, rfl⟩

/-- Reads tool-call fragments until one comes after the limit is reached. -/
theorem ReadsTools.foldlM
    (h : ReadsTools deltas s) {more : List StreamToolCallDelta}
    (hindex : ∀ delta ∈ more, delta.index < maxToolCalls) (hbelow : BelowFrom deltas more) :
    ∃ s', more.foldlM StreamAccumulator.pushToolCall s = .ok s' ∧
      ReadsTools (deltas ++ more) s' ∧ SameTexts s s' := by
  induction more generalizing deltas s with
  | nil => exact ⟨s, rfl, by rwa [append_nil], fun _ _ _ htexts => htexts⟩
  | cons delta more ih =>
    obtain ⟨s₁, hpush, htools, htexts⟩ := h.pushToolCall (hindex delta mem_cons_self) hbelow.1
    obtain ⟨s₂, hfold, htools', htexts'⟩ :=
      ih htools (fun next hnext => hindex next (mem_cons_of_mem _ hnext)) hbelow.2
    refine ⟨s₂, Folds.foldlM_cons_eq_ok.2 ⟨s₁, hpush, hfold⟩, ?_, ?_⟩
    · rwa [append_assoc] at htools'
    · exact fun content fragments output hreads =>
        htexts' content fragments output (htexts content fragments output hreads)

theorem ReadsTools.foldlM_error
    (h : ReadsTools deltas s) {more : List StreamToolCallDelta}
    (hindex : ∀ delta ∈ more, delta.index < maxToolCalls) (hbelow : ¬ BelowFrom deltas more) :
    ∃ error, more.foldlM StreamAccumulator.pushToolCall s = .error error := by
  induction more generalizing deltas s with
  | nil => exact absurd trivial hbelow
  | cons delta more ih =>
    rw [foldlM_cons]
    by_cases hcount : (deltas.map (·.index)).toFinset.card < maxToolCalls
    · obtain ⟨s₁, hpush, htools, -⟩ := h.pushToolCall (hindex delta mem_cons_self) hcount
      rw [hpush]
      exact ih htools (fun next hnext => hindex next (mem_cons_of_mem _ hnext))
        fun hrest => hbelow ⟨hcount, hrest⟩
    · obtain ⟨error, herror⟩ := pushToolCall_error h delta hcount
      rw [herror]
      exact ⟨error, rfl⟩

/-! ### Reading chunks -/

/-- What the accumulator knows of the fragments it has read. -/
structure Reads (deltas : List StreamDelta) (s : StreamAccumulator) : Prop where
  texts : ReadsTexts (String.join (deltas.filterMap (·.content))) (reasoningFragments deltas)
    (deltas.any StreamDelta.isOutput) s
  tools : ReadsTools (toolDeltas deltas) s

theorem reads_nil : Reads [] {} where
  texts := ⟨rfl, rfl, rfl, rfl⟩
  tools := ⟨rfl, fun index => by simp [toolDeltas], rfl⟩

theorem toolDeltas_append (deltas more : List StreamDelta) :
    toolDeltas (deltas ++ more) = toolDeltas deltas ++ toolDeltas more :=
  flatMap_append

theorem toolDeltas_singleton :
    toolDeltas [delta] = delta.toolCalls.getD [] :=
  flatMap_singleton _ _

variable {tools : List StreamToolCallDelta}

theorem ReadsTools.pushContent
    (h : ReadsTools tools s) (content : Option String) : ReadsTools tools (s.pushContent content) := by
  rw [StreamAccumulator.pushContent]
  rcases content.filter (· ≠ "") with _ | content
  · exact h
  · exact ⟨h.raw_eq, h.seen_iff, h.count_eq⟩

theorem ReadsTools.pushReasoning
    (h : ReadsTools tools s) (field : ChatReasoningField) (text : Option String) :
    ReadsTools tools (s.pushReasoning field text) := by
  rw [StreamAccumulator.pushReasoning]
  rcases text.filter (· ≠ "") with _ | text
  · exact h
  · dsimp only
    split_ifs
    · exact ⟨h.raw_eq, h.seen_iff, h.count_eq⟩
    · exact ⟨h.raw_eq, h.seen_iff, h.count_eq⟩

theorem ReadsTools.pushTexts
    (h : ReadsTools tools s) (delta : StreamDelta) : ReadsTools tools (s.pushTexts delta) :=
  (((h.pushContent _).pushReasoning _ _).pushReasoning _ _).pushReasoning _ _

theorem join_contents_concat (deltas : List StreamDelta) (delta : StreamDelta) :
    String.join ((deltas ++ [delta]).filterMap (·.content)) =
      String.join (deltas.filterMap (·.content)) ++ delta.content.getD "" := by
  rw [filterMap_append, String.join_append, join_filterMap_cons, filterMap_nil,
    String.join_nil, String.append_empty]

theorem reasoningFragments_append (deltas more : List StreamDelta) :
    reasoningFragments (deltas ++ more) = reasoningFragments deltas ++ reasoningFragments more :=
  flatMap_append

theorem any_isOutput_concat (deltas : List StreamDelta) (delta : StreamDelta) :
    (deltas ++ [delta]).any StreamDelta.isOutput =
      (deltas.any StreamDelta.isOutput || delta.content.getD "" != "" ||
        !(reasoningFragments [delta]).isEmpty || delta.toolCalls.isSome) := by
  rw [any_append, any_cons, any_nil, Bool.or_false, StreamDelta.isOutput,
    Bool.or_assoc, Bool.or_assoc, Bool.or_assoc]

variable {deltas : List StreamDelta} {delta : StreamDelta}

/-- Reads a fragment, unless a tool-call fragment comes after the limit is reached. -/
theorem Reads.applyDelta (h : Reads deltas s)
    (hindex : ∀ tool ∈ toolDeltas [delta], tool.index < maxToolCalls)
    (hbelow : BelowFrom (toolDeltas deltas) (toolDeltas [delta])) :
    ∃ s', s.applyDelta delta = .ok s' ∧ Reads (deltas ++ [delta]) s' := by
  have htexts := h.texts.pushTexts delta
  have htools := h.tools.pushTexts delta
  rw [toolDeltas_singleton] at hindex hbelow
  rw [StreamAccumulator.applyDelta]
  rcases hcalls : delta.toolCalls with _ | calls
  · refine ⟨_, rfl, ?_, ?_⟩
    · rw [join_contents_concat, reasoningFragments_append, any_isOutput_concat, hcalls,
        isSome_none, Bool.or_false]
      exact htexts
    · rw [toolDeltas_append, toolDeltas_singleton, hcalls, getD_none, append_nil]
      exact htools
  · rw [hcalls, getD_some] at hindex hbelow
    have htools' : ReadsTools (toolDeltas deltas)
        { s.pushTexts delta with hasAnyOutput := true } :=
      ⟨htools.raw_eq, htools.seen_iff, htools.count_eq⟩
    obtain ⟨s', hfold, hread, hsame⟩ := htools'.foldlM hindex hbelow
    refine ⟨s', hfold, hsame _ _ _ ?_, ?_⟩
    · rw [join_contents_concat, reasoningFragments_append, any_isOutput_concat, hcalls,
        isSome_some, Bool.or_true]
      exact ⟨rfl, htexts.content_eq, htexts.field_eq, htexts.reasoning_eq⟩
    · rw [toolDeltas_append, toolDeltas_singleton, hcalls, getD_some]
      exact hread

theorem Reads.applyDelta_error
    (h : Reads deltas s)
    (hindex : ∀ tool ∈ toolDeltas [delta], tool.index < maxToolCalls)
    (hbelow : ¬ BelowFrom (toolDeltas deltas) (toolDeltas [delta])) :
    ∃ error, s.applyDelta delta = .error error := by
  have htools := h.tools.pushTexts delta
  rw [toolDeltas_singleton] at hindex hbelow
  rw [StreamAccumulator.applyDelta]
  rcases hcalls : delta.toolCalls with _ | calls
  · rw [hcalls] at hbelow
    exact absurd trivial hbelow
  · rw [hcalls, getD_some] at hindex hbelow
    have htools' : ReadsTools (toolDeltas deltas)
        { s.pushTexts delta with hasAnyOutput := true } :=
      ⟨htools.raw_eq, htools.seen_iff, htools.count_eq⟩
    exact htools'.foldlM_error hindex hbelow

/-- How reading more fragments ends: they are read, or one comes after the limit is reached. -/
def Outcome (deltas more : List StreamDelta) : Except OpenAiError StreamAccumulator → Prop
  | .ok s => BelowFrom (toolDeltas deltas) (toolDeltas more) ∧ Reads (deltas ++ more) s
  | .error _ => ¬ BelowFrom (toolDeltas deltas) (toolDeltas more)

theorem Outcome.bind {deltas more rest : List StreamDelta}
    {x : Except OpenAiError StreamAccumulator}
    {f : StreamAccumulator → Except OpenAiError StreamAccumulator} (hx : Outcome deltas more x)
    (hf : ∀ s, Reads (deltas ++ more) s → Outcome (deltas ++ more) rest (f s)) :
    Outcome deltas (more ++ rest) (x >>= f) := by
  have hsplit := belowFrom_append (toolDeltas deltas) (toolDeltas more) (toolDeltas rest)
  rw [← toolDeltas_append, ← toolDeltas_append] at hsplit
  rcases x with error | s
  · exact fun hbelow => hx (hsplit.1 hbelow).1
  · have hs := hf s hx.2
    change Outcome deltas (more ++ rest) (f s)
    rcases hfs : f s with error | s'
    · rw [hfs] at hs
      exact fun hbelow => hs (hsplit.1 hbelow).2
    · rw [hfs] at hs
      exact ⟨hsplit.2 ⟨hx.1, hs.1⟩, append_assoc deltas more rest ▸ hs.2⟩

theorem Reads.outcome_applyDelta
    (h : Reads deltas s)
    (hindex : ∀ tool ∈ toolDeltas [delta], tool.index < maxToolCalls) :
    Outcome deltas [delta] (s.applyDelta delta) := by
  by_cases hbelow : BelowFrom (toolDeltas deltas) (toolDeltas [delta])
  · obtain ⟨s', hs', hread⟩ := h.applyDelta hindex hbelow
    rw [hs']
    exact ⟨hbelow, hread⟩
  · obtain ⟨error, herror⟩ := h.applyDelta_error hindex hbelow
    rw [herror]
    exact hbelow

theorem Reads.outcome_choices
    (h : Reads deltas s) {choices : List (Option StreamDelta)}
    (hindex : ∀ tool ∈ toolDeltas (choices.filterMap id), tool.index < maxToolCalls) :
    Outcome deltas (choices.filterMap id) (choices.foldlM (fun s choice =>
      match choice with
      | none => .ok s
      | some delta => s.applyDelta delta) s) := by
  induction choices generalizing deltas s with
  | nil => exact ⟨trivial, by rwa [filterMap_nil, append_nil]⟩
  | cons choice choices ih =>
    rw [foldlM_cons]
    rcases choice with _ | delta
    · exact ih h hindex
    · have hsplit : (some delta :: choices).filterMap id = [delta] ++ choices.filterMap id := rfl
      rw [hsplit] at hindex ⊢
      rw [toolDeltas_append] at hindex
      refine (h.outcome_applyDelta fun tool htool => ?_).bind fun s' hs' => ?_
      · exact hindex tool (mem_append_left _ htool)
      · exact ih hs' fun tool htool => hindex tool (mem_append_right _ htool)

/-- Reads the chunks of a stream, unless a tool-call fragment comes after the limit is reached. -/
theorem Reads.outcome_chunks
    (h : Reads deltas s) {chunks : List StreamResponse}
    (hindex : ∀ tool ∈ toolDeltas (deltasOf chunks), tool.index < maxToolCalls) :
    Outcome deltas (deltasOf chunks) (chunks.foldlM StreamAccumulator.apply s) := by
  induction chunks generalizing deltas s with
  | nil => exact ⟨trivial, by rwa [deltasOf, flatMap_nil, append_nil]⟩
  | cons chunk chunks ih =>
    have hsplit : deltasOf (chunk :: chunks) = chunk.choices.filterMap id ++ deltasOf chunks :=
      flatMap_cons
    rw [hsplit] at hindex ⊢
    rw [toolDeltas_append] at hindex
    rw [foldlM_cons]
    have hs : Reads deltas { s with lastUsage := chunk.usage.or s.lastUsage } :=
      ⟨⟨h.texts.output_eq, h.texts.content_eq, h.texts.field_eq, h.texts.reasoning_eq⟩,
        ⟨h.tools.raw_eq, h.tools.seen_iff, h.tools.count_eq⟩⟩
    refine (hs.outcome_choices fun tool htool => ?_).bind fun s' hs' => ?_
    · exact hindex tool (mem_append_left _ htool)
    · exact ih hs' fun tool htool => hindex tool (mem_append_right _ htool)

/-! ### Reasoning -/

def fieldFragments (field : ChatReasoningField) (text : Option String) :
    List (ChatReasoningField × String) :=
  ((text.filter (· ≠ "")).map fun text => (field, text)).toList

theorem join_filter_fieldFragments (field wanted : ChatReasoningField) (text : Option String) :
    String.join (((fieldFragments field text).filter fun fragment =>
      fragment.1 = wanted).map Prod.snd) = if field = wanted then text.getD "" else "" := by
  rcases text with _ | text
  · simp [fieldFragments]
  · by_cases htext : text = ""
    · simp [fieldFragments, htext, filter_some]
    · by_cases hfield : field = wanted
      · simp [fieldFragments, htext, hfield, filter_some, String.join_cons]
      · simp [fieldFragments, htext, hfield, filter_some]

theorem join_filter_reasoningFragments (field : ChatReasoningField) :
    String.join (((reasoningFragments deltas).filter fun fragment =>
        fragment.1 = field).map Prod.snd) =
      String.join (deltas.filterMap (·.reasoningOf field)) := by
  induction deltas with
  | nil => rfl
  | cons delta deltas ih =>
    have hsplit : reasoningFragments (delta :: deltas) =
        reasoningFragments [delta] ++ reasoningFragments deltas :=
      reasoningFragments_append [delta] deltas
    have hone : reasoningFragments [delta] =
        fieldFragments .reasoningContent delta.reasoningContent ++
          fieldFragments .reasoning delta.reasoning ++
          fieldFragments .reasoningText delta.reasoningText :=
      reasoningFragments_singleton delta
    rw [hsplit, hone, join_filterMap_cons, ← ih]
    simp only [filter_append, map_append, String.join_append,
      join_filter_fieldFragments]
    rcases field with _ | _ | _
    · simp [StreamDelta.reasoningOf]
    · simp [StreamDelta.reasoningOf]
    · simp [StreamDelta.reasoningOf]

theorem takeReasoning_eq (message : AssistantMessage) :
    message.takeReasoning =
      (message.firstReasoning.map Prod.snd,
        message.firstReasoning.bind fun first => chatReasoningArtifact first.1 first.2) := by
  obtain ⟨content, calls, reasoningContent, reasoning, reasoningText⟩ := message
  rcases reasoningContent with _ | text
  · rcases reasoning with _ | text
    · rcases reasoningText with _ | text
      · rfl
      · rfl
    · rfl
  · rfl

variable {field : ChatReasoningField}

theorem reasoningOf_of_firstReasoning {message : AssistantMessage}
    {text : String} (h : message.firstReasoning = some (field, text)) :
    message.reasoningOf field = some text := by
  obtain ⟨other, -, hother⟩ := List.exists_of_findSome?_eq_some h
  obtain ⟨found, hfound, heq⟩ := map_eq_some_iff.1 hother
  cases heq
  exact hfound

theorem reasoningOf_of_firstReasoning_none {message : AssistantMessage}
    (h : message.firstReasoning = none) (field : ChatReasoningField) :
    message.reasoningOf field = none := by
  have hall := List.findSome?_eq_none_iff.1 h field (by rcases field with _ | _ | _ <;> simp)
  exact map_eq_none_iff.1 hall

theorem ne_empty_of_mem_reasoningFragments
    {fragment : ChatReasoningField × String} (h : fragment ∈ reasoningFragments deltas) :
    fragment.2 ≠ "" := by
  obtain ⟨delta, -, hmem⟩ := mem_flatMap.1 h
  obtain ⟨field, -, hfield⟩ := mem_filterMap.1 hmem
  obtain ⟨text, htext, rfl⟩ := map_eq_some_iff.1 hfield
  exact of_decide_eq_true (filter_eq_some_iff.1 htext).2

theorem Delivers.lockedReasoning_eq {message : AssistantMessage} {chunks : List StreamResponse}
    (h : Delivers message chunks)
    (hfield : (reasoningFragments (deltasOf chunks)).head?.map Prod.fst = some field) :
    lockedReasoning (reasoningFragments (deltasOf chunks)) =
      (message.reasoningOf field).getD "" := by
  rw [← h.reasoning_eq, ← join_filter_reasoningFragments]
  rcases hfragments : reasoningFragments (deltasOf chunks) with _ | ⟨⟨first, text⟩, fragments⟩
  · rw [hfragments] at hfield
    cases hfield
  · rw [hfragments] at hfield
    cases hfield
    rfl

theorem Delivers.lockedReasoning_ne_empty {message : AssistantMessage}
    {chunks : List StreamResponse} (h : Delivers message chunks)
    (hfield : (reasoningFragments (deltasOf chunks)).head?.map Prod.fst = some field) :
    (message.reasoningOf field).getD "" ≠ "" := by
  rw [← h.lockedReasoning_eq hfield]
  rcases hfragments : reasoningFragments (deltasOf chunks) with _ | ⟨⟨first, text⟩, fragments⟩
  · rw [hfragments] at hfield
    cases hfield
  · have hmem : (first, text) ∈ reasoningFragments (deltasOf chunks) := by
      rw [hfragments]
      exact mem_cons_self
    rw [lockedReasoning, filter_cons_of_pos (by simp), map_cons, String.join_cons]
    intro hempty
    exact ne_empty_of_mem_reasoningFragments hmem (String.append_eq_empty_iff.1 hempty).1

/-- The accumulated reasoning and its artifact are those of the whole message exactly when the
reasoning is taken from the same field. -/
theorem Delivers.reasoning_iff {message : AssistantMessage} {chunks : List StreamResponse}
    (h : Delivers message chunks) :
    (nonempty (lockedReasoning (reasoningFragments (deltasOf chunks))) =
          message.takeReasoning.1 ∧
        ((reasoningFragments (deltasOf chunks)).head?.map Prod.fst).bind
            (chatReasoningArtifact · (lockedReasoning (reasoningFragments (deltasOf chunks)))) =
          message.takeReasoning.2) ↔
      ReasoningAlike message (deltasOf chunks) := by
  rw [takeReasoning_eq, ReasoningAlike]
  rcases hhead : (reasoningFragments (deltasOf chunks)).head?.map Prod.fst with _ | locked
  · have hnil : reasoningFragments (deltasOf chunks) = [] :=
      List.head?_eq_none_iff.1 (map_eq_none_iff.1 hhead)
    have hlocked : lockedReasoning (reasoningFragments (deltasOf chunks)) = "" := by
      rw [hnil]
      rfl
    rw [hlocked]
    rcases hfirst : message.firstReasoning with _ | ⟨field, text⟩
    · exact iff_of_true ⟨rfl, rfl⟩ (Or.inl rfl)
    · refine iff_of_false (fun hsame => ?_) ?_
      · cases hsame.1
      · rintro (hnone | ⟨_, _, _, _, hnone⟩)
        · cases hnone
        · cases hnone
  · have hne := h.lockedReasoning_ne_empty hhead
    rw [h.lockedReasoning_eq hhead]
    rcases hfirst : message.firstReasoning with _ | ⟨field, text⟩
    · rw [reasoningOf_of_firstReasoning_none hfirst] at hne
      exact absurd rfl hne
    · simp only [nonempty, if_neg hne, map_some, bind_some, reduceCtorEq, false_or]
      constructor
      · rintro ⟨htext, hartifact⟩
        have htext := some.inj htext
        rw [htext] at hne hartifact
        rw [chatReasoningArtifact, chatReasoningArtifact, if_neg hne, if_neg hne] at hartifact
        cases hartifact
        exact ⟨_, _, rfl, hne, rfl⟩
      · rintro ⟨field', text', hfirst', -, hlocked⟩
        cases hfirst'
        cases hlocked
        rw [reasoningOf_of_firstReasoning hfirst]
        exact ⟨rfl, rfl⟩

/-! ### Output -/

theorem any_isOutput_eq_false_iff :
    deltas.any StreamDelta.isOutput = false ↔
      String.join (deltas.filterMap (·.content)) = "" ∧ reasoningFragments deltas = [] ∧
        ∀ delta ∈ deltas, delta.toolCalls = none := by
  induction deltas with
  | nil => simp [reasoningFragments]
  | cons delta deltas ih =>
    have hsplit := reasoningFragments_append [delta] deltas
    rw [singleton_append] at hsplit
    rw [any_cons, Bool.or_eq_false_iff, ih, join_filterMap_cons, hsplit,
      String.append_eq_empty_iff, append_eq_nil_iff, forall_mem_cons,
      StreamDelta.isOutput]
    simp only [Bool.or_eq_false_iff, bne_eq_false_iff_eq, Bool.not_eq_false', List.isEmpty_iff,
      isSome_eq_false_iff, isNone_iff_eq_none]
    tauto

/-! ### Trimming -/

theorem dropWhile_eq_self_of_prefix {α : Type} {p : α → Bool} {l l' : List α} (hpre : l' <+: l)
    (h : l.dropWhile p = l) : l'.dropWhile p = l' := by
  rcases l' with _ | ⟨a, l'⟩
  · rfl
  · obtain ⟨rest, rfl⟩ := hpre
    rw [dropWhile_eq_self_iff] at h ⊢
    intro _
    exact h (by simp)

theorem trim_trim (text : String) : trim (trim text) = trim text := by
  have hfirst : ∀ l : List Char, (List.rdropWhile isWhitespace (l.dropWhile isWhitespace)).dropWhile
      isWhitespace = List.rdropWhile isWhitespace (l.dropWhile isWhitespace) := fun l =>
    dropWhile_eq_self_of_prefix (List.rdropWhile_prefix _ _) (dropWhile_idempotent _ _)
  have hlast := fun l : List Char => rdropWhile_idempotent isWhitespace l
  have htrim : ∀ text : String, trim text =
      String.ofList (List.rdropWhile isWhitespace (text.toList.dropWhile isWhitespace)) :=
    fun _ => rfl
  rw [htrim, htrim, String.toList_ofList, hfirst, hlast]

/-! ### The two paths -/

theorem Delivers.toolDeltas_eq_nil_iff {message : AssistantMessage} {chunks : List StreamResponse}
    (h : Delivers message chunks) :
    toolDeltas (deltasOf chunks) = [] ↔ message.toolCalls = [] := by
  constructor
  · intro hnil
    rcases hcalls : message.toolCalls with _ | ⟨call, calls⟩
    · rfl
    · have hown := (h.call 0 call (by rw [hcalls]; rfl)).exists_delta
      rw [hnil] at hown
      exact absurd rfl hown
  · intro hcalls
    refine eq_nil_iff_forall_not_mem.2 fun delta hdelta => ?_
    have hlt := h.index_lt delta hdelta
    rw [hcalls] at hlt
    exact Nat.not_lt_zero _ hlt

/-- The calls of a message whose arguments are JSON. -/
def validCalls (serde : SerdeJson Value) (calls : List ChatToolCall) : List ChatToolCall :=
  (validateToolCallArguments serde calls).1

theorem eq_nil_of_validate {serde : SerdeJson Value} {calls : List ChatToolCall}
    (hvalid : validCalls serde calls = [])
    (hdiscarded : (validateToolCallArguments serde calls).2 = []) : calls = [] := by
  rw [validCalls] at hvalid
  rw [validateToolCallArguments, partition_eq_filter_filter] at hvalid hdiscarded
  refine eq_nil_iff_forall_not_mem.2 fun call hcall => ?_
  rcases hparse : (serde.fromStr call.argumentsJson).isSome with _ | _
  · exact filter_eq_nil_iff.1 hdiscarded call hcall (by simp [hparse])
  · exact filter_eq_nil_iff.1 hvalid call hcall hparse

theorem responseToTurn_eq_ok (serde : SerdeJson Value) {message : AssistantMessage}
    (others : List AssistantMessage) (usage : Option TokenUsage)
    (h : ¬ (message.toolCalls = [] ∧ trim (message.content.getD "") = "")) :
    responseToTurn serde (message :: others) usage =
      if validCalls serde (message.toolCalls.map toChatToolCall) = [] then
        .ok (.finalText {
          content := trim (message.content.getD "")
          reasoning := message.takeReasoning.1
          usage := usage
          reasoningArtifact := message.takeReasoning.2 })
      else
        .ok (.toolUse {
          content := message.content
          toolCalls := validCalls serde (message.toolCalls.map toChatToolCall)
          reasoning := message.takeReasoning.1
          usage := usage
          reasoningArtifact := message.takeReasoning.2 }) := by
  simp only [responseToTurn]
  by_cases hvalid : validCalls serde (message.toolCalls.map toChatToolCall) = []
  · rw [if_pos hvalid]
    have hempty : (validateToolCallArguments serde
        (message.toolCalls.map toChatToolCall)).1 = [] := hvalid
    simp only [hempty, isEmpty_nil, Bool.not_true, Bool.false_eq_true, if_false]
    by_cases hdiscarded : (validateToolCallArguments serde
        (message.toolCalls.map toChatToolCall)).2 = []
    · have hcalls := map_eq_nil_iff.1 (eq_nil_of_validate hvalid hdiscarded)
      have htext : ¬ trim (message.content.getD "") = "" := fun htext => h ⟨hcalls, htext⟩
      simp only [hdiscarded, isEmpty_nil, Bool.not_true, Bool.false_eq_true, if_false,
        if_neg htext]
    · simp [hdiscarded]
  · rw [if_neg hvalid]
    have hsome : (validateToolCallArguments serde
        (message.toolCalls.map toChatToolCall)).1.isEmpty = false :=
      Bool.eq_false_iff.2 fun hempty => hvalid (List.isEmpty_iff.1 hempty)
    simp only [hsome, Bool.not_false, if_true]
    rfl

theorem responseToTurn_eq_error (serde : SerdeJson Value) {message : AssistantMessage}
    (others : List AssistantMessage) (usage : Option TokenUsage)
    (h : message.toolCalls = [] ∧ trim (message.content.getD "") = "") :
    responseToTurn serde (message :: others) usage = .error .emptyResponse := by
  simp [responseToTurn, h.1, h.2, validateToolCallArguments]

theorem intoTurnResult_eq_ok (serde : SerdeJson Value)
    (h : s.hasAnyOutput = true) :
    s.intoTurnResult serde =
      if validCalls serde (accumulateToolCallsFromDeltas s.rawToolCallDeltas) = [] then
        .ok (.finalText {
          content := s.fullContent
          reasoning := nonempty s.fullReasoning
          usage := s.lastUsage
          reasoningArtifact := s.reasoningField.bind (chatReasoningArtifact · s.fullReasoning) })
      else
        .ok (.toolUse {
          content := nonempty s.fullContent
          toolCalls := validCalls serde (accumulateToolCallsFromDeltas s.rawToolCallDeltas)
          reasoning := nonempty s.fullReasoning
          usage := s.lastUsage
          reasoningArtifact :=
            s.reasoningField.bind (chatReasoningArtifact · s.fullReasoning) }) := by
  simp only [StreamAccumulator.intoTurnResult, h, Bool.not_true, Bool.false_eq_true, if_false]
  rcases hraw : s.rawToolCallDeltas with _ | ⟨delta, deltas⟩
  · have hvalid : validCalls serde (accumulateToolCallsFromDeltas []) = [] := by
      simp [validCalls, validateToolCallArguments, accumulateToolCallsFromDeltas]
    rw [if_pos hvalid]
    rfl
  · simp only [isEmpty_cons, Bool.not_false, if_true, ite_self]
    by_cases hvalid : validCalls serde (accumulateToolCallsFromDeltas (delta :: deltas)) = []
    · rw [if_pos hvalid]
      have hempty : (validateToolCallArguments serde
        (accumulateToolCallsFromDeltas (delta :: deltas))).1.isEmpty = true :=
        List.isEmpty_iff.2 hvalid
      simp only [hempty, Bool.not_true, Bool.false_eq_true, if_false]
    · rw [if_neg hvalid]
      have hsome : (validateToolCallArguments serde
        (accumulateToolCallsFromDeltas (delta :: deltas))).1.isEmpty = false :=
        Bool.eq_false_iff.2 fun hempty => hvalid (List.isEmpty_iff.1 hempty)
      simp only [hsome, Bool.not_false, if_true]
      rfl

theorem intoTurnResult_eq_error (serde : SerdeJson Value)
    (h : s.hasAnyOutput = false) : s.intoTurnResult serde = .error .emptyResponse := by
  simp [StreamAccumulator.intoTurnResult, h]

theorem trim_empty : trim "" = "" := rfl

theorem nonempty_getD (text : String) : (nonempty text).getD "" = text := by
  by_cases h : text = ""
  · simp [nonempty, h]
  · simp [nonempty, h]

/-- What was accumulated from a message with calls or a text, against the whole message. -/
theorem Reads.agreeOn_iff {message : AssistantMessage} {chunks : List StreamResponse}
    (hread : Reads (deltasOf chunks) s) (h : Delivers message chunks)
    (serde : SerdeJson Value) (others : List AssistantMessage) (usage : Option TokenUsage)
    (hmessage : ¬ (message.toolCalls = [] ∧ trim (message.content.getD "") = "")) :
    AgreeOn SameTurn (s.intoTurnResult serde) (responseToTurn serde (message :: others) usage) ↔
      ReasoningAlike message (deltasOf chunks) := by
  have houtput : s.hasAnyOutput = true := by
    rw [hread.texts.output_eq, ← Bool.not_eq_false, any_isOutput_eq_false_iff]
    rintro ⟨hcontent, -, hnone⟩
    refine hmessage ⟨h.toolDeltas_eq_nil_iff.1 ?_, ?_⟩
    · refine flatMap_eq_nil_iff.2 fun delta hdelta => ?_
      rw [hnone delta hdelta, getD_none]
    · rw [← h.content_eq, hcontent, trim_empty]
  have hcalls : accumulateToolCallsFromDeltas s.rawToolCallDeltas =
      message.toolCalls.map toChatToolCall := by
    rw [hread.tools.raw_eq]
    exact accumulateToolCalls_eq h.index_lt h.call
  have hcontent : s.fullContent = message.content.getD "" :=
    hread.texts.content_eq.trans h.content_eq
  rw [intoTurnResult_eq_ok serde houtput, responseToTurn_eq_ok serde others usage hmessage, hcalls,
    ← h.reasoning_iff, hread.texts.reasoning_eq, hread.texts.field_eq, hcontent]
  by_cases hvalid : validCalls serde (message.toolCalls.map toChatToolCall) = []
  · rw [if_pos hvalid, if_pos hvalid]
    exact and_iff_right (trim_trim _).symm
  · rw [if_neg hvalid, if_neg hvalid]
    constructor
    · rintro ⟨-, -, hreasoning, hartifact⟩
      exact ⟨hreasoning, hartifact⟩
    · rintro ⟨hreasoning, hartifact⟩
      exact ⟨congrArg trim (nonempty_getD _), rfl, hreasoning, hartifact⟩

/-- **The chunks of a message give what the whole message gives exactly when they are taken
alike.** -/
theorem agrees_iff_streamedAlike (serde : SerdeJson Value) {message : AssistantMessage}
    (others : List AssistantMessage) (usage : Option TokenUsage) {chunks : List StreamResponse}
    (hlimit : message.toolCalls.length ≤ maxToolCalls) (h : Delivers message chunks) :
    Agrees serde message others usage chunks ↔ StreamedAlike message (deltasOf chunks) := by
  have houtcome := reads_nil.outcome_chunks fun tool htool =>
    (h.index_lt tool htool).trans_le hlimit
  rw [Agrees, streamedTurn, StreamedAlike]
  rcases hfold : chunks.foldlM StreamAccumulator.apply {} with error | s
  · rw [hfold] at houtcome
    have hcalls : message.toolCalls ≠ [] := by
      intro hnil
      rw [Outcome, h.toolDeltas_eq_nil_iff.2 hnil] at houtcome
      exact houtcome trivial
    have hmessage : ¬ (message.toolCalls = [] ∧ trim (message.content.getD "") = "") :=
      fun hboth => hcalls hboth.1
    rw [if_neg hmessage, belowLimit_iff, responseToTurn_eq_ok serde others usage hmessage]
    refine iff_of_false ?_ fun hboth => houtcome hboth.1
    split_ifs
    · exact not_false
    · exact not_false
  · rw [hfold] at houtcome
    obtain ⟨hbelow, hread⟩ := houtcome
    rw [nil_append] at hread
    change AgreeOn SameTurn (s.intoTurnResult serde) _ ↔ _
    by_cases hmessage : message.toolCalls = [] ∧ trim (message.content.getD "") = ""
    · rw [if_pos hmessage, responseToTurn_eq_error serde others usage hmessage, ← h.content_eq,
        ← any_isOutput_eq_false_iff, ← hread.texts.output_eq]
      rcases houtput : s.hasAnyOutput with _ | _
      · rw [intoTurnResult_eq_error serde houtput]
        exact iff_of_true trivial rfl
      · rw [intoTurnResult_eq_ok serde houtput]
        refine iff_of_false ?_ fun htrue => Bool.false_ne_true htrue.symm
        split_ifs
        · exact not_false
        · exact not_false
    · rw [if_neg hmessage, hread.agreeOn_iff h serde others usage hmessage, belowLimit_iff]
      exact (and_iff_right hbelow).symm

namespace Sample

/-- The JSON package on the texts of the samples, of which only the empty object is JSON. -/
def serde : SerdeJson Unit where
  fromStr text := if text = "\x7b\x7d" then some () else none
  toStr _ := "\x7b\x7d"
  null := ()
  emptyObject := ()

/-- A message with a thought, a text and a call. -/
def message : AssistantMessage where
  content := some "Let me look"
  toolCalls := [⟨"call_1", "function", "list", "\x7b\x7d"⟩]
  reasoning := some "Think"

def chunks : List StreamResponse :=
  [⟨[some { content := some "", reasoning := some "Th" }], none⟩,
    ⟨[some { reasoning := some "ink" }], none⟩,
    ⟨[some { content := some "Let me " }], none⟩,
    ⟨[some { content := some "look" }], none⟩,
    ⟨[some { toolCalls := some [⟨0, some "call_1", some ⟨some "list", some ""⟩⟩] }], none⟩,
    ⟨[some { toolCalls := some [⟨0, none, some ⟨none, some "\x7b"⟩⟩] }], none⟩,
    ⟨[some { toolCalls := some [⟨0, none, some ⟨none, some "\x7d"⟩⟩] }], none⟩,
    ⟨[none], none⟩, ⟨[], some ⟨12, 34, 46⟩⟩]

theorem delivers_chunks : Delivers message chunks where
  content_eq := rfl
  reasoning_eq := by
    rintro (_ | _ | _)
    · rfl
    · rfl
    · rfl
  index_lt := by decide
  call := by
    rintro (_ | index) call hcall
    · cases hcall
      exact ⟨by decide, rfl, rfl, rfl⟩
    · cases hcall

/-- The sample message is streamed like it comes whole. -/
theorem agrees_chunks :
    message.toolCalls.length ≤ maxToolCalls ∧ StreamedAlike message (deltasOf chunks) ∧
      Agrees serde message [] none chunks := by
  have hlimit : message.toolCalls.length ≤ maxToolCalls := by decide
  have halike : StreamedAlike message (deltasOf chunks) := by
    rw [StreamedAlike, if_neg fun hboth => cons_ne_nil _ _ hboth.1]
    refine ⟨(belowLimit_iff _).2 ⟨by decide, by decide, by decide, trivial⟩, Or.inr ?_⟩
    exact ⟨.reasoning, "Think", rfl, by decide, rfl⟩
  exact ⟨hlimit, halike, (agrees_iff_streamedAlike serde [] none hlimit delivers_chunks).2 halike⟩

def twoFields : AssistantMessage where
  content := some "Done"
  reasoningContent := some "Plan"
  reasoning := some "Summary"

def twoFieldChunks : List StreamResponse :=
  [⟨[some { reasoning := some "Summary" }], none⟩,
    ⟨[some { reasoningContent := some "Plan" }], none⟩,
    ⟨[some { content := some "Done" }], none⟩]

/-- The reasoning of the whole message is that of its first field. The reasoning of the stream is
that of the field that comes first. -/
theorem not_agrees_twoFieldChunks :
    twoFields.toolCalls.length ≤ maxToolCalls ∧ Delivers twoFields twoFieldChunks ∧
      ¬ Agrees serde twoFields [] none twoFieldChunks := by
  refine ⟨by decide, ⟨rfl, ?_, by decide, ?_⟩, ?_⟩
  · rintro (_ | _ | _)
    · rfl
    · rfl
    · rfl
  · intro index call hcall
    cases hcall
  · rintro ⟨-, hreasoning, -⟩
    exact absurd hreasoning (by decide)

end Sample

end ChatCompletions

end Choreo
