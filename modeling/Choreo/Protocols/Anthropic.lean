import Choreo.Library.Folds
import Choreo.Protocols.Chat

/-!
# Whole and streamed answers of the Anthropic adapter

An answer of Anthropic is a list of content blocks: text, tool uses, thinking and redacted thinking.
It comes whole, or as a stream of events that opens a block, fills it with fragments and closes it.
The two paths of the adapter are separate code (`response_to_turn_result` of
`choreo-ai-protocols/src/anthropic/mod.rs` and `messages_request_streaming` of `requests.rs`). The
streaming path keeps its tool calls in a vector that is indexed by the position of the block, and it
starts the arguments of a call with the input of the opening event.
-/

namespace Choreo

open List

namespace Anthropic

variable {Value : Type}

inductive ThinkingArtifactBlock
  | thinking (thinking signature : String)
  | redactedThinking (data : String)
deriving DecidableEq, Repr

/-- The packages that the adapter uses: JSON, also for the blocks of the thinking artifact. -/
structure Packages (Value : Type) extends SerdeJson Value where
  blocksToVec : List ThinkingArtifactBlock → Bytes

/-- Failures of the adapter after the answer has begun. -/
inductive AnthropicError
  | emptyResponse
  | io (error : String)
deriving DecidableEq, Repr

variable (packages : Packages Value)

def anthropicThinkingArtifact (blocks : List ThinkingArtifactBlock) :
    Option ReasoningArtifact :=
  if blocks.isEmpty then none else some (.anthropicThinking (packages.blocksToVec blocks))

/-! ### Whole answers -/

inductive ContentBlock (Value : Type)
  | text (text : String)
  | toolUse (id name : String) (input : Value)
  | thinking (thinking signature : String)
  | redactedThinking (data : String)

/-- What a whole answer is collected into. -/
structure Collected where
  textParts : List String := []
  toolUses : List ChatToolCall := []
  reasoningParts : List String := []
  artifactBlocks : List ThinkingArtifactBlock := []

def Collected.add (c : Collected) : ContentBlock Value → Collected
  | .text text => { c with textParts := c.textParts ++ [text] }
  | .toolUse id name input =>
    { c with toolUses := c.toolUses ++
        [{ id := id, name := name, argumentsJson := packages.toStr input }] }
  | .thinking thinking signature =>
    { c with
      reasoningParts := c.reasoningParts ++ [thinking]
      artifactBlocks := c.artifactBlocks ++ [.thinking thinking signature] }
  | .redactedThinking data =>
    { c with artifactBlocks := c.artifactBlocks ++ [.redactedThinking data] }

/-- The token counts of an answer, whose sum may wrap around. -/
def usageOf (inputTokens outputTokens : UInt32) : TokenUsage where
  inputTokens := inputTokens
  outputTokens := outputTokens
  totalTokens := inputTokens + outputTokens

/-- The result of a whole answer. -/
def responseToTurnResult (packages : Packages Value) (content : List (ContentBlock Value))
    (usage : Option (UInt32 × UInt32)) : Except AnthropicError ChatTurnResult :=
  let c := content.foldl (Collected.add packages) {}
  let reasoningArtifact := anthropicThinkingArtifact packages c.artifactBlocks
  let reasoning :=
    if c.reasoningParts.isEmpty then none else some ("\n".intercalate c.reasoningParts)
  let usage := usage.map fun (input, output) => usageOf input output
  if !c.toolUses.isEmpty then
    .ok (.toolUse {
      content := if c.textParts.isEmpty then none else some (String.join c.textParts)
      toolCalls := c.toolUses
      reasoning := reasoning
      usage := usage
      reasoningArtifact := reasoningArtifact })
  else if String.join c.textParts = "" then .error .emptyResponse
  else
    .ok (.finalText {
      content := String.join c.textParts
      reasoning := reasoning
      usage := usage
      reasoningArtifact := reasoningArtifact })

/-! ### Streamed answers -/

/-- The block of an opening event. -/
inductive StreamContentBlock (Value : Type)
  | text (text : String)
  | toolUse (id name : String) (input : Value)
  | thinking (thinking : String)
  | redactedThinking (data : String)

/-- A fragment of a block. -/
inductive StreamDelta
  | textDelta (text : String)
  | inputJsonDelta (partialJson : String)
  | thinkingDelta (thinking : String)
  | signatureDelta (signature : String)
deriving DecidableEq, Repr

inductive StreamEvent (Value : Type)
  | contentBlockStart (index : ℕ) (block : StreamContentBlock Value)
  | contentBlockDelta (index : ℕ) (delta : StreamDelta)
  | contentBlockStop
  | messageStart (inputTokens : Option UInt32)
  | messageDelta (outputTokens : Option UInt32)
  | messageStop
  | other

/-- A tool call that is being accumulated. -/
structure StreamToolCall where
  id : String := ""
  name : String := ""
  arguments : String := ""
deriving DecidableEq, Repr

/-- What collects the thinking blocks: the blocks that are closed, and the text and signature of the
open one. -/
structure ThinkingBlockAccumulator where
  blocks : List ThinkingArtifactBlock := []
  opened : Option (String × String) := none
deriving DecidableEq, Repr

namespace ThinkingBlockAccumulator

/-- Handles an opening event. -/
def onContentBlockStart (block : StreamContentBlock Value) (a : ThinkingBlockAccumulator) :
    ThinkingBlockAccumulator :=
  match block with
  | .thinking thinking => { a with opened := some (thinking, "") }
  | .redactedThinking data => { a with blocks := a.blocks ++ [.redactedThinking data] }
  | _ => a

/-- Handles a fragment. -/
def onContentBlockDelta (delta : StreamDelta) (a : ThinkingBlockAccumulator) :
    ThinkingBlockAccumulator :=
  match delta with
  | .thinkingDelta thinking =>
    { a with opened := a.opened.map fun (text, signature) => (text ++ thinking, signature) }
  | .signatureDelta signature =>
    { a with opened := a.opened.map fun (text, old) => (text, old ++ signature) }
  | _ => a

/-- Closes the open block, at its closing event or at the end of the stream. -/
def onContentBlockStop (a : ThinkingBlockAccumulator) : ThinkingBlockAccumulator where
  blocks := a.blocks ++ (a.opened.map fun (text, signature) =>
    ThinkingArtifactBlock.thinking text signature).toList
  opened := none

end ThinkingBlockAccumulator

/-- What a stream is accumulated into. -/
structure Streamed where
  hasAnyOutput : Bool := false
  fullText : String := ""
  fullReasoning : String := ""
  pendingToolCalls : List StreamToolCall := []
  inputTokens : Option UInt32 := none
  outputTokens : Option UInt32 := none
  thinkingBlocks : ThinkingBlockAccumulator := {}
deriving DecidableEq, Repr

/-- The pending calls, filled up with empty ones until there is one at the index. -/
def growTo (index : ℕ) (calls : List StreamToolCall) : List StreamToolCall :=
  calls ++ List.replicate (index + 1 - calls.length) ({} : StreamToolCall)

namespace Streamed

/-- Adds a text, which counts as output unless it is empty. -/
def pushText (text : String) (s : Streamed) : Streamed :=
  if text = "" then s else { s with hasAnyOutput := true, fullText := s.fullText ++ text }

/-- Adds a reasoning text, which counts as output unless it is empty. -/
def pushReasoning (text : String) (s : Streamed) : Streamed :=
  if text = "" then s
  else { s with hasAnyOutput := true, fullReasoning := s.fullReasoning ++ text }

def modifyCall (index : ℕ) (change : StreamToolCall → StreamToolCall) (s : Streamed) :
    Except AnthropicError Streamed :=
  if maxToolCalls ≤ index then
    .error (.io s!"tool call index {index} exceeds maximum ({maxToolCalls})")
  else
    .ok { s with
      hasAnyOutput := true
      pendingToolCalls := (growTo index s.pendingToolCalls).modify index change }

variable (packages : Packages Value)

/-- Handles an opening event. -/
def onStart (index : ℕ) (block : StreamContentBlock Value)
    (s : Streamed) : Except AnthropicError Streamed :=
  let s := { s with thinkingBlocks := s.thinkingBlocks.onContentBlockStart block }
  match block with
  | .text text => .ok (s.pushText text)
  | .toolUse id name input =>
    s.modifyCall index fun _ => { id := id, name := name, arguments := packages.toStr input }
  | .thinking thinking => .ok (s.pushReasoning thinking)
  | .redactedThinking _ => .ok s

/-- Handles a fragment. -/
def onDelta (index : ℕ) (delta : StreamDelta) (s : Streamed) : Except AnthropicError Streamed :=
  let s := { s with thinkingBlocks := s.thinkingBlocks.onContentBlockDelta delta }
  match delta with
  | .textDelta text => .ok (s.pushText text)
  | .inputJsonDelta partialJson =>
    s.modifyCall index fun call => { call with arguments := call.arguments ++ partialJson }
  | .thinkingDelta thinking => .ok (s.pushReasoning thinking)
  | .signatureDelta _ => .ok s

def handle (s : Streamed) :
    StreamEvent Value → Except AnthropicError Streamed
  | .contentBlockStart index block => s.onStart packages index block
  | .contentBlockDelta index delta => s.onDelta index delta
  | .contentBlockStop => .ok { s with thinkingBlocks := s.thinkingBlocks.onContentBlockStop }
  | .messageStart inputTokens => .ok { s with inputTokens := inputTokens }
  | .messageDelta outputTokens => .ok { s with outputTokens := outputTokens }
  | .messageStop | .other => .ok s

/-- Accumulates a stream up to its last event. -/
def accumulate (packages : Packages Value) :
    List (StreamEvent Value) → Streamed → Except AnthropicError Streamed
  | [], s => .ok s
  | .messageStop :: _, s => .ok s
  | event :: events, s => do
    let s ← s.handle packages event
    accumulate packages events s

/-- The result of what was accumulated. -/
def result (s : Streamed) : Except AnthropicError ChatTurnResult :=
  let usage :=
    match s.inputTokens, s.outputTokens with
    | some input, some output => some (usageOf input output)
    | _, _ => none
  let reasoningArtifact :=
    anthropicThinkingArtifact packages s.thinkingBlocks.onContentBlockStop.blocks
  let toolCalls := s.pendingToolCalls.map fun call =>
    { id := call.id, name := call.name, argumentsJson := call.arguments : ChatToolCall }
  if !s.hasAnyOutput then .error .emptyResponse
  else if !toolCalls.isEmpty then
    .ok (.toolUse {
      content := nonempty s.fullText
      toolCalls := toolCalls
      reasoning := nonempty s.fullReasoning
      usage := usage
      reasoningArtifact := reasoningArtifact })
  else if s.fullText = "" then .error .emptyResponse
  else
    .ok (.finalText {
      content := s.fullText
      reasoning := nonempty s.fullReasoning
      usage := usage
      reasoningArtifact := reasoningArtifact })

end Streamed

def streamedTurnResult (packages : Packages Value) (events : List (StreamEvent Value)) :
    Except AnthropicError ChatTurnResult := do
  (← Streamed.accumulate packages events {}).result packages

/-! ### Ways of streaming an answer -/

/-- A block together with a way of streaming it: the fragments of its text, of its thinking and its
signature in any order, or of the JSON text of its input. -/
inductive BlockStream (Value : Type)
  | text (fragments : List String)
  | toolUse (id name : String) (input : Value) (fragments : List String)
  | thinking (fragments : List (String ⊕ String))
  | redactedThinking (data : String)

namespace BlockStream

def block : BlockStream Value → ContentBlock Value
  | text fragments => .text (String.join fragments)
  | toolUse id name input _ => .toolUse id name input
  | thinking fragments =>
    .thinking (String.join (fragments.filterMap Sum.getLeft?))
      (String.join (fragments.filterMap Sum.getRight?))
  | redactedThinking data => .redactedThinking data

def thinkingDelta : String ⊕ String → StreamDelta
  | .inl fragment => .thinkingDelta fragment
  | .inr fragment => .signatureDelta fragment

variable (packages : Packages Value)

/-- The opening event of a block has no text yet, and the empty object for an input. -/
def start : BlockStream Value → StreamContentBlock Value
  | text _ => .text ""
  | toolUse id name _ _ => .toolUse id name packages.emptyObject
  | thinking _ => .thinking ""
  | redactedThinking data => .redactedThinking data

def deltas : BlockStream Value → List StreamDelta
  | text fragments => fragments.map .textDelta
  | toolUse _ _ _ fragments => fragments.map .inputJsonDelta
  | thinking fragments => fragments.map thinkingDelta
  | redactedThinking _ => []

def events (index : ℕ) (stream : BlockStream Value) :
    List (StreamEvent Value) :=
  .contentBlockStart index (stream.start packages) ::
    stream.deltas.map (.contentBlockDelta index) ++ [.contentBlockStop]

/-- The fragments of an input are a JSON text of it. Without a text the input is the empty object. -/
def Valid : BlockStream Value → Prop
  | toolUse _ _ input fragments =>
    packages.fromStr (String.join fragments) = some input ∨
      (String.join fragments = "" ∧ input = packages.emptyObject)
  | _ => True

end BlockStream

def eventsFrom (packages : Packages Value) : ℕ → List (BlockStream Value) → List (StreamEvent Value)
  | _, [] => []
  | index, stream :: streams => stream.events packages index ++ eventsFrom packages (index + 1) streams

/-- Whether an event is about a block. -/
def StreamEvent.isBlockEvent : StreamEvent Value → Bool
  | contentBlockStart .. | contentBlockDelta .. | contentBlockStop => true
  | _ => false

variable (streams : List (BlockStream Value))

/-- The events deliver the blocks: up to the last event of the message, the events about blocks are
those of the blocks, with any other events between them. -/
def Delivers
    (events : List (StreamEvent Value)) : Prop :=
  ∃ body rest, (events = body ∨ events = body ++ .messageStop :: rest) ∧
    .messageStop ∉ body ∧ body.filter StreamEvent.isBlockEvent = eventsFrom packages 0 streams

def SameCall (a b : ChatToolCall) : Prop :=
  a.id = b.id ∧ a.name = b.name ∧
    packages.fromStr a.argumentsJson = packages.fromStr b.argumentsJson ∧ a.caller = b.caller

/-- The same result, apart from the token counts. -/
def SameTurn (packages : Packages Value) : ChatTurnResult → ChatTurnResult → Prop
  | .finalText a, .finalText b =>
    a.content = b.content ∧ a.reasoning = b.reasoning ∧ a.reasoningArtifact = b.reasoningArtifact
  | .toolUse a, .toolUse b =>
    a.content = b.content ∧ List.Forall₂ (SameCall packages) a.toolCalls b.toolCalls ∧
      a.reasoning = b.reasoning ∧ a.reasoningArtifact = b.reasoningArtifact
  | _, _ => False

/-- A stream gives the same as the whole answer. -/
def Agrees (packages : Packages Value) (usage : Option (UInt32 × UInt32))
    (streams : List (BlockStream Value)) (events : List (StreamEvent Value)) : Prop :=
  AgreeOn (SameTurn packages) (streamedTurnResult packages events)
    (responseToTurnResult packages (streams.map BlockStream.block) usage)

/-! ### The condition -/

namespace BlockStream

def text? : BlockStream Value → Option String
  | text fragments => some (String.join fragments)
  | _ => none

/-- The text of a thinking block. -/
def thinking? : BlockStream Value → Option String
  | thinking fragments => some (String.join (fragments.filterMap Sum.getLeft?))
  | _ => none

def isToolUse : BlockStream Value → Bool
  | toolUse .. => true
  | _ => false

/-- Whether a tool use is streamed without any text of its input. -/
def inputUnsent : BlockStream Value → Prop
  | toolUse _ _ _ fragments => String.join fragments = ""
  | _ => True

end BlockStream

variable (streams : List (BlockStream Value))

def texts : List String := streams.filterMap BlockStream.text?

/-- The texts of the thinking blocks. -/
def thinkings : List String :=
  streams.filterMap BlockStream.thinking?

/-- How many tool uses there are. -/
def toolUseCount : ℕ :=
  (streams.filter BlockStream.isToolUse).length

/-- The tool uses come first. -/
def ToolsFirst : Prop :=
  streams.Pairwise fun earlier later => later.isToolUse = true → earlier.isToolUse = true

/-- The answers that are streamed like they come whole. Either both fail, because there is no tool
use and no text. Or there is at most one thinking block, which is not empty; and if there are tool
uses, they come before all other blocks, there are at most 128, none has an input, and the text
blocks, if there are any, are not all empty. -/
def Streamable : Prop :=
  (toolUseCount streams = 0 ∧ String.join (texts streams) = "") ∨
    ((thinkings streams = [] ∨ ∃ text, text ≠ "" ∧ thinkings streams = [text]) ∧
      (toolUseCount streams = 0 ∨
        (ToolsFirst streams ∧ toolUseCount streams ≤ maxToolCalls ∧
          (∀ stream ∈ streams, stream.inputUnsent) ∧
          (texts streams = [] ∨ String.join (texts streams) ≠ ""))))

/-! ### Whole answers, block by block -/

def BlockStream.wholeCall? : BlockStream Value → Option ChatToolCall
  | toolUse id name input _ =>
    some { id := id, name := name, argumentsJson := packages.toStr input }
  | _ => none

def BlockStream.artifact? : BlockStream Value → Option ThinkingArtifactBlock
  | thinking fragments =>
    some (.thinking (String.join (fragments.filterMap Sum.getLeft?))
      (String.join (fragments.filterMap Sum.getRight?)))
  | redactedThinking data => some (.redactedThinking data)
  | _ => none

theorem foldl_add (packages : Packages Value) (streams : List (BlockStream Value)) (c : Collected) :
    (streams.map BlockStream.block).foldl (Collected.add packages) c =
      { textParts := c.textParts ++ texts streams
        toolUses := c.toolUses ++ streams.filterMap (BlockStream.wholeCall? packages)
        reasoningParts := c.reasoningParts ++ thinkings streams
        artifactBlocks := c.artifactBlocks ++ streams.filterMap BlockStream.artifact? } := by
  induction streams generalizing c with
  | nil => simp [texts, thinkings]
  | cons stream streams ih =>
    rw [map_cons, foldl_cons, ih]
    rcases stream with fragments | ⟨id, name, input, fragments⟩ | fragments | data <;>
      simp [BlockStream.block, Collected.add, texts, thinkings, BlockStream.text?,
        BlockStream.thinking?, BlockStream.wholeCall?, BlockStream.artifact?, filterMap_cons]

/-! ### Streamed answers, block by block -/

def BlockStream.streamCall? : BlockStream Value → Option StreamToolCall
  | toolUse id name _ fragments =>
    some {
      id := id
      name := name
      arguments := packages.toStr packages.emptyObject ++ String.join fragments }
  | _ => none

variable (stream : BlockStream Value)

def BlockStream.addedText : String := stream.text?.getD ""

def BlockStream.addedReasoning : String := stream.thinking?.getD ""

/-- The pending calls with the call of a block, if it has one, at the index of the block. -/
def placeCall (index : ℕ) : Option StreamToolCall → List StreamToolCall → List StreamToolCall
  | some call, calls =>
    calls ++ List.replicate (index - calls.length) ({} : StreamToolCall) ++ [call]
  | none, calls => calls

/-- What a block at an index does to the accumulated answer. -/
def Streamed.addBlock (packages : Packages Value) (index : ℕ) (stream : BlockStream Value)
    (s : Streamed) : Except AnthropicError Streamed :=
  if stream.isToolUse = true ∧ maxToolCalls ≤ index then
    .error (.io s!"tool call index {index} exceeds maximum ({maxToolCalls})")
  else
    .ok { s with
      hasAnyOutput := s.hasAnyOutput || stream.isToolUse || stream.addedText != "" ||
        stream.addedReasoning != ""
      fullText := s.fullText ++ stream.addedText
      fullReasoning := s.fullReasoning ++ stream.addedReasoning
      pendingToolCalls := placeCall index (stream.streamCall? packages) s.pendingToolCalls
      thinkingBlocks :=
        { s.thinkingBlocks with blocks := s.thinkingBlocks.blocks ++ stream.artifact?.toList } }

namespace Streamed

variable (packages : Packages Value)

theorem accumulate_eq_foldlM {events rest : List (StreamEvent Value)}
    (h : .messageStop ∉ events) (hrest : rest = [] ∨ ∃ after, rest = .messageStop :: after)
    (s : Streamed) :
    accumulate packages (events ++ rest) s = events.foldlM (handle packages) s := by
  induction events generalizing s with
  | nil =>
    rcases hrest with rfl | ⟨after, rfl⟩
    · rfl
    · rfl
  | cons event events ih =>
    have htail := fun s => ih (fun hmem => h (mem_cons_of_mem _ hmem)) s
    rw [foldlM_cons]
    rcases event with ⟨index, block⟩ | ⟨index, delta⟩ | _ | _ | _ | _ | _
    case messageStop => exact absurd mem_cons_self h
    all_goals exact bind_congr htail

theorem pushText_pushText (a b : String) (s : Streamed) :
    (s.pushText a).pushText b = s.pushText (a ++ b) := by
  by_cases ha : a = "" <;> by_cases hb : b = ""
  · simp [pushText, ha, hb]
  · simp [pushText, ha, hb]
  · simp [pushText, ha, hb]
  · have hab : a ++ b ≠ "" := fun h => ha (String.append_eq_empty_iff.1 h).1
    simp [pushText, ha, hb, hab, String.append_assoc]

theorem pushReasoning_pushReasoning (a b : String) (s : Streamed) :
    (s.pushReasoning a).pushReasoning b = s.pushReasoning (a ++ b) := by
  by_cases ha : a = "" <;> by_cases hb : b = ""
  · simp [pushReasoning, ha, hb]
  · simp [pushReasoning, ha, hb]
  · simp [pushReasoning, ha, hb]
  · have hab : a ++ b ≠ "" := fun h => ha (String.append_eq_empty_iff.1 h).1
    simp [pushReasoning, ha, hb, hab, String.append_assoc]

theorem foldlM_textDeltas (index : ℕ) (fragments : List String)
    (s : Streamed) :
    ((fragments.map StreamDelta.textDelta).map (StreamEvent.contentBlockDelta index)).foldlM
      (handle packages) s = .ok (s.pushText (String.join fragments)) := by
  induction fragments generalizing s with
  | nil => simp [pushText, pure, Except.pure]
  | cons fragment fragments ih =>
    rw [map_cons, map_cons, foldlM_cons]
    refine (ih (s.pushText fragment)).trans ?_
    rw [pushText_pushText, String.join_cons]

theorem pushText_eq (text : String) (s : Streamed) :
    s.pushText text =
      { s with hasAnyOutput := s.hasAnyOutput || text != "", fullText := s.fullText ++ text } := by
  by_cases h : text = ""
  · simp [pushText, h]
  · simp [pushText, h]

theorem pushReasoning_eq (text : String) (s : Streamed) :
    s.pushReasoning text =
      { s with
        hasAnyOutput := s.hasAnyOutput || text != ""
        fullReasoning := s.fullReasoning ++ text } := by
  by_cases h : text = ""
  · simp [pushReasoning, h]
  · simp [pushReasoning, h]

theorem foldlM_thinkingDeltas (index : ℕ)
    (fragments : List (String ⊕ String)) {text signature : String} {s : Streamed}
    (h : s.thinkingBlocks.opened = some (text, signature)) :
    ((fragments.map BlockStream.thinkingDelta).map
      (StreamEvent.contentBlockDelta index)).foldlM (handle packages) s =
      .ok ({ s with
        thinkingBlocks := { s.thinkingBlocks with
          opened := some (text ++ String.join (fragments.filterMap Sum.getLeft?),
            signature ++ String.join (fragments.filterMap Sum.getRight?)) } }.pushReasoning
        (String.join (fragments.filterMap Sum.getLeft?))) := by
  induction fragments generalizing text signature s with
  | nil => simp [pushReasoning, ← h, pure, Except.pure]
  | cons fragment fragments ih =>
    rw [map_cons, map_cons, foldlM_cons]
    rcases fragment with fragment | fragment
    · have hstep : s.handle packages (.contentBlockDelta index (.thinkingDelta fragment)) =
          .ok ({ s with thinkingBlocks := { s.thinkingBlocks with
            opened := some (text ++ fragment, signature) } }.pushReasoning fragment) := by
        simp [handle, onDelta, ThinkingBlockAccumulator.onContentBlockDelta, h]
      rw [BlockStream.thinkingDelta, hstep]
      refine (ih (congrArg (fun s => s.thinkingBlocks.opened) (pushReasoning_eq _ _))).trans ?_
      rw [filterMap_cons_some (f := Sum.getLeft?) rfl,
        filterMap_cons_none (f := Sum.getRight?) rfl, String.join_cons,
        ← pushReasoning_pushReasoning]
      simp [pushReasoning_eq, String.append_assoc]
    · have hstep : s.handle packages (.contentBlockDelta index (.signatureDelta fragment)) =
          .ok { s with thinkingBlocks := { s.thinkingBlocks with
            opened := some (text, signature ++ fragment) } } := by
        simp [handle, onDelta, ThinkingBlockAccumulator.onContentBlockDelta, h]
      rw [BlockStream.thinkingDelta, hstep]
      refine (ih rfl).trans ?_
      rw [filterMap_cons_none (f := Sum.getLeft?) rfl,
        filterMap_cons_some (f := Sum.getRight?) rfl, String.join_cons]
      simp [String.append_assoc]

theorem modify_length (calls : List StreamToolCall) (call : StreamToolCall)
    (change : StreamToolCall → StreamToolCall) :
    (calls ++ [call]).modify calls.length change = calls ++ [change call] := by
  rw [modify_eq_take_drop]
  simp

variable {index : ℕ} {calls : List StreamToolCall}

theorem growTo_of_le (h : calls.length ≤ index) :
    growTo index calls =
      calls ++ List.replicate (index - calls.length) ({} : StreamToolCall) ++
        [({} : StreamToolCall)] := by
  rw [growTo, Nat.succ_sub h, replicate_succ', append_assoc]

theorem growTo_of_length (h : index < calls.length) :
    growTo index calls = calls := by
  rw [growTo, Nat.sub_eq_zero_of_le h, replicate_zero, append_nil]

/-- The fragments of a tool use add up to the text that follows the arguments of its start. -/
theorem foldlM_inputDeltas (fragments : List String)
    {calls : List StreamToolCall} {call : StreamToolCall} {s : Streamed}
    (hlength : calls.length < maxToolCalls) (hcalls : s.pendingToolCalls = calls ++ [call])
    (houtput : s.hasAnyOutput = true) :
    ((fragments.map StreamDelta.inputJsonDelta).map
      (StreamEvent.contentBlockDelta calls.length)).foldlM (handle packages) s =
      .ok { s with
        pendingToolCalls :=
          calls ++ [{ call with arguments := call.arguments ++ String.join fragments }] } := by
  induction fragments generalizing call s with
  | nil => simp [← hcalls, pure, Except.pure]
  | cons fragment fragments ih =>
    have hgrow : growTo calls.length (calls ++ [call]) = calls ++ [call] :=
      growTo_of_length (by simp)
    have hstep : s.handle packages (.contentBlockDelta calls.length (.inputJsonDelta fragment)) =
        .ok { s with
          pendingToolCalls :=
            calls ++ [{ call with arguments := call.arguments ++ fragment }] } := by
      simp [handle, onDelta, modifyCall, ThinkingBlockAccumulator.onContentBlockDelta, hcalls,
        hgrow, modify_length, houtput, Nat.not_le.2 hlength]
    rw [map_cons, map_cons, foldlM_cons, hstep]
    refine (@ih { call with arguments := call.arguments ++ fragment }
      { s with pendingToolCalls := _ } rfl houtput).trans ?_
    simp [String.join_cons, String.append_assoc]

theorem foldlM_events_eq (index : ℕ) (stream : BlockStream Value)
    (s : Streamed) :
    (stream.events packages index).foldlM (handle packages) s =
      (s.onStart packages index (stream.start packages) >>= fun s =>
        (stream.deltas.map (.contentBlockDelta index)).foldlM (handle packages) s) >>= fun s =>
          .ok { s with thinkingBlocks := s.thinkingBlocks.onContentBlockStop } := by
  rw [BlockStream.events, cons_append, foldlM_cons, bind_assoc]
  refine bind_congr fun s₁ => ?_
  rw [foldlM_append]
  refine bind_congr fun s₂ => ?_
  rw [foldlM_cons]
  rfl

theorem onStart_toolUse {s : Streamed} {id name : String}
    (input : Value) (hindex : index < maxToolCalls)
    (hlength : s.pendingToolCalls.length ≤ index) :
    s.onStart packages index (.toolUse id name input) =
      .ok { s with
        hasAnyOutput := true
        pendingToolCalls :=
          (s.pendingToolCalls ++
              List.replicate (index - s.pendingToolCalls.length) ({} : StreamToolCall)) ++
            [⟨id, name, packages.toStr input⟩] } := by
  have hcalls : (s.pendingToolCalls ++
      List.replicate (index - s.pendingToolCalls.length) ({} : StreamToolCall)).length = index := by
    rw [length_append, length_replicate]
    omega
  have hmodify := modify_length (s.pendingToolCalls ++
    List.replicate (index - s.pendingToolCalls.length) ({} : StreamToolCall)) {}
      fun _ => ⟨id, name, packages.toStr input⟩
  rw [hcalls] at hmodify
  simp only [onStart, modifyCall, if_neg (Nat.not_le.2 hindex), growTo_of_le hlength, hmodify]
  rfl

theorem foldlM_events_toolUse {s : Streamed}
    (id name : String) (input : Value) (fragments : List String)
    (hopened : s.thinkingBlocks.opened = none) (hlength : s.pendingToolCalls.length ≤ index) :
    ((BlockStream.toolUse id name input fragments).events packages index).foldlM
      (handle packages) s = s.addBlock packages index (.toolUse id name input fragments) := by
  rw [foldlM_events_eq, BlockStream.start, BlockStream.deltas]
  by_cases hindex : index < maxToolCalls
  · have hcalls : (s.pendingToolCalls ++
        List.replicate (index - s.pendingToolCalls.length) ({} : StreamToolCall)).length =
          index := by
      rw [length_append, length_replicate]
      omega
    have hdeltas := @foldlM_inputDeltas _ packages fragments (s.pendingToolCalls ++
        List.replicate (index - s.pendingToolCalls.length) ({} : StreamToolCall))
      ⟨id, name, packages.toStr packages.emptyObject⟩
      { s with hasAnyOutput := true, pendingToolCalls := _ } (hcalls.trans_lt hindex) rfl rfl
    rw [hcalls] at hdeltas
    rw [onStart_toolUse packages packages.emptyObject hindex hlength]
    refine (congrArg (· >>= _) hdeltas).trans ?_
    simp [addBlock, BlockStream.isToolUse, BlockStream.addedText, BlockStream.addedReasoning,
      BlockStream.streamCall?, placeCall, BlockStream.artifact?, BlockStream.text?,
      BlockStream.thinking?,
      ThinkingBlockAccumulator.onContentBlockStop, hopened, bind, Except.bind,
      Nat.not_le.2 hindex]
  · rw [addBlock, if_pos ⟨rfl, Nat.not_lt.1 hindex⟩]
    simp only [onStart, modifyCall, if_pos (Nat.not_lt.1 hindex)]
    rfl

theorem foldlM_events (stream : BlockStream Value)
    {s : Streamed} (hopened : s.thinkingBlocks.opened = none)
    (hlength : s.pendingToolCalls.length ≤ index) :
    (stream.events packages index).foldlM (handle packages) s =
      s.addBlock packages index stream := by
  rcases stream with fragments | ⟨id, name, input, fragments⟩ | fragments | data
  · rw [foldlM_events_eq]
    change ((fragments.map StreamDelta.textDelta).map (StreamEvent.contentBlockDelta index)).foldlM
      (handle packages) s >>= _ = _
    rw [foldlM_textDeltas]
    simp [addBlock, BlockStream.isToolUse, BlockStream.addedText, BlockStream.addedReasoning,
      BlockStream.streamCall?, placeCall, BlockStream.artifact?, BlockStream.text?,
      BlockStream.thinking?,
      pushText_eq, ThinkingBlockAccumulator.onContentBlockStop, hopened, bind, Except.bind]
  · exact foldlM_events_toolUse packages id name input fragments hopened hlength
  · rw [foldlM_events_eq]
    have hdeltas := @foldlM_thinkingDeltas _ packages index fragments "" ""
      { s with thinkingBlocks := { s.thinkingBlocks with opened := some ("", "") } } rfl
    refine (congrArg (· >>= _) hdeltas).trans ?_
    simp [addBlock, BlockStream.isToolUse, BlockStream.addedText, BlockStream.addedReasoning,
      BlockStream.streamCall?, placeCall, BlockStream.artifact?, BlockStream.text?,
      BlockStream.thinking?,
      pushReasoning_eq, ThinkingBlockAccumulator.onContentBlockStop, hopened, bind, Except.bind]
  · rw [foldlM_events_eq]
    simp [addBlock, BlockStream.isToolUse, BlockStream.addedText, BlockStream.addedReasoning,
      BlockStream.streamCall?, placeCall, BlockStream.artifact?, BlockStream.text?,
      BlockStream.thinking?,
      BlockStream.start, BlockStream.deltas, onStart, ThinkingBlockAccumulator.onContentBlockStart,
      ThinkingBlockAccumulator.onContentBlockStop, hopened, bind, Except.bind, pure, Except.pure]

/-- Adds blocks, the first of which has the given index. -/
def addFrom (packages : Packages Value) :
    ℕ → List (BlockStream Value) → Streamed → Except AnthropicError Streamed
  | _, [], s => .ok s
  | index, stream :: streams, s => do
    let s ← s.addBlock packages index stream
    addFrom packages (index + 1) streams s

theorem length_placeCall_le
    (h : calls.length ≤ index) (call : Option StreamToolCall) :
    (placeCall index call calls).length ≤ index + 1 := by
  rcases call with _ | call
  · exact Nat.le_succ_of_le h
  · simp only [placeCall, length_append, length_replicate, length_singleton]
    omega

theorem addBlock_eq_ok {packages : Packages Value} {stream : BlockStream Value}
    {s s' : Streamed} (h : s.addBlock packages index stream = .ok s')
    (hopened : s.thinkingBlocks.opened = none) (hlength : s.pendingToolCalls.length ≤ index) :
    s'.thinkingBlocks.opened = none ∧ s'.pendingToolCalls.length ≤ index + 1 := by
  rw [addBlock] at h
  split_ifs at h with hlimit
  cases h
  exact ⟨hopened, length_placeCall_le hlength _⟩

theorem accumulate_events (packages : Packages Value)
    (streams : List (BlockStream Value)) {s : Streamed}
    (hopened : s.thinkingBlocks.opened = none) (hlength : s.pendingToolCalls.length ≤ index) :
    (eventsFrom packages index streams).foldlM (handle packages) s =
      s.addFrom packages index streams := by
  induction streams generalizing index s with
  | nil => rfl
  | cons stream streams ih =>
    rw [eventsFrom, foldlM_append, foldlM_events packages stream hopened hlength, addFrom]
    rcases hblock : s.addBlock packages index stream with error | s'
    · rfl
    · obtain ⟨hopened', hlength'⟩ := addBlock_eq_ok hblock hopened hlength
      exact ih hopened' hlength'

end Streamed

/-- The tool uses have indices below the limit, counted from the given index. -/
def Fits : ℕ → List (BlockStream Value) → Prop
  | _, [] => True
  | index, stream :: streams =>
    ¬ (stream.isToolUse = true ∧ maxToolCalls ≤ index) ∧ Fits (index + 1) streams

/-- The pending calls after blocks, the first of which has the given index. -/
def pendingFrom (packages : Packages Value) :
    ℕ → List (BlockStream Value) → List StreamToolCall → List StreamToolCall
  | _, [], calls => calls
  | index, stream :: streams, calls =>
    pendingFrom packages (index + 1) streams
      (placeCall index (stream.streamCall? packages) calls)

/-- Whether a block counts as output. -/
def BlockStream.isOutput : Bool :=
  stream.isToolUse || stream.addedText != "" || stream.addedReasoning != ""

theorem join_texts_cons :
    String.join (texts (stream :: streams)) = stream.addedText ++ String.join (texts streams) := by
  rw [texts, texts, BlockStream.addedText]
  rcases h : stream.text? with _ | text
  · simp [filterMap_cons_none h]
  · simp [filterMap_cons_some h, String.join_cons]

theorem join_thinkings_cons :
    String.join (thinkings (stream :: streams)) =
      stream.addedReasoning ++ String.join (thinkings streams) := by
  rw [thinkings, thinkings, BlockStream.addedReasoning]
  rcases h : stream.thinking? with _ | text
  · simp [filterMap_cons_none h]
  · simp [filterMap_cons_some h, String.join_cons]

namespace Streamed

variable (packages : Packages Value) {streams : List (BlockStream Value)}

theorem addFrom_of_fits {index : ℕ}
    (h : Fits index streams) (s : Streamed) :
    s.addFrom packages index streams =
      .ok { s with
        hasAnyOutput := s.hasAnyOutput || streams.any BlockStream.isOutput
        fullText := s.fullText ++ String.join (texts streams)
        fullReasoning := s.fullReasoning ++ String.join (thinkings streams)
        pendingToolCalls := pendingFrom packages index streams s.pendingToolCalls
        thinkingBlocks := { s.thinkingBlocks with
          blocks := s.thinkingBlocks.blocks ++ streams.filterMap BlockStream.artifact? } } := by
  induction streams generalizing index s with
  | nil => simp [addFrom, pendingFrom, texts, thinkings]
  | cons stream streams ih =>
    rw [addFrom, addBlock, if_neg h.1]
    refine (ih h.2 _).trans ?_
    have hblocks : (stream :: streams).filterMap BlockStream.artifact? =
        stream.artifact?.toList ++ streams.filterMap BlockStream.artifact? := by
      rcases hblock : stream.artifact? with _ | block
      · rw [filterMap_cons_none hblock, Option.toList_none, nil_append]
      · rw [filterMap_cons_some hblock, Option.toList_some, singleton_append]
    simp [join_texts_cons, join_thinkings_cons, pendingFrom, BlockStream.isOutput, Bool.or_assoc,
      String.append_assoc, hblocks]

theorem addFrom_of_not_fits {index : ℕ}
    (h : ¬ Fits index streams) (s : Streamed) :
    ∃ error, s.addFrom packages index streams = .error error := by
  induction streams generalizing index s with
  | nil => exact absurd trivial h
  | cons stream streams ih =>
    rw [addFrom, addBlock]
    by_cases hlimit : stream.isToolUse = true ∧ maxToolCalls ≤ index
    · exact ⟨_, by rw [if_pos hlimit]; rfl⟩
    · rw [if_neg hlimit]
      exact ih (fun hfits => h ⟨hlimit, hfits⟩) _

/-- What was accumulated, without the token counts. -/
def withoutTokens (s : Streamed) : Streamed := { s with inputTokens := none, outputTokens := none }

theorem pushText_withoutTokens (text : String) (s : Streamed) :
    s.withoutTokens.pushText text = (s.pushText text).withoutTokens := by
  rw [pushText_eq, pushText_eq]
  rfl

theorem pushReasoning_withoutTokens (text : String) (s : Streamed) :
    s.withoutTokens.pushReasoning text = (s.pushReasoning text).withoutTokens := by
  rw [pushReasoning_eq, pushReasoning_eq]
  rfl

theorem modifyCall_withoutTokens (index : ℕ) (change : StreamToolCall → StreamToolCall)
    (s : Streamed) :
    s.withoutTokens.modifyCall index change =
      (s.modifyCall index change).map withoutTokens := by
  rw [modifyCall, modifyCall]
  split_ifs
  · rfl
  · rfl

/-- The events about blocks do not depend on the token counts. -/
theorem handle_withoutTokens {event : StreamEvent Value}
    (h : event.isBlockEvent = true) (s : Streamed) :
    s.withoutTokens.handle packages event = (s.handle packages event).map withoutTokens := by
  rcases event with ⟨index, block⟩ | ⟨index, delta⟩ | _ | _ | _ | _ | _
  case contentBlockStart =>
    rcases block with text | ⟨id, name, input⟩ | thinking | data
    · exact congrArg Except.ok (pushText_withoutTokens text s)
    · exact modifyCall_withoutTokens index _ s
    · exact congrArg Except.ok (pushReasoning_withoutTokens thinking { s with thinkingBlocks := _ })
    · rfl
  case contentBlockDelta =>
    rcases delta with text | partialJson | thinking | signature
    · exact congrArg Except.ok (pushText_withoutTokens text s)
    · exact modifyCall_withoutTokens index _ s
    · exact congrArg Except.ok (pushReasoning_withoutTokens thinking { s with thinkingBlocks := _ })
    · rfl
  case contentBlockStop => rfl
  all_goals exact absurd h Bool.false_ne_true

theorem handle_of_not_isBlockEvent {event : StreamEvent Value}
    (h : event.isBlockEvent = false) (s : Streamed) :
    (s.handle packages event).map withoutTokens = .ok s.withoutTokens := by
  rcases event with ⟨index, block⟩ | ⟨index, delta⟩ | _ | _ | _ | _ | _
  case contentBlockStart => exact absurd h.symm Bool.false_ne_true
  case contentBlockDelta => exact absurd h.symm Bool.false_ne_true
  case contentBlockStop => exact absurd h.symm Bool.false_ne_true
  all_goals rfl

theorem foldlM_withoutTokens (events : List (StreamEvent Value))
    (s : Streamed) :
    (events.foldlM (handle packages) s).map withoutTokens =
      (events.filter StreamEvent.isBlockEvent).foldlM (handle packages) s.withoutTokens := by
  induction events generalizing s with
  | nil => rfl
  | cons event events ih =>
    rw [foldlM_cons]
    rcases hblock : event.isBlockEvent with _ | _
    · have hevent := handle_of_not_isBlockEvent packages hblock s
      rw [filter_cons_of_neg (by rw [hblock]; exact Bool.false_ne_true)]
      rcases hs : s.handle packages event with error | s'
      · rw [hs] at hevent
        cases hevent
      · rw [hs] at hevent
        rw [← Except.ok.inj hevent]
        exact ih s'
    · rw [filter_cons_of_pos hblock, foldlM_cons, handle_withoutTokens packages hblock]
      rcases s.handle packages event with error | s'
      · rfl
      · exact ih s'

end Streamed

/-! ### The two results -/

theorem agreeOn_result_withoutTokens (packages : Packages Value) (s : Streamed)
    (y : Except AnthropicError ChatTurnResult) :
    AgreeOn (SameTurn packages) (s.withoutTokens.result packages) y ↔
      AgreeOn (SameTurn packages) (s.result packages) y := by
  obtain ⟨output, text, reasoning, calls, inputTokens, outputTokens, blocks⟩ := s
  rcases output with _ | _
  · rfl
  rcases calls with _ | ⟨call, calls⟩
  · by_cases htext : text = ""
    · subst htext
      rfl
    · simp only [Streamed.result, Streamed.withoutTokens, htext]
      rcases y with error | result | result
      · rfl
      · rfl
      · rfl
  · rcases y with error | result | result
    · rfl
    · rfl
    · rfl

theorem length_join_lt_length_intercalate (text next : String) (texts : List String) :
    (String.join (text :: next :: texts)).length <
      ("\n".intercalate (text :: next :: texts)).length := by
  induction texts generalizing text next with
  | nil =>
    simp [String.join_cons, String.intercalate_cons_cons]
    decide
  | cons third texts ih =>
    have htail := ih next third
    rw [String.join_cons, String.intercalate_cons_cons, String.length_append, String.length_append,
      String.length_append]
    omega

/-- The reasoning of a stream is that of the whole answer when there is at most one thinking block,
which is not empty. -/
theorem reasoning_eq_iff (parts : List String) :
    nonempty (String.join parts) =
        (if parts.isEmpty then none else some ("\n".intercalate parts)) ↔
      parts = [] ∨ ∃ text, text ≠ "" ∧ parts = [text] := by
  rcases parts with _ | ⟨text, _ | ⟨next, rest⟩⟩
  · simp [nonempty]
  · by_cases h : text = ""
    · simp [nonempty, h, String.join_cons]
    · simp [nonempty, h, String.join_cons]
  · have hlength := length_join_lt_length_intercalate text next rest
    simp only [isEmpty_cons, reduceCtorEq, cons.injEq, and_false, exists_false, or_false,
      Bool.false_eq_true, if_false, nonempty, iff_false]
    intro h
    split_ifs at h
    rw [Option.some.inj h] at hlength
    omega

theorem content_eq_iff (parts : List String) :
    nonempty (String.join parts) = (if parts.isEmpty then none else some (String.join parts)) ↔
      parts = [] ∨ String.join parts ≠ "" := by
  rcases parts with _ | ⟨text, rest⟩
  · simp [nonempty]
  · by_cases h : String.join (text :: rest) = ""
    · simp [nonempty, h]
    · simp [nonempty]

/-! ### The calls -/

/-- A pending call as a result has it. -/
def StreamToolCall.toChat (call : StreamToolCall) : ChatToolCall where
  id := call.id
  name := call.name
  argumentsJson := call.arguments

theorem BlockStream.isToolUse_cases (stream : BlockStream Value) :
    (∃ id name input fragments, stream = .toolUse id name input fragments) ∨
      (stream.isToolUse = false ∧ stream.streamCall? packages = none ∧
        stream.wholeCall? packages = none ∧ stream.inputUnsent) := by
  rcases stream with fragments | ⟨id, name, input, fragments⟩ | fragments | data
  · exact Or.inr ⟨rfl, rfl, rfl, trivial⟩
  · exact Or.inl ⟨id, name, input, fragments, rfl⟩
  · exact Or.inr ⟨rfl, rfl, rfl, trivial⟩
  · exact Or.inr ⟨rfl, rfl, rfl, trivial⟩

theorem toolUseCount_toolUse (id name : String) (input : Value) (fragments : List String)
    (streams : List (BlockStream Value)) :
    toolUseCount (.toolUse id name input fragments :: streams) = toolUseCount streams + 1 := by
  rw [toolUseCount, filter_cons_of_pos rfl, length_cons, toolUseCount]

theorem toolUseCount_of_not {stream : BlockStream Value} (h : stream.isToolUse = false)
    (streams : List (BlockStream Value)) :
    toolUseCount (stream :: streams) = toolUseCount streams := by
  rw [toolUseCount, filter_cons_of_neg (by rw [h]; exact Bool.false_ne_true), toolUseCount]

theorem toolUseCount_eq_zero_iff :
    toolUseCount streams = 0 ↔ ∀ stream ∈ streams, stream.isToolUse = false := by
  rw [toolUseCount, length_eq_zero_iff, filter_eq_nil_iff]
  simp only [Bool.not_eq_true]

theorem length_wholeCalls :
    (streams.filterMap (BlockStream.wholeCall? packages)).length = toolUseCount streams := by
  induction streams with
  | nil => rfl
  | cons stream streams ih =>
    rcases stream.isToolUse_cases packages with
      ⟨id, name, input, fragments, rfl⟩ | ⟨hnot, -, hwhole, -⟩
    · rw [toolUseCount_toolUse, filterMap_cons_some (f := BlockStream.wholeCall? packages) rfl,
        length_cons, ih]
    · rw [toolUseCount_of_not hnot, filterMap_cons_none hwhole, ih]

variable {streams : List (BlockStream Value)}

theorem pendingFrom_of_no_toolUse (packages : Packages Value)
    (h : toolUseCount streams = 0) (index : ℕ) (calls : List StreamToolCall) :
    pendingFrom packages index streams calls = calls := by
  induction streams generalizing index with
  | nil => rfl
  | cons stream streams ih =>
    rcases stream.isToolUse_cases packages with
      ⟨id, name, input, fragments, rfl⟩ | ⟨hnot, hcall, -, -⟩
    · rw [toolUseCount_toolUse] at h
      omega
    · rw [toolUseCount_of_not hnot] at h
      rw [pendingFrom, hcall]
      exact ih h (index + 1)

/-- The pending calls only grow. -/
theorem prefix_pendingFrom (packages : Packages Value) (index : ℕ)
    (streams : List (BlockStream Value)) (calls : List StreamToolCall) :
    calls <+: pendingFrom packages index streams calls := by
  induction streams generalizing index calls with
  | nil => exact prefix_rfl
  | cons stream streams ih =>
    refine List.IsPrefix.trans ?_ (ih (index + 1) _)
    rcases stream.streamCall? packages with _ | call
    · exact prefix_rfl
    · rw [placeCall, append_assoc]
      exact prefix_append _ _

theorem length_placeCall_some {index : ℕ} {calls : List StreamToolCall}
    (h : calls.length ≤ index) (call : StreamToolCall) :
    (placeCall index (some call) calls).length = index + 1 := by
  rw [placeCall, length_append, length_append, length_replicate,
    length_singleton]
  omega

/-- The pending calls reach up to the last tool use. -/
theorem le_length_pendingFrom (packages : Packages Value) {index : ℕ}
    {streams : List (BlockStream Value)} {calls : List StreamToolCall}
    (hlength : calls.length ≤ index) (htools : toolUseCount streams ≠ 0) :
    index + toolUseCount streams ≤ (pendingFrom packages index streams calls).length := by
  induction streams generalizing index calls with
  | nil => exact absurd rfl htools
  | cons stream streams ih =>
    rw [pendingFrom]
    rcases stream.isToolUse_cases packages with
      ⟨id, name, input, fragments, rfl⟩ | ⟨hnot, hcall, -, -⟩
    · have hplaced := length_placeCall_some hlength
        ⟨id, name, packages.toStr packages.emptyObject ++ String.join fragments⟩
      rw [toolUseCount_toolUse, BlockStream.streamCall?]
      by_cases hzero : toolUseCount streams = 0
      · rw [pendingFrom_of_no_toolUse packages hzero, hzero, hplaced]
      · have hle := ih hplaced.le hzero
        omega
    · rw [toolUseCount_of_not hnot] at htools ⊢
      rw [hcall, placeCall]
      have hle := ih (hlength.trans (Nat.le_add_right index 1)) htools
      omega

theorem fits_of_no_toolUse (h : toolUseCount streams = 0)
    (index : ℕ) : Fits index streams := by
  induction streams generalizing index with
  | nil => trivial
  | cons stream streams ih =>
    rw [toolUseCount_eq_zero_iff] at h ih
    refine ⟨fun htool => ?_, ih (fun other hother => h other (mem_cons_of_mem _ hother)) _⟩
    exact Bool.false_ne_true ((h stream mem_cons_self).symm.trans htool.1)

theorem toolsFirst_toolUse_iff (id name : String) (input : Value) (fragments : List String)
    (streams : List (BlockStream Value)) :
    ToolsFirst (.toolUse id name input fragments :: streams) ↔ ToolsFirst streams := by
  rw [ToolsFirst, pairwise_cons]
  exact and_iff_right fun _ _ _ => rfl

theorem toolsFirst_of_not_iff {stream : BlockStream Value} (h : stream.isToolUse = false)
    (streams : List (BlockStream Value)) :
    ToolsFirst (stream :: streams) ↔ toolUseCount streams = 0 := by
  rw [ToolsFirst, pairwise_cons, toolUseCount_eq_zero_iff, h]
  constructor
  · rintro ⟨hstream, -⟩ other hother
    exact Bool.eq_false_iff.2 fun htool => Bool.false_ne_true (hstream other hother htool)
  · intro hnone
    refine ⟨fun other hother htool => ?_, pairwise_of_forall_mem_list ?_⟩
    · exact (hnone other hother).symm.trans htool
    · rintro earlier - later hlater htool
      exact absurd ((hnone later hlater).symm.trans htool) Bool.false_ne_true

theorem fits_iff (h : ToolsFirst streams) (index : ℕ) :
    Fits index streams ↔
      toolUseCount streams = 0 ∨ index + toolUseCount streams ≤ maxToolCalls := by
  induction streams generalizing index with
  | nil => exact ⟨fun _ => Or.inl rfl, fun _ => trivial⟩
  | cons stream streams ih =>
    rcases hstream : stream.isToolUse with _ | _
    · have hzero := (toolsFirst_of_not_iff hstream streams).1 h
      have hall : toolUseCount (stream :: streams) = 0 := by
        rw [toolUseCount_of_not hstream, hzero]
      exact ⟨fun _ => Or.inl hall, fun _ => fits_of_no_toolUse hall index⟩
    · have htail : ToolsFirst streams := (pairwise_cons.1 h).2
      have hcount : toolUseCount (stream :: streams) = toolUseCount streams + 1 := by
        rw [toolUseCount, filter_cons_of_pos hstream, length_cons, toolUseCount]
      rw [Fits, ih htail, hstream, hcount, eq_self, true_and]
      omega

variable {packages : Packages Value}

theorem sameCall_iff (hlaw : packages.toSerdeJson.Lawful)
    {id name : String} {input : Value} {fragments : List String}
    (hvalid : (BlockStream.toolUse id name input fragments).Valid packages) :
    SameCall packages (StreamToolCall.toChat
        ⟨id, name, packages.toStr packages.emptyObject ++ String.join fragments⟩)
        { id := id, name := name, argumentsJson := packages.toStr input } ↔
      String.join fragments = "" := by
  constructor
  · rintro ⟨-, -, hsame, -⟩
    rcases hvalid with hread | ⟨hempty, -⟩
    · have hwhole := hlaw.readable input
      simp only [StreamToolCall.toChat, hlaw.toStr_emptyObject] at hsame
      rw [← hsame, hlaw.fromStr_trailing _ _ hread] at hwhole
      exact absurd hwhole Bool.false_ne_true
    · exact hempty
  · intro hempty
    have hinput : input = packages.emptyObject := by
      rcases hvalid with hread | ⟨-, hinput⟩
      · rw [hempty, hlaw.fromStr_empty] at hread
        cases hread
      · exact hinput
    refine ⟨rfl, rfl, ?_, rfl⟩
    rw [StreamToolCall.toChat, hempty, hinput, String.append_empty]

def SamePending (packages : Packages Value) (pending : StreamToolCall) (call : ChatToolCall) :
    Prop :=
  SameCall packages pending.toChat call

theorem inputUnsent_of_no_toolUse
    (h : toolUseCount streams = 0) : ∀ stream ∈ streams, stream.inputUnsent := by
  intro stream hstream
  have hnot := (toolUseCount_eq_zero_iff streams).1 h stream hstream
  rcases stream with fragments | ⟨id, name, input, fragments⟩ | fragments | data
  · trivial
  · exact absurd hnot.symm Bool.false_ne_true
  · trivial
  · trivial

/-- The pending calls are those of the whole answer exactly when the tool uses come first and their
inputs are not sent. -/
theorem forall₂_pendingFrom_iff (hlaw : packages.toSerdeJson.Lawful)
    {index : ℕ} {streams : List (BlockStream Value)}
    (hvalid : ∀ stream ∈ streams, stream.Valid packages) {calls : List StreamToolCall}
    {whole : List ChatToolCall} (hlength : calls.length = index)
    (hcalls : List.Forall₂ (SamePending packages) calls whole) :
    List.Forall₂ (SamePending packages) (pendingFrom packages index streams calls)
        (whole ++ streams.filterMap (BlockStream.wholeCall? packages)) ↔
      ToolsFirst streams ∧ ∀ stream ∈ streams, stream.inputUnsent := by
  induction streams generalizing index calls whole with
  | nil =>
    rw [filterMap_nil, append_nil]
    exact ⟨fun _ => ⟨List.Pairwise.nil, by simp⟩, fun _ => hcalls⟩
  | cons stream streams ih =>
    have hvalid' := fun other hother => hvalid other (mem_cons_of_mem stream hother)
    rw [pendingFrom]
    rcases stream.isToolUse_cases packages with
      ⟨id, name, input, fragments, rfl⟩ | ⟨hnot, hcall, hwhole, hunsent⟩
    · have hsame := sameCall_iff hlaw (hvalid _ mem_cons_self)
      rw [BlockStream.streamCall?, placeCall, hlength, Nat.sub_self, replicate_zero,
        append_nil, filterMap_cons_some (f := BlockStream.wholeCall? packages) rfl,
        append_cons whole, toolsFirst_toolUse_iff, forall_mem_cons]
      by_cases hunsent : String.join fragments = ""
      · have hcalls' : List.Forall₂ (SamePending packages)
            (calls ++ [⟨id, name, packages.toStr packages.emptyObject ++ String.join fragments⟩])
            (whole ++ [{ id := id, name := name, argumentsJson := packages.toStr input }]) :=
          rel_append hcalls (List.Forall₂.cons (hsame.2 hunsent) List.Forall₂.nil)
        rw [ih hvalid' (by rw [length_append, hlength, length_singleton]) hcalls']
        exact and_congr_right fun _ => (and_iff_right hunsent).symm
      · refine ⟨fun hall => absurd ?_ hunsent, fun hall => absurd hall.2.1 hunsent⟩
        obtain ⟨rest, hrest⟩ := prefix_pendingFrom packages (index + 1) streams (calls ++
          [⟨id, name, packages.toStr packages.emptyObject ++ String.join fragments⟩])
        rw [← hrest, append_assoc, append_assoc] at hall
        have hdrop := List.forall₂_drop_append _ whole _ hall
        rw [drop_left' hcalls.length_eq] at hdrop
        exact hsame.1 (List.forall₂_cons.1 hdrop).1
    · rw [hcall, placeCall, filterMap_cons_none hwhole, toolsFirst_of_not_iff hnot,
        forall_mem_cons]
      by_cases hzero : toolUseCount streams = 0
      · have hnil : streams.filterMap (BlockStream.wholeCall? packages) = [] :=
          length_eq_zero_iff.1 ((length_wholeCalls packages streams).trans hzero)
        rw [pendingFrom_of_no_toolUse packages hzero, hnil, append_nil]
        exact ⟨fun _ => ⟨hzero, hunsent, inputUnsent_of_no_toolUse hzero⟩, fun _ => hcalls⟩
      · refine ⟨fun hall => absurd hall.length_eq (ne_of_gt ?_), fun hall => absurd hall.1 hzero⟩
        have hle := @le_length_pendingFrom _ packages (index + 1) streams calls (by omega) hzero
        rw [length_append, length_wholeCalls, ← hcalls.length_eq]
        omega

/-! ### The two paths agree on the streamable answers -/

def accumulated (packages : Packages Value) (streams : List (BlockStream Value)) : Streamed where
  hasAnyOutput := streams.any BlockStream.isOutput
  fullText := String.join (texts streams)
  fullReasoning := String.join (thinkings streams)
  pendingToolCalls := pendingFrom packages 0 streams []
  thinkingBlocks := { blocks := streams.filterMap BlockStream.artifact? }

variable {events : List (StreamEvent Value)}

theorem foldlM_of_delivers
    (h : Delivers packages streams events) :
    (Streamed.accumulate packages events {}).map Streamed.withoutTokens =
      Streamed.addFrom packages 0 streams {} := by
  obtain ⟨body, rest, hevents, hstop, hfilter⟩ := h
  have hbody : Streamed.accumulate packages events {} =
      body.foldlM (Streamed.handle packages) {} := by
    rcases hevents with rfl | rfl
    · have hend := Streamed.accumulate_eq_foldlM packages hstop (Or.inl rfl) {}
      rwa [append_nil] at hend
    · exact Streamed.accumulate_eq_foldlM packages hstop (Or.inr ⟨rest, rfl⟩) {}
  rw [hbody, Streamed.foldlM_withoutTokens, hfilter]
  exact Streamed.accumulate_events packages streams rfl le_rfl

/-- A stream whose tool uses are within the limit agrees when what it is accumulated into does. -/
theorem agrees_iff_of_fits
    (hdeliver : Delivers packages streams events)
    (hfits : Fits 0 streams) (usage : Option (UInt32 × UInt32)) :
    Agrees packages usage streams events ↔
      AgreeOn (SameTurn packages) ((accumulated packages streams).result packages)
        (responseToTurnResult packages (streams.map BlockStream.block) usage) := by
  have hfold := foldlM_of_delivers hdeliver
  rw [Streamed.addFrom_of_fits packages hfits] at hfold
  rw [Agrees, streamedTurnResult]
  rcases haccumulate : Streamed.accumulate packages events {} with error | s
  · rw [haccumulate] at hfold
    cases hfold
  · rw [haccumulate] at hfold
    have hs : s.withoutTokens = accumulated packages streams := by
      refine (Except.ok.inj hfold).trans ?_
      simp [accumulated]
    rw [← hs, agreeOn_result_withoutTokens]
    rfl

theorem isEmpty_wholeCalls (packages : Packages Value) (streams : List (BlockStream Value)) :
    (streams.filterMap (BlockStream.wholeCall? packages)).isEmpty = true ↔
      toolUseCount streams = 0 := by
  rw [isEmpty_iff_length_eq_zero, length_wholeCalls]

theorem responseToTurnResult_toolUse (packages : Packages Value)
    (usage : Option (UInt32 × UInt32))
    (h : toolUseCount streams ≠ 0) :
    responseToTurnResult packages (streams.map BlockStream.block) usage =
      .ok (.toolUse {
        content := if (texts streams).isEmpty then none else some (String.join (texts streams))
        toolCalls := streams.filterMap (BlockStream.wholeCall? packages)
        reasoning :=
          if (thinkings streams).isEmpty then none else some ("\n".intercalate (thinkings streams))
        usage := usage.map fun (input, output) => usageOf input output
        reasoningArtifact :=
          anthropicThinkingArtifact packages (streams.filterMap BlockStream.artifact?) }) := by
  have hcalls : (streams.filterMap (BlockStream.wholeCall? packages)).isEmpty = false :=
    Bool.eq_false_iff.2 fun hempty => h ((isEmpty_wholeCalls packages streams).1 hempty)
  simp only [responseToTurnResult, foldl_add, nil_append, hcalls, Bool.not_false, if_true]

theorem responseToTurnResult_no_toolUse (packages : Packages Value)
    (usage : Option (UInt32 × UInt32))
    (h : toolUseCount streams = 0) :
    responseToTurnResult packages (streams.map BlockStream.block) usage =
      if String.join (texts streams) = "" then .error .emptyResponse
      else .ok (.finalText {
        content := String.join (texts streams)
        reasoning :=
          if (thinkings streams).isEmpty then none else some ("\n".intercalate (thinkings streams))
        usage := usage.map fun (input, output) => usageOf input output
        reasoningArtifact :=
          anthropicThinkingArtifact packages (streams.filterMap BlockStream.artifact?) }) := by
  have hcalls : (streams.filterMap (BlockStream.wholeCall? packages)).isEmpty = true :=
    (isEmpty_wholeCalls packages streams).2 h
  simp only [responseToTurnResult, foldl_add, nil_append, hcalls, Bool.not_true,
    Bool.false_eq_true, if_false]

theorem any_isOutput_of_toolUse
    (h : toolUseCount streams ≠ 0) : streams.any BlockStream.isOutput = true := by
  by_contra hnone
  refine h ((toolUseCount_eq_zero_iff streams).2 fun stream hstream => ?_)
  by_contra htool
  refine hnone (any_eq_true.2 ⟨stream, hstream, ?_⟩)
  rw [BlockStream.isOutput, Bool.eq_true_of_not_eq_false htool, Bool.true_or, Bool.true_or]

theorem any_isOutput_of_text
    (h : String.join (texts streams) ≠ "") : streams.any BlockStream.isOutput = true := by
  induction streams with
  | nil => exact absurd rfl h
  | cons stream streams ih =>
    rw [any_cons]
    by_cases htext : stream.addedText = ""
    · rw [join_texts_cons, htext, String.empty_append] at h
      rw [ih h, Bool.or_true]
    · simp [BlockStream.isOutput, htext]

theorem result_accumulated_toolUse (packages : Packages Value) {streams : List (BlockStream Value)}
    (h : toolUseCount streams ≠ 0) :
    (accumulated packages streams).result packages =
      .ok (.toolUse {
        content := nonempty (String.join (texts streams))
        toolCalls := (pendingFrom packages 0 streams []).map StreamToolCall.toChat
        reasoning := nonempty (String.join (thinkings streams))
        usage := none
        reasoningArtifact :=
          anthropicThinkingArtifact packages (streams.filterMap BlockStream.artifact?) }) := by
  have hlength := @le_length_pendingFrom _ packages 0 streams [] le_rfl h
  rcases hpending : pendingFrom packages 0 streams [] with _ | ⟨call, calls⟩
  · rw [hpending, length_nil] at hlength
    omega
  · simp [Streamed.result, accumulated, any_isOutput_of_toolUse h, hpending,
      ThinkingBlockAccumulator.onContentBlockStop, StreamToolCall.toChat]

theorem result_accumulated_no_toolUse (packages : Packages Value)
    (h : toolUseCount streams = 0) :
    (accumulated packages streams).result packages =
      if String.join (texts streams) = "" then .error .emptyResponse
      else .ok (.finalText {
        content := String.join (texts streams)
        reasoning := nonempty (String.join (thinkings streams))
        usage := none
        reasoningArtifact :=
          anthropicThinkingArtifact packages (streams.filterMap BlockStream.artifact?) }) := by
  have hpending := pendingFrom_of_no_toolUse packages h 0 []
  by_cases htext : String.join (texts streams) = ""
  · simp [Streamed.result, accumulated, hpending, htext]
  · simp [Streamed.result, accumulated, any_isOutput_of_text htext, hpending, htext,
      ThinkingBlockAccumulator.onContentBlockStop]

theorem not_agrees_of_not_fits
    (hdeliver : Delivers packages streams events)
    (hfits : ¬ Fits 0 streams) (usage : Option (UInt32 × UInt32)) :
    ¬ Agrees packages usage streams events := by
  have htools : toolUseCount streams ≠ 0 := fun hzero => hfits (fits_of_no_toolUse hzero 0)
  obtain ⟨error, herror⟩ := Streamed.addFrom_of_not_fits packages hfits {}
  have hfold := foldlM_of_delivers hdeliver
  rw [herror] at hfold
  rw [Agrees, streamedTurnResult, responseToTurnResult_toolUse packages usage htools]
  rcases haccumulate : Streamed.accumulate packages events {} with error' | s
  · exact not_false
  · rw [haccumulate] at hfold
    cases hfold

theorem agrees_toolUse_iff
    (hdeliver : Delivers packages streams events)
    (hfits : Fits 0 streams) (htools : toolUseCount streams ≠ 0)
    (usage : Option (UInt32 × UInt32)) :
    Agrees packages usage streams events ↔
      (texts streams = [] ∨ String.join (texts streams) ≠ "") ∧
        List.Forall₂ (SamePending packages) (pendingFrom packages 0 streams [])
          (streams.filterMap (BlockStream.wholeCall? packages)) ∧
        (thinkings streams = [] ∨ ∃ text, text ≠ "" ∧ thinkings streams = [text]) := by
  rw [agrees_iff_of_fits hdeliver hfits, result_accumulated_toolUse packages htools,
    responseToTurnResult_toolUse packages usage htools, ← content_eq_iff, ← reasoning_eq_iff]
  have hmap : List.Forall₂ (SameCall packages)
        ((pendingFrom packages 0 streams []).map StreamToolCall.toChat)
        (streams.filterMap (BlockStream.wholeCall? packages)) ↔
      List.Forall₂ (SamePending packages) (pendingFrom packages 0 streams [])
        (streams.filterMap (BlockStream.wholeCall? packages)) :=
    List.forall₂_map_left_iff
  constructor
  · rintro ⟨hcontent, hcalls, hreasoning, -⟩
    exact ⟨hcontent, hmap.1 hcalls, hreasoning⟩
  · rintro ⟨hcontent, hcalls, hreasoning⟩
    exact ⟨hcontent, hmap.2 hcalls, hreasoning, rfl⟩

/-- **The two paths agree exactly on the streamable answers.** -/
theorem agrees_iff_streamable (packages : Packages Value) (hlaw : packages.toSerdeJson.Lawful)
    (usage : Option (UInt32 × UInt32)) {streams : List (BlockStream Value)}
    (hvalid : ∀ stream ∈ streams, stream.Valid packages) {events : List (StreamEvent Value)}
    (hdeliver : Delivers packages streams events) :
    Agrees packages usage streams events ↔ Streamable streams := by
  by_cases htools : toolUseCount streams = 0
  · rw [agrees_iff_of_fits hdeliver (fits_of_no_toolUse htools 0),
      result_accumulated_no_toolUse packages htools,
      responseToTurnResult_no_toolUse packages usage htools]
    by_cases htext : String.join (texts streams) = ""
    · rw [if_pos htext, if_pos htext]
      exact ⟨fun _ => Or.inl ⟨htools, htext⟩, fun _ => trivial⟩
    · rw [if_neg htext, if_neg htext, Streamable, ← reasoning_eq_iff]
      constructor
      · rintro ⟨-, hreasoning, -⟩
        exact Or.inr ⟨hreasoning, Or.inl htools⟩
      · rintro (⟨-, hempty⟩ | ⟨hreasoning, -⟩)
        · exact absurd hempty htext
        · exact ⟨rfl, hreasoning, rfl⟩
  · have hcalls := forall₂_pendingFrom_iff hlaw hvalid length_nil List.Forall₂.nil
    rw [nil_append] at hcalls
    by_cases hfits : Fits 0 streams
    · rw [agrees_toolUse_iff hdeliver hfits htools, hcalls]
      constructor
      · rintro ⟨hcontent, ⟨hfirst, hunsent⟩, hreasoning⟩
        have hcount := ((fits_iff hfirst 0).1 hfits).resolve_left htools
        rw [Nat.zero_add] at hcount
        exact Or.inr ⟨hreasoning, Or.inr ⟨hfirst, hcount, hunsent, hcontent⟩⟩
      · rintro (⟨hzero, -⟩ | ⟨hreasoning, hzero | ⟨hfirst, -, hunsent, hcontent⟩⟩)
        · exact absurd hzero htools
        · exact absurd hzero htools
        · exact ⟨hcontent, ⟨hfirst, hunsent⟩, hreasoning⟩
    · refine iff_of_false (not_agrees_of_not_fits hdeliver hfits usage) ?_
      rintro (⟨hzero, -⟩ | ⟨-, hzero | ⟨hfirst, hcount, -⟩⟩)
      · exact htools hzero
      · exact htools hzero
      · refine hfits ((fits_iff hfirst 0).2 (Or.inr ?_))
        rwa [Nat.zero_add]

/-- Two JSON values: the empty object, and an object with a path. -/
inductive SampleValue
  | empty
  | path
deriving DecidableEq, Repr

/-- The JSON text of a thinking block whose texts need no escapes. -/
def sampleBlockText : ThinkingArtifactBlock → String
  | .thinking thinking signature =>
    "\x7b\"signature\":\"" ++ signature ++ "\",\"thinking\":\"" ++ thinking ++
      "\",\"type\":\"thinking\"\x7d"
  | .redactedThinking data =>
    "\x7b\"data\":\"" ++ data ++ "\",\"type\":\"redacted_thinking\"\x7d"

/-- The JSON package on the two sample values. -/
def samplePackages : Packages SampleValue where
  fromStr text :=
    if text = "\x7b\x7d" then some .empty
    else if text = "\x7b\"path\":\"a\"\x7d" then some .path
    else none
  toStr
    | .empty => "\x7b\x7d"
    | .path => "\x7b\"path\":\"a\"\x7d"
  null := .empty
  emptyObject := .empty
  blocksToVec blocks :=
    ("[" ++ ",".intercalate (blocks.map sampleBlockText) ++ "]").toUTF8.data.toList

theorem samplePackages_lawful : samplePackages.toSerdeJson.Lawful where
  readable := by
    rintro (_ | _)
    · rfl
    · rfl
  toStr_emptyObject := rfl
  fromStr_empty := by decide
  fromStr_trailing := by
    intro text value htext
    simp only [samplePackages] at htext ⊢
    split_ifs at htext with hempty hpath
    · subst hempty
      decide
    · subst hpath
      decide

/-- A tool use without an input, then a thought, then a text. -/
def toolsFirstStreams : List (BlockStream SampleValue) :=
  [.toolUse "toolu_1" "list" .empty [], .thinking [.inl "Let me ", .inl "see", .inr "c2ln"],
    .text ["Here ", "it is"]]

def toolsFirstEvents : List (StreamEvent SampleValue) :=
  .messageStart (some 12) :: eventsFrom samplePackages 0 toolsFirstStreams ++
    [.messageDelta (some 34), .messageStop]

theorem agrees_toolsFirst :
    Streamable toolsFirstStreams ∧
      Agrees samplePackages (some (12, 34)) toolsFirstStreams toolsFirstEvents := by
  have hstreamable : Streamable toolsFirstStreams := by
    refine Or.inr ⟨Or.inr ⟨"Let me see", by decide, by decide⟩, Or.inr ⟨?_, by decide, ?_, ?_⟩⟩
    · simp [ToolsFirst, toolsFirstStreams, BlockStream.isToolUse]
    · simp [toolsFirstStreams, BlockStream.inputUnsent]
    · exact Or.inr (by decide)
  have hvalid : ∀ stream ∈ toolsFirstStreams, stream.Valid samplePackages := by
    simp [toolsFirstStreams, BlockStream.Valid, samplePackages]
  have hdeliver : Delivers samplePackages toolsFirstStreams toolsFirstEvents :=
    ⟨.messageStart (some 12) :: eventsFrom samplePackages 0 toolsFirstStreams ++
      [.messageDelta (some 34)], [], Or.inr (by simp [toolsFirstEvents]), by
        simp [eventsFrom, toolsFirstStreams, BlockStream.events, BlockStream.deltas], rfl⟩
  exact ⟨hstreamable,
    (agrees_iff_streamable samplePackages samplePackages_lawful _ hvalid hdeliver).2 hstreamable⟩

/-- A text, then a tool use with an input. -/
def textFirstStreams : List (BlockStream SampleValue) :=
  [.text ["I'll look"],
    .toolUse "toolu_1" "read" .path ["\x7b\"path\":", "\"a\"\x7d"]]

/-- An answer whose text comes before its tool use is streamed into two calls: an empty one for the
text, and one whose arguments are the empty object followed by its input. -/
theorem not_agrees_textFirst :
    samplePackages.toSerdeJson.Lawful ∧
      (∀ stream ∈ textFirstStreams, stream.Valid samplePackages) ∧
      Delivers samplePackages textFirstStreams (eventsFrom samplePackages 0 textFirstStreams) ∧
      (streamedTurnResult samplePackages
        (eventsFrom samplePackages 0 textFirstStreams)).map ChatTurnResult.toolCalls =
          .ok [⟨"", "", "", none⟩,
            ⟨"toolu_1", "read", "\x7b\x7d\x7b\"path\":\"a\"\x7d", none⟩] ∧
      (responseToTurnResult samplePackages (textFirstStreams.map BlockStream.block) none).map
        ChatTurnResult.toolCalls =
          .ok [⟨"toolu_1", "read", "\x7b\"path\":\"a\"\x7d", none⟩] ∧
      ¬ Agrees samplePackages none textFirstStreams
        (eventsFrom samplePackages 0 textFirstStreams) := by
  refine ⟨samplePackages_lawful, ?_, ⟨_, [], Or.inl rfl, ?_, rfl⟩, rfl, rfl, ?_⟩
  · simp [textFirstStreams, BlockStream.Valid, samplePackages]
  · simp [eventsFrom, textFirstStreams, BlockStream.events, BlockStream.deltas]
  · rintro ⟨-, hcalls, -⟩
    exact absurd hcalls.length_eq (by decide)

end Anthropic

end Choreo
