import Choreo.Agent.Worker

/-!
# Chat turns between the daemon and the provider adapters

The types that the daemon and the adapters of the providers exchange
(`choreo-ai-protocols/src/types.rs`, `ChatRequestMessage` of `openai/mod.rs`), and how the daemon
turns the turns of a session into the messages of a request (`build_chat_request_messages` of
`choreo-daemon/src/reasoning.rs`).

The JSON package itself is a parameter: `SerdeJson` has its operations, and
`SerdeJson.Lawful` says what its documentation promises of them.

## Main definitions

* `SerdeJson`: the package that reads and writes JSON.
* `Json`: JSON values, for the adapters that look into them.
* `ChatTurnResult`: what an adapter returns.
* `AgreeOn`: two ways to obtain a result agree.
* `validateToolCallArguments`: the calls whose arguments are JSON, and the others.
* `ChatRequestMessage`, `buildChatRequestMessages`: the messages of a request.
-/

namespace Choreo

/-! ### JSON -/

/-- The JSON package, as far as texts are concerned: reading a text, writing a value, the value that
stands for a missing one, and the object without fields. -/
structure SerdeJson (Value : Type) where
  fromStr : String → Option Value
  toStr : Value → String
  null : Value
  emptyObject : Value

/-- What the JSON package promises: what it writes can be read, the empty object is written without
blanks, the empty text is no value, and nothing may follow a value. -/
structure SerdeJson.Lawful {Value : Type} (serde : SerdeJson Value) : Prop where
  readable : ∀ value, (serde.fromStr (serde.toStr value)).isSome = true
  toStr_emptyObject : serde.toStr serde.emptyObject = "\x7b\x7d"
  fromStr_empty : serde.fromStr "" = none
  fromStr_trailing : ∀ text value, serde.fromStr text = some value →
    serde.fromStr ("\x7b\x7d" ++ text) = none

/-- A JSON value. A number is kept as its text. -/
inductive Json
  | null
  | bool (value : Bool)
  | number (text : String)
  | string (value : String)
  | array (items : List Json)
  | object (fields : List (String × Json))

namespace Json

/-- The value of a field of an object. -/
def get (key : String) : Json → Option Json
  | object fields => fields.lookup key
  | _ => none

def asStr : Json → Option String
  | string value => some value
  | _ => none

def asArray : Json → Option (List Json)
  | array items => some items
  | _ => none

/-- The text of a field that is a string. -/
def getStr (key : String) (value : Json) : Option String := (value.get key).bind asStr

end Json

/-! ### Results of a model call -/

/-- What an adapter makes of the answer of a provider. -/
inductive ChatTurnResult
  | finalText (result : FinalTextResult)
  | toolUse (result : ChatAssistantToolUse)
deriving DecidableEq, Repr

namespace ChatTurnResult

def toolCalls : ChatTurnResult → List ChatToolCall
  | finalText _ => []
  | toolUse result => result.toolCalls

def reasoningArtifact : ChatTurnResult → Option ReasoningArtifact
  | finalText result => result.reasoningArtifact
  | toolUse result => result.reasoningArtifact

end ChatTurnResult

/-- Whether two ways to obtain a result agree: both fail, or both give results that are the same in
the given sense. -/
def AgreeOn {ε : Type} (same : ChatTurnResult → ChatTurnResult → Prop)
    (x y : Except ε ChatTurnResult) : Prop :=
  match x, y with
  | .ok a, .ok b => same a b
  | .error _, .error _ => True
  | _, _ => False

/-- The most tool calls that a streamed answer may have. -/
def maxToolCalls : ℕ := 128

/-- An accumulated text, as a result has it: none if it is empty. -/
def nonempty (text : String) : Option String := if text = "" then none else some text

/-- The calls whose arguments are JSON, and the calls that are discarded because theirs are not. -/
def validateToolCallArguments {Value : Type} (serde : SerdeJson Value)
    (calls : List ChatToolCall) : List ChatToolCall × List ChatToolCall :=
  calls.partition fun call => (serde.fromStr call.argumentsJson).isSome

/-! ### Messages of a request -/

inductive ChatRole
  | system
  | user
  | assistant
  | tool
  | other (name : String)
deriving DecidableEq, Repr

/-- An image of a user message. -/
structure ChatImagePart where
  data : Bytes
  mimeType : String
deriving DecidableEq, Repr

/-- A tool call of an assistant message. -/
structure AssistantToolCall where
  id : String
  kind : String := "function"
  name : String
  arguments : String
deriving DecidableEq, Repr

structure ChatRequestMessage where
  role : ChatRole
  content : Option String := none
  images : List ChatImagePart := []
  toolCallId : Option String := none
  toolCalls : Option (List AssistantToolCall) := none
  reasoningContent : Option String := none
  reasoning : Option String := none
  reasoningText : Option String := none
  reasoningArtifact : Option ReasoningArtifact := none
deriving DecidableEq, Repr

namespace ChatRequestMessage

/-- A message with a text and images. -/
def withImages (role : ChatRole) (content : String) (images : List ChatImagePart) :
    ChatRequestMessage where
  role := role
  content := some content
  images := images

/-- A message with only a text. -/
def simple (role : ChatRole) (content : String) : ChatRequestMessage := withImages role content []

end ChatRequestMessage

/-- What the catalog says about the model of a request. -/
structure RequestModel where
  providerSlug : String
  model : String
  passback : ReasoningPassback
  requiresReasoningContent : Bool
  vision : Bool

/-- Whether a turn takes part in the tool loop. -/
def Turn.hasToolInvolvement (turn : Turn) : Bool :=
  !turn.toolCalls.isEmpty || !turn.toolResults.isEmpty

def Turn.isWireEmpty (turn : Turn) : Bool :=
  turn.toolCalls.isEmpty && (turn.assistantText.all (· == ""))

variable (request : RequestModel)

/-- Whether the reasoning artifact of a turn is replayed: the same model made it, and the policy of
the model asks for it, or else the message would be empty. -/
def includeReasoningArtifact (turn : Turn) : Bool :=
  if turn.reasoningProducer ≠ some ⟨request.providerSlug, request.model⟩ ∨
      turn.reasoningArtifact = none then false
  else
    let policyEcho :=
      match request.passback with
      | .none | .responseId => false
      | .toolLoop => turn.hasToolInvolvement
      | .allTurns | .signature => true
    let canEcho :=
      match request.passback with
      | .none | .responseId => false
      | _ => true
    policyEcho || (canEcho && turn.isWireEmpty)

/-- The images of tool results as user messages, or a text in the place of each image that cannot be
shown. -/
def toolResultImageMessages (vision : Bool) (turn : Turn) : List ChatRequestMessage :=
  turn.toolResults.filterMap fun result =>
    result.image.map fun image =>
      let lead := s!"[image from `{result.name}` tool result: {image.path}]"
      if !vision then
        .withImages .user (lead ++ " — the active model does not support image input, so the image " ++
          "could not be attached; its metadata is in the tool result above.") []
      else if image.data.isEmpty then
        .withImages .user (lead ++ " — the image bytes are unavailable (e.g. an old persisted " ++
          "turn); only its text metadata is available.") []
      else .withImages .user lead [{ data := image.data, mimeType := image.mimeType }]

def assistantMessage (turn : Turn) : Option ChatRequestMessage :=
  let replayed := includeReasoningArtifact request turn
  if turn.assistantText.isSome || !turn.toolCalls.isEmpty then
    some {
      role := .assistant
      content := turn.assistantText
      toolCalls :=
        if turn.toolCalls.isEmpty then none
        else some (turn.toolCalls.map fun call =>
          { id := call.callId, name := call.name, arguments := call.argumentsJson })
      reasoningContent := if request.requiresReasoningContent && !replayed then some "" else none
      reasoningArtifact := if replayed then turn.reasoningArtifact else none }
  else none

def toolMessage (result : ToolResultRecord) : ChatRequestMessage where
  role := .tool
  content := some result.content
  toolCallId := some result.callId

/-- The messages of a turn: the user's text, the assistant message, the tool results, and the images
of these. A turn that was undone has none. -/
def turnMessages (turn : Turn) : List ChatRequestMessage :=
  if turn.undone then []
  else
    (turn.userText.map (.simple .user)).toList ++ (assistantMessage request turn).toList ++
      turn.toolResults.map toolMessage ++ toolResultImageMessages request.vision turn

/-- The messages of a request: the system prompt, if there is one, and the turns in their order. -/
def buildChatRequestMessages (systemPrompt : Option String)
    (turns : List Turn) : List ChatRequestMessage :=
  (systemPrompt.map (.simple .system)).toList ++ turns.flatMap (turnMessages request)

end Choreo
