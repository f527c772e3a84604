import Mathlib.Data.List.Sort

/-!
# Wire types

The data that sessions, their workers and the store exchange: token counts, turns with their tool
calls, tool results and images, session records, and the events a session broadcasts
(`choreo-proto/src/types.rs`, `SessionRecord` of `choreo-daemon/src/db/mod.rs` and
`SessionMetadata` of `choreo-daemon/src/sessions.rs`). Turn ids, request ids and client ids are
natural numbers, times are integers; token counts are machine words, because they are added up
without a check.

## Main definitions

* `TokenUsage`: token counts, with the two ways of combining them.
* `Turn`: one turn of a session.
* `SessionRecord`, `SessionMetadata`: a session as it is stored and as it is indexed.
* `SessionEvent`: the events of a session.
-/

namespace Choreo

/-- Raw bytes. -/
abbrev Bytes := List UInt8

/-! ### Token counts -/

/-- Token usage of one model call, or accumulated over a session. -/
structure TokenUsage where
  inputTokens : UInt32 := 0
  outputTokens : UInt32 := 0
  totalTokens : UInt32 := 0
deriving DecidableEq, Repr, Inhabited

namespace TokenUsage

/-- The three counters added up as the agent loop and the restore path add them: release builds
wrap around. -/
def add (u v : TokenUsage) : TokenUsage where
  inputTokens := u.inputTokens + v.inputTokens
  outputTokens := u.outputTokens + v.outputTokens
  totalTokens := u.totalTokens + v.totalTokens

/-- Keeps the larger value of each counter. -/
def mergeMax (u v : TokenUsage) : TokenUsage where
  inputTokens := max u.inputTokens v.inputTokens
  outputTokens := max u.outputTokens v.outputTokens
  totalTokens := max u.totalTokens v.totalTokens

end TokenUsage

/-! ### Paths and context settings -/

/-- A file system path: text, or bytes that are no valid text together with their lossy rendering. -/
inductive PathBuf
  | utf8 (text : String)
  | other (bytes : Bytes) (shown : String)
deriving DecidableEq, Repr

/-- The lossy rendering of a path as text. -/
def PathBuf.display : PathBuf → String
  | .utf8 text => text
  | .other _ shown => shown

/-- Controls which files of the working directory enter the system prompt. -/
structure ContextConfig where
  contextFileNames : List String := ["AGENTS.md", "CLAUDE.md"]
  contextFileMaxBytes : ℕ := 32 * 1024
  disableClaudeCodePrompt : Bool := false
deriving DecidableEq, Repr

/-! ### Turns -/

/-- What a client is told about a displayed image besides its bytes. -/
structure ImageMetadata where
  mimeType : String
  width : ℕ
  height : ℕ
  byteLen : ℕ
  alt : Option String
deriving DecidableEq, Repr

/-- An image that a tool displayed during a turn. -/
structure DisplayedImageRecord where
  metadata : ImageMetadata
  data : Bytes
  toolCallId : Option String
deriving DecidableEq, Repr

/-- A tool call as the model issued it. -/
structure AssistantToolCallRecord where
  callId : String
  name : String
  argumentsJson : String
deriving DecidableEq, Repr

/-- A vision image that a tool result carries back to the model. -/
structure ImageReference where
  path : String
  mimeType : String
  width : ℕ
  height : ℕ
  data : Bytes
deriving DecidableEq, Repr

/-- The recorded result of a tool call. -/
structure ToolResultRecord where
  callId : String
  name : String
  content : String
  isError : Bool
  invocationDescription : String
  image : Option ImageReference
deriving DecidableEq, Repr

/-- The chat field that carried a reasoning text. -/
inductive ChatReasoningField
  | reasoningContent
  | reasoning
  | reasoningText
deriving DecidableEq, Repr

/-- The opaque reasoning payload a provider adapter wants back on the next request. -/
inductive ReasoningArtifact
  | chatReasoning (field : ChatReasoningField) (bytes : Bytes)
  | anthropicThinking (bytes : Bytes)
  | googleSignatures (bytes : Bytes)
  | responsesItems (bytes : Bytes)
deriving DecidableEq, Repr

/-- The provider and model that produced a response. -/
structure ReasoningProducer where
  providerSlug : String
  model : String
deriving DecidableEq, Repr

/-- One turn of a session: an optional user input and the assistant's reply to it. -/
structure Turn where
  createdAt : ℤ
  undone : Bool := false
  error : Option String := none
  userText : Option String := none
  assistantText : Option String := none
  assistantReasoning : Option String := none
  toolCalls : List AssistantToolCallRecord := []
  tokenUsage : Option TokenUsage := none
  toolResults : List ToolResultRecord := []
  displayedImages : List DisplayedImageRecord := []
  reasoningArtifact : Option ReasoningArtifact := none
  reasoningProducer : Option ReasoningProducer := none
deriving DecidableEq, Repr

/-- The turns of a session, by turn id. -/
abbrev TurnMap := Std.ExtTreeMap ℕ Turn

/-- Sets the `undone` flag of a turn. -/
def Turn.setUndone (flag : Bool) (turn : Turn) : Turn := { turn with undone := flag }

@[simp]
theorem Turn.setUndone_undone (flag : Bool) (turn : Turn) : (turn.setUndone flag).undone = flag :=
  rfl

theorem Turn.setUndone_setUndone (flag : Bool) (turn : Turn) :
    (turn.setUndone flag).setUndone flag = turn.setUndone flag := rfl

/-- The copy of a turn that clients see: without the reasoning payload, its producer and the vision
image of every tool result. -/
def turnForClient (turn : Turn) : Turn :=
  { turn with
    reasoningArtifact := none
    reasoningProducer := none
    toolResults := turn.toolResults.map fun record => { record with image := none } }

/-! ### Session records -/

/-- What a session is doing. -/
inductive SessionStatus
  | sleeping
  | inactive
  | inference
  | toolCall (name : String)
  | retrying (attempt maxAttempts delayMs : ℕ)
deriving DecidableEq, Repr

/-- The reasoning effort levels of a model; no level means that the model does not reason. -/
structure ReasoningCapability where
  availableEffortLevels : List String
deriving DecidableEq, Repr

/-- A session as the store keeps it. -/
structure SessionRecord where
  title : Option String
  selectedModel : Option String
  parentSessionId : Option ℕ
  workingDir : Option String
  turnCount : ℕ
  createdAt : ℤ
  lastModified : ℤ
  activeToolGroups : List String
  contextConfig : ContextConfig
  accountName : Option String
  reasoningEffort : Option String
  lastResponseId : Option String
  lastResponseIdProducer : Option ReasoningProducer
deriving DecidableEq, Repr

/-- A session as the daemon's index keeps it. -/
structure SessionMetadata where
  title : Option String
  selectedModel : Option String
  reasoningEffort : Option String
  parentSessionId : Option ℕ
  workingDir : Option String
  createdAt : ℤ
  lastModified : ℤ
  turnCount : ℕ
  status : SessionStatus
  activeToolGroups : List String
  accountName : Option String
  accumulatedUsage : TokenUsage
  contextWindow : Option UInt32
  lastPromptTokens : Option UInt32
deriving DecidableEq, Repr

/-- Metadata as a record; the fields that only exist at run time are dropped, and the response id
and the context settings are left to the caller. -/
def SessionMetadata.toRecord (metadata : SessionMetadata) : SessionRecord where
  title := metadata.title
  selectedModel := metadata.selectedModel
  reasoningEffort := metadata.reasoningEffort
  parentSessionId := metadata.parentSessionId
  workingDir := metadata.workingDir
  turnCount := metadata.turnCount
  createdAt := metadata.createdAt
  lastModified := metadata.lastModified
  activeToolGroups := metadata.activeToolGroups
  contextConfig := {}
  accountName := metadata.accountName
  lastResponseId := none
  lastResponseIdProducer := none

/-! ### Events -/

/-- The stream an output chunk belongs to. -/
inductive OutputStream
  | answer
  | reasoning
deriving DecidableEq, Repr

/-- The events a session thread sends to its subscribers. -/
inductive SessionEvent
  | sessionState (title selectedModel : Option String) (parentSessionId : Option ℕ)
      (workingDir : Option String) (turns : TurnMap) (activeToolGroups : List String)
      (tokenUsage : Option TokenUsage) (contextWindow lastPromptTokens : Option UInt32)
      (status : SessionStatus) (reasoningEffort : Option String)
      (reasoningCapability : Option ReasoningCapability)
  | turnAppended (turnId : ℕ) (turn : Turn)
  | sessionStatusChanged (status : SessionStatus) (lastModified : ℤ)
  | started (requestId turnId estimatedPromptTokens : ℕ)
  | toolCallStarted (requestId : ℕ) (callId toolName argumentsJson invocationDescription : String)
  | toolCallFinished (requestId : ℕ) (callId toolName : String)
  | toolCallFailed (requestId : ℕ) (callId toolName error : String)
  | toolResultChunk (requestId : ℕ) (callId : String) (data : Bytes)
  | tokenUsageUpdate (tokenUsage : TokenUsage) (lastPromptTokens : Option UInt32)
  | liveOutputTokenCount (requestId : ℕ) (outputTokens : UInt32)
  | outputChunk (requestId : ℕ) (stream : OutputStream) (data : Bytes)
  | done (requestId : ℕ) (tokenUsage : Option TokenUsage) (lastPromptTokens : Option UInt32)
  | failed (requestId : ℕ) (error : String)
  | cancelled (requestId : ℕ)
  | modelSelected (model : String) (reasoningCapability : Option ReasoningCapability)
  | modelSelectionFailed (model error : String)
  | turnsUndone (turnIds : List ℕ)
  | turnsRedone (turns : TurnMap)
  | sessionAccountSet (account : String)
  | contextWindowResolved (contextWindow : UInt32)
  | sessionWorkingDirSet (path : Option String)
  | sessionTitleSet (title : String)
  | reasoningEffortSet (effort : String)
  | reasoningEffortSetFailed (effort error : String)
deriving DecidableEq

/-- Terminal events of a request: the request is over for whoever receives one. -/
def SessionEvent.terminalOf : SessionEvent → Option ℕ
  | .done requestId _ _ => some requestId
  | .failed requestId _ => some requestId
  | .cancelled requestId => some requestId
  | _ => none

/-- Events that tell clients which turns are undone. -/
def SessionEvent.isTurnFlag : SessionEvent → Bool
  | .turnsUndone .. => true
  | .turnsRedone .. => true
  | _ => false

/-- Events that neither end a request nor say which turns are undone. -/
def SessionEvent.isQuiet (event : SessionEvent) : Bool :=
  event.terminalOf.isNone && !event.isTurnFlag

/-- Chunks of streamed output, the events that the forwarding threads of tools and the streaming
callback of a model call send while a request runs. -/
def SessionEvent.isStreamChunk : SessionEvent → Bool
  | .toolResultChunk .. => true
  | .liveOutputTokenCount .. => true
  | .outputChunk .. => true
  | _ => false

end Choreo
