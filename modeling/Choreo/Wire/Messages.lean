import Choreo.Library.MessagePack
import Choreo.Proto

/-!
# The messages of the daemon on the wire

The messages a daemon sends, with the widths their numbers have in the source, and the bytes the
frame encoder makes of them: named MessagePack of the pair of the protocol version and the message
(`choreo-proto/src/types.rs`, `encode_inner` of `choreo-proto/src/frame.rs`). The serialization
code is derived, so every structure is a map from its field names and every variant carries its
name; bytes have no type of their own and are written as sequences of numbers. A map from turn ids
is a list of its entries.

## Main definitions

* `Wire.Turn`, `Wire.SessionEvent`, `Wire.DaemonMessage`: the messages.
* `Wire.DaemonMessage.serialize`: the derived serialization.
* `Wire.encodePayload`: the payload of a frame.
-/

namespace Choreo.Wire

open MessagePack (Serializer)

/-! ### Turns -/

/-- What a client is told about a displayed image besides its bytes. -/
structure ImageMetadata where
  mimeType : String
  width : UInt32
  height : UInt32
  byteLen : UInt64
  alt : Option String
deriving DecidableEq

structure DisplayedImageRecord where
  metadata : ImageMetadata
  data : Bytes
  toolCallId : Option String
deriving DecidableEq

/-- A vision image that a tool result carries. -/
structure ImageReference where
  path : String
  mimeType : String
  width : UInt32
  height : UInt32
  data : Bytes
deriving DecidableEq

/-- The recorded result of a tool call. -/
structure ToolResultRecord where
  callId : String
  name : String
  content : String
  isError : Bool
  invocationDescription : String
  image : Option ImageReference
deriving DecidableEq

structure Turn where
  createdAt : Int64
  undone : Bool := false
  error : Option String := none
  userText : Option String := none
  assistantText : Option String := none
  assistantReasoning : Option String := none
  toolCalls : List AssistantToolCallRecord := []
  tokenUsage : Option TokenUsage := none
  toolResults : List ToolResultRecord := []
  displayedImages : List DisplayedImageRecord := []
  reasoningArtifact : Option ReasoningArtifact := none
  reasoningProducer : Option ReasoningProducer := none
deriving DecidableEq

/-! ### Messages -/

/-- What a session is doing. -/
inductive SessionStatus
  | sleeping
  | inactive
  | inference
  | toolCall (name : String)
  | retrying (attempt maxAttempts : UInt32) (delayMs : UInt64)
deriving DecidableEq

/-- A session in a list of sessions. -/
structure SessionSummary where
  sessionId : UInt64
  title : Option String
  selectedModel : Option String
  reasoningEffort : Option String
  parentSessionId : Option UInt64
  workingDir : Option String
  createdAt : Int64
  lastModified : Int64
  turnCount : UInt32
  status : SessionStatus
  activeToolGroups : List String
  accountName : Option String
  tokenUsage : Option TokenUsage
  contextWindow : Option UInt32
  lastPromptTokens : Option UInt32
deriving DecidableEq

/-- An account in a list of accounts. -/
structure AccountInfo where
  name : String
  provider : String
  hasCredential : Bool
deriving DecidableEq

structure CatalogProvider where
  slug : String
  displayName : String
deriving DecidableEq

/-- The outcome of a refresh of the models. -/
inductive RefreshStatus
  | upToDate
  | updated
  | forced
deriving DecidableEq

/-- The turns of a session, by turn id. -/
abbrev Turns := List (UInt32 × Turn)

inductive SessionEvent
  | sessionCreated (title : Option String) (parentSessionId : Option UInt64)
      (workingDir accountName selectedModel reasoningEffort : Option String)
  | sessionAttached
  | sessionState (title selectedModel : Option String) (parentSessionId : Option UInt64)
      (workingDir : Option String) (turns : Turns) (activeToolGroups : List String)
      (tokenUsage : Option TokenUsage) (contextWindow lastPromptTokens : Option UInt32)
      (status : SessionStatus) (reasoningEffort : Option String)
      (reasoningCapability : Option ReasoningCapability)
  | turnAppended (turnId : UInt32) (turn : Turn)
  | sessionStatusChanged (status : SessionStatus) (lastModified : Int64)
  | sessionFailed (operation error : String)
  | started (requestId turnId estimatedPromptTokens : UInt32)
  | toolCallStarted (requestId : UInt32)
      (callId toolName argumentsJson invocationDescription : String)
  | toolCallFinished (requestId : UInt32) (callId toolName : String)
  | toolResultChunk (requestId : UInt32) (callId : String) (data : Bytes)
  | toolCallFailed (requestId : UInt32) (callId toolName error : String)
  | tokenUsageUpdate (tokenUsage : TokenUsage) (lastPromptTokens : Option UInt32)
  | liveOutputTokenCount (requestId outputTokens : UInt32)
  | outputChunk (requestId : UInt32) (stream : OutputStream) (data : Bytes)
  | done (requestId : UInt32) (tokenUsage : Option TokenUsage) (lastPromptTokens : Option UInt32)
  | failed (requestId : UInt32) (error : String)
  | cancelled (requestId : UInt32)
  | modelSelected (model : String) (reasoningCapability : Option ReasoningCapability)
  | modelSelectionFailed (model error : String)
  | sessionDeleted
  | sessionDeleteFailed (error : String)
  | turnsUndone (turnIds : List UInt32)
  | turnsRedone (turns : Turns)
  | sessionAccountSet (account : String)
  | contextWindowResolved (contextWindow : UInt32)
  | sessionWorkingDirSet (path : Option String)
  | sessionTitleSet (title : String)
  | reasoningEffortSet (effort : String)
  | reasoningEffortSetFailed (effort error : String)
deriving DecidableEq

/-- The messages from the daemon to a client. -/
inductive DaemonMessage
  | session (sessionId : Option UInt64) (event : SessionEvent)
  | sessions (sessions : List SessionSummary)
  | pong
  | models (models : List String) (selectedModel : Option String)
  | modelsFailed (error : String)
  | unlocked
  | locked
  | lockedError (error : String)
  | bound
  | keystoreUnbound (error : String)
  | credentialAdded (service : String)
  | credentialAddFailed (service error : String)
  | credentialRemoved (service : String)
  | credentialRemoveFailed (service error : String)
  | aclAddResult (ok : Bool) (message : String)
  | aclUpdated (clients : UInt64)
  | credential (service : String) (key : Option String)
  | accountAdded (name : String)
  | accountAddFailed (name error : String)
  | accountRemoved (name : String)
  | accountRemoveFailed (name error : String)
  | accounts (accounts : List AccountInfo)
  | accountListFailed (error : String)
  | modelsRefreshed (providers models : UInt64) (status : RefreshStatus)
  | modelsRefreshFailed (error : String)
  | catalogUpdated (providers : List CatalogProvider)
  | shuttingDown
  | evicted
deriving DecidableEq

/-! ### Serialization -/

section Serialize

variable (s : Serializer)

/-- A number of 32 bits. -/
def u32 (n : UInt32) : Bytes := s.uint n.toUInt64

/-- A list of texts. -/
def strings (texts : List String) : Bytes := s.seq (texts.map s.str)

/-- A text that may be absent. -/
def optionStr (text : Option String) : Bytes := s.option s.str text

/-- A number of 32 bits that may be absent. -/
def optionU32 (n : Option UInt32) : Bytes := s.option (u32 s) n

/-- A number of 64 bits that may be absent. -/
def optionU64 (n : Option UInt64) : Bytes := s.option s.uint n

def serializeTokenUsage (usage : TokenUsage) : Bytes :=
  s.struct [("input_tokens", u32 s usage.inputTokens), ("output_tokens", u32 s usage.outputTokens),
    ("total_tokens", u32 s usage.totalTokens)]

def serializeCapability (capability : ReasoningCapability) : Bytes :=
  s.struct [("available_effort_levels", strings s capability.availableEffortLevels)]

def serializeToolCall (call : AssistantToolCallRecord) : Bytes :=
  s.struct [("call_id", s.str call.callId), ("name", s.str call.name),
    ("arguments_json", s.str call.argumentsJson)]

def ImageReference.serialize (image : ImageReference) : Bytes :=
  s.struct [("path", s.str image.path), ("mime_type", s.str image.mimeType),
    ("width", u32 s image.width), ("height", u32 s image.height), ("data", s.byteSeq image.data)]

def ToolResultRecord.serialize (result : ToolResultRecord) : Bytes :=
  s.struct [("call_id", s.str result.callId), ("name", s.str result.name),
    ("content", s.str result.content), ("is_error", s.bool result.isError),
    ("invocation_description", s.str result.invocationDescription),
    ("image", s.option (ImageReference.serialize s) result.image)]

def ImageMetadata.serialize (metadata : ImageMetadata) : Bytes :=
  s.struct [("mime_type", s.str metadata.mimeType), ("width", u32 s metadata.width),
    ("height", u32 s metadata.height), ("byte_len", s.uint metadata.byteLen),
    ("alt", optionStr s metadata.alt)]

def DisplayedImageRecord.serialize (image : DisplayedImageRecord) : Bytes :=
  s.struct [("metadata", image.metadata.serialize s), ("data", s.byteSeq image.data),
    ("tool_call_id", optionStr s image.toolCallId)]

def chatReasoningFieldName : ChatReasoningField → String
  | .reasoningContent => "reasoning_content"
  | .reasoning => "reasoning"
  | .reasoningText => "reasoning_text"

def serializeArtifact : ReasoningArtifact → Bytes
  | .chatReasoning field bytes =>
    s.structVariant "chat_reasoning"
      [("field", s.unitVariant (chatReasoningFieldName field)), ("bytes", s.byteSeq bytes)]
  | .anthropicThinking bytes => s.newtypeVariant "anthropic_thinking" (s.byteSeq bytes)
  | .googleSignatures bytes => s.newtypeVariant "google_signatures" (s.byteSeq bytes)
  | .responsesItems bytes => s.newtypeVariant "responses_items" (s.byteSeq bytes)

def serializeProducer (producer : ReasoningProducer) : Bytes :=
  s.struct [("provider_slug", s.str producer.providerSlug), ("model", s.str producer.model)]

def Turn.serialize (turn : Turn) : Bytes :=
  s.struct [("created_at", s.int turn.createdAt), ("undone", s.bool turn.undone),
    ("error", optionStr s turn.error), ("user_text", optionStr s turn.userText),
    ("assistant_text", optionStr s turn.assistantText),
    ("assistant_reasoning", optionStr s turn.assistantReasoning),
    ("tool_calls", s.seq (turn.toolCalls.map (serializeToolCall s))),
    ("token_usage", s.option (serializeTokenUsage s) turn.tokenUsage),
    ("tool_results", s.seq (turn.toolResults.map (ToolResultRecord.serialize s))),
    ("displayed_images", s.seq (turn.displayedImages.map (DisplayedImageRecord.serialize s))),
    ("reasoning_artifact", s.option (serializeArtifact s) turn.reasoningArtifact),
    ("reasoning_producer", s.option (serializeProducer s) turn.reasoningProducer)]

/-- Turns by turn id. -/
def serializeTurns (turns : Turns) : Bytes :=
  s.map (turns.map fun entry => (u32 s entry.1, entry.2.serialize s))

def SessionStatus.serialize : SessionStatus → Bytes
  | .sleeping => s.unitVariant "Sleeping"
  | .inactive => s.unitVariant "Inactive"
  | .inference => s.unitVariant "Inference"
  | .toolCall name => s.newtypeVariant "ToolCall" (s.str name)
  | .retrying attempt maxAttempts delayMs =>
    s.structVariant "Retrying" [("attempt", u32 s attempt), ("max_attempts", u32 s maxAttempts),
      ("delay_ms", s.uint delayMs)]

def SessionSummary.serialize (summary : SessionSummary) : Bytes :=
  s.struct [("session_id", s.uint summary.sessionId), ("title", optionStr s summary.title),
    ("selected_model", optionStr s summary.selectedModel),
    ("reasoning_effort", optionStr s summary.reasoningEffort),
    ("parent_session_id", optionU64 s summary.parentSessionId),
    ("working_dir", optionStr s summary.workingDir), ("created_at", s.int summary.createdAt),
    ("last_modified", s.int summary.lastModified), ("turn_count", u32 s summary.turnCount),
    ("status", summary.status.serialize s),
    ("active_tool_groups", strings s summary.activeToolGroups),
    ("account_name", optionStr s summary.accountName),
    ("token_usage", s.option (serializeTokenUsage s) summary.tokenUsage),
    ("context_window", optionU32 s summary.contextWindow),
    ("last_prompt_tokens", optionU32 s summary.lastPromptTokens)]

def AccountInfo.serialize (account : AccountInfo) : Bytes :=
  s.struct [("name", s.str account.name), ("provider", s.str account.provider),
    ("has_credential", s.bool account.hasCredential)]

def CatalogProvider.serialize (provider : CatalogProvider) : Bytes :=
  s.struct [("slug", s.str provider.slug), ("display_name", s.str provider.displayName)]

def RefreshStatus.serialize : RefreshStatus → Bytes
  | .upToDate => s.unitVariant "up_to_date"
  | .updated => s.unitVariant "updated"
  | .forced => s.unitVariant "forced"

def serializeStream : OutputStream → Bytes
  | .answer => s.unitVariant "Answer"
  | .reasoning => s.unitVariant "Reasoning"

def SessionEvent.serialize : SessionEvent → Bytes
  | .sessionCreated title parentSessionId workingDir accountName selectedModel reasoningEffort =>
    s.structVariant "SessionCreated" [("title", optionStr s title),
      ("parent_session_id", optionU64 s parentSessionId), ("working_dir", optionStr s workingDir),
      ("account_name", optionStr s accountName), ("selected_model", optionStr s selectedModel),
      ("reasoning_effort", optionStr s reasoningEffort)]
  | .sessionAttached => s.unitVariant "SessionAttached"
  | .sessionState title selectedModel parentSessionId workingDir turns activeToolGroups tokenUsage
      contextWindow lastPromptTokens status reasoningEffort reasoningCapability =>
    s.structVariant "SessionState" [("title", optionStr s title),
      ("selected_model", optionStr s selectedModel),
      ("parent_session_id", optionU64 s parentSessionId), ("working_dir", optionStr s workingDir),
      ("turns", serializeTurns s turns), ("active_tool_groups", strings s activeToolGroups),
      ("token_usage", s.option (serializeTokenUsage s) tokenUsage),
      ("context_window", optionU32 s contextWindow),
      ("last_prompt_tokens", optionU32 s lastPromptTokens), ("status", status.serialize s),
      ("reasoning_effort", optionStr s reasoningEffort),
      ("reasoning_capability", s.option (serializeCapability s) reasoningCapability)]
  | .turnAppended turnId turn =>
    s.structVariant "TurnAppended" [("turn_id", u32 s turnId), ("turn", turn.serialize s)]
  | .sessionStatusChanged status lastModified =>
    s.structVariant "SessionStatusChanged"
      [("status", status.serialize s), ("last_modified", s.int lastModified)]
  | .sessionFailed operation error =>
    s.structVariant "SessionFailed" [("operation", s.str operation), ("error", s.str error)]
  | .started requestId turnId estimatedPromptTokens =>
    s.structVariant "Started" [("request_id", u32 s requestId), ("turn_id", u32 s turnId),
      ("estimated_prompt_tokens", u32 s estimatedPromptTokens)]
  | .toolCallStarted requestId callId toolName argumentsJson invocationDescription =>
    s.structVariant "ToolCallStarted" [("request_id", u32 s requestId), ("call_id", s.str callId),
      ("tool_name", s.str toolName), ("arguments_json", s.str argumentsJson),
      ("invocation_description", s.str invocationDescription)]
  | .toolCallFinished requestId callId toolName =>
    s.structVariant "ToolCallFinished" [("request_id", u32 s requestId), ("call_id", s.str callId),
      ("tool_name", s.str toolName)]
  | .toolResultChunk requestId callId data =>
    s.structVariant "ToolResultChunk" [("request_id", u32 s requestId), ("call_id", s.str callId),
      ("data", s.byteSeq data)]
  | .toolCallFailed requestId callId toolName error =>
    s.structVariant "ToolCallFailed" [("request_id", u32 s requestId), ("call_id", s.str callId),
      ("tool_name", s.str toolName), ("error", s.str error)]
  | .tokenUsageUpdate tokenUsage lastPromptTokens =>
    s.structVariant "TokenUsageUpdate" [("token_usage", serializeTokenUsage s tokenUsage),
      ("last_prompt_tokens", optionU32 s lastPromptTokens)]
  | .liveOutputTokenCount requestId outputTokens =>
    s.structVariant "LiveOutputTokenCount"
      [("request_id", u32 s requestId), ("output_tokens", u32 s outputTokens)]
  | .outputChunk requestId stream data =>
    s.structVariant "OutputChunk" [("request_id", u32 s requestId),
      ("stream", serializeStream s stream), ("data", s.byteSeq data)]
  | .done requestId tokenUsage lastPromptTokens =>
    s.structVariant "Done" [("request_id", u32 s requestId),
      ("token_usage", s.option (serializeTokenUsage s) tokenUsage),
      ("last_prompt_tokens", optionU32 s lastPromptTokens)]
  | .failed requestId error =>
    s.structVariant "Failed" [("request_id", u32 s requestId), ("error", s.str error)]
  | .cancelled requestId => s.structVariant "Cancelled" [("request_id", u32 s requestId)]
  | .modelSelected model reasoningCapability =>
    s.structVariant "ModelSelected" [("model", s.str model),
      ("reasoning_capability", s.option (serializeCapability s) reasoningCapability)]
  | .modelSelectionFailed model error =>
    s.structVariant "ModelSelectionFailed" [("model", s.str model), ("error", s.str error)]
  | .sessionDeleted => s.unitVariant "SessionDeleted"
  | .sessionDeleteFailed error =>
    s.structVariant "SessionDeleteFailed" [("error", s.str error)]
  | .turnsUndone turnIds =>
    s.structVariant "TurnsUndone" [("turn_ids", s.seq (turnIds.map (u32 s)))]
  | .turnsRedone turns => s.structVariant "TurnsRedone" [("turns", serializeTurns s turns)]
  | .sessionAccountSet account =>
    s.structVariant "SessionAccountSet" [("account", s.str account)]
  | .contextWindowResolved contextWindow =>
    s.structVariant "ContextWindowResolved" [("context_window", u32 s contextWindow)]
  | .sessionWorkingDirSet path =>
    s.structVariant "SessionWorkingDirSet" [("path", optionStr s path)]
  | .sessionTitleSet title => s.structVariant "SessionTitleSet" [("title", s.str title)]
  | .reasoningEffortSet effort => s.structVariant "ReasoningEffortSet" [("effort", s.str effort)]
  | .reasoningEffortSetFailed effort error =>
    s.structVariant "ReasoningEffortSetFailed" [("effort", s.str effort), ("error", s.str error)]

def DaemonMessage.serialize : DaemonMessage → Bytes
  | .session sessionId event =>
    s.structVariant "Session"
      [("session_id", optionU64 s sessionId), ("event", event.serialize s)]
  | .sessions summaries =>
    s.structVariant "Sessions" [("sessions", s.seq (summaries.map (SessionSummary.serialize s)))]
  | .pong => s.unitVariant "Pong"
  | .models names selectedModel =>
    s.structVariant "Models"
      [("models", strings s names), ("selected_model", optionStr s selectedModel)]
  | .modelsFailed error => s.structVariant "ModelsFailed" [("error", s.str error)]
  | .unlocked => s.unitVariant "Unlocked"
  | .locked => s.unitVariant "Locked"
  | .lockedError error => s.structVariant "LockedError" [("error", s.str error)]
  | .bound => s.unitVariant "Bound"
  | .keystoreUnbound error => s.structVariant "KeystoreUnbound" [("error", s.str error)]
  | .credentialAdded service => s.structVariant "CredentialAdded" [("service", s.str service)]
  | .credentialAddFailed service error =>
    s.structVariant "CredentialAddFailed" [("service", s.str service), ("error", s.str error)]
  | .credentialRemoved service => s.structVariant "CredentialRemoved" [("service", s.str service)]
  | .credentialRemoveFailed service error =>
    s.structVariant "CredentialRemoveFailed" [("service", s.str service), ("error", s.str error)]
  | .aclAddResult ok message =>
    s.structVariant "AclAddResult" [("ok", s.bool ok), ("message", s.str message)]
  | .aclUpdated clients => s.structVariant "AclUpdated" [("clients", s.uint clients)]
  | .credential service key =>
    s.structVariant "Credential" [("service", s.str service), ("key", optionStr s key)]
  | .accountAdded name => s.structVariant "AccountAdded" [("name", s.str name)]
  | .accountAddFailed name error =>
    s.structVariant "AccountAddFailed" [("name", s.str name), ("error", s.str error)]
  | .accountRemoved name => s.structVariant "AccountRemoved" [("name", s.str name)]
  | .accountRemoveFailed name error =>
    s.structVariant "AccountRemoveFailed" [("name", s.str name), ("error", s.str error)]
  | .accounts infos =>
    s.structVariant "Accounts" [("accounts", s.seq (infos.map (AccountInfo.serialize s)))]
  | .accountListFailed error => s.structVariant "AccountListFailed" [("error", s.str error)]
  | .modelsRefreshed providers count status =>
    s.structVariant "ModelsRefreshed" [("providers", s.uint providers), ("models", s.uint count),
      ("status", status.serialize s)]
  | .modelsRefreshFailed error => s.structVariant "ModelsRefreshFailed" [("error", s.str error)]
  | .catalogUpdated providers =>
    s.structVariant "CatalogUpdated"
      [("providers", s.seq (providers.map (CatalogProvider.serialize s)))]
  | .shuttingDown => s.unitVariant "ShuttingDown"
  | .evicted => s.unitVariant "Evicted"

def protocolVersion : UInt8 := 4

def encodePayload (message : DaemonMessage) : Bytes :=
  s.seq [s.uint protocolVersion.toUInt64, message.serialize s]

end Serialize

end Choreo.Wire
