import Choreo.Wire.Messages

/-!
# The estimated size of a message

The daemon accounts the messages a slow client has not read by an estimate of their size
(`choreo-proto/src/size.rs`). The estimate adds the payloads it knows to fixed allowances for
fields and records. This file compares it with the length of the payload the frame encoder makes.
-/

namespace Choreo.Wire

open MessagePack List

/-! ### Estimates -/

/-- The allowance for a variant or a structure with `n` fields. -/
def namedFieldOverhead (fields : ℕ) : ℕ := 40 + fields * 24

variable (text : Option String)

/-- The bytes of a text that may be absent. -/
def optionStrLen : ℕ := text.elim 0 String.utf8ByteSize

/-- The bytes of texts. -/
def stringsLen (texts : List String) : ℕ := (texts.map String.utf8ByteSize).sum

def artifactPayload : ReasoningArtifact → ℕ
  | .chatReasoning _ bytes => bytes.length
  | .anthropicThinking bytes => bytes.length
  | .googleSignatures bytes => bytes.length
  | .responsesItems bytes => bytes.length

def toolCallSize (call : AssistantToolCallRecord) : ℕ :=
  64 + call.callId.utf8ByteSize + call.name.utf8ByteSize + call.argumentsJson.utf8ByteSize

def toolResultSize (result : ToolResultRecord) : ℕ :=
  96 + result.callId.utf8ByteSize + result.name.utf8ByteSize + result.content.utf8ByteSize +
    result.invocationDescription.utf8ByteSize

def displayedImageSize (image : DisplayedImageRecord) : ℕ :=
  160 + image.data.length + image.metadata.mimeType.utf8ByteSize + optionStrLen image.metadata.alt

def artifactSize (artifact : ReasoningArtifact) : ℕ := 96 + artifactPayload artifact

/-- The estimate for the producer of a response. -/
def producerSize (producer : ReasoningProducer) : ℕ :=
  64 + producer.providerSlug.utf8ByteSize + producer.model.utf8ByteSize

def Turn.approxSize (turn : Turn) : ℕ :=
  namedFieldOverhead 13 + optionStrLen turn.error + optionStrLen turn.userText +
    optionStrLen turn.assistantText + optionStrLen turn.assistantReasoning +
    (turn.toolCalls.map toolCallSize).sum + (turn.toolResults.map toolResultSize).sum +
    (turn.displayedImages.map displayedImageSize).sum +
    turn.reasoningArtifact.elim 0 artifactSize + turn.reasoningProducer.elim 0 producerSize

/-- The estimate for turns by turn id. -/
def turnsSize (turns : Turns) : ℕ :=
  (turns.map fun entry => 8 + entry.1.toNat + entry.2.approxSize).sum

def sessionStatusSize : SessionStatus → ℕ
  | .toolCall name => 8 + name.utf8ByteSize
  | .retrying .. => 16
  | .sleeping | .inactive | .inference => 4

def reasoningCapabilitySize (capability : ReasoningCapability) : ℕ :=
  64 + capability.availableEffortLevels.length + stringsLen capability.availableEffortLevels

/-- The allowance for a variant without fields. -/
def overhead : ℕ := 96

def sessionEventSize : SessionEvent → ℕ
  | .sessionCreated title _ workingDir accountName selectedModel reasoningEffort =>
    namedFieldOverhead 6 + optionStrLen title + optionStrLen workingDir +
      optionStrLen accountName + optionStrLen selectedModel + optionStrLen reasoningEffort
  | .sessionAttached | .sessionDeleted => overhead
  | .sessionState title selectedModel _ workingDir turns activeToolGroups _ _ _ status
      reasoningEffort reasoningCapability =>
    namedFieldOverhead 12 + optionStrLen title + optionStrLen selectedModel +
      optionStrLen workingDir + optionStrLen reasoningEffort + stringsLen activeToolGroups +
      turnsSize turns + sessionStatusSize status +
      reasoningCapability.elim 0 reasoningCapabilitySize
  | .turnAppended _ turn => namedFieldOverhead 2 + turn.approxSize
  | .sessionStatusChanged status _ => namedFieldOverhead 2 + sessionStatusSize status
  | .sessionFailed operation error =>
    namedFieldOverhead 2 + operation.utf8ByteSize + error.utf8ByteSize
  | .started .. => namedFieldOverhead 3
  | .toolCallStarted _ callId toolName argumentsJson invocationDescription =>
    namedFieldOverhead 5 + callId.utf8ByteSize + toolName.utf8ByteSize +
      argumentsJson.utf8ByteSize + invocationDescription.utf8ByteSize
  | .toolCallFinished _ callId toolName =>
    namedFieldOverhead 3 + callId.utf8ByteSize + toolName.utf8ByteSize
  | .toolResultChunk _ callId data => namedFieldOverhead 3 + callId.utf8ByteSize + data.length
  | .toolCallFailed _ callId toolName error =>
    namedFieldOverhead 4 + callId.utf8ByteSize + toolName.utf8ByteSize + error.utf8ByteSize
  | .tokenUsageUpdate .. => namedFieldOverhead 2
  | .liveOutputTokenCount .. => namedFieldOverhead 2
  | .outputChunk _ stream data =>
    let streamLen := match stream with
      | .answer | .reasoning => 4
    namedFieldOverhead 3 + streamLen + data.length
  | .done .. => namedFieldOverhead 3
  | .failed _ error => namedFieldOverhead 2 + error.utf8ByteSize
  | .cancelled .. => namedFieldOverhead 1
  | .modelSelected model reasoningCapability =>
    namedFieldOverhead 2 + model.utf8ByteSize + reasoningCapability.elim 0 reasoningCapabilitySize
  | .modelSelectionFailed model error =>
    namedFieldOverhead 2 + model.utf8ByteSize + error.utf8ByteSize
  | .sessionDeleteFailed error => namedFieldOverhead 1 + error.utf8ByteSize
  | .turnsUndone turnIds => namedFieldOverhead 1 + turnIds.length * 4
  | .turnsRedone turns => namedFieldOverhead 1 + turnsSize turns
  | .sessionAccountSet account => namedFieldOverhead 1 + account.utf8ByteSize
  | .contextWindowResolved .. => namedFieldOverhead 1
  | .sessionWorkingDirSet path => namedFieldOverhead 1 + optionStrLen path
  | .sessionTitleSet title => namedFieldOverhead 1 + title.utf8ByteSize
  | .reasoningEffortSet effort => namedFieldOverhead 1 + effort.utf8ByteSize
  | .reasoningEffortSetFailed effort error =>
    namedFieldOverhead 2 + effort.utf8ByteSize + error.utf8ByteSize

variable (summary : SessionSummary)

/-- The estimate for a session in a list of sessions. -/
def summarySize : ℕ :=
  namedFieldOverhead 15 + optionStrLen summary.title + optionStrLen summary.selectedModel +
    optionStrLen summary.reasoningEffort + optionStrLen summary.workingDir +
    optionStrLen summary.accountName + stringsLen summary.activeToolGroups +
    sessionStatusSize summary.status

def DaemonMessage.approxWireSize : DaemonMessage → ℕ
  | .session _ event => namedFieldOverhead 2 + sessionEventSize event
  | .sessions summaries => namedFieldOverhead 1 + (summaries.map summarySize).sum
  | .pong => overhead
  | .models names selectedModel =>
    namedFieldOverhead 2 + stringsLen names + optionStrLen selectedModel
  | .modelsFailed error => namedFieldOverhead 1 + error.utf8ByteSize
  | .unlocked | .locked | .bound | .shuttingDown | .evicted => overhead
  | .lockedError error | .keystoreUnbound error => namedFieldOverhead 1 + error.utf8ByteSize
  | .credentialAdded service => namedFieldOverhead 1 + service.utf8ByteSize
  | .credentialAddFailed service error =>
    namedFieldOverhead 2 + service.utf8ByteSize + error.utf8ByteSize
  | .credentialRemoved service => namedFieldOverhead 1 + service.utf8ByteSize
  | .credentialRemoveFailed service error =>
    namedFieldOverhead 2 + service.utf8ByteSize + error.utf8ByteSize
  | .aclAddResult _ message => namedFieldOverhead 2 + message.utf8ByteSize
  | .aclUpdated .. => namedFieldOverhead 1
  | .credential service key => namedFieldOverhead 2 + service.utf8ByteSize + optionStrLen key
  | .accountAdded name => namedFieldOverhead 1 + name.utf8ByteSize
  | .accountAddFailed name error =>
    namedFieldOverhead 2 + name.utf8ByteSize + error.utf8ByteSize
  | .accountRemoved name => namedFieldOverhead 1 + name.utf8ByteSize
  | .accountRemoveFailed name error =>
    namedFieldOverhead 2 + name.utf8ByteSize + error.utf8ByteSize
  | .accounts infos =>
    namedFieldOverhead 1 +
      (infos.map fun info => 48 + info.name.utf8ByteSize + info.provider.utf8ByteSize).sum
  | .accountListFailed error => namedFieldOverhead 1 + error.utf8ByteSize
  | .modelsRefreshed .. => namedFieldOverhead 3
  | .modelsRefreshFailed error => namedFieldOverhead 1 + error.utf8ByteSize
  | .catalogUpdated providers =>
    namedFieldOverhead 1 +
      (providers.map fun provider =>
        32 + provider.slug.utf8ByteSize + provider.displayName.utf8ByteSize).sum

/-! ### The bytes around the payloads -/

def frame (text : String) : ℕ := strHeader text.utf8ByteSize

/-- The header of a text that may be absent, or the byte that says so. -/
def optionFrame : ℕ := text.elim 1 frame

def stringsFrame (texts : List String) : ℕ := seqHeader texts.length + (texts.map frame).sum

/-- The header of bytes and the bytes their numbers take besides one each. -/
def bytesFrame (data : Bytes) : ℕ := seqHeader data.length + wideBytes data

/-- The bytes of a number that may be absent. -/
def optionWidth (n : Option ℕ) : ℕ := n.elim 1 uintWidth

/-- The bytes of token counts. -/
def usageWidth (usage : TokenUsage) : ℕ :=
  41 + uintWidth usage.inputTokens.toNat + uintWidth usage.outputTokens.toNat +
    uintWidth usage.totalTokens.toNat

/-- The bytes of token counts that may be absent. -/
def optionUsageWidth (usage : Option TokenUsage) : ℕ := usage.elim 1 usageWidth

/-- The bytes of a status besides the payload that its estimate counts. -/
def statusFrame : SessionStatus → ℕ
  | .sleeping | .inactive => 9
  | .inference => 10
  | .toolCall name => 10 + frame name
  | .retrying attempt maxAttempts delayMs =>
    41 + uintWidth attempt.toNat + uintWidth maxAttempts.toNat + uintWidth delayMs.toNat

def statusAllowance : SessionStatus → ℕ
  | .toolCall _ => 8
  | .retrying .. => 16
  | .sleeping | .inactive | .inference => 4

variable (capability : Option ReasoningCapability)

/-- The bytes of a capability besides its levels, or the byte that says that it is absent. -/
def capabilityFrame : ℕ :=
  capability.elim 1 fun capability => 25 + stringsFrame capability.availableEffortLevels

def capabilityAllowance : ℕ :=
  capability.elim 0 fun capability => 64 + capability.availableEffortLevels.length

/-- The bytes of a vision image, none of which its estimate counts. -/
def imageReferenceFrame (image : ImageReference) : ℕ :=
  34 + frame image.path + image.path.utf8ByteSize + frame image.mimeType +
    image.mimeType.utf8ByteSize + uintWidth image.width.toNat + uintWidth image.height.toNat +
    bytesFrame image.data + image.data.length

/-- The bytes of a tool call besides its texts. -/
def toolCallFrame (call : AssistantToolCallRecord) : ℕ :=
  29 + frame call.callId + frame call.name + frame call.argumentsJson

/-- The bytes of a tool result besides its texts: its vision image is among them. -/
def toolResultFrame (result : ToolResultRecord) : ℕ :=
  61 + frame result.callId + frame result.name + frame result.content +
    frame result.invocationDescription + result.image.elim 1 imageReferenceFrame

/-- The bytes of a displayed image besides its data, its type and its description: the id of its
tool call is among them. -/
def displayedImageFrame (image : DisplayedImageRecord) : ℕ :=
  65 + frame image.metadata.mimeType + uintWidth image.metadata.width.toNat +
    uintWidth image.metadata.height.toNat + uintWidth image.metadata.byteLen.toNat +
    optionFrame image.metadata.alt + bytesFrame image.data + optionFrame image.toolCallId +
    optionStrLen image.toolCallId

/-- The bytes of a reasoning payload besides one for each of its bytes. -/
def artifactFrame : ReasoningArtifact → ℕ
  | .chatReasoning field bytes => 29 + nameSize (chatReasoningFieldName field) + bytesFrame bytes
  | .anthropicThinking bytes => 20 + bytesFrame bytes
  | .googleSignatures bytes => 19 + bytesFrame bytes
  | .responsesItems bytes => 17 + bytesFrame bytes

/-- The bytes of a producer besides its texts. -/
def producerFrame (producer : ReasoningProducer) : ℕ :=
  21 + frame producer.providerSlug + frame producer.model

/-- The bytes of a turn besides the payloads that its estimate counts. -/
def Turn.frame (turn : Turn) : ℕ :=
  162 + intWidth turn.createdAt.toInt + optionFrame turn.error + optionFrame turn.userText +
    optionFrame turn.assistantText + optionFrame turn.assistantReasoning +
    seqHeader turn.toolCalls.length + (turn.toolCalls.map toolCallFrame).sum +
    optionUsageWidth turn.tokenUsage + seqHeader turn.toolResults.length +
    (turn.toolResults.map toolResultFrame).sum + seqHeader turn.displayedImages.length +
    (turn.displayedImages.map displayedImageFrame).sum +
    turn.reasoningArtifact.elim 1 artifactFrame + turn.reasoningProducer.elim 1 producerFrame

def Turn.allowance (turn : Turn) : ℕ :=
  352 + 64 * turn.toolCalls.length + 96 * turn.toolResults.length +
    160 * turn.displayedImages.length + turn.reasoningArtifact.elim 0 (fun _ => 96) +
    turn.reasoningProducer.elim 0 fun _ => 64

/-- The bytes of turns by turn id besides their payloads. -/
def turnsFrame (turns : Turns) : ℕ :=
  mapHeader turns.length + (turns.map fun entry => uintWidth entry.1.toNat + entry.2.frame).sum

/-- The allowances in the estimate of turns by turn id, to which the estimate adds the ids. -/
def turnsAllowance (turns : Turns) : ℕ :=
  (turns.map fun entry => 8 + entry.1.toNat + entry.2.allowance).sum

/-- The bytes of a session in a list besides its texts. -/
def summaryFrame : ℕ :=
  201 + uintWidth summary.sessionId.toNat + optionFrame summary.title +
    optionFrame summary.selectedModel + optionFrame summary.reasoningEffort +
    optionWidth (summary.parentSessionId.map UInt64.toNat) + optionFrame summary.workingDir +
    intWidth summary.createdAt.toInt + intWidth summary.lastModified.toInt +
    uintWidth summary.turnCount.toNat + statusFrame summary.status +
    stringsFrame summary.activeToolGroups + optionFrame summary.accountName +
    optionUsageWidth summary.tokenUsage + optionWidth (summary.contextWindow.map UInt32.toNat) +
    optionWidth (summary.lastPromptTokens.map UInt32.toNat)

/-- The allowances in the estimate of a session in a list. -/
def summaryAllowance : ℕ := 400 + statusAllowance summary.status

/-- The bytes around the payloads of an event fit the allowances, in an envelope whose session id
has the given width. Only seven kinds of events can have more: those with lists of texts, of ids or
of turns, and those with bytes. -/
def SessionEvent.Covered (width : ℕ) : SessionEvent → Prop
  | .sessionState title selectedModel parentSessionId workingDir turns activeToolGroups tokenUsage
      contextWindow lastPromptTokens status reasoningEffort reasoningCapability =>
    width + optionFrame title + optionFrame selectedModel +
        optionWidth (parentSessionId.map UInt64.toNat) + optionFrame workingDir +
        turnsFrame turns + stringsFrame activeToolGroups + optionUsageWidth tokenUsage +
        optionWidth (contextWindow.map UInt32.toNat) +
        optionWidth (lastPromptTokens.map UInt32.toNat) + statusFrame status +
        optionFrame reasoningEffort + capabilityFrame reasoningCapability ≤
      205 + turnsAllowance turns + statusAllowance status +
        capabilityAllowance reasoningCapability
  | .turnAppended turnId turn =>
    width + uintWidth turnId.toNat + turn.frame ≤ 119 + turn.allowance
  | .toolResultChunk requestId callId data =>
    width + uintWidth requestId.toNat + frame callId + bytesFrame data ≤ 129
  | .outputChunk requestId stream data =>
    width + uintWidth requestId.toNat + (if stream = .answer then 7 else 10) + bytesFrame data ≤ 138
  | .modelSelected model reasoningCapability =>
    width + frame model + capabilityFrame reasoningCapability ≤
      104 + capabilityAllowance reasoningCapability
  | .turnsUndone turnIds =>
    width + seqHeader turnIds.length + (turnIds.map fun id => uintWidth id.toNat).sum ≤
      100 + 4 * turnIds.length
  | .turnsRedone turns => width + turnsFrame turns ≤ 103 + turnsAllowance turns
  | _ => True

/-- The bytes around the payloads of a message fit the allowances. Besides events, only the lists
of sessions and of models can have more. -/
def DaemonMessage.Covered : DaemonMessage → Prop
  | .session sessionId event => event.Covered (optionWidth (sessionId.map UInt64.toNat))
  | .sessions summaries =>
    seqHeader summaries.length + (summaries.map summaryFrame).sum ≤
      42 + (summaries.map summaryAllowance).sum
  | .models names selectedModel => stringsFrame names + optionFrame selectedModel ≤ 55
  | _ => True

/-! ### Lengths of the parts -/

section Lengths

variable (s : Serializer) {fields : List (String × List UInt8)}

theorem length_structVariant_of (k : ℕ) {name : String}
    (hk : 1 + nameSize name + mapHeader fields.length + nameSizes (fields.map Prod.fst) = k) :
    (s.structVariant name fields).length = k + valueSizes fields := by
  rw [s.length_structVariant, ← hk]
  omega

theorem length_struct_of (k : ℕ)
    (hk : mapHeader fields.length + nameSizes (fields.map Prod.fst) = k) :
    (s.struct fields).length = k + valueSizes fields := by
  rw [s.length_struct, ← hk]

@[grind =]
theorem length_str (text : String) : (s.str text).length = frame text + text.utf8ByteSize :=
  s.length_str text

@[grind =]
theorem length_optionStr (text : Option String) :
    (optionStr s text).length = optionFrame text + optionStrLen text := by
  cases text with
  | none => exact s.length_none
  | some text => exact s.length_str text

@[grind =]
theorem length_u32 (n : UInt32) : (u32 s n).length = uintWidth n.toNat := by
  rw [u32, s.length_uint, UInt32.toNat_toUInt64]

@[grind =]
theorem length_optionU64 (n : Option UInt64) :
    (optionU64 s n).length = optionWidth (n.map UInt64.toNat) := by
  cases n with
  | none => exact s.length_none
  | some n => exact s.length_uint n

@[grind =]
theorem length_optionU32 (n : Option UInt32) :
    (optionU32 s n).length = optionWidth (n.map UInt32.toNat) := by
  cases n with
  | none => exact s.length_none
  | some n => exact length_u32 s n

attribute [grind =] Serializer.length_uint Serializer.length_int Serializer.length_bool

/-- Sums of equal terms. -/
theorem sum_add_sum {α : Type} {a b c d : α → ℕ} (h : ∀ x, a x + b x = c x + d x)
    (xs : List α) :
    (xs.map a).sum + (xs.map b).sum = (xs.map c).sum + (xs.map d).sum := by
  induction xs with
  | nil => rfl
  | cons x xs ih =>
    have hx := h x
    simp only [map_cons, sum_cons]
    omega

theorem length_seq_map {α : Type} (write : α → Bytes) (xs : List α) :
    (s.seq (xs.map write)).length =
      seqHeader xs.length + (xs.map fun x => (write x).length).sum := by
  rw [s.length_seq, List.length_map, map_map]
  rfl

@[grind =]
theorem length_strings (texts : List String) :
    (strings s texts).length = stringsFrame texts + stringsLen texts := by
  rw [strings, length_seq_map, stringsFrame, stringsLen]
  simp only [length_str, sum_map_add]
  omega

@[grind =]
theorem length_byteSeq (data : Bytes) :
    (s.byteSeq data).length = bytesFrame data + data.length := by
  rw [s.length_byteSeq, bytesFrame]
  omega

theorem length_option {α : Type} {write : α → Bytes} {width : α → ℕ}
    (h : ∀ x, (write x).length = width x) (value : Option α) :
    (s.option write value).length = value.elim 1 width := by
  cases value with
  | none => exact s.length_none
  | some x => exact h x

@[grind =]
theorem length_tokenUsage (usage : TokenUsage) :
    (serializeTokenUsage s usage).length = usageWidth usage := by
  rw [serializeTokenUsage, length_struct_of s 41]
  · simp only [valueSizes]
    grind [usageWidth]
  · simp only [List.map, List.length]
    decide

@[grind =]
theorem length_optionUsage (usage : Option TokenUsage) :
    (s.option (serializeTokenUsage s) usage).length = optionUsageWidth usage :=
  length_option s (length_tokenUsage s) usage

@[grind =]
theorem length_status (status : SessionStatus) :
    (status.serialize s).length + statusAllowance status =
      statusFrame status + sessionStatusSize status := by
  cases status with
  | sleeping | inactive | inference =>
    rw [SessionStatus.serialize, Serializer.unitVariant, s.length_str]
    rfl
  | toolCall name =>
    have hname : nameSize "ToolCall" = 9 := rfl
    rw [SessionStatus.serialize, s.length_newtypeVariant, hname]
    grind [statusAllowance, statusFrame, sessionStatusSize]
  | retrying attempt maxAttempts delayMs =>
    rw [SessionStatus.serialize, length_structVariant_of s 41]
    · simp only [valueSizes]
      grind [statusAllowance, statusFrame, sessionStatusSize]
    · simp only [List.map, List.length]
      decide

@[grind =]
theorem length_capability (capability : Option ReasoningCapability) :
    (s.option (serializeCapability s) capability).length + capabilityAllowance capability =
      capabilityFrame capability + capability.elim 0 reasoningCapabilitySize := by
  cases capability with
  | none => exact congrArg (· + 0) s.length_none
  | some capability =>
    change (serializeCapability s capability).length + (64 + _) = 25 + _ + (64 + _ + _)
    rw [serializeCapability, length_struct_of s 25]
    · simp only [valueSizes, length_strings]
      omega
    · simp only [List.map, List.length]
      decide

theorem length_imageReference (image : ImageReference) :
    (image.serialize s).length = imageReferenceFrame image := by
  rw [ImageReference.serialize, length_struct_of s 34]
  · simp only [valueSizes]
    grind [imageReferenceFrame]
  · simp only [List.map, List.length]
    decide

theorem length_toolCall (call : AssistantToolCallRecord) :
    (serializeToolCall s call).length + 64 = toolCallFrame call + toolCallSize call := by
  rw [serializeToolCall, length_struct_of s 29]
  · simp only [valueSizes]
    grind [toolCallFrame, toolCallSize]
  · simp only [List.map, List.length]
    decide

theorem length_toolResult (result : ToolResultRecord) :
    (result.serialize s).length + 96 = toolResultFrame result + toolResultSize result := by
  have himage := length_option s (length_imageReference s) result.image
  rw [ToolResultRecord.serialize, length_struct_of s 60]
  · simp only [valueSizes, himage]
    grind [toolResultFrame, toolResultSize]
  · simp only [List.map, List.length]
    decide

theorem length_imageMetadata (metadata : ImageMetadata) :
    (metadata.serialize s).length =
      37 + frame metadata.mimeType + metadata.mimeType.utf8ByteSize +
        uintWidth metadata.width.toNat + uintWidth metadata.height.toNat +
        uintWidth metadata.byteLen.toNat + optionFrame metadata.alt +
        optionStrLen metadata.alt := by
  rw [ImageMetadata.serialize, length_struct_of s 37]
  · simp only [valueSizes]
    grind
  · simp only [List.map, List.length]
    decide

theorem length_displayedImage (image : DisplayedImageRecord) :
    (image.serialize s).length + 160 = displayedImageFrame image + displayedImageSize image := by
  rw [DisplayedImageRecord.serialize, length_struct_of s 28]
  · simp only [valueSizes, length_imageMetadata]
    grind [displayedImageFrame, displayedImageSize]
  · simp only [List.map, List.length]
    decide

theorem length_artifact (artifact : ReasoningArtifact) :
    (serializeArtifact s artifact).length + 96 =
      artifactFrame artifact + artifactSize artifact := by
  cases artifact with
  | chatReasoning field bytes =>
    rw [serializeArtifact, length_structVariant_of s 29]
    · simp only [valueSizes, Serializer.unitVariant, s.length_str]
      grind [artifactFrame, artifactSize, artifactPayload, nameSize]
    · simp only [List.map, List.length]
      decide
  | anthropicThinking bytes =>
    have hname : nameSize "anthropic_thinking" = 19 := rfl
    rw [serializeArtifact, s.length_newtypeVariant, hname]
    grind [artifactFrame, artifactSize, artifactPayload]
  | googleSignatures bytes =>
    have hname : nameSize "google_signatures" = 18 := rfl
    rw [serializeArtifact, s.length_newtypeVariant, hname]
    grind [artifactFrame, artifactSize, artifactPayload]
  | responsesItems bytes =>
    have hname : nameSize "responses_items" = 16 := rfl
    rw [serializeArtifact, s.length_newtypeVariant, hname]
    grind [artifactFrame, artifactSize, artifactPayload]

theorem length_producer (producer : ReasoningProducer) :
    (serializeProducer s producer).length + 64 =
      producerFrame producer + producerSize producer := by
  rw [serializeProducer, length_struct_of s 21]
  · simp only [valueSizes]
    grind [producerFrame, producerSize]
  · simp only [List.map, List.length]
    decide

theorem length_option_add {α : Type} {write : α → Bytes} {framing size : α → ℕ} {room : ℕ}
    (h : ∀ x, (write x).length + room = framing x + size x) (value : Option α) :
    (s.option write value).length + value.elim 0 (fun _ => room) =
      value.elim 1 framing + value.elim 0 size := by
  cases value with
  | none => exact congrArg (· + 0) s.length_none
  | some x => exact h x

theorem length_seq_add {α : Type} {write : α → Bytes} {framing size : α → ℕ} {room : ℕ}
    (h : ∀ x, (write x).length + room = framing x + size x) (xs : List α) :
    (s.seq (xs.map write)).length + room * xs.length =
      seqHeader xs.length + (xs.map framing).sum + (xs.map size).sum := by
  have hsum := sum_add_sum h xs
  rw [map_const', sum_replicate, smul_eq_mul, Nat.mul_comm] at hsum
  rw [length_seq_map]
  omega

@[grind =]
theorem length_turn (turn : Turn) :
    (turn.serialize s).length + turn.allowance = turn.frame + turn.approxSize := by
  have hcalls := length_seq_add s (length_toolCall s) turn.toolCalls
  have hresults := length_seq_add s (length_toolResult s) turn.toolResults
  have himages := length_seq_add s (length_displayedImage s) turn.displayedImages
  have hartifact := length_option_add s (length_artifact s) turn.reasoningArtifact
  have hproducer := length_option_add s (length_producer s) turn.reasoningProducer
  rw [Turn.serialize, length_struct_of s 161]
  · simp only [valueSizes, length_optionStr, s.length_int, s.length_bool, length_optionUsage,
      Turn.allowance, Turn.frame, Turn.approxSize, namedFieldOverhead]
    grind
  · simp only [List.map, List.length]
    decide

@[grind =]
theorem length_turns (turns : Turns) :
    (serializeTurns s turns).length + turnsAllowance turns =
      turnsFrame turns + turnsSize turns := by
  have hentry (entry : UInt32 × Turn) :
      (u32 s entry.1).length + (entry.2.serialize s).length +
          (8 + entry.1.toNat + entry.2.allowance) =
        uintWidth entry.1.toNat + entry.2.frame + (8 + entry.1.toNat + entry.2.approxSize) := by
    have hturn := length_turn s entry.2
    rw [length_u32]
    omega
  have hsum := sum_add_sum hentry turns
  rw [serializeTurns, s.length_map, List.length_map, map_map, turnsAllowance, turnsFrame,
    turnsSize, Nat.add_assoc, Nat.add_assoc]
  exact congrArg (mapHeader turns.length + ·) hsum

theorem length_summary (summary : SessionSummary) :
    (summary.serialize s).length + summaryAllowance summary =
      summaryFrame summary + summarySize summary := by
  have hstatus := length_status s summary.status
  rw [SessionSummary.serialize, length_struct_of s 201]
  · simp only [valueSizes, length_optionStr, length_optionU64, length_optionU32, length_u32,
      s.length_int, s.length_uint, length_strings, length_optionUsage, summaryAllowance,
      summaryFrame, summarySize, namedFieldOverhead]
    grind
  · simp only [List.map, List.length]
    decide

end Lengths

/-! ### The estimate against the length -/

theorem frame_le (text : String) : frame text ≤ 5 := strHeader_le _

theorem optionFrame_le : optionFrame text ≤ 5 := by
  cases text with
  | none => decide
  | some text => exact frame_le text

theorem optionWidth_le (n : Option ℕ) : optionWidth n ≤ 9 := by
  cases n with
  | none => decide
  | some n => exact uintWidth_le n

theorem uintWidth_toNat_le (n : UInt32) : uintWidth n.toNat ≤ 5 := uintWidth_le_of_lt n.toNat_lt

theorem usageWidth_le (usage : TokenUsage) : usageWidth usage ≤ 56 := by
  have hinput := uintWidth_toNat_le usage.inputTokens
  have houtput := uintWidth_toNat_le usage.outputTokens
  have htotal := uintWidth_toNat_le usage.totalTokens
  rw [usageWidth]
  omega

theorem optionUsageWidth_le (usage : Option TokenUsage) : optionUsageWidth usage ≤ 56 := by
  cases usage with
  | none => decide
  | some usage => exact usageWidth_le usage

grind_pattern frame_le => frame text
grind_pattern optionFrame_le => optionFrame text
grind_pattern optionWidth_le => optionWidth n
grind_pattern uintWidth_toNat_le => uintWidth n.toNat
grind_pattern optionUsageWidth_le => optionUsageWidth usage
grind_pattern usageWidth_le => usageWidth usage
grind_pattern uintWidth_le => uintWidth n
grind_pattern intWidth_le => intWidth i
grind_pattern seqHeader_le => seqHeader n

theorem statusFrame_le (status : SessionStatus) :
    statusFrame status ≤ statusAllowance status + 44 := by
  cases status <;> grind [statusFrame, statusAllowance]

grind_pattern statusFrame_le => statusFrame status

section Main

variable (s : Serializer)

theorem oneText_le {name field text : String} (h : nameSize name + nameSize field ≤ 55) :
    2 + (s.structVariant name [(field, s.str text)]).length ≤
      namedFieldOverhead 1 + text.utf8ByteSize := by
  have hframe := frame_le text
  rw [length_structVariant_of s _ rfl]
  simp only [valueSizes, length_singleton, map_cons, map_nil, nameSizes,
    sum_cons, sum_nil, length_str, namedFieldOverhead]
  have hone : mapHeader 1 = 1 := rfl
  omega

theorem twoTexts_le {name field field' text text' : String}
    (h : nameSize name + nameSize field + nameSize field' ≤ 74) :
    2 + (s.structVariant name [(field, s.str text), (field', s.str text')]).length ≤
      namedFieldOverhead 2 + text.utf8ByteSize + text'.utf8ByteSize := by
  have hframe := frame_le text
  have hframe' := frame_le text'
  rw [length_structVariant_of s _ rfl]
  simp only [valueSizes, length_cons, length_nil, map_cons, map_nil, nameSizes,
    sum_cons, sum_nil, length_str, namedFieldOverhead]
  have htwo : mapHeader (0 + 1 + 1) = 1 := rfl
  omega

theorem unitVariant_le {name : String} (h : nameSize name ≤ 94) :
    2 + (s.unitVariant name).length ≤ overhead := by
  rw [Serializer.unitVariant, s.length_str]
  rw [nameSize] at h
  rw [overhead]
  omega

variable {s}

theorem covered_of_le {width len size : ℕ} {P : Prop} (hwidth : width ≤ 9) (h : 2 + len ≤ size)
    (hP : P) : 29 + width + len ≤ 88 + size ↔ P :=
  iff_of_true (by omega) hP

variable (s)

/-- An event against its estimate, in an envelope whose session id has the given width. -/
theorem length_event_le_iff {width : ℕ} (hwidth : width ≤ 9) (event : SessionEvent) :
    29 + width + (event.serialize s).length ≤ 88 + sessionEventSize event ↔
      event.Covered width := by
  cases event with
  | sessionCreated title parentSessionId workingDir accountName selectedModel reasoningEffort =>
    refine iff_of_true ?_ trivial
    rw [SessionEvent.serialize, length_structVariant_of s 98]
    · simp only [valueSizes]
      grind [sessionEventSize, namedFieldOverhead]
    · simp only [List.map, List.length]
      decide
  | sessionAttached => exact covered_of_le hwidth (unitVariant_le s (by decide)) trivial
  | sessionState title selectedModel parentSessionId workingDir turns activeToolGroups tokenUsage
      contextWindow lastPromptTokens status reasoningEffort reasoningCapability =>
    have hturns := length_turns s turns
    have hstatus := length_status s status
    have hcapability := length_capability s reasoningCapability
    rw [SessionEvent.serialize, length_structVariant_of s 182]
    · simp only [valueSizes, length_optionStr, length_optionU64, length_optionU32, length_strings,
        length_optionUsage, sessionEventSize, namedFieldOverhead, SessionEvent.Covered]
      grind
    · simp only [List.map, List.length]
      decide
  | turnAppended turnId turn =>
    have hturn := length_turn s turn
    rw [SessionEvent.serialize, length_structVariant_of s 28]
    · simp only [valueSizes, length_u32, sessionEventSize, namedFieldOverhead,
        SessionEvent.Covered]
      omega
    · simp only [List.map, List.length]
      decide
  | sessionStatusChanged status lastModified =>
    refine iff_of_true ?_ trivial
    have hstatus := length_status s status
    rw [SessionEvent.serialize, length_structVariant_of s 44]
    · simp only [valueSizes]
      grind [sessionEventSize, namedFieldOverhead]
    · simp only [List.map, List.length]
      decide
  | sessionFailed operation error => exact covered_of_le hwidth (twoTexts_le s (by decide)) trivial
  | started requestId turnId estimatedPromptTokens =>
    refine iff_of_true ?_ trivial
    rw [SessionEvent.serialize, length_structVariant_of s 53]
    · simp only [valueSizes]
      grind [sessionEventSize, namedFieldOverhead]
    · simp only [List.map, List.length]
      decide
  | toolCallStarted requestId callId toolName argumentsJson invocationDescription =>
    refine iff_of_true ?_ trivial
    rw [SessionEvent.serialize, length_structVariant_of s 85]
    · simp only [valueSizes]
      grind [sessionEventSize, namedFieldOverhead]
    · simp only [List.map, List.length]
      decide
  | toolCallFinished requestId callId toolName =>
    refine iff_of_true ?_ trivial
    rw [SessionEvent.serialize, length_structVariant_of s 48]
    · simp only [valueSizes]
      grind [sessionEventSize, namedFieldOverhead]
    · simp only [List.map, List.length]
      decide
  | toolResultChunk requestId callId data =>
    rw [SessionEvent.serialize, length_structVariant_of s 42]
    · simp only [valueSizes, length_u32, length_str, length_byteSeq, sessionEventSize,
        namedFieldOverhead, SessionEvent.Covered]
      omega
    · simp only [List.map, List.length]
      decide
  | toolCallFailed requestId callId toolName error =>
    refine iff_of_true ?_ trivial
    rw [SessionEvent.serialize, length_structVariant_of s 52]
    · simp only [valueSizes]
      grind [sessionEventSize, namedFieldOverhead]
    · simp only [List.map, List.length]
      decide
  | tokenUsageUpdate tokenUsage lastPromptTokens =>
    refine iff_of_true ?_ trivial
    rw [SessionEvent.serialize, length_structVariant_of s 50]
    · simp only [valueSizes]
      grind [sessionEventSize, namedFieldOverhead]
    · simp only [List.map, List.length]
      decide
  | liveOutputTokenCount requestId outputTokens =>
    refine iff_of_true ?_ trivial
    rw [SessionEvent.serialize, length_structVariant_of s 48]
    · simp only [valueSizes]
      grind [sessionEventSize, namedFieldOverhead]
    · simp only [List.map, List.length]
      decide
  | outputChunk requestId stream data =>
    have hstream : (serializeStream s stream).length = if stream = .answer then 7 else 10 := by
      cases stream with
      | answer => exact s.length_str "Answer"
      | reasoning => exact s.length_str "Reasoning"
    rw [SessionEvent.serialize, length_structVariant_of s 37]
    · have hfour : (match stream with | .answer | .reasoning => 4) = 4 := by cases stream <;> rfl
      simp only [valueSizes, length_u32, hstream, length_byteSeq, sessionEventSize,
        namedFieldOverhead, SessionEvent.Covered, hfour]
      omega
    · simp only [List.map, List.length]
      decide
  | done requestId tokenUsage lastPromptTokens =>
    refine iff_of_true ?_ trivial
    rw [SessionEvent.serialize, length_structVariant_of s 49]
    · simp only [valueSizes]
      grind [sessionEventSize, namedFieldOverhead]
    · simp only [List.map, List.length]
      decide
  | failed requestId error =>
    refine iff_of_true ?_ trivial
    rw [SessionEvent.serialize, length_structVariant_of s 26]
    · simp only [valueSizes]
      grind [sessionEventSize, namedFieldOverhead]
    · simp only [List.map, List.length]
      decide
  | cancelled requestId =>
    refine iff_of_true ?_ trivial
    rw [SessionEvent.serialize, length_structVariant_of s 23]
    · simp only [valueSizes]
      grind [sessionEventSize, namedFieldOverhead]
    · simp only [List.map, List.length]
      decide
  | modelSelected model reasoningCapability =>
    have hcapability := length_capability s reasoningCapability
    rw [SessionEvent.serialize, length_structVariant_of s 43]
    · simp only [valueSizes, length_str, sessionEventSize, namedFieldOverhead,
        SessionEvent.Covered]
      omega
    · simp only [List.map, List.length]
      decide
  | modelSelectionFailed model error =>
    exact covered_of_le hwidth (twoTexts_le s (by decide)) trivial
  | sessionDeleted => exact covered_of_le hwidth (unitVariant_le s (by decide)) trivial
  | sessionDeleteFailed error => exact covered_of_le hwidth (oneText_le s (by decide)) trivial
  | turnsUndone turnIds =>
    rw [SessionEvent.serialize, length_structVariant_of s 23]
    · simp only [valueSizes, length_seq_map, length_u32, sessionEventSize, namedFieldOverhead,
        SessionEvent.Covered]
      omega
    · simp only [List.map, List.length]
      decide
  | turnsRedone turns =>
    have hturns := length_turns s turns
    rw [SessionEvent.serialize, length_structVariant_of s 20]
    · simp only [valueSizes, sessionEventSize, namedFieldOverhead, SessionEvent.Covered]
      omega
    · simp only [List.map, List.length]
      decide
  | sessionAccountSet account => exact covered_of_le hwidth (oneText_le s (by decide)) trivial
  | contextWindowResolved contextWindow =>
    refine iff_of_true ?_ trivial
    rw [SessionEvent.serialize, length_structVariant_of s 39]
    · simp only [valueSizes]
      grind [sessionEventSize, namedFieldOverhead]
    · simp only [List.map, List.length]
      decide
  | sessionWorkingDirSet path =>
    refine iff_of_true ?_ trivial
    rw [SessionEvent.serialize, length_structVariant_of s 28]
    · simp only [valueSizes]
      grind [sessionEventSize, namedFieldOverhead]
    · simp only [List.map, List.length]
      decide
  | sessionTitleSet title => exact covered_of_le hwidth (oneText_le s (by decide)) trivial
  | reasoningEffortSet effort => exact covered_of_le hwidth (oneText_le s (by decide)) trivial
  | reasoningEffortSetFailed effort error =>
    exact covered_of_le hwidth (twoTexts_le s (by decide)) trivial

theorem length_payload (message : DaemonMessage) :
    (encodePayload s message).length = 2 + (message.serialize s).length := by
  have hversion : uintWidth protocolVersion.toUInt64.toNat = 1 := by decide
  have htwo : seqHeader (0 + 1 + 1) = 1 := rfl
  rw [encodePayload, s.length_seq]
  simp only [length_cons, length_nil, map_cons, map_nil, sum_cons,
    sum_nil, s.length_uint, hversion]
  omega

theorem sum_le_sum {α : Type} {a b : α → ℕ} (h : ∀ x, a x ≤ b x) (xs : List α) :
    (xs.map a).sum ≤ (xs.map b).sum :=
  List.sum_le_sum fun x _ => h x

theorem length_account_le (info : AccountInfo) :
    (info.serialize s).length ≤ 48 + info.name.utf8ByteSize + info.provider.utf8ByteSize := by
  rw [AccountInfo.serialize, length_struct_of s 30]
  · simp only [valueSizes]
    grind
  · simp only [List.map, List.length]
    decide

theorem length_provider_le (provider : CatalogProvider) :
    (provider.serialize s).length ≤
      32 + provider.slug.utf8ByteSize + provider.displayName.utf8ByteSize := by
  rw [CatalogProvider.serialize, length_struct_of s 19]
  · simp only [valueSizes]
    grind
  · simp only [List.map, List.length]
    decide

theorem length_refreshStatus_le (status : RefreshStatus) : (status.serialize s).length ≤ 11 := by
  cases status with
  | upToDate => exact (s.length_str "up_to_date").le
  | updated => exact (s.length_str "updated").le.trans (by decide)
  | forced => exact (s.length_str "forced").le.trans (by decide)

/-- The estimate for an event of a session. -/
theorem length_session_le_iff (sessionId : Option UInt64) (event : SessionEvent) :
    2 + ((DaemonMessage.session sessionId event).serialize s).length ≤
        (DaemonMessage.session sessionId event).approxWireSize ↔
      event.Covered (optionWidth (sessionId.map UInt64.toNat)) := by
  rw [← length_event_le_iff s (optionWidth_le _) event, DaemonMessage.serialize,
    length_structVariant_of s 27]
  · simp only [valueSizes, length_optionU64, DaemonMessage.approxWireSize, namedFieldOverhead]
    omega
  · simp only [List.map, List.length]
    decide

/-- **The estimated size of a message.** For every serializer in the format, the estimate is at
least the length of the payload exactly when the bytes around the counted payloads fit the
allowances. -/
theorem length_encodePayload_le_iff (message : DaemonMessage) :
    (encodePayload s message).length ≤ message.approxWireSize ↔ message.Covered := by
  rw [length_payload]
  cases message with
  | session sessionId event => exact length_session_le_iff s sessionId event
  | sessions summaries =>
    have hsum := sum_add_sum (length_summary s) summaries
    rw [DaemonMessage.serialize, length_structVariant_of s 20]
    · simp only [valueSizes, length_seq_map, DaemonMessage.approxWireSize, namedFieldOverhead,
        DaemonMessage.Covered]
      omega
    · simp only [List.map, List.length]
      decide
  | pong => exact iff_of_true (unitVariant_le s (by decide)) trivial
  | models names selectedModel =>
    rw [DaemonMessage.serialize, length_structVariant_of s 31]
    · simp only [valueSizes, length_strings, length_optionStr, DaemonMessage.approxWireSize,
        namedFieldOverhead, DaemonMessage.Covered]
      omega
    · simp only [List.map, List.length]
      decide
  | modelsFailed error => exact iff_of_true (oneText_le s (by decide)) trivial
  | unlocked | locked => exact iff_of_true (unitVariant_le s (by decide)) trivial
  | lockedError error => exact iff_of_true (oneText_le s (by decide)) trivial
  | bound => exact iff_of_true (unitVariant_le s (by decide)) trivial
  | keystoreUnbound error => exact iff_of_true (oneText_le s (by decide)) trivial
  | credentialAdded service => exact iff_of_true (oneText_le s (by decide)) trivial
  | credentialAddFailed service error => exact iff_of_true (twoTexts_le s (by decide)) trivial
  | credentialRemoved service => exact iff_of_true (oneText_le s (by decide)) trivial
  | credentialRemoveFailed service error => exact iff_of_true (twoTexts_le s (by decide)) trivial
  | aclAddResult ok message =>
    refine iff_of_true ?_ trivial
    rw [DaemonMessage.serialize, length_structVariant_of s 26]
    · simp only [valueSizes]
      grind [DaemonMessage.approxWireSize, namedFieldOverhead]
    · simp only [List.map, List.length]
      decide
  | aclUpdated clients =>
    refine iff_of_true ?_ trivial
    rw [DaemonMessage.serialize, length_structVariant_of s 21]
    · simp only [valueSizes]
      grind [DaemonMessage.approxWireSize, namedFieldOverhead]
    · simp only [List.map, List.length]
      decide
  | credential service key =>
    refine iff_of_true ?_ trivial
    rw [DaemonMessage.serialize, length_structVariant_of s 25]
    · simp only [valueSizes]
      grind [DaemonMessage.approxWireSize, namedFieldOverhead]
    · simp only [List.map, List.length]
      decide
  | accountAdded name => exact iff_of_true (oneText_le s (by decide)) trivial
  | accountAddFailed name error => exact iff_of_true (twoTexts_le s (by decide)) trivial
  | accountRemoved name => exact iff_of_true (oneText_le s (by decide)) trivial
  | accountRemoveFailed name error => exact iff_of_true (twoTexts_le s (by decide)) trivial
  | accounts infos =>
    refine iff_of_true ?_ trivial
    have hsum := sum_le_sum (length_account_le s) infos
    have hheader := seqHeader_le infos.length
    rw [DaemonMessage.serialize, length_structVariant_of s 20]
    · simp only [valueSizes, length_seq_map, DaemonMessage.approxWireSize, namedFieldOverhead]
      omega
    · simp only [List.map, List.length]
      decide
  | accountListFailed error => exact iff_of_true (oneText_le s (by decide)) trivial
  | modelsRefreshed providers count status =>
    refine iff_of_true ?_ trivial
    have hstatus := length_refreshStatus_le s status
    rw [DaemonMessage.serialize, length_structVariant_of s 42]
    · simp only [valueSizes]
      grind [DaemonMessage.approxWireSize, namedFieldOverhead]
    · simp only [List.map, List.length]
      decide
  | modelsRefreshFailed error => exact iff_of_true (oneText_le s (by decide)) trivial
  | catalogUpdated providers =>
    refine iff_of_true ?_ trivial
    have hsum := sum_le_sum (length_provider_le s) providers
    have hheader := seqHeader_le providers.length
    rw [DaemonMessage.serialize, length_structVariant_of s 27]
    · simp only [valueSizes, length_seq_map, DaemonMessage.approxWireSize, namedFieldOverhead]
      omega
    · simp only [List.map, List.length]
      decide
  | shuttingDown | evicted => exact iff_of_true (unitVariant_le s (by decide)) trivial

end Main

/-- A chunk of a hundred accented letters: each of its two hundred bytes takes two on the wire. -/
def accentedChunk : DaemonMessage :=
  .session (some 1) (.outputChunk 1 .answer (List.replicate 100 [0xC3, 0xA9]).flatten)

theorem length_accentedChunk :
    ¬(encodePayload format accentedChunk).length ≤ accentedChunk.approxWireSize := by
  rw [length_payload, accentedChunk, length_session_le_iff, SessionEvent.Covered]
  decide +kernel

theorem length_greeting_le :
    (encodePayload format (.session (some 1) (.outputChunk 1 .answer [0x68, 0x69]))).length ≤
      (DaemonMessage.session (some 1) (.outputChunk 1 .answer [0x68, 0x69])).approxWireSize :=
  (length_encodePayload_le_iff format _).2 (by
    rw [DaemonMessage.Covered, SessionEvent.Covered]
    decide)

end Choreo.Wire
