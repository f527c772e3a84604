import Choreo.Library.Folds
import Choreo.Protocols.Chat

/-!
# The Google adapter and the identity of tool calls

The wire format of Gemini has no ids for function calls. The adapter invents them: a call gets the id
`fc_` followed by the name of its function, both in a whole response and in a streamed one. The
daemon records the results of the calls under these ids, and the next request sends them back as
`functionResponse` parts (`choreo-ai-protocols/src/google/mod.rs` and `requests.rs`).
-/

namespace Choreo

open List Option

namespace Google

variable {Value : Type}

/-- The packages that the adapter uses: JSON, also for the list of signatures, and base64. -/
structure Packages (Value : Type) extends SerdeJson Value where
  signaturesToVec : List String → Bytes
  signaturesFromSlice : Bytes → Option (List String)
  base64Encode : Bytes → String
  /-- The object with a text under the key `content`. -/
  contentObject : String → Value

/-- Failures of the adapter after the response has arrived. -/
inductive GoogleError
  | emptyResponse
  | io (error : String)
deriving DecidableEq, Repr

/-! ### Responses -/

inductive ResponsePart (Value : Type)
  | text (text : String) (thought : Option Bool) (thoughtSignature : Option String)
  | functionCall (name : String) (args : Value) (thoughtSignature : Option String)

/-- A part as it is used. -/
inductive ClassifiedPart (Value : Type)
  | answer (text : String)
  | reasoning (text : String) (signature : Option String)
  | toolCall (name : String) (args : Value) (signature : Option String)

def ResponsePart.classify : ResponsePart Value → ClassifiedPart Value
  | text content thought signature =>
    if thought = some true then .reasoning content signature else .answer content
  | functionCall name args signature => .toolCall name args signature

/-- A response: the parts of each candidate that has a content, and the token counts. -/
structure GenerateContentResponse (Value : Type) where
  candidates : List (Option (List (ResponsePart Value)))
  usageMetadata : Option TokenUsage := none

def callId (name : String) : String := "fc_" ++ name

def toolCallOf (packages : Packages Value) (name : String) (args : Value) : ChatToolCall where
  id := callId name
  name := name
  argumentsJson := packages.toStr args

/-- The artifact of the signatures that were captured. -/
def googleSignaturesArtifact (packages : Packages Value) (signatures : List String) :
    Option ReasoningArtifact :=
  if signatures.isEmpty then none
  else some (.googleSignatures (packages.signaturesToVec signatures))

/-- What a whole response is collected into. -/
structure Collected where
  textParts : List String := []
  toolCalls : List ChatToolCall := []
  reasoningParts : List String := []
  signatures : List String := []

def Collected.add (packages : Packages Value) (c : Collected) (part : ResponsePart Value) :
    Collected :=
  match part.classify with
  | .answer text => { c with textParts := c.textParts ++ [text] }
  | .reasoning text signature =>
    { c with
      signatures := c.signatures ++ signature.toList
      reasoningParts := c.reasoningParts ++ [text] }
  | .toolCall name args signature =>
    { c with
      signatures := c.signatures ++ signature.toList
      toolCalls := c.toolCalls ++ [toolCallOf packages name args] }

/-- The result of a whole response: of its first candidate, which must have a content. -/
def responseToTurnResult (packages : Packages Value) (response : GenerateContentResponse Value) :
    Except GoogleError ChatTurnResult :=
  match response.candidates.head? with
  | none | some none => .error .emptyResponse
  | some (some parts) =>
    let c := parts.foldl (Collected.add packages) {}
    let reasoningArtifact := googleSignaturesArtifact packages c.signatures
    let reasoning :=
      if c.reasoningParts.isEmpty then none else some ("\n".intercalate c.reasoningParts)
    if !c.toolCalls.isEmpty then
      .ok (.toolUse {
        content := if c.textParts.isEmpty then none else some (String.join c.textParts)
        toolCalls := c.toolCalls
        reasoning := reasoning
        usage := response.usageMetadata
        reasoningArtifact := reasoningArtifact })
    else if String.join c.textParts = "" then .error .emptyResponse
    else
      .ok (.finalText {
        content := String.join c.textParts
        reasoning := reasoning
        usage := response.usageMetadata
        reasoningArtifact := reasoningArtifact })

/-! ### Streamed responses -/

/-- What a stream is accumulated into. -/
structure Streamed where
  hasAnyOutput : Bool := false
  fullText : String := ""
  fullReasoning : String := ""
  pendingToolCalls : List ChatToolCall := []
  signatures : List String := []
  streamUsage : Option TokenUsage := none

/-- Accumulates a part of a stream. -/
def handleStreamPart (packages : Packages Value) (s : Streamed) (part : ResponsePart Value) :
    Except GoogleError Streamed :=
  match part.classify with
  | .answer text =>
    .ok (if text = "" then s
      else { s with hasAnyOutput := true, fullText := s.fullText ++ text })
  | .reasoning text signature =>
    let s := { s with signatures := s.signatures ++ signature.toList }
    .ok (if text = "" then s
      else { s with hasAnyOutput := true, fullReasoning := s.fullReasoning ++ text })
  | .toolCall name args signature =>
    if maxToolCalls ≤ s.pendingToolCalls.length then
      .error (.io s!"too many tool calls (max {maxToolCalls})")
    else
      .ok { s with
        signatures := s.signatures ++ signature.toList
        hasAnyOutput := true
        pendingToolCalls := s.pendingToolCalls ++ [toolCallOf packages name args] }

def GenerateContentResponse.parts (payload : GenerateContentResponse Value) :
    List (ResponsePart Value) :=
  (payload.candidates.head?.join).getD []

/-- Accumulates a payload of a stream. -/
def handlePayload (packages : Packages Value) (s : Streamed)
    (payload : GenerateContentResponse Value) : Except GoogleError Streamed :=
  payload.parts.foldlM (handleStreamPart packages)
    { s with streamUsage := payload.usageMetadata.or s.streamUsage }

def Streamed.result (packages : Packages Value) (s : Streamed) :
    Except GoogleError ChatTurnResult :=
  let reasoningArtifact := googleSignaturesArtifact packages s.signatures
  if !s.hasAnyOutput then .error .emptyResponse
  else if !s.pendingToolCalls.isEmpty then
    .ok (.toolUse {
      content := nonempty s.fullText
      toolCalls := s.pendingToolCalls
      reasoning := nonempty s.fullReasoning
      usage := s.streamUsage
      reasoningArtifact := reasoningArtifact })
  else if s.fullText = "" ∧ s.fullReasoning = "" then .error .emptyResponse
  else
    .ok (.finalText {
      content := s.fullText
      reasoning := nonempty s.fullReasoning
      usage := s.streamUsage
      reasoningArtifact := reasoningArtifact })

def streamedTurnResult (packages : Packages Value)
    (payloads : List (GenerateContentResponse Value)) : Except GoogleError ChatTurnResult := do
  (← payloads.foldlM (handlePayload packages) {}).result packages

/-! ### Requests -/

inductive PartPayload (Value : Type)
  | text (text : String) (thoughtSignature : Option String)
  | functionCall (name : String) (args : Value) (thoughtSignature : Option String)
  | functionResponse (name : String) (response : Value)
  | inlineData (mimeType data : String)

structure ContentPayload (Value : Type) where
  role : String
  parts : List (PartPayload Value)

/-- Puts a signature on a part. -/
def PartPayload.sign (signature : String) : PartPayload Value → PartPayload Value
  | text content _ => .text content (some signature)
  | functionCall name args _ => .functionCall name args (some signature)
  | part => part

/-- Puts the last signature of the artifact on the last part of an assistant message. -/
def attachThoughtSignatures (packages : Packages Value) (parts : List (PartPayload Value)) :
    Option ReasoningArtifact → Except GoogleError (List (PartPayload Value))
  | some (.googleSignatures bytes) =>
    match packages.signaturesFromSlice bytes with
    | none => .error (.io "invalid signatures")
    | some signatures =>
      match signatures.getLast?, parts.getLast? with
      | some signature, some last => .ok (parts.dropLast ++ [last.sign signature])
      | _, _ => .ok parts
  | _ => .ok parts

/-- An image of a user message, if its type is supported. -/
def googleInlineImage (packages : Packages Value) (image : ChatImagePart) :
    Option (PartPayload Value) :=
  if image.mimeType ∈ ["image/png", "image/jpeg", "image/webp", "image/gif"] then
    some (.inlineData image.mimeType (packages.base64Encode image.data))
  else none

/-- A text as a part, unless it is empty. -/
def textPart (content : Option String) : List (PartPayload Value) :=
  match content with
  | some text => if text = "" then [] else [.text text none]
  | none => []

/-- The name of a role on the wire, for messages that are neither of the system, nor of the assistant,
nor tool results. -/
def roleName : ChatRole → String
  | .system => "system"
  | .user => "user"
  | .assistant => "assistant"
  | .tool => "tool"
  | .other name => name

def messagePayload (packages : Packages Value) (message : ChatRequestMessage) :
    Except GoogleError (List (ContentPayload Value)) :=
  match message.role with
  | .system => .ok []
  | .tool =>
    .ok [{
      role := "user"
      parts := [.functionResponse (message.toolCallId.getD "")
        (packages.contentObject (message.content.getD ""))] }]
  | .assistant => do
    let calls := (message.toolCalls.getD []).map fun call =>
      .functionCall call.name ((packages.fromStr call.arguments).getD packages.null) none
    let parts ← attachThoughtSignatures packages (textPart message.content ++ calls)
      message.reasoningArtifact
    return [{ role := "model", parts := parts }]
  | role =>
    .ok [{
      role := roleName role
      parts := textPart message.content ++
        message.images.filterMap (googleInlineImage packages) }]

def buildMessagePayloads (packages : Packages Value) (messages : List ChatRequestMessage) :
    Except GoogleError (List (ContentPayload Value) × Option String) := do
  let payloads ← messages.mapM (messagePayload packages)
  let systemTexts := (messages.filter (·.role = .system)).filterMap (·.content)
  return (payloads.flatten, if systemTexts.isEmpty then none else some ("\n".intercalate systemTexts))

/-! ### Ids -/

theorem callId_ne_empty (name : String) : callId name ≠ "" := by
  intro h
  have hlength := congrArg String.length h
  rw [callId, String.length_append] at hlength
  have hfixed : "fc_".length = 3 := rfl
  rw [hfixed] at hlength
  simp at hlength

theorem callId_ne_self (name : String) : callId name ≠ name := by
  intro h
  have hlength := congrArg String.length h
  rw [callId, String.length_append] at hlength
  have hfixed : "fc_".length = 3 := rfl
  omega

theorem callId_injective : Function.Injective callId := by
  intro a b h
  have hlist := congrArg String.toList h
  rw [callId, callId, String.toList_append, String.toList_append] at hlist
  exact String.toList_inj.1 (append_cancel_left hlist)

variable (calls : List ChatToolCall)

/-- Every call has the id of its function. -/
def NamedIds : Prop := ∀ call ∈ calls, call.id = callId call.name

theorem NamedIds.concat {packages : Packages Value} {calls : List ChatToolCall}
    (h : NamedIds calls) (name : String) (args : Value) :
    NamedIds (calls ++ [toolCallOf packages name args]) := by
  intro call hcall
  rcases mem_append.1 hcall with hcall | hcall
  · exact h call hcall
  · rw [mem_singleton.1 hcall]
    rfl

theorem namedIds_add (packages : Packages Value) (c : Collected) (part : ResponsePart Value)
    (h : NamedIds c.toolCalls) : NamedIds (c.add packages part).toolCalls := by
  rw [Collected.add]
  rcases part.classify with text | ⟨text, signature⟩ | ⟨name, args, signature⟩
  · exact h
  · exact h
  · exact h.concat name args

theorem namedIds_handleStreamPart (packages : Packages Value) {s s' : Streamed}
    {part : ResponsePart Value} (h : NamedIds s.pendingToolCalls)
    (hpart : handleStreamPart packages s part = .ok s') : NamedIds s'.pendingToolCalls := by
  rw [handleStreamPart] at hpart
  rcases hclass : part.classify with text | ⟨text, signature⟩ | ⟨name, args, signature⟩
  · rw [hclass] at hpart
    cases hpart
    split_ifs <;> exact h
  · rw [hclass] at hpart
    cases hpart
    split_ifs <;> exact h
  · rw [hclass] at hpart
    dsimp only at hpart
    split_ifs at hpart
    cases hpart
    exact h.concat name args

def Accepted (packages : Packages Value) (result : ChatTurnResult) : Prop :=
  (∃ response, responseToTurnResult packages response = .ok result) ∨
    ∃ payloads, streamedTurnResult packages payloads = .ok result

/-- What a result of the adapter always has: ids made from the names of the functions, and an
artifact made of signatures. -/
structure Genuine (packages : Packages Value) (result : ChatTurnResult) : Prop where
  namedIds : NamedIds result.toolCalls
  artifact : ∃ signatures, result.reasoningArtifact = googleSignaturesArtifact packages signatures

theorem namedIds_nil : NamedIds [] := fun _ hcall => absurd hcall not_mem_nil

theorem genuine_responseToTurnResult {packages : Packages Value}
    {response : GenerateContentResponse Value} {result : ChatTurnResult}
    (h : responseToTurnResult packages response = .ok result) : Genuine packages result := by
  rw [responseToTurnResult] at h
  rcases hhead : response.candidates.head? with _ | _ | parts
  · rw [hhead] at h
    cases h
  · rw [hhead] at h
    cases h
  · rw [hhead] at h
    have hcalls : NamedIds (parts.foldl (Collected.add packages) {}).toolCalls :=
      Folds.foldl_invariant (P := fun c : Collected => NamedIds c.toolCalls)
        (fun c part => namedIds_add packages c part) parts namedIds_nil
    dsimp only at h
    split_ifs at h <;> cases h <;>
      first | exact ⟨hcalls, _, rfl⟩ | exact ⟨namedIds_nil, _, rfl⟩

theorem genuine_streamedTurnResult {packages : Packages Value}
    {payloads : List (GenerateContentResponse Value)} {result : ChatTurnResult}
    (h : streamedTurnResult packages payloads = .ok result) : Genuine packages result := by
  obtain ⟨s, hs, hresult⟩ := Folds.bind_eq_ok.1 h
  have hcalls : NamedIds s.pendingToolCalls := by
    refine Folds.foldlM_invariant (P := fun s : Streamed => NamedIds s.pendingToolCalls)
      (fun s payload s' hP hpayload => ?_) namedIds_nil hs
    rw [handlePayload] at hpayload
    refine Folds.foldlM_invariant (P := fun s : Streamed => NamedIds s.pendingToolCalls)
      (fun s part s' hP hpart => namedIds_handleStreamPart packages hP hpart) ?_ hpayload
    exact hP
  rw [Streamed.result] at hresult
  split_ifs at hresult
  · cases hresult
    exact ⟨hcalls, _, rfl⟩
  · cases hresult
    exact ⟨namedIds_nil, _, rfl⟩

theorem Accepted.genuine {packages : Packages Value} {result : ChatTurnResult}
    (h : Accepted packages result) : Genuine packages result := by
  rcases h with ⟨response, h⟩ | ⟨payloads, h⟩
  · exact genuine_responseToTurnResult h
  · exact genuine_streamedTurnResult h

theorem NamedIds.map_id {calls : List ChatToolCall} (h : NamedIds calls) :
    calls.map ChatToolCall.id = (calls.map ChatToolCall.name).map callId := by
  rw [List.map_map]
  exact map_congr_left h

/-! ### Histories -/

/-- A turn that records a result of the adapter, with one tool result per call, in the order of the
calls. -/
def Recorded (packages : Packages Value) (turn : Turn) : Prop :=
  ∃ result, Accepted packages result ∧
    turn.toolCalls = result.toolCalls.map ChatToolCall.toRecord ∧
    turn.toolResults.map ToolResultRecord.callId = result.toolCalls.map ChatToolCall.id ∧
    turn.reasoningArtifact = result.reasoningArtifact

/-- A history of turns of the adapter. -/
def History (packages : Packages Value) (turns : List Turn) : Prop :=
  ∀ turn ∈ turns, Recorded packages turn

def PartPayload.responseName : PartPayload Value → Option String
  | functionResponse name _ => some name
  | _ => none

def functionResponseNames (payloads : List (ContentPayload Value)) : List String :=
  payloads.flatMap fun payload => payload.parts.filterMap PartPayload.responseName

def calledFunctions (turns : List Turn) : List String :=
  (turns.filter fun turn => !turn.undone).flatMap fun turn => turn.toolCalls.map (·.name)

/-- The calls of every turn have distinct ids that are not empty, and every `functionResponse` part
of the next request has the name of the function whose call it answers. -/
structure CallIdentity (packages : Packages Value) (request : RequestModel)
    (systemPrompt : Option String) (turns : List Turn) : Prop where
  ids : ∀ turn ∈ turns, (turn.toolCalls.map (·.callId)).Nodup ∧
    ∀ call ∈ turn.toolCalls, call.callId ≠ ""
  names : ∀ payloads instruction,
    buildMessagePayloads packages (buildChatRequestMessages request systemPrompt turns) =
      .ok (payloads, instruction) → functionResponseNames payloads = calledFunctions turns

/-- The names that a message contributes to the `functionResponse` parts. -/
def messageResponseNames (message : ChatRequestMessage) : List String :=
  if message.role = .tool then [message.toolCallId.getD ""] else []

theorem responseName_sign (signature : String) (part : PartPayload Value) :
    (part.sign signature).responseName = part.responseName := by
  rcases part with ⟨text, _⟩ | ⟨name, args, _⟩ | ⟨name, response⟩ | ⟨mimeType, data⟩ <;> rfl

theorem responseNames_textPart (content : Option String) :
    (textPart content : List (PartPayload Value)).filterMap PartPayload.responseName = [] := by
  rcases content with _ | text
  · rfl
  · rw [textPart]
    split_ifs <;> rfl

/-- Signing an assistant message works when the signatures can be read, and adds no tool result. -/
theorem attachThoughtSignatures_eq_ok {packages : Packages Value}
    {artifact : Option ReasoningArtifact}
    (hreadable : ∀ bytes, artifact = some (.googleSignatures bytes) →
      (packages.signaturesFromSlice bytes).isSome = true) (parts : List (PartPayload Value)) :
    ∃ signed, attachThoughtSignatures packages parts artifact = .ok signed ∧
      signed.filterMap PartPayload.responseName = parts.filterMap PartPayload.responseName := by
  rcases artifact with _ | ⟨field, bytes⟩ | bytes | bytes | bytes
  · exact ⟨parts, rfl, rfl⟩
  · exact ⟨parts, rfl, rfl⟩
  · exact ⟨parts, rfl, rfl⟩
  · obtain ⟨signatures, hsignatures⟩ := isSome_iff_exists.1 (hreadable bytes rfl)
    rw [attachThoughtSignatures, hsignatures]
    dsimp only
    rcases signatures.getLast? with _ | signature
    · exact ⟨parts, rfl, rfl⟩
    · rcases hlast : parts.getLast? with _ | last
      · exact ⟨parts, rfl, rfl⟩
      · refine ⟨_, rfl, ?_⟩
        have hsplit : parts = parts.dropLast ++ [last] :=
          (dropLast_append_getLast? last hlast).symm
        conv_rhs => rw [hsplit]
        rw [filterMap_append, filterMap_append]
        simp [filterMap_cons, responseName_sign]
  · exact ⟨parts, rfl, rfl⟩

variable {message : ChatRequestMessage}

theorem messagePayload_eq_ok {packages : Packages Value}
    (hreadable : ∀ bytes, message.reasoningArtifact = some (.googleSignatures bytes) →
      (packages.signaturesFromSlice bytes).isSome = true) :
    ∃ payloads, messagePayload packages message = .ok payloads ∧
      functionResponseNames payloads = messageResponseNames message := by
  have himages (images : List ChatImagePart) :
      (images.filterMap (googleInlineImage packages)).filterMap PartPayload.responseName = [] := by
    rw [filterMap_filterMap, filterMap_eq_nil_iff]
    intro image _
    rw [googleInlineImage]
    split_ifs <;> rfl
  rw [messagePayload, messageResponseNames]
  rcases hrole : message.role with _ | _ | _ | _ | name
  · exact ⟨[], rfl, rfl⟩
  · exact ⟨_, rfl, by
      simp [functionResponseNames, filterMap_append, responseNames_textPart, himages]⟩
  · obtain ⟨signed, hsigned, hnames⟩ := attachThoughtSignatures_eq_ok hreadable
      (textPart message.content ++ (message.toolCalls.getD []).map fun call =>
        .functionCall call.name ((packages.fromStr call.arguments).getD packages.null) none)
    refine ⟨[{ role := "model", parts := signed }], ?_, ?_⟩
    · dsimp only
      rw [hsigned]
      rfl
    · rw [filterMap_append, responseNames_textPart] at hnames
      simp [functionResponseNames, hnames, filterMap_map, Function.comp_def,
        PartPayload.responseName]
  · exact ⟨_, rfl, rfl⟩
  · exact ⟨_, rfl, by
      simp [functionResponseNames, filterMap_append, responseNames_textPart, himages]⟩

theorem functionResponseNames_append (left right : List (ContentPayload Value)) :
    functionResponseNames (left ++ right) =
      functionResponseNames left ++ functionResponseNames right :=
  flatMap_append

/-- A request is built when all signatures can be read, and its `functionResponse` parts are those of
its messages. -/
theorem buildMessagePayloads_eq_ok {packages : Packages Value}
    {messages : List ChatRequestMessage}
    (hreadable : ∀ message ∈ messages, ∀ bytes,
      message.reasoningArtifact = some (.googleSignatures bytes) →
      (packages.signaturesFromSlice bytes).isSome = true) :
    ∃ payloads instruction, buildMessagePayloads packages messages = .ok (payloads, instruction) ∧
      functionResponseNames payloads = messages.flatMap messageResponseNames := by
  have hmap : ∃ payloads, messages.mapM (messagePayload packages) = .ok payloads ∧
      functionResponseNames payloads.flatten = messages.flatMap messageResponseNames := by
    induction messages with
    | nil => exact ⟨[], rfl, rfl⟩
    | cons message messages ih =>
      obtain ⟨head, hhead, hnames⟩ :=
        messagePayload_eq_ok (hreadable message mem_cons_self)
      obtain ⟨rest, hrest, hrestNames⟩ := ih fun m hm => hreadable m (mem_cons_of_mem _ hm)
      refine ⟨head :: rest, Folds.mapM_eq_ok_iff.2 ?_, ?_⟩
      · exact List.Forall₂.cons hhead (Folds.mapM_eq_ok_iff.1 hrest)
      · rw [flatten_cons, functionResponseNames_append, hnames, hrestNames, flatMap_cons]
  obtain ⟨payloads, hpayloads, hnames⟩ := hmap
  rw [buildMessagePayloads, hpayloads]
  exact ⟨payloads.flatten, _, rfl, hnames⟩

theorem messageResponseNames_of_ne_tool
    (h : message.role ≠ .tool) : messageResponseNames message = [] :=
  if_neg h

theorem flatMap_messageResponseNames_images (vision : Bool) (turn : Turn) :
    (toolResultImageMessages vision turn).flatMap messageResponseNames = [] := by
  rw [flatMap_eq_nil_iff]
  intro message hmessage
  obtain ⟨result, -, hresult⟩ := mem_filterMap.1 hmessage
  obtain ⟨image, -, rfl⟩ := map_eq_some_iff.1 hresult
  refine messageResponseNames_of_ne_tool ?_
  dsimp only
  split_ifs <;> exact ChatRole.noConfusion

theorem flatMap_messageResponseNames_turn (request : RequestModel) (turn : Turn) :
    (turnMessages request turn).flatMap messageResponseNames =
      if turn.undone then [] else turn.toolResults.map ToolResultRecord.callId := by
  rw [turnMessages]
  split_ifs with hundone
  · rfl
  · have huser : (turn.userText.map (ChatRequestMessage.simple .user)).toList.flatMap
        messageResponseNames = [] := by
      rcases turn.userText with _ | text <;> rfl
    have hassistant : (assistantMessage request turn).toList.flatMap messageResponseNames = [] := by
      rw [assistantMessage]
      split <;> rfl
    have htools : (turn.toolResults.map toolMessage).flatMap messageResponseNames =
        turn.toolResults.map ToolResultRecord.callId := by
      rw [flatMap_map, ← flatMap_singleton' (turn.toolResults.map _), flatMap_map]
      rfl
    rw [flatMap_append, flatMap_append, flatMap_append, huser, hassistant, htools,
      flatMap_messageResponseNames_images, nil_append, nil_append, append_nil]

theorem flatMap_messageResponseNames (request : RequestModel) (systemPrompt : Option String)
    (turns : List Turn) :
    (buildChatRequestMessages request systemPrompt turns).flatMap messageResponseNames =
      (turns.filter fun turn => !turn.undone).flatMap fun turn =>
        turn.toolResults.map ToolResultRecord.callId := by
  have hsystem : (systemPrompt.map (ChatRequestMessage.simple .system)).toList.flatMap
      messageResponseNames = [] := by
    rcases systemPrompt with _ | prompt <;> rfl
  rw [buildChatRequestMessages, flatMap_append, hsystem, nil_append, flatMap_assoc]
  induction turns with
  | nil => rfl
  | cons turn turns ih =>
    rw [flatMap_cons, ih, flatMap_messageResponseNames_turn, filter_cons]
    rcases turn.undone with _ | _ <;> simp

theorem exists_turn_of_artifact {request : RequestModel} {systemPrompt : Option String}
    {turns : List Turn} {artifact : ReasoningArtifact}
    (hmessage : message ∈ buildChatRequestMessages request systemPrompt turns)
    (hartifact : message.reasoningArtifact = some artifact) :
    ∃ turn ∈ turns, turn.reasoningArtifact = some artifact := by
  rcases mem_append.1 hmessage with hmessage | hmessage
  · obtain ⟨prompt, -, rfl⟩ := map_eq_some_iff.1 (mem_toList.1 hmessage)
    cases hartifact
  · obtain ⟨turn, hturn, hmessage⟩ := mem_flatMap.1 hmessage
    refine ⟨turn, hturn, ?_⟩
    rw [turnMessages] at hmessage
    split_ifs at hmessage
    · cases hmessage
    · rcases mem_append.1 hmessage with hmessage | hmessage
      · rcases mem_append.1 hmessage with hmessage | hmessage
        · rcases mem_append.1 hmessage with hmessage | hmessage
          · obtain ⟨text, -, rfl⟩ := map_eq_some_iff.1 (mem_toList.1 hmessage)
            cases hartifact
          · have hassistant := mem_toList.1 hmessage
            rw [assistantMessage] at hassistant
            split at hassistant
            · cases hassistant
              dsimp only at hartifact
              split at hartifact
              · exact hartifact
              · cases hartifact
            · cases hassistant
        · obtain ⟨result, -, rfl⟩ := List.mem_map.1 hmessage
          cases hartifact
      · obtain ⟨result, -, hresult⟩ := mem_filterMap.1 hmessage
        obtain ⟨image, -, rfl⟩ := map_eq_some_iff.1 hresult
        dsimp only at hartifact
        split_ifs at hartifact <;> cases hartifact

theorem map_callId_eq_self_iff (names : List String) : names.map callId = names ↔ names = [] := by
  rcases names with _ | ⟨name, names⟩
  · simp
  · simp [callId_ne_self]

theorem map_callId_toRecord :
    (calls.map ChatToolCall.toRecord).map (·.callId) = calls.map ChatToolCall.id := by
  rw [List.map_map]
  rfl

theorem map_name_toRecord :
    (calls.map ChatToolCall.toRecord).map (·.name) = calls.map ChatToolCall.name := by
  rw [List.map_map]
  rfl

theorem Recorded.map_callId {packages : Packages Value} {turn : Turn}
    (h : Recorded packages turn) :
    turn.toolCalls.map (·.callId) = (turn.toolCalls.map (·.name)).map callId := by
  obtain ⟨result, haccepted, hcalls, -, -⟩ := h
  rw [hcalls, map_callId_toRecord, map_name_toRecord]
  exact haccepted.genuine.namedIds.map_id

theorem Recorded.map_resultId {packages : Packages Value} {turn : Turn}
    (h : Recorded packages turn) :
    turn.toolResults.map ToolResultRecord.callId = (turn.toolCalls.map (·.name)).map callId := by
  obtain ⟨result, haccepted, hcalls, hresults, -⟩ := h
  rw [hresults, hcalls, map_name_toRecord]
  exact haccepted.genuine.namedIds.map_id

theorem Recorded.readable {packages : Packages Value} {turn : Turn} (h : Recorded packages turn)
    (hread : ∀ signatures, (packages.signaturesFromSlice
      (packages.signaturesToVec signatures)).isSome = true) {bytes : Bytes}
    (hbytes : turn.reasoningArtifact = some (.googleSignatures bytes)) :
    (packages.signaturesFromSlice bytes).isSome = true := by
  obtain ⟨result, haccepted, -, -, hartifact⟩ := h
  obtain ⟨signatures, hsignatures⟩ := haccepted.genuine.artifact
  rw [hartifact, hsignatures, googleSignaturesArtifact] at hbytes
  split_ifs at hbytes
  cases hbytes
  exact hread signatures

theorem Recorded.nodup_iff {packages : Packages Value} {turn : Turn} (h : Recorded packages turn) :
    (turn.toolCalls.map (·.callId)).Nodup ↔ (turn.toolCalls.map (·.name)).Nodup := by
  rw [h.map_callId]
  exact nodup_map_iff callId_injective

theorem Recorded.callId_ne_empty {packages : Packages Value} {turn : Turn}
    (h : Recorded packages turn) : ∀ call ∈ turn.toolCalls, call.callId ≠ "" := by
  intro call hcall
  have hmem : call.callId ∈ turn.toolCalls.map (·.callId) := List.mem_map_of_mem hcall
  rw [h.map_callId] at hmem
  obtain ⟨name, -, hname⟩ := List.mem_map.1 hmem
  rw [← hname]
  exact Google.callId_ne_empty name

theorem flatMap_resultIds {packages : Packages Value} {turns : List Turn}
    (h : History packages turns) :
    ((turns.filter fun turn => !turn.undone).flatMap fun turn =>
      turn.toolResults.map ToolResultRecord.callId) = (calledFunctions turns).map callId := by
  rw [calledFunctions, map_flatMap]
  refine flatMap_congr fun turn hturn => ?_
  exact (h turn (mem_of_mem_filter hturn)).map_resultId

theorem calledFunctions_eq_nil_iff (turns : List Turn) :
    calledFunctions turns = [] ↔ ∀ turn ∈ turns, turn.undone = false → turn.toolCalls = [] := by
  rw [calledFunctions, flatMap_eq_nil_iff]
  simp only [mem_filter, Bool.not_eq_true', map_eq_nil_iff, and_imp]

/-- The identity of calls is kept over a history exactly when no turn that is sent has a call and no
turn calls a function twice: a `functionResponse` part is named by the invented id of its call, which
is never the name of the function. -/
theorem callIdentity_iff {packages : Packages Value} {turns : List Turn} (request : RequestModel)
    (systemPrompt : Option String) (hhistory : History packages turns)
    (hread : ∀ signatures, (packages.signaturesFromSlice
      (packages.signaturesToVec signatures)).isSome = true) :
    CallIdentity packages request systemPrompt turns ↔
      (∀ turn ∈ turns, (turn.toolCalls.map (·.name)).Nodup) ∧
        ∀ turn ∈ turns, turn.undone = false → turn.toolCalls = [] := by
  have hreadable : ∀ message ∈ buildChatRequestMessages request systemPrompt turns, ∀ bytes,
      message.reasoningArtifact = some (.googleSignatures bytes) →
      (packages.signaturesFromSlice bytes).isSome = true := by
    intro message hmessage bytes hbytes
    obtain ⟨turn, hturn, hartifact⟩ := exists_turn_of_artifact hmessage hbytes
    exact (hhistory turn hturn).readable hread hartifact
  obtain ⟨payloads, instruction, hbuild, hnames⟩ := buildMessagePayloads_eq_ok hreadable
  rw [flatMap_messageResponseNames, flatMap_resultIds hhistory] at hnames
  rw [← calledFunctions_eq_nil_iff, ← map_callId_eq_self_iff, ← hnames]
  constructor
  · rintro ⟨hids, hall⟩
    exact ⟨fun turn hturn => (hhistory turn hturn).nodup_iff.1 (hids turn hturn).1,
      hall payloads instruction hbuild⟩
  · rintro ⟨hnodup, hnone⟩
    refine ⟨fun turn hturn => ⟨?_, (hhistory turn hturn).callId_ne_empty⟩, ?_⟩
    · exact (hhistory turn hturn).nodup_iff.2 (hnodup turn hturn)
    · intro payloads' instruction' hbuild'
      cases hbuild.symm.trans hbuild'
      exact hnone

namespace Sample

/-- Packages that read and write nothing but the empty object. -/
def packages : Packages Unit where
  fromStr text := if text = "\x7b\x7d" then some () else none
  toStr _ := "\x7b\x7d"
  null := ()
  emptyObject := ()
  signaturesToVec _ := []
  signaturesFromSlice _ := some []
  base64Encode _ := ""
  contentObject _ := ()

/-- A response that calls one function, without arguments, as often as asked for. -/
def response (times : ℕ) : GenerateContentResponse Unit where
  candidates := [some (List.replicate times (.functionCall "search" () none))]

def call : AssistantToolCallRecord where
  callId := "fc_search"
  name := "search"
  argumentsJson := "\x7b\x7d"

def result : ToolResultRecord where
  callId := "fc_search"
  name := "search"
  content := "found"
  isError := false
  invocationDescription := ""
  image := none

/-- The turn of a response that calls the function. -/
def turn (times : ℕ) (undone : Bool) : Turn where
  createdAt := 0
  undone := undone
  toolCalls := List.replicate times call
  toolResults := List.replicate times result

def request : RequestModel where
  providerSlug := "google"
  model := "gemini-2.5-pro"
  passback := .signature
  requiresReasoningContent := false
  vision := true

theorem recorded_turn_one (undone : Bool) : Recorded packages (turn 1 undone) :=
  ⟨_, Or.inl ⟨response 1, rfl⟩, rfl, rfl, rfl⟩

theorem recorded_turn_two (undone : Bool) : Recorded packages (turn 2 undone) :=
  ⟨_, Or.inl ⟨response 2, rfl⟩, rfl, rfl, rfl⟩

end Sample

/-- The identity is kept when the only call was undone. -/
theorem callIdentity_undone :
    CallIdentity Sample.packages Sample.request none [Sample.turn 1 true] := by
  refine (callIdentity_iff Sample.request none ?_ fun _ => rfl).2 ⟨?_, ?_⟩
  · intro turn hturn
    rw [mem_singleton.1 hturn]
    exact Sample.recorded_turn_one true
  · intro turn hturn
    rw [mem_singleton.1 hturn]
    exact nodup_singleton _
  · intro turn hturn hundone
    rw [mem_singleton.1 hturn] at hundone
    cases hundone

/-- Two calls of one function in a turn have the same id, and the `functionResponse` part of a single
call has the name `fc_search` instead of `search`. -/
theorem not_callIdentity_search :
    History Sample.packages [Sample.turn 2 false] ∧ History Sample.packages [Sample.turn 1 false] ∧
      ¬ CallIdentity Sample.packages Sample.request none [Sample.turn 2 false] ∧
      ¬ CallIdentity Sample.packages Sample.request none [Sample.turn 1 false] := by
  refine ⟨?_, ?_, fun h => ?_, fun h => ?_⟩
  · intro turn hturn
    rw [mem_singleton.1 hturn]
    exact Sample.recorded_turn_two false
  · intro turn hturn
    rw [mem_singleton.1 hturn]
    exact Sample.recorded_turn_one false
  · have hids := (h.ids _ mem_cons_self).1
    revert hids
    decide
  · have hnames := h.names _ _ rfl
    revert hnames
    decide

end Google

end Choreo
