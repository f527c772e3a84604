import Choreo.Protocols.Anthropic

/-!
# The messages of a request to Anthropic

A request carries the messages of the conversation as payloads of content blocks
(`build_message_payloads` of `choreo-ai-protocols/src/anthropic/mod.rs`). The texts of the system
messages are joined to one text; every other message becomes a payload, whose blocks depend on its
role. Thinking blocks are replayed from the artifact of an assistant message when thinking is
enabled. Images are sent with user messages, if their type is allowed, and are left out otherwise.
-/

namespace Choreo

open List

namespace Anthropic

variable {Value : Type}

/-- The packages that a request uses: JSON, also for lists of blocks, and base64. -/
structure RequestPackages (Value : Type) extends SerdeJson Value where
  blocksFromSlice : Bytes → Option (List Value)
  base64Encode : Bytes → String

inductive ContentBlockPayload (Value : Type)
  | text (text : String)
  | image (mediaType data : String)
  | toolUse (id name : String) (input : Value)
  | toolResult (toolUseId content : String)
  | raw (block : Value)

/-- A message of a request, as it is sent. -/
structure MessagePayload (Value : Type) where
  role : ChatRole
  content : List (ContentBlockPayload Value)

variable (packages : RequestPackages Value)

def artifactThinkingBlocks : Option ReasoningArtifact →
    Except AnthropicError (List (ContentBlockPayload Value))
  | some (.anthropicThinking bytes) =>
    match packages.blocksFromSlice bytes with
    | some blocks => .ok (blocks.map .raw)
    | none => .error (.io "invalid thinking blocks")
  | _ => .ok []

/-- The types of images that are sent. -/
def anthropicImageMediaTypes : List String := ["image/jpeg", "image/png", "image/gif", "image/webp"]

def anthropicImageBlock (image : ChatImagePart) : Option (ContentBlockPayload Value) :=
  if image.mimeType ∉ anthropicImageMediaTypes then none
  else some (.image image.mimeType (packages.base64Encode image.data))

/-- A text as a block, unless it is empty. -/
def textBlock (content : Option String) : List (ContentBlockPayload Value) :=
  ((content.filter (· ≠ "")).map ContentBlockPayload.text).toList

def toolUseBlock (call : AssistantToolCall) : ContentBlockPayload Value :=
  .toolUse call.id call.name ((packages.fromStr call.arguments).getD packages.null)

variable (thinkingEnabled : Bool) (msg : ChatRequestMessage)

def messagePayload :
    Except AnthropicError (MessagePayload Value) :=
  match msg.role with
  | .tool => .ok ⟨.user, [.toolResult (msg.toolCallId.getD "") (msg.content.getD "")]⟩
  | .assistant => do
    let thinking ←
      if thinkingEnabled then artifactThinkingBlocks packages msg.reasoningArtifact else .ok []
    .ok ⟨.assistant, thinking ++ textBlock msg.content ++
      (msg.toolCalls.getD []).map (toolUseBlock packages)⟩
  | role =>
    .ok ⟨role, textBlock msg.content ++ msg.images.filterMap (anthropicImageBlock packages)⟩

/-- Appends the text of a system message. -/
def addSystem (system : Option String) (content : String) : Option String :=
  let text := system.getD ""
  some ((if text = "" then text else text ++ "\n") ++ content)

def addMessage (built : List (MessagePayload Value) × Option String)
    (msg : ChatRequestMessage) :
    Except AnthropicError (List (MessagePayload Value) × Option String) :=
  match msg.role with
  | .system =>
    .ok (built.1, match msg.content with
      | some content => addSystem built.2 content
      | none => built.2)
  | _ => do
    let payload ← messagePayload packages thinkingEnabled msg
    .ok (built.1 ++ [payload], built.2)

def popEmpty (payloads : List (MessagePayload Value)) : List (MessagePayload Value) :=
  match payloads.getLast? with
  | some last => if last.content.isEmpty then payloads.dropLast else payloads
  | none => payloads

variable (messages : List ChatRequestMessage)

/-- The payloads of some messages, and the system text. -/
def buildMessagePayloads :
    Except AnthropicError (List (MessagePayload Value) × Option String) := do
  let built ← messages.foldlM (addMessage packages thinkingEnabled) ([], none)
  .ok (popEmpty built.1, built.2)

/-! ### What a message has -/

inductive MessagePart
  | text (text : String)
  | result (toolCallId content : String)
  | call (call : AssistantToolCall)
  | image (image : ChatImagePart)

def messageParts : List MessagePart :=
  (match msg.role with
    | .system => []
    | .tool => [.result (msg.toolCallId.getD "") (msg.content.getD "")]
    | _ => ((msg.content.filter (· ≠ "")).map MessagePart.text).toList) ++
  (msg.toolCalls.getD []).map .call ++ msg.images.map .image

/-- A block shows a part. An image whose type is not allowed is shown by some text. -/
def Shows : MessagePart → ContentBlockPayload Value → Prop
  | .text text, block => block = .text text
  | .result toolCallId content, block => block = .toolResult toolCallId content
  | .call call, block => block = toolUseBlock packages call
  | .image image, block =>
    block = .image image.mimeType (packages.base64Encode image.data) ∨
      image.mimeType ∉ anthropicImageMediaTypes ∧ ∃ marker, block = .text marker

/-- The thinking blocks that a message replays: those of an assistant message's artifact, if
thinking is enabled. -/
def replayedThinking : List Value :=
  match msg.role, msg.reasoningArtifact with
  | .assistant, some (.anthropicThinking bytes) =>
    if thinkingEnabled then (packages.blocksFromSlice bytes).getD [] else []
  | _, _ => []

def sentRole : ChatRole → ChatRole
  | .tool => .user
  | role => role

/-- A payload carries a message: first the thinking blocks, then a block for each part. -/
def Carries (payload : MessagePayload Value) :
    Prop :=
  payload.role = sentRole msg.role ∧
    ∃ shown, List.Forall₂ (Shows packages) (messageParts msg) shown ∧
      payload.content = (replayedThinking packages thinkingEnabled msg).map .raw ++ shown

/-- A message has something to send. -/
def HasBlocks : Prop :=
  messageParts msg ≠ [] ∨ replayedThinking packages thinkingEnabled msg ≠ []

/-- Some texts appear in a text, one behind the other. -/
def AppearIn : List String → List Char → Prop
  | [], _ => True
  | text :: texts, whole =>
    ∃ before after, whole = before ++ text.toList ++ after ∧ AppearIn texts after

def systemTexts : List String :=
  messages.filterMap fun msg => if msg.role = .system then msg.content else none

instance (thinkingEnabled : Bool) (msg : ChatRequestMessage) :
    Decidable (HasBlocks packages thinkingEnabled msg) :=
  inferInstanceAs (Decidable (messageParts msg ≠ [] ∨
    replayedThinking packages thinkingEnabled msg ≠ []))

/-- The payloads are complete: none is empty, they carry the messages that have something to send,
in order, and the texts of the system messages appear in the system text. -/
def Complete : Prop :=
  ∃ payloads system,
    buildMessagePayloads packages thinkingEnabled messages = .ok (payloads, system) ∧
    (∀ payload ∈ payloads, payload.content ≠ []) ∧
    List.Forall₂ (Carries packages thinkingEnabled)
      (messages.filter (HasBlocks packages thinkingEnabled)) payloads ∧
    AppearIn (systemTexts messages) (system.getD "").toList

/-- An artifact of this adapter can be read, if it is replayed. -/
def Readable : Prop :=
  thinkingEnabled = true → msg.role = .assistant → ∀ bytes,
    msg.reasoningArtifact = some (.anthropicThinking bytes) → packages.blocksFromSlice bytes ≠ none

/-- A message has calls only if it is of the assistant, and images only if it is neither of the
assistant nor of the system nor a tool result; the types of the images are allowed. -/
def InPlace : Prop :=
  (msg.role ≠ .assistant → msg.toolCalls.getD [] = []) ∧
    (msg.role = .system ∨ msg.role = .tool ∨ msg.role = .assistant → msg.images = []) ∧
    ∀ image ∈ msg.images, image.mimeType ∈ anthropicImageMediaTypes

/-- The messages that are sent completely: artifacts can be read, calls and images are where they
belong, and only the last payload may be empty. -/
structure Sendable (thinkingEnabled : Bool) (messages : List ChatRequestMessage) : Prop where
  readable : ∀ msg ∈ messages, Readable packages thinkingEnabled msg
  inPlace : ∀ msg ∈ messages, InPlace msg
  hasBlocks : ∀ msg ∈ (messages.filter (·.role ≠ .system)).dropLast,
    HasBlocks packages thinkingEnabled msg

/-! ### The payloads -/

variable {packages}

def ownBlocks (packages : RequestPackages Value) (msg : ChatRequestMessage) :
    List (ContentBlockPayload Value) :=
  match msg.role with
  | .tool => [.toolResult (msg.toolCallId.getD "") (msg.content.getD "")]
  | .assistant => textBlock msg.content ++ (msg.toolCalls.getD []).map (toolUseBlock packages)
  | _ => textBlock msg.content ++ msg.images.filterMap (anthropicImageBlock packages)

/-- The payload of a message whose artifact can be read. -/
def payloadOf (packages : RequestPackages Value) (thinkingEnabled : Bool)
    (msg : ChatRequestMessage) : MessagePayload Value :=
  ⟨sentRole msg.role,
    (replayedThinking packages thinkingEnabled msg).map .raw ++ ownBlocks packages msg⟩

variable {thinkingEnabled : Bool} {msg : ChatRequestMessage}

theorem messagePayload_eq
    (h : Readable packages thinkingEnabled msg) :
    messagePayload packages thinkingEnabled msg = .ok (payloadOf packages thinkingEnabled msg) := by
  rw [messagePayload, payloadOf, replayedThinking, ownBlocks]
  rcases hrole : msg.role with - | - | - | - | name
  case assistant =>
    rcases thinkingEnabled with - | -
    · rcases msg.reasoningArtifact with - | (⟨field, bytes⟩ | bytes | bytes | bytes) <;>
        simp [bind, Except.bind, sentRole]
    · rcases hartifact : msg.reasoningArtifact with - | (⟨field, bytes⟩ | bytes | bytes | bytes)
      case some.anthropicThinking =>
        obtain ⟨blocks, hblocks⟩ := Option.ne_none_iff_exists'.1 (h rfl hrole bytes hartifact)
        simp [bind, Except.bind, sentRole, artifactThinkingBlocks, hblocks]
      all_goals simp [bind, Except.bind, sentRole, artifactThinkingBlocks]
  all_goals rfl

theorem messagePayload_error
    (h : ¬ Readable packages thinkingEnabled msg) :
    ∃ error, messagePayload packages thinkingEnabled msg = .error error := by
  rw [Readable] at h
  push Not at h
  obtain ⟨hthinking, hrole, bytes, hartifact, hblocks⟩ := h
  refine ⟨.io "invalid thinking blocks", ?_⟩
  rw [messagePayload, hrole]
  simp [hthinking, hartifact, artifactThinkingBlocks, hblocks, bind, Except.bind]

def sentMessages : List ChatRequestMessage :=
  messages.filter (·.role ≠ .system)

theorem readable_of_system
    (h : msg.role = .system) : Readable packages thinkingEnabled msg := fun _ hrole => by
  rw [h] at hrole
  cases hrole

variable {messages : List ChatRequestMessage}

/-- The loop over the messages. -/
theorem foldlM_addMessage
    (h : ∀ msg ∈ messages, Readable packages thinkingEnabled msg)
    (built : List (MessagePayload Value) × Option String) :
    messages.foldlM (addMessage packages thinkingEnabled) built =
      .ok (built.1 ++ (sentMessages messages).map (payloadOf packages thinkingEnabled),
        (systemTexts messages).foldl addSystem built.2) := by
  induction messages generalizing built with
  | nil => simp [sentMessages, systemTexts, pure, Except.pure]
  | cons msg messages ih =>
    obtain ⟨hmsg, hrest⟩ := forall_mem_cons.1 h
    by_cases hrole : msg.role = .system
    · have hstep : addMessage packages thinkingEnabled built msg =
          .ok (built.1, msg.content.toList.foldl addSystem built.2) := by
        rw [addMessage, hrole]
        rcases msg.content with - | content <;> rfl
      rw [foldlM_cons, hstep]
      refine (ih hrest _).trans ?_
      rcases hcontent : msg.content with - | content <;>
        simp [sentMessages, systemTexts, hrole, hcontent]
    · have hstep : addMessage packages thinkingEnabled built msg =
          .ok (built.1 ++ [payloadOf packages thinkingEnabled msg], built.2) := by
        rw [addMessage, messagePayload_eq hmsg]
        split
        · contradiction
        · rfl
      rw [foldlM_cons, hstep]
      refine (ih hrest _).trans ?_
      simp [sentMessages, systemTexts, hrole]

theorem foldlM_addMessage_error
    (h : ¬ ∀ msg ∈ messages, Readable packages thinkingEnabled msg)
    (built : List (MessagePayload Value) × Option String) :
    ∃ error, messages.foldlM (addMessage packages thinkingEnabled) built = .error error := by
  induction messages generalizing built with
  | nil => exact absurd (fun _ hmsg => absurd hmsg not_mem_nil) h
  | cons msg messages ih =>
    rw [foldlM_cons]
    by_cases hmsg : Readable packages thinkingEnabled msg
    · have hrest : ¬ ∀ msg ∈ messages, Readable packages thinkingEnabled msg := fun hrest =>
        h (forall_mem_cons.2 ⟨hmsg, hrest⟩)
      have hone : ∀ m ∈ [msg], Readable packages thinkingEnabled m :=
        forall_mem_singleton.2 hmsg
      have hstep := foldlM_addMessage hone built
      rw [foldlM_cons] at hstep
      rcases hadd : addMessage packages thinkingEnabled built msg with error | built'
      · exact ⟨error, rfl⟩
      · exact ih hrest built'
    · obtain ⟨error, herror⟩ := messagePayload_error hmsg
      refine ⟨error, ?_⟩
      have hrole : msg.role ≠ .system := fun hrole => hmsg (readable_of_system hrole)
      rw [addMessage, herror]
      split
      · contradiction
      · rfl

theorem appearIn_foldl_addSystem (texts : List String) (system : Option String) :
    ∃ rest, ((texts.foldl addSystem system).getD "").toList = (system.getD "").toList ++ rest ∧
      AppearIn texts rest := by
  induction texts generalizing system with
  | nil => exact ⟨[], (append_nil _).symm, trivial⟩
  | cons text texts ih =>
    obtain ⟨rest, hrest, happear⟩ := ih (addSystem system text)
    rw [foldl_cons, hrest, addSystem]
    by_cases hempty : system.getD "" = ""
    · refine ⟨text.toList ++ rest, ?_, [], rest, rfl, happear⟩
      simp [hempty]
    · refine ⟨"\n".toList ++ text.toList ++ rest, ?_, "\n".toList, rest, rfl, happear⟩
      simp [hempty]

/-! ### What the payloads show -/

variable (packages) in
theorem length_filterMap_images (images : List ChatImagePart) :
    (images.filterMap (anthropicImageBlock packages)).length = images.length ↔
      ∀ image ∈ images, image.mimeType ∈ anthropicImageMediaTypes := by
  rw [filterMap_length_eq_length]
  refine forall₂_congr fun image _ => ?_
  rw [anthropicImageBlock]
  split_ifs with h <;> simp [h]

theorem forall₂_textBlock (content : Option String) :
    List.Forall₂ (Shows packages) ((content.filter (· ≠ "")).map MessagePart.text).toList
      (textBlock content) := by
  rw [textBlock]
  rcases content.filter (· ≠ "") with - | text
  · exact .nil
  · exact .cons rfl .nil

variable (packages) in
theorem forall₂_images {images : List ChatImagePart}
    (h : ∀ image ∈ images, image.mimeType ∈ anthropicImageMediaTypes) :
    List.Forall₂ (Shows packages) (images.map .image)
      (images.filterMap (anthropicImageBlock packages)) := by
  induction images with
  | nil => exact .nil
  | cons image images ih =>
    obtain ⟨himage, hrest⟩ := forall_mem_cons.1 h
    rw [map_cons, filterMap_cons, anthropicImageBlock, if_neg (not_not_intro himage)]
    exact .cons (.inl rfl) (ih hrest)

variable (packages) in
/-- The own blocks of a message show all its parts exactly if calls and images are in place. -/
theorem forall₂_ownBlocks_iff (hrole : msg.role ≠ .system) :
    List.Forall₂ (Shows packages) (messageParts msg) (ownBlocks packages msg) ↔ InPlace msg := by
  have hnil {α : Type} (l : List α) : l.length = 0 ↔ l = [] := length_eq_zero_iff
  have htexts : ((msg.content.filter (· ≠ "")).map MessagePart.text).toList.length =
      (@textBlock Value msg.content).length := by
    rw [textBlock]
    rcases msg.content.filter (· ≠ "") with - | text <;> rfl
  have himages := length_filterMap_images packages msg.images
  have hle := length_filterMap_le (anthropicImageBlock packages) msg.images
  have hcalls : List.Forall₂ (Shows packages) ((msg.toolCalls.getD []).map .call)
      ((msg.toolCalls.getD []).map (toolUseBlock packages)) := by
    rw [List.forall₂_map_left_iff, List.forall₂_map_right_iff, List.forall₂_same]
    exact fun _ _ => rfl
  rw [messageParts, ownBlocks, InPlace]
  constructor
  · rintro h
    have hlength := h.length_eq
    rcases hmsg : msg.role with - | - | - | - | name
    case system => contradiction
    all_goals
      rw [hmsg] at hlength
      simp only [length_append, List.length_map, length_cons, length_nil] at hlength
    case assistant =>
      have hnone : msg.images = [] := (hnil _).1 (by omega)
      exact ⟨fun h => absurd rfl h, fun _ => hnone, by simp [hnone]⟩
    case tool =>
      have hnone : msg.images = [] := (hnil _).1 (by omega)
      exact ⟨fun _ => (hnil _).1 (by omega), fun _ => hnone, by simp [hnone]⟩
    all_goals
      exact ⟨fun _ => (hnil _).1 (by omega), by simp, himages.1 (by omega)⟩
  · rintro ⟨hcalls', himages', hallowed⟩
    have hallowed' := forall₂_images packages hallowed
    rcases hmsg : msg.role with - | - | - | - | name
    case system => contradiction
    case assistant =>
      rw [himages' (.inr (.inr hmsg)), map_nil, append_nil]
      exact rel_append (forall₂_textBlock msg.content) hcalls
    case tool =>
      rw [himages' (.inr (.inl hmsg)), hcalls' (by simp [hmsg])]
      exact .cons rfl .nil
    all_goals
      rw [hcalls' (by simp [hmsg]), map_nil, append_nil]
      exact rel_append (forall₂_textBlock msg.content) hallowed'

theorem carries_payloadOf_iff
    (hrole : msg.role ≠ .system) :
    Carries packages thinkingEnabled msg (payloadOf packages thinkingEnabled msg) ↔
      InPlace msg := by
  rw [← forall₂_ownBlocks_iff packages hrole]
  constructor
  · rintro ⟨-, shown, hshown, hcontent⟩
    rwa [append_cancel_left hcontent]
  · rintro h
    exact ⟨rfl, _, h, rfl⟩

theorem ownBlocks_eq_nil (hrole : msg.role ≠ .system)
    (h : messageParts msg = []) : ownBlocks packages msg = [] := by
  rw [messageParts, append_eq_nil_iff, append_eq_nil_iff, map_eq_nil_iff,
    map_eq_nil_iff] at h
  obtain ⟨⟨htexts, hcalls⟩, himages⟩ := h
  have htext (hnone : ((msg.content.filter (· ≠ "")).map MessagePart.text).toList = []) :
      @textBlock Value msg.content = [] := by
    rw [textBlock]
    rcases hcontent : msg.content.filter (· ≠ "") with - | text
    · rfl
    · rw [hcontent] at hnone
      cases hnone
  rw [ownBlocks]
  rcases hmsg : msg.role with - | - | - | - | name
  case system => contradiction
  all_goals rw [hmsg] at htexts
  case tool => cases htexts
  case assistant => simp [htext htexts, hcalls]
  all_goals simp [htext htexts, himages]

theorem hasBlocks_of_content
    (hrole : msg.role ≠ .system) (h : (payloadOf packages thinkingEnabled msg).content ≠ []) :
    HasBlocks packages thinkingEnabled msg := by
  by_contra hnone
  rw [HasBlocks, not_or, not_not, not_not] at hnone
  rw [payloadOf, hnone.2, ownBlocks_eq_nil hrole hnone.1] at h
  exact h rfl

theorem content_ne_nil_iff
    (hrole : msg.role ≠ .system) (hplace : InPlace msg) :
    (payloadOf packages thinkingEnabled msg).content ≠ [] ↔
      HasBlocks packages thinkingEnabled msg := by
  refine ⟨hasBlocks_of_content hrole, ?_⟩
  rintro h hnil
  have hshown := (forall₂_ownBlocks_iff packages hrole).2 hplace
  obtain ⟨hthinking, hown⟩ := append_eq_nil_iff.1 hnil
  rcases h with h | h
  · rw [hown, List.forall₂_nil_right_iff] at hshown
    exact h hshown
  · exact h (map_eq_nil_iff.1 hthinking)

theorem not_hasBlocks_of_system
    (hrole : msg.role = .system) (hplace : InPlace msg) :
    ¬ HasBlocks packages thinkingEnabled msg := by
  obtain ⟨hcalls, himages, -⟩ := hplace
  rw [HasBlocks, messageParts, replayedThinking, hrole, hcalls (by simp [hrole]),
    himages (.inl hrole)]
  simp

theorem inPlace_of_not_hasBlocks
    (h : ¬ HasBlocks packages thinkingEnabled msg) : InPlace msg := by
  rw [HasBlocks, not_or, not_not, messageParts, append_eq_nil_iff, append_eq_nil_iff,
    map_eq_nil_iff, map_eq_nil_iff] at h
  obtain ⟨⟨⟨-, hcalls⟩, himages⟩, -⟩ := h
  exact ⟨fun _ => hcalls, fun _ => himages, by simp [himages]⟩

/-- What is left when the last payload is removed if it is empty. -/
theorem popEmpty_map (packages : RequestPackages Value) (thinkingEnabled : Bool)
    (messages : List ChatRequestMessage) :
    (popEmpty (messages.map (payloadOf packages thinkingEnabled)) =
        messages.map (payloadOf packages thinkingEnabled) ∧
      ∀ msg ∈ messages, msg ∈ messages.dropLast ∨
        (payloadOf packages thinkingEnabled msg).content ≠ []) ∨
    ∃ before last, messages = before ++ [last] ∧
      (payloadOf packages thinkingEnabled last).content = [] ∧
      popEmpty (messages.map (payloadOf packages thinkingEnabled)) =
        before.map (payloadOf packages thinkingEnabled) := by
  rcases eq_nil_or_concat messages with rfl | ⟨before, last, rfl⟩
  · exact .inl ⟨rfl, by simp⟩
  · rw [concat_eq_append, popEmpty, map_append, map_singleton,
      List.getLast?_concat, dropLast_concat, dropLast_concat]
    dsimp only
    split_ifs with hempty
    · exact .inr ⟨before, last, rfl, List.isEmpty_iff.1 hempty, rfl⟩
    · refine .inl ⟨rfl, fun msg hmsg => ?_⟩
      rcases mem_append.1 hmsg with hmsg | hmsg
      · exact .inl hmsg
      · rw [mem_singleton.1 hmsg]
        exact .inr fun hnil => hempty (List.isEmpty_iff.2 hnil)

theorem buildMessagePayloads_eq
    (h : ∀ msg ∈ messages, Readable packages thinkingEnabled msg) :
    buildMessagePayloads packages thinkingEnabled messages =
      .ok (popEmpty ((sentMessages messages).map (payloadOf packages thinkingEnabled)),
        (systemTexts messages).foldl addSystem none) := by
  rw [buildMessagePayloads, foldlM_addMessage h]
  rfl

theorem mem_sentMessages :
    msg ∈ sentMessages messages ↔ msg ∈ messages ∧ msg.role ≠ .system := by
  rw [sentMessages, mem_filter, decide_eq_true_iff]

theorem exists_kept (packages : RequestPackages Value) (thinkingEnabled : Bool)
    (messages : List ChatRequestMessage) :
    ∃ kept, popEmpty ((sentMessages messages).map (payloadOf packages thinkingEnabled)) =
        kept.map (payloadOf packages thinkingEnabled) ∧
      kept.Sublist (sentMessages messages) ∧ (sentMessages messages).dropLast ⊆ kept ∧
      ((∀ msg ∈ messages, InPlace msg) →
        (∀ msg ∈ (sentMessages messages).dropLast, HasBlocks packages thinkingEnabled msg) →
        messages.filter (HasBlocks packages thinkingEnabled) = kept) := by
  have hsent (hplace : ∀ msg ∈ messages, InPlace msg) :
      messages.filter (HasBlocks packages thinkingEnabled) =
        (sentMessages messages).filter (HasBlocks packages thinkingEnabled) := by
    rw [sentMessages, filter_filter]
    refine filter_congr fun msg hmsg => ?_
    by_cases hrole : msg.role = .system
    · simp [hrole, not_hasBlocks_of_system hrole (hplace msg hmsg)]
    · simp [hrole]
  rcases popEmpty_map packages thinkingEnabled (sentMessages messages) with
    ⟨hpop, hlast⟩ | ⟨before, last, hsplit, hempty, hpop⟩
  · refine ⟨sentMessages messages, hpop, List.Sublist.refl _, dropLast_subset _,
      fun hplace hblocks => ?_⟩
    rw [hsent hplace, filter_eq_self]
    rintro msg hmsg
    rcases hlast msg hmsg with hdrop | hcontent
    · exact decide_eq_true (hblocks msg hdrop)
    · exact decide_eq_true (hasBlocks_of_content (mem_sentMessages.1 hmsg).2 hcontent)
  · have hmem : last ∈ sentMessages messages := by
      rw [hsplit]
      exact mem_append_right _ (mem_singleton_self _)
    obtain ⟨hlast, hrole⟩ := mem_sentMessages.1 hmem
    refine ⟨before, hpop, ?_, ?_, fun hplace hblocks => ?_⟩
    · rw [hsplit]
      exact sublist_append_left _ _
    · rw [hsplit, dropLast_concat]
      exact List.Subset.refl _
    · have hnone : ¬ HasBlocks packages thinkingEnabled last := fun h =>
        (content_ne_nil_iff hrole (hplace last hlast)).2 h hempty
      rw [hsplit, dropLast_concat] at hblocks
      have hbefore : before.filter (HasBlocks packages thinkingEnabled) = before :=
        filter_eq_self.2 fun msg hmsg => decide_eq_true (hblocks msg hmsg)
      rw [hsent hplace, hsplit, filter_append, hbefore, filter_singleton]
      simp [hnone]

/-- **The payloads are complete exactly for the messages that can be sent.** -/
theorem complete_iff_sendable (packages : RequestPackages Value) (thinkingEnabled : Bool)
    (messages : List ChatRequestMessage) :
    Complete packages thinkingEnabled messages ↔ Sendable packages thinkingEnabled messages := by
  by_cases hreadable : ∀ msg ∈ messages, Readable packages thinkingEnabled msg
  · have hbuild := buildMessagePayloads_eq hreadable
    obtain ⟨kept, hpop, hsub, hdrop, hfilter⟩ := exists_kept packages thinkingEnabled messages
    rw [hpop] at hbuild
    have hkept : ∀ msg ∈ kept, msg ∈ messages ∧ msg.role ≠ .system := fun msg hmsg =>
      mem_sentMessages.1 (hsub.subset hmsg)
    constructor
    · rintro ⟨payloads, system, hok, hnonempty, hcarries, -⟩
      obtain ⟨rfl, -⟩ := Prod.mk.inj (Except.ok.inj (hbuild.symm.trans hok))
      have hblocks : ∀ msg ∈ kept, HasBlocks packages thinkingEnabled msg := fun msg hmsg =>
        hasBlocks_of_content (hkept msg hmsg).2 (hnonempty _ (mem_map_of_mem hmsg))
      -- the payloads are those of the messages that have something to send
      have hall : kept = messages.filter (HasBlocks packages thinkingEnabled) := by
        have hself : kept.filter (HasBlocks packages thinkingEnabled) = kept :=
          filter_eq_self.2 fun msg hmsg => decide_eq_true (hblocks msg hmsg)
        have hsublist := (hsub.trans filter_sublist).filter
          (fun msg => decide (HasBlocks packages thinkingEnabled msg))
        rw [hself] at hsublist
        refine hsublist.eq_of_length ?_
        rw [hcarries.length_eq, List.length_map]
      refine ⟨hreadable, fun msg hmsg => ?_, fun msg hmsg => hblocks msg (hdrop hmsg)⟩
      by_cases hhas : HasBlocks packages thinkingEnabled msg
      · have hmem : msg ∈ kept := by
          rw [hall]
          exact mem_filter.2 ⟨hmsg, decide_eq_true hhas⟩
        rw [← hall, List.forall₂_map_right_iff, List.forall₂_same] at hcarries
        exact (carries_payloadOf_iff (hkept msg hmem).2).1 (hcarries msg hmem)
      · exact inPlace_of_not_hasBlocks hhas
    · rintro ⟨-, hplace, hblocks⟩
      obtain ⟨rest, hrest, happear⟩ := appearIn_foldl_addSystem (systemTexts messages) none
      have hall := hfilter hplace hblocks
      refine ⟨_, _, hbuild, ?_, ?_, ?_⟩
      · rintro payload hpayload
        obtain ⟨msg, hmsg, rfl⟩ := mem_map.1 hpayload
        have hhas := hmsg
        rw [← hall, mem_filter, decide_eq_true_iff] at hhas
        exact (content_ne_nil_iff (hkept msg hmsg).2 (hplace msg hhas.1)).2 hhas.2
      · rw [hall, List.forall₂_map_right_iff, List.forall₂_same]
        exact fun msg hmsg =>
          (carries_payloadOf_iff (hkept msg hmsg).2).2 (hplace msg (hkept msg hmsg).1)
      · rw [hrest]
        exact happear
  · refine iff_of_false ?_ fun h => hreadable h.readable
    rintro ⟨payloads, system, hok, -⟩
    obtain ⟨error, herror⟩ := foldlM_addMessage_error hreadable ([], none)
    rw [buildMessagePayloads, herror] at hok
    cases hok

/-- A picture whose type is not allowed, without a text. -/
def bitmapMessage : ChatRequestMessage where
  role := .user
  content := some ""
  images := [⟨[0x42, 0x4D], "image/bmp"⟩]

theorem emptyPayload_bitmap (packages : RequestPackages Value) : ∃ payload rest system,
    buildMessagePayloads packages true [bitmapMessage, .simple .user "What is it?"] =
      .ok (payload :: rest, system) ∧ payload.content = [] :=
  ⟨_, _, _, rfl, rfl⟩

/-- Packages that read and write only the empty object. -/
def emptyPackages : RequestPackages Unit where
  fromStr _ := none
  toStr _ := "\x7b\x7d"
  null := ()
  emptyObject := ()
  blocksFromSlice _ := some []
  base64Encode _ := ""

theorem not_complete_emptyPayload :
    ¬ Complete emptyPackages true [bitmapMessage, .simple .user "What is it?"] := by
  rintro ⟨payloads, system, hok, hnonempty, -⟩
  obtain ⟨payload, rest, system', hbuild, hempty⟩ := emptyPayload_bitmap emptyPackages
  obtain ⟨rfl, -⟩ := Prod.mk.inj (Except.ok.inj (hok.symm.trans hbuild))
  exact hnonempty payload mem_cons_self hempty

end Anthropic

end Choreo
