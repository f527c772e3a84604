import Choreo.Protocols.Responses

/-!
# The input of a Responses request

A request of the Responses API names its conversation in one of three ways: it has the whole history
as input items, it continues a previous response with the messages since then, or it continues it
with tool results alone (`messages_to_responses_input` of `choreo-ai-protocols/src/openai/mod.rs`,
`build_responses_input` of `openai/responses.rs`).

The adapter writes no `function_call` items. The only ones in an input are those inside the reasoning
artifacts that assistant messages replay, and whether a tool output has its call before it depends on
these and on the previous response.
-/

namespace Choreo

open List

/-! ### Items that refer to earlier ones -/

section Scopes

variable {α β ι : Type} (defines : α → List ι) (Fine : List ι → α → Prop)

def Scoped (known : List ι) (items : List α) : Prop :=
  ∀ before item after, items = before ++ item :: after →
    Fine (known ++ before.flatMap defines) item

variable {defines Fine}

@[simp]
theorem scoped_nil (known : List ι) : Scoped defines Fine known [] := by
  intro before item after h
  simp at h

variable {known : List ι}

theorem scoped_cons {x : α} {xs : List α} :
    Scoped defines Fine known (x :: xs) ↔
      Fine known x ∧ Scoped defines Fine (known ++ defines x) xs := by
  constructor
  · intro h
    refine ⟨by simpa using h [] x xs rfl, ?_⟩
    rintro before item after rfl
    simpa using h (x :: before) item after rfl
  · rintro ⟨hx, hxs⟩ before item after h
    rcases before with _ | ⟨y, before⟩
    · obtain ⟨rfl, rfl⟩ := cons_eq_cons.1 h
      simpa using hx
    · obtain ⟨rfl, rfl⟩ := cons_eq_cons.1 h
      simpa using hxs before item after rfl

theorem scoped_append {xs ys : List α} :
    Scoped defines Fine known (xs ++ ys) ↔
      Scoped defines Fine known xs ∧ Scoped defines Fine (known ++ xs.flatMap defines) ys := by
  induction xs generalizing known with
  | nil => simp
  | cons x xs ih =>
    rw [cons_append, scoped_cons, scoped_cons, ih, flatMap_cons, append_assoc,
      and_assoc]

theorem scoped_flatMap {f : β → List α} {l : List β} :
    Scoped defines Fine known (l.flatMap f) ↔
      ∀ before x after, l = before ++ x :: after →
        Scoped defines Fine (known ++ (before.flatMap f).flatMap defines) (f x) := by
  induction l generalizing known with
  | nil => simp
  | cons y l ih =>
    rw [flatMap_cons, scoped_append, ih]
    constructor
    · rintro ⟨hy, hl⟩ before x after h
      rcases before with _ | ⟨z, before⟩
      · obtain ⟨rfl, rfl⟩ := cons_eq_cons.1 h
        simpa using hy
      · obtain ⟨rfl, rfl⟩ := cons_eq_cons.1 h
        simpa [flatMap_append] using hl before x after rfl
    · intro h
      refine ⟨by simpa using h [] y l rfl, ?_⟩
      rintro before x after rfl
      simpa [flatMap_append] using h (y :: before) x after rfl

theorem scoped_iff_forall {items : List α} (h : ∀ item ∈ items, defines item = []) :
    Scoped defines Fine known items ↔ ∀ item ∈ items, Fine known item := by
  induction items with
  | nil => simp
  | cons x xs ih =>
    rw [scoped_cons, h x (by simp), append_nil, ih fun item hi => h item (by simp [hi])]
    simp

end Scopes

/-- The last position whose item satisfies the predicate. -/
def rposition {α : Type} (p : α → Bool) : List α → Option ℕ
  | [] => none
  | x :: xs =>
    match rposition p xs with
    | some i => some (i + 1)
    | none => if p x then some 0 else none

theorem rposition_eq_none_iff {α : Type} {p : α → Bool} {l : List α} :
    rposition p l = none ↔ ∀ x ∈ l, p x = false := by
  induction l with
  | nil => simp [rposition]
  | cons x xs ih =>
    rcases h : rposition p xs with _ | i
    · simpa [rposition, h] using fun _ => ih.1 h
    · have : ¬ ∀ x ∈ xs, p x = false := fun hall => by simp [ih.2 hall] at h
      simp only [rposition, h, reduceCtorEq, mem_cons, forall_eq_or_imp, false_iff, not_and]
      exact fun _ => this

theorem rposition_eq_some {α : Type} {p : α → Bool} {l : List α} {i : ℕ}
    (h : rposition p l = some i) :
    ∃ x, l[i]? = some x ∧ p x = true ∧ ∀ y ∈ l.drop (i + 1), p y = false := by
  induction l generalizing i with
  | nil => simp [rposition] at h
  | cons x xs ih =>
    rcases hxs : rposition p xs with _ | j
    · simp only [rposition, hxs, Option.ite_none_right_eq_some, Option.some.injEq] at h
      obtain ⟨hx, rfl⟩ := h
      exact ⟨x, rfl, hx, by simpa using rposition_eq_none_iff.1 hxs⟩
    · simp only [rposition, hxs, Option.some.injEq] at h
      subst h
      simpa using ih hxs

namespace Responses

/-! ### Input items -/

/-- The packages that an input needs: the items of a reasoning artifact, base64, and the value of a
caller. -/
structure InputPackages where
  itemsFromSlice : Bytes → Except String (List Json)
  base64Encode : Bytes → String
  callerToValue : String → Json

/-- An input item of the adapter's own. -/
inductive ResponsesInputItem
  | message (role : String) (content : Json)
  | functionCallOutput (callId output : String) (caller : Option String)

variable (packages : InputPackages)

/-- The wire value of an item. -/
def responsesInputItemValue : ResponsesInputItem → Json
  | .message role content =>
    .object [("type", .string "message"), ("role", .string role), ("content", content)]
  | .functionCallOutput callId output caller =>
    .object ([("type", .string "function_call_output"), ("call_id", .string callId),
      ("output", .string output)] ++
      (caller.map fun name => ("caller", packages.callerToValue name)).toList)

def dataUrl (image : ChatImagePart) : String :=
  "data:" ++ image.mimeType ++ ";base64," ++ packages.base64Encode image.data

variable (msg : ChatRequestMessage)

def responsesContentValue : Json :=
  if msg.images.isEmpty then .string (msg.content.getD "")
  else
    .array (((msg.content.filter (· ≠ "")).map fun text =>
        Json.object [("type", .string "input_text"), ("text", .string text)]).toList ++
      msg.images.map fun image =>
        .object [("type", .string "input_image"), ("image_url", .string (dataUrl packages image)),
          ("detail", .string "auto")])

def contentItems (role : String) (msg : ChatRequestMessage) : List Json :=
  if msg.content.isSome || !msg.images.isEmpty then
    [responsesInputItemValue packages (.message role (responsesContentValue packages msg))]
  else []

def reasoningItems :
    Except OpenAiError (List Json) :=
  match msg.reasoningArtifact with
  | some (.responsesItems bytes) => (packages.itemsFromSlice bytes).mapError .io
  | _ => .ok []

def messageInput :
    Except OpenAiError (List Json) :=
  match msg.role with
  | .system =>
    .ok (msg.content.map fun content =>
      responsesInputItemValue packages (.message "system" (.string content))).toList
  | .user => .ok (contentItems packages "user" msg)
  | .assistant => do
    let replayed ← reasoningItems packages msg
    return replayed ++ contentItems packages "assistant" msg
  | .tool =>
    match msg.toolCallId, msg.content with
    | some callId, some content =>
      .ok [responsesInputItemValue packages (.functionCallOutput callId content none)]
    | _, _ => .ok []
  | .other _ => .ok []

variable (messages : List ChatRequestMessage)

def messagesToResponsesInput :
    Except OpenAiError (List Json) := do
  return (← messages.mapM (messageInput packages)).flatten

/-- The messages that a chained request sends: those after the last assistant message, and the newest
system message. -/
def chainInputMessages : List ChatRequestMessage :=
  match rposition (fun msg => msg.role = .assistant) messages with
  | none => messages
  | some lastAssistant =>
    let newestSystem := rposition (fun msg => msg.role = .system) messages
    (messages.zipIdx.filter fun entry =>
      (lastAssistant < entry.2 && entry.1.role ≠ .system) || some entry.2 = newestSystem).map
        Prod.fst

/-- The messages that a request without tool results sends. -/
def sentMessages (previousResponseId : Option String) :
    List ChatRequestMessage :=
  if previousResponseId.isSome then chainInputMessages messages else messages

def buildResponsesInput (toolResults : List ToolResultItem)
    (messages : List ChatRequestMessage) (previousResponseId : Option String) :
    Except OpenAiError (Option Json) :=
  if toolResults.isEmpty then do
    let items ← messagesToResponsesInput packages (sentMessages messages previousResponseId)
    return some (if items.isEmpty then .string "" else .array items)
  else
    .ok (some (.array (toolResults.map fun result =>
      responsesInputItemValue packages
        (.functionCallOutput result.callId result.output result.caller))))

/-! ### Self-consistent inputs -/

/-- The call that an item stands for. -/
def calls (item : Json) : List String :=
  if item.getStr "type" = some "function_call" then (item.getStr "call_id").toList else []

/-- Whether an item is a tool output. -/
def IsOutput (item : Json) : Prop := item.getStr "type" = some "function_call_output"

/-- A tool output refers to one of the calls. -/
def Answers (known : List String) (item : Json) : Prop :=
  IsOutput item → ∃ callId ∈ known, item.getStr "call_id" = some callId

def itemsOf (input : Json) : List Json := input.asArray.getD []

/-- The calls of the response that a request continues. -/
def previousCalls (callsOf : String → List String) (previousResponseId : Option String) :
    List String :=
  previousResponseId.elim [] callsOf

/-- The tool calls of a message. -/
def assistantCalls : List AssistantToolCall := msg.toolCalls.getD []

/-- An input is self-consistent: each call of an assistant message that is sent has its item, each
tool output has its call before it or in the previous response, and an input of tool outputs alone
continues a previous response. -/
structure SelfConsistent (callsOf : String → List String) (toolResults : List ToolResultItem)
    (messages : List ChatRequestMessage) (previousResponseId : Option String) (input : Json) :
    Prop where
  complete : toolResults = [] → ∀ msg ∈ sentMessages messages previousResponseId,
    msg.role = .assistant → ∀ call ∈ assistantCalls msg, call.id ∈ (itemsOf input).flatMap calls
  answered : Scoped calls Answers (previousCalls callsOf previousResponseId) (itemsOf input)
  continued : itemsOf input ≠ [] → (∀ item ∈ itemsOf input, IsOutput item) →
    previousResponseId.isSome = true

/-! ### Where a request must come from -/

/-- The call that a message answers with a tool output. -/
def answeredCall : Option String :=
  if msg.role = .tool ∧ msg.content.isSome = true then msg.toolCallId else none

/-- The items that a message replays from its artifact. -/
def replayed : List Json :=
  if msg.role = .assistant then (reasoningItems packages msg).toOption.getD [] else []

/-- Whether a message has an artifact that cannot be read. -/
def Unreadable : Prop :=
  msg.role = .assistant ∧ (reasoningItems packages msg).toOption = none

/-- Every call of the messages is inside a replayed artifact, and so is, earlier on, every call that
a tool message or an artifact answers. -/
structure Replays (packages : InputPackages) (messages : List ChatRequestMessage) : Prop where
  assistant : ∀ msg ∈ messages, msg.role = .assistant → ∀ call ∈ assistantCalls msg,
    call.id ∈ (messages.flatMap (replayed packages)).flatMap calls
  tool : ∀ before msg after, messages = before ++ msg :: after →
    ∀ callId, answeredCall msg = some callId →
      callId ∈ (before.flatMap (replayed packages)).flatMap calls
  artifact : Scoped calls Answers [] (messages.flatMap (replayed packages))

/-- Where the messages and tool results of a request come from. Tool results answer calls of a
previous response; so do, in a chained request, the tool messages after the last assistant message;
and a whole history replays the calls of its messages. -/
structure Traceable (packages : InputPackages) (callsOf : String → List String)
    (toolResults : List ToolResultItem) (messages : List ChatRequestMessage)
    (previousResponseId : Option String) : Prop where
  results : toolResults ≠ [] → ∃ responseId, previousResponseId = some responseId ∧
    ∀ result ∈ toolResults, result.callId ∈ callsOf responseId
  chained : toolResults = [] → ∀ responseId, previousResponseId = some responseId →
    ∀ i msg, messages[i]? = some msg → (∀ later ∈ messages.drop i, later.role ≠ .assistant) →
      ∀ callId, answeredCall msg = some callId → callId ∈ callsOf responseId
  whole : toolResults = [] → previousResponseId = none →
    (∃ msg ∈ messages, Unreadable packages msg) ∨ Replays packages messages

/-! ### The items of messages -/

/-- The items of a message besides the replayed ones. -/
def ownItems : List Json :=
  match msg.role with
  | .system =>
    (msg.content.map fun content =>
      responsesInputItemValue packages (.message "system" (.string content))).toList
  | .user => contentItems packages "user" msg
  | .assistant => contentItems packages "assistant" msg
  | .tool =>
    match msg.toolCallId, msg.content with
    | some callId, some content =>
      [responsesInputItemValue packages (.functionCallOutput callId content none)]
    | _, _ => []
  | .other _ => []

variable {packages : InputPackages} {msg : ChatRequestMessage} {messages : List ChatRequestMessage}
  {callsOf : String → List String} {items : List Json}

theorem messageInput_eq_ok_iff :
    messageInput packages msg = .ok items ↔
      ¬ Unreadable packages msg ∧ items = replayed packages msg ++ ownItems packages msg := by
  rcases hrole : msg.role
  case assistant =>
    rcases hitems : reasoningItems packages msg with e | replay
    · simp [messageInput, Unreadable, hrole, hitems, bind, Except.bind, Except.toOption]
    · simp [messageInput, Unreadable, replayed, ownItems, hrole, hitems, bind, Except.bind,
        Except.toOption, pure, Except.pure, eq_comm]
  case tool =>
    rcases hid : msg.toolCallId with _ | callId <;> rcases hc : msg.content with _ | content <;>
      simp [messageInput, Unreadable, replayed, ownItems, hrole, hid, hc, eq_comm]
  all_goals simp [messageInput, Unreadable, replayed, ownItems, hrole, eq_comm]

theorem messagesToResponsesInput_eq_ok_iff :
    messagesToResponsesInput packages messages = .ok items ↔
      (∀ msg ∈ messages, ¬ Unreadable packages msg) ∧
        items = messages.flatMap fun msg => replayed packages msg ++ ownItems packages msg := by
  have hmap : ∀ parts : List (List Json),
      messages.mapM (messageInput packages) = .ok parts ↔
        (∀ msg ∈ messages, ¬ Unreadable packages msg) ∧
          parts = messages.map fun msg => replayed packages msg ++ ownItems packages msg := by
    intro parts
    rw [Folds.mapM_eq_ok_iff]
    induction messages generalizing parts with
    | nil => simp
    | cons msg rest ih =>
      rw [List.forall₂_cons_left_iff]
      constructor
      · rintro ⟨part, parts, hpart, hparts, rfl⟩
        obtain ⟨hmsg, rfl⟩ := messageInput_eq_ok_iff.1 hpart
        obtain ⟨hrest, rfl⟩ := (ih parts).1 hparts
        exact ⟨by simpa using ⟨hmsg, hrest⟩, rfl⟩
      · rintro ⟨hall, rfl⟩
        rw [forall_mem_cons] at hall
        exact ⟨_, _, messageInput_eq_ok_iff.2 ⟨hall.1, rfl⟩, (ih _).2 ⟨hall.2, rfl⟩, rfl⟩
  rw [messagesToResponsesInput, Folds.bind_eq_ok]
  constructor
  · rintro ⟨parts, hparts, hitems⟩
    obtain ⟨hall, rfl⟩ := (hmap parts).1 hparts
    exact ⟨hall, (Except.ok.inj hitems).symm⟩
  · rintro ⟨hall, rfl⟩
    exact ⟨_, (hmap _).2 ⟨hall, rfl⟩, rfl⟩

theorem calls_message (role : String) (content : Json) :
    calls (responsesInputItemValue packages (.message role content)) = [] := rfl

theorem calls_output (callId output : String) (caller : Option String) :
    calls (responsesInputItemValue packages (.functionCallOutput callId output caller)) = [] := rfl

theorem answers_message (known : List String) (role : String) (content : Json) :
    Answers known (responsesInputItemValue packages (.message role content)) := by
  intro h
  exact absurd (Option.some.inj h) (by decide)

theorem isOutput_output (callId output : String) (caller : Option String) :
    IsOutput (responsesInputItemValue packages (.functionCallOutput callId output caller)) := rfl

variable {known : List String}

theorem answers_output {callId output : String} {caller : Option String} :
    Answers known (responsesInputItemValue packages (.functionCallOutput callId output caller)) ↔
      callId ∈ known := by
  constructor
  · intro h
    obtain ⟨id, hid, heq⟩ := h (isOutput_output callId output caller)
    rwa [show callId = id from Option.some.inj heq]
  · intro h _
    exact ⟨callId, h, rfl⟩

theorem calls_ownItems : (ownItems packages msg).flatMap calls = [] := by
  rcases hrole : msg.role
  case tool =>
    rcases hid : msg.toolCallId with _ | callId <;> rcases hc : msg.content with _ | content <;>
      simp [ownItems, hrole, hid, hc, calls_output]
  case system => rcases hc : msg.content with _ | content <;> simp [ownItems, hrole, hc, calls_message]
  case other name => simp [ownItems, hrole]
  all_goals
    simp only [ownItems, hrole, contentItems]
    split_ifs <;> simp [calls_message]

/-- The items of the adapter's own are fine exactly when the call that the message answers is
known. -/
theorem scoped_ownItems :
    Scoped calls Answers known (ownItems packages msg) ↔
      ∀ callId, answeredCall msg = some callId → callId ∈ known := by
  rcases hrole : msg.role
  case tool =>
    rcases hid : msg.toolCallId with _ | callId <;> rcases hc : msg.content with _ | content <;>
      simp [ownItems, answeredCall, hrole, hid, hc, scoped_cons, answers_output]
  case system =>
    rcases hc : msg.content with _ | content <;>
      simp [ownItems, answeredCall, hrole, hc, scoped_cons, answers_message]
  case other name => simp [ownItems, answeredCall, hrole]
  all_goals
    simp only [ownItems, answeredCall, hrole, contentItems]
    split_ifs <;> simp_all [scoped_cons, answers_message]

theorem calls_items :
    (messages.flatMap fun msg => replayed packages msg ++ ownItems packages msg).flatMap calls =
      (messages.flatMap (replayed packages)).flatMap calls := by
  simp only [flatMap_assoc, flatMap_append, calls_ownItems, append_nil]

theorem replayed_of_answeredCall {callId : String} (h : answeredCall msg = some callId) :
    replayed packages msg = [] := by
  have hrole : msg.role = .tool := by
    by_contra hne
    simp [answeredCall, hne] at h
  simp [replayed, hrole]

/-- The items of messages are fine exactly when the replayed ones are and every tool message answers
a call that is known or was replayed before it. -/
theorem scoped_items :
    Scoped calls Answers known
        (messages.flatMap fun msg => replayed packages msg ++ ownItems packages msg) ↔
      Scoped calls Answers known (messages.flatMap (replayed packages)) ∧
        ∀ before msg after, messages = before ++ msg :: after →
          ∀ callId, answeredCall msg = some callId →
            callId ∈ known ++ (before.flatMap (replayed packages)).flatMap calls := by
  simp only [scoped_flatMap, calls_items, scoped_append, scoped_ownItems]
  constructor
  · intro h
    refine ⟨fun before msg after heq => (h before msg after heq).1, ?_⟩
    intro before msg after heq callId hanswered
    simpa [replayed_of_answeredCall hanswered] using (h before msg after heq).2 callId hanswered
  · rintro ⟨hreplayed, htool⟩ before msg after heq
    refine ⟨hreplayed before msg after heq, fun callId hanswered => ?_⟩
    exact mem_append_left _ (htool before msg after heq callId hanswered)

/-! ### Chained requests -/

theorem mem_chainInputMessages {lastAssistant : ℕ}
    (h : rposition (fun msg => msg.role = .assistant) messages = some lastAssistant) :
    msg ∈ chainInputMessages messages ↔
      ∃ i, messages[i]? = some msg ∧ ((lastAssistant < i ∧ msg.role ≠ .system) ∨
        rposition (fun msg => msg.role = .system) messages = some i) := by
  simp only [chainInputMessages, h, mem_map, mem_filter, Prod.exists,
    List.mem_zipIdx_iff_getElem?]
  constructor
  · rintro ⟨_, i, ⟨hi, hkept⟩, rfl⟩
    refine ⟨i, hi, ?_⟩
    rcases (Bool.or_eq_true _ _).mp hkept with htail | hsystem
    · exact Or.inl (by simpa using htail)
    · exact Or.inr (of_decide_eq_true hsystem).symm
  · rintro ⟨i, hi, htail | hsystem⟩
    · exact ⟨msg, i, ⟨hi, by simp [htail]⟩, rfl⟩
    · exact ⟨msg, i, ⟨hi, by simp [hsystem]⟩, rfl⟩

theorem ne_assistant_of_lt {lastAssistant i : ℕ}
    (h : rposition (fun msg => msg.role = .assistant) messages = some lastAssistant)
    (hi : lastAssistant < i) : ∀ later ∈ messages.drop i, later.role ≠ .assistant := by
  obtain ⟨_, _, _, hafter⟩ := rposition_eq_some h
  intro later hlater
  have : later ∈ messages.drop (lastAssistant + 1) := by
    rw [show i = (lastAssistant + 1) + (i - (lastAssistant + 1)) by omega, ← List.drop_drop]
      at hlater
    exact mem_of_mem_drop hlater
  simpa using hafter later this

theorem chainInputMessages_ne_assistant (h : msg ∈ chainInputMessages messages) :
    msg.role ≠ .assistant := by
  rcases hlast : rposition (fun msg => msg.role = .assistant) messages with _ | lastAssistant
  · have : msg ∈ messages := by simpa [chainInputMessages, hlast] using h
    simpa using rposition_eq_none_iff.1 hlast msg this
  · obtain ⟨i, hi, ⟨hlt, -⟩ | hsystem⟩ := (mem_chainInputMessages hlast).1 h
    · refine ne_assistant_of_lt hlast hlt msg ?_
      exact mem_of_getElem? (by simpa using hi : (messages.drop i)[0]? = some msg)
    · obtain ⟨m, hm, hrole, -⟩ := rposition_eq_some hsystem
      rw [hi, Option.some.injEq] at hm
      subst hm
      simp_all

theorem mem_chainInputMessages_iff_of_answeredCall {callId : String}
    (h : answeredCall msg = some callId) :
    msg ∈ chainInputMessages messages ↔
      ∃ i, messages[i]? = some msg ∧ ∀ later ∈ messages.drop i, later.role ≠ .assistant := by
  have hrole : msg.role ≠ .system := by
    intro hsystem
    simp [answeredCall, hsystem] at h
  rcases hlast : rposition (fun msg => msg.role = .assistant) messages with _ | lastAssistant
  · have hnone : ∀ later ∈ messages, later.role ≠ .assistant := by
      simpa using rposition_eq_none_iff.1 hlast
    rw [show chainInputMessages messages = messages by simp [chainInputMessages, hlast],
      mem_iff_getElem?]
    refine exists_congr fun i => ?_
    exact (and_iff_left fun later hlater => hnone later (mem_of_mem_drop hlater)).symm
  · rw [mem_chainInputMessages hlast]
    refine exists_congr fun i => and_congr_right fun hi => ?_
    constructor
    · rintro (⟨hlt, -⟩ | hsystem)
      · exact ne_assistant_of_lt hlast hlt
      · obtain ⟨m, hm, hm', -⟩ := rposition_eq_some hsystem
        rw [hi, Option.some.injEq] at hm
        subst hm
        exact absurd (by simpa using hm') hrole
    · intro hlater
      refine Or.inl ⟨?_, hrole⟩
      by_contra hle
      obtain ⟨m, hm, hm', -⟩ := rposition_eq_some hlast
      refine hlater m ?_ (by simpa using hm')
      refine mem_of_getElem? (i := lastAssistant - i) ?_
      rw [List.getElem?_drop, show i + (lastAssistant - i) = lastAssistant by omega]
      exact hm

/-! ### When inputs are self-consistent -/

theorem replayed_of_ne_assistant (h : msg.role ≠ .assistant) : replayed packages msg = [] := by
  simp [replayed, h]

theorem itemsOf_input (items : List Json) :
    itemsOf (if items.isEmpty then .string "" else .array items) = items := by
  rcases items with _ | ⟨item, items⟩ <;> rfl

variable {previousResponseId : Option String}

theorem isSome_of_answered
    (h : Scoped calls Answers (previousCalls callsOf previousResponseId) items) (hne : items ≠ [])
    (hout : ∀ item ∈ items, IsOutput item) : previousResponseId.isSome = true := by
  obtain ⟨item, rest, rfl⟩ := exists_cons_of_ne_nil hne
  obtain ⟨callId, hmem, -⟩ := (scoped_cons.1 h).1 (hout item (by simp))
  rcases previousResponseId with _ | responseId
  · simp [previousCalls] at hmem
  · rfl

theorem selfConsistent_results_iff {toolResults : List ToolResultItem} (hne : toolResults ≠ [])
    :
    (∀ input, buildResponsesInput packages toolResults messages previousResponseId =
        .ok (some input) →
      SelfConsistent callsOf toolResults messages previousResponseId input) ↔
      ∃ responseId, previousResponseId = some responseId ∧
        ∀ result ∈ toolResults, result.callId ∈ callsOf responseId := by
  set items := toolResults.map fun result => responsesInputItemValue packages
    (.functionCallOutput result.callId result.output result.caller) with hitems
  have hbuild : buildResponsesInput packages toolResults messages previousResponseId =
      .ok (some (.array items)) := by
    simp [buildResponsesInput, hne, hitems]
  have hscoped : ∀ known, Scoped calls Answers known items ↔
      ∀ result ∈ toolResults, result.callId ∈ known := by
    intro known
    rw [scoped_iff_forall (by simp [hitems, calls_output])]
    simp [hitems, answers_output]
  constructor
  · intro h
    have hanswered := (hscoped _).1 (h _ hbuild).answered
    rcases previousResponseId with _ | responseId
    · obtain ⟨result, rest, rfl⟩ := exists_cons_of_ne_nil hne
      simpa [previousCalls] using hanswered result (by simp)
    · exact ⟨responseId, rfl, hanswered⟩
  · rintro ⟨responseId, rfl, hcalls⟩ input hinput
    rw [hbuild, Except.ok.injEq, Option.some.injEq] at hinput
    subst hinput
    have hanswered : Scoped calls Answers (previousCalls callsOf (some responseId))
        (itemsOf (.array items)) := (hscoped _).2 hcalls
    exact ⟨fun hnil => absurd hnil hne, hanswered, fun _ _ => rfl⟩

theorem buildResponsesInput_messages_eq_ok_iff {input : Json} :
    buildResponsesInput packages [] messages previousResponseId = .ok (some input) ↔
      ∃ items, messagesToResponsesInput packages (sentMessages messages previousResponseId) =
        .ok items ∧ input = if items.isEmpty then .string "" else .array items := by
  rw [buildResponsesInput, if_pos isEmpty_nil, Folds.bind_eq_ok]
  refine exists_congr fun items => and_congr_right fun _ => ?_
  simp only [pure, Except.pure, Except.ok.injEq, Option.some.injEq, eq_comm]

/-- The input of messages is self-consistent exactly when their calls are replayed and the outputs
have their calls. -/
theorem selfConsistent_messages_iff :
    (∀ input, buildResponsesInput packages [] messages previousResponseId = .ok (some input) →
      SelfConsistent callsOf [] messages previousResponseId input) ↔
      (∃ msg ∈ sentMessages messages previousResponseId, Unreadable packages msg) ∨
      ((∀ msg ∈ sentMessages messages previousResponseId, msg.role = .assistant →
        ∀ call ∈ assistantCalls msg, call.id ∈
          ((sentMessages messages previousResponseId).flatMap (replayed packages)).flatMap calls) ∧
      Scoped calls Answers (previousCalls callsOf previousResponseId)
        ((sentMessages messages previousResponseId).flatMap fun msg =>
          replayed packages msg ++ ownItems packages msg)) := by
  set sent := sentMessages messages previousResponseId with hsent
  by_cases hread : ∃ msg ∈ sent, Unreadable packages msg
  · refine iff_of_true (fun input hinput => ?_) (Or.inl hread)
    obtain ⟨items, hitems, -⟩ := buildResponsesInput_messages_eq_ok_iff.1 hinput
    obtain ⟨msg, hmsg, hun⟩ := hread
    exact absurd hun ((messagesToResponsesInput_eq_ok_iff.1 hitems).1 msg hmsg)
  · rw [or_iff_right hread]
    push Not at hread
    constructor
    · intro h
      have hself := h _ (buildResponsesInput_messages_eq_ok_iff.2
        ⟨_, messagesToResponsesInput_eq_ok_iff.2 ⟨hread, rfl⟩, rfl⟩)
      refine ⟨fun msg hmsg hrole call hcall => ?_, ?_⟩
      · simpa only [itemsOf_input, calls_items] using
          hself.complete rfl msg hmsg hrole call hcall
      · simpa only [itemsOf_input] using hself.answered
    · rintro ⟨hcalls, hscoped⟩ input hinput
      obtain ⟨items, hitems, rfl⟩ := buildResponsesInput_messages_eq_ok_iff.1 hinput
      obtain ⟨-, rfl⟩ := messagesToResponsesInput_eq_ok_iff.1 hitems
      refine ⟨fun _ msg hmsg hrole call hcall => ?_, ?_, ?_⟩
      · rw [itemsOf_input, calls_items]
        exact hcalls msg hmsg hrole call hcall
      · rw [itemsOf_input]
        exact hscoped
      · rw [itemsOf_input]
        exact isSome_of_answered hscoped

/-- In a chained request only the tool messages matter. -/
theorem selfConsistent_chained_iff {responseId : String} :
    (∀ input, buildResponsesInput packages [] messages (some responseId) = .ok (some input) →
      SelfConsistent callsOf [] messages (some responseId) input) ↔
      ∀ i msg, messages[i]? = some msg → (∀ later ∈ messages.drop i, later.role ≠ .assistant) →
        ∀ callId, answeredCall msg = some callId → callId ∈ callsOf responseId := by
  have hsent : sentMessages messages (some responseId) = chainInputMessages messages := rfl
  have hreplayed : ∀ l : List ChatRequestMessage, l ⊆ chainInputMessages messages →
      l.flatMap (replayed packages) = [] := fun l hl => flatMap_eq_nil_iff.2 fun msg hmsg =>
    replayed_of_ne_assistant (chainInputMessages_ne_assistant (hl hmsg))
  rw [selfConsistent_messages_iff, hsent, or_iff_right, scoped_items, hreplayed _ (List.Subset.refl _)]
  · constructor
    · rintro ⟨-, -, htool⟩ i msg hi hlater callId hanswered
      have hmem := (mem_chainInputMessages_iff_of_answeredCall hanswered).2 ⟨i, hi, hlater⟩
      obtain ⟨before, after, heq⟩ := append_of_mem hmem
      have hnil := hreplayed before fun m hm => heq ▸ mem_append_left _ hm
      simpa [hnil, previousCalls] using htool before msg after heq callId hanswered
    · intro h
      refine ⟨fun msg hmsg hrole => absurd hrole (chainInputMessages_ne_assistant hmsg),
        scoped_nil _, fun before msg after heq callId hanswered => mem_append_left _ ?_⟩
      have hmem : msg ∈ chainInputMessages messages := by simp [heq]
      obtain ⟨i, hi, hlater⟩ := (mem_chainInputMessages_iff_of_answeredCall hanswered).1 hmem
      exact h i msg hi hlater callId hanswered
  · rintro ⟨msg, hmsg, hun⟩
    exact chainInputMessages_ne_assistant hmsg hun.1

/-- Every input that is built is self-consistent exactly when the request is traceable. -/
theorem selfConsistent_iff_traceable (packages : InputPackages) (callsOf : String → List String)
    (toolResults : List ToolResultItem) (messages : List ChatRequestMessage)
    (previousResponseId : Option String) :
    (∀ input, buildResponsesInput packages toolResults messages previousResponseId =
        .ok (some input) →
      SelfConsistent callsOf toolResults messages previousResponseId input) ↔
      Traceable packages callsOf toolResults messages previousResponseId := by
  by_cases hne : toolResults = []
  · subst hne
    rcases previousResponseId with _ | responseId
    · rw [selfConsistent_messages_iff]
      constructor
      · intro h
        refine ⟨fun hne => absurd rfl hne, fun _ _ hsome => by simp at hsome, fun _ _ => ?_⟩
        refine h.imp_right fun ⟨hcalls, hscoped⟩ => ?_
        obtain ⟨hartifact, htool⟩ := scoped_items.1 hscoped
        exact ⟨hcalls, htool, hartifact⟩
      · intro h
        refine (h.whole rfl rfl).imp_right fun hreplays => ?_
        exact ⟨hreplays.assistant, scoped_items.2 ⟨hreplays.artifact, hreplays.tool⟩⟩
    · rw [selfConsistent_chained_iff]
      constructor
      · intro h
        refine ⟨fun hne => absurd rfl hne, ?_, fun _ hnone => by simp at hnone⟩
        rintro - _ ⟨⟩
        exact h
      · intro h
        exact h.chained rfl responseId rfl
  · rw [selfConsistent_results_iff hne]
    exact ⟨fun h => ⟨fun _ => h, fun hnil => absurd hnil hne, fun hnil => absurd hnil hne⟩,
      fun h => h.results hne⟩

namespace Sample

/-- Packages without artifacts. -/
def inputPackages : InputPackages where
  itemsFromSlice := fun _ => .ok []
  base64Encode := fun _ => ""
  callerToValue := .string

/-- A turn with a tool call and its result, and the next user message. -/
def calledHistory : List ChatRequestMessage :=
  [.simple .user "What is the time?",
    { role := .assistant, toolCalls := some [⟨"call_1", "function", "clock", "\x7b\x7d"⟩] },
    { role := .tool, content := some "noon", toolCallId := some "call_1" },
    .simple .user "Thanks"]

/-- A whole history with a tool call is sent without the call, and tool results are sent without a
previous response. -/
theorem not_selfConsistent_calledHistory :
    ¬ (∀ input, buildResponsesInput inputPackages [] calledHistory none = .ok (some input) →
      SelfConsistent (fun _ => []) [] calledHistory none input) ∧
    ¬ (∀ input, buildResponsesInput inputPackages [⟨"call_1", "noon", none⟩] [] none =
        .ok (some input) →
      SelfConsistent (fun _ => []) [⟨"call_1", "noon", none⟩] [] none input) := by
  constructor
  · intro h
    have hmem := (h _ rfl).complete rfl _ (mem_cons_of_mem _ mem_cons_self) rfl
      ⟨"call_1", "function", "clock", "\x7b\x7d"⟩ (mem_singleton.2 rfl)
    exact absurd hmem not_mem_nil
  · intro h
    have hsome := (h _ rfl).continued (cons_ne_nil _ _)
      fun item hitem => (mem_singleton.1 hitem) ▸ rfl
    exact absurd hsome (by decide)

end Sample

end Responses

end Choreo
