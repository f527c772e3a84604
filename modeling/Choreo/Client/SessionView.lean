import Choreo.Library.TreeMap
import Choreo.Tools.Sanitize

/-!
# A client's view of a session

The turns of a session as a client knows them (`choreo-client-core/src/history.rs`): whole turns
replace what was known, and the chunks of a running request are appended to the turn that the
request was announced with.
-/

namespace Choreo

/-- Appends a chunk up to the most bytes of a tool's output, with one marker where it was cut. -/
def pushCapped (content data : String) : String :=
  if maxToolOutputBytes ≤ content.utf8ByteSize then
    if content.utf8ByteSize = maxToolOutputBytes ∧ data ≠ "" then
      content ++ String.ofList truncationSuffix
    else content
  else
    let remaining := maxToolOutputBytes - content.utf8ByteSize
    if data.utf8ByteSize ≤ remaining then content ++ data
    else content ++ String.ofList (Utf8.floorPrefix remaining data.toList ++ truncationSuffix)

/-- The turns of a session by id, the turn of each running request, and the descriptions of the
tool calls that were started. -/
structure SessionView where
  turns : TurnMap := ∅
  requestToTurn : Std.ExtTreeMap ℕ ℕ := ∅
  toolCallDescriptions : Std.ExtTreeMap String String := ∅

/-- What a chunk leaves of a turn as it is. -/
def Turn.frame (turn : Turn) : Bool × Option String × List DisplayedImageRecord :=
  (turn.undone, turn.userText, turn.displayedImages)

namespace SessionView

variable (view : SessionView)

def forgetCalls (calls : List AssistantToolCallRecord) : SessionView :=
  { view with
    toolCallDescriptions := calls.foldl (fun m call => m.erase call.callId)
      view.toolCallDescriptions }

/-- A whole turn replaces what was known of it. -/
def insertOrReplace (turnId : ℕ) (turn : Turn) : SessionView :=
  { view.forgetCalls turn.toolCalls with turns := view.turns.insert turnId turn }

def clearToolCallDescriptions (turnId : ℕ) : SessionView :=
  match view.turns[turnId]? with
  | none => view
  | some turn => view.forgetCalls turn.toolCalls

variable (requestId : ℕ)

def endRequest : SessionView :=
  let view :=
    match view.requestToTurn[requestId]? with
    | none => view
    | some turnId => view.clearToolCallDescriptions turnId
  { view with requestToTurn := view.requestToTurn.erase requestId }

/-- Changes the turn of a request, if there is one. -/
def modifyRequestTurn (f : Turn → Turn) : SessionView :=
  match view.requestToTurn[requestId]? with
  | none => view
  | some turnId => { view with turns := view.turns.modify turnId f }

def routes : Bool :=
  match view.requestToTurn[requestId]? with
  | none => false
  | some turnId => turnId ∈ view.turns

/-- Appends to a text that may not have begun. -/
def appendText (text : Option String) (data : String) : Option String :=
  some (match text with
    | none => data
    | some text => text ++ data)

def streamChunk (stream : OutputStream) (data : String) :
    SessionView :=
  view.modifyRequestTurn requestId fun turn =>
    match stream with
    | .reasoning => { turn with assistantReasoning := appendText turn.assistantReasoning data }
    | .answer => { turn with assistantText := appendText turn.assistantText data }

/-- Changes the first element that satisfies a predicate. -/
def modifyFirst {α : Type*} (p : α → Bool) (f : α → α) : List α → List α
  | [] => []
  | a :: as => if p a then f a :: as else a :: modifyFirst p f as

/-- Fills the name and the description of a tool result where they are empty. -/
def backfill (name description : String) (result : ToolResultRecord) : ToolResultRecord :=
  { result with
    name := if result.name = "" then name else result.name
    invocationDescription :=
      if result.invocationDescription = "" then description else result.invocationDescription }

/-- A tool call was started. -/
def toolCallStarted
    (callId name args description : String) : SessionView :=
  let view :=
    if view.routes requestId ∧ description ≠ "" then
      { view with toolCallDescriptions := view.toolCallDescriptions.insert callId description }
    else view
  view.modifyRequestTurn requestId fun turn =>
    { turn with
      toolResults := modifyFirst (·.callId == callId) (backfill name description) turn.toolResults
      toolCalls :=
        if turn.toolCalls.any (·.callId == callId) then turn.toolCalls
        else turn.toolCalls ++ [{ callId := callId, name := name, argumentsJson := args }] }

/-- A chunk of a tool's output, with a new result when there is none yet. -/
def toolResultChunk (callId data : String) : SessionView :=
  let description := view.toolCallDescriptions[callId]?
  view.modifyRequestTurn requestId fun turn =>
    { turn with
      toolResults :=
        if turn.toolResults.any (·.callId == callId) then
          modifyFirst (·.callId == callId)
            (fun result =>
              { result with
                invocationDescription :=
                  if result.invocationDescription = "" then description.getD ""
                  else result.invocationDescription
                content := pushCapped result.content data })
            turn.toolResults
        else
          turn.toolResults ++
            [{ callId := callId
               name := ((turn.toolCalls.find? (·.callId == callId)).map (·.name)).getD ""
               content := pushCapped "" data
               isError := false
               invocationDescription := description.getD ""
               image := none }] }

/-! ### What the operations change -/

/-- A chunk changes the turn of its request only. -/
theorem get_modifyRequestTurn (requestId id : ℕ) (f : Turn → Turn) :
    (view.modifyRequestTurn requestId f).turns[id]? =
      if view.requestToTurn[requestId]? = some id then view.turns[id]?.map f
      else view.turns[id]? := by
  rw [modifyRequestTurn]
  rcases hroute : view.requestToTurn[requestId]? with _ | turnId
  · rfl
  · simp only [Std.ExtTreeMap.get_modify, Option.some.injEq]
    by_cases h : id = turnId
    · rw [if_pos h, if_pos h.symm]
    · rw [if_neg h, if_neg (Ne.symm h)]

@[simp]
theorem modifyRequestTurn_requestToTurn (f : Turn → Turn) :
    (view.modifyRequestTurn requestId f).requestToTurn = view.requestToTurn := by
  rw [modifyRequestTurn]
  split <;> rfl

@[simp]
theorem endRequest_turns :
    (view.endRequest requestId).turns = view.turns := by
  simp only [endRequest, clearToolCallDescriptions]
  split
  · rfl
  · split <;> rfl

theorem get_insertOrReplace (turnId id : ℕ) (turn : Turn) :
    (view.insertOrReplace turnId turn).turns[id]? =
      if id = turnId then some turn else view.turns[id]? :=
  Std.ExtTreeMap.get_insert view.turns turnId id turn

/-- The turn of a request may have grown, the others are as they were. -/
def Chunked (view view' : SessionView) : Prop :=
  view'.requestToTurn = view.requestToTurn ∧
    ∀ id : ℕ, (view'.turns[id]?).map Turn.frame = (view.turns[id]?).map Turn.frame ∧
      (view.requestToTurn[requestId]? ≠ some id → view'.turns[id]? = view.turns[id]?)

theorem chunked_modifyRequestTurn {f : Turn → Turn}
    (hf : ∀ turn, (f turn).frame = turn.frame) :
    Chunked requestId view (view.modifyRequestTurn requestId f) := by
  refine ⟨view.modifyRequestTurn_requestToTurn requestId f, fun id => ⟨?_, fun hid => ?_⟩⟩
  · rw [get_modifyRequestTurn]
    split
    · rw [Option.map_map]
      exact congrArg (Option.map · _) (funext hf)
    · rfl
  · rw [get_modifyRequestTurn, if_neg hid]

theorem chunked_streamChunk (stream : OutputStream)
    (data : String) : Chunked requestId view (view.streamChunk requestId stream data) :=
  view.chunked_modifyRequestTurn requestId fun turn => by rcases stream <;> rfl

theorem chunked_toolCallStarted
    (callId name args description : String) :
    Chunked requestId view (view.toolCallStarted requestId callId name args description) := by
  rw [toolCallStarted]
  split
  · exact chunked_modifyRequestTurn { view with toolCallDescriptions := _ } requestId fun _ => rfl
  · exact chunked_modifyRequestTurn view requestId fun _ => rfl

theorem chunked_toolResultChunk (callId data : String) :
    Chunked requestId view (view.toolResultChunk requestId callId data) :=
  view.chunked_modifyRequestTurn requestId fun _ => rfl

end SessionView

end Choreo
