import Choreo.Provider
import Choreo.Library.TreeMap

/-!
# Session state

The state of a session thread and of the private copy its request worker runs on
(`SessionConfig`, `SessionState` and `SessionSnapshot` of `choreo-daemon/src/sessions.rs`), with
the operations both of them use: starting a turn, recording a response, seeding and filling tool
results, undo and redo, and the snapshot that hands the state to a worker and back.
-/

namespace Choreo

open List Option

/-- A skill found in the working directory. -/
structure SkillMeta where
  name : String
  description : String
deriving DecidableEq, Repr

/-- A skill whose body was loaded into the session. -/
structure LoadedSkill where
  name : String
  body : String
deriving DecidableEq, Repr

structure SessionConfig where
  title : Option String := none
  selectedModel : Option String := none
  reasoningEffort : Option String := none
  parentSessionId : Option ℕ := none
  workingDir : Option PathBuf := none
  createdAt : ℤ := 0
  lastModified : ℤ := 0
  status : SessionStatus := .inactive
  activeToolGroups : Std.ExtTreeSet String := ∅
  contextConfig : ContextConfig := {}
  accountName : Option String := none
  accumulatedUsage : TokenUsage := {}
  contextWindow : Option UInt32 := none
  lastPromptTokens : Option UInt32 := none
  lastResponseId : Option String := none
  lastResponseIdProducer : Option ReasoningProducer := none
deriving DecidableEq

/-- Copies the fields a worker owns back from its snapshot; all other fields keep their value. -/
def SessionConfig.applyWorkerSnapshot (config snapshot : SessionConfig) : SessionConfig :=
  { config with
    accumulatedUsage := snapshot.accumulatedUsage
    contextWindow := snapshot.contextWindow
    lastPromptTokens := snapshot.lastPromptTokens
    lastResponseId := snapshot.lastResponseId
    lastResponseIdProducer := snapshot.lastResponseIdProducer }

/-- The metadata of a configuration; the number of turns is filled in by the caller. -/
def SessionConfig.toMetadata (config : SessionConfig) : SessionMetadata where
  title := config.title
  selectedModel := config.selectedModel
  reasoningEffort := config.reasoningEffort
  parentSessionId := config.parentSessionId
  workingDir := config.workingDir.map PathBuf.display
  createdAt := config.createdAt
  lastModified := config.lastModified
  turnCount := 0
  status := config.status
  activeToolGroups := config.activeToolGroups.toList
  accountName := config.accountName
  accumulatedUsage := config.accumulatedUsage
  contextWindow := config.contextWindow
  lastPromptTokens := config.lastPromptTokens

/-- What a worker starts from and what it hands back. -/
structure SessionSnapshot where
  config : SessionConfig
  turns : TurnMap
  loadedSkillBodies : List LoadedSkill
  contextCache : Option (ℕ × String)
  discoveredSkills : Option (List SkillMeta)
deriving DecidableEq

/-- A request in flight: how many messages its cancel channel has carried, and the turn id it was
announced with. -/
structure ActiveRequest where
  cancelsSent : ℕ
  turnId : ℕ
deriving DecidableEq, Repr

/-- The state of a session thread, or of the private copy of a worker. -/
structure SessionState where
  config : SessionConfig := {}
  nextTurnId : ℕ := 0
  lastUndoTurnIds : Option (List ℕ) := none
  turns : TurnMap := ∅
  subscribers : Std.ExtTreeSet ℕ := ∅
  activeRequests : Std.ExtTreeMap ℕ ActiveRequest := ∅
  provider : Option InferenceProvider := none
  loadedSkillBodies : List LoadedSkill := []
  contextCache : Option (ℕ × String) := none
  discoveredSkills : Option (List SkillMeta) := none
deriving DecidableEq

/-- The assistant response that the agent loop records on a turn. -/
structure AssistantResponse where
  text : Option String := none
  reasoning : Option String := none
  toolCalls : List AssistantToolCallRecord := []
  tokenUsage : Option TokenUsage := none
  reasoningArtifact : Option ReasoningArtifact := none
  reasoningProducer : Option ReasoningProducer := none
deriving DecidableEq, Repr

/-- The outcome of a tool, as the agent loop records it; `resultPath` is the path in the structured
result of `set_working_dir`, the only part of it that the agent loop reads. -/
structure ToolOutput where
  content : String := ""
  isError : Bool := false
  invocationDescription : String := ""
  imageRef : Option ImageReference := none
  resultPath : Option String := none
deriving DecidableEq, Repr

namespace SessionState

/-! ### Snapshots -/

variable (state : SessionState)

/-- The snapshot that is handed to a worker, and by the worker back to the session thread. -/
def snapshot : SessionSnapshot where
  config := state.config
  turns := state.turns
  loadedSkillBodies := state.loadedSkillBodies
  contextCache := state.contextCache
  discoveredSkills := state.discoveredSkills

/-- The private state of a worker: the next turn id is the number of turns of the snapshot. -/
def fromSnapshot (snapshot : SessionSnapshot) (subscribers : Std.ExtTreeSet ℕ) : SessionState where
  config := snapshot.config
  nextTurnId := snapshot.turns.size
  lastUndoTurnIds := none
  turns := snapshot.turns
  subscribers := subscribers
  activeRequests := ∅
  provider := none
  loadedSkillBodies := snapshot.loadedSkillBodies
  contextCache := snapshot.contextCache
  discoveredSkills := snapshot.discoveredSkills

def toMetadata : SessionMetadata :=
  { state.config.toMetadata with turnCount := state.turns.size }

def toRecord : SessionRecord :=
  { state.toMetadata.toRecord with
    contextConfig := state.config.contextConfig
    lastResponseId := state.config.lastResponseId
    lastResponseIdProducer := state.config.lastResponseIdProducer }

/-! ### Turns -/

variable (turnId : ℕ)

/-- Changes the turn with the given id, if there is one. -/
def modifyTurn (f : Turn → Turn) : SessionState :=
  { state with turns := state.turns.modify turnId f }

variable (now : ℤ)

/-- Starts a new turn and returns its id. A turn with user text drops the redo opportunity. -/
def startTurn (userText : Option String) : ℕ × SessionState :=
  let turn : Turn := { createdAt := now, userText := userText }
  (state.nextTurnId,
    { state with
      lastUndoTurnIds := if userText.isSome then none else state.lastUndoTurnIds
      nextTurnId := state.nextTurnId + 1
      turns := state.turns.insert state.nextTurnId turn })

def setAssistantResponse (response : AssistantResponse) :
    SessionState :=
  state.modifyTurn turnId fun turn =>
    { turn with
      assistantText := response.text
      assistantReasoning := response.reasoning
      toolCalls := response.toolCalls
      tokenUsage := response.tokenUsage
      reasoningArtifact := response.reasoningArtifact
      reasoningProducer := response.reasoningProducer }

/-- The placeholder of a tool call whose result is not known yet. -/
def placeholder (call : AssistantToolCallRecord) (description : String) : ToolResultRecord where
  callId := call.callId
  name := call.name
  content := ""
  isError := false
  invocationDescription := description
  image := none

/-- Seeds one placeholder per tool call, in call order. -/
def seedToolResults (toolCalls : List AssistantToolCallRecord)
    (invocationDescriptions : List String) : SessionState :=
  state.modifyTurn turnId fun turn =>
    { turn with toolResults := List.zipWith placeholder toolCalls invocationDescriptions }

/-- Applies a function to the first element that satisfies a predicate. -/
def modifyFirst {α : Type*} (p : α → Bool) (f : α → α) : List α → List α
  | [] => []
  | a :: as => if p a then f a :: as else a :: modifyFirst p f as

/-- Fills the first result of the turn whose call id matches. -/
def updateToolResult (callId name : String)
    (output : ToolOutput) : SessionState :=
  state.modifyTurn turnId fun turn =>
    { turn with
      toolResults := modifyFirst (fun record => record.callId == callId)
        (fun record =>
          { record with
            name := name
            content := output.content
            isError := output.isError
            invocationDescription := output.invocationDescription
            image := output.imageRef }) turn.toolResults }

/-- Marks the results of the calls whose outcome was never recorded. -/
def markUnexecutedToolResults
    (executed : Std.ExtTreeSet String) : SessionState :=
  state.modifyTurn turnId fun turn =>
    { turn with
      toolResults := turn.toolResults.map fun record =>
        if executed.contains record.callId then record
        else
          { record with
            content := "[cancelled — result not recorded]"
            isError := true } }

def addDisplayedImage (record : DisplayedImageRecord) :
    SessionState :=
  state.modifyTurn turnId fun turn =>
    { turn with displayedImages := turn.displayedImages ++ [record] }

def setTurnError (error : String) : SessionState :=
  state.modifyTurn turnId fun turn => { turn with error := some error }

/-! ### Undo and redo -/

def setUndone (flag : Bool) (ids : List ℕ) (turns : TurnMap) : TurnMap :=
  ids.foldl (fun m id => m.modify id (Turn.setUndone flag)) turns

def undoTarget (turns : TurnMap) : Option ℕ :=
  (turns.toList.reverse.find? fun p => !p.2.undone && p.2.userText.isSome).map Prod.fst

/-- Undoes the most recent user turn and everything after it; the ids are kept for a redo. -/
def undoTurns : Option (List ℕ × SessionState) :=
  (undoTarget state.turns).map fun target =>
    let toUndo := state.turns.keys.filter fun id => target ≤ id
    (toUndo,
      { state with
        turns := setUndone true toUndo state.turns
        lastUndoTurnIds := some toUndo })

def restrict (ids : List ℕ) (turns : TurnMap) : TurnMap :=
  turns.filter fun id _ => ids.contains id

/-- Takes back the last undo, and returns the turns that came back. -/
def redoTurns : Option (TurnMap × SessionState) :=
  state.lastUndoTurnIds.map fun ids =>
    let turns := setUndone false ids state.turns
    (restrict ids turns, { state with turns := turns, lastUndoTurnIds := none })

/-! ### What the operations change -/

@[simp]
theorem snapshot_config : state.snapshot.config = state.config := rfl

@[simp]
theorem snapshot_turns : state.snapshot.turns = state.turns := rfl

variable (snap : SessionSnapshot)

@[simp]
theorem fromSnapshot_config (subs : Std.ExtTreeSet ℕ) :
    (fromSnapshot snap subs).config = snap.config := rfl

@[simp]
theorem fromSnapshot_turns (subs : Std.ExtTreeSet ℕ) :
    (fromSnapshot snap subs).turns = snap.turns := rfl

@[simp]
theorem fromSnapshot_nextTurnId (subs : Std.ExtTreeSet ℕ) :
    (fromSnapshot snap subs).nextTurnId = snap.turns.size := rfl

@[simp]
theorem modifyTurn_config (f : Turn → Turn) :
    (state.modifyTurn turnId f).config = state.config := rfl

@[simp]
theorem modifyTurn_nextTurnId (f : Turn → Turn) :
    (state.modifyTurn turnId f).nextTurnId = state.nextTurnId := rfl

/-- A change of one turn leaves all other turns alone. -/
theorem get_modifyTurn (turnId k : ℕ) (f : Turn → Turn) :
    (state.modifyTurn turnId f).turns[k]? =
      if k = turnId then state.turns[k]?.map f else state.turns[k]? :=
  Std.ExtTreeMap.get_modify state.turns turnId k f

@[simp]
theorem startTurn_fst (userText : Option String) :
    (state.startTurn now userText).1 = state.nextTurnId := rfl

@[simp]
theorem startTurn_config (userText : Option String) :
    (state.startTurn now userText).2.config = state.config := rfl

@[simp]
theorem startTurn_nextTurnId (userText : Option String) :
    (state.startTurn now userText).2.nextTurnId = state.nextTurnId + 1 := rfl

theorem get_startTurn (userText : Option String) (k : ℕ) :
    (state.startTurn now userText).2.turns[k]? =
      if k = state.nextTurnId then some { createdAt := now, userText := userText }
      else state.turns[k]? :=
  Std.ExtTreeMap.get_insert state.turns state.nextTurnId k _

theorem get_setUndone (flag : Bool) (ids : List ℕ) (turns : TurnMap) (k : ℕ) :
    (setUndone flag ids turns)[k]? =
      if k ∈ ids then turns[k]?.map (Turn.setUndone flag) else turns[k]? := by
  unfold setUndone
  induction ids generalizing turns with
  | nil => simp only [foldl_nil, not_mem_nil, if_false]
  | cons id ids ih =>
    rw [foldl_cons, ih, Std.ExtTreeMap.get_modify]
    by_cases hid : k = id
    · subst hid
      simp only [if_true, mem_cons, true_or, Option.map_map, Function.comp_def,
        Turn.setUndone_setUndone, ite_self]
    · simp only [hid, if_false, mem_cons, false_or]

theorem isSome_setUndone (flag : Bool) (ids : List ℕ) (turns : TurnMap) (k : ℕ) :
    (setUndone flag ids turns)[k]?.isSome = turns[k]?.isSome := by
  rw [get_setUndone]
  split_ifs
  · rw [isSome_map]
  · rfl

/-- An undo marks the turns whose ids it returns, which are all turns of the session, and keeps
them for a redo; nothing else changes. -/
theorem undoTurns_spec {state state' : SessionState} {ids : List ℕ}
    (h : state.undoTurns = some (ids, state')) :
    (∀ id ∈ ids, state.turns[id]?.isSome) ∧
      state' = { state with
        turns := setUndone true ids state.turns
        lastUndoTurnIds := some ids } := by
  unfold undoTurns at h
  rw [map_eq_some_iff] at h
  obtain ⟨target, -, heq⟩ := h
  simp only [Prod.mk.injEq] at heq
  obtain ⟨rfl, rfl⟩ := heq
  refine ⟨fun id hid => ?_, rfl⟩
  rw [mem_filter, Std.ExtTreeMap.mem_keys] at hid
  exact Std.ExtTreeMap.isSome_getElem?_iff_mem.2 hid.1

theorem redoTurns_spec {state state' : SessionState} {restored : TurnMap}
    (h : state.redoTurns = some (restored, state')) :
    ∃ ids, state.lastUndoTurnIds = some ids ∧
      restored = restrict ids (setUndone false ids state.turns) ∧
      state' = { state with
        turns := setUndone false ids state.turns
        lastUndoTurnIds := none } := by
  unfold redoTurns at h
  rw [map_eq_some_iff] at h
  obtain ⟨ids, hids, heq⟩ := h
  simp only [Prod.mk.injEq] at heq
  obtain ⟨rfl, rfl⟩ := heq
  exact ⟨ids, hids, rfl, rfl⟩

theorem get_restrict (ids : List ℕ) (turns : TurnMap) (k : ℕ) :
    (restrict ids turns)[k]? = if k ∈ ids then turns[k]? else none := by
  unfold restrict
  rw [Std.ExtTreeMap.getElem?_filter']
  by_cases hk : k ∈ ids
  · simp only [contains_iff_mem.2 hk, hk, if_true]
    cases turns[k]? <;> rfl
  · have hc : ids.contains k = false := by
      rw [Bool.eq_false_iff, ne_eq, contains_iff_mem]
      exact hk
    simp only [hc, hk, if_false]
    cases turns[k]? <;> rfl

end SessionState

end Choreo
