import Choreo.Agent.Worker
import Choreo.Session.Reports

/-!
# What a worker changes

A worker only changes the turns it started itself, and of the configuration only what it hands back.
The tool phases change less: the tool results and the displayed images of their turn. This file
states both, once for every step, together with what a worker may send to the session thread.
-/

namespace Choreo

open List Option

/-- A turn without what the tool phases record on it. -/
def Turn.sansTools (turn : Turn) : Turn := { turn with toolResults := [], displayedImages := [] }

/-- The fields of a configuration that a worker hands back. -/
def SessionConfig.owned (config : SessionConfig) : SessionConfig :=
  SessionConfig.applyWorkerSnapshot {} config

/-- Events that tell clients the status of the session. -/
def SessionEvent.isStatus : SessionEvent → Bool
  | .sessionStatusChanged .. => true
  | _ => false

/-- Commands that a worker sends before its outcome is known. It leaves the status to the session
thread. -/
def SessionCommand.isUpdate : SessionCommand → Bool
  | .broadcast event => event.isQuiet && !event.isStatus
  | .statusChanged .. => true
  | .syncAccumulatedUsage .. => true
  | _ => false

/-! ### The tool phases -/

/-- What the tool phases of the turn `t` leave alone: all other turns, everything but the tool
results and displayed images of the turn itself, the next turn id, and the fields of the
configuration that the worker hands back. -/
structure ToolFrame (t : ℕ) (s s' : SessionState) : Prop where
  others : ∀ k, k ≠ t → s'.turns[k]? = s.turns[k]?
  current : s'.turns[t]?.map Turn.sansTools = s.turns[t]?.map Turn.sansTools
  nextTurnId : s'.nextTurnId = s.nextTurnId
  owned : s'.config.owned = s.config.owned

namespace ToolFrame

variable {t : ℕ} {s s' s'' : SessionState}

theorem refl (t : ℕ) (s : SessionState) : ToolFrame t s s :=
  ⟨fun _ _ => rfl, rfl, rfl, rfl⟩

theorem trans (h : ToolFrame t s s') (h' : ToolFrame t s' s'') : ToolFrame t s s'' where
  others k hk := (h'.others k hk).trans (h.others k hk)
  current := h'.current.trans h.current
  nextTurnId := h'.nextTurnId.trans h.nextTurnId
  owned := h'.owned.trans h.owned

theorem modifyTurn (t : ℕ) (s : SessionState) (f : Turn → Turn)
    (hf : ∀ turn, (f turn).sansTools = turn.sansTools) : ToolFrame t s (s.modifyTurn t f) where
  others k hk := by rw [SessionState.get_modifyTurn, if_neg hk]
  current := by
    rw [SessionState.get_modifyTurn, if_pos rfl, Option.map_map]
    exact congrArg (fun g => s.turns[t]?.map g) (funext hf)
  nextTurnId := rfl
  owned := rfl

theorem addDisplayedImage (t : ℕ) (s : SessionState) (record : DisplayedImageRecord) :
    ToolFrame t s (s.addDisplayedImage t record) :=
  modifyTurn t s _ fun _ => rfl

theorem updateToolResult (t : ℕ) (s : SessionState) (callId name : String) (output : ToolOutput) :
    ToolFrame t s (s.updateToolResult t callId name output) :=
  modifyTurn t s _ fun _ => rfl

theorem markUnexecutedToolResults (t : ℕ) (s : SessionState) (executed : Std.ExtTreeSet String) :
    ToolFrame t s (s.markUnexecutedToolResults t executed) :=
  modifyTurn t s _ fun _ => rfl

theorem applyPendingConfigChange (t : ℕ) (env : ToolEnv) (s : SessionState)
    (change : PendingConfigChange) : ToolFrame t s (applyPendingConfigChange env s change) := by
  cases change <;> exact ⟨fun _ _ => rfl, rfl, rfl, rfl⟩

theorem foldl_applyPendingConfigChange (t : ℕ) (env : ToolEnv) (s : SessionState)
    (changes : List PendingConfigChange) :
    ToolFrame t s (changes.foldl (Choreo.applyPendingConfigChange env) s) := by
  induction changes generalizing s with
  | nil => exact refl t s
  | cons change changes ih => exact (applyPendingConfigChange t env s change).trans (ih _)

theorem persistLoadedSkill (t : ℕ) (files : ToolFiles) (s : SessionState) (call : ChatToolCall) :
    ToolFrame t s (persistLoadedSkill files s call) := by
  unfold Choreo.persistLoadedSkill
  split_ifs
  · exact refl t s
  · split
    · split_ifs
      · exact refl t s
      · split
        · exact ⟨fun _ _ => rfl, rfl, rfl, rfl⟩
        · exact refl t s
    · exact refl t s

end ToolFrame

namespace ToolPhase

theorem calls_modifyCell (phase : ToolPhase) (i : ℕ) (f : CallCell → CallCell)
    (hf : ∀ cell, (f cell).call = cell.call) : (phase.modifyCell i f).calls = phase.calls := by
  unfold calls modifyCell
  refine ext_getElem? fun j => ?_
  simp only [List.getElem?_map, List.getElem?_modify]
  cases phase.cells[j]? with
  | none => rfl
  | some cell =>
    change some (if i = j then f cell else cell).call = some cell.call
    split_ifs
    · rw [hf]
    · rfl

end ToolPhase

namespace ToolRun

/-- What the steps of the tool phases leave alone, and what they send. -/
structure Frame (r r' : ToolRun) : Prop where
  session : ToolFrame r.phase.turnId r.session r'.session
  turnId : r'.phase.turnId = r.phase.turnId
  requestId : r'.phase.requestId = r.phase.requestId
  calls : r'.phase.calls = r.phase.calls
  outbox : ∀ c ∈ r'.outbox, c ∈ r.outbox ∨ c.isUpdate = true ∧ c.usage = none

namespace Frame

variable {r r' r'' : ToolRun}

theorem refl (r : ToolRun) : Frame r r :=
  ⟨.refl _ _, rfl, rfl, rfl, fun _ hc => Or.inl hc⟩

theorem trans (h : Frame r r') (h' : Frame r' r'') : Frame r r'' where
  session := h.session.trans (h.turnId ▸ h'.session)
  turnId := h'.turnId.trans h.turnId
  requestId := h'.requestId.trans h.requestId
  calls := h'.calls.trans h.calls
  outbox c hc := (h'.outbox c hc).elim (h.outbox c) Or.inr

variable (r : ToolRun)

theorem setSession {s : SessionState} (h : ToolFrame r.phase.turnId r.session s) :
    Frame r { r with session := s } :=
  ⟨h, rfl, rfl, rfl, fun _ hc => Or.inl hc⟩

theorem setPhase {phase : ToolPhase} (ht : phase.turnId = r.phase.turnId)
    (hr : phase.requestId = r.phase.requestId) (hc : phase.calls = r.phase.calls) :
    Frame r { r with phase := phase } :=
  ⟨.refl _ _, ht, hr, hc, fun _ hc => Or.inl hc⟩

theorem send {command : SessionCommand} (h : command.isUpdate = true)
    (husage : command.usage = none) : Frame r (r.send command) :=
  ⟨.refl _ _, rfl, rfl, rfl, fun c hc => by
    rcases mem_append.1 hc with hc | hc
    · exact Or.inl hc
    · rw [mem_singleton.1 hc]
      exact Or.inr ⟨h, husage⟩⟩

theorem broadcastTurnAppended : Frame r r.broadcastTurnAppended := by
  unfold ToolRun.broadcastTurnAppended
  split
  · exact send r rfl rfl
  · exact refl r

theorem announceStart (call : ChatToolCall) (r : ToolRun) : Frame r (r.announceStart call) :=
  send r rfl rfl

theorem foldl {α : Type*} (body : ToolRun → α → ToolRun) (h : ∀ r a, Frame r (body r a))
    (as : List α) (r : ToolRun) : Frame r (as.foldl body r) := by
  induction as generalizing r with
  | nil => exact refl r
  | cons a as ih => exact (h r a).trans (ih _)

end Frame

theorem emitImage_frame (image : PreparedImage) (callId : String) (r : ToolRun) :
    Frame r (r.emitImage image callId) :=
  (Frame.setSession r (.addDisplayedImage _ _ _)).trans (.broadcastTurnAppended _)

theorem finishToolCall_frame (call : ChatToolCall) (output : ToolOutput) (r : ToolRun) :
    Frame r (r.finishToolCall call output) := by
  refine ((Frame.setSession r (.updateToolResult _ _ call.id call.name output)).trans
    (.broadcastTurnAppended _)).trans (.send _ ?_ ?_)
  all_goals split_ifs <;> rfl

theorem collectToolResult_frame (files : ToolFiles) (call : ChatToolCall) (output : ToolOutput)
    (r : ToolRun) : Frame r (r.collectToolResult files call output) :=
  ⟨.persistLoadedSkill _ files _ _, rfl, rfl, rfl, fun _ hc => Or.inl hc⟩

variable (env : ToolEnv)

theorem recordToolCompletion_frame (files : ToolFiles) (handle : ToolHandle)
    (r : ToolRun) : Frame r (r.recordToolCompletion env files handle) := by
  unfold recordToolCompletion
  dsimp only
  refine Frame.trans ?_ ((finishToolCall_frame _ _ _).trans
    ((collectToolResult_frame files _ _ _).trans (.setPhase _ rfl rfl rfl)))
  split
  · exact .refl r
  · exact emitImage_frame _ _ r

variable (r : ToolRun)

theorem finish_frame : Frame r (r.finish env) := by
  have hstage : Frame r
      { r with
        session := r.phase.pendingConfigChanges.foldl (applyPendingConfigChange env) r.session
        phase := { r.phase with stage := .finished } } :=
    ⟨.foldl_applyPendingConfigChange _ env _ _, rfl, rfl, rfl, fun _ hc => Or.inl hc⟩
  unfold finish
  dsimp only
  split_ifs
  · refine hstage.trans (Frame.trans ?_ (.broadcastTurnAppended _))
    exact Frame.setSession _ (.markUnexecutedToolResults _ _ _)
  · exact hstage

theorem finish_setPhase_frame {phase : ToolPhase}
    (ht : phase.turnId = r.phase.turnId) (hr : phase.requestId = r.phase.requestId)
    (hc : phase.calls = r.phase.calls) :
    Frame r (finish env { r with phase := phase }) :=
  (Frame.setPhase r ht hr hc).trans (finish_frame env _)

theorem startConcurrent_frame : Frame r r.startConcurrent := by
  unfold startConcurrent
  dsimp only
  refine (Frame.foldl _ (fun r call => .announceStart call r) _ r).trans
    ((Frame.send _ rfl rfl).trans (Frame.setPhase _ rfl rfl ?_))
  set r₁ : ToolRun := ToolRun.send _ _
  change (List.map _ r₁.phase.cells.zipIdx).map CallCell.call = r₁.phase.cells.map CallCell.call
  rw [List.map_map]
  calc r₁.phase.cells.zipIdx.map _
      = r₁.phase.cells.zipIdx.map (CallCell.call ∘ Prod.fst) := by
        refine map_congr_left fun p _ => ?_
        simp only [Function.comp_apply]
        split_ifs <;> rfl
    _ = r₁.phase.cells.map CallCell.call := by rw [← List.map_map, zipIdx_map_fst]

theorem serialNext_frame (cancelPending : Bool) (r : ToolRun) (remaining : List ℕ) :
    Frame r (r.serialNext env cancelPending remaining).1 := by
  cases remaining with
  | nil =>
    simp only [serialNext]
    split_ifs
    · exact finish_frame env r
    · exact startConcurrent_frame r
  | cons i rest =>
    simp only [serialNext]
    split_ifs
    · dsimp only
      refine finish_setPhase_frame env r ?_ ?_ ?_ <;> rfl
    · split
      · exact .refl r
      · refine (Frame.announceStart _ r).trans ((Frame.send _ rfl rfl).trans (Frame.setPhase _ rfl rfl ?_))
        exact ToolPhase.calls_modifyCell _ i _ fun _ => rfl

theorem serialRecord_frame (files : ToolFiles) (rest : List ℕ)
    (call : ChatToolCall) (output : ToolOutput) (isCancelled : Bool)
    (image : Option PreparedImage) (r : ToolRun) :
    Frame r (r.serialRecord env files rest call output isCancelled image) := by
  unfold serialRecord
  dsimp only
  have hrecord := recordToolCompletion_frame env files
    { toolCall := call, output := output, image := image } r
  cases isCancelled with
  | true => refine hrecord.trans (finish_setPhase_frame env _ ?_ ?_ ?_) <;> rfl
  | false => refine hrecord.trans (Frame.setPhase _ ?_ ?_ ?_) <;> rfl

theorem collect_frame {env : ToolEnv} {files : ToolFiles} {r r' : ToolRun}
    (h : r.collect env files = some r') : Frame r r' := by
  unfold collect at h
  split at h
  · cases h
  · cases h
    refine Frame.trans (Frame.setPhase r ?_ ?_ ?_) (recordToolCompletion_frame env files _ _) <;> rfl

theorem synthesizeMissing_frame (files : ToolFiles) (r : ToolRun) :
    Frame r (r.synthesizeMissing env files) :=
  Frame.foldl _ (fun r _ => recordToolCompletion_frame env files _ r) _ r

theorem endBatch_frame : Frame r (r.endBatch env) := by
  refine finish_setPhase_frame env r ?_ ?_ ?_ <;> rfl

/-- Every step of the tool phases keeps the frame. -/
theorem step_frame {env : ToolEnv} {cancelPending consumed : Bool} {label : ToolLabel}
    {r r' : ToolRun} (h : step env cancelPending label r = some (r', consumed)) : Frame r r' := by
  cases label with
  | exec i message | execDie i =>
    simp only [step] at h
    split at h
    · cases h
      exact Frame.setPhase r rfl rfl (ToolPhase.calls_modifyCell _ i _ fun _ => rfl)
    · cases h
  | wake i cause image =>
    simp only [step] at h
    split at h
    · split_ifs at h
      rw [map_eq_some_iff] at h
      obtain ⟨output, -, heq⟩ := h
      cases heq
      exact Frame.setPhase r rfl rfl (ToolPhase.calls_modifyCell _ i _ fun _ => rfl)
    · cases h
  | waitDie i =>
    simp only [step] at h
    split at h
    · cases h
      exact Frame.setPhase r rfl rfl (ToolPhase.calls_modifyCell _ i _ fun _ => rfl)
    · cases h
  | serialNext =>
    simp only [step] at h
    split at h
    · next remaining _ =>
      have hframe := serialNext_frame env cancelPending r remaining
      rw [some.inj h] at hframe
      exact hframe
    · cases h
  | serialWake cause image files =>
    simp only [step] at h
    split at h
    · split at h
      · rw [map_eq_some_iff] at h
        obtain ⟨outcome, -, heq⟩ := h
        cases heq
        exact serialRecord_frame env files _ _ _ _ image r
      · cases h
    · cases h
  | collect files =>
    simp only [step] at h
    split at h
    · rw [map_eq_some_iff] at h
      obtain ⟨r₁, hr₁, heq⟩ := h
      cases heq
      exact collect_frame hr₁
    · split_ifs at h
      rw [map_eq_some_iff] at h
      obtain ⟨r₁, hr₁, heq⟩ := h
      cases heq
      exact collect_frame hr₁
    · cases h
  | collectCancel =>
    simp only [step] at h
    split at h
    · split_ifs at h
      cases h
      exact Frame.setPhase r rfl rfl rfl
    · cases h
  | endEmptying =>
    simp only [step] at h
    split at h
    · cases h
      exact Frame.setPhase r rfl rfl rfl
    · cases h
  | endBatch files =>
    simp only [step] at h
    split at h
    · cases h
    · split_ifs at h
      · cases h
        exact endBatch_frame env r
      · cases h
        exact (synthesizeMissing_frame env files r).trans (endBatch_frame env _)
    · cases h

end ToolRun

/-! ### The moves of a worker -/

namespace Worker

/-- The moves of a worker, one by one. Except for the first, they need an empty outbox or drop it. -/
inductive Move (setup : AgentSetup) (cancelPending : Bool) (store : Store) (w : Worker) :
    WorkerLabel → WorkerEffect → Prop
  | flush (command : SessionCommand) (outbox : List SessionCommand)
      (hout : w.outbox = command :: outbox) :
      Move setup cancelPending store w .flush
        { worker := some { w with outbox := outbox }, store := store, command := some command }
  | panic (hloop : w.inAgentLoop = true) :
      Move setup cancelPending store w .panic
        { worker := some
            { w with
              pc := .returned (.failed "request worker panicked") w.initialSnapshot
              outbox := [] }
          store := store }
  | enterLoop (catalog : Catalog) (skills : List SkillMeta) (hout : w.outbox = [])
      (hpc : w.pc = .start) :
      Move setup cancelPending store w (.enterLoop catalog skills)
        { worker := some (w.enterLoop catalog skills), store := store }
  | limit (now : ℤ) (cache : Option (ℕ × String)) (estimatedPromptTokens : ℕ) (hout : w.outbox = [])
      (hpc : w.pc = .top) (hlimit : 0 < setup.maxTurns ∧ setup.maxTurns ≤ w.turnIter) :
      Move setup cancelPending store w (.startCall now cache estimatedPromptTokens)
        { worker := some
            (w.leaveLoop (.failed s!"tool loop exceeded {setup.maxTurns} iterations"))
          store := store }
  | cancelAtTop (now : ℤ) (cache : Option (ℕ × String)) (estimatedPromptTokens : ℕ)
      (hout : w.outbox = []) (hpc : w.pc = .top) (hcancel : cancelPending = true) :
      Move setup cancelPending store w (.startCall now cache estimatedPromptTokens)
        { worker := some
            (leaveLoop .cancelled { w with cancelsRead := w.cancelsRead + 1 })
          store := store }
  | startCall (now : ℤ) (cache : Option (ℕ × String)) (estimatedPromptTokens : ℕ)
      (hout : w.outbox = []) (hpc : w.pc = .top) (hcancel : cancelPending = false) :
      Move setup cancelPending store w (.startCall now cache estimatedPromptTokens)
        { worker := some (w.startCall now cache estimatedPromptTokens), store := store }
  | finalText (turnId : ℕ) (result : FinalTextResult) (hout : w.outbox = [])
      (hpc : w.pc = .calling turnId) :
      Move setup cancelPending store w (.reply (.finalText result))
        { worker := some (w.onFinalText turnId result), store := store }
  | toolUse (turnId : ℕ) (result : ChatAssistantToolUse) (hout : w.outbox = [])
      (hpc : w.pc = .calling turnId) :
      Move setup cancelPending store w (.reply (.toolUse result))
        { worker := some (w.onToolUse setup turnId result), store := store }
  | callCancelled (turnId : ℕ) (hout : w.outbox = []) (hpc : w.pc = .calling turnId)
      (hcancel : cancelPending = true) :
      Move setup cancelPending store w (.reply .cancelled)
        { worker := some
            (leaveLoop .cancelled { w with cancelsRead := w.cancelsRead + 1 })
          store := store }
  | truncated (turnId : ℕ) (error : String) (hout : w.outbox = []) (hpc : w.pc = .calling turnId) :
      Move setup cancelPending store w (.reply (.truncatedToolCall error))
        { worker := some
            { w with
              session := w.session.setAssistantResponse turnId
                { text := some ("[tool call truncated: " ++ error ++ "]") }
              pc := .finalizing turnId .done }
          store := store }
  | callFailed (turnId : ℕ) (error : String) (hout : w.outbox = []) (hpc : w.pc = .calling turnId) :
      Move setup cancelPending store w (.reply (.failed error))
        { worker := some
            { w with
              session := w.session.setTurnError turnId error
              pc := .finalizing turnId (.failed error) }
          store := store }
  | tool (label : ToolLabel) (phase : ToolPhase) (r : ToolRun) (consumed : Bool)
      (hout : w.outbox = []) (hpc : w.pc = .tools phase)
      (hstep : ToolRun.step setup.tools cancelPending label
        { session := w.session, phase := phase } = some (r, consumed)) :
      Move setup cancelPending store w (.tool label)
        { worker := some
            { w with
              session := r.session
              pc := .tools r.phase
              outbox := r.outbox
              cancelsRead := w.cancelsRead + (if consumed then 1 else 0) }
          store := store }
  | toolsCancelled (phase : ToolPhase) (hout : w.outbox = []) (hpc : w.pc = .tools phase)
      (hstage : phase.stage = .finished) (hcancelled : phase.cancelled = true) :
      Move setup cancelPending store w .leaveTools
        { worker := some (w.leaveLoop .cancelled), store := store }
  | nextIteration (phase : ToolPhase) (hout : w.outbox = []) (hpc : w.pc = .tools phase)
      (hstage : phase.stage = .finished) (hcancelled : phase.cancelled = false) :
      Move setup cancelPending store w .leaveTools
        { worker := some
            { w with
              toolResults := phase.toolResults
              turnIter := w.turnIter + 1
              pc := .top }
          store := store }
  | write (turnId : ℕ) (outcome : RequestOutcome) (turn : Turn) (hout : w.outbox = [])
      (hpc : w.pc = .finalizing turnId outcome) (hturn : w.session.turns[turnId]? = some turn) :
      Move setup cancelPending store w (.finalize none)
        { worker := some
            { w with
              pc := .persisted turnId outcome
              outbox := turnAppended w.session turnId }
          store := store.writeTurn turnId turn }
  | writeFailed (writeError : Option String) (turnId : ℕ) (outcome outcome' : RequestOutcome)
      (hout : w.outbox = []) (hpc : w.pc = .finalizing turnId outcome)
      (hwrite : w.session.turns[turnId]? = none ∨ writeError ≠ none)
      (houtcome : outcome' = outcome ∨ ∃ error, outcome' = .failed error) :
      Move setup cancelPending store w (.finalize writeError)
        { worker := some (w.leaveLoop outcome'), store := store }
  | leaveLoop (turnId : ℕ) (outcome : RequestOutcome) (hout : w.outbox = [])
      (hpc : w.pc = .persisted turnId outcome) :
      Move setup cancelPending store w .leaveLoop
        { worker := some (w.leaveLoop outcome), store := store }
  | conclude (outcome : RequestOutcome) (snapshot : SessionSnapshot) (hout : w.outbox = [])
      (hpc : w.pc = .returned outcome snapshot) :
      Move setup cancelPending store w .conclude
        { worker := some
            { w with pc := .concluding outcome snapshot, outbox := w.outcomeCommands outcome }
          store := store }
  | finish (outcome : RequestOutcome) (snapshot : SessionSnapshot) (hout : w.outbox = [])
      (hpc : w.pc = .concluding outcome snapshot) :
      Move setup cancelPending store w .finish
        { worker := none
          store := store
          command := some (.requestFinished w.requestId snapshot)
          output := w.childReply.map fun reply => .child reply (.ok (w.childResult outcome)) }

variable {setup : AgentSetup} {cancelPending : Bool} {label : WorkerLabel} {store : Store}
  {w w' : Worker} {effect : WorkerEffect}

theorem onReply_move {turnId : ℕ} {reply : ModelReply} (hout : w.outbox = [])
    (hpc : w.pc = .calling turnId) (h : w.onReply setup cancelPending turnId reply = some w') :
    Move setup cancelPending store w (.reply reply) { worker := some w', store := store } := by
  cases reply with
  | finalText result =>
    cases h
    exact .finalText turnId result hout hpc
  | toolUse result =>
    cases h
    exact .toolUse turnId result hout hpc
  | cancelled =>
    simp only [onReply] at h
    split_ifs at h with hcancel
    cases h
    exact .callCancelled turnId hout hpc hcancel
  | truncatedToolCall error =>
    cases h
    exact .truncated turnId error hout hpc
  | failed error =>
    cases h
    exact .callFailed turnId error hout hpc

theorem finalize_move {writeError : Option String} {turnId : ℕ} {outcome : RequestOutcome}
    (hout : w.outbox = []) (hpc : w.pc = .finalizing turnId outcome) :
    Move setup cancelPending store w (.finalize writeError)
      { worker := some (w.finalize writeError turnId outcome store).1
        store := (w.finalize writeError turnId outcome store).2 } := by
  cases hturn : w.session.turns[turnId]? with
  | none =>
    simp only [finalize, hturn]
    exact .writeFailed writeError turnId outcome outcome hout hpc (.inl hturn) (.inl rfl)
  | some turn =>
    cases writeError with
    | none =>
      simp only [finalize, hturn]
      exact .write turnId outcome turn hout hpc hturn
    | some error =>
      have hne : some error ≠ none := some_ne_none error
      cases outcome with
      | failed error' =>
        simp only [finalize, hturn]
        exact .writeFailed _ turnId _ _ hout hpc (.inr hne) (.inl rfl)
      | done | cancelled =>
        simp only [finalize, hturn]
        exact .writeFailed _ turnId _ _ hout hpc (.inr hne) (.inr ⟨_, rfl⟩)

theorem act_move (hout : w.outbox = []) (h : w.act setup cancelPending label store = some effect) :
    Move setup cancelPending store w label effect := by
  unfold act at h
  split at h
  · next catalog skills hpc =>
    cases h
    exact .enterLoop catalog skills hout hpc
  · next now cache estimatedPromptTokens hpc =>
    cases h
    unfold atTop
    split_ifs with hlimit hcancel
    · exact .limit now cache estimatedPromptTokens hout hpc hlimit
    · exact .cancelAtTop now cache estimatedPromptTokens hout hpc hcancel
    · exact .startCall now cache estimatedPromptTokens hout hpc (Bool.eq_false_iff.2 hcancel)
  · next reply turnId hpc =>
    rw [bind_eq_some_iff] at h
    obtain ⟨w', hw', heq⟩ := h
    cases heq
    exact onReply_move hout hpc hw'
  · next label phase hpc =>
    unfold onTool at h
    rw [bind_eq_some_iff] at h
    obtain ⟨w', hw', heq⟩ := h
    rw [map_eq_some_iff] at hw'
    obtain ⟨⟨r, consumed⟩, hstep, heq'⟩ := hw'
    cases heq'
    cases heq
    exact .tool label phase r consumed hout hpc hstep
  · next phase hpc =>
    unfold onLeaveTools at h
    split_ifs at h with hstage hcancelled
    · cases h
      exact .toolsCancelled phase hout hpc hstage hcancelled
    · cases h
      exact .nextIteration phase hout hpc hstage (Bool.eq_false_iff.2 hcancelled)
    · cases h
  · next writeError turnId outcome hpc =>
    cases h
    exact finalize_move hout hpc
  · next turnId outcome hpc =>
    cases h
    exact .leaveLoop turnId outcome hout hpc
  · next outcome snapshot hpc =>
    cases h
    exact .conclude outcome snapshot hout hpc
  · next outcome snapshot hpc =>
    cases h
    exact .finish outcome snapshot hout hpc
  · cases h

theorem step_move (h : w.step setup cancelPending label store = some effect) :
    Move setup cancelPending store w label effect := by
  unfold step at h
  split at h
  · split at h
    · cases h
    · next command outbox hout =>
      cases h
      exact .flush command outbox hout
  · split_ifs at h with hloop
    cases h
    exact .panic hloop
  · split_ifs at h with hout
    exact act_move (List.isEmpty_iff.1 hout) h

end Worker

end Choreo
