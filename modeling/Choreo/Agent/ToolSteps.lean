import Choreo.Agent.Frame

/-!
# The bookkeeping of the tool phases

The tool phases keep their books apart from the session: which calls are running, which handles wait
in the queue, which ids count as delivered and as executed. This file says what the operations do to
these books, whatever they record on the turn.
-/

namespace Choreo

namespace ToolRun

theorem broadcastTurnAppended_phase (r : ToolRun) : r.broadcastTurnAppended.phase = r.phase := by
  unfold broadcastTurnAppended
  split <;> rfl

theorem finish_phase (env : ToolEnv) (r : ToolRun) :
    (r.finish env).phase = { r.phase with stage := .finished } := by
  unfold finish
  dsimp only
  split_ifs
  · rw [broadcastTurnAppended_phase]
  · rfl

theorem finishToolCall_phase (call : ChatToolCall) (output : ToolOutput) (r : ToolRun) :
    (r.finishToolCall call output).phase = r.phase := by
  unfold finishToolCall
  exact broadcastTurnAppended_phase _

theorem emitImage_phase (image : PreparedImage) (callId : String) (r : ToolRun) :
    (r.emitImage image callId).phase = r.phase :=
  broadcastTurnAppended_phase _

theorem recordToolCompletion_phase (env : ToolEnv) (files : ToolFiles) (handle : ToolHandle)
    (r : ToolRun) :
    (r.recordToolCompletion env files handle).phase =
      { r.phase with
        toolResults := r.phase.toolResults ++
          [{ callId := handle.toolCall.id
             output := (recordedOutput env handle.output).content
             caller := handle.toolCall.caller }]
        executed := r.phase.executed.insert handle.toolCall.id } := by
  unfold recordToolCompletion collectToolResult
  cases handle.image with
  | none => simp only [finishToolCall_phase]
  | some image => simp only [finishToolCall_phase, emitImage_phase]

theorem serialRecord_phase (env : ToolEnv) (files : ToolFiles) (rest : List ℕ)
    (call : ChatToolCall) (output : ToolOutput) (isCancelled : Bool)
    (image : Option PreparedImage) (r : ToolRun) :
    ∃ results changes,
      (r.serialRecord env files rest call output isCancelled image).phase =
        { r.phase with
          toolResults := results
          executed := r.phase.executed.insert call.id
          pendingConfigChanges := changes
          cancelled := r.phase.cancelled || isCancelled
          stage := if isCancelled then .finished else .serial rest } := by
  unfold serialRecord
  dsimp only
  cases isCancelled with
  | true =>
    simp only [if_true, finish_phase, recordToolCompletion_phase]
    exact ⟨_, _, rfl⟩
  | false =>
    simp only [Bool.false_eq_true, if_false, recordToolCompletion_phase]
    exact ⟨_, _, rfl⟩

theorem foldl_announceStart_phase (calls : List ChatToolCall) (r : ToolRun) :
    (calls.foldl (fun r call => r.announceStart call) r).phase = r.phase := by
  induction calls generalizing r with
  | nil => rfl
  | cons call calls ih => exact ih (r.announceStart call)

theorem startConcurrent_phase (r : ToolRun) :
    r.startConcurrent.phase =
      { r.phase with
        cells := r.phase.cells.zipIdx.map fun p =>
          if p.2 ∈ r.phase.concurrent then { p.1 with exec := .running, wait := .waiting } else p.1
        stage := .collecting .waiting } := by
  unfold startConcurrent
  simp only [send, foldl_announceStart_phase]

theorem synthesizeMissing_phase (env : ToolEnv) (files : ToolFiles) (r : ToolRun) :
    ∃ results, (r.synthesizeMissing env files).phase =
      { r.phase with
        toolResults := results
        executed := ((r.phase.calls.filter fun call => !isSessionConfigTool call.name).filter
          fun call => !r.phase.delivered.contains call.id).foldl
            (fun executed call => executed.insert call.id) r.phase.executed } := by
  unfold synthesizeMissing
  dsimp only
  generalize (r.phase.calls.filter fun call => !isSessionConfigTool call.name).filter
    (fun call => !r.phase.delivered.contains call.id) = missing
  induction missing generalizing r with
  | nil => exact ⟨r.phase.toolResults, rfl⟩
  | cons call missing ih =>
    obtain ⟨results, hresults⟩ := ih
      (r.recordToolCompletion env files (panicToolHandle call (r.phase.describe call)))
    rw [recordToolCompletion_phase] at hresults
    exact ⟨results, hresults⟩

variable {env : ToolEnv}

theorem collect_phase {files : ToolFiles} {r r' : ToolRun}
    (h : r.collect env files = some r') :
    ∃ handle queue results, r.phase.queue = handle :: queue ∧ r'.phase =
      { r.phase with
        queue := queue
        delivered := r.phase.delivered.insert handle.toolCall.id
        toolResults := results
        executed := r.phase.executed.insert handle.toolCall.id } := by
  unfold collect at h
  split at h
  · cases h
  · next handle queue hqueue =>
    cases h
    rw [recordToolCompletion_phase]
    exact ⟨handle, queue, _, hqueue, rfl⟩

theorem endBatch_phase (env : ToolEnv) (r : ToolRun) :
    ∃ results, (r.endBatch env).phase =
      { r.phase with
        toolResults := results
        stage := .finished } := by
  unfold endBatch
  rw [finish_phase]
  exact ⟨_, rfl⟩

theorem cancelled_serialOutcome {cancelPending : Bool} {cause : WaitCause}
    {cell : CallCell} {description : String} {outcome : ToolOutput × Bool}
    (h : serialOutcome env cancelPending cause cell description = some outcome)
    (hcancelled : outcome.2 = true) : cancelPending = true := by
  unfold serialOutcome at h
  split at h
  · cases h
    cases hcancelled
  · cases h
    cases hcancelled
  · cases h
  · split_ifs at h with hpending
    exact hpending
  · cases h
    cases hcancelled

theorem cancelled_serialNext {cancelPending : Bool} {r : ToolRun}
    {remaining : List ℕ}
    (h : (r.serialNext env cancelPending remaining).1.phase.cancelled = true) :
    r.phase.cancelled = true ∨ cancelPending = true := by
  cases remaining with
  | nil =>
    simp only [serialNext] at h
    split_ifs at h
    · rw [finish_phase] at h
      exact Or.inl h
    · rw [startConcurrent_phase] at h
      exact Or.inl h
  | cons i rest =>
    simp only [serialNext] at h
    split_ifs at h with hpending
    · exact Or.inr hpending
    · split at h <;> exact Or.inl h

theorem step_cancelled {cancelPending consumed : Bool} {label : ToolLabel}
    {r r' : ToolRun} (h : step env cancelPending label r = some (r', consumed))
    (hcancelled : r'.phase.cancelled = true) :
    r.phase.cancelled = true ∨ cancelPending = true := by
  cases label with
  | exec i message | execDie i =>
    simp only [step] at h
    split at h
    · cases h
      exact Or.inl hcancelled
    · cases h
  | wake i cause image =>
    simp only [step] at h
    split at h
    · split_ifs at h
      rw [Option.map_eq_some_iff] at h
      obtain ⟨output, -, heq⟩ := h
      cases heq
      exact Or.inl hcancelled
    · cases h
  | waitDie i =>
    simp only [step] at h
    split at h
    · cases h
      exact Or.inl hcancelled
    · cases h
  | serialNext =>
    simp only [step] at h
    split at h
    · next remaining _ =>
      rw [← (Prod.mk.inj (Option.some.inj h)).1] at hcancelled
      exact cancelled_serialNext hcancelled
    · cases h
  | serialWake cause image files =>
    simp only [step] at h
    split at h
    · split at h
      · rw [Option.map_eq_some_iff] at h
        obtain ⟨outcome, houtcome, heq⟩ := h
        cases heq
        obtain ⟨results, changes, hphase⟩ := serialRecord_phase env files _ _ outcome.1 outcome.2
          image r
        rw [hphase, Bool.or_eq_true] at hcancelled
        exact hcancelled.imp id (cancelled_serialOutcome houtcome)
      · cases h
    · cases h
  | collect files =>
    have hcollect : ∀ r₁, r.collect env files = some r₁ → r₁.phase.cancelled = true →
        r.phase.cancelled = true ∨ cancelPending = true := by
      intro r₁ hr₁ hc
      obtain ⟨handle, queue, results, -, hphase⟩ := collect_phase hr₁
      rw [hphase] at hc
      exact Or.inl hc
    simp only [step] at h
    split at h
    · rw [Option.map_eq_some_iff] at h
      obtain ⟨r₁, hr₁, heq⟩ := h
      cases heq
      exact hcollect _ hr₁ hcancelled
    · split_ifs at h
      rw [Option.map_eq_some_iff] at h
      obtain ⟨r₁, hr₁, heq⟩ := h
      cases heq
      exact hcollect _ hr₁ hcancelled
    · cases h
  | collectCancel =>
    simp only [step] at h
    split at h
    · split_ifs at h with hcomplete hpending
      exact Or.inr hpending
    · cases h
  | endEmptying =>
    simp only [step] at h
    split at h
    · cases h
      exact Or.inl hcancelled
    · cases h
  | endBatch files =>
    simp only [step] at h
    split at h
    · cases h
    · split_ifs at h
      · cases h
        obtain ⟨results, hphase⟩ := endBatch_phase env r
        rw [hphase] at hcancelled
        exact Or.inl hcancelled
      · cases h
        obtain ⟨results, hphase⟩ := endBatch_phase env (r.synthesizeMissing env files)
        obtain ⟨results', hphase'⟩ := synthesizeMissing_phase env files r
        rw [hphase, hphase'] at hcancelled
        exact Or.inl hcancelled
    · cases h

end ToolRun

end Choreo
