import Choreo.Agent.ToolResults
import Choreo.Session.Requests

/-!
# The tool results of a session

The tool phases of a worker keep their books in every run of a session, whatever other commands come
in between and whenever a cancel arrives. So the results of a turn are complete when the agent loop
leaves the tool phases, as long as the calls of every model response have distinct ids.
-/

namespace Choreo

open Option

namespace Worker

/-- The turn of a model call is there, and while tools run its results agree with the books of the
tool phases. -/
structure KeepsBooks (setup : AgentSetup) (w : Worker) : Prop where
  calling : ∀ turnId, w.pc = .calling turnId → w.session.turns[turnId]?.isSome = true
  tools : ∀ phase, w.pc = .tools phase →
    ToolRun.Books setup.tools { session := w.session, phase := phase } ∧
      ∃ turn, w.session.turns[phase.turnId]? = some turn ∧
        turn.toolCalls = phase.calls.map ChatToolCall.toRecord

variable {setup : AgentSetup} {cancelPending : Bool} {label : WorkerLabel} {store : Store}
  {w w' : Worker} {effect : WorkerEffect}

theorem keepsBooks_of_pc (hcalling : ∀ turnId, w.pc ≠ .calling turnId)
    (htools : ∀ phase, w.pc ≠ .tools phase) : w.KeepsBooks setup :=
  ⟨fun turnId hpc => absurd hpc (hcalling turnId), fun phase hpc => absurd hpc (htools phase)⟩

theorem keepsBooks_startCall (now : ℤ) (cache : Option (ℕ × String)) (estimatedPromptTokens : ℕ)
    (w : Worker) : (w.startCall now cache estimatedPromptTokens).KeepsBooks setup := by
  refine ⟨fun turnId hpc => ?_, fun phase hpc => (by cases hpc)⟩
  cases hpc
  change (w.session.startTurn now _).2.turns[w.session.nextTurnId]?.isSome = true
  rw [SessionState.get_startTurn, if_pos rfl]
  rfl

theorem keepsBooks_onToolUse {turnId : ℕ} (hturn : w.session.turns[turnId]?.isSome = true)
    {result : ChatAssistantToolUse} (hdistinct : (result.toolCalls.map ChatToolCall.id).Nodup) :
    (w.onToolUse setup turnId result).KeepsBooks setup := by
  set w₁ : Worker := w.recordUsage result.usage with hw₁
  set session : SessionState :=
    w₁.session.setAssistantResponse turnId (w₁.toolUseResponse result) with hsession
  have hturn₁ : w₁.session.turns[turnId]?.isSome = true := by
    rw [hw₁]
    unfold recordUsage accumulateTokenUsage
    dsimp only
    split <;> exact hturn
  obtain ⟨turn, hturn'⟩ := isSome_iff_exists.1 hturn₁
  have hget : session.turns[turnId]? = some _ :=
    (SessionState.get_modifyTurn w₁.session turnId turnId _).trans
      (by rw [if_pos rfl, hturn', map_some])
  have hbooks := @ToolRun.begin_books setup.tools session w.requestId turnId
    result.toolCalls (by rw [hget]; rfl) hdistinct
  set r : ToolRun := ToolRun.begin setup.tools session w.requestId turnId result.toolCalls with hr
  refine ⟨fun t hpc => (by cases hpc), fun phase hpc => ?_⟩
  have hphase : phase = r.phase := by
    cases hpc
    rfl
  subst hphase
  refine ⟨⟨hbooks.accounted, hbooks.recorded⟩, ?_⟩
  obtain ⟨hcalls, htoolCalls⟩ :=
    @ToolRun.begin_toolCalls setup.tools session w.requestId turnId result.toolCalls
  rw [hget, map_some] at htoolCalls
  obtain ⟨turn₁, hturn₁', hsame⟩ := map_eq_some_iff.1 htoolCalls
  refine ⟨turn₁, hturn₁', ?_⟩
  rw [hsame, hcalls]
  rfl

theorem keepsBooks_onTool {phase : ToolPhase} (hw : w.KeepsBooks setup) (hpc : w.pc = .tools phase)
    {tlabel : ToolLabel} {r : ToolRun} {consumed : Bool}
    (hstep : ToolRun.step setup.tools cancelPending tlabel
      { session := w.session, phase := phase } = some (r, consumed))
    {outbox : List SessionCommand} {cancelsRead : ℕ} :
    KeepsBooks setup { w with
      session := r.session
      pc := .tools r.phase
      outbox := outbox
      cancelsRead := cancelsRead } := by
  obtain ⟨hbooks, turn, hturn, hcalls⟩ := hw.tools phase hpc
  have hbooks' := ToolRun.step_books hbooks hstep
  have hframe := ToolRun.step_frame hstep
  refine ⟨fun t hpc' => (by cases hpc'), fun phase' hpc' => ?_⟩
  cases hpc'
  refine ⟨⟨hbooks'.accounted, hbooks'.recorded⟩, ?_⟩
  have hcurrent := hframe.session.current
  change Option.map _ r.session.turns[phase.turnId]? = Option.map _ w.session.turns[phase.turnId]?
    at hcurrent
  rw [hturn, map_some] at hcurrent
  obtain ⟨turn', hturn', hsans⟩ := map_eq_some_iff.1 hcurrent
  have hturnId : r.phase.turnId = phase.turnId := hframe.turnId
  have hphaseCalls : r.phase.calls = phase.calls := hframe.calls
  refine ⟨turn', by rw [hturnId]; exact hturn', ?_⟩
  have hkept : turn'.sansTools.toolCalls = turn.sansTools.toolCalls := by rw [hsans]
  rw [hphaseCalls, ← hcalls]
  exact hkept

end Worker

def WorkerPc.toolPhase : WorkerPc → Option ToolPhase
  | .tools phase => some phase
  | _ => none

/-- Whether the calls of a model response, if this step is one, have distinct ids. -/
def SystemLabel.DistinctCalls : SystemLabel → Prop
  | .work (.reply (.toolUse result)) => (result.toolCalls.map ChatToolCall.id).Nodup
  | _ => True

instance (label : SystemLabel) : Decidable label.DistinctCalls :=
  match label with
  | .work (.reply (.toolUse result)) =>
    inferInstanceAs (Decidable (result.toolCalls.map ChatToolCall.id).Nodup)
  | .work (.reply (.finalText _)) | .work (.reply .cancelled)
  | .work (.reply (.truncatedToolCall _)) | .work (.reply (.failed _)) => isTrue trivial
  | .work .flush | .work (.enterLoop ..) | .work (.startCall ..) | .work (.tool _)
  | .work .leaveTools | .work (.finalize _) | .work .leaveLoop | .work .conclude | .work .finish
  | .work .panic | .send _ | .process _ | .restart _ => isTrue trivial

namespace Worker

variable {setup : AgentSetup} {cancelPending : Bool} {label : WorkerLabel} {store : Store}
  {w w' : Worker} {effect : WorkerEffect}

theorem step_keepsBooks (hw : w.KeepsBooks setup)
    (hdistinct : (SystemLabel.work label).DistinctCalls)
    (h : w.step setup cancelPending label store = some effect) (hw' : effect.worker = some w') :
    w'.KeepsBooks setup := by
  cases step_move h with
  | flush command outbox hout =>
    cases hw'
    exact ⟨hw.calling, hw.tools⟩
  | startCall now cache tokens hout hpc hcancel =>
    cases hw'
    exact keepsBooks_startCall now cache tokens w
  | toolUse turnId result hout hpc =>
    cases hw'
    exact keepsBooks_onToolUse (hw.calling turnId hpc) hdistinct
  | tool label phase r consumed hout hpc hstep =>
    cases hw'
    exact keepsBooks_onTool hw hpc hstep
  | finish outcome snapshot hout hpc => cases hw'
  | _ =>
    cases hw'
    exact keepsBooks_of_pc (fun _ => (by rintro ⟨⟩)) fun _ => (by rintro ⟨⟩)

end Worker

namespace System

variable {setup : AgentSetup} {label : SystemLabel} {s s' : System}

theorem step_keepsBooks (hinv : s.Invariant) (hs : ∀ w, s.worker = some w → w.KeepsBooks setup)
    (hdistinct : label.DistinctCalls) (h : s.step setup label = some s') :
    ∀ w, s'.worker = some w → w.KeepsBooks setup := by
  rcases step_cases h with ⟨command, -, -, -, rfl⟩ | ⟨env, command, queue, -, -, -, rfl⟩ |
    ⟨wlabel, w, effect, rfl, hworker, hstep, rfl⟩ | ⟨boot, record, -, -, rfl⟩
  · exact hs
  · intro w hw
    rcases s.processStep_cases env command queue with heq | ⟨-, heq⟩
    · rw [heq] at hw
      rcases continued_worker hinv env command queue with hsame | ⟨requestId, args, -, -, hspawned⟩
      · exact hs w (hsame.symm.trans hw)
      · cases hspawned.symm.trans hw
        exact Worker.keepsBooks_of_pc (fun _ => (by rintro ⟨⟩)) fun _ => (by rintro ⟨⟩)
    · rw [heq] at hw
      exact hs w hw
  · intro w' hw'
    exact Worker.step_keepsBooks (hs w hworker) hdistinct hstep hw'
  · intro w hw
    cases hw

/-- When the agent loop leaves the tool phases, for the next model call or because of a cancel, the
turn holds one result per call, in call order and under the call's id, each filled by an outcome of
that call or marked as not recorded. -/
theorem toolResults_complete (setup : AgentSetup) {store : Store} {labels : List SystemLabel}
    (hdistinct : StepSystem.Along (step setup) (fun label _ => label.DistinctCalls) labels
      (init store))
    (hrun : StepSystem.run (step setup) labels (init store) = some s)
    (hleave : s.step setup (.work .leaveTools) = some s') :
    ∃ w w' phase turn, s.worker = some w ∧ w.pc = .tools phase ∧ s'.worker = some w' ∧
      w'.session.turns[phase.turnId]? = some turn ∧
      turn.toolCalls = phase.calls.map ChatToolCall.toRecord ∧
      phase.Complete setup.tools turn.toolResults := by
  obtain ⟨-, hbooks⟩ := StepSystem.invariant_of_along
    (I := fun s => s.Invariant ∧ ∀ w, s.worker = some w → w.KeepsBooks setup)
    (fun _ _ _ hlabel hs hstep => ⟨step_invariant hs.1 hstep,
      step_keepsBooks hs.1 hs.2 hlabel hstep⟩)
    ⟨init_invariant store, fun _ hw => (by cases hw)⟩ hdistinct hrun
  rcases step_cases hleave with ⟨command, heq, -⟩ | ⟨env, command, queue, heq, -⟩ |
    ⟨wlabel, w, effect, heq, hworker, hstep, rfl⟩ | ⟨boot, record, heq, -⟩
  · cases heq
  · cases heq
  · cases heq
    have hleft : ∃ w' phase, w.pc = .tools phase ∧ phase.stage = .finished ∧
        effect.worker = some w' ∧ w'.session = w.session := by
      cases Worker.step_move hstep with
      | toolsCancelled phase hout hpc hstage hcancelled => exact ⟨_, phase, hpc, hstage, rfl, rfl⟩
      | nextIteration phase hout hpc hstage hcancelled => exact ⟨_, phase, hpc, hstage, rfl, rfl⟩
    obtain ⟨w', phase, hpc, hstage, hw', hsession⟩ := hleft
    obtain ⟨hphase, turn, hturn, hcalls⟩ := (hbooks w hworker).tools phase hpc
    obtain ⟨results, hresults, hrecorded⟩ := hphase.recorded
    refine ⟨w, w', phase, turn, hworker, hpc, hw', by rw [hsession, hturn], hcalls, ?_⟩
    change Option.map Turn.toolResults w.session.turns[phase.turnId]? = some results at hresults
    rw [hturn] at hresults
    cases hresults
    exact ⟨hrecorded.ids, hrecorded.complete hstage⟩
  · cases heq

/-- A request whose model asks twice for a tool, under the id `a` and another one. Both calls return a
text, the second one first. -/
def twoCalls (second : String) : List SystemLabel :=
  [SystemLabel.restart Sample.boot] ++ Sample.post (.runInput 1 "again") ++ Sample.call ++
    [SystemLabel.work (.reply (.toolUse
        { toolCalls :=
            [{ id := "a", name := "read_file", argumentsJson := "", caller := none },
              { id := second, name := "read_file", argumentsJson := "", caller := none }] })),
      .work .flush, .work .flush, .work (.tool .serialNext), .work .flush, .work .flush,
      .work .flush, .work (.tool (.exec 1 (.ok { content := "text" }))),
      .work (.tool (.exec 0 (.ok { content := "text" }))),
      .work (.tool (.wake 1 .result none)), .work (.tool (.wake 0 .result none)),
      .work (.tool (.collect Sample.files)), .work .flush, .work .flush,
      .work (.tool (.collect Sample.files)), .work .flush, .work .flush,
      .work (.tool (.endBatch Sample.files))]

/-- The results of two calls under different ids are complete. -/
theorem toolResults_twoCalls :
    ∃ s s', StepSystem.run (step Sample.setup) (twoCalls "b") (init Sample.oneTurn) = some s ∧
      s.step Sample.setup (.work .leaveTools) = some s' ∧
      ∃ w w' phase turn, s.worker = some w ∧ w.pc = .tools phase ∧ s'.worker = some w' ∧
        w'.session.turns[phase.turnId]? = some turn ∧
        turn.toolCalls = phase.calls.map ChatToolCall.toRecord ∧
        phase.Complete Sample.setup.tools turn.toolResults := by
  have hall : ((StepSystem.run (step Sample.setup) (twoCalls "b") (init Sample.oneTurn)).bind
      fun s => (s.step Sample.setup (.work .leaveTools)).map fun _ => true) = some true := by
    decide
  have hdistinct : StepSystem.Along (step Sample.setup) (fun label _ => label.DistinctCalls)
      (twoCalls "b") (init Sample.oneTurn) := by
    decide
  simp only [bind_eq_some_iff, map_eq_some_iff] at hall
  obtain ⟨s, hrun, s', hleave, -⟩ := hall
  exact ⟨s, s', hrun, hleave, toolResults_complete Sample.setup hdistinct hrun hleave⟩

/-- A repeated call id leaves the result of the second call empty. -/
theorem not_complete_repeatedCall :
    ∃ s s' w w' phase turn,
      StepSystem.run (step Sample.setup) (twoCalls "a") (init Sample.oneTurn) = some s ∧
      s.step Sample.setup (.work .leaveTools) = some s' ∧ s.worker = some w ∧
      w.pc = .tools phase ∧ s'.worker = some w' ∧
      w'.session.turns[phase.turnId]? = some turn ∧
      turn.toolResults.map ToolResultRecord.content = ["text", ""] ∧
      ¬phase.Complete Sample.setup.tools turn.toolResults := by
  have hall : ((StepSystem.run (step Sample.setup) (twoCalls "a") (init Sample.oneTurn)).bind fun s =>
      (s.step Sample.setup (.work .leaveTools)).bind fun s' => s.worker.bind fun w =>
      s'.worker.bind fun w' => w.pc.toolPhase.bind fun phase =>
      w'.session.turns[phase.turnId]?.map fun turn =>
        decide (turn.toolResults.map ToolResultRecord.content = ["text", ""] ∧
          turn.toolResults.map ToolResultRecord.isError = [false, false] ∧
          phase.cells[1]?.map CallCell.exec = some (.sent (.ok { content := "text" })) ∧
          phase.cancelled = false)) = some true := by
    decide
  simp only [bind_eq_some_iff, map_eq_some_iff, decide_eq_true_eq] at hall
  obtain ⟨s, hrun, s', hleave, w, hworker, w', hworker', phase, hphase, turn, hturn, hcontents,
    herrors, ⟨cell, hcell, hexec⟩, hcancelled⟩ := hall
  have hpc : w.pc = .tools phase := by
    unfold WorkerPc.toolPhase at hphase
    split at hphase
    · next heq =>
      cases hphase
      exact heq
    · cases hphase
  refine ⟨s, s', w, w', phase, turn, hrun, hleave, hworker, hpc, hworker', hturn, hcontents,
    fun hcomplete => ?_⟩
  have hcontent := congrArg (fun contents : List String => contents[1]?) hcontents
  have herror := congrArg (fun errors : List Bool => errors[1]?) herrors
  simp only [List.getElem?_map] at hcontent herror
  obtain ⟨record, hrecord, hempty⟩ := map_eq_some_iff.1 hcontent
  rw [hrecord] at herror
  have hnotError : record.isError = false := some.inj herror
  rcases hcomplete.filled 1 cell record hcell hrecord with ⟨output, houtcome, rfl⟩ | hmarked
  · cases houtcome with
    | own message hsent =>
      cases hexec.symm.trans hsent
      have htext : "text" = "" := hempty
      exact absurd htext (by decide)
    | died hdied => cases hexec.symm.trans hdied
    | cancelled | timedOut seconds | panicked => cases hnotError
  · cases hcancelled.symm.trans hmarked.1

end System

end Choreo
