import Choreo.Session.Requests
import Choreo.Session.Restart

/-!
# The redo memory

A session remembers the turns of the last undo for a redo. Starting a turn with user text forgets
them, but only in the state that the turn is started in, and that is the private copy of a worker.
The memory of the session thread survives an accepted input, so a redo still brings the turns back.
-/

namespace Choreo

open List Option

def SessionCommand.isRedo : SessionCommand → Bool
  | .redo => true
  | _ => false

def SessionCommand.isUndo : SessionCommand → Bool
  | .undo => true
  | _ => false

/-- Outputs that tell clients about redone turns. -/
def Output.isTurnsRedone : Output → Bool
  | .broadcast (.turnsRedone _) _ => true
  | _ => false

namespace System

/-- The step from `s` to `s'` changes no flag of a turn and announces no redone turns. -/
def RedoDiscarded (s s' : System) : Prop :=
  (∀ k : ℕ, s'.loop.state.turns[k]?.map Turn.undone = s.loop.state.turns[k]?.map Turn.undone) ∧
    s'.loop.log.countP Output.isTurnsRedone = s.loop.log.countP Output.isTurnsRedone

/-- A step that clears the redo memory of the session thread: a redo or a start. -/
def ClearsRedo (label : SystemLabel) (s : System) : Bool :=
  Handles SessionCommand.isRedo label s || label.isRestart

variable {setup : AgentSetup} {label : SystemLabel} {s s' : System}

theorem processStep_lastUndoTurnIds (env : CommandEnv) {command : SessionCommand}
    (queue : List SessionCommand) (hundo : command ≠ .undo) :
    (s.processStep env command queue).loop.state.lastUndoTurnIds =
      if command.isRedo then none else s.loop.state.lastUndoTurnIds := by
  have hcommand := Loop.processCommand_lastUndoTurnIds env command s.loop.clearSpawned hundo
  have hloop : (s.processStep env command queue).loop.state.lastUndoTurnIds =
      (s.continued env command queue).loop.state.lastUndoTurnIds := by
    rcases s.processStep_cases env command queue with heq | ⟨-, heq⟩ <;> rw [heq]
    rfl
  refine (hloop.trans hcommand).trans ?_
  cases command <;> rfl

theorem step_lastUndoTurnIds (hundo : Handles SessionCommand.isUndo label s = false)
    (h : s.step setup label = some s') :
    s'.loop.state.lastUndoTurnIds =
      if ClearsRedo label s then none else s.loop.state.lastUndoTurnIds := by
  rcases step_cases h with ⟨command, rfl, -, -, rfl⟩ | ⟨env, command, queue, rfl, -, hqueue, rfl⟩ |
    ⟨wlabel, w, effect, rfl, -, -, rfl⟩ | ⟨boot, record, rfl, -, rfl⟩
  · rfl
  · have hne : command ≠ .undo := by
      rintro rfl
      rw [Handles, hqueue] at hundo
      cases hundo
    rw [processStep_lastUndoTurnIds env queue hne, ClearsRedo, Handles, hqueue]
    simp only [SystemLabel.isProcess, SystemLabel.isRestart, List.head?_cons, any_some,
      Bool.true_and, Bool.or_false]
  · rfl
  · exact Loop.sessionMain_lastUndoTurnIds boot record s.loop.store s.loop.log

/-- The redo memory after a run that handles no undo: it is there as long as no step clears it. -/
theorem lastUndoTurnIds_of_run {labels : List SystemLabel}
    (hundo : StepSystem.Along (step setup)
      (fun label s => Handles SessionCommand.isUndo label s = false) labels s)
    (hrun : StepSystem.run (step setup) labels s = some s') :
    s'.loop.state.lastUndoTurnIds = none ↔
      s.loop.state.lastUndoTurnIds = none ∨
        ¬StepSystem.Along (step setup) (fun label s => ClearsRedo label s = false) labels s := by
  induction labels generalizing s with
  | nil =>
    cases hrun
    exact ⟨Or.inl, fun h => h.elim id fun hnot => absurd trivial hnot⟩
  | cons label labels ih =>
    obtain ⟨s₁, hstep, hrest⟩ := StepSystem.run_cons_eq_some.1 hrun
    rw [StepSystem.along_cons hstep] at hundo ⊢
    rw [ih hundo.2 hrest, step_lastUndoTurnIds hundo.1 hstep]
    cases ClearsRedo label s with
    | true => exact ⟨fun _ => Or.inr fun h => (by cases h.1), fun _ => Or.inl rfl⟩
    | false => simp only [Bool.false_eq_true, if_false, true_and]

/-- A redo does nothing exactly when there is nothing to redo. -/
theorem redoDiscarded_of_redo {env : CommandEnv} {queue : List SessionCommand}
    (hqueue : s.queue = .redo :: queue) (h : s.step setup (.process env) = some s') :
    RedoDiscarded s s' ↔ s.loop.state.lastUndoTurnIds = none := by
  rcases step_cases h with ⟨command, heq, -⟩ | ⟨env', command, queue', heq, -, hqueue', rfl⟩ |
    ⟨wlabel, w, effect, heq, -⟩ | ⟨boot, record, heq, -⟩
  · cases heq
  · cases heq
    cases hqueue.symm.trans hqueue'
    have hgoesOn : (s.loop.clearSpawned.processCommand env .redo).2 = false := by
      simp only [Loop.processCommand, Loop.handleRedo]
      split <;> rfl
    rw [processStep_eq_continued hgoesOn]
    cases hlast : s.loop.state.lastUndoTurnIds with
    | none =>
      have hsame : (s.continued env .redo queue).loop = s.loop.clearSpawned := by
        change (s.loop.clearSpawned.handleRedo env).1 = _
        simp only [Loop.handleRedo, SessionState.redoTurns, Loop.clearSpawned_state, hlast,
          map_none]
      refine ⟨fun _ => rfl, fun _ => ⟨fun k => ?_, ?_⟩⟩
      · rw [hsame]
        rfl
      · rw [hsame]
        rfl
    | some ids =>
      refine ⟨fun hdiscarded => ?_, fun hnone => by cases hnone⟩
      obtain ⟨recipients, hlog⟩ := Loop.log_handleRedo env
        (l := s.loop.clearSpawned) hlast
      have hcount := hdiscarded.2
      change (s.loop.clearSpawned.handleRedo env).1.log.countP Output.isTurnsRedone = _ at hcount
      rw [hlog, countP_cons_of_pos rfl] at hcount
      change s.loop.log.countP Output.isTurnsRedone + 1 = _ at hcount
      omega
  · cases heq
  · cases heq

/-- A redo that follows an accepted input, with no undo in between, is discarded if and only if there
was nothing to redo when the input was accepted, or a redo or a start came in between. -/
theorem redoDiscarded_iff (setup : AgentSetup) {s₀ s₁ s₂ s₃ : System} {env env' : CommandEnv}
    {requestId : ℕ} {input : String} {queue queue' : List SessionCommand}
    {labels : List SystemLabel}
    (hinput : s₀.queue = .runInput requestId input :: queue)
    (haccept : s₀.step setup (.process env) = some s₁) (_haccepted : s₁.loop.spawned.isSome = true)
    (hundo : StepSystem.Along (step setup)
      (fun label s => Handles SessionCommand.isUndo label s = false) labels s₁)
    (hrun : StepSystem.run (step setup) labels s₁ = some s₂)
    (hredo : s₂.queue = .redo :: queue')
    (hstep : s₂.step setup (.process env') = some s₃) :
    RedoDiscarded s₂ s₃ ↔
      s₀.loop.state.lastUndoTurnIds = none ∨
        ¬StepSystem.Along (step setup) (fun label s => ClearsRedo label s = false) labels s₁ := by
  have hkept : s₁.loop.state.lastUndoTurnIds = s₀.loop.state.lastUndoTurnIds := by
    have hnotundo : Handles SessionCommand.isUndo (.process env) s₀ = false := by
      rw [Handles, hinput]
      rfl
    have hnotclears : ClearsRedo (.process env) s₀ = false := by
      rw [ClearsRedo, Handles, hinput]
      rfl
    rw [step_lastUndoTurnIds hnotundo haccept, hnotclears]
    rfl
  rw [redoDiscarded_of_redo hredo hstep, lastUndoTurnIds_of_run hundo hrun, hkept]

/-- An undo, and an input that waits in the command channel. -/
def inputAfterUndo : List SystemLabel :=
  [SystemLabel.restart Sample.boot] ++ Sample.post .undo ++ [SystemLabel.send (.runInput 1 "again")]

/-- The second of two redos after an accepted input is discarded. -/
theorem redoDiscarded_secondRedo :
    ∃ s₀ s₁ s₂ s₃, StepSystem.run (step Sample.setup) inputAfterUndo (init Sample.oneTurn) = some s₀ ∧
      s₀.step Sample.setup (.process Sample.env) = some s₁ ∧ s₁.loop.spawned.isSome = true ∧
      StepSystem.run (step Sample.setup) (Sample.post .redo ++ [.send .redo]) s₁ = some s₂ ∧
      s₂.step Sample.setup (.process Sample.env) = some s₃ ∧ RedoDiscarded s₂ s₃ := by
  have hall : ((StepSystem.run (step Sample.setup) inputAfterUndo (init Sample.oneTurn)).bind fun s₀ =>
      (s₀.step Sample.setup (.process Sample.env)).bind fun s₁ =>
      (StepSystem.run (step Sample.setup) (Sample.post .redo ++ [.send .redo]) s₁).bind fun s₂ =>
      (s₂.step Sample.setup (.process Sample.env)).map fun _ =>
        (s₀.queue, s₁.loop.spawned.isSome,
          decide (StepSystem.Along (step Sample.setup)
            (fun label s => Handles SessionCommand.isUndo label s = false)
            (Sample.post .redo ++ [.send .redo]) s₁),
          decide (StepSystem.Along (step Sample.setup) (fun label s => ClearsRedo label s = false)
            (Sample.post .redo ++ [.send .redo]) s₁), s₂.queue)) =
      some ([.runInput 1 "again"], true, true, false, [.redo]) := by
    decide
  simp only [bind_eq_some_iff, map_eq_some_iff, Prod.mk.injEq] at hall
  obtain ⟨s₀, hpre, s₁, haccept, s₂, hrun, s₃, hstep, hinput, haccepted, hundo, hclears, hredo⟩ :=
    hall
  refine ⟨s₀, s₁, s₂, s₃, hpre, haccept, haccepted, hrun, hstep, ?_⟩
  exact (redoDiscarded_iff Sample.setup hinput haccept haccepted (of_decide_eq_true hundo) hrun
    hredo hstep).2 (Or.inr (of_decide_eq_false hclears))

/-- A redo right after an accepted input brings the turn back. -/
theorem not_redoDiscarded_afterInput :
    ∃ s₀ s₁ s₂ s₃, StepSystem.run (step Sample.setup) inputAfterUndo (init Sample.oneTurn) = some s₀ ∧
      s₀.queue = [.runInput 1 "again"] ∧
      s₀.step Sample.setup (.process Sample.env) = some s₁ ∧ s₁.loop.spawned.isSome = true ∧
      s₁.step Sample.setup (.send .redo) = some s₂ ∧ s₂.queue = [.redo] ∧
      s₂.step Sample.setup (.process Sample.env) = some s₃ ∧
      s₂.loop.state.turns[0]?.map Turn.undone = some true ∧
      s₃.loop.state.turns[0]?.map Turn.undone = some false ∧ ¬RedoDiscarded s₂ s₃ := by
  have hall : ((StepSystem.run (step Sample.setup) inputAfterUndo (init Sample.oneTurn)).bind fun s₀ =>
      (s₀.step Sample.setup (.process Sample.env)).bind fun s₁ =>
      (s₁.step Sample.setup (.send .redo)).bind fun s₂ =>
      (s₂.step Sample.setup (.process Sample.env)).map fun s₃ =>
        (s₀.queue, s₁.loop.spawned.isSome, s₂.queue, s₂.loop.state.turns[0]?.map Turn.undone,
          s₃.loop.state.turns[0]?.map Turn.undone)) =
      some ([.runInput 1 "again"], true, [.redo], some true, some false) := by
    decide +kernel
  simp only [bind_eq_some_iff, map_eq_some_iff, Prod.mk.injEq] at hall
  obtain ⟨s₀, hpre, s₁, haccept, s₂, hsend, s₃, hstep, hinput, haccepted, hredo, hbefore, hafter⟩ :=
    hall
  refine ⟨s₀, s₁, s₂, s₃, hpre, hinput, haccept, haccepted, hsend, hredo, hstep,
    ?_, ?_, fun hdiscarded => ?_⟩
  · simpa only [map_eq_some_iff] using hbefore
  · simpa only [map_eq_some_iff] using hafter
  · obtain ⟨turn, hturn, hundone⟩ := hbefore
    obtain ⟨turn', hturn', hundone'⟩ := hafter
    have hflag := hdiscarded.1 0
    rw [hturn, hturn', map_some, map_some, hundone, hundone'] at hflag
    cases hflag

end System

end Choreo
