import Choreo.Session.Requests
import Choreo.Session.Restart

/-!
# Configuration changes during a request

The commands that change the configuration of a session may come while a request runs. The end of
the request takes back only what the worker owns, but that includes the context window, which the
worker never changes: its value from before the request overwrites the one that was resolved in the
meantime.
-/

namespace Choreo

open List Option

/-- The part of the configuration that users see and set. -/
structure UserConfig where
  selectedModel : Option String
  accountName : Option String
  title : Option String
  workingDir : Option PathBuf
  activeToolGroups : Std.ExtTreeSet String
  reasoningEffort : Option String
  contextWindow : Option UInt32
deriving DecidableEq

/-- The part of a configuration that users see and set. -/
def SessionConfig.userConfig (config : SessionConfig) : UserConfig where
  selectedModel := config.selectedModel
  accountName := config.accountName
  title := config.title
  workingDir := config.workingDir
  activeToolGroups := config.activeToolGroups
  reasoningEffort := config.reasoningEffort
  contextWindow := config.contextWindow

def SessionCommand.isConfig : SessionCommand → Bool
  | .setModel _ | .setAccount _ | .setTitle _ | .setWorkingDir .. => true
  | .loadTools .. | .unloadTools .. | .setReasoningEffort _ => true
  | _ => false

namespace Loop

/-- The user's configuration and the cached provider. -/
def settings (l : Loop) : UserConfig × Option InferenceProvider :=
  (l.state.config.userConfig, l.state.provider)

variable (env : CommandEnv)

theorem settings_broadcast (event : SessionEvent) (l : Loop) :
    (l.broadcast env event).settings = l.settings := rfl

theorem settings_cancelRequest (requestId : ℕ) (l : Loop) :
    (l.cancelRequest env requestId).settings = l.settings := by
  unfold cancelRequest
  split <;> rfl

theorem settings_foldl {α : Type*} (body : Loop → α → Loop)
    (h : ∀ l a, (body l a).settings = l.settings) (as : List α) (l : Loop) :
    (as.foldl body l).settings = l.settings := by
  induction as generalizing l with
  | nil => rfl
  | cons a as ih => rw [foldl_cons, ih, h]

theorem settings_writeTurns (ids : List ℕ) (l : Loop) :
    (l.writeTurns env ids).settings = l.settings := by
  refine settings_foldl _ (fun l id => ?_) ids l
  split <;> rfl

theorem settings_dropResponseChain (l : Loop) :
    (l.dropResponseChain env).settings = l.settings := by
  unfold dropResponseChain
  split_ifs <;> rfl

theorem settings_handleUndo (l : Loop) :
    (l.handleUndo env).1.settings = l.settings := by
  unfold handleUndo
  split
  · rfl
  · next ids state hundo =>
    obtain ⟨-, rfl⟩ := SessionState.undoTurns_spec hundo
    dsimp only
    rw [settings_broadcast, settings_writeTurns, settings_dropResponseChain]
    rfl

theorem settings_handleRedo (l : Loop) :
    (l.handleRedo env).1.settings = l.settings := by
  unfold handleRedo
  split
  · rfl
  · next turns state hredo =>
    obtain ⟨ids, -, -, rfl⟩ := SessionState.redoTurns_spec hredo
    dsimp only
    rw [settings_broadcast, settings_foldl]
    · rfl
    · intro l entry
      rfl

theorem inputProvider_of_isSome {env : CommandEnv} {l l₁ : Loop} {provider : InferenceProvider}
    (hcached : l.state.provider.isSome = true) (h : l.inputProvider env = .ok (provider, l₁)) :
    l₁ = l := by
  unfold inputProvider at h
  split at h
  · cases h
    rfl
  · next hnone _ =>
    rw [hnone] at hcached
    cases hcached
  · next hnone _ =>
    rw [hnone] at hcached
    cases hcached

/-- Commands that neither set the configuration nor end a request keep the settings; a user input may
still cache a provider. -/
theorem processCommand_settings_of_ne_runInput {command : SessionCommand}
    (hconfig : command.isConfig = false) (hfin : command.finishedId = none)
    (hinput : ∀ requestId input, command ≠ .runInput requestId input) (l : Loop) :
    (l.processCommand env command).1.settings = l.settings := by
  cases command with
  | runInput requestId input => exact absurd rfl (hinput requestId input)
  | runChildInput requestId userText reply =>
    rcases l.handleRunChildInput_cases env requestId userText reply with
      ⟨error, heq⟩ | ⟨provider, -, -, -, heq⟩
    · simp only [processCommand, heq]
      rfl
    · simp only [processCommand, heq]
      rfl
  | cancel requestId => exact settings_foldl _ (fun l id => settings_cancelRequest env id l) _ l
  | shutdown => exact settings_foldl _ (fun l id => settings_cancelRequest env id l) _ _
  | attach clientId =>
    simp only [processCommand, handleAttach]
    exact settings_foldl (fun l (entry : ℕ × ActiveRequest) => l.send _) (fun _ _ => rfl) _ _
  | undo => exact settings_handleUndo env l
  | redo => exact settings_handleRedo env l
  | requestFinished requestId snapshot => cases hfin
  | setModel model => cases hconfig
  | setAccount name => cases hconfig
  | setTitle title => cases hconfig
  | setWorkingDir path reply => cases hconfig
  | loadTools groups reply | unloadTools groups reply | setReasoningEffort effort => cases hconfig
  | _ => rfl

/-- Commands that neither set the configuration nor end a request keep the settings, as long as a
provider is cached. -/
theorem processCommand_settings {command : SessionCommand}
    (hconfig : command.isConfig = false) (hfin : command.finishedId = none) {l : Loop}
    (hcached : l.state.provider.isSome = true) :
    (l.processCommand env command).1.settings = l.settings := by
  cases command with
  | runInput requestId input =>
    rcases l.handleRunInput_cases env requestId input with
      ⟨l₁, error, hl₁, heq⟩ | ⟨l₁, provider, model, hprovider, -, -, -, heq⟩
    · have hsame : l₁ = l := hl₁.elim id fun ⟨_, hok⟩ => inputProvider_of_isSome hcached hok
      simp only [processCommand, heq, hsame]
      rfl
    · simp only [processCommand, heq, inputProvider_of_isSome hcached hprovider]
      rfl
  | _ => exact processCommand_settings_of_ne_runInput env hconfig hfin (fun _ _ h => by cases h) l

theorem provider_announceContextWindow (cw : Option UInt32) (l : Loop) :
    (l.announceContextWindow env cw).state.provider = l.state.provider := by
  cases cw <;> rfl

theorem provider_handleSetModel (model : String) (l : Loop) :
    (l.handleSetModel env model).1.state.provider = l.state.provider := by
  unfold handleSetModel
  split
  · rfl
  · have hselect : (l.selectModel env model).state.provider = l.state.provider :=
      provider_announceContextWindow env _ _
    have hreset : ∀ capability (l : Loop),
        (l.resetReasoningEffort env capability).state.provider = l.state.provider := by
      intro capability l
      unfold resetReasoningEffort
      split
      · split_ifs <;> rfl
      · rfl
    exact (hreset _ _).trans hselect

theorem provider_foldl {α : Type*} (body : Loop → α → Loop)
    (h : ∀ l a, (body l a).state.provider = l.state.provider) (as : List α) (l : Loop) :
    (as.foldl body l).state.provider = l.state.provider := by
  induction as generalizing l with
  | nil => rfl
  | cons a as ih => rw [foldl_cons, ih, h]

theorem provider_handleRequestFinished (requestId : ℕ)
    (snapshot : SessionSnapshot) (l : Loop) :
    (l.handleRequestFinished env requestId snapshot).1.state.provider = l.state.provider := by
  unfold handleRequestFinished
  dsimp only
  set l' : Loop := (l.dropStaleChain snapshot).turns.toList.foldl (mergeTurn env) _ with hl'
  have hprovider : l'.state.provider = l.state.provider := by
    rw [hl', provider_foldl]
    · rfl
    · intro l entry
      unfold mergeTurn
      dsimp only
      split
      · rfl
      · split_ifs <;> rfl
  exact hprovider

/-- A cached provider may be replaced, but it is not dropped. -/
theorem isSome_provider_processCommand (command : SessionCommand) {l : Loop}
    (hcached : l.state.provider.isSome = true) :
    (l.processCommand env command).1.state.provider.isSome = true := by
  have hsame : ∀ {l' : Loop}, l'.state.provider = l.state.provider →
      l'.state.provider.isSome = true := fun heq => heq.symm ▸ hcached
  cases hconfig : command.isConfig with
  | false =>
    cases hfin : command.finishedId with
    | none => exact hsame (congrArg Prod.snd (processCommand_settings env hconfig hfin hcached))
    | some id =>
      cases command with
      | requestFinished requestId snapshot =>
        exact hsame (provider_handleRequestFinished env requestId snapshot l)
      | _ => cases hfin
  | true =>
    cases command with
    | setModel model => exact hsame (provider_handleSetModel env model l)
    | setAccount name =>
      simp only [processCommand, handleSetAccount]
      split
      · exact hcached
      · rfl
    | setTitle title =>
      simp only [processCommand, handleSetTitle]
      split_ifs <;> exact hcached
    | setWorkingDir path reply => exact hcached
    | loadTools groups reply =>
      simp only [processCommand, handleLoadTools, changeToolGroups]
      split <;> exact hcached
    | unloadTools groups reply =>
      simp only [processCommand, handleUnloadTools, changeToolGroups]
      split <;> exact hcached
    | setReasoningEffort effort =>
      simp only [processCommand, handleSetReasoningEffort]
      split_ifs <;> exact hcached
    | _ => cases hconfig

theorem userConfig_handleRequestFinished (requestId : ℕ)
    (snapshot : SessionSnapshot) (l : Loop) :
    (l.handleRequestFinished env requestId snapshot).1.state.config.userConfig =
      { l.state.config.userConfig with contextWindow := snapshot.config.contextWindow } := by
  unfold handleRequestFinished
  dsimp only
  have hwindow : (l.dropStaleChain snapshot).config.contextWindow =
      snapshot.config.contextWindow := by
    unfold dropStaleChain
    split_ifs <;> rfl
  set l' : Loop := (l.dropStaleChain snapshot).turns.toList.foldl (mergeTurn env) _ with hl'
  have hsettings : l'.settings.1 =
      { l.state.config.userConfig with contextWindow := snapshot.config.contextWindow } := by
    rw [hl', settings_foldl, ← hwindow]
    · rfl
    · intro l entry
      unfold mergeTurn
      dsimp only
      split
      · rfl
      · split_ifs <;> rfl
  exact hsettings

end Loop

namespace System

def userConfig (s : System) : UserConfig := s.loop.state.config.userConfig

/-- A request is in flight that started with the given context window, and a provider is cached. -/
structure InFlight (cw : Option UInt32) (s : System) : Prop where
  invariant : s.Invariant
  pending : s.pending ≠ []
  cached : s.loop.state.provider.isSome = true
  worker : ∀ w, s.worker = some w → w.initialSnapshot.config.contextWindow = cw
  finished : ∀ requestId snapshot, .requestFinished requestId snapshot ∈ s.queue →
    snapshot.config.contextWindow = cw

/-- Steps of a request in flight: no start, and no end of a request. -/
def Running (label : SystemLabel) (s : System) : Prop :=
  label.isRestart = false ∧
    Handles (fun command => command.finishedId.isSome) label s = false

instance (label : SystemLabel) (s : System) : Decidable (Running label s) :=
  inferInstanceAs (Decidable (_ ∧ _))

variable {setup : AgentSetup} {label : SystemLabel} {s s' : System} {cw : Option UInt32}

theorem inFlight_of_accepts (hs : s.Invariant) (hlive : s.live = true) {env : CommandEnv}
    {command : SessionCommand} {queue : List SessionCommand} (hqueue : s.queue = command :: queue)
    {requestId : ℕ} {args : WorkerArgs}
    (haccepts : s.loop.clearSpawned.Accepts requestId args (s.continued env command queue).loop)
    (hworker : (s.continued env command queue).worker = some (Worker.spawn args)) :
    InFlight (s.continued env command queue).userConfig.contextWindow
      (s.continued env command queue) := by
  have hinv := continued_invariant hs hlive env hqueue
  refine ⟨hinv, ?_, ?_, fun w hw => ?_, fun id snapshot hmem => ?_⟩
  · rw [hinv.pending_of_worker hworker]
    exact cons_ne_nil _ _
  · rw [haccepts.cached]
    rfl
  · cases hworker.symm.trans hw
    change args.session.config.contextWindow = _
    rw [haccepts.args_session]
    rfl
  · have hnone := filterMap_eq_nil_iff.1 (hinv.finished_of_worker hworker) _ hmem
    cases hnone

/-- A step of a request in flight; unless it sets the configuration, the configuration stays. -/
theorem InFlight.step (h : InFlight cw s) (hrunning : Running label s)
    (hstep : s.step setup label = some s') :
    InFlight cw s' ∧
      (Handles SessionCommand.isConfig label s = false → s'.userConfig = s.userConfig) := by
  have hinv := step_invariant h.invariant hstep
  rcases step_cases hstep with ⟨command, rfl, hlive, hext, rfl⟩ |
    ⟨env, command, queue, rfl, hlive, hqueue, rfl⟩ | ⟨wlabel, w, effect, rfl, hworker, hwork, rfl⟩ |
    ⟨boot, record, rfl, -, rfl⟩
  · have hpending : System.pending { s with queue := s.queue ++ [command] } = s.pending := by
      unfold System.pending
      rw [filterMap_append, filterMap_cons_none
        (SessionCommand.finishedId_of_isExternal hext), filterMap_nil, append_nil]
    refine ⟨⟨hinv, hpending ▸ h.pending, h.cached, h.worker, fun id snapshot hmem => ?_⟩,
      fun _ => rfl⟩
    rcases mem_append.1 hmem with hold | hnew
    · exact h.finished id snapshot hold
    · cases mem_singleton.1 hnew
      cases hext
  · have hfin : command.finishedId = none := by
      have hnot := hrunning.2
      rw [Handles, hqueue] at hnot
      cases hid : command.finishedId with
      | none => rfl
      | some id =>
        simp only [SystemLabel.isProcess, List.head?_cons, any_some, hid] at hnot
        cases hnot
    have hcont := processStep_of_pending h.invariant hlive env hqueue hfin h.pending
    obtain ⟨hpending, hworker⟩ := continued_pending h.invariant env hqueue hfin h.pending
    rw [hcont] at hinv ⊢
    have hcached : s.loop.clearSpawned.state.provider.isSome = true := h.cached
    refine ⟨⟨hinv, hpending ▸ h.pending, ?_, fun w hw => ?_, fun id snapshot hmem => ?_⟩,
      fun hconfig => ?_⟩
    · exact Loop.isSome_provider_processCommand env command hcached
    · exact h.worker w (hworker.symm.trans hw)
    · refine h.finished id snapshot ?_
      rw [hqueue]
      exact mem_cons_of_mem _ hmem
    · rw [Handles, hqueue] at hconfig
      exact congrArg Prod.fst (Loop.processCommand_settings env hconfig hfin hcached)
  · have hw := h.invariant.worker w hworker
    have hlive := h.invariant.live_of_worker hworker
    refine ⟨⟨hinv, ?_, h.cached, fun w' hw' => ?_, fun id snapshot hmem => ?_⟩, fun _ => rfl⟩
    · rw [workStep_pending h.invariant hworker hwork]
      exact h.pending
    · rcases Worker.step_shape hwork with ⟨w'', heq, -, hbase, -, -⟩ | ⟨outcome, snapshot, -, rfl⟩
      · cases heq.symm.trans hw'
        rw [hbase]
        exact h.worker w hworker
      · cases hw'
    · have hqueue : (s.workStep effect).queue = s.queue ++ effect.command.toList := by
        unfold workStep
        rw [hlive]
        rfl
      rw [hqueue] at hmem
      rcases mem_append.1 hmem with hold | hnew
      · exact h.finished id snapshot hold
      · rw [mem_toList] at hnew
        rcases Worker.step_shape hwork with ⟨w', -, -, -, -, hcommand⟩ |
          ⟨outcome, snapshot', hpc, rfl⟩
        · have hnone := hw.finishedId_of_mem_outbox (hcommand _ hnew).2
          cases hnone
        · cases hnew
          rw [← h.worker w hworker]
          rcases hw.handedBack snapshot (by rw [hpc]; rfl) with rfl | rfl
          · rfl
          · exact hw.session.contextWindow
  · cases hrunning.1

theorem InFlight.run (h : InFlight cw s) {labels : List SystemLabel}
    (hrunning : StepSystem.Along (System.step setup) Running labels s)
    (hrun : StepSystem.run (System.step setup) labels s = some s') : InFlight cw s' :=
  StepSystem.invariant_of_along (I := InFlight cw)
    (fun _ _ _ hG hI hstep => (InFlight.step hI hG hstep).1) h hrunning hrun

theorem InFlight.userConfig_run (h : InFlight cw s) {labels : List SystemLabel}
    (hrunning : StepSystem.Along (System.step setup)
      (fun label s => Running label s ∧ Handles SessionCommand.isConfig label s = false) labels s)
    (hrun : StepSystem.run (System.step setup) labels s = some s') :
    s'.userConfig = s.userConfig := by
  have hboth : InFlight cw s' ∧ s'.userConfig = s.userConfig :=
    StepSystem.invariant_of_along (I := fun t => InFlight cw t ∧ t.userConfig = s.userConfig)
      (fun _ _ _ hG hI hstep =>
        have hnext := InFlight.step hI.1 hG.1 hstep
        ⟨hnext.1, (hnext.2 hG.2).trans hI.2⟩) ⟨h, rfl⟩ hrunning hrun
  exact hboth.2

/-- A request is accepted (`s₁`); configuration commands are handled, up to the last one (`s₂`); the
request goes on (`s₃`) and its end is handled (`s₄`). The configuration is then that after the last
command if and only if the context window after it is that from the acceptance. -/
theorem userConfig_finished_iff (setup : AgentSetup) (store : Store)
    {pre before after : List SystemLabel} {s₀ s₁ s₂ s₃ s₄ : System} {env env' : CommandEnv}
    {requestId : ℕ} {snapshot : SessionSnapshot} {queue : List SessionCommand}
    (hpre : StepSystem.run (System.step setup) pre (init store) = some s₀)
    (haccept : s₀.step setup (.process env) = some s₁) (haccepted : s₁.loop.spawned.isSome = true)
    (hbefore : StepSystem.Along (System.step setup) Running before s₁)
    (hrun : StepSystem.run (System.step setup) before s₁ = some s₂)
    (hafter : StepSystem.Along (System.step setup)
      (fun label s => Running label s ∧ Handles SessionCommand.isConfig label s = false) after s₂)
    (hrun' : StepSystem.run (System.step setup) after s₂ = some s₃)
    (hfinished : s₃.queue = .requestFinished requestId snapshot :: queue)
    (hstep : s₃.step setup (.process env') = some s₄) :
    s₄.userConfig = s₂.userConfig ↔
      s₂.userConfig.contextWindow = s₁.userConfig.contextWindow := by
  have hinv : s₀.Invariant :=
    StepSystem.invariant_of_run (fun _ _ _ hI hst => step_invariant hI hst) (init_invariant store) hpre
  have hflight : InFlight s₁.userConfig.contextWindow s₁ := by
    obtain ⟨command, queue₁, id, args, hlive, hqueue, rfl, haccepts, hspawn⟩ :=
      accepts_of_spawned haccept haccepted
    exact inFlight_of_accepts hinv hlive hqueue haccepts hspawn
  have hflight₃ := (hflight.run hbefore hrun).run (hafter.mono fun _ _ hG => hG.1) hrun'
  have hsame := (hflight.run hbefore hrun).userConfig_run hafter hrun'
  have hwindow := hflight₃.finished requestId snapshot (by
    rw [hfinished]
    exact mem_cons_self)
  have hend : s₄.userConfig =
      { s₂.userConfig with contextWindow := s₁.userConfig.contextWindow } := by
    rw [← hsame, ← hwindow]
    rcases step_cases hstep with ⟨command, heq, -⟩ | ⟨env₁, command, queue₁, heq, -, hqueue, rfl⟩ |
      ⟨wlabel, w, effect, heq, -⟩ | ⟨boot, record, heq, -⟩
    · cases heq
    · cases heq
      cases hfinished.symm.trans hqueue
      have hloop : (s₃.processStep env' (.requestFinished requestId snapshot) queue).userConfig =
          (s₃.continued env' (.requestFinished requestId snapshot) queue).userConfig := by
        rcases s₃.processStep_cases env' (.requestFinished requestId snapshot) queue with
          heq | ⟨-, heq⟩ <;> rw [heq]
        rfl
      rw [hloop]
      exact Loop.userConfig_handleRequestFinished env' requestId snapshot s₃.loop.clearSpawned
    · cases heq
    · cases heq
  rw [hend]
  refine ⟨fun heq => (congrArg UserConfig.contextWindow heq).symm, fun heq => ?_⟩
  rw [← heq]

/-- An input that waits in the command channel. -/
def waitingInput : List SystemLabel := [.restart Sample.boot, .send (.runInput 1 "again")]

/-- The worker is at its model call when the given command is handled. -/
def configDuringCall (command : SessionCommand) : List SystemLabel :=
  Sample.call ++ Sample.drain 3 ++ Sample.post command

/-- The model answers, up to the end of the request. -/
def answered : List SystemLabel := Sample.answer none ++ Sample.drain 3

/-- A change of the title during a request is kept. -/
theorem userConfig_setTitle_duringRequest :
    ∃ s₀ s₁ s₂ s₃ s₄,
      StepSystem.run (System.step Sample.setup) waitingInput (init Sample.oneTurn) = some s₀ ∧
      s₀.step Sample.setup (.process Sample.env) = some s₁ ∧
      StepSystem.run (System.step Sample.setup) (configDuringCall (.setTitle "talk")) s₁ = some s₂ ∧
      StepSystem.run (System.step Sample.setup) answered s₂ = some s₃ ∧
      s₃.step Sample.setup (.process Sample.env) = some s₄ ∧
      s₂.userConfig.title = some "talk" ∧ s₄.userConfig = s₂.userConfig := by
  have hall : ((StepSystem.run (System.step Sample.setup) waitingInput
        (init Sample.oneTurn)).bind fun s₀ =>
      (s₀.step Sample.setup (.process Sample.env)).bind fun s₁ =>
      (StepSystem.run (System.step Sample.setup) (configDuringCall (.setTitle "talk")) s₁).bind
        fun s₂ =>
      (StepSystem.run (System.step Sample.setup) answered s₂).bind fun s₃ =>
      (s₃.step Sample.setup (.process Sample.env)).map fun _ =>
        decide (s₁.loop.spawned.isSome = true ∧
          StepSystem.Along (System.step Sample.setup) Running
            (configDuringCall (.setTitle "talk")) s₁ ∧
          StepSystem.Along (System.step Sample.setup)
            (fun label s => Running label s ∧ Handles SessionCommand.isConfig label s = false)
            answered s₂ ∧
          s₃.finishing.isSome = true ∧ s₂.userConfig.title = some "talk" ∧
          s₂.userConfig.contextWindow = s₁.userConfig.contextWindow)) = some true := by
    decide
  simp only [bind_eq_some_iff, map_eq_some_iff, decide_eq_true_eq] at hall
  obtain ⟨s₀, hpre, s₁, haccept, s₂, hrun, s₃, hrun', s₄, hstep, haccepted, hbefore, hafter,
    hfinishing, htitle, hwindow⟩ := hall
  obtain ⟨requestId, snapshot, queue, hfinished⟩ := exists_of_isSome_finishing hfinishing
  refine ⟨s₀, s₁, s₂, s₃, s₄, hpre, haccept, hrun, hrun', hstep, htitle, ?_⟩
  exact (userConfig_finished_iff Sample.setup Sample.oneTurn hpre haccept haccepted
    hbefore hrun hafter hrun' hfinished hstep).2 hwindow

/-- A model that is selected during a request keeps its name, but loses its context window when the
request ends. -/
theorem userConfig_setModel_duringRequest :
    ∃ s₀ s₁ s₂ s₃ s₄,
      StepSystem.run (System.step Sample.setup) waitingInput (init Sample.oneTurn) = some s₀ ∧
      s₀.step Sample.setup (.process Sample.env) = some s₁ ∧ s₁.loop.spawned.isSome = true ∧
      StepSystem.run (System.step Sample.setup) (configDuringCall (.setModel "large")) s₁ = some s₂ ∧
      StepSystem.run (System.step Sample.setup) answered s₂ = some s₃ ∧
      s₃.finishing.isSome = true ∧ s₃.step Sample.setup (.process Sample.env) = some s₄ ∧
      s₂.userConfig.selectedModel = some "large" ∧ s₂.userConfig.contextWindow = some 200 ∧
      s₄.userConfig.selectedModel = some "large" ∧ s₄.userConfig.contextWindow = some 100 ∧
      s₄.userConfig ≠ s₂.userConfig := by
  have hall : ((StepSystem.run (System.step Sample.setup) waitingInput
        (init Sample.oneTurn)).bind fun s₀ =>
      (s₀.step Sample.setup (.process Sample.env)).bind fun s₁ =>
      (StepSystem.run (System.step Sample.setup) (configDuringCall (.setModel "large")) s₁).bind
        fun s₂ =>
      (StepSystem.run (System.step Sample.setup) answered s₂).bind fun s₃ =>
      (s₃.step Sample.setup (.process Sample.env)).map fun s₄ =>
        decide (s₁.loop.spawned.isSome = true ∧ s₃.finishing.isSome = true ∧
          s₂.userConfig.selectedModel = some "large" ∧ s₂.userConfig.contextWindow = some 200 ∧
          s₄.userConfig.selectedModel = some "large" ∧
          s₄.userConfig.contextWindow = some 100)) = some true := by
    decide
  simp only [bind_eq_some_iff, map_eq_some_iff, decide_eq_true_eq] at hall
  obtain ⟨s₀, hpre, s₁, haccept, s₂, hrun, s₃, hrun', s₄, hstep, haccepted, hfinishing, hmodel,
    hwindow, hmodel', hwindow'⟩ := hall
  refine ⟨s₀, s₁, s₂, s₃, s₄, hpre, haccept, haccepted, hrun, hrun', hfinishing, hstep, hmodel,
    hwindow, hmodel', hwindow', fun heq => ?_⟩
  rw [heq, hwindow] at hwindow'
  cases hwindow'

end System

end Choreo
