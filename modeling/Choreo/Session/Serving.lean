import Choreo.Session.Requests

/-!
# What a session thread keeps while it serves

A handled command never removes the record of the session and never announces the end of the thread;
only the way out of the loop does, after everything else.
-/

namespace Choreo

open List Option

namespace Output

/-- Outputs that are neither broadcasts nor concern the subscriptions or the end of the thread. -/
def isPlain : Output → Bool
  | .broadcast .. | .trackSessionSubscription _ | .untrackSessionSubscription _ => false
  | .sessionExited => false
  | _ => true

end Output

def SessionCommand.subscribes : SessionCommand → Bool
  | .attach _ | .detach _ | .removeSubscriber _ => true
  | _ => false

namespace Loop

/-- What a session thread does with a command that changes no subscription, move by move: it works
on its state and its store, sends a plain output, or broadcasts. -/
inductive Moves (env : CommandEnv) : Loop → Loop → Prop
  | quiet {l l' : Loop} (record : l.store.record.isSome = true → l'.store.record.isSome = true)
      (log : l'.log = l.log) (subscribers : l'.state.subscribers = l.state.subscribers) :
      Moves env l l'
  | send (l : Loop) {output : Output} (plain : output.isPlain = true) : Moves env l (l.send output)
  | broadcast (event : SessionEvent) (l : Loop) : Moves env l (l.broadcast env event)
  | trans {l l' l'' : Loop} (first : Moves env l l') (second : Moves env l' l'') : Moves env l l''

namespace Moves

variable {env : CommandEnv} {l l' : Loop}

theorem refl (l : Loop) : Moves env l l := .quiet id rfl rfl

theorem of_eq (hrecord : l'.store.record = l.store.record) (hlog : l'.log = l.log)
    (hsubscribers : l'.state.subscribers = l.state.subscribers) : Moves env l l' :=
  .quiet (fun h => by rw [hrecord, h]) hlog hsubscribers

theorem modifyConfig (l : Loop) (f : SessionConfig → SessionConfig) :
    Moves env l (l.modifyConfig f) :=
  of_eq rfl rfl rfl

theorem writeRecord (env : CommandEnv) (l : Loop) : Moves env l (l.writeRecord env) := by
  refine .quiet (fun h => ?_) rfl rfl
  simp only [Loop.writeRecord, Store.writeSessionRetry]
  by_cases hok : env.recordWrite = true
  · rw [if_pos hok]
    rfl
  · rw [if_neg hok]
    exact h

theorem writeTurn (turnId : ℕ) (turn : Turn) (l : Loop) :
    Moves env l (l.writeTurn env turnId turn) := by
  refine of_eq ?_ rfl rfl
  simp only [Loop.writeTurn, Store.writeTurnRetry]
  by_cases hok : env.turnWrite turnId = true
  · rw [if_pos hok]
    rfl
  · rw [if_neg hok]

theorem foldl {α : Type*} (body : Loop → α → Loop) (h : ∀ l a, Moves env l (body l a))
    (as : List α) (l : Loop) : Moves env l (as.foldl body l) := by
  induction as generalizing l with
  | nil => exact refl l
  | cons a as ih => exact (h l a).trans (ih _)

/-- The record stays. -/
theorem record (h : Moves env l l') (hrecord : l.store.record.isSome = true) :
    l'.store.record.isSome = true := by
  induction h with
  | quiet hkeep _ _ => exact hkeep hrecord
  | send _ _ | broadcast _ _ => exact hrecord
  | trans _ _ ih ih' => exact ih' (ih hrecord)

/-- The end of the thread is not announced. -/
theorem log (h : Moves env l l') :
    ∃ sent, l'.log = sent ++ l.log ∧ Output.sessionExited ∉ sent := by
  induction h with
  | quiet _ hlog _ => exact ⟨[], hlog, not_mem_nil⟩
  | send _ hplain =>
    refine ⟨[_], rfl, fun hmem => ?_⟩
    rw [← mem_singleton.1 hmem] at hplain
    cases hplain
  | broadcast event l => exact ⟨[.broadcast event _], rfl, by simp⟩
  | trans _ _ ih ih' =>
    obtain ⟨sent, hlog, hsent⟩ := ih
    obtain ⟨sent', hlog', hsent'⟩ := ih'
    refine ⟨sent' ++ sent, ?_, ?_⟩
    · rw [hlog', hlog, append_assoc]
    · rw [mem_append]
      rintro (hmem | hmem)
      · exact hsent' hmem
      · exact hsent hmem

theorem persistSessionMetadata (env : CommandEnv) (l : Loop) :
    Moves env l (l.persistSessionMetadata env) :=
  (modifyConfig l _).trans ((send _ rfl).trans (writeRecord env _))

theorem announceContextWindow (env : CommandEnv) (cw : Option UInt32) (l : Loop) :
    Moves env l (l.announceContextWindow env cw) := by
  cases cw with
  | none => exact refl l
  | some cw => exact broadcast _ l

theorem resolveContextWindowIfMissing (env : CommandEnv) (l : Loop) :
    Moves env l (l.resolveContextWindowIfMissing env) := by
  unfold Loop.resolveContextWindowIfMissing
  split
  · split
    · exact (modifyConfig l _).trans (broadcast _ _)
    · exact refl l
  · exact refl l

theorem inputProvider {env : CommandEnv} (h : l' = l ∨ ∃ provider,
    l.inputProvider env = .ok (provider, l')) : Moves env l l' := by
  obtain rfl | ⟨provider, h⟩ := h
  · exact refl l'
  · unfold Loop.inputProvider at h
    split at h
    · cases h
      exact refl l
    · split at h
      · cases h
        refine Moves.trans ?_ (resolveContextWindowIfMissing env _)
        exact of_eq rfl rfl rfl
      · cases h
    · cases h

theorem failRequest (env : CommandEnv) (requestId : ℕ) (error : String) (l : Loop) :
    Moves env l (l.failRequest env requestId error) :=
  (broadcast _ l).trans (broadcast _ _)

theorem startRequest (env : CommandEnv) (requestId : ℕ) (client : InferenceProvider)
    (model : String) (childReply : Option ℕ) (userText : Option String) (l : Loop) :
    Moves env l (l.startRequest env requestId client model childReply userText) :=
  (broadcast _ l).trans (of_eq rfl rfl rfl)

theorem cancelRequest (env : CommandEnv) (requestId : ℕ) (l : Loop) :
    Moves env l (l.cancelRequest env requestId) := by
  unfold Loop.cancelRequest
  split
  · exact refl l
  · refine Moves.trans ?_ (broadcast _ _)
    exact of_eq rfl rfl rfl

theorem mergeTurn (env : CommandEnv) (l : Loop) (entry : ℕ × Turn) :
    Moves env l (l.mergeTurn env entry) := by
  unfold Loop.mergeTurn
  dsimp only
  have hinsert : Moves env l
      { l with state := { l.state with turns := l.state.turns.insert entry.1 entry.2 } } :=
    of_eq rfl rfl rfl
  split
  · exact hinsert.trans (writeTurn _ _ _)
  · split_ifs
    · exact refl l
    · exact hinsert.trans (writeTurn _ _ _)
    · exact hinsert

theorem dropResponseChain (env : CommandEnv) (l : Loop) : Moves env l (l.dropResponseChain env) := by
  unfold Loop.dropResponseChain
  split_ifs
  · exact (modifyConfig l _).trans (writeRecord env _)
  · exact refl l

end Moves

variable (env : CommandEnv)

/-! ### The handlers -/

theorem handleRunInput_moves (requestId : ℕ) (input : String) (l : Loop) :
    Moves env l (l.handleRunInput env requestId input).1 := by
  rcases l.handleRunInput_cases env requestId input with
    ⟨l₁, error, hl₁, heq⟩ | ⟨l₁, provider, model, hprovider, -, -, -, heq⟩
  · rw [heq]
    exact (Moves.inputProvider hl₁).trans (.failRequest env requestId error l₁)
  · rw [heq]
    exact (Moves.inputProvider (Or.inr ⟨provider, hprovider⟩)).trans (.startRequest ..)

theorem handleRunChildInput_moves (requestId : ℕ) (userText : Option String)
    (reply : ℕ) (l : Loop) : Moves env l (l.handleRunChildInput env requestId userText reply).1 := by
  rcases l.handleRunChildInput_cases env requestId userText reply with
    ⟨error, heq⟩ | ⟨provider, -, -, -, heq⟩
  · rw [heq]
    exact .send l rfl
  · rw [heq]
    exact .startRequest ..

theorem handleRequestFinished_moves (requestId : ℕ)
    (snapshot : SessionSnapshot) (l : Loop) :
    Moves env l (l.handleRequestFinished env requestId snapshot).1 := by
  unfold handleRequestFinished
  dsimp only
  refine Moves.trans ?_ (.send _ rfl)
  refine Moves.trans ?_ (.broadcast _ _)
  refine Moves.trans ?_ (.send _ rfl)
  have hwrite : Moves env l (((l.modifyConfig fun config =>
      config.applyWorkerSnapshot (l.dropStaleChain snapshot).config).modifyConfig fun config =>
      { config with lastModified := max config.lastModified env.now }).writeRecord env) :=
    (Moves.modifyConfig l _).trans ((Moves.modifyConfig _ _).trans (.writeRecord env _))
  refine hwrite.trans ?_
  set written : Loop := writeRecord env _
  set merged : Loop := List.foldl (mergeTurn env) _ _
  have hmerged : Moves env written merged := by
    refine Moves.trans ?_ (.foldl _ (Moves.mergeTurn env) _ _)
    exact .of_eq rfl rfl rfl
  exact hmerged.trans (.of_eq rfl rfl rfl)

theorem subscribers_of_undoTurns {state : SessionState} {p : List ℕ × SessionState}
    (h : state.undoTurns = some p) : p.2.subscribers = state.subscribers := by
  obtain ⟨target, -, rfl⟩ := map_eq_some_iff.1 h
  rfl

theorem subscribers_of_redoTurns {state : SessionState} {p : TurnMap × SessionState}
    (h : state.redoTurns = some p) : p.2.subscribers = state.subscribers := by
  obtain ⟨ids, -, rfl⟩ := map_eq_some_iff.1 h
  rfl

theorem handleUndo_moves (l : Loop) : Moves env l (l.handleUndo env).1 := by
  unfold handleUndo
  cases hundo : l.state.undoTurns with
  | none => exact .refl l
  | some p =>
    have hstate : Moves env l ({ l with state := p.2 } : Loop) :=
      .of_eq rfl rfl (subscribers_of_undoTurns hundo)
    refine (hstate.trans (.dropResponseChain env _)).trans (Moves.trans ?_ (.broadcast _ _))
    refine .foldl _ (fun l id => ?_) _ _
    split
    · exact .writeTurn _ _ l
    · exact .refl l

theorem handleRedo_moves (l : Loop) : Moves env l (l.handleRedo env).1 := by
  unfold handleRedo
  cases hredo : l.state.redoTurns with
  | none => exact .refl l
  | some p =>
    have hstate : Moves env l ({ l with state := p.2 } : Loop) :=
      .of_eq rfl rfl (subscribers_of_redoTurns hredo)
    exact (hstate.trans (.foldl _ (fun l entry => .writeTurn _ _ l) _ _)).trans
      (.broadcast _ _)

theorem handleSetModel_moves (model : String) (l : Loop) :
    Moves env l (l.handleSetModel env model).1 := by
  unfold handleSetModel
  split
  · exact .broadcast _ l
  · have hselect : Moves env l (l.selectModel env model) :=
      (Moves.modifyConfig l _).trans (.announceContextWindow env _ _)
    refine hselect.trans (Moves.trans ?_
      ((Moves.broadcast _ _).trans (.persistSessionMetadata env _)))
    unfold resetReasoningEffort
    split
    · split_ifs
      · exact (Moves.modifyConfig _ _).trans (.broadcast _ _)
      · exact .refl _
    · exact .refl _

theorem handleSetAccount_moves (name : String) (l : Loop) :
    Moves env l (l.handleSetAccount env name).1 := by
  unfold handleSetAccount
  dsimp only
  refine Moves.trans ?_ ((Moves.modifyConfig _ _).trans
    ((Moves.broadcast _ _).trans (.persistSessionMetadata env _)))
  split
  · exact .refl l
  · unfold useProvider
    dsimp only
    split
    · exact .of_eq rfl rfl rfl
    · exact ((Moves.modifyConfig l _).trans (.announceContextWindow env _ _)).trans
        (.of_eq rfl rfl rfl)

theorem changeToolGroups_moves
    (apply : Std.ExtTreeSet String → List String → Std.ExtTreeSet String × String)
    (groups : List String) (reply : ℕ) (l : Loop) :
    Moves env l (l.changeToolGroups env apply groups reply).1 := by
  unfold changeToolGroups
  split
  · exact .send l rfl
  · exact (Moves.modifyConfig l _).trans ((Moves.broadcast _ _).trans
      ((Moves.persistSessionMetadata env _).trans (.send _ rfl)))

theorem handleSetReasoningEffort_moves (effort : String) (l : Loop) :
    Moves env l (l.handleSetReasoningEffort env effort).1 := by
  unfold handleSetReasoningEffort
  split_ifs
  · exact .broadcast _ l
  · exact (Moves.modifyConfig l _).trans (.broadcast _ _)
  · exact .broadcast _ l

theorem foldl_send {α : Type*} (f : α → Output) (as : List α) (l : Loop) :
    as.foldl (fun l a => l.send (f a)) l = { l with log := (as.map f).reverse ++ l.log } := by
  induction as generalizing l with
  | nil => rfl
  | cons a as ih =>
    rw [foldl_cons, ih]
    simp [send]

/-- An attach adds the client, tells the daemon, and then answers to the client alone. -/
theorem handleAttach_sends (clientId : ℕ) (l : Loop) :
    (l.handleAttach env clientId).1.state.subscribers = l.state.subscribers.insert clientId ∧
      (l.handleAttach env clientId).1.store = l.store ∧
      ∃ replies, (l.handleAttach env clientId).1.log =
          replies ++ .trackSessionSubscription clientId :: l.log ∧
        ∀ o ∈ replies, ∃ event, o = .direct clientId event := by
  unfold handleAttach
  dsimp only
  rw [foldl_send fun entry : ℕ × ActiveRequest =>
    .direct clientId (.started entry.1 entry.2.turnId 0)]
  refine ⟨rfl, rfl, _ :: List.reverse _, rfl, fun o ho => ?_⟩
  rcases mem_cons.1 ho with rfl | hmem
  · exact ⟨_, rfl⟩
  · obtain ⟨entry, -, rfl⟩ := List.mem_map.1 (mem_reverse.1 hmem)
    exact ⟨_, rfl⟩

theorem processCommand_moves {command : SessionCommand} (l : Loop)
    (hcommand : command.subscribes = false) : Moves env l (l.processCommand env command).1 := by
  cases command with
  | runInput requestId input => exact handleRunInput_moves env requestId input l
  | runChildInput requestId userText reply =>
    exact handleRunChildInput_moves env requestId userText reply l
  | cancel requestId => exact .foldl _ (fun l id => .cancelRequest env id l) _ l
  | setModel model => exact handleSetModel_moves env model l
  | statusChanged status =>
    exact (Moves.modifyConfig l _).trans ((Moves.broadcast _ _).trans (.send _ rfl))
  | attach _ | detach _ | removeSubscriber _ => cases hcommand
  | getSummary reply => exact .send l rfl
  | requestFinished requestId snapshot =>
    exact handleRequestFinished_moves env requestId snapshot l
  | broadcast event => exact .broadcast event l
  | syncAccumulatedUsage tokenUsage lastPromptTokens =>
    exact (Moves.modifyConfig l _).trans ((Moves.broadcast _ _).trans (.send _ rfl))
  | setTitle title =>
    unfold processCommand handleSetTitle
    dsimp only
    split_ifs
    · exact .refl l
    · exact (Moves.modifyConfig l _).trans
        ((Moves.broadcast _ _).trans (.persistSessionMetadata env _))
  | setWorkingDir path reply =>
    have hskills : Moves env l
        { l.modifyConfig (fun config => { config with workingDir := some path }) with
          state := { (l.modifyConfig fun config =>
            { config with workingDir := some path }).state with discoveredSkills := none } } :=
      .of_eq rfl rfl rfl
    exact hskills.trans ((Moves.broadcast _ _).trans
      ((Moves.persistSessionMetadata env _).trans (.send _ rfl)))
  | loadTools groups reply =>
    exact changeToolGroups_moves env (applyLoadTools env.renderList) groups reply l
  | unloadTools groups reply =>
    exact changeToolGroups_moves env (applyUnloadTools env.renderList) groups reply l
  | setAccount name => exact handleSetAccount_moves env name l
  | setReasoningEffort effort => exact handleSetReasoningEffort_moves env effort l
  | getReasoningEffort reply => exact .send l rfl
  | undo => exact handleUndo_moves env l
  | redo => exact handleRedo_moves env l
  | shutdown =>
    refine Moves.trans ?_ (.foldl _ (fun l id => .cancelRequest env id l) _ _)
    exact .of_eq rfl rfl rfl

/-- Every command keeps the record and announces no end. -/
theorem processCommand_serves (command : SessionCommand) (l : Loop) :
    (l.store.record.isSome = true →
      (l.processCommand env command).1.store.record.isSome = true) ∧
      ∃ sent, (l.processCommand env command).1.log = sent ++ l.log ∧
        Output.sessionExited ∉ sent := by
  by_cases hcommand : command.subscribes = true
  · cases command with
    | attach clientId =>
      obtain ⟨-, hstore, replies, hlog, hreplies⟩ := l.handleAttach_sends env clientId
      refine ⟨fun h => hstore.symm ▸ h, replies ++ [.trackSessionSubscription clientId],
        hlog.trans (by simp), fun hmem => ?_⟩
      rcases mem_append.1 hmem with hmem | hmem
      · obtain ⟨event, heq⟩ := hreplies _ hmem
        cases heq
      · cases mem_singleton.1 hmem
    | detach clientId => exact ⟨id, [_], rfl, by simp⟩
    | removeSubscriber clientId => exact ⟨id, [], rfl, not_mem_nil⟩
    | _ => cases hcommand
  · have hmoves := l.processCommand_moves env (Bool.eq_false_iff.2 hcommand)
    exact ⟨hmoves.record, hmoves.log⟩

theorem sessionMain_sends (boot : BootEnv) (record : SessionRecord) (store : Store)
    (log : List Output) :
    ∃ sent, (sessionMain boot record store log).log = sent ++ log ∧
      ∀ o ∈ sent, o.isPlain = true ∨ ∃ event, o = .broadcast event [] := by
  unfold sessionMain
  dsimp only
  cases record.selectedModel.bind fun model => boot.provider.bind fun provider =>
      provider.resolveContextWindow boot.catalog model with
  | none => exact ⟨[.updateMetadata _], rfl, by simp [Output.isPlain]⟩
  | some cw =>
    exact ⟨[.updateMetadata _, .broadcast (.contextWindowResolved cw) []], rfl,
      by simp [Output.isPlain]⟩

/-- The start of a session thread announces no end. -/
theorem log_sessionMain (boot : BootEnv) (record : SessionRecord) (store : Store)
    (log : List Output) :
    ∃ sent, Output.sessionExited ∉ sent ∧ (sessionMain boot record store log).log = sent ++ log := by
  obtain ⟨sent, hlog, hsent⟩ := sessionMain_sends boot record store log
  refine ⟨sent, fun hmem => ?_, hlog⟩
  rcases hsent _ hmem with hplain | ⟨event, heq⟩
  · cases hplain
  · cases heq

end Loop

/-! ### The steps of a session -/

theorem Worker.finalize_record (writeError : Option String) (turnId : ℕ) (outcome : RequestOutcome)
    (w : Worker) (store : Store) :
    (w.finalize writeError turnId outcome store).2.record = store.record := by
  unfold finalize
  split
  · rfl
  · split <;> rfl
  · rfl

theorem Worker.act_serves {setup : AgentSetup} {cancelPending : Bool} {label : WorkerLabel}
    {store : Store} {w : Worker} {effect : WorkerEffect}
    (h : w.act setup cancelPending label store = some effect) :
    effect.store.record = store.record ∧ ∀ o ∈ effect.output, o.isPlain = true := by
  unfold act at h
  split at h <;> first
    | (cases h; done)
    | (cases h
       exact ⟨rfl, by simp [Output.isPlain]⟩)
    | (obtain ⟨w', -, heq⟩ := bind_eq_some_iff.1 h
       cases heq
       exact ⟨rfl, by simp [Output.isPlain]⟩)
    | (cases h
       exact ⟨Worker.finalize_record .., by simp⟩)

theorem Worker.step_serves {setup : AgentSetup} {cancelPending : Bool} {label : WorkerLabel}
    {store : Store} {w : Worker} {effect : WorkerEffect}
    (h : w.step setup cancelPending label store = some effect) :
    effect.store.record = store.record ∧ ∀ o ∈ effect.output, o.isPlain = true := by
  unfold step at h
  split at h
  · split at h
    · cases h
    · cases h
      exact ⟨rfl, by simp [Output.isPlain]⟩
  · split_ifs at h
    cases h
    exact ⟨rfl, by simp [Output.isPlain]⟩
  · split_ifs at h
    exact act_serves h

namespace System

variable {setup : AgentSetup} {label : SystemLabel} {s s' : System}

/-- A step of a session, other than its start, is a step of a thread that runs. It keeps the record,
and the thread announces its end exactly with its last step, after everything else. -/
theorem step_serves (hs : s.Invariant) (hlabel : label.isRestart = false)
    (h : s.step setup label = some s') :
    s.live = true ∧ (s.loop.store.record.isSome = true → s'.loop.store.record.isSome = true) ∧
      ∃ sent, Output.sessionExited ∉ sent ∧
        s'.loop.log = (if s'.live then sent else .sessionExited :: sent) ++ s.loop.log := by
  rcases step_cases h with ⟨command, rfl, hlive, -, rfl⟩ | ⟨env, command, queue, rfl, hlive, -, rfl⟩ |
    ⟨label, w, effect, rfl, hw, heffect, rfl⟩ | ⟨_, _, rfl, -⟩
  · refine ⟨hlive, id, [], not_mem_nil, ?_⟩
    simp only [hlive, if_true, nil_append]
  · refine ⟨hlive, ?_⟩
    obtain ⟨hrecord', sent, hlog, hsent⟩ :=
      Loop.processCommand_serves env command s.loop.clearSpawned
    by_cases hexit : (s.loop.clearSpawned.processCommand env command).2 = true
    · simp only [processStep, hexit, if_true, Bool.false_eq_true, if_false]
      refine ⟨fun hrecord => ?_, sent, hsent, ?_⟩
      · exact (Loop.Moves.writeRecord env _).record (hrecord' hrecord)
      · exact congrArg (Output.sessionExited :: ·) hlog
    · simp only [processStep, hexit, hlive]
      exact ⟨hrecord', sent, hsent, hlog⟩
  · obtain ⟨hrecord, houtput⟩ := Worker.step_serves heffect
    have hlive := hs.live_of_worker hw
    refine ⟨hlive, fun h => ?_, effect.output.toList, ?_, ?_⟩
    · exact hrecord.symm ▸ h
    · intro hmem
      have hplain := houtput _ (mem_toList.1 hmem)
      cases hplain
    · simp only [workStep, hlive, if_true]
  · cases hlabel

end System

end Choreo
