import Choreo.Session.Handlers

/-!
# What the commands of a session change

Most commands leave the turns of a session alone. This file says once, for every command, what
becomes of the turns, of the next turn id, of the redo memory and of the turn rows of the store
(`Loop.processCommand_core`), of the requests in flight (`Loop.processCommand_requests`), and what
the undo, redo and merge do to a single turn. The invariants of runs are derived from these
statements.
-/

namespace Choreo

open List Option

/-- The part of a session thread that concerns turns: the turns in memory, the next turn id, the
redo memory, and the turn and attachment rows of the store. -/
structure TurnCore where
  turns : TurnMap
  nextTurnId : ℕ
  lastUndoTurnIds : Option (List ℕ)
  rows : Std.ExtTreeMap ℕ (Option Turn)
  attachments : Std.ExtTreeMap ℕ Attachments

namespace TurnCore

variable (env : CommandEnv)

def writeTurn (turnId : ℕ) (turn : Turn) (c : TurnCore) : TurnCore :=
  if env.turnWrite turnId then
    { c with
      rows := c.rows.insert turnId (some (Store.storageView turn))
      attachments := c.attachments.insert turnId (Store.attachmentsOf turn) }
  else c

/-- Writes the turns with the given ids. -/
def writeTurns (ids : List ℕ) (c : TurnCore) : TurnCore :=
  ids.foldl (fun c id =>
    match c.turns[id]? with
    | some turn => c.writeTurn env id turn
    | none => c) c

/-- The effect of an undo of the given turns. -/
def undo (ids : List ℕ) (c : TurnCore) : TurnCore :=
  ({ c with
    turns := SessionState.setUndone true ids c.turns
    lastUndoTurnIds := some ids } : TurnCore).writeTurns env ids

/-- The effect of a redo of the given turns. -/
def redo (ids : List ℕ) (c : TurnCore) : TurnCore :=
  let turns := SessionState.setUndone false ids c.turns
  (SessionState.restrict ids turns).toList.foldl
    (fun c entry => c.writeTurn env entry.1 entry.2)
    { c with turns := turns, lastUndoTurnIds := none }

/-- The merge of one turn of a worker's snapshot. -/
def mergeTurn (c : TurnCore) (entry : ℕ × Turn) : TurnCore :=
  match c.turns[entry.1]? with
  | none =>
    ({ c with turns := c.turns.insert entry.1 entry.2 } : TurnCore).writeTurn env entry.1 entry.2
  | some stateTurn =>
    if stateTurn.undone && !entry.2.undone then c
    else { c with turns := c.turns.insert entry.1 entry.2 }

/-- The merge of the turns of a worker's snapshot. -/
def merge (turns : TurnMap) (c : TurnCore) : TurnCore :=
  let c := turns.toList.foldl (mergeTurn env) c
  { c with
    nextTurnId :=
      match turns.keys.max? with
      | some maxId => max c.nextTurnId (maxId + 1)
      | none => c.nextTurnId }

end TurnCore

namespace Loop

/-- The part of a session thread that concerns turns. -/
def core (l : Loop) : TurnCore where
  turns := l.state.turns
  nextTurnId := l.state.nextTurnId
  lastUndoTurnIds := l.state.lastUndoTurnIds
  rows := l.store.turns
  attachments := l.store.attachments

variable (env : CommandEnv)

@[simp]
theorem core_broadcast (event : SessionEvent) (l : Loop) :
    (l.broadcast env event).core = l.core := rfl

@[simp]
theorem core_modifyConfig (f : SessionConfig → SessionConfig) (l : Loop) :
    (l.modifyConfig f).core = l.core := rfl

@[simp]
theorem core_writeRecord (l : Loop) : (l.writeRecord env).core = l.core := by
  unfold writeRecord Store.writeSessionRetry
  cases env.recordWrite <;> rfl

@[simp]
theorem core_writeTurn (turnId : ℕ) (turn : Turn) (l : Loop) :
    (l.writeTurn env turnId turn).core = l.core.writeTurn env turnId turn := by
  unfold writeTurn Store.writeTurnRetry TurnCore.writeTurn
  cases env.turnWrite turnId <;> rfl

theorem core_foldl {α : Type*} (body : Loop → α → Loop) (f : TurnCore → α → TurnCore)
    (h : ∀ l a, (body l a).core = f l.core a) (as : List α) (l : Loop) :
    (as.foldl body l).core = as.foldl f l.core := by
  induction as generalizing l with
  | nil => rfl
  | cons a as ih => rw [foldl_cons, ih, h, foldl_cons]

end Loop

/-! ### Quiet changes -/

/-- Outputs that neither end a request nor say which turns are undone. -/
def Output.isQuiet : Output → Bool
  | .broadcast event _ => event.isQuiet
  | .direct _ event => event.isQuiet
  | _ => true

namespace Loop

/-- The part of a session thread that concerns requests: those in flight, the worker just spawned,
and the shutdown flag. -/
def requests (l : Loop) : Std.ExtTreeMap ℕ ActiveRequest × Option WorkerArgs × Bool :=
  (l.state.activeRequests, l.spawned, l.shutdownRequested)

/-- A change that concerns neither turns nor requests, and only sends quiet outputs. -/
structure Quiet (l l' : Loop) : Prop where
  core : l'.core = l.core
  requests : l'.requests = l.requests
  log : ∃ sent, l'.log = sent ++ l.log ∧ ∀ o ∈ sent, o.isQuiet = true

namespace Quiet

variable {l l' l'' : Loop}

theorem refl (l : Loop) : Quiet l l := ⟨rfl, rfl, [], rfl, by simp⟩

theorem trans (h : Quiet l l') (h' : Quiet l' l'') : Quiet l l'' := by
  obtain ⟨sent, hlog, hsent⟩ := h.log
  obtain ⟨sent', hlog', hsent'⟩ := h'.log
  refine ⟨h'.core.trans h.core, h'.requests.trans h.requests, sent' ++ sent, ?_, ?_⟩
  · rw [hlog', hlog, append_assoc]
  · intro o ho
    exact (mem_append.1 ho).elim (hsent' o) (hsent o)

/-- A change that sends nothing. -/
theorem of_eq (hcore : l'.core = l.core) (hreq : l'.requests = l.requests) (hlog : l'.log = l.log) :
    Quiet l l' :=
  ⟨hcore, hreq, [], hlog, by simp⟩

theorem send (l : Loop) {output : Output} (h : output.isQuiet = true) : Quiet l (l.send output) :=
  ⟨rfl, rfl, [output], rfl, by simpa using h⟩

variable (env : CommandEnv)

theorem broadcast (l : Loop) {event : SessionEvent} (h : event.isQuiet = true) :
    Quiet l (l.broadcast env event) :=
  ⟨rfl, rfl, [.broadcast event _], rfl, fun o ho => by
    rw [mem_singleton.1 ho]
    exact h⟩

theorem modifyConfig (l : Loop) (f : SessionConfig → SessionConfig) : Quiet l (l.modifyConfig f) :=
  of_eq rfl rfl rfl

theorem writeRecord (l : Loop) : Quiet l (l.writeRecord env) :=
  of_eq (core_writeRecord env l) rfl rfl

theorem persistSessionMetadata (l : Loop) :
    Quiet l (l.persistSessionMetadata env) :=
  (modifyConfig l _).trans ((send _ rfl).trans (writeRecord env _))

theorem announceContextWindow (cw : Option UInt32) (l : Loop) :
    Quiet l (l.announceContextWindow env cw) := by
  cases cw with
  | none => exact refl l
  | some cw => exact broadcast env l rfl

theorem resolveContextWindowIfMissing (l : Loop) :
    Quiet l (l.resolveContextWindowIfMissing env) := by
  unfold Loop.resolveContextWindowIfMissing
  split
  · split
    · exact (modifyConfig l _).trans (broadcast env _ rfl)
    · exact refl l
  · exact refl l

theorem foldl {α : Type*} (body : Loop → α → Loop) (h : ∀ l a, Quiet l (body l a)) (as : List α)
    (l : Loop) : Quiet l (as.foldl body l) := by
  induction as generalizing l with
  | nil => exact refl l
  | cons a as ih => exact (h l a).trans (ih _)

theorem dropResponseChain (l : Loop) : Quiet l (l.dropResponseChain env) := by
  unfold Loop.dropResponseChain
  split_ifs
  · exact (modifyConfig l _).trans (writeRecord env _)
  · exact refl l

theorem removeClient (clientId : ℕ) (l : Loop) : Quiet l (l.removeClient clientId) :=
  of_eq rfl rfl rfl

theorem inputProvider {env : CommandEnv} {provider : InferenceProvider}
    (h : l.inputProvider env = .ok (provider, l')) : Quiet l l' := by
  unfold Loop.inputProvider at h
  split at h
  · cases h
    exact refl l
  · split at h
    · cases h
      have hcached : Quiet l { l with state := { l.state with provider := some provider } } :=
        of_eq rfl rfl rfl
      exact hcached.trans (resolveContextWindowIfMissing env _)
    · cases h
  · cases h

end Quiet

variable (env : CommandEnv)

/-! ### Quiet commands -/

theorem selectModel_quiet (model : String) (l : Loop) :
    Quiet l (l.selectModel env model) :=
  (Quiet.modifyConfig l _).trans (.announceContextWindow env _ _)

theorem resetReasoningEffort_quiet (capability : Option ReasoningCapability)
    (l : Loop) : Quiet l (l.resetReasoningEffort env capability) := by
  unfold resetReasoningEffort
  split
  · split_ifs
    · exact (Quiet.modifyConfig l _).trans (.broadcast env _ rfl)
    · exact .refl l
  · exact .refl l

theorem handleSetModel_quiet (model : String) (l : Loop) :
    Quiet l (l.handleSetModel env model).1 := by
  unfold handleSetModel
  split
  · exact .broadcast env l rfl
  · exact (selectModel_quiet env model l).trans ((resetReasoningEffort_quiet env _ _).trans
      ((Quiet.broadcast env _ rfl).trans (.persistSessionMetadata env _)))

theorem useProvider_quiet (provider : InferenceProvider) (l : Loop) :
    Quiet l (l.useProvider env provider) := by
  unfold useProvider
  dsimp only
  split
  · exact .of_eq rfl rfl rfl
  · exact ((Quiet.modifyConfig l _).trans (.announceContextWindow env _ _)).trans
      (.of_eq rfl rfl rfl)

theorem handleSetAccount_quiet (name : String) (l : Loop) :
    Quiet l (l.handleSetAccount env name).1 := by
  unfold handleSetAccount
  dsimp only
  refine Quiet.trans ?_ ((Quiet.modifyConfig _ _).trans
    ((Quiet.broadcast env _ rfl).trans (.persistSessionMetadata env _)))
  split
  · exact .refl l
  · exact useProvider_quiet env _ l

theorem handleSetTitle_quiet (title : String) (l : Loop) :
    Quiet l (l.handleSetTitle env title).1 := by
  unfold handleSetTitle
  split_ifs
  · exact .refl l
  · exact (Quiet.modifyConfig l _).trans
      ((Quiet.broadcast env _ rfl).trans (.persistSessionMetadata env _))

theorem handleSetWorkingDir_quiet (path : PathBuf) (reply : ℕ) (l : Loop) :
    Quiet l (l.handleSetWorkingDir env path reply).1 := by
  have hskills : Quiet l
      { l.modifyConfig (fun config => { config with workingDir := some path }) with
        state := { (l.modifyConfig fun config =>
          { config with workingDir := some path }).state with discoveredSkills := none } } :=
    .of_eq rfl rfl rfl
  exact hskills.trans ((Quiet.broadcast env _ rfl).trans
    ((Quiet.persistSessionMetadata env _).trans (.send _ rfl)))

theorem changeToolGroups_quiet
    (apply : Std.ExtTreeSet String → List String → Std.ExtTreeSet String × String)
    (groups : List String) (reply : ℕ) (l : Loop) :
    Quiet l (l.changeToolGroups env apply groups reply).1 := by
  unfold changeToolGroups
  split
  · exact .send l rfl
  · exact (Quiet.modifyConfig l _).trans ((Quiet.broadcast env _ rfl).trans
      ((Quiet.persistSessionMetadata env _).trans (.send _ rfl)))

theorem handleSetReasoningEffort_quiet (effort : String) (l : Loop) :
    Quiet l (l.handleSetReasoningEffort env effort).1 := by
  unfold handleSetReasoningEffort
  split_ifs
  · exact .broadcast env l rfl
  · exact (Quiet.modifyConfig l _).trans (.broadcast env _ rfl)
  · exact .broadcast env l rfl

theorem handleAttach_quiet (clientId : ℕ) (l : Loop) :
    Quiet l (l.handleAttach env clientId).1 := by
  unfold handleAttach
  dsimp only
  have hinsert : Quiet l
      { l with state := { l.state with subscribers := l.state.subscribers.insert clientId } } :=
    .of_eq rfl rfl rfl
  exact ((hinsert.trans (.send _ rfl)).trans (.foldl _ (fun l _ => .send l rfl) _ _)).trans
    (.send _ rfl)

end Loop

/-- Commands that concern neither turns nor requests. -/
def SessionCommand.isQuiet : SessionCommand → Bool
  | .runInput .. | .runChildInput .. | .cancel .. | .requestFinished .. => false
  | .undo | .redo | .shutdown => false
  | .broadcast event => event.isQuiet
  | _ => true

namespace Loop

variable (env : CommandEnv)

/-- Quiet commands make quiet changes. -/
theorem processCommand_quiet {command : SessionCommand}
    (h : command.isQuiet = true) (l : Loop) : Quiet l (l.processCommand env command).1 := by
  cases command with
  | runInput requestId input | runChildInput requestId userText reply | cancel requestId => cases h
  | setModel model => exact handleSetModel_quiet env model l
  | statusChanged status =>
    exact (Quiet.modifyConfig l _).trans ((Quiet.broadcast env _ rfl).trans (.send _ rfl))
  | attach clientId => exact handleAttach_quiet env clientId l
  | detach clientId => exact (Quiet.removeClient clientId l).trans (.send _ rfl)
  | removeSubscriber clientId => exact .removeClient clientId l
  | getSummary reply => exact .send l rfl
  | requestFinished requestId snapshot => cases h
  | broadcast event => exact .broadcast env l h
  | syncAccumulatedUsage tokenUsage lastPromptTokens =>
    exact (Quiet.modifyConfig l _).trans ((Quiet.broadcast env _ rfl).trans (.send _ rfl))
  | setTitle title => exact handleSetTitle_quiet env title l
  | setWorkingDir path reply => exact handleSetWorkingDir_quiet env path reply l
  | loadTools groups reply =>
    exact changeToolGroups_quiet env (applyLoadTools env.renderList) groups reply l
  | unloadTools groups reply =>
    exact changeToolGroups_quiet env (applyUnloadTools env.renderList) groups reply l
  | setAccount name => exact handleSetAccount_quiet env name l
  | setReasoningEffort effort => exact handleSetReasoningEffort_quiet env effort l
  | getReasoningEffort reply => exact .send l rfl
  | undo | redo | shutdown => cases h

/-! ### Inputs and cancels -/

variable (requestId : ℕ)

/-- A user input is refused, or accepted on a session without a request. -/
theorem handleRunInput_cases (input : String) (l : Loop) :
    (∃ l₁ error, (l₁ = l ∨ ∃ provider, l.inputProvider env = .ok (provider, l₁)) ∧
      l.handleRunInput env requestId input = (l₁.failRequest env requestId error, false)) ∨
    ∃ l₁ provider model, l.inputProvider env = .ok (provider, l₁) ∧
      l₁.state.config.selectedModel = some model ∧
      l.shutdownRequested = false ∧ l.state.activeRequests.isEmpty = true ∧
      l.handleRunInput env requestId input =
        (l₁.startRequest env requestId provider model none (some (trim input)), false) := by
  unfold handleRunInput
  split_ifs
  · exact Or.inl ⟨l, _, Or.inl rfl, rfl⟩
  · split
    · exact Or.inl ⟨l, _, Or.inl rfl, rfl⟩
    · next provider l₁ hprovider =>
      have hreq := (Quiet.inputProvider hprovider).requests
      simp only [requests, Prod.mk.injEq] at hreq
      obtain ⟨hactive, -, hshutdown⟩ := hreq
      split
      · exact Or.inl ⟨l₁, _, Or.inr ⟨provider, hprovider⟩, rfl⟩
      · next model hmodel =>
        split_ifs with hsd hempty
        · exact Or.inl ⟨l₁, _, Or.inr ⟨provider, hprovider⟩, rfl⟩
        · refine Or.inr ⟨l₁, provider, model, hprovider, hmodel, ?_, ?_, rfl⟩
          · rw [← hshutdown]
            exact Bool.eq_false_iff.2 hsd
          · rw [← hactive]
            exact hempty
        · exact Or.inl ⟨l₁, _, Or.inr ⟨provider, hprovider⟩, rfl⟩

variable (l : Loop)

theorem provider_resolveContextWindowIfMissing :
    (l.resolveContextWindowIfMissing env).state.provider = l.state.provider := by
  unfold resolveContextWindowIfMissing
  split
  · split <;> rfl
  · rfl

theorem inputProvider_cached {env : CommandEnv} {l l₁ : Loop} {provider : InferenceProvider}
    (h : l.inputProvider env = .ok (provider, l₁)) : l₁.state.provider = some provider := by
  unfold inputProvider at h
  split at h
  · next hsome =>
    cases h
    exact hsome
  · split at h
    · cases h
      rw [provider_resolveContextWindowIfMissing]
    · cases h
  · cases h

theorem Quiet.of_inputProvider {env : CommandEnv} {l l₁ : Loop}
    (h : l₁ = l ∨ ∃ provider, l.inputProvider env = .ok (provider, l₁)) : Quiet l l₁ := by
  rcases h with rfl | ⟨provider, hprovider⟩
  · exact .refl l₁
  · exact .inputProvider hprovider

/-- The request of a parent is refused quietly, or accepted on a session without a request. -/
theorem handleRunChildInput_cases (userText : Option String)
    (reply : ℕ) (l : Loop) :
    (∃ error, l.handleRunChildInput env requestId userText reply =
      (l.send (.child reply (.error error)), false)) ∨
    ∃ provider, l.state.provider = some provider ∧
      l.shutdownRequested = false ∧ l.state.activeRequests.isEmpty = true ∧
      l.handleRunChildInput env requestId userText reply =
        (l.startRequest env requestId provider (l.state.config.selectedModel.getD "") (some reply)
          userText, false) := by
  unfold handleRunChildInput
  split
  · exact Or.inl ⟨_, rfl⟩
  · next provider hprovider =>
    split_ifs with hsd hempty
    · exact Or.inl ⟨_, rfl⟩
    · exact Or.inr ⟨provider, hprovider, Bool.eq_false_iff.2 hsd, hempty, rfl⟩
    · exact Or.inl ⟨_, rfl⟩

theorem core_cancelRequest :
    (l.cancelRequest env requestId).core = l.core := by
  unfold cancelRequest
  split <;> rfl

variable (targets : List ℕ)

theorem core_foldl_cancelRequest (l : Loop) :
    (targets.foldl (fun l requestId => l.cancelRequest env requestId) l).core = l.core := by
  induction targets generalizing l with
  | nil => rfl
  | cons requestId targets ih => rw [foldl_cons, ih, core_cancelRequest]

/-! ### Undo, redo and the merge -/

theorem core_handleUndo :
    (l.handleUndo env).1.core =
      match l.state.undoTurns with
      | none => l.core
      | some (ids, _) => l.core.undo env ids := by
  unfold handleUndo
  cases h : l.state.undoTurns with
  | none => rfl
  | some p =>
    obtain ⟨ids, state⟩ := p
    obtain ⟨-, rfl⟩ := SessionState.undoTurns_spec h
    dsimp only
    rw [core_broadcast, writeTurns, TurnCore.undo, TurnCore.writeTurns,
      core_foldl _ (fun c id =>
        match c.turns[id]? with
        | some turn => c.writeTurn env id turn
        | none => c)]
    · rw [(Quiet.dropResponseChain env _).core]
      rfl
    · intro l id
      change (match l.state.turns[id]? with
        | some turn => l.writeTurn env id turn
        | none => l).core = _
      change _ = match l.state.turns[id]? with
        | some turn => l.core.writeTurn env id turn
        | none => l.core
      split
      · exact core_writeTurn env id _ l
      · rfl

theorem core_handleRedo :
    (l.handleRedo env).1.core =
      match l.state.lastUndoTurnIds with
      | none => l.core
      | some ids => l.core.redo env ids := by
  unfold handleRedo
  cases h : l.state.redoTurns with
  | none =>
    rw [SessionState.redoTurns, map_eq_none_iff] at h
    rw [h]
  | some p =>
    obtain ⟨turns, state⟩ := p
    obtain ⟨ids, hids, rfl, rfl⟩ := SessionState.redoTurns_spec h
    rw [hids]
    dsimp only
    rw [core_broadcast, core_foldl _ fun c entry => c.writeTurn env entry.1 entry.2]
    · rfl
    · intro l entry
      exact core_writeTurn env entry.1 entry.2 l

theorem core_mergeTurn (entry : ℕ × Turn) :
    (l.mergeTurn env entry).core = l.core.mergeTurn env entry := by
  obtain ⟨turnId, turn⟩ := entry
  unfold mergeTurn TurnCore.mergeTurn
  dsimp only
  change _ = match l.state.turns[turnId]? with
    | none | some stateTurn => _
  cases l.state.turns[turnId]? with
  | none => exact core_writeTurn env turnId turn _
  | some stateTurn =>
    dsimp only
    by_cases hstale : (stateTurn.undone && !turn.undone) = true
    · rw [if_pos hstale, if_pos hstale]
    · rw [if_neg hstale, if_neg hstale, Std.ExtTreeMap.get_insert, if_pos rfl, if_neg (by simp)]
      rfl

theorem core_handleRequestFinished (snapshot : SessionSnapshot)
    (l : Loop) :
    (l.handleRequestFinished env requestId snapshot).1.core = l.core.merge env snapshot.turns := by
  have hturns : (l.dropStaleChain snapshot).turns = snapshot.turns := by
    unfold dropStaleChain
    split_ifs <;> rfl
  unfold handleRequestFinished
  dsimp only
  rw [hturns, TurnCore.merge]
  set l' : Loop := snapshot.turns.toList.foldl (mergeTurn env) _ with hl'
  have hcore : l'.core = snapshot.turns.toList.foldl (TurnCore.mergeTurn env) l.core := by
    rw [hl', core_foldl _ (TurnCore.mergeTurn env) (core_mergeTurn env)]
    congr 1
    change ((_ : Loop).writeRecord env).core = _
    rw [core_writeRecord, core_modifyConfig, core_modifyConfig]
  rw [← hcore]
  rfl

variable (command : SessionCommand)

theorem processCommand_core (l : Loop) :
    (l.processCommand env command).1.core =
      match command with
      | .undo =>
        match l.state.undoTurns with
        | none => l.core
        | some (ids, _) => l.core.undo env ids
      | .redo =>
        match l.state.lastUndoTurnIds with
        | none => l.core
        | some ids => l.core.redo env ids
      | .requestFinished _ snapshot => l.core.merge env snapshot.turns
      | _ => l.core := by
  cases command with
  | runInput requestId input =>
    rcases l.handleRunInput_cases env requestId input with
      ⟨l₁, error, hl₁, heq⟩ | ⟨l₁, provider, model, hprovider, -, -, -, heq⟩
    · exact (congrArg (fun r => r.1.core) heq).trans (Quiet.of_inputProvider hl₁).core
    · exact (congrArg (fun r => r.1.core) heq).trans (Quiet.inputProvider hprovider).core
  | runChildInput requestId userText reply =>
    rcases l.handleRunChildInput_cases env requestId userText reply with
      ⟨error, heq⟩ | ⟨provider, -, -, -, heq⟩
    · exact congrArg (fun r => r.1.core) heq
    · exact congrArg (fun r => r.1.core) heq
  | cancel requestId => exact core_foldl_cancelRequest env _ l
  | requestFinished requestId snapshot => exact core_handleRequestFinished env requestId snapshot l
  | undo => exact core_handleUndo env l
  | redo => exact core_handleRedo env l
  | shutdown => exact core_foldl_cancelRequest env _ _
  | broadcast event => rfl
  | _ => exact (processCommand_quiet env rfl l).core

/-! ### What is sent -/

/-- A loop whose body sends nothing sends nothing. -/
theorem log_foldl {α : Type*} (body : Loop → α → Loop) (h : ∀ l a, (body l a).log = l.log)
    (as : List α) (l : Loop) : (as.foldl body l).log = l.log := by
  induction as generalizing l with
  | nil => rfl
  | cons a as ih => rw [foldl_cons, ih, h]

theorem log_mergeTurn (entry : ℕ × Turn) :
    (l.mergeTurn env entry).log = l.log := by
  unfold mergeTurn
  dsimp only
  split
  · rfl
  · split_ifs <;> rfl

theorem log_writeTurns (ids : List ℕ) (l : Loop) :
    (l.writeTurns env ids).log = l.log := by
  refine log_foldl _ (fun l id => ?_) ids l
  split <;> rfl

theorem log_broadcast (event : SessionEvent) (l : Loop) :
    ∃ recipients, (l.broadcast env event).log = .broadcast event recipients :: l.log :=
  ⟨_, rfl⟩

theorem log_handleUndo {l : Loop} {ids : List ℕ} {state : SessionState}
    (h : l.state.undoTurns = some (ids, state)) :
    ∃ recipients, (l.handleUndo env).1.log = .broadcast (.turnsUndone ids) recipients :: l.log := by
  simp only [handleUndo, h]
  set l₁ : Loop := { l with state := state } with hl₁
  have hlog : (l₁.dropResponseChain env).log = l.log := by
    unfold dropResponseChain
    split_ifs <;> rfl
  rw [← hlog, ← log_writeTurns env ids (l₁.dropResponseChain env)]
  exact log_broadcast env _ _

theorem log_handleRedo {l : Loop} {ids : List ℕ}
    (h : l.state.lastUndoTurnIds = some ids) :
    ∃ recipients, (l.handleRedo env).1.log =
      .broadcast (.turnsRedone ((SessionState.restrict ids
        (SessionState.setUndone false ids l.state.turns)).map fun _ turn => turnForClient turn))
        recipients :: l.log := by
  simp only [handleRedo, SessionState.redoTurns, h, map_some]
  set l₁ : Loop := List.foldl _ _ _ with hl₁
  have hlog : l₁.log = l.log := by
    rw [hl₁]
    exact log_foldl (fun l (entry : ℕ × Turn) => l.writeTurn env entry.1 entry.2)
      (fun _ _ => rfl) _ _
  rw [← hlog]
  exact log_broadcast env _ _

/-- The end of a request only sends quiet outputs. -/
theorem log_handleRequestFinished (snapshot : SessionSnapshot)
    (l : Loop) :
    ∃ sent, (l.handleRequestFinished env requestId snapshot).1.log = sent ++ l.log ∧
      ∀ o ∈ sent, o.isQuiet = true := by
  unfold handleRequestFinished
  dsimp only
  set l' : Loop := (l.dropStaleChain snapshot).turns.toList.foldl (mergeTurn env) _ with hl'
  have hlog : l'.log = l.log := by
    rw [hl', log_foldl _ (log_mergeTurn env)]
    rfl
  rw [← hlog]
  refine ⟨[.broadcastSessionStatus .inactive, .broadcast (.sessionStatusChanged .inactive env.now) _,
    .updateMetadata _], rfl, fun o ho => ?_⟩
  simp only [mem_cons, not_mem_nil, or_false] at ho
  rcases ho with rfl | rfl | rfl <;> rfl

theorem log_cancelRequest :
    l.log <:+ (l.cancelRequest env requestId).log := by
  unfold cancelRequest
  split
  · exact suffix_rfl
  · exact suffix_cons _ _

theorem log_foldl_cancelRequest (l : Loop) :
    l.log <:+ (targets.foldl (fun l requestId => l.cancelRequest env requestId) l).log := by
  induction targets generalizing l with
  | nil => exact suffix_rfl
  | cons requestId targets ih => exact (log_cancelRequest env requestId l).trans (ih _)

theorem Quiet.log_suffix {l l' : Loop} (h : Quiet l l') : l.log <:+ l'.log := by
  obtain ⟨sent, hlog, -⟩ := h.log
  exact ⟨sent, hlog.symm⟩

/-- What was sent stays sent. -/
theorem processCommand_log (l : Loop) :
    l.log <:+ (l.processCommand env command).1.log := by
  cases command with
  | runInput requestId input =>
    rcases l.handleRunInput_cases env requestId input with
      ⟨l₁, error, hl₁, heq⟩ | ⟨l₁, provider, model, hprovider, -, -, -, heq⟩
    · simp only [processCommand, heq]
      exact (Quiet.of_inputProvider hl₁).log_suffix.trans ((suffix_cons _ _).trans (suffix_cons _ _))
    · simp only [processCommand, heq]
      exact (Quiet.inputProvider hprovider).log_suffix.trans (suffix_cons _ _)
  | runChildInput requestId userText reply =>
    rcases l.handleRunChildInput_cases env requestId userText reply with
      ⟨error, heq⟩ | ⟨provider, -, -, -, heq⟩
    · simp only [processCommand, heq]
      exact suffix_cons _ _
    · simp only [processCommand, heq]
      exact suffix_cons _ _
  | cancel requestId => exact log_foldl_cancelRequest env _ l
  | shutdown => exact log_foldl_cancelRequest env _ { l with shutdownRequested := true }
  | requestFinished requestId snapshot =>
    obtain ⟨sent, hlog, -⟩ := log_handleRequestFinished env requestId snapshot l
    exact ⟨sent, hlog.symm⟩
  | undo =>
    cases h : l.state.undoTurns with
    | none =>
      simp only [processCommand, handleUndo, h]
      exact suffix_rfl
    | some p =>
      obtain ⟨recipients, hlog⟩ := log_handleUndo env h
      simp only [processCommand, hlog]
      exact suffix_cons _ _
  | redo =>
    cases h : l.state.lastUndoTurnIds with
    | none =>
      simp only [processCommand, handleRedo, SessionState.redoTurns, h, map_none]
      exact suffix_rfl
    | some ids =>
      obtain ⟨recipients, hlog⟩ := log_handleRedo env h
      simp only [processCommand, hlog]
      exact suffix_cons _ _
  | broadcast event => exact suffix_cons _ _
  | _ => exact (processCommand_quiet env rfl l).log_suffix

/-! ### Requests -/

/-- A request is accepted: the session had none, the request is registered under the next turn id,
and its worker gets a snapshot of the session. -/
structure Accepts (l : Loop) (requestId : ℕ) (args : WorkerArgs) (l' : Loop) : Prop where
  idle : l.state.activeRequests.isEmpty = true
  running : l.shutdownRequested = false
  active : l'.state.activeRequests =
    l.state.activeRequests.insert requestId { cancelsSent := 0, turnId := l.state.nextTurnId }
  spawned : l'.spawned = some args
  shutdown : l'.shutdownRequested = l.shutdownRequested
  args_requestId : args.requestId = requestId
  args_session : args.session = SessionState.fromSnapshot l'.state.snapshot ∅
  announced : ∃ recipients,
    .broadcast (.started requestId l.state.nextTurnId 0) recipients ∈ l'.log
  cached : l'.state.provider = some args.client

theorem startRequest_accepts {l l₁ : Loop} (h : Quiet l l₁)
    (hidle : l.state.activeRequests.isEmpty = true) (hopen : l.shutdownRequested = false)
    {client : InferenceProvider} (hcached : l₁.state.provider = some client) (requestId : ℕ)
    (model : String) (childReply : Option ℕ) (userText : Option String) :
    ∃ args, Accepts l requestId args
      (l₁.startRequest env requestId client model childReply userText) := by
  have hreq := h.requests
  simp only [requests, Prod.mk.injEq] at hreq
  have hnext : l₁.state.nextTurnId = l.state.nextTurnId := congrArg TurnCore.nextTurnId h.core
  refine ⟨_, hidle, hopen, ?_, rfl, hreq.2.2, rfl, rfl, ?_, hcached⟩
  · change l₁.state.activeRequests.insert requestId
      { cancelsSent := 0, turnId := l₁.state.nextTurnId } = _
    rw [hreq.1, hnext]
  · rw [← hnext]
    exact ⟨_, mem_cons_self⟩

theorem cancelRequest_turnId (id : ℕ) :
    (l.cancelRequest env requestId).state.activeRequests[id]?.map ActiveRequest.turnId =
      l.state.activeRequests[id]?.map ActiveRequest.turnId := by
  unfold cancelRequest
  split
  · rfl
  · next active hactive =>
    change (l.state.activeRequests.insert requestId _)[id]?.map _ = _
    rw [Std.ExtTreeMap.get_insert]
    split_ifs with hid
    · rw [hid, hactive]
      rfl
    · rfl

theorem foldl_cancelRequest_requests (l : Loop) :
    (∀ id : ℕ, (targets.foldl (fun l requestId => l.cancelRequest env requestId)
        l).state.activeRequests[id]?.map ActiveRequest.turnId =
      l.state.activeRequests[id]?.map ActiveRequest.turnId) ∧
    (targets.foldl (fun l requestId => l.cancelRequest env requestId) l).spawned = l.spawned ∧
    (targets.foldl (fun l requestId => l.cancelRequest env requestId) l).shutdownRequested =
      l.shutdownRequested := by
  induction targets generalizing l with
  | nil => exact ⟨fun _ => rfl, rfl, rfl⟩
  | cons requestId targets ih =>
    obtain ⟨hids, hspawned, hshutdown⟩ := ih (l.cancelRequest env requestId)
    have hfix : (l.cancelRequest env requestId).spawned = l.spawned ∧
        (l.cancelRequest env requestId).shutdownRequested = l.shutdownRequested := by
      unfold cancelRequest
      split <;> exact ⟨rfl, rfl⟩
    refine ⟨fun id => ?_, hspawned.trans hfix.1, hshutdown.trans hfix.2⟩
    rw [foldl_cons, hids, cancelRequest_turnId]

theorem requests_foldl {α : Type*} (body : Loop → α → Loop)
    (h : ∀ l a, (body l a).requests = l.requests) (as : List α) (l : Loop) :
    (as.foldl body l).requests = l.requests := by
  induction as generalizing l with
  | nil => rfl
  | cons a as ih => rw [foldl_cons, ih, h]

theorem requests_mergeTurn (entry : ℕ × Turn) :
    (l.mergeTurn env entry).requests = l.requests := by
  unfold mergeTurn
  dsimp only
  split
  · rfl
  · split_ifs <;> rfl

theorem requests_writeTurns (ids : List ℕ) (l : Loop) :
    (l.writeTurns env ids).requests = l.requests := by
  refine requests_foldl _ (fun l id => ?_) ids l
  split <;> rfl

theorem requests_handleUndo :
    (l.handleUndo env).1.requests = l.requests := by
  unfold handleUndo
  split
  · rfl
  · next ids state hundo =>
    obtain ⟨-, rfl⟩ := SessionState.undoTurns_spec hundo
    dsimp only
    change (writeTurns env ids _).requests = _
    rw [requests_writeTurns, (Quiet.dropResponseChain env _).requests]
    rfl

theorem requests_handleRedo :
    (l.handleRedo env).1.requests = l.requests := by
  unfold handleRedo
  split
  · rfl
  · next turns state hredo =>
    obtain ⟨ids, -, -, rfl⟩ := SessionState.redoTurns_spec hredo
    dsimp only
    change requests (List.foldl _ _ _) = _
    rw [requests_foldl]
    · rfl
    · intro l entry
      rfl

theorem requests_handleRequestFinished
    (snapshot : SessionSnapshot) (l : Loop) :
    (l.handleRequestFinished env requestId snapshot).1.requests =
      (l.state.activeRequests.erase requestId, l.spawned, l.shutdownRequested) := by
  unfold handleRequestFinished
  dsimp only
  set l' : Loop := (l.dropStaleChain snapshot).turns.toList.foldl (mergeTurn env) _ with hl'
  have hreq : l'.requests = l.requests := by
    rw [hl', requests_foldl _ (requests_mergeTurn env)]
    rfl
  simp only [requests, Prod.mk.injEq] at hreq
  change (l'.state.activeRequests.erase requestId, l'.spawned, l'.shutdownRequested) = _
  rw [hreq.1, hreq.2.1, hreq.2.2]

theorem processCommand_requests (l : Loop) :
    match command with
    | .runInput requestId _ | .runChildInput requestId _ _ =>
      (l.processCommand env command).1.requests = l.requests ∨
        ∃ args, Accepts l requestId args (l.processCommand env command).1
    | .cancel _ | .shutdown =>
      (∀ id : ℕ, (l.processCommand env command).1.state.activeRequests[id]?.map ActiveRequest.turnId =
        l.state.activeRequests[id]?.map ActiveRequest.turnId) ∧
      (l.processCommand env command).1.spawned = l.spawned
    | .requestFinished requestId _ =>
      (l.processCommand env command).1.requests =
        (l.state.activeRequests.erase requestId, l.spawned, l.shutdownRequested)
    | _ => (l.processCommand env command).1.requests = l.requests := by
  cases command with
  | runInput requestId input =>
    rcases l.handleRunInput_cases env requestId input with
      ⟨l₁, error, hl₁, heq⟩ | ⟨l₁, provider, model, hprovider, -, hopen, hidle, heq⟩
    · exact Or.inl ((congrArg (fun r => r.1.requests) heq).trans
        (Quiet.of_inputProvider hl₁).requests)
    · right
      simp only [processCommand, heq]
      exact startRequest_accepts env (Quiet.inputProvider hprovider) hidle hopen
        (inputProvider_cached hprovider) _ _ _ _
  | runChildInput requestId userText reply =>
    rcases l.handleRunChildInput_cases env requestId userText reply with
      ⟨error, heq⟩ | ⟨provider, hprovider, hopen, hidle, heq⟩
    · exact Or.inl (congrArg (fun r => r.1.requests) heq)
    · right
      simp only [processCommand, heq]
      exact startRequest_accepts env (.refl l) hidle hopen hprovider _ _ _ _
  | cancel requestId =>
    have hfold := foldl_cancelRequest_requests env
      (if requestId = 0 then l.state.activeRequests.keys else [requestId]) l
    exact ⟨hfold.1, hfold.2.1⟩
  | shutdown =>
    have hfold := foldl_cancelRequest_requests env l.state.activeRequests.keys
      { l with shutdownRequested := true }
    exact ⟨hfold.1, hfold.2.1⟩
  | requestFinished requestId snapshot =>
    exact requests_handleRequestFinished env requestId snapshot l
  | undo => exact requests_handleUndo env l
  | redo => exact requests_handleRedo env l
  | broadcast event => rfl
  | _ => exact (processCommand_quiet env rfl l).requests

end Loop

/-! ### One turn at a time -/

/-- What a session holds of one turn id: the turn in memory, its row and its attachment rows. -/
structure TurnCell where
  turn : Option Turn
  row : Option (Option Turn)
  attached : Option Attachments

namespace TurnCell

/-- The turn that the reader would make of the rows. -/
def read (cell : TurnCell) : Option Turn :=
  (cell.row.getD none).map (Store.reattach (cell.attached.getD ∅))

variable (ok : Bool)

/-- A write of a turn that may fail. -/
def write (turn : Turn) (cell : TurnCell) : TurnCell :=
  if ok then
    { cell with
      row := some (some (Store.storageView turn))
      attached := some (Store.attachmentsOf turn) }
  else cell

def setUndone (ok flag : Bool) (cell : TurnCell) : TurnCell :=
  match cell.turn with
  | none => cell
  | some turn =>
    ({ cell with turn := some (turn.setUndone flag) } : TurnCell).write ok (turn.setUndone flag)

/-- Merges the turn of a worker's snapshot. -/
def merge (turn : Turn) (cell : TurnCell) : TurnCell :=
  match cell.turn with
  | none => ({ cell with turn := some turn } : TurnCell).write ok turn
  | some stateTurn =>
    if stateTurn.undone && !turn.undone then cell else { cell with turn := some turn }

@[simp]
theorem write_turn (turn : Turn) (cell : TurnCell) :
    (cell.write ok turn).turn = cell.turn := by
  unfold write
  split_ifs <;> rfl

theorem write_write (turn : Turn) (cell : TurnCell) :
    (cell.write ok turn).write ok turn = cell.write ok turn := by
  unfold write
  split_ifs <;> rfl

theorem setUndone_turn (ok flag : Bool) (cell : TurnCell) :
    (cell.setUndone ok flag).turn = cell.turn.map (Turn.setUndone flag) := by
  unfold setUndone
  cases hcell : cell.turn with
  | none => exact hcell
  | some turn =>
    rw [write_turn]
    rfl

theorem merge_turn (turn : Turn) (cell : TurnCell) :
    (cell.merge ok turn).turn =
      match cell.turn with
      | none => some turn
      | some stateTurn => if stateTurn.undone && !turn.undone then some stateTurn else some turn := by
  unfold merge
  cases hcell : cell.turn with
  | none => rw [write_turn]
  | some stateTurn =>
    dsimp only
    split_ifs
    · exact hcell
    · rfl

end TurnCell

namespace TurnCore

/-- The part of the core that concerns one turn id. -/
def cell (c : TurnCore) (k : ℕ) : TurnCell where
  turn := c.turns[k]?
  row := c.rows[k]?
  attached := c.attachments[k]?

variable (env : CommandEnv)

theorem cell_writeTurn (turnId : ℕ) (turn : Turn) (c : TurnCore) (k : ℕ) :
    (c.writeTurn env turnId turn).cell k =
      if k = turnId then (c.cell turnId).write (env.turnWrite turnId) turn else c.cell k := by
  unfold writeTurn TurnCell.write cell
  by_cases hk : k = turnId
  · subst hk
    rw [if_pos rfl]
    split_ifs
    · simp only [Std.ExtTreeMap.get_insert, if_true]
    · rfl
  · rw [if_neg hk]
    split_ifs
    · simp only [Std.ExtTreeMap.get_insert, hk, if_false]
    · rfl

variable (ids : List ℕ)

theorem cell_writeTurns (c : TurnCore) (k : ℕ) :
    (c.writeTurns env ids).cell k =
      if k ∈ ids then
        match c.turns[k]? with
        | some turn => (c.cell k).write (env.turnWrite k) turn
        | none => c.cell k
      else c.cell k := by
  unfold writeTurns
  induction ids generalizing c with
  | nil => simp only [foldl_nil, not_mem_nil, if_false]
  | cons id ids ih =>
    rw [foldl_cons, ih]
    cases hid : c.turns[id]? with
    | none =>
      dsimp only
      by_cases hk : k = id
      · subst hk
        simp only [hid, mem_cons, true_or, ite_self]
      · simp only [mem_cons, hk, false_or]
    | some turn =>
      dsimp only
      have hturns : (c.writeTurn env id turn).turns = c.turns := by
        unfold writeTurn
        split_ifs <;> rfl
      rw [hturns, cell_writeTurn]
      by_cases hk : k = id
      · subst hk
        simp only [hid, if_true, mem_cons, true_or, TurnCell.write_write, ite_self]
      · simp only [hk, if_false, mem_cons, false_or]

theorem cell_undo (c : TurnCore) (k : ℕ) :
    (c.undo env ids).cell k =
      if k ∈ ids then (c.cell k).setUndone (env.turnWrite k) true else c.cell k := by
  rw [undo, cell_writeTurns]
  simp only [SessionState.get_setUndone]
  by_cases hk : k ∈ ids
  · simp only [hk, if_true, TurnCell.setUndone]
    have hcell : (c.cell k).turn = c.turns[k]? := rfl
    rw [hcell]
    cases hturn : c.turns[k]? with
    | none => simp only [cell, SessionState.get_setUndone, hk, hturn, if_true, map_none]
    | some turn => simp only [cell, SessionState.get_setUndone, hk, hturn, if_true, map_some]
  · simp only [hk, if_false]
    simp only [cell, SessionState.get_setUndone, hk, if_false]

theorem cell_redo (c : TurnCore) (k : ℕ) :
    (c.redo env ids).cell k =
      if k ∈ ids then (c.cell k).setUndone (env.turnWrite k) false else c.cell k := by
  unfold redo
  dsimp only
  rw [Std.ExtTreeMap.foldl_toList_view cell
    (fun k cell turn => cell.write (env.turnWrite k) turn) _
    (fun c k turn k' => cell_writeTurn env k turn c k'), SessionState.get_restrict]
  simp only [SessionState.get_setUndone]
  by_cases hk : k ∈ ids
  · simp only [hk, if_true, TurnCell.setUndone]
    have hcell : (c.cell k).turn = c.turns[k]? := rfl
    rw [hcell]
    cases hturn : c.turns[k]? with
    | none =>
      simp only [cell, SessionState.get_setUndone, hk, hturn, if_true, map_none,
        elim_none]
    | some turn =>
      simp only [cell, SessionState.get_setUndone, hk, hturn, if_true, map_some,
        elim_some]
  · simp only [cell, SessionState.get_setUndone, hk, if_false, elim_none]

theorem cell_mergeTurn (c : TurnCore) (k : ℕ) (turn : Turn) (k' : ℕ) :
    (c.mergeTurn env (k, turn)).cell k' =
      if k' = k then (c.cell k).merge (env.turnWrite k) turn else c.cell k' := by
  have hinsert : ∀ k', ({ c with turns := c.turns.insert k turn } : TurnCore).cell k' =
      if k' = k then { c.cell k with turn := some turn } else c.cell k' := by
    intro k'
    by_cases hk : k' = k
    · subst hk
      simp only [cell, Std.ExtTreeMap.get_insert, if_true]
    · simp only [cell, Std.ExtTreeMap.get_insert, hk, if_false]
  have hcell : (c.cell k).turn = c.turns[k]? := rfl
  unfold mergeTurn TurnCell.merge
  dsimp only
  rw [hcell]
  cases c.turns[k]? with
  | none =>
    dsimp only
    rw [cell_writeTurn, hinsert, hinsert, if_pos rfl]
    split_ifs <;> rfl
  | some stateTurn =>
    dsimp only
    by_cases hstale : (stateTurn.undone && !turn.undone) = true
    · rw [if_pos hstale, if_pos hstale]
      split_ifs with hk
      · rw [hk]
      · rfl
    · rw [if_neg hstale, if_neg hstale, hinsert]

theorem cell_merge (turns : TurnMap) (c : TurnCore) (k : ℕ) :
    (c.merge env turns).cell k =
      match turns[k]? with
      | none => c.cell k
      | some turn => (c.cell k).merge (env.turnWrite k) turn := by
  unfold merge
  change (turns.toList.foldl (mergeTurn env) c).cell k = _
  rw [Std.ExtTreeMap.foldl_toList_view cell
    (fun k cell turn => cell.merge (env.turnWrite k) turn) (mergeTurn env)
    (fun c k turn k' => cell_mergeTurn env c k turn k') turns c k]
  cases turns[k]? <;> rfl

/-! ### Turn ids -/

theorem writeTurn_nextTurnId (turnId : ℕ) (turn : Turn) (c : TurnCore) :
    (c.writeTurn env turnId turn).nextTurnId = c.nextTurnId := by
  unfold writeTurn
  split_ifs <;> rfl

/-- A loop whose body keeps the next turn id keeps it. -/
theorem foldl_nextTurnId {α : Type*} (body : TurnCore → α → TurnCore)
    (h : ∀ c a, (body c a).nextTurnId = c.nextTurnId) (as : List α) (c : TurnCore) :
    (as.foldl body c).nextTurnId = c.nextTurnId := by
  induction as generalizing c with
  | nil => rfl
  | cons a as ih => rw [foldl_cons, ih, h]

theorem undo_nextTurnId (c : TurnCore) :
    (c.undo env ids).nextTurnId = c.nextTurnId := by
  refine foldl_nextTurnId _ (fun c id => ?_) ids _
  split
  · exact writeTurn_nextTurnId env id _ c
  · rfl

theorem redo_nextTurnId (c : TurnCore) :
    (c.redo env ids).nextTurnId = c.nextTurnId :=
  foldl_nextTurnId (fun c (entry : ℕ × Turn) => c.writeTurn env entry.1 entry.2)
    (fun c entry => writeTurn_nextTurnId env entry.1 entry.2 c) _ _

theorem merge_nextTurnId (turns : TurnMap) (c : TurnCore) :
    (c.merge env turns).nextTurnId =
      turns.keys.max?.elim c.nextTurnId fun maxId => max c.nextTurnId (maxId + 1) := by
  have hfold : (turns.toList.foldl (mergeTurn env) c).nextTurnId = c.nextTurnId := by
    refine foldl_nextTurnId _ (fun c entry => ?_) _ c
    unfold mergeTurn
    split
    · exact writeTurn_nextTurnId env _ _ _
    · split_ifs <;> rfl
  unfold merge
  dsimp only
  rw [hfold]
  cases turns.keys.max? <;> rfl

/-! ### The redo memory -/

theorem writeTurn_lastUndoTurnIds (turnId : ℕ) (turn : Turn) (c : TurnCore) :
    (c.writeTurn env turnId turn).lastUndoTurnIds = c.lastUndoTurnIds := by
  unfold writeTurn
  split_ifs <;> rfl

/-- A loop whose body keeps the redo memory keeps it. -/
theorem foldl_lastUndoTurnIds {α : Type*} (body : TurnCore → α → TurnCore)
    (h : ∀ c a, (body c a).lastUndoTurnIds = c.lastUndoTurnIds) (as : List α) (c : TurnCore) :
    (as.foldl body c).lastUndoTurnIds = c.lastUndoTurnIds := by
  induction as generalizing c with
  | nil => rfl
  | cons a as ih => rw [foldl_cons, ih, h]

theorem redo_lastUndoTurnIds (c : TurnCore) :
    (c.redo env ids).lastUndoTurnIds = none :=
  foldl_lastUndoTurnIds (fun c (entry : ℕ × Turn) => c.writeTurn env entry.1 entry.2)
    (fun c entry => writeTurn_lastUndoTurnIds env entry.1 entry.2 c) _ _

theorem merge_lastUndoTurnIds (turns : TurnMap) (c : TurnCore) :
    (c.merge env turns).lastUndoTurnIds = c.lastUndoTurnIds := by
  refine foldl_lastUndoTurnIds _ (fun c entry => ?_) _ c
  unfold mergeTurn
  split
  · exact writeTurn_lastUndoTurnIds env _ _ _
  · split_ifs <;> rfl

end TurnCore

namespace TurnCell

theorem isSome_turn_setUndone (ok flag : Bool) (cell : TurnCell) :
    (cell.setUndone ok flag).turn.isSome = cell.turn.isSome := by
  rw [setUndone_turn, isSome_map]

theorem row_setUndone {ok flag : Bool} {cell : TurnCell}
    (h : (cell.setUndone ok flag).row.isSome = true) :
    cell.row.isSome = true ∨ cell.turn.isSome = true := by
  unfold setUndone at h
  cases hturn : cell.turn with
  | none =>
    rw [hturn] at h
    exact Or.inl h
  | some turn => exact Or.inr rfl

theorem isSome_turn_merge (ok : Bool) (turn : Turn) (cell : TurnCell) :
    (cell.merge ok turn).turn.isSome = true := by
  rw [merge_turn]
  split
  · rfl
  · split_ifs <;> rfl

end TurnCell

variable (env : CommandEnv) (command : SessionCommand)

theorem Loop.processCommand_cell (l : Loop)
    (hcommand : ∀ requestId snapshot, command ≠ .requestFinished requestId snapshot) (k : ℕ) :
    (l.processCommand env command).1.core.cell k = l.core.cell k ∨
      ∃ flag, (l.processCommand env command).1.core.cell k =
        (l.core.cell k).setUndone (env.turnWrite k) flag := by
  have hcore := l.processCommand_core env command
  cases command with
  | requestFinished requestId snapshot => exact absurd rfl (hcommand requestId snapshot)
  | undo =>
    cases hundo : l.state.undoTurns with
    | none =>
      simp only [hundo] at hcore
      exact Or.inl (by rw [hcore])
    | some p =>
      simp only [hundo] at hcore
      rw [hcore, TurnCore.cell_undo]
      split_ifs
      · exact Or.inr ⟨true, rfl⟩
      · exact Or.inl rfl
  | redo =>
    cases hredo : l.state.lastUndoTurnIds with
    | none =>
      simp only [hredo] at hcore
      exact Or.inl (by rw [hcore])
    | some ids =>
      simp only [hredo] at hcore
      rw [hcore, TurnCore.cell_redo]
      split_ifs
      · exact Or.inr ⟨false, rfl⟩
      · exact Or.inl rfl
  | _ => exact Or.inl (congrArg (fun core => core.cell k) hcore)

theorem Loop.processCommand_nextTurnId (l : Loop)
    (hcommand : ∀ requestId snapshot, command ≠ .requestFinished requestId snapshot) :
    (l.processCommand env command).1.state.nextTurnId = l.state.nextTurnId := by
  have hcore := congrArg TurnCore.nextTurnId (l.processCommand_core env command)
  cases command with
  | requestFinished requestId snapshot => exact absurd rfl (hcommand requestId snapshot)
  | undo =>
    cases hundo : l.state.undoTurns with
    | none =>
      simp only [hundo] at hcore
      exact hcore
    | some p =>
      simp only [hundo] at hcore
      exact hcore.trans (TurnCore.undo_nextTurnId env _ _)
  | redo =>
    cases hredo : l.state.lastUndoTurnIds with
    | none =>
      simp only [hredo] at hcore
      exact hcore
    | some ids =>
      simp only [hredo] at hcore
      exact hcore.trans (TurnCore.redo_nextTurnId env _ _)
  | _ => exact hcore

/-- The effect of every command on the turn ids: commands other than the end of a request keep the
next turn id and the ids in memory, and write rows of turns in memory only. -/
theorem Loop.processCommand_ids (l : Loop)
    (hcommand : ∀ requestId snapshot, command ≠ .requestFinished requestId snapshot) :
    (l.processCommand env command).1.state.nextTurnId = l.state.nextTurnId ∧
      ∀ k : ℕ, (l.processCommand env command).1.state.turns[k]?.isSome =
          l.state.turns[k]?.isSome ∧
        ((l.processCommand env command).1.store.turns[k]?.isSome = true →
          l.store.turns[k]?.isSome = true ∨ l.state.turns[k]?.isSome = true) := by
  refine ⟨l.processCommand_nextTurnId env command hcommand, fun k => ?_⟩
  set l' := (l.processCommand env command).1 with hl'
  change (l'.core.cell k).turn.isSome = (l.core.cell k).turn.isSome ∧
    ((l'.core.cell k).row.isSome = true → _)
  rcases l.processCommand_cell env command hcommand k with hcell | ⟨flag, hcell⟩
  · rw [hl', hcell]
    exact ⟨rfl, Or.inl⟩
  · rw [hl', hcell]
    exact ⟨TurnCell.isSome_turn_setUndone _ _ _, TurnCell.row_setUndone⟩

theorem Loop.processCommand_lastUndoTurnIds (l : Loop)
    (hundo : command ≠ .undo) :
    (l.processCommand env command).1.state.lastUndoTurnIds =
      match command with
      | .redo => none
      | _ => l.state.lastUndoTurnIds := by
  have hcore := l.processCommand_core env command
  have hsame : ∀ {l' : Loop} {c : TurnCore}, l'.core = c →
      l'.state.lastUndoTurnIds = c.lastUndoTurnIds :=
    fun heq => congrArg TurnCore.lastUndoTurnIds heq
  cases command with
  | undo => exact absurd rfl hundo
  | redo =>
    cases hredo : l.state.lastUndoTurnIds with
    | none =>
      simp only [hredo] at hcore
      exact (hsame hcore).trans hredo
    | some ids =>
      simp only [hredo] at hcore
      exact (hsame hcore).trans (TurnCore.redo_lastUndoTurnIds env ids _)
  | requestFinished requestId snapshot =>
    exact (hsame hcore).trans (TurnCore.merge_lastUndoTurnIds env snapshot.turns _)
  | _ => exact hsame hcore

theorem Loop.requestFinished_ids (requestId : ℕ) (snapshot : SessionSnapshot)
    (l : Loop) :
    (l.processCommand env (.requestFinished requestId snapshot)).1.state.nextTurnId =
        snapshot.turns.keys.max?.elim l.state.nextTurnId
          (fun maxId => max l.state.nextTurnId (maxId + 1)) ∧
      ∀ k : ℕ, ((l.processCommand env (.requestFinished requestId snapshot)).1.state.turns[k]?.isSome
          = true ↔ l.state.turns[k]?.isSome = true ∨ snapshot.turns[k]?.isSome = true) ∧
        ((l.processCommand env (.requestFinished requestId snapshot)).1.store.turns[k]?.isSome = true →
          l.store.turns[k]?.isSome = true ∨ snapshot.turns[k]?.isSome = true) := by
  have hcore := l.processCommand_core env (.requestFinished requestId snapshot)
  simp only at hcore
  refine ⟨?_, fun k => ?_⟩
  · exact (congrArg TurnCore.nextTurnId hcore).trans (TurnCore.merge_nextTurnId env _ _)
  · set l' := (l.processCommand env (.requestFinished requestId snapshot)).1
    change ((l'.core.cell k).turn.isSome = true ↔ _) ∧ ((l'.core.cell k).row.isSome = true → _)
    rw [hcore, TurnCore.cell_merge]
    cases snapshot.turns[k]? with
    | none => exact ⟨⟨Or.inl, fun h => h.elim id fun h => (by cases h)⟩, Or.inl⟩
    | some turn =>
      refine ⟨⟨fun _ => Or.inr rfl, fun _ => ?_⟩, fun _ => Or.inr rfl⟩
      exact TurnCell.isSome_turn_merge _ turn _

end Choreo
