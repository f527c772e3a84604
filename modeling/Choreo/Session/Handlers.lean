import Choreo.Session.Commands

/-!
# Command handlers of a session

One definition per handler of `choreo-daemon/src/sessions.rs`, from `handle_run_input` to
`handle_shutdown`. A handler maps the loop state to the loop state and says whether the session
loop ends (`true`) or goes on.

## Main definitions

* `Loop.handleRunInput`, `Loop.handleRunChildInput`: the two ways to start a request.
* `Loop.handleRequestFinished`: the merge of a worker's snapshot.
* `Loop.handleUndo`, `Loop.handleRedo`.
* `Loop.processCommand`: the dispatch.
-/

namespace Choreo

/-- The longest session title, in grapheme clusters. -/
def maxTitleChars : ℕ := 200

/-- The longest reasoning effort slug, in bytes. -/
def maxEffortBytes : ℕ := 64

/-- Adds tool groups to the active set; returns the summary for the caller. -/
def applyLoadTools (renderList : List String → String) (active : Std.ExtTreeSet String)
    (groups : List String) : Std.ExtTreeSet String × String :=
  let (active, loaded) := groups.foldl
    (fun (acc : Std.ExtTreeSet String × List String) g =>
      if acc.1.contains g then acc else (acc.1.insert g, acc.2 ++ [g])) (active, [])
  (active,
    if loaded = [] then "All specified groups were already active."
    else "Activated tool groups: " ++ renderList loaded)

/-- Removes tool groups from the active set, except `core`; returns the summary for the caller. -/
def applyUnloadTools (renderList : List String → String) (active : Std.ExtTreeSet String)
    (groups : List String) : Std.ExtTreeSet String × String :=
  let (active, unloaded, isProtected) := groups.foldl
    (fun (acc : Std.ExtTreeSet String × List String × Bool) g =>
      if g = "core" then (acc.1, acc.2.1, true)
      else if acc.1.contains g then (acc.1.erase g, acc.2.1 ++ [g], acc.2.2)
      else acc) (active, [], false)
  let parts :=
    (if unloaded = [] then [] else ["Deactivated tool groups: " ++ renderList unloaded]) ++
      (if isProtected then ["The 'core' group cannot be unloaded."] else [])
  (active,
    if parts = [] then "None of the specified groups were active." else " ".intercalate parts)

/-- The groups that are not registered, if there are any. -/
def unknownGroupNames (groups known : List String) : Option (List String) :=
  match groups.filter fun g => !known.contains g with
  | [] => none
  | unknown => some unknown

namespace Loop

/-! ### Requests -/

variable (env : CommandEnv)

/-- The provider of a user input: the cached one, else the one the daemon resolves for the
session's account, which is then cached. -/
def inputProvider (l : Loop) : Except String (InferenceProvider × Loop) :=
  match l.state.provider, l.state.config.accountName with
  | some provider, _ => .ok (provider, l)
  | none, some name =>
    match env.resolveProvider name with
    | some provider =>
      .ok (provider,
        ({ l with state := { l.state with provider := some provider } } :
          Loop).resolveContextWindowIfMissing env)
    | none =>
      .error ("no credential stored for account '" ++ name ++
        "' — add one via the AI Providers page or /add-key")
  | none, none => .error "no account configured on this session — use /account <name> to set one"

/-- Accepts a request: announces it, registers it and spawns its worker on a snapshot. -/
def startRequest (requestId : ℕ) (client : InferenceProvider) (model : String)
    (childReply : Option ℕ) (userText : Option String) (l : Loop) : Loop :=
  let l := l.broadcast env (.started requestId l.state.nextTurnId 0)
  { l with
    state := { l.state with
      activeRequests :=
        l.state.activeRequests.insert requestId
          { cancelsSent := 0, turnId := l.state.nextTurnId } }
    spawned := some
      { requestId := requestId
        client := client
        session := SessionState.fromSnapshot l.state.snapshot ∅
        model := model
        childReply := childReply
        userText := userText } }

/-- A user input: validated, given a provider, and started. -/
def handleRunInput (requestId : ℕ) (input : String) (l : Loop) : Loop × Bool :=
  if trim input = "" then (l.failRequest env requestId "empty input", false)
  else
    match l.inputProvider env with
    | .error error => (l.failRequest env requestId error, false)
    | .ok (provider, l) =>
      match l.state.config.selectedModel with
      | none => (l.failRequest env requestId "no model selected", false)
      | some model =>
        if l.shutdownRequested then
          (l.failRequest env requestId "session is shutting down", false)
        else if l.state.activeRequests.isEmpty then
          (l.startRequest env requestId provider model none (some (trim input)), false)
        else (l.failRequest env requestId "session already has an active request", false)

/-- The request of a parent session: rejections only go to the parent. -/
def handleRunChildInput (requestId : ℕ) (userText : Option String) (reply : ℕ)
    (l : Loop) : Loop × Bool :=
  match l.state.provider with
  | none => (l.send (.child reply (.error "daemon locked")), false)
  | some provider =>
    if l.shutdownRequested then
      (l.send (.child reply (.error "session is shutting down")), false)
    else if l.state.activeRequests.isEmpty then
      (l.startRequest env requestId provider (l.state.config.selectedModel.getD "") (some reply)
        userText, false)
    else (l.send (.child reply (.error "session already has an active request")), false)

/-- Sends a cancel to one active request and tells the subscribers. -/
def cancelRequest (requestId : ℕ) (l : Loop) : Loop :=
  match l.state.activeRequests[requestId]? with
  | none => l
  | some active =>
    ({ l with
      state := { l.state with
        activeRequests :=
          l.state.activeRequests.insert requestId
            { active with cancelsSent := active.cancelsSent + 1 } } } :
      Loop).broadcast env (.cancelled requestId)

def handleCancel (requestId : ℕ) (l : Loop) : Loop × Bool :=
  let targets := if requestId = 0 then l.state.activeRequests.keys else [requestId]
  (targets.foldl (fun l requestId => l.cancelRequest env requestId) l, false)

/-- Shuts the session down: every active request is cancelled, and the loop ends at once when there
is none. -/
def handleShutdown (l : Loop) : Loop × Bool :=
  let l := { l with shutdownRequested := true }
  let l := l.state.activeRequests.keys.foldl (fun l requestId => l.cancelRequest env requestId) l
  (l, l.state.activeRequests.isEmpty)

/-- The condition to leave the loop after a subscriber or a request went away. -/
def canExit (l : Loop) : Bool :=
  l.state.activeRequests.isEmpty && (l.state.subscribers.isEmpty || l.shutdownRequested)

/-! ### The merge of a worker's snapshot -/

/-- Whether the session undid a turn that the worker's snapshot still has as visible. -/
def undoDuringRequest (l : Loop) (snapshot : SessionSnapshot) : Bool :=
  snapshot.turns.any fun turnId snapTurn =>
    match l.state.turns[turnId]? with
    | some stateTurn => stateTurn.undone && !snapTurn.undone
    | none => false

/-- Merges one turn of the worker's snapshot. A turn that was undone in the meantime is kept; other
turns are replaced, and written when they are new. -/
def mergeTurn (l : Loop) (entry : ℕ × Turn) : Loop :=
  let (turnId, turn) := entry
  let inserted : Loop :=
    { l with state := { l.state with turns := l.state.turns.insert turnId turn } }
  match l.state.turns[turnId]? with
  | none => inserted.writeTurn env turnId turn
  | some stateTurn =>
    if stateTurn.undone && !turn.undone then l
    else if inserted.state.turns[turnId]? ≠ some turn then inserted.writeTurn env turnId turn
    else inserted

/-- Drops the response id of a snapshot when an undo landed while its request ran. -/
def dropStaleChain (l : Loop) (snapshot : SessionSnapshot) : SessionSnapshot :=
  if l.undoDuringRequest snapshot then
    { snapshot with
      config := { snapshot.config with
        lastResponseId := none
        lastResponseIdProducer := none } }
  else snapshot

/-- Applies a worker's snapshot and merges its turns. The record is written before the turns are
merged. -/
def handleRequestFinished (requestId : ℕ) (snapshot : SessionSnapshot)
    (l : Loop) : Loop × Bool :=
  let snapshot := l.dropStaleChain snapshot
  let l := l.modifyConfig fun config => config.applyWorkerSnapshot snapshot.config
  let l := l.modifyConfig fun config =>
    { config with lastModified := max config.lastModified env.now }
  let l := l.writeRecord env
  let l : Loop := { l with
    state := { l.state with
      loadedSkillBodies := snapshot.loadedSkillBodies
      contextCache := snapshot.contextCache
      discoveredSkills := snapshot.discoveredSkills } }
  let l := snapshot.turns.toList.foldl (mergeTurn env) l
  let l : Loop := { l with
    state := { l.state with
      nextTurnId :=
        match snapshot.turns.keys.max? with
        | some maxId => max l.state.nextTurnId (maxId + 1)
        | none => l.state.nextTurnId
      activeRequests := l.state.activeRequests.erase requestId
      config := { l.state.config with status := .inactive } } }
  let l := l.send (.updateMetadata l.state.toMetadata)
  let l := l.broadcast env (.sessionStatusChanged .inactive env.now)
  let l := l.send (.broadcastSessionStatus .inactive)
  (l, l.canExit)

/-! ### Undo and redo -/

/-- Writes the turns of the session with the given ids. -/
def writeTurns (ids : List ℕ) (l : Loop) : Loop :=
  ids.foldl (fun l id =>
    match l.state.turns[id]? with
    | some turn => l.writeTurn env id turn
    | none => l) l

def dropResponseChain (l : Loop) : Loop :=
  if l.state.config.lastResponseId.isSome then
    (l.modifyConfig fun config =>
      { config with
        lastResponseId := none
        lastResponseIdProducer := none }).writeRecord env
  else l

/-- Hides the most recent user turn and what follows it; a response chain is dropped with it. -/
def handleUndo (l : Loop) : Loop × Bool :=
  match l.state.undoTurns with
  | none => (l, false)
  | some (turnIds, state) =>
    let l := ({ l with state := state } : Loop).dropResponseChain env
    ((l.writeTurns env turnIds).broadcast env (.turnsUndone turnIds), false)

/-- Brings the turns of the last undo back. -/
def handleRedo (l : Loop) : Loop × Bool :=
  match l.state.redoTurns with
  | none => (l, false)
  | some (turns, state) =>
    let l := { l with state := state }
    let l := turns.toList.foldl (fun l entry => l.writeTurn env entry.1 entry.2) l
    (l.broadcast env (.turnsRedone (turns.map fun _ turn => turnForClient turn)), false)

/-! ### Configuration -/

def announceContextWindow (cw : Option UInt32) (l : Loop) : Loop :=
  match cw with
  | some cw => l.broadcast env (.contextWindowResolved cw)
  | none => l

/-- Takes a model over and resolves its context window. -/
def selectModel (model : String) (l : Loop) : Loop :=
  let cw := l.state.provider.bind fun provider => provider.resolveContextWindow env.catalog model
  (l.modifyConfig fun config =>
    { config with selectedModel := some model, contextWindow := cw }).announceContextWindow env cw

def resetReasoningEffort (capability : Option ReasoningCapability) (l : Loop) :
    Loop :=
  match capability, l.state.config.reasoningEffort with
  | some cap, some effort =>
    if effort ≠ "off" ∧ effort ∉ cap.availableEffortLevels then
      (l.modifyConfig fun config =>
        { config with reasoningEffort := some "off" }).broadcast env (.reasoningEffortSet "off")
    else l
  | _, _ => l

/-- Selects a model, if the daemon accepts it; the context window is resolved anew, and a reasoning
effort that the model does not know is reset. -/
def handleSetModel (model : String) (l : Loop) : Loop × Bool :=
  match env.validateModel model with
  | .error error => (l.broadcast env (.modelSelectionFailed model error), false)
  | .ok () =>
    let l := l.selectModel env model
    let capability := l.state.provider.map fun provider =>
      env.catalog.modelReasoningCapability provider.providerSlug model
    let l := l.resetReasoningEffort env capability
    ((l.broadcast env (.modelSelected model capability)).persistSessionMetadata env, false)

/-- Sets the status. -/
def handleStatusChanged (status : SessionStatus) (l : Loop) : Loop × Bool :=
  let l := l.modifyConfig fun config => { config with status := status }
  let l := l.broadcast env (.sessionStatusChanged status l.state.config.lastModified)
  (l.send (.broadcastSessionStatus status), false)

/-- Takes the worker's running token totals over. -/
def handleSyncAccumulatedUsage (tokenUsage : TokenUsage)
    (lastPromptTokens : Option UInt32) (l : Loop) : Loop × Bool :=
  let l := l.modifyConfig fun config =>
    { config with
      accumulatedUsage := config.accumulatedUsage.mergeMax tokenUsage
      lastPromptTokens := lastPromptTokens.or config.lastPromptTokens }
  let l := l.broadcast env
    (.tokenUsageUpdate l.state.config.accumulatedUsage l.state.config.lastPromptTokens)
  (l.send (.updateMetadata l.state.toMetadata), false)

/-- Sets the title, unless it is too long. -/
def handleSetTitle (title : String) (l : Loop) : Loop × Bool :=
  if env.graphemes title > maxTitleChars then (l, false)
  else
    let l := l.modifyConfig fun config => { config with title := some title }
    ((l.broadcast env (.sessionTitleSet title)).persistSessionMetadata env, false)

def handleSetWorkingDir (path : PathBuf) (reply : ℕ) (l : Loop) : Loop × Bool :=
  let l := l.modifyConfig fun config => { config with workingDir := some path }
  let l := { l with state := { l.state with discoveredSkills := none } }
  let l := l.broadcast env (.sessionWorkingDirSet (some path.display))
  ((l.persistSessionMetadata env).send (.applied reply (.ok path.display)), false)

/-- The common part of loading and unloading tool groups: unknown groups are refused, and the new
set is announced with the whole session state. -/
def changeToolGroups
    (apply : Std.ExtTreeSet String → List String → Std.ExtTreeSet String × String)
    (groups : List String) (reply : ℕ) (l : Loop) : Loop × Bool :=
  match unknownGroupNames groups env.knownGroupNames with
  | some unknown =>
    (l.send (.applied reply
      (.error ("Unknown tool group(s): " ++ ", ".intercalate unknown))), false)
  | none =>
    let (active, result) := apply l.state.config.activeToolGroups groups
    let l := l.modifyConfig fun config => { config with activeToolGroups := active }
    let l := l.broadcast env (l.sessionStateMessage env)
    ((l.persistSessionMetadata env).send (.applied reply (.ok result)), false)

/-- Activates tool groups. -/
def handleLoadTools : List String → ℕ → Loop → Loop × Bool :=
  changeToolGroups env (applyLoadTools env.renderList)

/-- Deactivates tool groups. -/
def handleUnloadTools : List String → ℕ → Loop → Loop × Bool :=
  changeToolGroups env (applyUnloadTools env.renderList)

def useProvider (provider : InferenceProvider) (l : Loop) : Loop :=
  let l :=
    match l.state.config.selectedModel with
    | none => l
    | some model =>
      let cw := provider.resolveContextWindow env.catalog model
      (l.modifyConfig fun config =>
        { config with contextWindow := cw }).announceContextWindow env cw
  { l with state := { l.state with provider := some provider } }

/-- Sets the account. A provider that the daemon resolves replaces the cached one; without one the
cached provider stays, and only the name changes. -/
def handleSetAccount (name : String) (l : Loop) : Loop × Bool :=
  let l :=
    match env.resolveProvider name with
    | none => l
    | some provider => l.useProvider env provider
  let l := l.modifyConfig fun config => { config with accountName := some name }
  ((l.broadcast env (.sessionAccountSet name)).persistSessionMetadata env, false)

/-- Whether the reasoning effort is acceptable: `off` always is, and any effort is as long as the
capability of the model is not known. -/
def effortValid (effort : String) (l : Loop) : Bool :=
  match l.state.config.selectedModel, l.state.provider with
  | some model, some provider =>
    effort = "off" ||
      (env.catalog.modelReasoningCapability provider.providerSlug
        model).availableEffortLevels.contains effort
  | _, _ => true

/-- Sets the reasoning effort. The change is broadcast; the record is not written. -/
def handleSetReasoningEffort (effort : String) (l : Loop) : Loop × Bool :=
  if effort.utf8ByteSize > maxEffortBytes then
    (l.broadcast env (.reasoningEffortSetFailed effort
      s!"reasoning effort slug too long ({effort.utf8ByteSize} bytes)"), false)
  else if l.effortValid env effort then
    ((l.modifyConfig fun config =>
      { config with reasoningEffort := some effort }).broadcast env (.reasoningEffortSet effort),
      false)
  else
    (l.broadcast env (.reasoningEffortSetFailed effort
      ("model '" ++ l.state.config.selectedModel.getD "(none)" ++
        "' does not support reasoning effort '" ++ effort ++ "'")), false)

/-! ### Subscribers and queries -/

/-- Attaches a client: it is told about the active requests and gets the whole session state. -/
def handleAttach (clientId : ℕ) (l : Loop) : Loop × Bool :=
  let l : Loop := { l with
    state := { l.state with subscribers := l.state.subscribers.insert clientId } }
  let l := l.send (.trackSessionSubscription clientId)
  let l := l.state.activeRequests.toList.foldl
    (fun l entry => l.send (.direct clientId (.started entry.1 entry.2.turnId 0))) l
  (l.send (.direct clientId (l.sessionStateMessage env)), false)

def removeClient (clientId : ℕ) (l : Loop) : Loop :=
  { l with state := { l.state with subscribers := l.state.subscribers.erase clientId } }

def handleDetach (clientId : ℕ) (l : Loop) : Loop × Bool :=
  let l := (l.removeClient clientId).send (.untrackSessionSubscription clientId)
  (l, l.canExit)

/-- Removes a subscriber that the daemon evicted or that disconnected. -/
def handleRemoveSubscriber (clientId : ℕ) (l : Loop) : Loop × Bool :=
  let l := l.removeClient clientId
  (l, l.canExit)

def processCommand (command : SessionCommand) (l : Loop) : Loop × Bool :=
  match command with
  | .runInput requestId input => l.handleRunInput env requestId input
  | .runChildInput requestId userText reply =>
    l.handleRunChildInput env requestId userText reply
  | .cancel requestId => l.handleCancel env requestId
  | .setModel model => l.handleSetModel env model
  | .statusChanged status => l.handleStatusChanged env status
  | .attach clientId => l.handleAttach env clientId
  | .detach clientId => l.handleDetach clientId
  | .removeSubscriber clientId => l.handleRemoveSubscriber clientId
  | .getSummary reply => (l.send (.summary reply l.state.toMetadata), false)
  | .requestFinished requestId snapshot => l.handleRequestFinished env requestId snapshot
  | .broadcast event => (l.broadcast env event, false)
  | .syncAccumulatedUsage tokenUsage lastPromptTokens =>
    l.handleSyncAccumulatedUsage env tokenUsage lastPromptTokens
  | .setTitle title => l.handleSetTitle env title
  | .setWorkingDir path reply => l.handleSetWorkingDir env path reply
  | .loadTools groups reply => l.handleLoadTools env groups reply
  | .unloadTools groups reply => l.handleUnloadTools env groups reply
  | .setAccount name => l.handleSetAccount env name
  | .setReasoningEffort effort => l.handleSetReasoningEffort env effort
  | .getReasoningEffort reply =>
    (l.send (.effort reply (l.state.config.reasoningEffort.getD "off")), false)
  | .undo => l.handleUndo env
  | .redo => l.handleRedo env
  | .shutdown => l.handleShutdown env

end Loop

end Choreo
