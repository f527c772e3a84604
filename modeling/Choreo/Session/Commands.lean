import Choreo.Session.Store
import Choreo.Text

/-!
# Commands of a session and what it sends

The commands a session thread receives (`SessionCommand` of `choreo-daemon/src/sessions.rs`), the
messages it sends, and the part of the surroundings that handling one command can depend on: the
clock, the provider catalog, the daemon's answers, the outcome of store writes, and which
subscribers have gone.

## Main definitions

* `SessionCommand`: the commands.
* `Output`: what a session thread sends to clients, to the daemon and on reply channels.
* `CommandEnv`: the surroundings of one command.
* `Loop`: the state of a session thread between two commands.
-/

namespace Choreo

/-- The commands of a session thread. Reply channels are named by numbers; the input of `runInput`
is already decoded, replacing what is no valid text. -/
inductive SessionCommand
  | runInput (requestId : ℕ) (input : String)
  | runChildInput (requestId : ℕ) (userText : Option String) (reply : ℕ)
  | cancel (requestId : ℕ)
  | setModel (model : String)
  | statusChanged (status : SessionStatus)
  | attach (clientId : ℕ)
  | detach (clientId : ℕ)
  | removeSubscriber (clientId : ℕ)
  | getSummary (reply : ℕ)
  | requestFinished (requestId : ℕ) (snapshot : SessionSnapshot)
  | broadcast (event : SessionEvent)
  | syncAccumulatedUsage (tokenUsage : TokenUsage) (lastPromptTokens : Option UInt32)
  | setTitle (title : String)
  | setWorkingDir (path : PathBuf) (reply : ℕ)
  | loadTools (groups : List String) (reply : ℕ)
  | unloadTools (groups : List String) (reply : ℕ)
  | setAccount (name : String)
  | setReasoningEffort (effort : String)
  | getReasoningEffort (reply : ℕ)
  | undo
  | redo
  | shutdown
deriving DecidableEq

/-- The result of a child session's request. -/
structure ChildResult where
  output : String
  isError : Bool
deriving DecidableEq, Repr

/-- What a session thread or its worker sends. A broadcast goes to the subscribers listed, and to
the daemon for the clients that follow all activity. -/
inductive Output
  | broadcast (event : SessionEvent) (recipients : List ℕ)
  | direct (clientId : ℕ) (event : SessionEvent)
  | updateMetadata (metadata : SessionMetadata)
  | broadcastSessionStatus (status : SessionStatus)
  | trackSessionSubscription (clientId : ℕ)
  | untrackSessionSubscription (clientId : ℕ)
  | summary (reply : ℕ) (summary : SessionMetadata)
  | applied (reply : ℕ) (result : Except String String)
  | effort (reply : ℕ) (effort : String)
  | child (reply : ℕ) (result : Except String ChildResult)
  | sessionExited

/-- The surroundings of one command: the clock, the catalog, the daemon's answers to
`ResolveProviderCmd` and `ValidateModel`, whether the writes of the record and of each turn succeed,
which subscribers' receivers are gone, the registered tool groups, and the two text helpers of other
packages (grapheme clusters and the rendering of a list). -/
structure CommandEnv where
  now : ℤ
  catalog : Catalog
  resolveProvider : String → Option InferenceProvider
  validateModel : String → Except String Unit
  recordWrite : Bool
  turnWrite : ℕ → Bool
  gone : ℕ → Bool
  knownGroupNames : List String
  graphemes : String → ℕ
  renderList : List String → String

/-- The arguments of a request worker. -/
structure WorkerArgs where
  requestId : ℕ
  client : InferenceProvider
  session : SessionState
  model : String
  childReply : Option ℕ
  userText : Option String

/-- A session thread between two commands: its state, its shutdown flag, the store, everything sent
so far (newest first) and the worker that the last command spawned, if any. -/
structure Loop where
  state : SessionState
  shutdownRequested : Bool := false
  store : Store
  log : List Output := []
  spawned : Option WorkerArgs := none

/-! ### Primitives of the handlers -/

namespace Loop

/-- Sends something that is no broadcast. -/
def send (l : Loop) (output : Output) : Loop := { l with log := output :: l.log }

variable (env : CommandEnv)

def broadcast (event : SessionEvent) (l : Loop) : Loop :=
  let live := l.state.subscribers.filter fun clientId => !env.gone clientId
  { l with
    state := { l.state with subscribers := live }
    log := .broadcast event live.toList :: l.log }

/-- Changes the configuration. -/
def modifyConfig (f : SessionConfig → SessionConfig) (l : Loop) : Loop :=
  { l with state := { l.state with config := f l.state.config } }

def writeRecord (l : Loop) : Loop :=
  { l with store := l.store.writeSessionRetry env.recordWrite l.state.toRecord }

def writeTurn (turnId : ℕ) (turn : Turn) (l : Loop) : Loop :=
  { l with store := l.store.writeTurnRetry (env.turnWrite turnId) turnId turn }

/-- Rejects a request: it is announced with turn id 0 and fails at once. -/
def failRequest (requestId : ℕ) (error : String) (l : Loop) : Loop :=
  (l.broadcast env (.started requestId 0 0)).broadcast env (.failed requestId error)

/-- Updates the daemon's index and the stored record after a change of the metadata. -/
def persistSessionMetadata (l : Loop) : Loop :=
  let l := l.modifyConfig fun config =>
    { config with lastModified := max config.lastModified env.now }
  (l.send (.updateMetadata l.state.toMetadata)).writeRecord env

/-- Resolves the context window when none is known. -/
def resolveContextWindowIfMissing (l : Loop) : Loop :=
  match l.state.config.contextWindow, l.state.config.selectedModel, l.state.provider with
  | none, some model, some provider =>
    match provider.resolveContextWindow env.catalog model with
    | some cw =>
      (l.modifyConfig fun config => { config with contextWindow := some cw }).broadcast env
        (.contextWindowResolved cw)
    | none => l
  | _, _, _ => l

def sessionStateMessage (l : Loop) : SessionEvent :=
  let config := l.state.config
  .sessionState config.title config.selectedModel config.parentSessionId
    (config.workingDir.map PathBuf.display)
    (l.state.turns.map fun _ turn => turnForClient turn)
    config.activeToolGroups.toList (some config.accumulatedUsage) config.contextWindow
    config.lastPromptTokens config.status config.reasoningEffort
    (config.selectedModel.bind fun model => l.state.provider.map fun provider =>
      env.catalog.modelReasoningCapability provider.providerSlug model)

end Loop

end Choreo
