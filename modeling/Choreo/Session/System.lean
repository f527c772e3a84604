import Choreo.Agent.Worker
import Choreo.Library.Runs

/-!
# A session and its worker

The whole of one session: the session thread with its command channel, the worker of the request in
flight, and the store. Others (clients, the daemon, tools) send commands at any time; the session
thread takes them from its channel one at a time; the worker runs at its own pace. The thread can
end and be started again from the store, and the whole process can die at any moment and be started
again.

## Main definitions

* `Loop.sessionMain`: the state that a session thread starts with.
* `System`, `System.step`: the session and its steps.
* `System.init`: a session that is only stored.
-/

namespace Choreo

/-- The tool groups of a session that stored none. -/
def defaultActiveToolGroups : Std.ExtTreeSet String :=
  Std.ExtTreeSet.ofList ["core", "git", "shell"]

/-- The surroundings of the start of a session thread: the catalog, the provider that the daemon
holds for the account, and whether the turns can be read. -/
structure BootEnv where
  catalog : Catalog
  provider : Option InferenceProvider
  readOk : Bool

def SessionConfig.ofRecord (record : SessionRecord) : SessionConfig where
  title := record.title
  selectedModel := record.selectedModel
  reasoningEffort := record.reasoningEffort
  parentSessionId := record.parentSessionId
  workingDir := record.workingDir.map .utf8
  createdAt := record.createdAt
  lastModified := record.lastModified
  status := .inactive
  activeToolGroups :=
    if record.activeToolGroups = [] then defaultActiveToolGroups
    else Std.ExtTreeSet.ofList record.activeToolGroups
  contextConfig := record.contextConfig
  accountName := record.accountName
  accumulatedUsage := {}
  contextWindow := none
  lastPromptTokens := none
  lastResponseId := record.lastResponseId
  lastResponseIdProducer := record.lastResponseIdProducer

/-- Adds a turn that was read from the store. -/
def SessionState.loadTurn (state : SessionState) (entry : ℕ × Turn) : SessionState :=
  { state with
    turns := state.turns.insert entry.1 entry.2
    nextTurnId := max state.nextTurnId (entry.1 + 1) }

/-- The token totals of a list of turns: the sum of their usages and the prompt size of the last
one that reported any. -/
def reconstructUsage (turns : List Turn) : TokenUsage × Option UInt32 :=
  turns.foldl (fun acc turn =>
    match turn.tokenUsage with
    | some u => (acc.1.add u, some u.inputTokens)
    | none => acc) ({}, none)

def SessionState.loadTurns (state : SessionState) (turns : List (ℕ × Turn)) : SessionState :=
  let state := turns.foldl SessionState.loadTurn state
  let usage := reconstructUsage state.turns.values
  { state with
    config := { state.config with
      accumulatedUsage := usage.1
      lastPromptTokens := usage.2 } }

theorem SessionState.foldl_loadTurn (entries : List (ℕ × Turn)) (state : SessionState) :
    entries.foldl loadTurn state =
      { state with
        turns := entries.foldl (fun m entry => m.insert entry.1 entry.2) state.turns
        nextTurnId := entries.foldl (fun n entry => max n (entry.1 + 1)) state.nextTurnId } := by
  induction entries generalizing state with
  | nil => rfl
  | cons entry entries ih =>
    rw [List.foldl_cons, ih]
    rfl

namespace Loop

/-- The state that a session thread starts with. There are no subscribers yet, so nobody receives
the context window that is resolved here. -/
def sessionMain (boot : BootEnv) (record : SessionRecord) (store : Store) (log : List Output) :
    Loop :=
  let state : SessionState :=
    { config := SessionConfig.ofRecord record, provider := boot.provider }
  let cw := record.selectedModel.bind fun model => boot.provider.bind fun provider =>
    provider.resolveContextWindow boot.catalog model
  let state := { state with config := { state.config with contextWindow := cw } }
  let log :=
    match cw with
    | some cw => .broadcast (.contextWindowResolved cw) [] :: log
    | none => log
  let state := if boot.readOk then state.loadTurns store.readTurns else state
  { state := state
    shutdownRequested := false
    store := store
    log := .updateMetadata state.toMetadata :: log
    spawned := none }

theorem sessionMain_activeRequests (boot : BootEnv) (record : SessionRecord) (store : Store)
    (log : List Output) : (sessionMain boot record store log).state.activeRequests = ∅ := by
  unfold sessionMain SessionState.loadTurns
  dsimp only
  split_ifs
  · rw [SessionState.foldl_loadTurn]
  · rfl

/-- The thread before its next command. -/
def clearSpawned (l : Loop) : Loop := { l with spawned := none }

@[simp]
theorem clearSpawned_state (l : Loop) : l.clearSpawned.state = l.state := rfl

@[simp]
theorem clearSpawned_spawned (l : Loop) : l.clearSpawned.spawned = none := rfl

/-- The end of a session thread: the record is written and the daemon is told. -/
def persistAndExit (env : CommandEnv) (l : Loop) : Loop :=
  (l.writeRecord env).send .sessionExited

end Loop

/-- One session: whether its thread runs, the thread's state with the store and everything sent so
far, the command channel, and the worker of the request in flight. -/
structure System where
  live : Bool
  loop : Loop
  queue : List SessionCommand := []
  worker : Option Worker := none

/-- Commands that do not come from the worker itself. Forwarding threads and the streaming callback
of a model call broadcast chunks of output. -/
def SessionCommand.isExternal : SessionCommand → Bool
  | .requestFinished .. => false
  | .syncAccumulatedUsage .. => false
  | .broadcast event => event.isStreamChunk
  | _ => true

/-- The steps of a session: a command arrives, the session thread handles the next command, the
worker makes a step, or the session is started from the store. -/
inductive SystemLabel
  | send (command : SessionCommand)
  | process (env : CommandEnv)
  | work (label : WorkerLabel)
  | restart (boot : BootEnv)

/-- Whether the session thread handles a command in this step. -/
def SystemLabel.isProcess : SystemLabel → Bool
  | .process _ => true
  | _ => false

/-- Whether the worker starts a model call in this step, if it gets so far. -/
def SystemLabel.isStartCall : SystemLabel → Bool
  | .work (.startCall ..) => true
  | _ => false

/-- Whether the session is started from its store in this step. -/
def SystemLabel.isRestart : SystemLabel → Bool
  | .restart _ => true
  | _ => false

namespace System

/-- A session that is only stored. -/
def init (store : Store) : System :=
  { live := false, loop := { state := {}, store := store } }

/-- The snapshot that the next command of the channel hands back, if it ends a request. -/
def finishing (s : System) : Option SessionSnapshot :=
  match s.queue with
  | .requestFinished _ snapshot :: _ => some snapshot
  | _ => none

theorem exists_of_isSome_finishing {s : System} (h : s.finishing.isSome = true) :
    ∃ requestId snapshot queue, s.queue = .requestFinished requestId snapshot :: queue := by
  unfold finishing at h
  split at h
  · next requestId snapshot queue hqueue => exact ⟨requestId, snapshot, queue, hqueue⟩
  · cases h

/-- Whether the session thread handles a command of the given kind in this step. -/
def Handles (kind : SessionCommand → Bool) (label : SystemLabel) (s : System) : Bool :=
  label.isProcess && s.queue.head?.any kind

/-- Whether the cancel channel of the worker's request holds a message that it has not read. -/
def cancelPending (s : System) (w : Worker) : Bool :=
  match s.loop.state.activeRequests[w.requestId]? with
  | some active => w.cancelsRead < active.cancelsSent
  | none => false

/-- The session thread handles a command; an accepted request spawns its worker, and the end of the
loop writes the record and closes the channel. -/
def processStep (env : CommandEnv) (command : SessionCommand) (queue : List SessionCommand)
    (s : System) : System :=
  let (l, isExit) := s.loop.clearSpawned.processCommand env command
  if isExit then { s with live := false, loop := l.persistAndExit env, queue := [] }
  else
    { s with
      loop := l
      queue := queue
      worker :=
        match l.spawned with
        | some args => some (Worker.spawn args)
        | none => s.worker }

/-- The worker makes a step. A command for a session thread that is over is lost. -/
def workStep (effect : WorkerEffect) (s : System) : System :=
  { s with
    loop := { s.loop with
      store := effect.store
      log := effect.output.toList ++ s.loop.log }
    queue := if s.live then s.queue ++ effect.command.toList else s.queue
    worker := effect.worker }

def step (setup : AgentSetup) (label : SystemLabel) (s : System) : Option System :=
  match label with
  | .send command =>
    if s.live && command.isExternal then some { s with queue := s.queue ++ [command] } else none
  | .process env =>
    match s.live, s.queue with
    | true, command :: queue => some (s.processStep env command queue)
    | _, _ => none
  | .work label =>
    match s.worker with
    | some w =>
      (w.step setup (s.cancelPending w) label s.loop.store).map fun effect => s.workStep effect
    | none => none
  | .restart boot =>
    match s.loop.store.record with
    | some record =>
      some
        { live := true
          loop := Loop.sessionMain boot record s.loop.store s.loop.log
          queue := []
          worker := none }
    | none => none

end System

/-! ### A small session

Values for runs on concrete inputs: a catalog with two models, a provider, and surroundings in which
every write succeeds. -/

namespace Sample

def catalog : Catalog where
  lookupProvider slug :=
    if slug = "local" then some { slug := "local", baseUrl := "here", protocol := .openAi } else none
  lookupContextWindow _ model := if model = "large" then some 200 else some 100
  modelReasoningCapability _ _ := { availableEffortLevels := ["off", "high"] }
  modelReasoningPassback _ _ := .responseId

def provider : InferenceProvider where
  client :=
    { protocol := .openAi, baseUrl := "here", contextWindowConfig := {}, settings := []
      apiKey := "key" }
  slug := "local"

def env : CommandEnv where
  now := 0
  catalog := catalog
  resolveProvider _ := some provider
  validateModel _ := .ok ()
  recordWrite := true
  turnWrite _ := true
  gone _ := false
  knownGroupNames := ["core", "git", "shell"]
  graphemes text := text.length
  renderList groups := ", ".intercalate groups

def boot : BootEnv := { catalog := catalog, provider := some provider, readOk := true }

def setup : AgentSetup where
  tools :=
    { describeInvocation := fun call => call.name
      recordText := id
      determineToolTimeout := fun _ => none
      renderList := fun groups => ", ".intercalate groups }
  maxTurns := 0

def record : SessionRecord where
  title := none
  selectedModel := some "small"
  parentSessionId := none
  workingDir := none
  turnCount := 0
  createdAt := 0
  lastModified := 0
  activeToolGroups := ["core", "git", "shell"]
  contextConfig := {}
  accountName := some "work"
  reasoningEffort := none
  lastResponseId := none
  lastResponseIdProducer := none

def store (turns : List Turn) : Store where
  record := some { record with turnCount := turns.length }
  turns := Std.ExtTreeMap.ofList (turns.zipIdx.map fun p => (p.2, some p.1))

def oneTurn : Store := store [{ createdAt := 0, userText := some "hi" }]

/-- A command arrives and is handled. -/
def post (command : SessionCommand) : List SystemLabel := [.send command, .process env]

/-- The worker starts a model call and announces it. -/
def call : List SystemLabel :=
  [.work (.enterLoop catalog []), .work (.startCall 0 none 0), .work .flush, .work .flush,
    .work .flush]

/-- The model answers; the worker writes the turn, announces the outcome and ends. -/
def answer (responseId : Option String) : List SystemLabel :=
  [.work (.reply (.finalText { content := "hello", responseId := responseId })), .work .flush,
    .work (.finalize none), .work .flush, .work .leaveLoop, .work .conclude, .work .flush,
    .work .finish]

/-- No skills, groups or directories. -/
def files : ToolFiles where
  skillName _ := none
  loadSkillBody _ _ := none
  parseGroups _ := none
  resolveWorkingDir _ _ := none

/-- The model asks for one tool, which runs and returns. -/
def useTool (responseId : Option String) : List SystemLabel :=
  [.work (.reply (.toolUse
      { toolCalls := [{ id := "a", name := "read_file", argumentsJson := "", caller := none }]
        responseId := responseId })),
    .work .flush, .work .flush, .work (.tool .serialNext), .work .flush, .work .flush,
    .work (.tool (.exec 0 (.ok { content := "text" }))), .work (.tool (.wake 0 .result none)),
    .work (.tool (.collect files)), .work .flush, .work .flush, .work (.tool (.endBatch files)),
    .work .leaveTools]

/-- The session thread handles the given number of commands. -/
def drain (n : ℕ) : List SystemLabel := List.replicate n (.process env)

end Sample

end Choreo
