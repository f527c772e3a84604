import Choreo.Agent.Tools

/-!
# The request worker

A request runs on a thread of its own, on a private copy of the session state
(`run_request_worker` of `choreo-daemon/src/sessions.rs` and `run_agent_loop` of
`choreo-daemon/src/requests.rs`). The worker alternates between model calls and tool phases, sends
its messages to the session thread, writes the turns that end a request, and finally hands its
snapshot back. A panic anywhere in the agent loop is caught, and then the snapshot from before the
request is handed back.

Everything the worker sends goes through the command channel of the session thread, one command at
a time, so that commands of others can come in between.

## Main definitions

* `Worker`: the state of a worker.
* `initialPrevRespId`: the response id that a request continues.
* `Worker.step`: one step of a worker.
-/

namespace Choreo

/-- A model's final answer. -/
structure FinalTextResult where
  content : String
  reasoning : Option String := none
  usage : Option TokenUsage := none
  responseId : Option String := none
  reasoningArtifact : Option ReasoningArtifact := none
deriving DecidableEq, Repr

/-- A model response that asks for tools. -/
structure ChatAssistantToolUse where
  content : Option String := none
  toolCalls : List ChatToolCall
  reasoning : Option String := none
  usage : Option TokenUsage := none
  responseId : Option String := none
  reasoningArtifact : Option ReasoningArtifact := none
deriving DecidableEq, Repr

/-- The outcome of a model call: a final answer, a tool request, a cancel noticed by the provider's
client, tool arguments that were cut off, or any other failure. -/
inductive ModelReply
  | finalText (result : FinalTextResult)
  | toolUse (result : ChatAssistantToolUse)
  | cancelled
  | truncatedToolCall (error : String)
  | failed (error : String)
deriving DecidableEq, Repr

inductive RequestOutcome
  | done
  | failed (error : String)
  | cancelled
deriving DecidableEq, Repr

/-- How far a worker is: before the loop, at the head of the loop, in a model call, in the tool
phases, about to write the last turn, about to return after that, or past the loop with its outcome
and the snapshot to hand back. -/
inductive WorkerPc
  | start
  | top
  | calling (turnId : ℕ)
  | tools (phase : ToolPhase)
  | finalizing (turnId : ℕ) (outcome : RequestOutcome)
  | persisted (turnId : ℕ) (outcome : RequestOutcome)
  | returned (outcome : RequestOutcome) (snapshot : SessionSnapshot)
  | concluding (outcome : RequestOutcome) (snapshot : SessionSnapshot)
deriving DecidableEq

/-- A worker: its arguments, the snapshot from before the request, its private session state and the
locals of the agent loop, the messages it read from its cancel channel, and the commands it is about
to send. -/
structure Worker where
  requestId : ℕ
  client : InferenceProvider
  model : String
  childReply : Option ℕ
  userText : Option String
  initialSnapshot : SessionSnapshot
  session : SessionState
  prevRespId : Option String := none
  toolResults : List ToolResultItem := []
  turnIter : ℕ := 0
  cancelsRead : ℕ := 0
  pc : WorkerPc := .start
  outbox : List SessionCommand := []

/-- The fixed settings of workers: the helpers of the tool phases and the bound on the iterations of
the agent loop, where 0 is no bound. -/
structure AgentSetup where
  tools : ToolEnv
  maxTurns : ℕ

/-- The response id that a new request continues: the stored one, when the model and provider are
those that produced it and the model wants response ids back. -/
def initialPrevRespId (catalog : Catalog) (session : SessionState) (providerSlug model : String) :
    Option String :=
  let sameProducer := session.config.lastResponseIdProducer =
    some { providerSlug := providerSlug, model := model }
  if sameProducer ∧ catalog.modelReasoningPassback providerSlug model = .responseId then
    session.config.lastResponseId
  else none

/-- Adds the usage of a model call to the session's totals. -/
def accumulateTokenUsage (session : SessionState) (usage : Option TokenUsage) : SessionState :=
  match usage with
  | none => session
  | some u =>
    { session with
      config := { session.config with
        accumulatedUsage := session.config.accumulatedUsage.add u
        lastPromptTokens := some u.inputTokens } }

namespace Worker

/-- The worker that runs with the given arguments. -/
def spawn (args : WorkerArgs) : Worker where
  requestId := args.requestId
  client := args.client
  model := args.model
  childReply := args.childReply
  userText := args.userText
  initialSnapshot := args.session.snapshot
  session := args.session

def producer (w : Worker) : ReasoningProducer where
  providerSlug := w.client.providerSlug
  model := w.model

/-- Sends the current state of a turn to the subscribers. -/
def turnAppended (session : SessionState) (turnId : ℕ) : List SessionCommand :=
  match session.turns[turnId]? with
  | some turn => [.broadcast (.turnAppended turnId (turnForClient turn))]
  | none => []

/-- The prologue of the agent loop: the response id to continue, and the skills of the working
directory if they are not known. -/
def enterLoop (catalog : Catalog) (skills : List SkillMeta) (w : Worker) : Worker :=
  { w with
    prevRespId := initialPrevRespId catalog w.session w.client.providerSlug w.model
    session := { w.session with
      discoveredSkills :=
        if w.session.discoveredSkills.isNone && w.session.config.workingDir.isSome then
          some skills
        else w.session.discoveredSkills }
    pc := .top }

variable (outcome : RequestOutcome)

/-- Ends the agent loop; the snapshot to hand back is the worker's session. -/
def leaveLoop (w : Worker) : Worker :=
  { w with pc := .returned outcome w.session.snapshot }

/-- Starts the turn of an iteration and announces the model call. Building the request may replace
the context cache. -/
def startCall (now : ℤ) (cache : Option (ℕ × String)) (estimatedPromptTokens : ℕ) (w : Worker) :
    Worker :=
  let started := w.session.startTurn now (if w.turnIter = 0 then w.userText else none)
  let session := { started.2 with contextCache := cache }
  { w with
    session := session
    pc := .calling started.1
    outbox := turnAppended session started.1 ++
      [.statusChanged .inference,
        .broadcast (.started w.requestId started.1 estimatedPromptTokens)] }

/-- Records the running totals after a model call and sends them to the session thread. -/
def recordUsage (usage : Option TokenUsage) (w : Worker) : Worker :=
  let session := accumulateTokenUsage w.session usage
  { w with
    session := session
    outbox := [.syncAccumulatedUsage session.config.accumulatedUsage
      session.config.lastPromptTokens] }

def recordResponseId (responseId : Option String) (w : Worker) : Worker :=
  { w with
    session := { w.session with
      config := { w.session.config with
        lastResponseId := responseId
        lastResponseIdProducer := some w.producer } } }

/-- What a final answer records on its turn. -/
def finalTextResponse (result : FinalTextResult) (w : Worker) : AssistantResponse where
  text := some result.content
  reasoning := result.reasoning
  tokenUsage := result.usage
  reasoningArtifact := result.reasoningArtifact
  reasoningProducer := some w.producer

/-- A final answer: recorded on the turn, which is then written. -/
def onFinalText (turnId : ℕ) (result : FinalTextResult) (w : Worker) : Worker :=
  let w := w.recordUsage result.usage
  let w := { w with
    session := w.session.setAssistantResponse turnId (w.finalTextResponse result)
    pc := .finalizing turnId .done }
  w.recordResponseId result.responseId

/-- What a tool request records on its turn. -/
def toolUseResponse (result : ChatAssistantToolUse) (w : Worker) : AssistantResponse where
  text := result.content
  reasoning := result.reasoning
  toolCalls := result.toolCalls.map ChatToolCall.toRecord
  tokenUsage := result.usage
  reasoningArtifact := result.reasoningArtifact
  reasoningProducer := some w.producer

/-- The tool phases of a tool request, once it is recorded on the turn. -/
def beginTools (setup : AgentSetup) (turnId : ℕ) (result : ChatAssistantToolUse) (w : Worker) :
    ToolRun :=
  ToolRun.begin setup.tools (w.session.setAssistantResponse turnId (w.toolUseResponse result))
    w.requestId turnId result.toolCalls

def onToolUse (setup : AgentSetup) (turnId : ℕ) (result : ChatAssistantToolUse) (w : Worker) :
    Worker :=
  let w := w.recordUsage result.usage
  let r := w.beginTools setup turnId result
  let w := { w with
    session := r.session
    prevRespId := result.responseId
    toolResults := []
    pc := .tools r.phase
    outbox := w.outbox ++ r.outbox }
  w.recordResponseId result.responseId

/-- The outcome of a model call. A cancel that the provider's client notices is consumed. -/
def onReply (setup : AgentSetup) (cancelPending : Bool) (turnId : ℕ) (reply : ModelReply)
    (w : Worker) : Option Worker :=
  match reply with
  | .finalText result => some (w.onFinalText turnId result)
  | .toolUse result => some (w.onToolUse setup turnId result)
  | .cancelled =>
    if cancelPending then
      some (({ w with cancelsRead := w.cancelsRead + 1 } : Worker).leaveLoop .cancelled)
    else none
  | .truncatedToolCall error =>
    some { w with
      session := w.session.setAssistantResponse turnId
        { text := some ("[tool call truncated: " ++ error ++ "]") }
      pc := .finalizing turnId .done }
  | .failed error =>
    some { w with
      session := w.session.setTurnError turnId error
      pc := .finalizing turnId (.failed error) }

/-- The message of a turn that could not be written. -/
def persistError (turnId : ℕ) (error : String) : String :=
  s!"failed to persist turn {turnId}: {error}"

/-- Writes the last turn of the request and announces it. A failed write fails the request, unless
it failed already. -/
def finalize (writeError : Option String) (turnId : ℕ) (outcome : RequestOutcome) (w : Worker)
    (store : Store) : Worker × Store :=
  match w.session.turns[turnId]?, writeError with
  | some turn, none =>
    ({ w with
      pc := .persisted turnId outcome
      outbox := turnAppended w.session turnId },
      store.writeTurn turnId turn)
  | some _, some error =>
    match outcome with
    | .failed _ => (w.leaveLoop outcome, store)
    | _ => (w.leaveLoop (.failed (persistError turnId error)), store)
  | none, _ => (w.leaveLoop outcome, store)

/-- The announcement of the outcome; a cancelled request was announced by the session thread. -/
def outcomeCommands (w : Worker) : List SessionCommand :=
  match outcome with
  | .done =>
    [.broadcast (.done w.requestId (some w.session.config.accumulatedUsage)
      w.session.config.lastPromptTokens)]
  | .failed error => [.broadcast (.failed w.requestId error)]
  | .cancelled => []

def childResult (w : Worker) : ChildResult :=
  match outcome with
  | .done =>
    { output := "\n".intercalate (w.session.turns.values.filterMap Turn.assistantText)
      isError := false }
  | .failed error => { output := error, isError := true }
  | .cancelled => { output := "request cancelled", isError := true }

end Worker

inductive WorkerLabel
  | flush
  | enterLoop (catalog : Catalog) (skills : List SkillMeta)
  | startCall (now : ℤ) (cache : Option (ℕ × String)) (estimatedPromptTokens : ℕ)
  | reply (reply : ModelReply)
  | tool (label : ToolLabel)
  | leaveTools
  | finalize (writeError : Option String)
  | leaveLoop
  | conclude
  | finish
  | panic

/-- What a step of a worker does: the worker after it (none when its thread is over), the store, a
command it sends to the session thread, and a reply to a parent session. -/
structure WorkerEffect where
  worker : Option Worker
  store : Store
  command : Option SessionCommand := none
  output : Option Output := none

namespace Worker

/-- A step that only changes the worker. -/
def goOn (store : Store) (w : Worker) : Option WorkerEffect :=
  some { worker := some w, store := store }

/-- Whether the worker is inside the agent loop, where a panic is caught. -/
def inAgentLoop (w : Worker) : Bool :=
  match w.pc with
  | .returned _ _ | .concluding _ _ => false
  | _ => true

variable (setup : AgentSetup)

/-- The head of the agent loop: the bound on iterations, then a pending cancel, then the next model
call. -/
def atTop (cancelPending : Bool) (now : ℤ) (cache : Option (ℕ × String))
    (estimatedPromptTokens : ℕ) (w : Worker) : Worker :=
  if 0 < setup.maxTurns ∧ setup.maxTurns ≤ w.turnIter then
    w.leaveLoop (.failed s!"tool loop exceeded {setup.maxTurns} iterations")
  else if cancelPending then
    ({ w with cancelsRead := w.cancelsRead + 1 } : Worker).leaveLoop .cancelled
  else w.startCall now cache estimatedPromptTokens

def onTool (cancelPending : Bool) (label : ToolLabel) (phase : ToolPhase)
    (w : Worker) : Option Worker :=
  (ToolRun.step setup.tools cancelPending label { session := w.session, phase := phase }).map
    fun result =>
      { w with
        session := result.1.session
        pc := .tools result.1.phase
        outbox := result.1.outbox
        cancelsRead := w.cancelsRead + (if result.2 then 1 else 0) }

/-- The end of the tool phases: a cancelled request returns, any other goes on with the next model
call. -/
def onLeaveTools (phase : ToolPhase) (w : Worker) : Option Worker :=
  if phase.stage = .finished then
    if phase.cancelled then some (w.leaveLoop .cancelled)
    else
      some { w with
        toolResults := phase.toolResults
        turnIter := w.turnIter + 1
        pc := .top }
  else none

/-- A step of a worker that has nothing left to send. -/
def act (cancelPending : Bool) (label : WorkerLabel) (store : Store)
    (w : Worker) : Option WorkerEffect :=
  match label, w.pc with
  | .enterLoop catalog skills, .start => (w.enterLoop catalog skills).goOn store
  | .startCall now cache estimatedPromptTokens, .top =>
    (w.atTop setup cancelPending now cache estimatedPromptTokens).goOn store
  | .reply reply, .calling turnId =>
    (w.onReply setup cancelPending turnId reply).bind (goOn store)
  | .tool label, .tools phase => (w.onTool setup cancelPending label phase).bind (goOn store)
  | .leaveTools, .tools phase => (w.onLeaveTools phase).bind (goOn store)
  | .finalize writeError, .finalizing turnId outcome =>
    (w.finalize writeError turnId outcome store).1.goOn
      (w.finalize writeError turnId outcome store).2
  | .leaveLoop, .persisted _ outcome => (w.leaveLoop outcome).goOn store
  | .conclude, .returned outcome snapshot =>
    ({ w with
      pc := .concluding outcome snapshot
      outbox := w.outcomeCommands outcome } : Worker).goOn store
  | .finish, .concluding outcome snapshot =>
    some
      { worker := none
        store := store
        command := some (.requestFinished w.requestId snapshot)
        output := w.childReply.map fun reply => .child reply (.ok (w.childResult outcome)) }
  | _, _ => none

/-- One step of a worker. The flag `cancelPending` says whether the cancel channel of the request
holds a message that the worker has not read. A worker that has commands to send sends them first,
unless it panics. -/
def step (cancelPending : Bool) (label : WorkerLabel) (store : Store)
    (w : Worker) : Option WorkerEffect :=
  match label with
  | .flush =>
    match w.outbox with
    | [] => none
    | command :: outbox =>
      some { worker := some { w with outbox := outbox }, store := store, command := some command }
  | .panic =>
    if w.inAgentLoop then
      ({ w with
        pc := .returned (.failed "request worker panicked") w.initialSnapshot
        outbox := [] } : Worker).goOn store
    else none
  | label => if w.outbox.isEmpty then w.act setup cancelPending label store else none

end Worker

end Choreo
