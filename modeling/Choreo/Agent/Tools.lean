import Choreo.Session.Handlers

/-!
# The tool phases of the agent loop

What happens between a model response that asks for tools and the next model call
(`run_agent_loop` of `choreo-daemon/src/requests.rs` from the tool use branch on, and
`choreo-daemon/src/requests/tool_execution.rs`). The calls that change the session's configuration
run one after the other; the others run at once, each on an execution thread with a wait loop that
delivers one handle to the collector, in any order. A cancel stops the serial phase, or kills the
wait loops, after which the collector waits for the remaining handles. Handles and recorded
results are matched by call id.

The threads are interleaved by labels: an execution thread sends its result or dies, a wait loop
wakes up or dies, and the agent loop starts and records serial calls, collects handles, notices a
cancel, and ends the batch.

## Main definitions

* `ToolPhase`: the state of the tool phases.
* `ToolRun.begin`: seeding the placeholders.
* `ToolRun.recordToolCompletion`: recording one result.
* `ToolRun.step`: one step of a thread.
-/

namespace Choreo

/-- A tool call of a model response. -/
structure ChatToolCall where
  id : String
  name : String
  argumentsJson : String
  caller : Option String := none
deriving DecidableEq, Repr

/-- A tool result for the provider's next call. -/
structure ToolResultItem where
  callId : String
  output : String
  caller : Option String
deriving DecidableEq, Repr

/-- An image that a tool emitted for display. -/
structure PreparedImage where
  mimeType : String
  data : Bytes
  width : ℕ
  height : ℕ
  alt : Option String
deriving DecidableEq, Repr

/-- The result that an execution thread sends: the tool's output, or its error. -/
inductive ExecMessage
  | ok (output : ToolOutput)
  | error (message : String)
deriving DecidableEq, Repr

/-- The execution thread of a call: its result stays visible once it is sent. -/
inductive ExecState
  | idle
  | running
  | sent (message : ExecMessage)
  | died
deriving DecidableEq, Repr

/-- The wait loop of a concurrent call. -/
inductive WaitState
  | idle
  | waiting
  | delivered
  | died
deriving DecidableEq, Repr

/-- A call with its threads. -/
structure CallCell where
  call : ChatToolCall
  exec : ExecState := .idle
  wait : WaitState := .idle
deriving DecidableEq, Repr

/-- The outcome of a concurrent call on its way to the collector. -/
structure ToolHandle where
  toolCall : ChatToolCall
  output : ToolOutput
  image : Option PreparedImage
deriving DecidableEq, Repr

/-- What ended the wait for a tool: its result channel, a cancel or kill, or the deadline. -/
inductive WaitCause
  | result
  | stop
  | deadline
deriving DecidableEq, Repr

/-- A session change made by a tool, to be repeated on the worker's copy. -/
inductive PendingConfigChange
  | loadTools (groups : List String)
  | unloadTools (groups : List String)
  | setWorkingDir (path : Option PathBuf)
deriving DecidableEq, Repr

/-- The fixed helpers of the tool phases: the description of a call, the text that enters the
transcript (sanitised and cut to its budget), the time limit of a call in seconds, and the
rendering of a list. -/
structure ToolEnv where
  describeInvocation : ChatToolCall → String
  recordText : String → String
  determineToolTimeout : ChatToolCall → Option ℕ
  renderList : List String → String

/-- What recording a result reads from arguments and files: the skill name and body, the groups of
a group change, and the path of a directory change without a result. -/
structure ToolFiles where
  skillName : String → Option String
  loadSkillBody : String → PathBuf → Option String
  parseGroups : String → Option (List String)
  resolveWorkingDir : String → Option PathBuf → Option PathBuf

/-- How far the collector of the concurrent calls is: waiting for handles, emptying the queue after
a cancel, or waiting for the handles that are still missing after a cancel. -/
inductive CollectMode
  | waiting
  | emptying
  | draining
deriving DecidableEq, Repr

/-- The stage of the tool phases: at the head of the serial loop, waiting for a serial call,
collecting the concurrent calls, or over. Calls are named by their position in the response. -/
inductive ToolStage
  | serial (remaining : List ℕ)
  | serialRunning (index : ℕ) (remaining : List ℕ)
  | collecting (mode : CollectMode)
  | finished
deriving DecidableEq, Repr

/-- The state of the tool phases of one model response. -/
structure ToolPhase where
  requestId : ℕ
  turnId : ℕ
  cells : List CallCell
  descriptionByCall : Std.ExtTreeMap String String
  baseWorkingDir : Option PathBuf
  stage : ToolStage
  queue : List ToolHandle := []
  delivered : Std.ExtTreeSet String := ∅
  executed : Std.ExtTreeSet String := ∅
  pendingConfigChanges : List PendingConfigChange := []
  toolResults : List ToolResultItem := []
  cancelled : Bool := false
  killed : Bool := false
deriving DecidableEq

/-- The tool phases together with the worker's session and the commands sent by the last step. -/
structure ToolRun where
  session : SessionState
  phase : ToolPhase
  outbox : List SessionCommand := []

/-- Whether a call changes the session's configuration and therefore runs serially. -/
def isSessionConfigTool (name : String) : Bool :=
  name = "load_tools" || name = "unload_tools" || name = "set_working_dir"

/-- The status shown while a batch of concurrent calls runs. -/
def concurrentToolStatusLabel : List ChatToolCall → String
  | [call] => call.name
  | _ => "(parallel)"

variable (call : ChatToolCall)

def ChatToolCall.toRecord : AssistantToolCallRecord where
  callId := call.id
  name := call.name
  argumentsJson := call.argumentsJson

/-- An output that reports a failure of the call. -/
def failedOutput (content description : String) : ToolOutput :=
  { content := content, isError := true, invocationDescription := description }

def toolResultFromChannel (description : String) : Option ExecMessage → ToolOutput
  | some (.ok output) => output
  | some (.error message) => failedOutput message description
  | none => failedOutput "tool execution thread panicked" description

/-- The output after a stop signal: a result that is there already is taken, a dead execution
thread is reported as such, and otherwise the stop message stands in. -/
def drainQueuedOrSynthesize (description stopMessage : String) : ExecState → ToolOutput
  | .sent message => toolResultFromChannel description (some message)
  | .died => toolResultFromChannel description none
  | .idle | .running => failedOutput stopMessage description

def cancelledMessage : String := "tool '" ++ call.name ++ "' cancelled"

def timedOutMessage (seconds : ℕ) : String :=
  "tool '" ++ call.name ++ "' timed out after " ++ toString seconds ++ "s"

/-- The handle of a call whose wait loop died before delivering. -/
def panicToolHandle (description : String) : ToolHandle where
  toolCall := { call with caller := none }
  output := failedOutput "tool thread panicked" description
  image := none

/-- The change of the session that a successful serial call made. -/
def pendingConfigChange (files : ToolFiles) (call : ChatToolCall) (output : ToolOutput)
    (baseWorkingDir : Option PathBuf) : Option PendingConfigChange :=
  if call.name = "load_tools" then
    (files.parseGroups call.argumentsJson).map .loadTools
  else if call.name = "unload_tools" then
    (files.parseGroups call.argumentsJson).map .unloadTools
  else if call.name = "set_working_dir" then
    match output.resultPath with
    | some path => some (.setWorkingDir (some (.utf8 path)))
    | none => some (.setWorkingDir (files.resolveWorkingDir call.argumentsJson baseWorkingDir))
  else none

/-- Repeats a session change on the worker's copy. -/
def applyPendingConfigChange (env : ToolEnv) (session : SessionState)
    (change : PendingConfigChange) : SessionState :=
  let config := session.config
  match change with
  | .loadTools groups =>
    { session with config := { config with
        activeToolGroups := (applyLoadTools env.renderList config.activeToolGroups groups).1 } }
  | .unloadTools groups =>
    { session with config := { config with
        activeToolGroups := (applyUnloadTools env.renderList config.activeToolGroups groups).1 } }
  | .setWorkingDir path =>
    { session with
      config := { config with workingDir := path.or config.workingDir }
      discoveredSkills := none }

def persistLoadedSkill (files : ToolFiles) (session : SessionState) (call : ChatToolCall) :
    SessionState :=
  if call.name ≠ "load_skill" then session
  else
    match files.skillName call.argumentsJson, session.config.workingDir with
    | some name, some workingDir =>
      if session.loadedSkillBodies.any fun skill => skill.name = name then session
      else
        match files.loadSkillBody name workingDir with
        | some body =>
          { session with
            loadedSkillBodies := session.loadedSkillBodies ++ [{ name := name, body := body }] }
        | none => session
    | _, _ => session

/-- Sorts items by the position of their call; items without a call go to the end, and equal
positions keep their order. When a call id is repeated, its last position counts. -/
def sortByCallOrder (toolCalls : List AssistantToolCallRecord) (items : List ToolResultItem) :
    List ToolResultItem :=
  let key (item : ToolResultItem) : ℕ :=
    (((toolCalls.map AssistantToolCallRecord.callId).zipIdx.reverse.lookup item.callId).getD
      toolCalls.length)
  items.insertionSort fun a b => key a ≤ key b

namespace ToolPhase

variable (phase : ToolPhase)

/-- The calls of the response, in order. -/
def calls : List ChatToolCall := phase.cells.map CallCell.call

def describe (call : ChatToolCall) : String :=
  phase.descriptionByCall[call.id]?.getD ""

def concurrent : List ℕ :=
  (phase.cells.zipIdx.filter fun p => !isSessionConfigTool p.1.call.name).map Prod.snd

/-- Changes the threads of one call. -/
def modifyCell (i : ℕ) (f : CallCell → CallCell) : ToolPhase :=
  { phase with cells := phase.cells.modify i f }

/-- Whether all wait loops are over, so that the collector's channel is closed. -/
def disconnected : Bool :=
  phase.cells.all fun cell => cell.wait ≠ .waiting

end ToolPhase

namespace ToolRun

def send (r : ToolRun) (command : SessionCommand) : ToolRun :=
  { r with outbox := r.outbox ++ [command] }

/-- Sends the current state of the turn to the subscribers. -/
def broadcastTurnAppended (r : ToolRun) : ToolRun :=
  match r.session.turns[r.phase.turnId]? with
  | some turn => r.send (.broadcast (.turnAppended r.phase.turnId (turnForClient turn)))
  | none => r

variable (env : ToolEnv)

/-- The start of the tool phases: the placeholders are seeded in call order and the serial calls
are lined up. The response itself is already recorded on the turn. -/
def begin (session : SessionState) (requestId turnId : ℕ)
    (toolCalls : List ChatToolCall) : ToolRun :=
  let descriptionByCall : Std.ExtTreeMap String String :=
    toolCalls.foldl (fun m call => m.insert call.id (env.describeInvocation call)) ∅
  let records := toolCalls.map ChatToolCall.toRecord
  let descriptions := records.map fun record => descriptionByCall[record.callId]?.getD ""
  broadcastTurnAppended
    { session := session.seedToolResults turnId records descriptions
      phase :=
        { requestId := requestId
          turnId := turnId
          cells := toolCalls.map fun call => { call := call }
          descriptionByCall := descriptionByCall
          baseWorkingDir := session.config.workingDir
          stage := .serial
            ((toolCalls.zipIdx.filter fun p => isSessionConfigTool p.1.name).map Prod.snd) } }

def announceStart (call : ChatToolCall) (r : ToolRun) : ToolRun :=
  r.send (.broadcast (.toolCallStarted r.phase.requestId call.id call.name call.argumentsJson
    (r.phase.describe call)))

/-- Shows an image that a tool emitted. -/
def emitImage (image : PreparedImage) (callId : String) (r : ToolRun) : ToolRun :=
  ({ r with
    session := r.session.addDisplayedImage r.phase.turnId
      { metadata :=
          { mimeType := image.mimeType
            width := image.width
            height := image.height
            byteLen := image.data.length
            alt := image.alt }
        data := image.data
        toolCallId := some callId } } : ToolRun).broadcastTurnAppended

/-- Fills the placeholder with the call's id and announces the outcome. -/
def finishToolCall (call : ChatToolCall) (output : ToolOutput) (r : ToolRun) : ToolRun :=
  (({ r with
    session := r.session.updateToolResult r.phase.turnId call.id call.name output } :
    ToolRun).broadcastTurnAppended).send (.broadcast
      (if output.isError then
        .toolCallFailed r.phase.requestId call.id call.name output.content
      else .toolCallFinished r.phase.requestId call.id call.name))

/-- Keeps the output for the next model call, and the skill that the call loaded. -/
def collectToolResult (files : ToolFiles) (call : ChatToolCall) (output : ToolOutput)
    (r : ToolRun) : ToolRun :=
  { r with
    session := persistLoadedSkill files r.session call
    phase := { r.phase with
      toolResults := r.phase.toolResults ++
        [{ callId := call.id, output := output.content, caller := call.caller }] } }

/-- The output as it enters the transcript. -/
def recordedOutput (output : ToolOutput) : ToolOutput :=
  { output with content := env.recordText output.content }

/-- Records a result: its image is shown, its placeholder is filled, it is kept for the next model
call, and the call counts as executed. -/
def recordToolCompletion (files : ToolFiles) (handle : ToolHandle) (r : ToolRun) :
    ToolRun :=
  let call := handle.toolCall
  let output := recordedOutput env handle.output
  let r :=
    match handle.image with
    | none => r
    | some image => r.emitImage image call.id
  let r := (r.finishToolCall call output).collectToolResult files call output
  { r with phase := { r.phase with executed := r.phase.executed.insert call.id } }

/-- The end of the tool phases: the session changes are repeated on the worker's copy, and a
cancelled request marks the results that were never recorded. -/
def finish (r : ToolRun) : ToolRun :=
  let session := r.phase.pendingConfigChanges.foldl (applyPendingConfigChange env) r.session
  let r := { r with session := session, phase := { r.phase with stage := .finished } }
  if r.phase.cancelled then
    ({ r with
      session := r.session.markUnexecutedToolResults r.phase.turnId r.phase.executed } :
      ToolRun).broadcastTurnAppended
  else r

def startConcurrent (r : ToolRun) : ToolRun :=
  let indices := r.phase.concurrent
  let calls := r.phase.calls.filter fun call => !isSessionConfigTool call.name
  let r := calls.foldl (fun r call => r.announceStart call) r
  let r := r.send (.statusChanged (.toolCall (concurrentToolStatusLabel calls)))
  { r with
    phase := { r.phase with
      cells := r.phase.cells.zipIdx.map fun p =>
        if p.2 ∈ indices then { p.1 with exec := .running, wait := .waiting } else p.1
      stage := .collecting .waiting } }

/-- The head of the serial loop. A pending cancel is consumed and ends the tool phases; otherwise
the next serial call starts, and after the last one the concurrent calls do. The flag says whether
a cancel was consumed. -/
def serialNext (cancelPending : Bool) (r : ToolRun) : List ℕ → ToolRun × Bool
  | [] =>
    if r.phase.concurrent = [] then (r.finish env, false) else (r.startConcurrent, false)
  | i :: rest =>
    if cancelPending then
      (({ r with phase := { r.phase with cancelled := true } } : ToolRun).finish env, true)
    else
      match r.phase.cells[i]? with
      | none => (r, false)
      | some cell =>
        let r := r.announceStart cell.call
        let r := r.send (.statusChanged (.toolCall cell.call.name))
        ({ r with
          phase := { r.phase.modifyCell i (fun cell => { cell with exec := .running }) with
            stage := .serialRunning i rest } }, false)

def serialOutcome (cancelPending : Bool) (cause : WaitCause) (cell : CallCell)
    (description : String) : Option (ToolOutput × Bool) :=
  match cause, cell.exec with
  | .result, .sent message => some (toolResultFromChannel description (some message), false)
  | .result, .died => some (toolResultFromChannel description none, false)
  | .result, _ => none
  | .stop, exec =>
    if cancelPending then
      some (drainQueuedOrSynthesize description (cancelledMessage cell.call) exec, true)
    else none
  | .deadline, exec =>
    some (drainQueuedOrSynthesize description
      (timedOutMessage cell.call ((env.determineToolTimeout cell.call).getD 60)) exec, false)

/-- Records the outcome of a serial call and goes on with the rest, or ends the tool phases when the
wait consumed a cancel. -/
def serialRecord (files : ToolFiles) (rest : List ℕ) (call : ChatToolCall)
    (output : ToolOutput) (isCancelled : Bool) (image : Option PreparedImage) (r : ToolRun) :
    ToolRun :=
  let r := r.recordToolCompletion env files
    { toolCall := call, output := output, image := image }
  let changes :=
    if output.isError then []
    else (pendingConfigChange files call output r.phase.baseWorkingDir).toList
  let r := { r with
    phase := { r.phase with
      pendingConfigChanges := r.phase.pendingConfigChanges ++ changes
      cancelled := r.phase.cancelled || isCancelled
      stage := .serial rest } }
  if isCancelled then r.finish env else r

/-- The outcome of a wait loop. A kill only reaches it after the collector noticed a cancel, and
only calls with a time limit have a deadline. -/
def waitOutcome (phase : ToolPhase) (cause : WaitCause) (cell : CallCell) :
    Option ToolOutput :=
  let description := phase.describe cell.call
  match cause, cell.exec with
  | .result, .sent message => some (toolResultFromChannel description (some message))
  | .result, .died => some (toolResultFromChannel description none)
  | .result, _ => none
  | .stop, _ =>
    if phase.killed then some (failedOutput (cancelledMessage cell.call) description) else none
  | .deadline, exec =>
    (env.determineToolTimeout cell.call).map fun seconds =>
      drainQueuedOrSynthesize description (timedOutMessage cell.call seconds) exec

/-- Takes the next handle from the queue. -/
def collect (files : ToolFiles) (r : ToolRun) : Option ToolRun :=
  match r.phase.queue with
  | [] => none
  | handle :: queue =>
    some
      (({ r with
        phase := { r.phase with
          queue := queue
          delivered := r.phase.delivered.insert handle.toolCall.id } } :
        ToolRun).recordToolCompletion env files handle)

/-- Synthesizes the results of the calls that were never delivered, in call order. -/
def synthesizeMissing (files : ToolFiles) (r : ToolRun) : ToolRun :=
  let missing := (r.phase.calls.filter fun call => !isSessionConfigTool call.name).filter
    fun call => !r.phase.delivered.contains call.id
  missing.foldl
    (fun r call => r.recordToolCompletion env files (panicToolHandle call (r.phase.describe call)))
    r

/-- The end of the concurrent phase: the results for the next model call are put in call order. -/
def endBatch (r : ToolRun) : ToolRun :=
  ({ r with
    phase := { r.phase with
      toolResults := sortByCallOrder (r.phase.calls.map ChatToolCall.toRecord)
        r.phase.toolResults } } : ToolRun).finish env

/-- Whether every concurrent call has delivered, as the collector counts it. -/
def batchComplete (r : ToolRun) : Bool :=
  r.phase.concurrent.length ≤ r.phase.delivered.size

end ToolRun

/-- The steps of the threads of the tool phases. -/
inductive ToolLabel
  | exec (i : ℕ) (message : ExecMessage)
  | execDie (i : ℕ)
  | wake (i : ℕ) (cause : WaitCause) (image : Option PreparedImage)
  | waitDie (i : ℕ)
  | serialNext
  | serialWake (cause : WaitCause) (image : Option PreparedImage) (files : ToolFiles)
  | collect (files : ToolFiles)
  | collectCancel
  | endEmptying
  | endBatch (files : ToolFiles)

namespace ToolRun

/-- One step of a thread of the tool phases. The flag `cancelPending` says whether the request's
cancel channel holds a message; the flag of the result says whether the step consumed one. -/
def step (env : ToolEnv) (cancelPending : Bool) (label : ToolLabel) (r : ToolRun) :
    Option (ToolRun × Bool) :=
  match label with
  | .exec i message =>
    match r.phase.cells[i]? with
    | some { exec := .running, .. } =>
      some ({ r with phase := r.phase.modifyCell i fun cell =>
        { cell with exec := .sent message } }, false)
    | _ => none
  | .execDie i =>
    match r.phase.cells[i]? with
    | some { exec := .running, .. } =>
      some ({ r with phase := r.phase.modifyCell i fun cell =>
        { cell with exec := .died } }, false)
    | _ => none
  | .wake i cause image =>
    match r.phase.cells[i]? with
    | some cell =>
      if cell.wait = .waiting then
        (waitOutcome env r.phase cause cell).map fun output =>
          let phase := r.phase.modifyCell i fun cell => { cell with wait := .delivered }
          ({ r with
            phase := { phase with
              queue := phase.queue ++
                [{ toolCall := cell.call, output := output, image := image }] } }, false)
      else none
    | none => none
  | .waitDie i =>
    match r.phase.cells[i]? with
    | some { wait := .waiting, .. } =>
      some ({ r with phase := r.phase.modifyCell i fun cell =>
        { cell with wait := .died } }, false)
    | _ => none
  | .serialNext =>
    match r.phase.stage with
    | .serial remaining => some (r.serialNext env cancelPending remaining)
    | _ => none
  | .serialWake cause image files =>
    match r.phase.stage with
    | .serialRunning i rest =>
      match r.phase.cells[i]? with
      | some cell =>
        (serialOutcome env cancelPending cause cell (r.phase.describe cell.call)).map
          fun outcome =>
            (r.serialRecord env files rest cell.call outcome.1 outcome.2 image, outcome.2)
      | none => none
    | _ => none
  | .collect files =>
    match r.phase.stage with
    | .collecting .emptying => (r.collect env files).map fun r => (r, false)
    | .collecting _ =>
      if r.batchComplete then none else (r.collect env files).map fun r => (r, false)
    | _ => none
  | .collectCancel =>
    match r.phase.stage with
    | .collecting .waiting =>
      if r.batchComplete then none
      else if cancelPending then
        some ({ r with
          phase := { r.phase with
            cancelled := true
            killed := true
            stage := .collecting .emptying } }, true)
      else none
    | _ => none
  | .endEmptying =>
    match r.phase.stage, r.phase.queue with
    | .collecting .emptying, [] =>
      some ({ r with phase := { r.phase with stage := .collecting .draining } }, false)
    | _, _ => none
  | .endBatch files =>
    match r.phase.stage with
    | .collecting .emptying => none
    | .collecting _ =>
      if r.batchComplete then some (r.endBatch env, false)
      else if r.phase.queue = [] ∧ r.phase.disconnected then
        some ((r.synthesizeMissing env files).endBatch env, false)
      else none
    | _ => none

end ToolRun

end Choreo
