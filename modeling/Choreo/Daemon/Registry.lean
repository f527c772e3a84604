import Choreo.Daemon.Host

/-!
# The registry of sessions

The daemon's command loop keeps an index of all sessions, the channels of the running ones, the
marks of the deleted ones and the sub-sessions of each (`choreo-daemon/src/daemon.rs`). Session
threads, background deletions and tool threads run beside it and reach it only through its command
channel and through the database. The whole process can die at any moment; the start that follows
first sweeps the deletion tombstones (`choreo-daemon/src/cli.rs`).

## Main definitions

* `RegistryCommand`: the daemon commands that concern sessions.
* `Slot`: what belongs to one session id, its thread and its rows.
* `Registry`, `Registry.step`: the daemon's registry with all sessions, and its steps.
* `Registry.startUp`: the start of the daemon on a database.
-/

namespace Choreo

/-- A record as the daemon's index keeps it. -/
def SessionRecord.toMetadata (record : SessionRecord) : SessionMetadata where
  title := record.title
  selectedModel := record.selectedModel
  reasoningEffort := record.reasoningEffort
  parentSessionId := record.parentSessionId
  workingDir := record.workingDir
  createdAt := record.createdAt
  lastModified := record.lastModified
  turnCount := record.turnCount
  status := .sleeping
  activeToolGroups := (Std.ExtTreeSet.ofList record.activeToolGroups).toList
  accountName := record.accountName
  accumulatedUsage := {}
  contextWindow := none
  lastPromptTokens := none

def NewSession.metadata (contextWindow : Option UInt32) (now : ℤ) (session : NewSession) :
    SessionMetadata :=
  { (session.record now).toMetadata with
    activeToolGroups := (session.record now).activeToolGroups
    status := .inactive
    contextWindow := contextWindow }

/-- The daemon commands that concern sessions: four that clients and tools send, three of session
threads, and the report of a background deletion. -/
inductive RegistryCommand
  | createSession (session : NewSession)
  | attachSession (sessionId clientId : ℕ)
  | cancelRequest (sessionId requestId : ℕ)
  | deleteSession (sessionId : ℕ)
  | updateMetadata (sessionId : ℕ) (metadata : SessionMetadata)
  | broadcastSessionStatus (sessionId : ℕ) (status : SessionStatus)
  | sessionExited (sessionId : ℕ)
  | sessionDeleteFinalized (sessionId : ℕ)

/-- Whether a command comes from a client or a tool. -/
def RegistryCommand.isRequest : RegistryCommand → Bool
  | .createSession _ | .attachSession .. | .cancelRequest .. | .deleteSession _ => true
  | _ => false

/-- What the daemon announces to the clients. -/
inductive Announcement
  | sessionCreated (sessionId : ℕ)
  | sessionStatusChanged (sessionId : ℕ) (status : SessionStatus)
  | sessionDeleted (sessionId : ℕ)
deriving DecidableEq

def Output.toRegistry (sessionId : ℕ) : Output → Option RegistryCommand
  | .updateMetadata metadata => some (.updateMetadata sessionId metadata)
  | .broadcastSessionStatus status => some (.broadcastSessionStatus sessionId status)
  | .sessionExited => some (.sessionExited sessionId)
  | _ => none

/-- The commands that a session thread sent between two of its states, oldest first. -/
def System.sentBetween (sessionId : ℕ) (s s' : System) : List RegistryCommand :=
  (s'.loop.log.take (s'.loop.log.length - s.loop.log.length)).reverse.filterMap
    (Output.toRegistry sessionId)

/-- What belongs to one session id: the thread with its rows, the number of the thread's channel,
what the thread still has to start from, and the rows of the key-value table. -/
structure Slot where
  system : System := System.init {}
  channel : ℕ := 0
  starting : Option (BootEnv × SessionRecord) := none
  kv : Std.ExtTreeMap String Bytes := ∅

namespace Slot

/-- The record, the turns and the attachments. -/
def store (s : Slot) : Store := s.system.loop.store

/-- Sends a command into a channel. It is lost when the thread of that channel is over. -/
def deliver (channel : ℕ) (command : SessionCommand) (s : Slot) : Slot :=
  if s.system.live && s.channel == channel then
    { s with system := { s.system with queue := s.system.queue ++ [command] } }
  else s

/-- Replaces the record, the turns and the attachments. -/
def setStore (store : Store) (s : Slot) : Slot :=
  { s with system := { s.system with loop := { s.system.loop with store := store } } }

/-- Removes all rows of the session, as one transaction. -/
def deleteRows (s : Slot) : Slot := { s.setStore {} with kv := ∅ }

/-- Starts a thread on a new channel; it reads its turns when it runs. -/
def spawn (boot : BootEnv) (record : SessionRecord) (s : Slot) : Slot :=
  { s with
    system :=
      { live := true
        loop := { state := {}, store := s.store, log := s.system.loop.log } }
    channel := s.channel + 1
    starting := some (boot, record) }

/-- The start of the thread: it loads its turns and reports its metadata. -/
def start (s : Slot) : Option Slot :=
  s.starting.map fun (boot, record) =>
    { s with
      system := { s.system with
        loop := Loop.sessionMain boot record s.store s.system.loop.log }
      starting := none }

/-- The slot after the process died. -/
def crash (s : Slot) : Slot :=
  { system := { System.init s.store with
      loop := { state := {}, store := s.store, log := s.system.loop.log } }
    channel := s.channel
    kv := s.kv }

end Slot

/-- How far a background deletion is: it deletes the rows, then clears the tombstone, then reports. -/
inductive FinalizePhase
  | deleteSession
  | clearTombstone
  | report
deriving DecidableEq, Repr

/-- The surroundings of one daemon command: the start of a session thread, the clock, the context
window that the catalog has for a new session, the outcome of database reads and writes, and for
which threads that are over the join handle says so already. -/
structure RegistryEnv where
  boot : BootEnv
  now : ℤ
  contextWindow : Option UInt32
  readOk : Bool
  writeOk : Bool
  deleteOk : ℕ → Bool
  tombstoneOk : ℕ → Bool
  clearOk : ℕ → Bool
  isFinished : ℕ → Bool

/-- The surroundings of a start of the daemon: whether the tombstones and the sessions can be read,
and the outcome of the sweep for each tombstone. -/
structure StartEnv where
  tombstonesOk : Bool
  deleteOk : ℕ → Bool
  clearOk : ℕ → Bool
  sessionsOk : Bool

def StartEnv.sweeps (env : StartEnv) (sessionId : ℕ) : Bool :=
  env.tombstonesOk && env.deleteOk sessionId

/-- The daemon's registry of sessions with everything that reaches it: the slots of the sessions,
the tombstone table, the command channel, the channels of the running sessions, the index, the marks
of deleted sessions, the sub-sessions of each session, the next id, the background deletions (a
session has at most one), the sessions of the running tool threads, the answers to attaching clients
that they have not read yet, and the announcements so far (newest first). -/
structure Registry where
  slots : Std.ExtTreeMap ℕ Slot := ∅
  tombstones : Std.ExtTreeMap ℕ Unit := ∅
  queue : List RegistryCommand := []
  activeSessions : Std.ExtTreeMap ℕ ℕ := ∅
  sessionMetadata : Std.ExtTreeMap ℕ SessionMetadata := ∅
  deletedSessions : Std.ExtTreeSet ℕ := ∅
  children : Std.ExtTreeMap ℕ (List ℕ) := ∅
  nextSessionId : ℕ := 1
  finalizers : Std.ExtTreeMap ℕ FinalizePhase := ∅
  toolThreads : List ℕ := []
  grants : List (ℕ × ℕ × ℕ) := []
  log : List Announcement := []

/-- Why a session cannot be attached. -/
inductive AttachError
  | notFound
  | database
deriving DecidableEq, Repr

namespace Registry

def slot (r : Registry) (sessionId : ℕ) : Slot := r.slots[sessionId]?.getD {}

variable (sessionId : ℕ)

/-- Changes the slot of a session id. -/
def modifySlot (f : Slot → Slot) (r : Registry) : Registry :=
  { r with slots := r.slots.insert sessionId (f (r.slot sessionId)) }

/-- Announces something to the clients. -/
def broadcast (announcement : Announcement) (r : Registry) : Registry :=
  { r with log := announcement :: r.log }

/-- Sends a command to a session, if the daemon holds a channel for it. -/
def sendSession (command : SessionCommand) (r : Registry) : Registry :=
  match r.activeSessions[sessionId]? with
  | some channel => r.modifySlot sessionId (Slot.deliver channel command)
  | none => r

/-- The id that cancels every request of a session. -/
def cancelAll : ℕ := 0

/-! ### Sessions come and go -/

variable (env : RegistryEnv)

/-- Starts the thread of a session and enters it into the index. -/
def spawnSession (sessionId : ℕ) (record : SessionRecord)
    (metadata : SessionMetadata) (r : Registry) : Registry :=
  let r := r.modifySlot sessionId (Slot.spawn env.boot record)
  { r with
    activeSessions := r.activeSessions.insert sessionId (r.slot sessionId).channel
    sessionMetadata := r.sessionMetadata.insert sessionId metadata }

/-- Notes a session as a sub-session of its parent. -/
def addChild (parentId : Option ℕ) (sessionId : ℕ) (r : Registry) : Registry :=
  match parentId with
  | some parentId =>
    { r with
      children := r.children.insert parentId (r.children[parentId]?.getD [] ++ [sessionId]) }
  | none => r

/-- Creates a session under the next id. A record that cannot be written is only logged. -/
def handleCreateSession (session : NewSession) (r : Registry) : Registry :=
  let sessionId := r.nextSessionId
  let record := session.record env.now
  let r := { r with nextSessionId := r.nextSessionId + 1 }
  let r := r.modifySlot sessionId fun s =>
    s.setStore (s.store.writeSessionRetry env.writeOk record)
  let r := r.spawnSession env sessionId record (session.metadata env.contextWindow env.now)
  let r := r.addChild session.parentSessionId sessionId
  (r.broadcast (.sessionCreated sessionId)).broadcast (.sessionStatusChanged sessionId .inactive)

/-- Attaches to a session, which is started from its record when it does not run. The answer is the
channel of the session. -/
def handleAttachSession (sessionId : ℕ) (r : Registry) :
    Registry × Except AttachError ℕ :=
  if r.deletedSessions.contains sessionId then (r, .error .notFound)
  else
    match r.activeSessions[sessionId]? with
    | some channel => (r, .ok channel)
    | none =>
      if env.readOk then
        match (r.slot sessionId).store.record with
        | some record =>
          let r := r.spawnSession env sessionId record { record.toMetadata with status := .inactive }
          (r, .ok (r.slot sessionId).channel)
        | none => (r, .error .notFound)
      else (r, .error .database)

def grant (sessionId clientId : ℕ) (answer : Registry × Except AttachError ℕ) : Registry :=
  match answer.2 with
  | .ok channel =>
    { answer.1 with grants := answer.1.grants ++ [(clientId, sessionId, channel)] }
  | .error _ => answer.1

/-- Updates the index from a session thread, unless the session is deleted. The time of the last
change never goes back, and a session that is over stays so. -/
def handleUpdateMetadata (metadata : SessionMetadata) (r : Registry) : Registry :=
  if r.deletedSessions.contains sessionId then r
  else
    let metadata :=
      match r.sessionMetadata[sessionId]? with
      | some existing =>
        { metadata with
          lastModified := max metadata.lastModified existing.lastModified
          status := if existing.status = .sleeping then .sleeping else metadata.status }
      | none => metadata
    { r with sessionMetadata := r.sessionMetadata.insert sessionId metadata }

/-- Records and announces a status of a session that is in the index. -/
def handleBroadcastSessionStatus (status : SessionStatus) (r : Registry) :
    Registry :=
  match r.sessionMetadata[sessionId]? with
  | some metadata =>
    { r with
      sessionMetadata := r.sessionMetadata.insert sessionId { metadata with status := status }
      log := .sessionStatusChanged sessionId status :: r.log }
  | none => r

/-- Removes a session from every list of sub-sessions. -/
def removeChildFromAllParents (childId : ℕ) (r : Registry) : Registry :=
  { r with
    children := (r.children.map fun _ ids => ids.filter (· ≠ childId)).filter fun _ ids => ids ≠ [] }

/-- Cancels the request of a sub-session and shuts it down. -/
def cancelAndShutdownChild (childId : ℕ) (r : Registry) : Registry :=
  (r.sendSession childId (.cancel cancelAll)).sendSession childId .shutdown

/-- A session thread is over: its sub-sessions are shut down, the index says so, and a deletion that
waited for it starts in the background. -/
def handleSessionExited (r : Registry) : Registry :=
  let r := { r with activeSessions := r.activeSessions.erase sessionId }
  let childIds := r.children[sessionId]?.getD []
  let r := { r with children := r.children.erase sessionId }
  let r := childIds.foldl (fun r childId =>
    (r.removeChildFromAllParents childId).cancelAndShutdownChild childId) r
  let r := r.handleBroadcastSessionStatus sessionId .sleeping
  if r.deletedSessions.contains sessionId then
    { r with finalizers := r.finalizers.insert sessionId .deleteSession }
  else r

/-- The background deletion has reported: the mark goes. -/
def handleSessionDeleteFinalized (r : Registry) : Registry :=
  { r with deletedSessions := r.deletedSessions.erase sessionId }

/-! ### Cancelling and deleting -/

/-- Sends a cancel to the sub-sessions of a session that is still known. -/
def cancelChildrenOf (parentId : ℕ) (r : Registry) : Registry :=
  if !r.activeSessions.contains parentId && !r.sessionMetadata.contains parentId then r
  else
    (r.children[parentId]?.getD []).foldl (fun r childId =>
      r.sendSession childId (.cancel cancelAll)) r

/-- Cancels a request of a session, and everything that its sub-sessions do. -/
def handleCancelRequest (sessionId requestId : ℕ) (r : Registry) : Registry :=
  (r.sendSession sessionId (.cancel requestId)).cancelChildrenOf sessionId

/-- Removes a deletion tombstone, if the write succeeds. -/
def clearSessionTombstone (sessionId : ℕ) (r : Registry) : Registry :=
  if env.clearOk sessionId then { r with tombstones := r.tombstones.erase sessionId } else r

/-- Writes a deletion tombstone, if the write succeeds. -/
def markSessionDeleted (sessionId : ℕ) (r : Registry) : Registry :=
  if env.tombstoneOk sessionId then { r with tombstones := r.tombstones.insert sessionId () } else r

/-- Removes a session from the index and announces it. -/
def forgetSession (r : Registry) : Registry :=
  ({ r with sessionMetadata := r.sessionMetadata.erase sessionId } : Registry).broadcast
    (.sessionDeleted sessionId)

/-- Whether the join handle of a session thread says that the thread is over. -/
def threadFinished (sessionId : ℕ) (r : Registry) : Bool :=
  !(r.slot sessionId).system.live && env.isFinished sessionId

/-- Deletes a session whose thread is known to be over. The mark is set for the commands that the
thread left in the channel. The result says whether the deletion succeeded. -/
def deleteFinishedSession (sessionId : ℕ) (r : Registry) : Registry × Bool :=
  let r := { r with deletedSessions := r.deletedSessions.insert sessionId }
  if env.deleteOk sessionId then
    let r := r.modifySlot sessionId Slot.deleteRows
    ((r.clearSessionTombstone env sessionId).forgetSession sessionId, true)
  else (r, false)

/-- Deletes a session. While its thread runs only the mark and the tombstone are set, and the thread
is told to end. The result says whether the deletion succeeded. -/
def deleteSessionInner (sessionId : ℕ) (r : Registry) : Registry × Bool :=
  match r.activeSessions[sessionId]? with
  | some channel =>
    let r := { r with activeSessions := r.activeSessions.erase sessionId }
    if r.threadFinished env sessionId then r.deleteFinishedSession env sessionId
    else
      let r := { r with deletedSessions := r.deletedSessions.insert sessionId }
      let r := r.markSessionDeleted env sessionId
      let r := r.modifySlot sessionId fun s =>
        (s.deliver channel (.cancel cancelAll)).deliver channel .shutdown
      (r.forgetSession sessionId, true)
  | none =>
    if env.deleteOk sessionId then
      let r := r.modifySlot sessionId Slot.deleteRows
      let r :=
        if r.deletedSessions.contains sessionId then r else r.clearSessionTombstone env sessionId
      (r.forgetSession sessionId, true)
    else (r, false)

/-- Deletes a session after its sub-sessions. A sub-session that cannot be deleted is only logged. -/
def handleDeleteSession (sessionId : ℕ) (r : Registry) : Registry × Bool :=
  let childIds := r.children[sessionId]?.getD []
  let r := { r with children := r.children.erase sessionId }
  let r := childIds.foldl (fun r childId =>
    ((r.removeChildFromAllParents childId).deleteSessionInner env childId).1) r
  (r.removeChildFromAllParents sessionId).deleteSessionInner env sessionId

def handleCommand (command : RegistryCommand) (r : Registry) : Registry :=
  match command with
  | .createSession session => r.handleCreateSession env session
  | .attachSession sessionId clientId =>
    grant sessionId clientId (r.handleAttachSession env sessionId)
  | .cancelRequest sessionId requestId => r.handleCancelRequest sessionId requestId
  | .deleteSession sessionId => (r.handleDeleteSession env sessionId).1
  | .updateMetadata sessionId metadata => r.handleUpdateMetadata sessionId metadata
  | .broadcastSessionStatus sessionId status => r.handleBroadcastSessionStatus sessionId status
  | .sessionExited sessionId => r.handleSessionExited sessionId
  | .sessionDeleteFinalized sessionId => r.handleSessionDeleteFinalized sessionId

/-! ### The other threads -/

/-- The next action of a background deletion. When the rows cannot be deleted it gives up, and the
mark and the tombstone stay. -/
def finalizeSessionDelete (ok : Bool) (r : Registry) : Option Registry :=
  r.finalizers[sessionId]?.map fun phase =>
    match phase with
    | .deleteSession =>
      if ok then
        { r.modifySlot sessionId Slot.deleteRows with
          finalizers := r.finalizers.insert sessionId .clearTombstone }
      else { r with finalizers := r.finalizers.erase sessionId }
    | .clearTombstone =>
      { r with
        tombstones := if ok then r.tombstones.erase sessionId else r.tombstones
        finalizers := r.finalizers.insert sessionId .report }
    | .report =>
      { r with
        queue := r.queue ++ [.sessionDeleteFinalized sessionId]
        finalizers := r.finalizers.erase sessionId }

/-- Replaces the slot of a session by the outcome of a step of its thread; what the thread sent goes
into the command channel. -/
def afterThread (s : Slot) (r : Registry) : Registry :=
  { r with
    slots := r.slots.insert sessionId s
    queue := r.queue ++ System.sentBetween sessionId (r.slot sessionId).system s.system }

/-- A step of a session or its worker. A thread that has not started yet makes no step, but its
channel takes commands. -/
def threadStep (setup : AgentSetup) (sessionId : ℕ) (label : SystemLabel) (r : Registry) :
    Option Registry :=
  match label, (r.slot sessionId).starting with
  | .restart _, _ => none
  | .process _, some _ => none
  | label, _ =>
    ((r.slot sessionId).system.step setup label).map fun system =>
      r.afterThread sessionId { r.slot sessionId with system := system }

/-- The start of the daemon on a database: the sweep of the tombstones, then the index from the
records that are left, and the next id after the highest of them. -/
def startUp (env : StartEnv) (slots : Std.ExtTreeMap ℕ Slot) (tombstones : Std.ExtTreeMap ℕ Unit)
    (log : List Announcement) : Registry :=
  let slots := slots.map fun sessionId s =>
    if tombstones[sessionId]?.isSome && env.sweeps sessionId then s.crash.deleteRows else s.crash
  let records := slots.filterMap fun _ s => s.store.record
  let index := if env.sessionsOk then records.map fun _ record => record.toMetadata else ∅
  { slots := slots
    tombstones :=
      tombstones.filter fun sessionId _ => !(env.sweeps sessionId && env.clearOk sessionId)
    sessionMetadata := index
    nextSessionId :=
      match index.keys.max? with
      | some last => last + 1
      | none => 1
    log := log }

end Registry

/-- The steps of the daemon and its sessions: a client or a tool sends a command, the daemon handles
the next one, a session thread starts, a session makes a step, a tool thread of a running request
starts, writes or ends, a background deletion goes on, or the process dies and is started again. -/
inductive RegistryLabel
  | request (command : RegistryCommand)
  | handle (env : RegistryEnv)
  | start (sessionId : ℕ)
  | session (sessionId : ℕ) (label : SystemLabel)
  | startTool (sessionId : ℕ)
  | kvSet (sessionId : ℕ) (key : String) (value : Bytes)
  | kvDelete (sessionId : ℕ) (key : String)
  | endTool (sessionId : ℕ)
  | finalize (sessionId : ℕ) (ok : Bool)
  | reboot (env : StartEnv)

def Worker.inToolPhase (w : Worker) : Bool :=
  match w.pc with
  | .tools _ => true
  | _ => false

namespace Registry

def step (setup : AgentSetup) (label : RegistryLabel) (r : Registry) : Option Registry :=
  match label with
  | .request command =>
    if command.isRequest then some { r with queue := r.queue ++ [command] } else none
  | .handle env =>
    match r.queue with
    | command :: queue => some ({ r with queue := queue }.handleCommand env command)
    | [] => none
  | .start sessionId => (r.slot sessionId).start.map fun s => r.afterThread sessionId s
  | .session sessionId label => r.threadStep setup sessionId label
  | .startTool sessionId =>
    if (r.slot sessionId).system.worker.any Worker.inToolPhase then
      some { r with toolThreads := sessionId :: r.toolThreads }
    else none
  | .kvSet sessionId key value =>
    if sessionId ∈ r.toolThreads then
      some (r.modifySlot sessionId fun s => { s with kv := s.kv.insert key value })
    else none
  | .kvDelete sessionId key =>
    if sessionId ∈ r.toolThreads then
      some (r.modifySlot sessionId fun s => { s with kv := s.kv.erase key })
    else none
  | .endTool sessionId =>
    if sessionId ∈ r.toolThreads then
      some { r with toolThreads := r.toolThreads.erase sessionId }
    else none
  | .finalize sessionId ok => r.finalizeSessionDelete sessionId ok
  | .reboot env => some (startUp env r.slots r.tombstones r.log)

end Registry

end Choreo
