import Mathlib.Algebra.Group.Nat.Defs
import Mathlib.Data.List.AList
import Choreo.Protocols.Chat

/-!
# The bridge between an editor and the daemon

The editor speaks JSON-RPC over the standard streams, the daemon its own messages over a socket. The
bridge has one thread that takes requests of the editor and messages of the daemon from one channel
(`choreo-acp/src/acp_handler.rs`). The replies of the daemon do not say which message they answer, so
the bridge keeps a table of the requests that wait for each kind of reply (`pending.rs`).

Every handler sends its messages to the daemon before it responds to the editor. Notifications to the
editor, which have no id, are left out.

## Main definitions

* `Acp.SessionManager`, `Acp.PendingRequests`: the state of the bridge.
* `Acp.handleRequest`, `Acp.handleNotification`: what the editor sends.
* `Acp.handleDaemonMessage`: what the daemon sends.
* `Acp.handleDisconnect`: the end of the daemon.
-/

namespace Choreo

namespace Acp

abbrev Map (κ α : Type) : Type := AList fun _ : κ => α

/-! ### Messages of the editor -/

structure JsonRpcRequest where
  id : ℕ
  method : String
  params : Option Json := none

inductive RpcMessage
  | request (req : JsonRpcRequest)
  | notification (method : String) (params : Option Json)

def RpcMessage.id? : RpcMessage → Option ℕ
  | request req => some req.id
  | notification .. => none

inductive ConfigOptionValue
  | string (value : String)
  | bool (value : Bool)
deriving DecidableEq, Repr

/-- The parameters of `session/set_config_option`. -/
structure SetConfigOptionRequest where
  sessionId : String
  configId : String
  value : ConfigOptionValue

/-- A part of a prompt. -/
inductive ContentBlock
  | text (text : String)
  | resource (uri : String) (content : Json)
  | image (data : String) (mimeType : Option String)

/-- The parameters of `session/prompt`. -/
structure PromptRequest where
  sessionId : String
  prompt : List ContentBlock

/-- The packages of the bridge: the parameters of each method as they are read from JSON, the text of
a JSON value, and the table of lower-case letters. -/
structure Packages where
  newSessionMetadata : Json → Option (Option Json)
  loadSession : Json → Option String
  deleteSession : Json → Option String
  closeSession : Json → Option String
  setConfigOption : Json → Option SetConfigOptionRequest
  promptRequest : Json → Option PromptRequest
  cancel : Json → Option String
  toStr : Json → String
  toLowercase : String → String

/-- What a session of the daemon looks like in a list. -/
structure SessionSummary where
  sessionId : ℕ
  title : Option String
  selectedModel : Option String
  createdAt : ℤ
deriving DecidableEq, Repr

/-- What a session looks like to the editor. -/
structure SessionInfo where
  sessionId : String
  title : Option String
  model : Option String
  createdAt : Option ℤ
deriving DecidableEq, Repr

/-- The results of requests. The configuration options of a session are given by its model. -/
inductive RpcResult
  | initialized
  | newSession (sessionId : String)
  | loadSession (model : Option String)
  | listSessions (sessions : List SessionInfo)
  | prompt (stopReason : String) (usage : Option TokenUsage)
  | empty
deriving DecidableEq, Repr

structure RpcError where
  code : ℤ
  message : String
deriving DecidableEq, Repr

structure JsonRpcResponse where
  id : ℕ
  body : Except RpcError RpcResult

/-! ### Messages of the daemon -/

/-- The messages that the bridge sends to the daemon. -/
inductive ClientMessage
  | listModels
  | createSession (accountName : Option String)
  | listSessions
  | deleteSession (sessionId : ℕ)
  | setModel (model : String)
  | setReasoningEffort (effort : String)
  | attachSession (sessionId : ℕ)
  | runInput (requestId : ℕ) (input : String)
  | cancel (requestId : ℕ)
deriving DecidableEq, Repr

/-- The events of a request that do not end it. -/
inductive StreamKind
  | outputChunk
  | toolCallStarted
  | toolResultChunk
  | toolCallFinished
  | toolCallFailed
deriving DecidableEq, Repr

/-- The events of sessions that the daemon sends. -/
inductive SessionEvent
  | streamed (kind : StreamKind) (requestId : ℕ)
  | done (requestId : ℕ) (tokenUsage : Option TokenUsage)
  | failed (requestId : ℕ) (error : String)
  | cancelled (requestId : ℕ)
  | sessionCreated
  | sessionAttached
  | sessionFailed (operation error : String)
  | sessionDeleted
  | sessionDeleteFailed (error : String)
  | modelSelected (model : String)
  | modelSelectionFailed (model error : String)
  | reasoningEffortSet (effort : String)
  | reasoningEffortSetFailed (effort error : String)
deriving DecidableEq, Repr

inductive DaemonMessage
  | models (models : List String) (selectedModel : Option String)
  | modelsFailed (error : String)
  | sessions (sessions : List SessionSummary)
  | session (sessionId : Option ℕ) (event : SessionEvent)
deriving DecidableEq, Repr

/-! ### Sessions -/

structure AcpSession where
  daemonId : ℕ
  activeRequest : Option ℕ := none
  model : Option String := none
  reasoningEffort : Option String := none
deriving DecidableEq, Repr

/-- The sessions, the ids of the editor by those of the daemon, and the counters of ids. -/
structure SessionManager where
  sessions : Map String AcpSession := ∅
  byDaemonId : Map ℕ String := ∅
  nextRequestId : ℕ := 1
  nextSessionId : ℕ := 1

namespace SessionManager

variable (m : SessionManager)

/-- The id that the next session gets. -/
def nextAcpId : String := "sess_" ++ toString m.nextSessionId

/-- Adds a session of the daemon under a new id. -/
def create (daemonId : ℕ) : SessionManager where
  sessions := m.sessions.insert m.nextAcpId { daemonId := daemonId }
  byDaemonId := m.byDaemonId.insert daemonId m.nextAcpId
  nextRequestId := m.nextRequestId
  nextSessionId := (m.nextSessionId + 1) % 2 ^ 64

variable (acpId : String)

def get : Option AcpSession := m.sessions.lookup acpId

/-- Changes a session, if it is there. -/
def modify (change : AcpSession → AcpSession) :
    SessionManager :=
  match m.get acpId with
  | some session => { m with sessions := m.sessions.insert acpId (change session) }
  | none => m

def remove : SessionManager :=
  match m.get acpId with
  | some session =>
    { m with
      sessions := m.sessions.erase acpId
      byDaemonId := m.byDaemonId.erase session.daemonId }
  | none => m

/-- Uses up an id of a request. Ids wrap around. -/
def takeRequestId : SessionManager :=
  { m with nextRequestId := (m.nextRequestId + 1) % 2 ^ 32 }

def tryBeginPrompt (requestId : ℕ) :
    Except String SessionManager :=
  match m.get acpId with
  | none => .error ("session not found: " ++ acpId)
  | some session =>
    if session.activeRequest.isSome then .error ("session is busy: " ++ acpId)
    else
      .ok { m with
        sessions := m.sessions.insert acpId { session with activeRequest := some requestId } }

def endPrompt : SessionManager :=
  m.modify acpId fun session => { session with activeRequest := none }

end SessionManager

/-! ### Pending requests -/

/-- What a request waits for. -/
inductive PendingKind
  | createSession
  | listSessions
  | deleteSession (sessionId : ℕ)
  | setModel
  | setReasoningEffort
deriving DecidableEq, Repr

structure ActivePrompt where
  jsonrpcId : ℕ
  daemonRequestId : ℕ
  sessionAcpId : String
deriving DecidableEq, Repr

/-- A request for a new session, which waits for the models. -/
structure ModelsPending where
  jsonrpcId : ℕ
  accountName : Option String
deriving DecidableEq, Repr

/-- The requests that wait: one for each kind of reply, one prompt for each session, and one for the
models; and the sessions whose settings change with a reply. -/
structure PendingRequests where
  sync : Map PendingKind ℕ := ∅
  prompts : Map String ActivePrompt := ∅
  modelsPending : Option ModelsPending := none
  pendingSessions : Map PendingKind String := ∅

def PendingRequests.findByRequestId (p : PendingRequests) (daemonRequestId : ℕ) :
    Option ActivePrompt :=
  (p.prompts.entries.find? fun entry => entry.2.daemonRequestId = daemonRequestId).map Sigma.snd

structure Bridge where
  initialized : Bool := false
  sessions : SessionManager := {}
  pending : PendingRequests := {}

/-- What a handler leaves: the state, the responses, and the messages to the daemon, each with the id
of the request for which it is sent. -/
structure Outcome where
  bridge : Bridge
  out : List JsonRpcResponse := []
  sent : List (ℕ × ClientMessage) := []

def respond (b : Bridge) (id : ℕ) (result : RpcResult) : Outcome where
  bridge := b
  out := [{ id := id, body := .ok result }]

def respondErr (b : Bridge) (id : ℕ) (code : ℤ) (message : String) : Outcome where
  bridge := b
  out := [{ id := id, body := .error { code := code, message := message } }]

namespace Bridge

variable (b : Bridge) (kind : PendingKind)

/-- Registers a request under a kind of reply. -/
def insertSync (jsonrpcId : ℕ) : Bridge :=
  { b with pending := { b.pending with sync := b.pending.sync.insert kind jsonrpcId } }

/-- Takes the request that is registered under a kind of reply. -/
def eraseSync : Bridge :=
  { b with pending := { b.pending with sync := b.pending.sync.erase kind } }

/-- Remembers the session whose setting changes with a reply. -/
def storePendingSession (sessionId : String) : Bridge :=
  { b with
    pending := { b.pending with
      pendingSessions := b.pending.pendingSessions.insert kind sessionId } }

/-- Changes the session whose setting changes with a reply. -/
def applyPendingSession (change : AcpSession → AcpSession) :
    Bridge :=
  { b with
    sessions :=
      match b.pending.pendingSessions.lookup kind with
      | some sessionId => b.sessions.modify sessionId change
      | none => b.sessions
    pending := { b.pending with
      pendingSessions := b.pending.pendingSessions.erase kind } }

/-- Forgets the session whose setting was to change. -/
def dropPendingSession : Bridge :=
  { b with
    pending := { b.pending with
      pendingSessions := b.pending.pendingSessions.erase kind } }

end Bridge

/-! ### Requests -/

section Requests

variable (packages : Packages) (b : Bridge) (req : JsonRpcRequest)

def sessionNotFound (acpId : String) : Outcome :=
  respondErr b req.id (-32602) ("Session not found: " ++ acpId)

/-- `session/new`, which asks for the models first. -/
def dispatchNewSession : Outcome :=
  if b.pending.modelsPending.isSome then
    respondErr b req.id (-32000) "Session creation in progress"
  else
    let accountName := ((req.params.bind packages.newSessionMetadata).bind id).bind
      (Json.getStr "account_name")
    { bridge := { b with
        pending := { b.pending with
          modelsPending := some { jsonrpcId := req.id, accountName := accountName } } }
      sent := [(req.id, .listModels)] }

def dispatchLoadSession : Outcome :=
  let acpId := (req.params.bind packages.loadSession).getD ""
  if acpId = "" then respondErr b req.id (-32602) "Missing session_id"
  else
    match b.sessions.get acpId with
    | none => sessionNotFound b req acpId
    | some session => respond b req.id (.loadSession session.model)

def dispatchListSessions : Outcome where
  bridge := b.insertSync .listSessions req.id
  sent := [(req.id, .listSessions)]

def dispatchDeleteSession : Outcome :=
  let acpId := (req.params.bind packages.deleteSession).getD ""
  match b.sessions.get acpId with
  | none => sessionNotFound b req acpId
  | some session =>
    { bridge := b.insertSync (.deleteSession session.daemonId) req.id
      sent := [(req.id, .deleteSession session.daemonId)] }

def dispatchCloseSession : Outcome :=
  let acpId := (req.params.bind packages.closeSession).getD ""
  match b.sessions.get acpId with
  | none => sessionNotFound b req acpId
  | some _ => respond { b with sessions := b.sessions.remove acpId } req.id .empty

/-- The option `model`. -/
def handleSetModel (config : SetConfigOptionRequest) : Outcome :=
  match config.value with
  | .string model =>
    { bridge := (b.insertSync .setModel req.id).storePendingSession .setModel config.sessionId
      sent := [(req.id, .setModel model)] }
  | .bool _ => respondErr b req.id (-32602) "Model value must be a string"

def handleSetReasoningEffort (config : SetConfigOptionRequest) : Outcome :=
  match config.value with
  | .string value =>
    let effort := packages.toLowercase value
    if effort ∈ ["off", "low", "medium", "high"] then
      { bridge := (b.insertSync .setReasoningEffort req.id).storePendingSession .setReasoningEffort
          config.sessionId
        sent := [(req.id, .setReasoningEffort effort)] }
    else respondErr b req.id (-32602) ("Unknown reasoning effort: " ++ effort)
  | .bool _ => respondErr b req.id (-32602) "Reasoning effort must be a string"

def dispatchSetConfigOption : Outcome :=
  match req.params.bind packages.setConfigOption with
  | none => respondErr b req.id (-32602) "Invalid params"
  | some config =>
    if (b.sessions.get config.sessionId).isNone then sessionNotFound b req config.sessionId
    else if config.configId = "model" then handleSetModel b req config
    else if config.configId = "reasoning_effort" then handleSetReasoningEffort packages b req config
    else if config.configId = "tool_groups" then respond b req.id .empty
    else respondErr b req.id (-32602) ("Unknown config option: " ++ config.configId)

/-- The text of a part of a prompt. -/
def blockText : ContentBlock → String
  | .text text => text
  | .resource uri content =>
    "[Resource: " ++ uri ++ "]\n" ++
      match content with
      | .string text => text
      | .null => ""
      | other => packages.toStr other
  | .image data mimeType =>
    "[Image: " ++ toString data.utf8ByteSize ++ " bytes, " ++ mimeType.getD "unknown" ++ "]"

def contentBlocksToText (blocks : List ContentBlock) : String :=
  String.intercalate "\n" (blocks.map (blockText packages))

/-- `session/prompt`. -/
def dispatchPrompt : Outcome :=
  match req.params.bind packages.promptRequest with
  | none => respondErr b req.id (-32602) "Invalid params"
  | some prompt =>
    match b.sessions.get prompt.sessionId with
    | none => sessionNotFound b req prompt.sessionId
    | some session =>
      let requestId := b.sessions.nextRequestId
      let sessions := b.sessions.takeRequestId
      match sessions.tryBeginPrompt prompt.sessionId requestId with
      | .error e => respondErr { b with sessions := sessions } req.id (-32000) e
      | .ok sessions =>
        { bridge := { b with
            sessions := sessions
            pending := { b.pending with
              prompts := b.pending.prompts.insert prompt.sessionId
                { jsonrpcId := req.id
                  daemonRequestId := requestId
                  sessionAcpId := prompt.sessionId } } }
          sent := [(req.id, .attachSession session.daemonId),
            (req.id, .runInput requestId (contentBlocksToText packages prompt.prompt))] }

/-- Handles a request after the initialization. -/
def handleRequest : Outcome :=
  if req.method = "session/new" then dispatchNewSession packages b req
  else if req.method = "session/load" then dispatchLoadSession packages b req
  else if req.method = "session/list" then dispatchListSessions b req
  else if req.method = "session/delete" then dispatchDeleteSession packages b req
  else if req.method = "session/close" then dispatchCloseSession packages b req
  else if req.method = "session/set_config_option" then dispatchSetConfigOption packages b req
  else if req.method = "session/prompt" then dispatchPrompt packages b req
  else respondErr b req.id (-32601) ("Method not found: " ++ req.method)

def handleNotification (method : String) (params : Option Json) : Outcome :=
  if method = "session/cancel" then
    match b.pending.prompts.lookup ((params.bind packages.cancel).getD "") with
    | some prompt =>
      { bridge := b, sent := [(prompt.jsonrpcId, .cancel prompt.daemonRequestId)] }
    | none => { bridge := b }
  else { bridge := b }

/-- Handles a message of the editor. Before the initialization everything but that is refused. -/
def handleAcp (msg : RpcMessage) : Outcome :=
  if b.initialized then
    match msg with
    | .request req => handleRequest packages b req
    | .notification method params => handleNotification packages b method params
  else
    match msg with
    | .request req =>
      if req.method = "initialize" then respond { b with initialized := true } req.id .initialized
      else respondErr b req.id (-32000) "Not initialized"
    | .notification method _ =>
      if method = "notifications/initialized" then { bridge := b }
      else respondErr b (msg.id?.getD 0) (-32000) "Not initialized"

end Requests

/-! ### Replies -/

section Replies

variable (b : Bridge)

def sendTerminalResponse (prompt : ActivePrompt) (stopReason : String) (usage : Option TokenUsage) :
    Outcome :=
  respond
    { b with
      sessions := b.sessions.endPrompt prompt.sessionAcpId
      pending := { b.pending with prompts := b.pending.prompts.erase prompt.sessionAcpId } }
    prompt.jsonrpcId (.prompt stopReason usage)

/-- Handles an event of a prompt; those of other requests are ignored. -/
def handleStreaming (requestId : ℕ) (handle : ActivePrompt → Outcome) : Outcome :=
  match b.pending.findByRequestId requestId with
  | some prompt => handle prompt
  | none => { bridge := b }

/-- Hands the request that waits for a kind of reply on, if there is one. -/
def withSync (kind : PendingKind) (handle : Bridge → ℕ → Outcome) : Outcome :=
  match b.pending.sync.lookup kind with
  | some jsonrpcId => handle (b.eraseSync kind) jsonrpcId
  | none => { bridge := b }

def handleModels (selectedModel : Option String) : Outcome :=
  match b.pending.modelsPending with
  | some pending =>
    let b := { b with pending := { b.pending with modelsPending := none } }
    { bridge := b.insertSync .createSession pending.jsonrpcId
      sent := [(pending.jsonrpcId, .createSession pending.accountName)] }
  | none =>
    withSync b .setModel fun b jsonrpcId =>
      respond (b.applyPendingSession .setModel fun session => { session with model := selectedModel })
        jsonrpcId .empty

def handleSessionCreated (sessionId : ℕ) : Outcome :=
  withSync b .createSession fun b jsonrpcId =>
    { bridge := { b with sessions := b.sessions.create sessionId }
      out := [{ id := jsonrpcId, body := .ok (.newSession b.sessions.nextAcpId) }]
      sent := [(jsonrpcId, .attachSession sessionId)] }

/-- A session of the daemon as the editor sees it. -/
def sessionInfo (summary : SessionSummary) : SessionInfo where
  sessionId := (b.sessions.byDaemonId.lookup summary.sessionId).getD
    ("daemon_" ++ toString summary.sessionId)
  title := summary.title
  model := summary.selectedModel
  createdAt := some (summary.createdAt.tdiv 1000)

def handleSessionDeleted (sessionId : ℕ) : Outcome :=
  withSync b (.deleteSession sessionId) fun b jsonrpcId =>
    respond
      { b with
        sessions :=
          match b.sessions.byDaemonId.lookup sessionId with
          | some acpId => b.sessions.remove acpId
          | none => b.sessions }
      jsonrpcId .empty

def handleDaemonMessage : DaemonMessage → Outcome
  | .models _ selectedModel => handleModels b selectedModel
  | .modelsFailed _ => { bridge := b }
  | .sessions summaries =>
    withSync b .listSessions fun b jsonrpcId =>
      respond b jsonrpcId (.listSessions (summaries.map (sessionInfo b)))
  | .session _ (.streamed _ requestId) => handleStreaming b requestId fun _ => { bridge := b }
  | .session _ (.done requestId usage) =>
    handleStreaming b requestId fun prompt => sendTerminalResponse b prompt "end_turn" usage
  | .session _ (.failed requestId _) =>
    handleStreaming b requestId fun prompt => sendTerminalResponse b prompt "refusal" none
  | .session _ (.cancelled requestId) =>
    handleStreaming b requestId fun prompt => sendTerminalResponse b prompt "cancelled" none
  | .session (some sessionId) .sessionCreated => handleSessionCreated b sessionId
  | .session (some sessionId) .sessionDeleted => handleSessionDeleted b sessionId
  | .session (some sessionId) (.sessionDeleteFailed error) =>
    withSync b (.deleteSession sessionId) fun b jsonrpcId => respondErr b jsonrpcId (-32000) error
  | .session _ (.modelSelectionFailed _ error) =>
    withSync b .setModel fun b jsonrpcId =>
      respondErr (b.dropPendingSession .setModel) jsonrpcId (-32000) error
  | .session _ (.reasoningEffortSet effort) =>
    withSync b .setReasoningEffort fun b jsonrpcId =>
      respond (b.applyPendingSession .setReasoningEffort fun session =>
        { session with reasoningEffort := some effort }) jsonrpcId .empty
  | .session _ (.reasoningEffortSetFailed _ error) =>
    withSync b .setReasoningEffort fun b jsonrpcId =>
      respondErr (b.dropPendingSession .setReasoningEffort) jsonrpcId (-32000) error
  | .session _ _ => { bridge := b }

/-- The end of the daemon: all that waits is answered. -/
def handleDisconnect : Outcome where
  bridge := { b with pending := { b.pending with sync := ∅, prompts := ∅, modelsPending := none } }
  out := (b.pending.prompts.entries.map (fun entry => entry.2.jsonrpcId) ++
      b.pending.sync.entries.map Sigma.snd ++
      (b.pending.modelsPending.map ModelsPending.jsonrpcId).toList).map fun id =>
    { id := id, body := .error { code := -32001, message := "Daemon disconnected" } }

end Replies

end Acp

end Choreo
