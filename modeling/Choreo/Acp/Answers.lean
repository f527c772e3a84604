import Choreo.Acp.Bridge
import Choreo.Library.Runs
import Choreo.Library.Tables

/-!
# Every request of the editor and its answer

The bridge together with the daemon: the daemon takes the messages of the bridge in order and answers
each with the reply or the failure of its protocol; inputs run on their own and end at any time; the
replies reach the bridge in order, and what the editor sends comes in between. The thread that writes
to the daemon, and the daemon, can go away at any time.

The bridge matches replies by their kind alone. What it then takes for the answer to a request is the
answer to it as long as no two requests wait for the same kind of reply, and the replies that it
ignores, or that come unasked, do not occur.
-/

namespace Choreo

open List Option

namespace Acp

/-! ### What requests wait for -/

/-- The places of the table of the bridge. -/
inductive Slot
  | models
  | sync (kind : PendingKind)
  | prompt (requestId : ℕ)
deriving DecidableEq, Repr

/-- The request that waits in a place. -/
def Bridge.slot (b : Bridge) : Slot → Option ℕ
  | .models => b.pending.modelsPending.map ModelsPending.jsonrpcId
  | .sync kind => b.pending.sync.lookup kind
  | .prompt requestId => (b.pending.findByRequestId requestId).map ActivePrompt.jsonrpcId

/-- The place for the reply to a message. -/
def ClientMessage.slot : ClientMessage → Option Slot
  | listModels => some .models
  | createSession _ => some (.sync .createSession)
  | listSessions => some (.sync .listSessions)
  | deleteSession sessionId => some (.sync (.deleteSession sessionId))
  | setModel _ => some (.sync .setModel)
  | setReasoningEffort _ => some (.sync .setReasoningEffort)
  | runInput requestId _ => some (.prompt requestId)
  | attachSession _ => none
  | cancel _ => none

/-- The input that a message starts. -/
def ClientMessage.runs : ClientMessage → Option ℕ
  | runInput requestId _ => some requestId
  | _ => none

variable (packages : Packages)

/-- The place where a setting waits. -/
def settingSlot (config : SetConfigOptionRequest) : Option Slot :=
  match config.value with
  | .bool _ => none
  | .string value =>
    if config.configId = "model" then some (.sync .setModel)
    else if config.configId = "reasoning_effort" ∧
        packages.toLowercase value ∈ ["off", "low", "medium", "high"] then
      some (.sync .setReasoningEffort)
    else none

/-- The place where a request waits; none if it is answered at once. -/
def waitsFor (b : Bridge) (req : JsonRpcRequest) : Option Slot :=
  if req.method = "session/new" then
    if b.pending.modelsPending.isSome then none else some .models
  else if req.method = "session/list" then some (.sync .listSessions)
  else if req.method = "session/delete" then
    (b.sessions.get ((req.params.bind packages.deleteSession).getD "")).map fun session =>
      .sync (.deleteSession session.daemonId)
  else if req.method = "session/set_config_option" then
    (req.params.bind packages.setConfigOption).bind fun config =>
      if (b.sessions.get config.sessionId).isNone then none else settingSlot packages config
  else if req.method = "session/prompt" then
    (req.params.bind packages.promptRequest).bind fun prompt =>
      (b.sessions.get prompt.sessionId).bind fun session =>
        if session.activeRequest.isSome then none else some (.prompt b.sessions.nextRequestId)
  else none

/-! ### The daemon -/

/-- How the daemon answers a message. -/
structure Verdict where
  error : Option String := none
  models : List String := []
  selectedModel : Option String := none
  sessionId : ℕ := 0
  summaries : List SessionSummary := []
  /-- Whether the new model does not support the reasoning effort. -/
  resetsEffort : Bool := false

/-- The replies to a message. A model that does not support the reasoning effort resets it. -/
def replyTo (msg : ClientMessage) (verdict : Verdict) : List DaemonMessage :=
  let models := DaemonMessage.models verdict.models verdict.selectedModel
  match msg, verdict.error with
  | .listModels, none => [models]
  | .listModels, some e => [.modelsFailed e]
  | .createSession _, none => [.session (some verdict.sessionId) .sessionCreated]
  | .createSession _, some e => [.session none (.sessionFailed "create_session" e)]
  | .listSessions, _ => [.sessions verdict.summaries]
  | .deleteSession sessionId, none => [.session (some sessionId) .sessionDeleted]
  | .deleteSession sessionId, some e => [.session (some sessionId) (.sessionDeleteFailed e)]
  | .setModel model, none =>
    (if verdict.resetsEffort then [.session none (.reasoningEffortSet "off")] else []) ++
      [.session none (.modelSelected model), models]
  | .setModel model, some e => [.session none (.modelSelectionFailed model e)]
  | .setReasoningEffort effort, none => [.session none (.reasoningEffortSet effort)]
  | .setReasoningEffort effort, some e => [.session none (.reasoningEffortSetFailed effort e)]
  | .attachSession sessionId, none => [.session (some sessionId) .sessionAttached]
  | .attachSession _, some e => [.session none (.sessionFailed "attach_session" e)]
  | .runInput _ _, _ => []
  | .cancel _, _ => []

/-- How an input ends. -/
inductive Ending
  | done (usage : Option TokenUsage)
  | failed (error : String)
  | cancelled
deriving DecidableEq, Repr

/-- The last event of an input. -/
def Ending.event (requestId : ℕ) : Ending → SessionEvent
  | done usage => .done requestId usage
  | failed error => .failed requestId error
  | cancelled => .cancelled requestId

/-- A message on its way to the bridge, with the request that it is about and the place that it
settles. -/
structure Delivery where
  origin : ℕ
  settles : Option Slot
  message : DaemonMessage

/-- The replies to a message on their way. The last one settles the place of the message. -/
def deliveries (origin : ℕ) (slot : Option Slot) : List DaemonMessage → List Delivery
  | [] => []
  | [message] => [⟨origin, slot, message⟩]
  | message :: rest => ⟨origin, none, message⟩ :: deliveries origin slot rest

/-! ### The system -/

/-- What made the bridge respond. -/
inductive Cause
  | request (id : ℕ)
  | notification
  | reply (origin : ℕ)
  | disconnect
deriving DecidableEq, Repr

/-- Whether the loop of the bridge runs, or how it ended. -/
inductive Status
  | running
  | eof
  | failed
  | disconnected
deriving DecidableEq, Repr

/-- The bridge, the messages that the daemon has not yet taken, the inputs that run, the messages on
their way to the bridge; the requests that have come, those of them that only the daemon can answer,
and the responses that went out. -/
structure World where
  bridge : Bridge := {}
  status : Status := .running
  writerOpen : Bool := true
  queue : List (ℕ × ClientMessage) := []
  running : List (ℕ × ℕ) := []
  inbox : List Delivery := []
  received : List ℕ := []
  asking : List ℕ := []
  answers : List (Cause × JsonRpcResponse) := []

/-- What can happen. -/
inductive Label
  | acp (msg : RpcMessage)
  | handle (verdict : Verdict)
  | stream (i : ℕ) (kind : StreamKind)
  | finish (i : ℕ) (ending : Ending)
  | deliver
  | writerExit
  | disconnect
  | eof

namespace World

/-- Puts the outcome of a handler into effect. A message that cannot be sent ends the loop. -/
def take (w : World) (cause : Cause) (outcome : Outcome) : World :=
  if outcome.sent ≠ [] ∧ w.writerOpen = false then { w with status := .failed }
  else
    { w with
      bridge := outcome.bridge
      queue := w.queue ++ outcome.sent
      answers := w.answers ++ outcome.out.map fun response => (cause, response) }

/-- The daemon takes a message. -/
def handle (w : World) (origin : ℕ) (msg : ClientMessage) (rest : List (ℕ × ClientMessage))
    (verdict : Verdict) : World :=
  { w with
    queue := rest
    running := w.running ++ (msg.runs.map fun requestId => (requestId, origin)).toList
    inbox := w.inbox ++ deliveries origin msg.slot (replyTo msg verdict) }

/-- The loop sees that the daemon is gone. -/
def disconnect (w : World) : World :=
  { w with
    bridge := (handleDisconnect w.bridge).bridge
    status := .disconnected
    queue := []
    running := []
    inbox := []
    answers := w.answers ++ (handleDisconnect w.bridge).out.map fun response =>
      (.disconnect, response) }

end World

/-- What made the bridge respond to a message of the editor. -/
def causeOf : RpcMessage → Cause
  | .request req => .request req.id
  | .notification .. => .notification

def askingId (b : Bridge) : RpcMessage → Option ℕ
  | .request req =>
    if b.initialized && (waitsFor packages b req).isSome then some req.id else none
  | .notification .. => none

/-- A step of the system. -/
def step (label : Label) (w : World) : Option World :=
  if w.status ≠ .running then none
  else
    match label with
    | .acp msg =>
      some (({ w with
          received := w.received ++ msg.id?.toList
          asking := w.asking ++ (askingId packages w.bridge msg).toList }).take (causeOf msg)
        (handleAcp packages w.bridge msg))
    | .handle verdict =>
      match w.queue with
      | [] => none
      | (origin, msg) :: rest => some (w.handle origin msg rest verdict)
    | .stream i kind =>
      w.running[i]?.map fun entry =>
        { w with
          inbox := w.inbox ++ [⟨entry.2, none, .session none (.streamed kind entry.1)⟩] }
    | .finish i ending =>
      w.running[i]?.map fun entry =>
        { w with
          running := w.running.eraseIdx i
          inbox := w.inbox ++
            [⟨entry.2, some (.prompt entry.1), .session none (ending.event entry.1)⟩] }
    | .deliver =>
      match w.inbox with
      | [] => none
      | item :: rest =>
        some (({ w with inbox := rest }).take (.reply item.origin)
          (handleDaemonMessage w.bridge item.message))
    | .writerExit => some { w with writerOpen := false }
    | .disconnect => some w.disconnect
    | .eof => some { w with status := .eof }

/-! ### What is owed -/

/-- The place that a delivery settles, for its request. -/
def Delivery.owed (item : Delivery) : Option (Slot × ℕ) :=
  item.settles.map fun slot => (slot, item.origin)

/-- The place for the reply to a message, for its request. -/
def owedFor (entry : ℕ × ClientMessage) : Option (Slot × ℕ) :=
  entry.2.slot.map fun slot => (slot, entry.1)

namespace World

/-- The replies that come in the order of the messages. -/
def inOrder (w : World) : List (Slot × ℕ) :=
  w.inbox.filterMap Delivery.owed ++ w.queue.filterMap owedFor

/-- The replies that the daemon owes. -/
def owed (w : World) : List (Slot × ℕ) :=
  w.inOrder ++ w.running.map fun entry => (.prompt entry.1, entry.2)

/-- The requests whose replies the daemon owes. -/
def openIds (w : World) : List ℕ := w.owed.map Prod.snd

/-- The requests that have a response, once for each response. -/
def answerIds (w : World) : List ℕ := w.answers.map fun entry => entry.2.id

end World

/-- A response to a request comes from the daemon's reply to it or from the end of the daemon, or
from the request itself if it does not ask the daemon. -/
def Cause.IsOf (asking : List ℕ) (id : ℕ) : Cause → Prop
  | request id' => id' = id ∧ id ∉ asking
  | notification => False
  | reply origin => origin = id
  | disconnect => True

/-- Every request that has come either has exactly one response or waits for a reply that the daemon
owes, there are no other responses, every response has the right cause, and after a disconnect
nothing is open. -/
structure Answered (w : World) : Prop where
  once : ∀ id ∈ w.received, w.answerIds.count id + w.openIds.count id = 1
  only : ∀ id ∈ w.answerIds, id ∈ w.received
  own : ∀ entry ∈ w.answers, entry.1.IsOf w.asking entry.2.id
  settled : w.status = .disconnected → w.openIds = []

/-! ### Orderly steps -/

/-- Whether a message makes the bridge send another one. -/
def continues (b : Bridge) : DaemonMessage → Bool
  | .models .. => b.pending.modelsPending.isSome
  | .session (some _) .sessionCreated => (b.slot (.sync .createSession)).isSome
  | _ => false

/-- A step that the table of the bridge can follow.

The ids of requests are new. No two requests wait for one kind of reply, no session is created while
a model is being set, and an id for a prompt is not in use. Nothing but `notifications/initialized`
is notified before the initialization. The daemon does not fail to list models or to create a
session, a reset of the reasoning effort does not come while an effort is being set, and the name of
a new session has no prompt. While something is to be sent, the writer is there. -/
def Orderly : Label → World → Prop
  | .acp (.request req), w =>
    req.id ∉ w.received ∧
      (w.bridge.initialized = true → ∀ slot, waitsFor packages w.bridge req = some slot →
        w.bridge.slot slot = none ∧
        (slot = .models → w.bridge.slot (.sync .setModel) = none) ∧ w.writerOpen = true)
  | .acp (.notification method params), w =>
    (w.bridge.initialized = false → method = "notifications/initialized") ∧
      (method = "session/cancel" →
        w.bridge.pending.prompts.lookup ((params.bind packages.cancel).getD "") ≠ none →
          w.writerOpen = true)
  | .handle verdict, w =>
    ∀ entry ∈ w.queue.head?,
      entry.2.slot = some .models ∨ entry.2.slot = some (.sync .createSession) →
        verdict.error = none
  | .deliver, w =>
    ∀ item ∈ w.inbox.head?,
      (item.settles = none → (∃ effort, item.message = .session none (.reasoningEffortSet effort)) →
        w.bridge.slot (.sync .setReasoningEffort) = none) ∧
      (item.settles = some (.sync .createSession) →
        w.bridge.pending.prompts.lookup w.bridge.sessions.nextAcpId = none) ∧
      (continues w.bridge item.message = true → w.writerOpen = true)
  | _, _ => True

/-! ### The table of the bridge -/

/-- The prompts of the bridge: each is under the name of its session, the session is busy if it is
still there, and the ids of the daemon are distinct. -/
structure PromptsOk (b : Bridge) : Prop where
  key : ∀ acpId prompt, b.pending.prompts.lookup acpId = some prompt → prompt.sessionAcpId = acpId
  busy : ∀ acpId prompt session, b.pending.prompts.lookup acpId = some prompt →
    b.sessions.get acpId = some session → session.activeRequest.isSome = true
  distinct : ∀ acpId prompt acpId' prompt', b.pending.prompts.lookup acpId = some prompt →
    b.pending.prompts.lookup acpId' = some prompt' →
      prompt.daemonRequestId = prompt'.daemonRequestId → acpId = acpId'

variable {packages : Packages} {b : Bridge} {w : World}

theorem findByRequestId_eq_some_iff (h : PromptsOk b) {requestId : ℕ} {prompt : ActivePrompt} :
    b.pending.findByRequestId requestId = some prompt ↔
      b.pending.prompts.lookup prompt.sessionAcpId = some prompt ∧
        prompt.daemonRequestId = requestId := by
  have hfound : ∀ entry, (b.pending.prompts.entries.find? fun entry =>
      entry.2.daemonRequestId = requestId) = some entry →
        b.pending.prompts.lookup entry.1 = some entry.2 ∧ entry.2.daemonRequestId = requestId := by
    intro entry hentry
    refine ⟨AList.mem_lookup_iff.2 (List.mem_of_find?_eq_some hentry), ?_⟩
    simpa using List.find?_some hentry
  constructor
  · intro hfind
    obtain ⟨entry, hentry, rfl⟩ := map_eq_some_iff.1 hfind
    obtain ⟨hlookup, hid⟩ := hfound entry hentry
    rw [h.key entry.1 entry.2 hlookup]
    exact ⟨hlookup, hid⟩
  · rintro ⟨hlookup, hid⟩
    rcases hfind : b.pending.prompts.entries.find? fun entry =>
      entry.2.daemonRequestId = requestId with _ | entry
    · have := List.find?_eq_none.1 hfind ⟨_, prompt⟩ (AList.mem_lookup_iff.1 hlookup)
      simp [hid] at this
    · obtain ⟨hlookup', hid'⟩ := hfound entry hfind
      have hkey := h.distinct _ _ _ _ hlookup' hlookup (hid'.trans hid.symm)
      rw [hkey, hlookup, some.injEq] at hlookup'
      rw [PendingRequests.findByRequestId, hfind, hlookup']
      rfl

theorem slot_prompt_eq_some_iff (h : PromptsOk b) {requestId id : ℕ} :
    b.slot (.prompt requestId) = some id ↔
      ∃ acpId prompt, b.pending.prompts.lookup acpId = some prompt ∧
        prompt.daemonRequestId = requestId ∧ prompt.jsonrpcId = id := by
  rw [Bridge.slot, map_eq_some_iff]
  constructor
  · rintro ⟨prompt, hfind, rfl⟩
    obtain ⟨hlookup, hid⟩ := (findByRequestId_eq_some_iff h).1 hfind
    exact ⟨_, prompt, hlookup, hid, rfl⟩
  · rintro ⟨acpId, prompt, hlookup, hid, rfl⟩
    refine ⟨prompt, (findByRequestId_eq_some_iff h).2 ⟨?_, hid⟩, rfl⟩
    rwa [h.key acpId prompt hlookup]

variable {b' : Bridge}

theorem slot_congr (hmodels : b'.pending.modelsPending = b.pending.modelsPending)
    (hsync : b'.pending.sync = b.pending.sync) (hprompts : b'.pending.prompts = b.pending.prompts)
    (slot : Slot) : b'.slot slot = b.slot slot := by
  rcases slot with _ | kind | requestId
  · rw [Bridge.slot, Bridge.slot, hmodels]
  · rw [Bridge.slot, Bridge.slot, hsync]
  · rw [Bridge.slot, Bridge.slot, PendingRequests.findByRequestId, PendingRequests.findByRequestId,
      hprompts]

theorem slot_insertSync (kind : PendingKind) (id : ℕ) (slot : Slot) :
    (b.insertSync kind id).slot slot = Function.update b.slot (.sync kind) (some id) slot := by
  rcases slot with _ | kind' | requestId
  · rfl
  · by_cases hk : kind' = kind
    · subst hk
      simp [Bridge.slot, Bridge.insertSync]
    · rw [Function.update_of_ne (by simpa using hk)]
      exact AList.lookup_insert_ne hk
  · rfl

theorem slot_eraseSync (kind : PendingKind) (slot : Slot) :
    (b.eraseSync kind).slot slot = Function.update b.slot (.sync kind) none slot := by
  rcases slot with _ | kind' | requestId
  · rfl
  · by_cases hk : kind' = kind
    · subst hk
      simp [Bridge.slot, Bridge.eraseSync]
    · rw [Function.update_of_ne (by simpa using hk)]
      exact AList.lookup_erase_ne hk
  · rfl

theorem slot_prompts (hmodels : b'.pending.modelsPending = b.pending.modelsPending)
    (hsync : b'.pending.sync = b.pending.sync) {requestId : ℕ} {value : Option ℕ}
    (hprompts : ∀ id, b'.slot (.prompt id) = if id = requestId then value else b.slot (.prompt id))
    (slot : Slot) : b'.slot slot = Function.update b.slot (.prompt requestId) value slot := by
  rcases slot with _ | kind | id
  · rw [Function.update_of_ne (by simp), Bridge.slot, Bridge.slot, hmodels]
  · rw [Function.update_of_ne (by simp), Bridge.slot, Bridge.slot, hsync]
  · rw [hprompts, Function.update_apply]
    simp

variable (m : SessionManager)

theorem get_modify (acpId acpId' : String) (change : AcpSession → AcpSession) :
    (m.modify acpId change).get acpId' =
      if acpId' = acpId then (m.get acpId).map change else m.get acpId' := by
  rcases hget : m.get acpId with _ | session
  · rw [SessionManager.modify, hget]
    split_ifs with h
    · rw [h, hget]
      rfl
    · rfl
  · rw [SessionManager.modify, hget]
    split_ifs with h
    · subst h
      exact AList.lookup_insert _
    · exact AList.lookup_insert_ne h

theorem get_remove (acpId acpId' : String) :
    (m.remove acpId).get acpId' = if acpId' = acpId then none else m.get acpId' := by
  rcases hget : m.get acpId with _ | session
  · rw [SessionManager.remove, hget]
    split_ifs with h
    · rw [h, hget]
    · rfl
  · rw [SessionManager.remove, hget]
    split_ifs with h
    · subst h
      exact AList.lookup_erase _ _
    · exact AList.lookup_erase_ne h

theorem get_create (daemonId : ℕ) (acpId : String) :
    (m.create daemonId).get acpId =
      if acpId = m.nextAcpId then some { daemonId := daemonId } else m.get acpId := by
  split_ifs with h
  · subst h
    exact AList.lookup_insert _
  · exact AList.lookup_insert_ne h

theorem PromptsOk.congr (h : PromptsOk b)
    (hprompts : b'.pending.prompts = b.pending.prompts)
    (hbusy : ∀ acpId prompt session', b.pending.prompts.lookup acpId = some prompt →
      b'.sessions.get acpId = some session' →
        (∃ session, b.sessions.get acpId = some session ∧
          session'.activeRequest = session.activeRequest)) : PromptsOk b' := by
  refine ⟨?_, ?_, ?_⟩
  · rw [hprompts]
    exact h.key
  · rw [hprompts]
    intro acpId prompt session' hlookup hget
    obtain ⟨session, hsession, hactive⟩ := hbusy acpId prompt session' hlookup hget
    rw [hactive]
    exact h.busy acpId prompt session hlookup hsession
  · rw [hprompts]
    exact h.distinct

theorem PromptsOk.of_eq (h : PromptsOk b)
    (hprompts : b'.pending.prompts = b.pending.prompts)
    (hget : ∀ acpId, b'.sessions.get acpId = b.sessions.get acpId) : PromptsOk b' :=
  h.congr hprompts fun acpId _ session' _ hsession => ⟨session', hget acpId ▸ hsession, rfl⟩

theorem PromptsOk.modify (h : PromptsOk b) (acpId : String) {change : AcpSession → AcpSession}
    (hchange : ∀ session, (change session).activeRequest = session.activeRequest) :
    PromptsOk { b with sessions := b.sessions.modify acpId change } := by
  refine h.congr rfl fun acpId' _ session' _ hget => ?_
  rw [get_modify] at hget
  split_ifs at hget with heq
  · obtain ⟨session, hsession, rfl⟩ := map_eq_some_iff.1 hget
    exact ⟨session, heq ▸ hsession, hchange session⟩
  · exact ⟨session', hget, rfl⟩

theorem PromptsOk.remove (h : PromptsOk b) (acpId : String) :
    PromptsOk { b with sessions := b.sessions.remove acpId } := by
  refine h.congr rfl fun acpId' _ session' _ hget => ?_
  rw [get_remove] at hget
  split_ifs at hget
  exact ⟨session', hget, rfl⟩

theorem PromptsOk.create (h : PromptsOk b) (daemonId : ℕ)
    (hfree : b.pending.prompts.lookup b.sessions.nextAcpId = none) :
    PromptsOk { b with sessions := b.sessions.create daemonId } := by
  refine h.congr rfl fun acpId prompt session' hlookup hget => ?_
  rw [get_create] at hget
  split_ifs at hget with heq
  · rw [heq, hfree] at hlookup
    exact absurd hlookup (some_ne_none _).symm
  · exact ⟨session', hget, rfl⟩

/-! ### What the handlers do -/

/-- A handler that responds to a request and changes nothing in the table but, if it is given, the
place where the request waited. -/
structure Responds (b : Bridge) (id : ℕ) (slot : Option Slot) (outcome : Outcome) : Prop where
  out : ∃ body, outcome.out = [⟨id, body⟩]
  sent : outcome.sent.filterMap owedFor = []
  atOnce : slot = none → outcome.sent = []
  table : ∀ s, outcome.bridge.slot s = if some s = slot then none else b.slot s
  prompts : PromptsOk outcome.bridge

/-- A handler that sends a message and lets the request wait for its reply. -/
structure Forwards (b : Bridge) (id : ℕ) (slot : Slot) (outcome : Outcome) : Prop where
  out : outcome.out = []
  sent : outcome.sent.filterMap owedFor = [(slot, id)]
  table : ∀ s, outcome.bridge.slot s = Function.update b.slot slot (some id) s
  prompts : PromptsOk outcome.bridge

theorem responds_respond (h : PromptsOk b) (id : ℕ) (result : RpcResult) :
    Responds b id none (respond b id result) :=
  ⟨⟨_, rfl⟩, rfl, fun _ => rfl, fun _ => rfl, h⟩

theorem responds_respondErr (h : PromptsOk b) (id : ℕ) (code : ℤ) (message : String) :
    Responds b id none (respondErr b id code message) :=
  ⟨⟨_, rfl⟩, rfl, fun _ => rfl, fun _ => rfl, h⟩

variable {outcome : Outcome}

/-- A request that waits for a reply. -/
theorem forwards_insertSync (h : PromptsOk b) {kind : PendingKind} {id : ℕ}
    (hout : outcome.out = []) (hsent : outcome.sent.filterMap owedFor = [(.sync kind, id)])
    (hmodels : outcome.bridge.pending.modelsPending = b.pending.modelsPending)
    (hsync : outcome.bridge.pending.sync = b.pending.sync.insert kind id)
    (hprompts : outcome.bridge.pending.prompts = b.pending.prompts)
    (hsessions : outcome.bridge.sessions = b.sessions) :
    Forwards b id (.sync kind) outcome := by
  refine ⟨hout, hsent, fun s => ?_, h.of_eq hprompts fun acpId => by rw [hsessions]⟩
  rw [← slot_insertSync]
  exact slot_congr (b := b.insertSync kind id) hmodels hsync hprompts s

section Requests

variable {req : JsonRpcRequest}

theorem dispatchNewSession_spec (h : PromptsOk b) :
    (b.pending.modelsPending.isSome = true ∧
      Responds b req.id none (dispatchNewSession packages b req)) ∨
    (b.pending.modelsPending.isSome = false ∧
      Forwards b req.id .models (dispatchNewSession packages b req)) := by
  rcases hmodels : b.pending.modelsPending.isSome
  · refine Or.inr ⟨rfl, ?_⟩
    rw [dispatchNewSession, if_neg (by simp [hmodels])]
    refine ⟨rfl, rfl, fun s => ?_, h.of_eq rfl fun _ => rfl⟩
    rcases s with _ | kind | requestId
    · rw [Function.update_self]
      rfl
    · rfl
    · rfl
  · refine Or.inl ⟨rfl, ?_⟩
    rw [dispatchNewSession, if_pos hmodels]
    exact responds_respondErr h _ _ _

theorem dispatchLoadSession_spec (h : PromptsOk b) :
    Responds b req.id none (dispatchLoadSession packages b req) := by
  rw [dispatchLoadSession]
  split_ifs
  · exact responds_respondErr h _ _ _
  · split
    · exact responds_respondErr h _ _ _
    · exact responds_respond h _ _

theorem dispatchListSessions_spec (h : PromptsOk b) :
    Forwards b req.id (.sync .listSessions) (dispatchListSessions b req) :=
  forwards_insertSync h rfl rfl rfl rfl rfl rfl

theorem dispatchDeleteSession_spec (h : PromptsOk b) :
    (b.sessions.get ((req.params.bind packages.deleteSession).getD "") = none ∧
      Responds b req.id none (dispatchDeleteSession packages b req)) ∨
    ∃ session, b.sessions.get ((req.params.bind packages.deleteSession).getD "") = some session ∧
      Forwards b req.id (.sync (.deleteSession session.daemonId))
        (dispatchDeleteSession packages b req) := by
  rw [dispatchDeleteSession]
  split
  · next hget => exact Or.inl ⟨hget, responds_respondErr h _ _ _⟩
  · next session hget =>
    exact Or.inr ⟨session, hget, forwards_insertSync h rfl rfl rfl rfl rfl rfl⟩

theorem dispatchCloseSession_spec (h : PromptsOk b) :
    Responds b req.id none (dispatchCloseSession packages b req) := by
  rw [dispatchCloseSession]
  split
  · exact responds_respondErr h _ _ _
  · exact ⟨⟨_, rfl⟩, rfl, fun _ => rfl, fun s => slot_congr rfl rfl rfl s, h.remove _⟩

variable {config : SetConfigOptionRequest}

theorem handleSetModel_spec (h : PromptsOk b)
    (hid : config.configId = "model") :
    (settingSlot packages config = none ∧ Responds b req.id none (handleSetModel b req config)) ∨
    ∃ slot, settingSlot packages config = some slot ∧
      Forwards b req.id slot (handleSetModel b req config) := by
  rcases hvalue : config.value with value | value
  · refine Or.inr ⟨.sync .setModel, by simp [settingSlot, hvalue, hid], ?_⟩
    rw [handleSetModel, hvalue]
    exact forwards_insertSync h rfl rfl rfl rfl rfl rfl
  · refine Or.inl ⟨by simp [settingSlot, hvalue], ?_⟩
    rw [handleSetModel, hvalue]
    exact responds_respondErr h _ _ _

theorem handleSetReasoningEffort_spec (h : PromptsOk b)
    (hid : config.configId = "reasoning_effort") :
    (settingSlot packages config = none ∧
      Responds b req.id none (handleSetReasoningEffort packages b req config)) ∨
    ∃ slot, settingSlot packages config = some slot ∧
      Forwards b req.id slot (handleSetReasoningEffort packages b req config) := by
  rcases hvalue : config.value with value | value
  · rw [handleSetReasoningEffort, hvalue]
    by_cases heffort : packages.toLowercase value ∈ ["off", "low", "medium", "high"]
    · refine Or.inr ⟨.sync .setReasoningEffort, ?_, ?_⟩
      · rw [settingSlot, hvalue]
        simp only [hid, heffort]
        rfl
      · dsimp only
        rw [if_pos heffort]
        exact forwards_insertSync h rfl rfl rfl rfl rfl rfl
    · refine Or.inl ⟨?_, ?_⟩
      · rw [settingSlot, hvalue]
        simp only [hid, heffort]
        rfl
      · dsimp only
        rw [if_neg heffort]
        exact responds_respondErr h _ _ _
  · refine Or.inl ⟨by simp [settingSlot, hvalue], ?_⟩
    rw [handleSetReasoningEffort, hvalue]
    exact responds_respondErr h _ _ _

theorem settingSlot_eq_none (hmodel : config.configId ≠ "model")
    (heffort : config.configId ≠ "reasoning_effort") : settingSlot packages config = none := by
  rcases hvalue : config.value with value | value <;> simp [settingSlot, hvalue, hmodel, heffort]

theorem dispatchSetConfigOption_spec (h : PromptsOk b)
    (hmethod : req.method = "session/set_config_option") :
    (waitsFor packages b req = none ∧
      Responds b req.id none (dispatchSetConfigOption packages b req)) ∨
    ∃ slot, waitsFor packages b req = some slot ∧
      Forwards b req.id slot (dispatchSetConfigOption packages b req) := by
  have hwaits : waitsFor packages b req = (req.params.bind packages.setConfigOption).bind
      fun config => if (b.sessions.get config.sessionId).isNone then none
        else settingSlot packages config := by
    rw [waitsFor, hmethod]
    rfl
  rw [hwaits, dispatchSetConfigOption]
  rcases req.params.bind packages.setConfigOption with _ | config
  · exact Or.inl ⟨rfl, responds_respondErr h _ _ _⟩
  · dsimp only [bind_some]
    by_cases hget : (b.sessions.get config.sessionId).isNone = true
    · rw [if_pos hget, if_pos hget]
      exact Or.inl ⟨rfl, responds_respondErr h _ _ _⟩
    · rw [if_neg hget, if_neg hget]
      split_ifs with hmodel heffort
      · exact handleSetModel_spec h hmodel
      · exact handleSetReasoningEffort_spec h heffort
      · exact Or.inl ⟨settingSlot_eq_none hmodel heffort, responds_respond h _ _⟩
      · exact Or.inl ⟨settingSlot_eq_none hmodel heffort, responds_respondErr h _ _ _⟩

/-- A new prompt in the table. -/
theorem insertPrompt_spec {b' : Bridge} (h : PromptsOk b) (prompt : ActivePrompt)
    (hfree : b.pending.prompts.lookup prompt.sessionAcpId = none)
    (hslot : b.slot (.prompt prompt.daemonRequestId) = none)
    (hmodels : b'.pending.modelsPending = b.pending.modelsPending)
    (hsync : b'.pending.sync = b.pending.sync)
    (hprompts : b'.pending.prompts = b.pending.prompts.insert prompt.sessionAcpId prompt)
    (hget : ∀ acpId session, b'.sessions.get acpId = some session →
      if acpId = prompt.sessionAcpId then session.activeRequest.isSome = true
      else b.sessions.get acpId = some session) :
    PromptsOk b' ∧ ∀ s, b'.slot s =
      Function.update b.slot (.prompt prompt.daemonRequestId) (some prompt.jsonrpcId) s := by
  have hlookup : ∀ acpId, b'.pending.prompts.lookup acpId =
      if acpId = prompt.sessionAcpId then some prompt else b.pending.prompts.lookup acpId := by
    intro acpId
    rw [hprompts]
    split_ifs with heq
    · rw [heq]
      exact AList.lookup_insert _
    · exact AList.lookup_insert_ne heq
  have hother : ∀ acpId p, b.pending.prompts.lookup acpId = some p →
      p.daemonRequestId ≠ prompt.daemonRequestId := by
    intro acpId p hp heq
    have := (slot_prompt_eq_some_iff h).2 ⟨acpId, p, hp, heq, rfl⟩
    rw [hslot] at this
    exact some_ne_none _ this.symm
  have hok : PromptsOk b' := by
    refine ⟨?_, ?_, ?_⟩
    · intro acpId p hp
      rw [hlookup] at hp
      split_ifs at hp with heq
      · rw [← some.inj hp, heq]
      · exact h.key acpId p hp
    · intro acpId p session hp hsession
      rw [hlookup] at hp
      have := hget acpId session hsession
      split_ifs at hp this with heq
      · exact this
      · exact h.busy acpId p session hp this
    · intro acpId p acpId' p' hp hp' heq
      rw [hlookup] at hp hp'
      split_ifs at hp hp' with h1 h2 h2
      · rw [h1, h2]
      · rw [← some.inj hp] at heq
        exact absurd heq.symm (hother acpId' p' hp')
      · rw [← some.inj hp'] at heq
        exact absurd heq (hother acpId p hp)
      · exact h.distinct acpId p acpId' p' hp hp' heq
  refine ⟨hok, slot_prompts hmodels hsync fun id => Option.ext fun jsonrpcId => ?_⟩
  rw [slot_prompt_eq_some_iff hok]
  constructor
  · rintro ⟨acpId, p, hp, rfl, rfl⟩
    rw [hlookup] at hp
    split_ifs at hp with heq
    · rw [← some.inj hp, if_pos rfl]
    · rw [if_neg (hother acpId p hp)]
      exact (slot_prompt_eq_some_iff h).2 ⟨acpId, p, hp, rfl, rfl⟩
  · intro hid
    split_ifs at hid with heq
    · exact ⟨prompt.sessionAcpId, prompt, by rw [hlookup, if_pos rfl], heq.symm,
        some.inj hid⟩
    · obtain ⟨acpId, p, hp, hrid, hjson⟩ := (slot_prompt_eq_some_iff h).1 hid
      refine ⟨acpId, p, ?_, hrid, hjson⟩
      rw [hlookup, if_neg]
      · exact hp
      · intro hacp
        rw [hacp, hfree] at hp
        exact some_ne_none _ hp.symm

theorem forwards_insertPrompt {outcome : Outcome} (h : PromptsOk b) (prompt : ActivePrompt)
    (hout : outcome.out = [])
    (hsent : outcome.sent.filterMap owedFor = [(.prompt prompt.daemonRequestId, prompt.jsonrpcId)])
    (hfree : b.pending.prompts.lookup prompt.sessionAcpId = none)
    (hslot : b.slot (.prompt prompt.daemonRequestId) = none)
    (hmodels : outcome.bridge.pending.modelsPending = b.pending.modelsPending)
    (hsync : outcome.bridge.pending.sync = b.pending.sync)
    (hprompts : outcome.bridge.pending.prompts =
      b.pending.prompts.insert prompt.sessionAcpId prompt)
    (hget : ∀ acpId session, outcome.bridge.sessions.get acpId = some session →
      if acpId = prompt.sessionAcpId then session.activeRequest.isSome = true
      else b.sessions.get acpId = some session) :
    Forwards b prompt.jsonrpcId (.prompt prompt.daemonRequestId) outcome := by
  obtain ⟨hok, htable⟩ := insertPrompt_spec h prompt hfree hslot hmodels hsync hprompts hget
  exact ⟨hout, hsent, htable, hok⟩

theorem dispatchPrompt_spec (h : PromptsOk b) (hmethod : req.method = "session/prompt")
    (hfree : ∀ slot, waitsFor packages b req = some slot → b.slot slot = none) :
    (waitsFor packages b req = none ∧ Responds b req.id none (dispatchPrompt packages b req)) ∨
    ∃ slot, waitsFor packages b req = some slot ∧
      Forwards b req.id slot (dispatchPrompt packages b req) := by
  have hwaits : waitsFor packages b req = (req.params.bind packages.promptRequest).bind
      fun prompt => (b.sessions.get prompt.sessionId).bind fun session =>
        if session.activeRequest.isSome then none else some (.prompt b.sessions.nextRequestId) := by
    rw [waitsFor, hmethod]
    rfl
  rw [hwaits] at hfree ⊢
  rw [dispatchPrompt]
  rcases hparams : req.params.bind packages.promptRequest with _ | prompt
  · exact Or.inl ⟨rfl, responds_respondErr h _ _ _⟩
  · rw [hparams] at hfree
    dsimp only [bind_some] at hfree ⊢
    rcases hget : b.sessions.get prompt.sessionId with _ | session
    · exact Or.inl ⟨rfl, responds_respondErr h _ _ _⟩
    · rw [hget] at hfree
      have hget' : b.sessions.takeRequestId.get prompt.sessionId = some session := hget
      dsimp only [bind_some] at hfree ⊢
      rw [SessionManager.tryBeginPrompt, hget']
      dsimp only
      by_cases hactive : session.activeRequest.isSome = true
      · rw [if_pos hactive, if_pos hactive]
        refine Or.inl ⟨rfl, ⟨_, rfl⟩, rfl, fun _ => rfl, fun s => slot_congr rfl rfl rfl s, ?_⟩
        exact h.of_eq rfl fun _ => rfl
      · rw [if_neg hactive] at hfree
        rw [if_neg hactive, if_neg hactive]
        refine Or.inr ⟨_, rfl, ?_⟩
        have hlookup : b.pending.prompts.lookup prompt.sessionId = none := by
          rcases hp : b.pending.prompts.lookup prompt.sessionId with _ | p
          · rfl
          · exact absurd (h.busy _ p session hp hget) hactive
        exact forwards_insertPrompt h ⟨req.id, b.sessions.nextRequestId, prompt.sessionId⟩ rfl rfl
          hlookup (hfree _ rfl) rfl rfl rfl (fun acpId s hs => by
            split_ifs with heq
            · dsimp only at heq
              subst heq
              rw [SessionManager.get, AList.lookup_insert, some.injEq] at hs
              rw [← hs]
              rfl
            · rwa [SessionManager.get, AList.lookup_insert_ne heq] at hs)

theorem handleRequest_spec (h : PromptsOk b)
    (hfree : ∀ slot, waitsFor packages b req = some slot → b.slot slot = none) :
    (waitsFor packages b req = none ∧ Responds b req.id none (handleRequest packages b req)) ∨
    ∃ slot, waitsFor packages b req = some slot ∧
      Forwards b req.id slot (handleRequest packages b req) := by
  rw [handleRequest]
  split_ifs with hnew hload hlist hdelete hclose hset hprompt
  · rcases dispatchNewSession_spec h with ⟨hmodels, hspec⟩ | ⟨hmodels, hspec⟩
    · exact Or.inl ⟨by rw [waitsFor, if_pos hnew, if_pos hmodels], hspec⟩
    · exact Or.inr ⟨.models, by simp [waitsFor, hnew, hmodels], hspec⟩
  · exact Or.inl ⟨by rw [waitsFor, hload]; rfl, dispatchLoadSession_spec h⟩
  · exact Or.inr ⟨_, by rw [waitsFor, hlist]; rfl, dispatchListSessions_spec h⟩
  · have hwaits : waitsFor packages b req =
        (b.sessions.get ((req.params.bind packages.deleteSession).getD "")).map fun session =>
          .sync (.deleteSession session.daemonId) := by
      rw [waitsFor, hdelete]
      rfl
    rcases dispatchDeleteSession_spec h with ⟨hget, hspec⟩ | ⟨session, hget, hspec⟩
    · exact Or.inl ⟨by rw [hwaits, hget]; rfl, hspec⟩
    · exact Or.inr ⟨_, by rw [hwaits, hget]; rfl, hspec⟩
  · exact Or.inl ⟨by rw [waitsFor, hclose]; rfl, dispatchCloseSession_spec h⟩
  · exact dispatchSetConfigOption_spec h hset
  · exact dispatchPrompt_spec h hprompt hfree
  · exact Or.inl ⟨by simp [waitsFor, hnew, hlist, hdelete, hset, hprompt],
      responds_respondErr h _ _ _⟩

theorem waitsFor_ne_createSession :
    waitsFor packages b req ≠ some (.sync .createSession) := by
  intro h
  rw [waitsFor] at h
  split_ifs at h
  · simp at h
  · simp at h
  · obtain ⟨session, -, h⟩ := map_eq_some_iff.1 h
    simp at h
  · obtain ⟨config, -, h⟩ := bind_eq_some_iff.1 h
    rcases hvalue : config.value with value | value
    · rw [settingSlot, hvalue] at h
      dsimp only at h
      split_ifs at h <;> simp at h
    · rw [settingSlot, hvalue] at h
      simp at h
  · obtain ⟨prompt, -, h⟩ := bind_eq_some_iff.1 h
    obtain ⟨session, -, h⟩ := bind_eq_some_iff.1 h
    split_ifs at h
    simp at h

end Requests

section Replies

/-- The messages that come for a place of the table, or for none. -/
inductive Fits : Option Slot → DaemonMessage → Prop
  | models (models : List String) (selectedModel : Option String) :
    Fits (some .models) (.models models selectedModel)
  | created (sessionId : ℕ) :
    Fits (some (.sync .createSession)) (.session (some sessionId) .sessionCreated)
  | sessions (summaries : List SessionSummary) :
    Fits (some (.sync .listSessions)) (.sessions summaries)
  | deleted (sessionId : ℕ) :
    Fits (some (.sync (.deleteSession sessionId))) (.session (some sessionId) .sessionDeleted)
  | deleteFailed (sessionId : ℕ) (error : String) :
    Fits (some (.sync (.deleteSession sessionId)))
      (.session (some sessionId) (.sessionDeleteFailed error))
  | modelSet (models : List String) (selectedModel : Option String) :
    Fits (some (.sync .setModel)) (.models models selectedModel)
  | modelFailed (model error : String) :
    Fits (some (.sync .setModel)) (.session none (.modelSelectionFailed model error))
  | effortSet (effort : String) :
    Fits (some (.sync .setReasoningEffort)) (.session none (.reasoningEffortSet effort))
  | effortFailed (effort error : String) :
    Fits (some (.sync .setReasoningEffort)) (.session none (.reasoningEffortSetFailed effort error))
  | ended (requestId : ℕ) (ending : Ending) :
    Fits (some (.prompt requestId)) (.session none (ending.event requestId))
  | streamed (kind : StreamKind) (requestId : ℕ) : Fits none (.session none (.streamed kind requestId))
  | effortReset (effort : String) : Fits none (.session none (.reasoningEffortSet effort))
  | modelSelected (model : String) : Fits none (.session none (.modelSelected model))
  | attached (sessionId : ℕ) : Fits none (.session (some sessionId) .sessionAttached)
  | attachFailed (error : String) :
    Fits none (.session none (.sessionFailed "attach_session" error))

/-- The replies to a message fit its place, unless models or a new session fail. -/
theorem fits_deliveries {msg : ClientMessage} {verdict : Verdict}
    (h : msg.slot = some .models ∨ msg.slot = some (.sync .createSession) → verdict.error = none)
    (origin : ℕ) :
    ∀ item ∈ deliveries origin msg.slot (replyTo msg verdict), Fits item.settles item.message := by
  rcases herror : verdict.error with _ | e
  · rcases msg <;> simp only [replyTo, herror, deliveries, ClientMessage.slot, mem_singleton,
      forall_eq, not_mem_nil, false_imp_iff, implies_true]
    case setModel model =>
      rcases hreset : verdict.resetsEffort <;>
        simp [deliveries, Fits.modelSelected, Fits.modelSet, Fits.effortReset]
    all_goals constructor
  · rcases msg <;> simp only [replyTo, herror, deliveries, ClientMessage.slot, mem_singleton,
      forall_eq, not_mem_nil, false_imp_iff, implies_true]
    case listModels => simp [ClientMessage.slot, herror] at h
    case createSession accountName => simp [ClientMessage.slot, herror] at h
    all_goals constructor

theorem owed_deliveries (origin : ℕ) (msg : ClientMessage) (verdict : Verdict) :
    (deliveries origin msg.slot (replyTo msg verdict)).filterMap Delivery.owed =
      if msg.runs.isSome then [] else (owedFor (origin, msg)).toList := by
  rcases herror : verdict.error with _ | e <;> rcases msg
  case none.setModel model =>
    rcases hreset : verdict.resetsEffort <;> simp only [replyTo, herror, hreset] <;> rfl
  all_goals
    simp only [replyTo, herror]
    rfl

variable {kind : PendingKind}

theorem withSync_of_slot {id : ℕ} (h : b.slot (.sync kind) = some id)
    (handle : Bridge → ℕ → Outcome) : withSync b kind handle = handle (b.eraseSync kind) id := by
  rw [withSync, show b.pending.sync.lookup kind = some id from h]

/-- A request that waited for a reply is answered. -/
theorem responds_eraseSync {id : ℕ} {outcome : Outcome}
    (hout : ∃ body, outcome.out = [⟨id, body⟩]) (hsent : outcome.sent.filterMap owedFor = [])
    (hmodels : outcome.bridge.pending.modelsPending = b.pending.modelsPending)
    (hsync : outcome.bridge.pending.sync = b.pending.sync.erase kind)
    (hprompts : outcome.bridge.pending.prompts = b.pending.prompts)
    (hok : PromptsOk outcome.bridge) : Responds b id (some (.sync kind)) outcome := by
  refine ⟨hout, hsent, fun h => absurd h (by simp), fun s => ?_, hok⟩
  rw [slot_congr (b := b.eraseSync kind) hmodels hsync hprompts s, slot_eraseSync,
    Function.update_apply]
  simp only [some.injEq]

theorem PromptsOk.eraseSync (h : PromptsOk b) (kind : PendingKind) : PromptsOk (b.eraseSync kind) :=
  h.of_eq rfl fun _ => rfl

theorem PromptsOk.applyPendingSession (h : PromptsOk b) (kind : PendingKind)
    {change : AcpSession → AcpSession}
    (hchange : ∀ session, (change session).activeRequest = session.activeRequest) :
    PromptsOk (b.applyPendingSession kind change) := by
  rcases hlookup : b.pending.pendingSessions.lookup kind with _ | sessionId
  · refine h.of_eq rfl fun acpId => ?_
    rw [Bridge.applyPendingSession, hlookup]
  · refine (h.modify sessionId hchange).of_eq rfl fun acpId => ?_
    rw [Bridge.applyPendingSession, hlookup]

/-- The end of a prompt. -/
theorem sendTerminalResponse_spec (h : PromptsOk b) {prompt : ActivePrompt}
    (hlookup : b.pending.prompts.lookup prompt.sessionAcpId = some prompt) (stopReason : String)
    (usage : Option TokenUsage) :
    Responds b prompt.jsonrpcId (some (.prompt prompt.daemonRequestId))
      (sendTerminalResponse b prompt stopReason usage) := by
  set b' := (sendTerminalResponse b prompt stopReason usage).bridge with hb'
  have hlookup' : ∀ acpId, b'.pending.prompts.lookup acpId =
      if acpId = prompt.sessionAcpId then none else b.pending.prompts.lookup acpId := by
    intro acpId
    split_ifs with heq
    · rw [heq]
      exact AList.lookup_erase _ _
    · exact AList.lookup_erase_ne heq
  have hold : ∀ acpId p, b'.pending.prompts.lookup acpId = some p →
      acpId ≠ prompt.sessionAcpId ∧ b.pending.prompts.lookup acpId = some p := by
    intro acpId p hp
    rw [hlookup'] at hp
    split_ifs at hp with heq
    exact ⟨heq, hp⟩
  have hok : PromptsOk b' := by
    refine ⟨fun acpId p hp => h.key acpId p (hold acpId p hp).2, ?_, ?_⟩
    · intro acpId p session hp hsession
      obtain ⟨hne, hp⟩ := hold acpId p hp
      refine h.busy acpId p session hp ?_
      rwa [show b'.sessions = b.sessions.endPrompt prompt.sessionAcpId from rfl,
        SessionManager.endPrompt, get_modify, if_neg hne] at hsession
    · intro acpId p acpId' p' hp hp' heq
      exact h.distinct acpId p acpId' p' (hold acpId p hp).2 (hold acpId' p' hp').2 heq
  have hslot : ∀ id, b'.slot (.prompt id) =
      if id = prompt.daemonRequestId then none else b.slot (.prompt id) := by
    intro id
    refine Option.ext fun jsonrpcId => ?_
    rw [slot_prompt_eq_some_iff hok]
    constructor
    · rintro ⟨acpId, p, hp, rfl, rfl⟩
      obtain ⟨hne, hp⟩ := hold acpId p hp
      rw [if_neg fun heq => hne (h.distinct _ _ _ _ hp hlookup heq)]
      exact (slot_prompt_eq_some_iff h).2 ⟨acpId, p, hp, rfl, rfl⟩
    · intro hid
      split_ifs at hid with heq
      obtain ⟨acpId, p, hp, hrid, hjson⟩ := (slot_prompt_eq_some_iff h).1 hid
      refine ⟨acpId, p, ?_, hrid, hjson⟩
      rw [hlookup', if_neg]
      · exact hp
      · intro hacp
        rw [hacp, hlookup, some.injEq] at hp
        exact heq (by rw [← hrid, hp])
  have htable : ∀ s, b'.slot s = Function.update b.slot (.prompt prompt.daemonRequestId) none s :=
    @slot_prompts b b' rfl rfl _ _ hslot
  refine ⟨⟨_, rfl⟩, rfl, fun h => absurd h (by simp), fun s => ?_, hok⟩
  rw [← hb', htable s, Function.update_apply]
  simp only [some.injEq]

variable {message : DaemonMessage}

/-- A message that is not about a place of the table is ignored. -/
theorem handleDaemonMessage_of_fits_none (h : Fits none message)
    (heffort : (∃ effort, message = .session none (.reasoningEffortSet effort)) →
      b.slot (.sync .setReasoningEffort) = none) :
    handleDaemonMessage b message = { bridge := b } := by
  cases h with
  | streamed kind requestId =>
    rw [handleDaemonMessage, handleStreaming]
    split <;> rfl
  | effortReset effort =>
    have hnone : b.pending.sync.lookup .setReasoningEffort = none := heffort ⟨effort, rfl⟩
    rw [handleDaemonMessage, withSync, hnone]
  | modelSelected model | attached sessionId | attachFailed error => rfl

theorem handleDaemonMessage_of_fits {slot : Slot} {id : ℕ}
    (hok : PromptsOk b) (h : Fits (some slot) message) (hslot : b.slot slot = some id)
    (hmodels : slot ≠ .models) (hset : slot = .sync .setModel → b.slot .models = none)
    (hname : slot = .sync .createSession →
      b.pending.prompts.lookup b.sessions.nextAcpId = none) :
    Responds b id (some slot) (handleDaemonMessage b message) := by
  cases h with
  | models models selectedModel => exact absurd rfl hmodels
  | created sessionId =>
    rw [handleDaemonMessage, handleSessionCreated, withSync_of_slot hslot]
    exact responds_eraseSync ⟨_, rfl⟩ rfl rfl rfl rfl
      ((hok.eraseSync .createSession).create sessionId (hname rfl))
  | sessions summaries =>
    rw [handleDaemonMessage, withSync_of_slot hslot]
    exact responds_eraseSync ⟨_, rfl⟩ rfl rfl rfl rfl (hok.eraseSync _)
  | deleted sessionId =>
    rw [handleDaemonMessage, handleSessionDeleted, withSync_of_slot hslot]
    refine responds_eraseSync ⟨_, rfl⟩ rfl rfl rfl rfl ?_
    rcases hacp : b.sessions.byDaemonId.lookup sessionId with _ | acpId
    · refine (hok.eraseSync (.deleteSession sessionId)).of_eq rfl fun _ => ?_
      dsimp only [respond, Bridge.eraseSync]
      rw [hacp]
    · refine ((hok.eraseSync (.deleteSession sessionId)).remove acpId).of_eq rfl fun _ => ?_
      dsimp only [respond, Bridge.eraseSync]
      rw [hacp]
  | deleteFailed sessionId error =>
    rw [handleDaemonMessage, withSync_of_slot hslot]
    exact responds_eraseSync ⟨_, rfl⟩ rfl rfl rfl rfl (hok.eraseSync _)
  | modelSet models selectedModel =>
    have hnone : b.pending.modelsPending = none := by
      simpa [Bridge.slot] using hset rfl
    rw [handleDaemonMessage, handleModels, hnone]
    dsimp only
    rw [withSync_of_slot hslot]
    exact responds_eraseSync ⟨_, rfl⟩ rfl rfl rfl rfl
      ((hok.eraseSync _).applyPendingSession _ fun _ => rfl)
  | modelFailed model error =>
    rw [handleDaemonMessage, withSync_of_slot hslot]
    exact responds_eraseSync ⟨_, rfl⟩ rfl rfl rfl rfl
      ((hok.eraseSync .setModel).of_eq rfl fun _ => rfl)
  | effortSet effort =>
    rw [handleDaemonMessage, withSync_of_slot hslot]
    exact responds_eraseSync ⟨_, rfl⟩ rfl rfl rfl rfl
      ((hok.eraseSync _).applyPendingSession _ fun _ => rfl)
  | effortFailed effort error =>
    rw [handleDaemonMessage, withSync_of_slot hslot]
    exact responds_eraseSync ⟨_, rfl⟩ rfl rfl rfl rfl
      ((hok.eraseSync .setReasoningEffort).of_eq rfl fun _ => rfl)
  | ended requestId ending =>
    obtain ⟨prompt, hfind, rfl⟩ := map_eq_some_iff.1 hslot
    obtain ⟨hlookup, rfl⟩ := (findByRequestId_eq_some_iff hok).1 hfind
    rcases ending with usage | error | _ <;>
      rw [Ending.event, handleDaemonMessage, handleStreaming, hfind] <;>
      exact sendTerminalResponse_spec hok hlookup _ _

theorem handleModels_spec (hok : PromptsOk b) {id : ℕ} (hslot : b.slot .models = some id)
    (selectedModel : Option String) :
    (handleModels b selectedModel).out = [] ∧
    (handleModels b selectedModel).sent.filterMap owedFor = [(.sync .createSession, id)] ∧
    (∀ s, (handleModels b selectedModel).bridge.slot s = Function.update
      (Function.update b.slot .models none) (.sync .createSession) (some id) s) ∧
    PromptsOk (handleModels b selectedModel).bridge := by
  obtain ⟨pending, hpending, rfl⟩ := map_eq_some_iff.1 hslot
  rw [handleModels, hpending]
  refine ⟨rfl, rfl, fun s => ?_, hok.of_eq rfl fun _ => rfl⟩
  dsimp only
  rw [slot_insertSync]
  congr 1
  ext s
  rcases s with _ | kind | requestId
  · rw [Function.update_self]
    rfl
  · rfl
  · rfl

theorem sent_withSync {handle : Bridge → ℕ → Outcome}
    (h : ∀ b id, (handle b id).sent = []) : (withSync b kind handle).sent = [] := by
  rw [withSync]
  split
  · exact h _ _
  · rfl

theorem sent_handleStreaming {requestId : ℕ} {handle : ActivePrompt → Outcome}
    (h : ∀ prompt, (handle prompt).sent = []) : (handleStreaming b requestId handle).sent = [] := by
  rw [handleStreaming]
  split
  · exact h _
  · rfl

/-- The bridge sends something only for the messages that continue a request. -/
theorem sent_eq_nil_of_not_continues {slot : Option Slot}
    (h : Fits slot message) (hcont : continues b message = false) :
    (handleDaemonMessage b message).sent = [] := by
  have hmodels : ∀ selectedModel, b.pending.modelsPending.isSome = false →
      (handleModels b selectedModel).sent = [] := by
    intro selectedModel hnone
    rw [handleModels, isSome_eq_false_iff.1 hnone |> isNone_iff_eq_none.1]
    exact sent_withSync fun _ _ => rfl
  cases h with
  | models models selectedModel | modelSet models selectedModel => exact hmodels selectedModel hcont
  | created sessionId =>
    have hnone : b.pending.sync.lookup .createSession = none := by
      simpa [continues, Bridge.slot] using hcont
    rw [handleDaemonMessage, handleSessionCreated, withSync, hnone]
  | streamed kind requestId => exact sent_handleStreaming fun _ => rfl
  | ended requestId ending =>
    rcases ending with usage | error | _
    · exact sent_handleStreaming fun _ => rfl
    · exact sent_handleStreaming fun _ => rfl
    · exact sent_handleStreaming fun _ => rfl
  | modelSelected model | attached sessionId | attachFailed error => rfl
  | _ => exact sent_withSync fun _ _ => rfl

end Replies

/-! ### Steps -/

/-- The order in which replies come: a new session does not ask for the models while a model is being
set, nor while the daemon creates another one. -/
def Before (slot slot' : Slot) : Prop :=
  ¬ (slot = .sync .setModel ∧ slot' = .models) ∧ ¬ (slot = .models ∧ slot' = .sync .createSession)

/-- The table of the bridge is what the daemon owes, the replies come in an order that the bridge can
follow, and the requests are counted. -/
structure Coherent (w : World) : Prop where
  table : Represents w.bridge.slot w.owed
  order : (w.inOrder.map Prod.fst).Pairwise Before
  fits : ∀ item ∈ w.inbox, Fits item.settles item.message
  prompts : PromptsOk w.bridge
  fresh : w.received.Nodup
  counted : ∀ id, w.answerIds.count id + w.openIds.count id = w.received.count id
  asked : ∀ id ∈ w.asking, id ∈ w.received
  own : ∀ entry ∈ w.answers, entry.1.IsOf w.asking entry.2.id
  settled : w.status = .disconnected → w.owed = []

theorem before_prompt_left (requestId : ℕ) (slot : Slot) : Before (.prompt requestId) slot := by
  simp [Before]

theorem before_prompt_right (slot : Slot) (requestId : ℕ) : Before slot (.prompt requestId) := by
  simp [Before]

theorem coherent_init : Coherent {} where
  table := Represents.empty.congr fun slot => by rcases slot with _ | kind | requestId <;> rfl
  order := List.Pairwise.nil
  fits := by simp
  prompts := ⟨by simp [AList.lookup_empty], by simp [AList.lookup_empty],
    by simp [AList.lookup_empty]⟩
  fresh := nodup_nil
  counted := fun _ => rfl
  asked := by simp
  own := by simp
  settled := by simp

theorem take_eq (h : outcome.sent = [] ∨ w.writerOpen = true) (cause : Cause) :
    w.take cause outcome =
      { w with
        bridge := outcome.bridge
        queue := w.queue ++ outcome.sent
        answers := w.answers ++ outcome.out.map fun response => (cause, response) } := by
  rw [World.take, if_neg]
  rintro ⟨hne, hopen⟩
  rcases h with h | h
  · exact hne h
  · rw [h] at hopen
    exact Bool.noConfusion hopen

theorem nodup_concat_of_notMem {l : List ℕ} {id : ℕ} (h : l.Nodup) (hnew : id ∉ l) :
    (l ++ [id]).Nodup :=
  (nodup_cons.2 ⟨hnew, h⟩).perm (perm_append_singleton id l).symm

theorem own_append (h : ∀ entry ∈ w.answers, entry.1.IsOf w.asking entry.2.id) {cause : Cause}
    {response : JsonRpcResponse} (hcause : cause.IsOf w.asking response.id) :
    ∀ entry ∈ w.answers ++ [response].map fun response => (cause, response),
      entry.1.IsOf w.asking entry.2.id := by
  intro entry hentry
  rcases mem_append.1 hentry with hold | hnew
  · exact h entry hold
  · rw [map_cons, map_nil, mem_singleton] at hnew
    rw [hnew]
    exact hcause

theorem pairwise_append_slot {l : List (Slot × ℕ)} {slot : Slot} {id : ℕ}
    (h : (l.map Prod.fst).Pairwise Before) (hslot : ∀ a ∈ l.map Prod.fst, Before a slot) :
    ((l ++ [(slot, id)]).map Prod.fst).Pairwise Before := by
  rw [map_append, pairwise_append]
  refine ⟨h, pairwise_singleton _ _, fun a ha b hb => ?_⟩
  rw [map_cons, map_nil, mem_singleton] at hb
  exact hb ▸ hslot a ha

theorem perm_owed_append {entry : Slot × ℕ} (l m : List (Slot × ℕ)) :
    (l ++ m ++ [entry]).Perm (l ++ [entry] ++ m) := by
  rw [append_assoc, append_assoc]
  exact List.Perm.append_left l perm_append_comm

theorem Coherent.only (h : Coherent w) : ∀ id ∈ w.answerIds, id ∈ w.received := by
  intro id hid
  have hpos : 0 < w.answerIds.count id := count_pos_iff.2 hid
  have := h.counted id
  exact count_pos_iff.1 (by omega)

/-- A request that is answered at once. -/
theorem Coherent.answer (h : Coherent w) (hstatus : w.status = .running) {id : ℕ}
    (hnew : id ∉ w.received) (hspec : Responds w.bridge id none outcome) :
    Coherent (({ w with received := w.received ++ [id] }).take (.request id) outcome) := by
  obtain ⟨body, hout⟩ := hspec.out
  rw [take_eq (Or.inl (hspec.atOnce rfl)), hspec.atOnce rfl, hout]
  simp only [append_nil]
  refine ⟨h.table.congr fun s => ?_, h.order, h.fits, hspec.prompts,
    nodup_concat_of_notMem h.fresh hnew, fun a => ?_,
    fun a ha => mem_append_left _ (h.asked a ha),
    own_append h.own ⟨rfl, fun hmem => hnew (h.asked id hmem)⟩, fun hd => ?_⟩
  · rw [hspec.table]
    rfl
  · have := h.counted a
    simp only [World.answerIds, World.openIds, World.owed, World.inOrder, count_append,
      map_append, map_cons, map_nil] at this ⊢
    omega
  · rw [hstatus] at hd
    exact absurd hd (by simp)

/-- A request that waits for a reply. -/
theorem Coherent.forward (h : Coherent w) (hstatus : w.status = .running) {id : ℕ}
    (hnew : id ∉ w.received) {slot : Slot}
    (hspec : Forwards w.bridge id slot outcome) (hfree : w.bridge.slot slot = none)
    (hbefore : ∀ a ∈ w.inOrder.map Prod.fst, Before a slot) (hopen : w.writerOpen = true) :
    Coherent (({ w with
      received := w.received ++ [id], asking := w.asking ++ [id] }).take (.request id) outcome) := by
  rw [take_eq (w := { w with received := w.received ++ [id], asking := w.asking ++ [id] })
    (Or.inr hopen), hspec.out]
  simp only [map_nil, append_nil]
  refine ⟨?_, ?_, h.fits, hspec.prompts, nodup_concat_of_notMem h.fresh hnew, fun a => ?_,
    fun a ha => ?_, fun entry hentry => ?_, fun hd => ?_⟩
  · refine ((h.table.enter hfree id).congr hspec.table).perm ?_
    simp only [World.owed, World.inOrder, filterMap_append, hspec.sent]
    rw [← append_assoc]
    exact perm_owed_append _ _
  · simp only [World.inOrder, filterMap_append, hspec.sent]
    rw [← append_assoc]
    exact pairwise_append_slot h.order hbefore
  · have := h.counted a
    simp only [World.answerIds, World.openIds, World.owed, World.inOrder, count_append,
      map_append, filterMap_append, hspec.sent, map_cons, map_nil] at this ⊢
    omega
  · exact (mem_append.1 ha).elim (fun hold => mem_append_left _ (h.asked a hold))
      (mem_append_right _)
  · have hown := h.own entry hentry
    have hmem := h.only entry.2.id (List.mem_map_of_mem hentry)
    obtain ⟨cause, response⟩ := entry
    cases cause with
    | request id' =>
      refine ⟨hown.1, fun hasking => ?_⟩
      rcases mem_append.1 hasking with hold | hthis
      · exact hown.2 hold
      · exact hnew (mem_singleton.1 hthis ▸ hmem)
    | notification | reply | disconnect => exact hown
  · rw [hstatus] at hd
    exact absurd hd (by simp)

/-- Nothing is lost when the bridge stays the same and what is owed changes its order. -/
theorem Coherent.of_perm {w' : World} (h : Coherent w) (hbridge : w'.bridge = w.bridge)
    (howed : w.owed.Perm w'.owed) (horder : (w'.inOrder.map Prod.fst).Pairwise Before)
    (hfits : ∀ item ∈ w'.inbox, Fits item.settles item.message)
    (hreceived : w'.received = w.received) (hanswers : w'.answers = w.answers)
    (hstatus : w'.status ≠ .disconnected) (hasking : w'.asking = w.asking := by rfl) :
    Coherent w' := by
  refine ⟨?_, horder, hfits, ?_, ?_, fun id => ?_, ?_, ?_, fun hd => absurd hd hstatus⟩
  · rw [hbridge]
    exact h.table.perm howed
  · rw [hbridge]
    exact h.prompts
  · rw [hreceived]
    exact h.fresh
  · rw [World.answerIds, World.openIds, ← (howed.map Prod.snd).count_eq, hanswers, hreceived]
    exact h.counted id
  · rw [hasking, hreceived]
    exact h.asked
  · rw [hanswers, hasking]
    exact h.own

theorem Coherent.of_same {w' : World} (h : Coherent w) (hbridge : w'.bridge = w.bridge)
    (hinOrder : w'.inOrder = w.inOrder) (hrunning : w'.running = w.running)
    (hfits : ∀ item ∈ w'.inbox, Fits item.settles item.message)
    (hreceived : w'.received = w.received) (hanswers : w'.answers = w.answers)
    (hstatus : w'.status ≠ .disconnected) (hasking : w'.asking = w.asking := by rfl) :
    Coherent w' := by
  refine h.of_perm hbridge ?_ ?_ hfits hreceived hanswers hstatus hasking
  · rw [World.owed, World.owed, hinOrder, hrunning]
  · rw [hinOrder]
    exact h.order

theorem Coherent.quiet (h : Coherent w) (hstatus : w.status = .running) {cause : Cause}
    {sent : List (ℕ × ClientMessage)} (hsent : sent.filterMap owedFor = [])
    (hopen : sent = [] ∨ w.writerOpen = true) :
    Coherent (w.take cause { bridge := w.bridge, sent := sent }) := by
  rw [take_eq hopen]
  refine h.of_same rfl ?_ rfl h.fits rfl (append_nil _) (by simp [hstatus])
  simp only [World.inOrder, filterMap_append, hsent, append_nil]

/-- The daemon takes a message. -/
theorem Coherent.handle (h : Coherent w) (hstatus : w.status = .running) {origin : ℕ}
    {msg : ClientMessage} {rest : List (ℕ × ClientMessage)} (hqueue : w.queue = (origin, msg) :: rest)
    {verdict : Verdict}
    (hverdict : msg.slot = some .models ∨ msg.slot = some (.sync .createSession) →
      verdict.error = none) : Coherent (w.handle origin msg rest verdict) := by
  have hfits : ∀ item ∈ (w.handle origin msg rest verdict).inbox,
      Fits item.settles item.message := by
    intro item hitem
    rcases mem_append.1 hitem with hold | hnew
    · exact h.fits item hold
    · exact fits_deliveries hverdict origin item hnew
  have hnot : (w.handle origin msg rest verdict).status ≠ .disconnected := by
    simp [World.handle, hstatus]
  rcases hruns : msg.runs with _ | requestId
  · -- the place of the message moves from the end of the inbox to the head of the queue, as it were
    refine h.of_same rfl ?_ ?_ hfits rfl rfl hnot
    · simp only [World.inOrder, World.handle, filterMap_append, owed_deliveries, hruns, hqueue,
        filterMap_cons, append_assoc]
      rcases owedFor (origin, msg) with _ | entry <;> simp
    · simp [World.handle, hruns]
  · obtain ⟨input, rfl⟩ : ∃ input, msg = .runInput requestId input := by
      rcases msg <;> simp [ClientMessage.runs] at hruns
      exact ⟨_, by rw [hruns]⟩
    refine h.of_perm rfl ?_ ?_ hfits rfl rfl hnot
    · have hentry : owedFor (origin, .runInput requestId input) =
          some (.prompt requestId, origin) := rfl
      simp only [World.owed, World.inOrder, World.handle, filterMap_append, owed_deliveries,
        hruns, hqueue, filterMap_cons, hentry, isSome_some, if_true, append_nil,
        map_some, toList_some, map_append, map_cons, map_nil]
      rw [append_assoc, append_assoc, cons_append, ← append_assoc _ _ [_]]
      exact List.Perm.append_left _ (perm_append_singleton _ _).symm
    · refine h.order.sublist (List.Sublist.map _ ?_)
      simp only [World.inOrder, World.handle, filterMap_append, owed_deliveries, hruns, hqueue,
        isSome_some, if_true, append_nil]
      exact List.Sublist.append_left (List.Sublist.filterMap _ (sublist_cons_self _ _)) _

/-- An input streams. -/
theorem Coherent.stream (h : Coherent w) (hstatus : w.status = .running) (origin requestId : ℕ)
    (kind : StreamKind) :
    Coherent { w with
      inbox := w.inbox ++ [⟨origin, none, .session none (.streamed kind requestId)⟩] } := by
  refine h.of_same rfl ?_ rfl ?_ rfl rfl (by simp [hstatus])
  · simp [World.inOrder, Delivery.owed]
  · intro item hitem
    rcases mem_append.1 hitem with hold | hnew
    · exact h.fits item hold
    · rw [mem_singleton.1 hnew]
      exact Fits.streamed kind requestId

theorem pairwise_insert_prompt {l m : List Slot} (h : (l ++ m).Pairwise Before) (requestId : ℕ) :
    (l ++ .prompt requestId :: m).Pairwise Before := by
  rw [pairwise_append] at h ⊢
  obtain ⟨hl, hm, hlm⟩ := h
  refine ⟨hl, pairwise_cons.2 ⟨fun a _ => before_prompt_left requestId a, hm⟩, ?_⟩
  intro a ha b hb
  rcases mem_cons.1 hb with rfl | hb
  · exact before_prompt_right a requestId
  · exact hlm a ha b hb

/-- An input ends. -/
theorem Coherent.finish (h : Coherent w) (hstatus : w.status = .running) {i : ℕ} {entry : ℕ × ℕ}
    (hentry : w.running[i]? = some entry) (ending : Ending) :
    Coherent { w with
      running := w.running.eraseIdx i
      inbox := w.inbox ++
        [⟨entry.2, some (.prompt entry.1), .session none (ending.event entry.1)⟩] } := by
  refine h.of_perm rfl ?_ ?_ ?_ rfl rfl (by simp [hstatus])
  · have hrunning : w.running.Perm (entry :: w.running.eraseIdx i) := by
      obtain ⟨hi, rfl⟩ := List.getElem?_eq_some_iff.1 hentry
      exact (getElem_cons_eraseIdx_perm hi).symm
    simp only [World.owed, World.inOrder, filterMap_append, Delivery.owed, filterMap_cons,
      filterMap_nil, map_some, append_assoc]
    refine List.Perm.append_left _ ?_
    refine (List.Perm.append_left _ (hrunning.map _)).trans ?_
    rw [map_cons]
    exact perm_middle
  · have horder := h.order
    simp only [World.inOrder, map_append] at horder
    simp only [World.inOrder, filterMap_append, Delivery.owed, filterMap_cons,
      filterMap_nil, map_some, append_assoc, map_append, map_cons]
    exact pairwise_insert_prompt horder entry.1
  · intro item hitem
    rcases mem_append.1 hitem with hold | hnew
    · exact h.fits item hold
    · rw [mem_singleton.1 hnew]
      exact Fits.ended entry.1 ending

section Deliver

variable {item : Delivery} {rest : List Delivery}

theorem inOrder_of_inbox (hinbox : w.inbox = item :: rest) :
    w.inOrder = item.owed.toList ++ ({ w with inbox := rest }).inOrder := by
  rw [World.inOrder, hinbox, World.inOrder, filterMap_cons]
  rcases item.owed with _ | entry <;> rfl

/-- The bridge ignores a message. -/
theorem Coherent.ignore (h : Coherent w) (hstatus : w.status = .running)
    (hinbox : w.inbox = item :: rest) (hsettles : item.settles = none) :
    Coherent { w with inbox := rest } := by
  refine h.of_same rfl ?_ rfl ?_ rfl rfl (by simp [hstatus])
  · rw [inOrder_of_inbox hinbox, Delivery.owed, hsettles]
    rfl
  · intro other hother
    exact h.fits other (hinbox ▸ mem_cons_of_mem _ hother)

theorem Coherent.settle (h : Coherent w) (hstatus : w.status = .running)
    (hinbox : w.inbox = item :: rest) {slot : Slot} (hsettles : item.settles = some slot)
    {outcome : Outcome} (hspec : Responds w.bridge item.origin (some slot) outcome)
    (hopen : outcome.sent = [] ∨ w.writerOpen = true) :
    Coherent (({ w with inbox := rest }).take (.reply item.origin) outcome) := by
  obtain ⟨body, hout⟩ := hspec.out
  have hinOrder := inOrder_of_inbox hinbox
  rw [Delivery.owed, hsettles] at hinOrder
  have howed : w.owed = (slot, item.origin) :: ({ w with inbox := rest }).owed := by
    rw [World.owed, hinOrder]
    rfl
  have hinOrder' : ∀ w' : World, w'.inbox = rest → w'.queue = w.queue ++ outcome.sent →
      w'.inOrder = ({ w with inbox := rest }).inOrder := by
    intro w' h1 h2
    rw [World.inOrder, World.inOrder, h1, h2, filterMap_append, hspec.sent, append_nil]
  have hsettled : Represents outcome.bridge.slot ({ w with inbox := rest }).owed := by
    refine (Represents.settle (howed ▸ h.table)).congr fun s => ?_
    rw [hspec.table, Function.update_apply]
    simp only [some.injEq]
  rw [take_eq (w := { w with inbox := rest }) hopen, hout]
  set w' : World := { w with
    inbox := rest
    bridge := outcome.bridge
    queue := w.queue ++ outcome.sent
    answers := w.answers ++ [JsonRpcResponse.mk item.origin body].map fun response =>
      (Cause.reply item.origin, response) } with hw'
  have howed' : w'.owed = ({ w with inbox := rest }).owed := by
    rw [World.owed, World.owed, hinOrder' w' rfl rfl]
  refine ⟨?_, ?_, ?_, hspec.prompts, h.fresh, fun a => ?_, h.asked, own_append h.own rfl,
    fun hd => ?_⟩
  · rw [howed']
    exact hsettled
  · rw [hinOrder' w' rfl rfl]
    have horder := h.order
    rw [hinOrder] at horder
    exact (pairwise_cons.1 horder).2
  · intro other hother
    exact h.fits other (hinbox ▸ mem_cons_of_mem _ hother)
  · have := h.counted a
    rw [World.openIds, howed] at this
    rw [World.openIds, howed']
    simp only [World.answerIds, hw', map_append, map_cons, map_nil,
      count_append, count_cons, count_nil] at this ⊢
    omega
  · rw [hw', hstatus] at hd
    exact absurd hd (by simp)

theorem Coherent.slot_createSession (h : Coherent w) (hinbox : w.inbox = item :: rest)
    (hsettles : item.settles = some .models) : w.bridge.slot (.sync .createSession) = none := by
  have hinOrder := inOrder_of_inbox hinbox
  rw [Delivery.owed, hsettles] at hinOrder
  have horder := h.order
  rw [hinOrder] at horder
  rcases hslot : w.bridge.slot (.sync .createSession) with _ | id
  · rfl
  · have hmem := (h.table.mem_iff (.sync .createSession) id).2 hslot
    rw [World.owed, hinOrder] at hmem
    rcases mem_append.1 hmem with hmem | hmem
    · rcases mem_cons.1 hmem with heq | hmem
      · simp at heq
      · have := (pairwise_cons.1 horder).1 _ (List.mem_map_of_mem hmem)
        exact absurd ⟨rfl, rfl⟩ this.2
    · simp at hmem

/-- The bridge goes on with a request for a session. -/
theorem Coherent.proceed (h : Coherent w) (hstatus : w.status = .running)
    (hinbox : w.inbox = item :: rest) (hsettles : item.settles = some .models)
    (selectedModel : Option String) (hopen : w.writerOpen = true) :
    Coherent (({ w with inbox := rest }).take (.reply item.origin)
      (handleModels w.bridge selectedModel)) := by
  have hinOrder := inOrder_of_inbox hinbox
  rw [Delivery.owed, hsettles] at hinOrder
  have howed : w.owed = (.models, item.origin) :: ({ w with inbox := rest }).owed := by
    rw [World.owed, hinOrder]
    rfl
  have htable := howed ▸ h.table
  obtain ⟨hout, hsent, hslots, hprompts⟩ :=
    handleModels_spec h.prompts htable.get_head selectedModel
  have hfree : Function.update w.bridge.slot .models none (.sync .createSession) = none := by
    rw [Function.update_of_ne (by simp)]
    exact h.slot_createSession hinbox hsettles
  rw [take_eq (w := { w with inbox := rest }) (Or.inr hopen), hout]
  simp only [map_nil, append_nil]
  refine ⟨?_, ?_, ?_, hprompts, h.fresh, fun a => ?_, h.asked, h.own, fun hd => ?_⟩
  · refine ((htable.settle.enter hfree item.origin).congr hslots).perm ?_
    simp only [World.owed, World.inOrder, filterMap_append, hsent]
    rw [← append_assoc]
    exact perm_owed_append _ _
  · simp only [World.inOrder, filterMap_append, hsent]
    rw [← append_assoc]
    have horder := h.order
    rw [hinOrder] at horder
    refine pairwise_append_slot (pairwise_cons.1 horder).2 fun a ha => ?_
    refine ⟨by simp, fun hmodels => ?_⟩
    have hnodup := htable.nodup
    rw [map_cons, nodup_cons, World.owed, map_append] at hnodup
    exact hnodup.1 (mem_append_left _ (hmodels.1 ▸ ha))
  · intro other hother
    exact h.fits other (hinbox ▸ mem_cons_of_mem _ hother)
  · have := h.counted a
    rw [World.openIds, howed] at this
    simp only [World.answerIds, World.openIds, World.owed, World.inOrder, count_append,
      map_append, filterMap_append, hsent, map_cons, map_nil, count_cons,
      count_nil] at this ⊢
    omega
  · rw [hstatus] at hd
    exact absurd hd (by simp)

end Deliver

/-! ### The end of the daemon -/

/-- The entries of the table. -/
def Bridge.entries (b : Bridge) : List (Slot × ℕ) :=
  (b.pending.prompts.entries.map fun entry => (.prompt entry.2.daemonRequestId, entry.2.jsonrpcId)) ++
    (b.pending.sync.entries.map fun entry => (.sync entry.1, entry.2)) ++
    (b.pending.modelsPending.map fun pending => (.models, pending.jsonrpcId)).toList

theorem mem_entries_iff (h : PromptsOk b) (slot : Slot) (id : ℕ) :
    (slot, id) ∈ b.entries ↔ b.slot slot = some id := by
  rcases slot with _ | kind | requestId
  · simp [Bridge.entries, Bridge.slot]
  · have : b.slot (.sync kind) = some id ↔ ⟨kind, id⟩ ∈ b.pending.sync.entries :=
      AList.mem_lookup_iff
    rw [this]
    simp [Bridge.entries]
  · rw [slot_prompt_eq_some_iff h]
    have : (∃ acpId prompt, b.pending.prompts.lookup acpId = some prompt ∧
        prompt.daemonRequestId = requestId ∧ prompt.jsonrpcId = id) ↔
        ∃ entry ∈ b.pending.prompts.entries, entry.2.daemonRequestId = requestId ∧
          entry.2.jsonrpcId = id :=
      ⟨fun ⟨acpId, prompt, hlookup, hprompt⟩ =>
        ⟨⟨acpId, prompt⟩, AList.mem_lookup_iff.1 hlookup, hprompt⟩,
        fun ⟨⟨acpId, prompt⟩, hmem, hprompt⟩ =>
        ⟨acpId, prompt, AList.mem_lookup_iff.2 hmem, hprompt⟩⟩
    rw [this]
    simp [Bridge.entries]

theorem represents_entries (h : PromptsOk b) : Represents b.slot b.entries := by
  refine ⟨?_, mem_entries_iff h⟩
  have hprompts : (b.pending.prompts.entries.map fun entry =>
      Slot.prompt entry.2.daemonRequestId).Nodup := by
    refine List.Nodup.map_on ?_ b.pending.prompts.nodupKeys.nodup
    intro entry hentry entry' hentry' heq
    have hkey := h.distinct _ _ _ _ (AList.mem_lookup_iff.2 hentry)
      (AList.mem_lookup_iff.2 hentry') (by simpa using heq)
    exact b.pending.prompts.nodupKeys.eq_of_fst_eq hentry hentry' hkey
  have hsync : (b.pending.sync.entries.map fun entry => Slot.sync entry.1).Nodup := by
    have hkeys : (b.pending.sync.entries.map Sigma.fst).Nodup := b.pending.sync.nodupKeys
    have := hkeys.map (f := Slot.sync) fun a a' heq => by simpa using heq
    rwa [List.map_map] at this
  simp only [Bridge.entries, map_append, List.map_map, Function.comp_def]
  rw [nodup_append, nodup_append]
  refine ⟨⟨hprompts, hsync, fun a ha b hb => ?_⟩, ?_, fun a ha b hb => ?_⟩
  · obtain ⟨entry, -, rfl⟩ := List.mem_map.1 ha
    obtain ⟨entry', -, rfl⟩ := List.mem_map.1 hb
    simp
  · rcases b.pending.modelsPending with _ | pending <;> simp
  · obtain ⟨entry', hentry', rfl⟩ := List.mem_map.1 hb
    obtain ⟨pending, -, rfl⟩ := map_eq_some_iff.1 (mem_toList.1 hentry')
    rcases mem_append.1 ha with ha | ha <;> obtain ⟨entry, -, rfl⟩ := List.mem_map.1 ha <;>
      simp

theorem Coherent.disconnect (h : Coherent w) : Coherent w.disconnect := by
  have hout : (handleDisconnect w.bridge).out.map JsonRpcResponse.id =
      w.bridge.entries.map Prod.snd := by
    rcases hmodels : w.bridge.pending.modelsPending with _ | pending <;>
      simp [handleDisconnect, Bridge.entries, Function.comp_def, hmodels]
  have hopen : w.openIds.Perm (w.bridge.entries.map Prod.snd) :=
    (h.table.perm_of_entries (represents_entries h.prompts)).map Prod.snd
  refine ⟨?_, List.Pairwise.nil, by simp [World.disconnect], ?_, h.fresh, fun a => ?_, h.asked, ?_,
    fun _ => rfl⟩
  · refine Represents.empty.congr fun slot => ?_
    rcases slot with _ | kind | requestId <;> rfl
  · exact ⟨by simp [World.disconnect, handleDisconnect, AList.lookup_empty],
      by simp [World.disconnect, handleDisconnect, AList.lookup_empty],
      by simp [World.disconnect, handleDisconnect, AList.lookup_empty]⟩
  · have := h.counted a
    rw [hopen.count_eq, ← hout] at this
    simp only [World.disconnect, World.answerIds, World.openIds, World.owed, World.inOrder,
      map_append, List.map_map, Function.comp_def, count_append, filterMap_nil,
      map_nil, append_nil, count_nil] at this ⊢
    omega
  · intro entry hentry
    rcases mem_append.1 hentry with hold | hnew
    · exact h.own entry hold
    · obtain ⟨response, -, rfl⟩ := List.mem_map.1 hnew
      trivial

/-! ### Runs -/

/-- What the bridge does with a message of the editor. -/
theorem Coherent.acp (h : Coherent w) (hstatus : w.status = .running) {msg : RpcMessage}
    (horderly : Orderly packages (.acp msg) w) :
    Coherent (({ w with
      received := w.received ++ msg.id?.toList
      asking := w.asking ++ (askingId packages w.bridge msg).toList }).take (causeOf msg)
        (handleAcp packages w.bridge msg)) := by
  rcases msg with req | ⟨method, params⟩
  · obtain ⟨hnew, hslots⟩ := horderly
    rw [show (RpcMessage.request req).id?.toList = [req.id] from rfl, handleAcp]
    split_ifs with hinit hmethod
    · rcases handleRequest_spec h.prompts fun slot hslot => (hslots hinit slot hslot).1 with
        ⟨hwaits, hspec⟩ | ⟨slot, hwaits, hspec⟩
      · have hnone : (askingId packages w.bridge (.request req)).toList = [] := by
          simp [askingId, hwaits]
        rw [hnone, append_nil]
        exact h.answer hstatus hnew hspec
      · obtain ⟨hfree, hset, hopen⟩ := hslots hinit slot hwaits
        have hasking : (askingId packages w.bridge (.request req)).toList = [req.id] := by
          simp [askingId, hinit, hwaits]
        rw [hasking]
        refine h.forward hstatus hnew hspec hfree (fun a ha => ⟨?_, ?_⟩) hopen
        · rintro ⟨rfl, hmodels⟩
          refine h.table.key_notMem (hset hmodels) ?_
          rw [World.owed, map_append]
          exact mem_append_left _ ha
        · rintro ⟨-, rfl⟩
          exact waitsFor_ne_createSession hwaits
    · have hnone : (askingId packages w.bridge (.request req)).toList = [] := by
        simp [askingId, hinit]
      rw [hnone, append_nil]
      refine h.answer hstatus hnew ⟨⟨_, rfl⟩, rfl, fun _ => rfl, fun s => ?_, ?_⟩
      · exact slot_congr rfl rfl rfl s
      · exact h.prompts.of_eq rfl fun _ => rfl
    · have hnone : (askingId packages w.bridge (.request req)).toList = [] := by
        simp [askingId, hinit]
      rw [hnone, append_nil]
      exact h.answer hstatus hnew (responds_respondErr h.prompts _ _ _)
  · obtain ⟨hinit, hcancel⟩ := horderly
    rw [show ({ w with
        received := w.received ++ (RpcMessage.notification method params).id?.toList
        asking := w.asking ++
          (askingId packages w.bridge (RpcMessage.notification method params)).toList }) = w by
      simp [RpcMessage.id?, askingId], handleAcp]
    split_ifs with hb hmethod
    · rw [handleNotification]
      split_ifs with hmethod
      · rcases hlookup : w.bridge.pending.prompts.lookup ((params.bind packages.cancel).getD "") with
          _ | prompt
        · exact h.quiet hstatus rfl (Or.inl rfl)
        · exact h.quiet hstatus rfl (Or.inr (hcancel hmethod (by simp [hlookup])))
      · exact h.quiet hstatus rfl (Or.inl rfl)
    · exact h.quiet hstatus rfl (Or.inl rfl)
    · exact absurd (hinit (by simpa using hb)) hmethod

/-- What the bridge does with a message of the daemon. -/
theorem Coherent.deliver (h : Coherent w) (hstatus : w.status = .running) {item : Delivery}
    {rest : List Delivery} (hinbox : w.inbox = item :: rest)
    (horderly : Orderly packages .deliver w) :
    Coherent (({ w with inbox := rest }).take (.reply item.origin)
      (handleDaemonMessage w.bridge item.message)) := by
  obtain ⟨heffort, hname, hopen⟩ := horderly item (by simp [hinbox])
  have hfits := h.fits item (by simp [hinbox])
  rcases hsettles : item.settles with _ | slot
  · rw [hsettles] at hfits
    rw [handleDaemonMessage_of_fits_none hfits (heffort hsettles)]
    exact (h.ignore hstatus hinbox hsettles).quiet hstatus rfl (Or.inl rfl)
  · have hinOrder := inOrder_of_inbox hinbox
    rw [Delivery.owed, hsettles] at hinOrder
    have hslot : w.bridge.slot slot = some item.origin := by
      refine (h.table.mem_iff slot item.origin).1 ?_
      rw [World.owed, hinOrder]
      exact mem_cons_self
    rw [hsettles] at hfits
    have hwriter : (handleDaemonMessage w.bridge item.message).sent = [] ∨ w.writerOpen = true := by
      rcases hcont : continues w.bridge item.message
      · exact Or.inl (sent_eq_nil_of_not_continues hfits hcont)
      · exact Or.inr (hopen hcont)
    by_cases hmodels : slot = .models
    · subst hmodels
      rcases hmessage : item.message with ⟨models, selectedModel⟩ | _ | _ | _ <;>
        rw [hmessage] at hfits hopen <;> cases hfits
      refine h.proceed hstatus hinbox hsettles selectedModel (hopen ?_)
      have : (w.bridge.pending.modelsPending.map ModelsPending.jsonrpcId).isSome = true := by
        rw [show w.bridge.pending.modelsPending.map _ = _ from hslot]
        rfl
      simpa [continues] using this
    · refine h.settle hstatus hinbox hsettles ?_ hwriter
      refine handleDaemonMessage_of_fits h.prompts hfits hslot hmodels ?_ fun hs => hname (hs ▸ hsettles)
      rintro rfl
      -- the models that a session waits for would have come first
      rcases hnone : w.bridge.slot .models with _ | id
      · rfl
      · have hmem := (h.table.mem_iff .models id).2 hnone
        have horder := h.order
        rw [hinOrder] at horder
        rw [World.owed, hinOrder] at hmem
        rcases mem_append.1 hmem with hmem | hmem
        · rcases mem_cons.1 hmem with heq | hmem
          · simp at heq
          · have := (pairwise_cons.1 horder).1 _ (List.mem_map_of_mem hmem)
            exact absurd ⟨rfl, rfl⟩ this.1
        · simp at hmem

/-- Along orderly steps the table of the bridge is what the daemon owes. -/
theorem Coherent.of_step (h : Coherent w) {label : Label} {w' : World}
    (horderly : Orderly packages label w) (hstep : step packages label w = some w') :
    Coherent w' := by
  rw [step.eq_def] at hstep
  split_ifs at hstep with hstatus
  rw [not_not] at hstatus
  rcases label with msg | verdict | ⟨i, kind⟩ | ⟨i, ending⟩ | _ | _ | _ | _
  · rw [← some.inj hstep]
    exact h.acp hstatus horderly
  · rcases hqueue : w.queue with _ | ⟨⟨origin, msg⟩, rest⟩
    · simp [hqueue] at hstep
    · simp only [hqueue, some.injEq] at hstep
      rw [← hstep]
      exact h.handle hstatus hqueue (horderly (origin, msg) (by simp [hqueue]))
  · obtain ⟨entry, -, rfl⟩ := map_eq_some_iff.1 hstep
    exact h.stream hstatus entry.2 entry.1 kind
  · obtain ⟨entry, hentry, rfl⟩ := map_eq_some_iff.1 hstep
    exact h.finish hstatus hentry ending
  · rcases hinbox : w.inbox with _ | ⟨item, rest⟩
    · simp [hinbox] at hstep
    · simp only [hinbox, some.injEq] at hstep
      rw [← hstep]
      exact h.deliver hstatus hinbox horderly
  · rw [← some.inj hstep]
    exact h.of_same rfl rfl rfl h.fits rfl rfl (by simp [hstatus])
  · rw [← some.inj hstep]
    exact h.disconnect
  · rw [← some.inj hstep]
    exact h.of_same rfl rfl rfl h.fits rfl rfl (by simp)

theorem Coherent.answered (h : Coherent w) : Answered w where
  once := fun id hid => by
    rw [h.counted id]
    exact count_eq_one_of_mem h.fresh hid
  only := h.only
  own := h.own
  settled := fun hd => by rw [World.openIds, h.settled hd]; rfl

/-- In every run whose steps are orderly, every request has exactly one response or waits for a reply
that the daemon owes, every response comes from the reply to its request, and a disconnect answers
all that is open. -/
theorem answered_of_orderly (packages : Packages) {schedule : List Label} {w : World}
    (hrun : StepSystem.run (step packages) schedule {} = some w)
    (horderly : StepSystem.Along (step packages) (Orderly packages) schedule {}) : Answered w := by
  refine Coherent.answered ?_
  refine StepSystem.invariant_of_along (I := Coherent) ?_ coherent_init horderly hrun
  intro label w w' hlabel hcoherent hstep
  exact hcoherent.of_step hlabel hstep


namespace Sample

/-- Packages that read no parameters. -/
def noParams : Packages where
  newSessionMetadata := fun _ => none
  loadSession := fun _ => none
  deleteSession := fun _ => none
  closeSession := fun _ => none
  setConfigOption := fun _ => none
  promptRequest := fun _ => none
  cancel := fun _ => none
  toStr := fun _ => ""
  toLowercase := id

/-- A request without parameters. -/
def request (id : ℕ) (method : String) : Label := .acp (.request { id := id, method := method })

/-- A list of sessions is asked for, then the daemon goes away. -/
def oneList : List Label :=
  [request 1 "initialize", request 2 "session/list", .handle {}, .deliver, .disconnect]

/-- Two lists of sessions are asked for before the first answer comes. -/
def twoLists : List Label :=
  [request 1 "initialize", request 2 "session/list", request 3 "session/list", .handle {}, .handle {},
    .deliver, .deliver]

theorem answered_oneList :
    StepSystem.Along (step noParams) (Orderly noParams) oneList {} ∧
      ∃ w, StepSystem.run (step noParams) oneList {} = some w ∧ Answered w := by
  have horderly : StepSystem.Along (step noParams) (Orderly noParams) oneList {} := by
    refine ⟨⟨by simp, by simp⟩, ⟨by decide, fun _ slot hslot => ?_⟩, ?_, ?_, trivial, trivial⟩
    · cases hslot
      exact ⟨rfl, by simp, rfl⟩
    · intro entry hentry hslot
      rfl
    · intro item hitem
      cases hitem
      exact ⟨fun h => absurd h (by decide), fun h => absurd h (by decide),
        fun h => absurd h (by decide)⟩
  exact ⟨horderly, _, rfl, answered_of_orderly noParams rfl horderly⟩

/-- The first answer goes to the second request, and the first request has none. -/
theorem not_answered_twoLists :
    ∃ w, StepSystem.run (step noParams) twoLists {} = some w ∧ ¬ Answered w := by
  refine ⟨_, rfl, fun h => ?_⟩
  exact absurd (h.once 2 (by decide)) (by decide)

end Sample

end Acp

end Choreo
