import Choreo.Acp.Answers

/-!
# The session that a message reaches

A connection to the daemon is attached to one session at a time. The daemon applies settings, inputs
and cancellations to that session, and sends the end of an input only to who is attached to its
session (`choreo-daemon/src/server/connection.rs`). The bridge attaches when a session is created and
before every prompt, but neither before a setting nor before a cancellation
(`choreo-acp/src/acp_handler.rs`). With more than one session its messages can reach another session
than the one the editor names, and the end of a prompt can be missed.
-/

namespace Choreo

open List Option

namespace Acp

def ClientMessage.attachment : ClientMessage → Option ℕ
  | attachSession sessionId => some sessionId
  | _ => none

def ClientMessage.applies : ClientMessage → Bool
  | setModel _ | setReasoningEffort _ | runInput _ _ | cancel _ => true
  | _ => false

def RpcMessage.named (packages : Packages) : RpcMessage → Option String
  | request req =>
    if req.method = "session/prompt" then
      (req.params.bind packages.promptRequest).map PromptRequest.sessionId
    else (req.params.bind packages.setConfigOption).map SetConfigOptionRequest.sessionId
  | notification _ params => some ((params.bind packages.cancel).getD "")

/-- A message on its way to the daemon, and the session of the daemon that it is meant for. -/
structure Sent where
  message : ClientMessage
  target : Option ℕ

/-- An input that runs in a session of the daemon. -/
structure RunningInput where
  requestId : ℕ
  sessionId : ℕ

/-- The bridge, the messages that the daemon has not taken yet, the session that the connection is
attached to, the inputs that run, and the messages on their way to the bridge; and the session of the
daemon for every session that the editor was ever told about. -/
structure Connection where
  bridge : Bridge := {}
  toDaemon : List Sent := []
  attached : Option ℕ := none
  running : List RunningInput := []
  toBridge : List DaemonMessage := []
  sessionsOf : Map String ℕ := ∅

/-- What can happen: the editor sends a message; the daemon takes a message, says something, or ends
an input; the bridge takes a message of the daemon. -/
inductive ConnectionEvent
  | editor (msg : RpcMessage)
  | process
  | emit (message : DaemonMessage)
  | finish (i : ℕ) (ending : Ending)
  | deliver

namespace Connection

def starts (message : ClientMessage) (attached : Option ℕ) : List RunningInput :=
  match message.runs, attached with
  | some requestId, some sessionId => [⟨requestId, sessionId⟩]
  | _, _ => []

/-- The daemon refuses an input when the connection is not attached. -/
def refusals (message : ClientMessage) (attached : Option ℕ) : List DaemonMessage :=
  match message.runs, attached with
  | some requestId, none => [.session none (.failed requestId "no session attached")]
  | _, _ => []

def remember (message : DaemonMessage) (c : Connection) : Map String ℕ :=
  match message with
  | .session (some sessionId) .sessionCreated =>
    if (c.bridge.pending.sync.lookup .createSession).isSome then
      c.sessionsOf.insert c.bridge.sessions.nextAcpId sessionId
    else c.sessionsOf
  | _ => c.sessionsOf

variable (packages : Packages) (event : ConnectionEvent) (c : Connection)

/-- What happens at an event. -/
def step : Option Connection :=
  match event with
  | .editor msg =>
    let outcome := handleAcp packages c.bridge msg
    let target := (msg.named packages).bind c.sessionsOf.lookup
    some { c with
      bridge := outcome.bridge
      toDaemon := c.toDaemon ++ outcome.sent.map fun entry => ⟨entry.2, target⟩ }
  | .process =>
    match c.toDaemon with
    | [] => none
    | sent :: rest =>
      some { c with
        toDaemon := rest
        attached := sent.message.attachment.or c.attached
        running := c.running ++ starts sent.message c.attached
        toBridge := c.toBridge ++ refusals sent.message c.attached }
  | .emit message => some { c with toBridge := c.toBridge ++ [message] }
  | .finish i ending =>
    c.running[i]?.map fun input =>
      { c with
        running := c.running.eraseIdx i
        toBridge := c.toBridge ++
          if c.attached = some input.sessionId then
            [.session (some input.sessionId) (ending.event input.requestId)]
          else [] }
  | .deliver =>
    match c.toBridge with
    | [] => none
    | message :: rest =>
      let outcome := handleDaemonMessage c.bridge message
      some { c with
        bridge := outcome.bridge
        toDaemon := c.toDaemon ++ outcome.sent.map fun entry => ⟨entry.2, none⟩
        toBridge := rest
        sessionsOf := remember message c }

/-! ### Reaching the session -/

/-- The message that the daemon takes is applied to the session that was named, and the end of an
input is sent to the bridge. -/
def Reaches : Prop :=
  match event with
  | .process => ∀ sent ∈ c.toDaemon.head?, sent.message.applies = true →
      ∃ sessionId, c.attached = some sessionId ∧ sent.target = some sessionId
  | .finish i _ => ∀ input ∈ c.running[i]?, c.attached = some input.sessionId
  | _ => True

/-- The attachment after the messages on their way. -/
def attachedAfter (queue : List Sent) (attached : Option ℕ) : Option ℕ :=
  queue.foldl (fun attached sent => sent.message.attachment.or attached) attached

/-- The inputs that run or will have been started by the messages on their way. -/
def runningAfter : List Sent → Option ℕ → List RunningInput → List RunningInput
  | [], _, running => running
  | sent :: rest, attached, running =>
    runningAfter rest (sent.message.attachment.or attached)
      (running ++ starts sent.message attached)

/-- The session that the bridge attached to last. -/
def lastAttached : Option ℕ := attachedAfter c.toDaemon c.attached

/-- The inputs that have not ended. -/
def unfinished : List RunningInput :=
  runningAfter c.toDaemon c.attached c.running

/-- All inputs that have not ended run in one session. -/
def AllIn (sessionId : ℕ) : Prop :=
  ∀ input ∈ c.unfinished, input.sessionId = sessionId

def LastIs (acpId : String) : Prop :=
  ∃ sessionId, c.sessionsOf.lookup acpId = some sessionId ∧ c.lastAttached = some sessionId

/-- A step is steady if a setting or a cancellation names the session that the bridge attached to
last, and if a prompt or a new session comes while no input of another session is unfinished. -/
def Steady : Prop :=
  match event with
  | .editor (.request req) =>
    (req.method = "session/prompt" → ∀ prompt session,
      req.params.bind packages.promptRequest = some prompt →
        c.bridge.sessions.get prompt.sessionId = some session →
          session.activeRequest = none → c.AllIn session.daemonId) ∧
    (req.method = "session/set_config_option" → ∀ config,
      req.params.bind packages.setConfigOption = some config →
        c.bridge.sessions.get config.sessionId ≠ none →
          settingSlot packages config ≠ none → c.LastIs config.sessionId)
  | .editor (.notification method params) =>
    method = "session/cancel" →
      c.bridge.pending.prompts.lookup ((params.bind packages.cancel).getD "") ≠ none →
        c.LastIs ((params.bind packages.cancel).getD "")
  | .deliver => ∀ sessionId, c.toBridge.head? = some (.session (some sessionId) .sessionCreated) →
      c.bridge.pending.sync.lookup .createSession ≠ none → c.AllIn sessionId
  | _ => True

/-! ### Messages on their way -/

/-- Taking the messages in order, every message is applied to the session it is meant for, and the
connection stays attached to the sessions of the inputs that run. -/
def Safe : List Sent → Option ℕ → List RunningInput → Prop
  | [], attached, running => ∀ input ∈ running, attached = some input.sessionId
  | sent :: rest, attached, running =>
    (∀ input ∈ running, attached = some input.sessionId) ∧
    (sent.message.applies = true →
      ∃ sessionId, attached = some sessionId ∧ sent.target = some sessionId) ∧
    Safe rest (sent.message.attachment.or attached) (running ++ starts sent.message attached)

variable {attached : Option ℕ} {queue : List Sent}

theorem Safe.running {running : List RunningInput}
    (h : Safe queue attached running) : ∀ input ∈ running, attached = some input.sessionId := by
  rcases queue with _ | ⟨sent, rest⟩
  · exact h
  · exact h.1

/-- Fewer inputs that run. -/
theorem Safe.mono {running running' : List RunningInput}
    (h : Safe queue attached running) (hsub : running' ⊆ running) :
    Safe queue attached running' := by
  induction queue generalizing attached running running' with
  | nil => exact fun input hinput => h input (hsub hinput)
  | cons sent rest ih =>
    obtain ⟨hrunning, happlies, hrest⟩ := h
    refine ⟨fun input hinput => hrunning input (hsub hinput), happlies, ih hrest ?_⟩
    exact append_subset.2 ⟨fun input hinput => mem_append_left _ (hsub hinput),
      subset_append_right _ _⟩

/-- Messages that are sent after others. -/
theorem safe_append {queue more : List Sent} {running : List RunningInput} :
    Safe (queue ++ more) attached running ↔ Safe queue attached running ∧
      Safe more (attachedAfter queue attached) (runningAfter queue attached running) := by
  induction queue generalizing attached running with
  | nil => exact ⟨fun h => ⟨h.running, h⟩, fun h => h.2⟩
  | cons sent rest ih =>
    constructor
    · rintro ⟨hrunning, happlies, hrest⟩
      obtain ⟨hrest, hmore⟩ := ih.1 hrest
      exact ⟨⟨hrunning, happlies, hrest⟩, hmore⟩
    · rintro ⟨⟨hrunning, happlies, hrest⟩, hmore⟩
      exact ⟨hrunning, happlies, ih.2 ⟨hrest, hmore⟩⟩

theorem Safe.final {running : List RunningInput}
    (h : Safe queue attached running) : ∀ input ∈ runningAfter queue attached running,
      attachedAfter queue attached = some input.sessionId := by
  rw [← append_nil queue] at h
  exact (safe_append.1 h).2

variable {attached : Option ℕ} {running : List RunningInput}

theorem starts_of_runs_none {message : ClientMessage} (h : message.runs = none) :
    starts message attached = [] := by
  simp [starts, h]

theorem safe_singleton {sent : Sent} (hattachment : sent.message.attachment = none)
    (hruns : sent.message.runs = none)
    (hrunning : ∀ input ∈ running, attached = some input.sessionId)
    (happlies : sent.message.applies = true →
      ∃ sessionId, attached = some sessionId ∧ sent.target = some sessionId) :
    Safe [sent] attached running := by
  refine ⟨hrunning, happlies, ?_⟩
  rw [hattachment, none_or, starts_of_runs_none hruns, append_nil]
  exact hrunning

theorem safe_attach {sessionId : ℕ} {target : Option ℕ} {rest : List Sent}
    (hrunning : ∀ input ∈ running, attached = some input.sessionId)
    (hrest : Safe rest (some sessionId) running) :
    Safe (⟨.attachSession sessionId, target⟩ :: rest) attached running := by
  refine ⟨hrunning, fun h => (nomatch h), ?_⟩
  rw [starts_of_runs_none rfl, append_nil]
  exact hrest

theorem safe_prompt {sessionId requestId : ℕ} {input : String}
    (hrunning : ∀ input ∈ running, attached = some input.sessionId)
    (hall : ∀ input ∈ running, input.sessionId = sessionId) :
    Safe [⟨.attachSession sessionId, some sessionId⟩, ⟨.runInput requestId input, some sessionId⟩]
      attached running := by
  have hsame : ∀ input ∈ running, some sessionId = some input.sessionId :=
    fun input hinput => congrArg some (hall input hinput).symm
  refine safe_attach hrunning ⟨hsame, fun _ => ⟨sessionId, rfl, rfl⟩, ?_⟩
  intro other hother
  rcases mem_append.1 hother with hold | hnew
  · exact hsame other hold
  · rw [mem_singleton.1 hnew]
    rfl

/-! ### What the bridge sends -/

section Sends

variable {packages} {b : Bridge} {req : JsonRpcRequest}

/-- A handler sends nothing, or one message that has nothing to do with the attachment. -/
def SendsPlain (outcome : Outcome) : Prop :=
  outcome.sent = [] ∨ ∃ id message, outcome.sent = [(id, message)] ∧
    message.attachment = none ∧ message.applies = false ∧ message.runs = none

/-- What a prompt sends. -/
theorem dispatchPrompt_sent : (dispatchPrompt packages b req).sent = [] ∨
    ∃ prompt session input, req.params.bind packages.promptRequest = some prompt ∧
      b.sessions.get prompt.sessionId = some session ∧ session.activeRequest = none ∧
        (dispatchPrompt packages b req).sent = [(req.id, .attachSession session.daemonId),
          (req.id, .runInput b.sessions.nextRequestId input)] := by
  rw [dispatchPrompt]
  rcases hparams : req.params.bind packages.promptRequest with _ | prompt
  · exact .inl rfl
  · rcases hget : b.sessions.get prompt.sessionId with _ | session
    · simp only [hget]
      exact .inl rfl
    · have htake : b.sessions.takeRequestId.get prompt.sessionId = some session := hget
      rcases hactive : session.activeRequest with _ | requestId
      · refine .inr ⟨prompt, session, contentBlocksToText packages prompt.prompt, rfl, hget, hactive,
          ?_⟩
        simp [hget, SessionManager.tryBeginPrompt, htake, hactive]
      · simp only [hget, SessionManager.tryBeginPrompt, htake, hactive]
        exact .inl rfl

/-- What a setting sends. -/
theorem dispatchSetConfigOption_sent : (dispatchSetConfigOption packages b req).sent = [] ∨
    ∃ config message, req.params.bind packages.setConfigOption = some config ∧
      b.sessions.get config.sessionId ≠ none ∧ settingSlot packages config ≠ none ∧
        message.attachment = none ∧ message.runs = none ∧
          (dispatchSetConfigOption packages b req).sent = [(req.id, message)] := by
  rw [dispatchSetConfigOption]
  rcases hparams : req.params.bind packages.setConfigOption with _ | config
  · exact .inl rfl
  · dsimp only
    split_ifs with hget hmodel heffort htools
    · exact .inl rfl
    · rw [handleSetModel]
      rcases hvalue : config.value with value | value
      · refine .inr ⟨config, _, rfl, ?_, ?_, rfl, rfl, rfl⟩
        · simpa using hget
        · simp [settingSlot, hvalue, hmodel]
      · exact .inl rfl
    · rw [handleSetReasoningEffort]
      rcases hvalue : config.value with value | value
      · dsimp only
        split_ifs with hknown
        · refine .inr ⟨config, _, rfl, ?_, ?_, rfl, rfl, rfl⟩
          · simpa using hget
          · simp [settingSlot, hvalue, heffort, hknown]
        · exact .inl rfl
      · exact .inl rfl
    · exact .inl rfl
    · exact .inl rfl

theorem handleRequest_sendsPlain (hprompt : req.method ≠ "session/prompt")
    (hconfig : req.method ≠ "session/set_config_option") :
    SendsPlain (handleRequest packages b req) := by
  rw [handleRequest]
  split_ifs
  · rw [dispatchNewSession]
    split_ifs
    · exact .inl rfl
    · exact .inr ⟨_, _, rfl, rfl, rfl, rfl⟩
  · rw [dispatchLoadSession]
    split_ifs
    · exact .inl rfl
    · rcases b.sessions.get _ with _ | session <;> exact .inl rfl
  · exact .inr ⟨_, _, rfl, rfl, rfl, rfl⟩
  · rw [dispatchDeleteSession]
    rcases b.sessions.get _ with _ | session
    · exact .inl rfl
    · exact .inr ⟨_, _, rfl, rfl, rfl, rfl⟩
  · rw [dispatchCloseSession]
    rcases b.sessions.get _ with _ | session <;> exact .inl rfl
  · exact .inl rfl

theorem handleDaemonMessage_sent (message : DaemonMessage) :
    SendsPlain (handleDaemonMessage b message) ∨
      ∃ sessionId id, message = .session (some sessionId) .sessionCreated ∧
        b.pending.sync.lookup .createSession ≠ none ∧
          (handleDaemonMessage b message).sent = [(id, .attachSession sessionId)] := by
  have hsync : ∀ kind handle, (∀ b id, (handle b id : Outcome).sent = []) →
      SendsPlain (withSync b kind handle) := fun _ _ h => .inl (sent_withSync h)
  have hstream : ∀ id handle, (∀ prompt, (handle prompt : Outcome).sent = []) →
      SendsPlain (handleStreaming b id handle) := fun _ _ h => .inl (sent_handleStreaming h)
  rcases message with ⟨models, selected⟩ | error | summaries | ⟨sessionId, event⟩
  · refine .inl ?_
    rw [handleDaemonMessage, handleModels]
    rcases b.pending.modelsPending with _ | pending
    · exact hsync _ _ fun _ _ => rfl
    · exact .inr ⟨_, _, rfl, rfl, rfl, rfl⟩
  · exact .inl (.inl rfl)
  · exact .inl (hsync _ _ fun _ _ => rfl)
  · rcases event with ⟨kind, id⟩ | ⟨id, usage⟩ | ⟨id, error⟩ | id | _ | _ | ⟨op, error⟩ | _ | error |
      model | ⟨model, error⟩ | effort | ⟨effort, error⟩
    · exact .inl (hstream _ _ fun _ => rfl)
    · exact .inl (hstream _ _ fun _ => rfl)
    · exact .inl (hstream _ _ fun _ => rfl)
    · exact .inl (hstream _ _ fun _ => rfl)
    · rcases sessionId with _ | sessionId
      · exact .inl (.inl rfl)
      · rcases hlookup : b.pending.sync.lookup .createSession with _ | id
        · refine .inl (.inl ?_)
          rw [handleDaemonMessage, handleSessionCreated, withSync, hlookup]
        · refine .inr ⟨sessionId, id, rfl, hlookup ▸ some_ne_none id, ?_⟩
          rw [handleDaemonMessage, handleSessionCreated, withSync, hlookup]
    · rcases sessionId with _ | sessionId <;> exact .inl (.inl rfl)
    · rcases sessionId with _ | sessionId <;> exact .inl (.inl rfl)
    · rcases sessionId with _ | sessionId
      · exact .inl (.inl rfl)
      · exact .inl (hsync _ _ fun _ _ => rfl)
    · rcases sessionId with _ | sessionId
      · exact .inl (.inl rfl)
      · exact .inl (hsync _ _ fun _ _ => rfl)
    · rcases sessionId with _ | sessionId <;> exact .inl (.inl rfl)
    · exact .inl (hsync _ _ fun _ _ => rfl)
    · exact .inl (hsync _ _ fun _ _ => rfl)
    · exact .inl (hsync _ _ fun _ _ => rfl)

end Sends

/-! ### The sessions of the editor -/

/-- The sessions that a handler leaves were there before and belong to the same sessions of the
daemon. -/
def KeepsSessions (b b' : Bridge) : Prop :=
  ∀ acpId session', b'.sessions.get acpId = some session' →
    ∃ session, b.sessions.get acpId = some session ∧ session.daemonId = session'.daemonId

section KeepsSessions

variable {packages} {b b' : Bridge} {req : JsonRpcRequest}

theorem KeepsSessions.of_eq (h : b'.sessions.sessions = b.sessions.sessions) :
    KeepsSessions b b' := fun acpId session' hget =>
  ⟨session', by rwa [SessionManager.get, h] at hget, rfl⟩

variable {change : AcpSession → AcpSession}

theorem KeepsSessions.modify (acpId : String)
    (h : b'.sessions = b.sessions.modify acpId change)
    (hchange : ∀ session, (change session).daemonId = session.daemonId) : KeepsSessions b b' := by
  intro acpId' session' hget
  rw [h, get_modify] at hget
  split_ifs at hget with heq
  · obtain ⟨session, hsession, rfl⟩ := map_eq_some_iff.1 hget
    exact ⟨session, heq ▸ hsession, (hchange session).symm⟩
  · exact ⟨session', hget, rfl⟩

theorem KeepsSessions.remove (acpId : String) (h : b'.sessions = b.sessions.remove acpId) :
    KeepsSessions b b' := by
  intro acpId' session' hget
  rw [h, get_remove] at hget
  split_ifs at hget
  exact ⟨session', hget, rfl⟩

theorem KeepsSessions.insert {acpId : String} {session session' : AcpSession}
    (hget : b.sessions.get acpId = some session)
    (h : b'.sessions.sessions = b.sessions.sessions.insert acpId session')
    (hsame : session'.daemonId = session.daemonId) : KeepsSessions b b' := by
  intro acpId' other hother
  rw [SessionManager.get, h] at hother
  by_cases heq : acpId' = acpId
  · subst heq
    rw [AList.lookup_insert] at hother
    exact ⟨session, hget, hsame.symm.trans (congrArg _ (some.inj hother))⟩
  · rw [AList.lookup_insert_ne heq] at hother
    exact ⟨other, hother, rfl⟩

theorem dispatchPrompt_keeps : KeepsSessions b (dispatchPrompt packages b req).bridge := by
  rw [dispatchPrompt]
  rcases req.params.bind packages.promptRequest with _ | prompt
  · exact .of_eq rfl
  · rcases hget : b.sessions.get prompt.sessionId with _ | session
    · simp only [hget]
      exact .of_eq rfl
    · have htake : b.sessions.takeRequestId.get prompt.sessionId = some session := hget
      rcases hactive : session.activeRequest with _ | requestId
      · simp only [hget, SessionManager.tryBeginPrompt, htake, hactive, isSome_none,
          Bool.false_eq_true, if_false]
        exact .insert hget rfl rfl
      · simp only [hget, SessionManager.tryBeginPrompt, htake, hactive, isSome_some, if_true]
        exact .of_eq rfl

theorem dispatchSetConfigOption_keeps :
    KeepsSessions b (dispatchSetConfigOption packages b req).bridge := by
  rw [dispatchSetConfigOption]
  rcases req.params.bind packages.setConfigOption with _ | config
  · exact .of_eq rfl
  · dsimp only
    split_ifs
    · exact .of_eq rfl
    · rw [handleSetModel]
      rcases config.value with value | value <;> exact .of_eq rfl
    · rw [handleSetReasoningEffort]
      rcases config.value with value | value
      · dsimp only
        split_ifs <;> exact .of_eq rfl
      · exact .of_eq rfl
    · exact .of_eq rfl
    · exact .of_eq rfl

theorem handleAcp_keeps (msg : RpcMessage) : KeepsSessions b (handleAcp packages b msg).bridge := by
  rw [handleAcp.eq_def]
  rcases msg with req | ⟨method, params⟩
  · dsimp only
    split_ifs
    · rw [handleRequest]
      split_ifs
      · rw [dispatchNewSession]
        split_ifs <;> exact .of_eq rfl
      · rw [dispatchLoadSession]
        split_ifs
        · exact .of_eq rfl
        · rcases b.sessions.get _ with _ | session <;> exact .of_eq rfl
      · exact .of_eq rfl
      · rw [dispatchDeleteSession]
        rcases b.sessions.get _ with _ | session <;> exact .of_eq rfl
      · rw [dispatchCloseSession]
        rcases b.sessions.get _ with _ | session
        · exact .of_eq rfl
        · exact .remove _ rfl
      · exact dispatchSetConfigOption_keeps
      · exact dispatchPrompt_keeps
      · exact .of_eq rfl
    · exact .of_eq rfl
    · exact .of_eq rfl
  · dsimp only
    split_ifs
    · rw [handleNotification]
      split_ifs
      · rcases b.pending.prompts.lookup _ with _ | prompt <;> exact .of_eq rfl
      · exact .of_eq rfl
    · exact .of_eq rfl
    · exact .of_eq rfl

theorem withSync_keeps {kind : PendingKind} {handle : Bridge → ℕ → Outcome}
    (h : ∀ id, KeepsSessions b (handle (b.eraseSync kind) id).bridge) :
    KeepsSessions b (withSync b kind handle).bridge := by
  rw [withSync]
  rcases b.pending.sync.lookup kind with _ | id
  · exact .of_eq rfl
  · exact h id

theorem handleStreaming_keeps {requestId : ℕ} {handle : ActivePrompt → Outcome}
    (h : ∀ prompt, KeepsSessions b (handle prompt).bridge) :
    KeepsSessions b (handleStreaming b requestId handle).bridge := by
  rw [handleStreaming]
  rcases b.pending.findByRequestId requestId with _ | prompt
  · exact .of_eq rfl
  · exact h prompt

theorem applyPendingSession_keeps (kind kind' : PendingKind)
    (hchange : ∀ session, (change session).daemonId = session.daemonId) :
    KeepsSessions b ((b.eraseSync kind).applyPendingSession kind' change) := by
  rcases hlookup : (b.eraseSync kind).pending.pendingSessions.lookup kind' with _ | acpId
  · refine .of_eq ?_
    rw [Bridge.applyPendingSession, hlookup]
    rfl
  · refine .modify acpId ?_ hchange
    rw [Bridge.applyPendingSession, hlookup]
    rfl

/-- Only a session that was created adds one. -/
theorem handleDaemonMessage_keeps {message : DaemonMessage}
    (hcreated : ∀ sessionId, message = .session (some sessionId) .sessionCreated →
      b.pending.sync.lookup .createSession = none) :
    KeepsSessions b (handleDaemonMessage b message).bridge := by
  have hterminal : ∀ prompt reason usage,
      KeepsSessions b (sendTerminalResponse b prompt reason usage).bridge :=
    fun prompt _ _ => .modify prompt.sessionAcpId rfl fun _ => rfl
  rcases message with ⟨models, selected⟩ | error | summaries | ⟨sessionId, event⟩
  · rw [handleDaemonMessage, handleModels]
    rcases b.pending.modelsPending with _ | pending
    · exact withSync_keeps fun _ => applyPendingSession_keeps _ _ fun _ => rfl
    · exact .of_eq rfl
  · exact .of_eq rfl
  · exact withSync_keeps fun _ => .of_eq rfl
  · rcases event with ⟨kind, id⟩ | ⟨id, usage⟩ | ⟨id, error⟩ | id | _ | _ | ⟨op, error⟩ | _ | error |
      model | ⟨model, error⟩ | effort | ⟨effort, error⟩
    · exact handleStreaming_keeps fun _ => .of_eq rfl
    · exact handleStreaming_keeps fun _ => hterminal _ _ _
    · exact handleStreaming_keeps fun _ => hterminal _ _ _
    · exact handleStreaming_keeps fun _ => hterminal _ _ _
    · rcases sessionId with _ | sessionId
      · exact .of_eq rfl
      · rw [handleDaemonMessage, handleSessionCreated, withSync, hcreated sessionId rfl]
        exact .of_eq rfl
    · rcases sessionId with _ | sessionId <;> exact .of_eq rfl
    · rcases sessionId with _ | sessionId <;> exact .of_eq rfl
    · rcases sessionId with _ | sessionId
      · exact .of_eq rfl
      · refine withSync_keeps fun _ => ?_
        dsimp only [respond]
        rcases hlookup : (b.eraseSync (.deleteSession sessionId)).sessions.byDaemonId.lookup
          sessionId with _ | acpId
        · exact .of_eq rfl
        · exact .remove acpId rfl
    · rcases sessionId with _ | sessionId
      · exact .of_eq rfl
      · exact withSync_keeps fun _ => .of_eq rfl
    · rcases sessionId with _ | sessionId <;> exact .of_eq rfl
    · exact withSync_keeps fun _ => .of_eq rfl
    · exact withSync_keeps fun _ => applyPendingSession_keeps _ _ fun _ => rfl
    · exact withSync_keeps fun _ => .of_eq rfl

end KeepsSessions

/-! ### Steps and runs -/

section Runs

variable {packages} {c c' : Connection}

/-- What holds of every state: the messages on their way are safe, and the sessions of the bridge
belong to the sessions of the daemon that are remembered for them. -/
structure Aimed (c : Connection) : Prop where
  safe : Safe c.toDaemon c.attached c.running
  known : ∀ (acpId : String) (session : AcpSession), c.bridge.sessions.get acpId = some session →
    c.sessionsOf.lookup acpId = some session.daemonId

theorem Aimed.final (h : c.Aimed) :
    ∀ input ∈ c.unfinished, c.lastAttached = some input.sessionId := h.safe.final

theorem safe_of_lastIs (h : c.Aimed) {acpId : String} (hlast : c.LastIs acpId)
    {message : ClientMessage} (hattachment : message.attachment = none)
    (hruns : message.runs = none) :
    Safe [⟨message, c.sessionsOf.lookup acpId⟩] c.lastAttached c.unfinished := by
  obtain ⟨sessionId, hlookup, hattached⟩ := hlast
  exact safe_singleton hattachment hruns h.final fun _ => ⟨sessionId, hattached, hlookup⟩

theorem safe_of_sendsPlain (h : c.Aimed) {outcome : Outcome} (hplain : SendsPlain outcome)
    (target : Option ℕ) :
    Safe (outcome.sent.map fun entry => ⟨entry.2, target⟩) c.lastAttached c.unfinished := by
  rcases hplain with hnone | ⟨id, message, hone, hattachment, happlies, hruns⟩
  · rw [hnone]
    exact h.final
  · rw [hone]
    refine safe_singleton hattachment hruns h.final fun happlies' => ?_
    exact absurd (happlies.symm.trans happlies') Bool.false_ne_true

theorem safe_editor (h : c.Aimed) {msg : RpcMessage} (hsteady : Steady packages (.editor msg) c) :
    Safe ((handleAcp packages c.bridge msg).sent.map fun entry =>
      ⟨entry.2, (msg.named packages).bind c.sessionsOf.lookup⟩) c.lastAttached c.unfinished := by
  have hnothing : ∀ outcome : Outcome, outcome.sent = [] → SendsPlain outcome := fun _ => .inl
  rw [handleAcp.eq_def]
  rcases msg with req | ⟨method, params⟩
  · dsimp only
    split_ifs
    · by_cases hprompt : req.method = "session/prompt"
      · have hrequest : handleRequest packages c.bridge req = dispatchPrompt packages c.bridge req := by
          simp [handleRequest, hprompt]
        rw [hrequest]
        rcases dispatchPrompt_sent with hnone | ⟨prompt, session, input, hparams, hget, hfree, hsent⟩
        · exact safe_of_sendsPlain h (.inl hnone) _
        · have htarget : ((RpcMessage.request req).named packages).bind c.sessionsOf.lookup =
              some session.daemonId := by
            rw [RpcMessage.named, if_pos hprompt, hparams]
            exact h.known _ _ hget
          rw [hsent, htarget]
          exact safe_prompt h.final (hsteady.1 hprompt prompt session hparams hget hfree)
      · by_cases hconfig : req.method = "session/set_config_option"
        · have hrequest : handleRequest packages c.bridge req =
              dispatchSetConfigOption packages c.bridge req := by
            simp [handleRequest, hconfig]
          rw [hrequest]
          rcases dispatchSetConfigOption_sent with
            hnone | ⟨config, message, hparams, hget, hslot, hattachment, hruns, hsent⟩
          · exact safe_of_sendsPlain h (.inl hnone) _
          · have htarget : ((RpcMessage.request req).named packages).bind c.sessionsOf.lookup =
                c.sessionsOf.lookup config.sessionId := by
              rw [RpcMessage.named, if_neg hprompt, hparams]
              rfl
            rw [hsent, htarget]
            exact safe_of_lastIs h (hsteady.2 hconfig config hparams hget hslot) hattachment hruns
        · exact safe_of_sendsPlain h (handleRequest_sendsPlain hprompt hconfig) _
    · exact safe_of_sendsPlain h (hnothing _ rfl) _
    · exact safe_of_sendsPlain h (hnothing _ rfl) _
  · dsimp only
    split_ifs
    · rw [handleNotification]
      split_ifs with hcancel
      · rcases hlookup : c.bridge.pending.prompts.lookup ((params.bind packages.cancel).getD "")
          with _ | prompt
        · exact safe_of_sendsPlain h (hnothing _ rfl) _
        · exact safe_of_lastIs h (hsteady hcancel (hlookup ▸ some_ne_none prompt)) rfl rfl
      · exact safe_of_sendsPlain h (hnothing _ rfl) _
    · exact safe_of_sendsPlain h (hnothing _ rfl) _
    · exact safe_of_sendsPlain h (hnothing _ rfl) _

theorem safe_deliver (h : c.Aimed) {message : DaemonMessage} {rest : List DaemonMessage}
    (hhead : c.toBridge = message :: rest) (hsteady : Steady packages .deliver c) :
    Safe ((handleDaemonMessage c.bridge message).sent.map fun entry => ⟨entry.2, none⟩)
      c.lastAttached c.unfinished := by
  rcases handleDaemonMessage_sent message with hplain | ⟨sessionId, id, rfl, hpending, hsent⟩
  · exact safe_of_sendsPlain h hplain none
  · rw [hsent]
    refine safe_attach h.final fun input hinput => ?_
    have hall := hsteady sessionId (by rw [hhead]; rfl) hpending
    exact congrArg some (hall input hinput).symm

theorem known_deliver (h : c.Aimed) (message : DaemonMessage) (acpId : String)
    (session : AcpSession)
    (hget : (handleDaemonMessage c.bridge message).bridge.sessions.get acpId = some session) :
    (remember message c).lookup acpId = some session.daemonId := by
  by_cases hcreated : ∃ sessionId, message = .session (some sessionId) .sessionCreated ∧
      c.bridge.pending.sync.lookup .createSession ≠ none
  · obtain ⟨sessionId, rfl, hpending⟩ := hcreated
    obtain ⟨id, hid⟩ := ne_none_iff_exists'.1 hpending
    rw [handleDaemonMessage, handleSessionCreated, withSync, hid] at hget
    simp only [get_create, Bridge.eraseSync] at hget
    rw [remember, hid, isSome_some, if_pos rfl]
    split_ifs at hget with hname
    · cases hget
      rw [hname, AList.lookup_insert]
    · rw [AList.lookup_insert_ne hname]
      exact h.known acpId session hget
  · have hkeeps : KeepsSessions c.bridge (handleDaemonMessage c.bridge message).bridge := by
      refine handleDaemonMessage_keeps fun sessionId hmessage => ?_
      by_contra hpending
      exact hcreated ⟨sessionId, hmessage, hpending⟩
    have hremember : remember message c = c.sessionsOf := by
      rw [remember.eq_def]
      split
      · next _ sessionId =>
        refine if_neg fun hpending => hcreated ⟨sessionId, rfl, fun hnone => ?_⟩
        rw [hnone] at hpending
        exact Bool.noConfusion hpending
      · rfl
    obtain ⟨before, hbefore, hsame⟩ := hkeeps acpId session hget
    rw [hremember, h.known acpId before hbefore, hsame]

/-- A steady step keeps everything aimed. -/
theorem aimed_step {event : ConnectionEvent} (h : c.Aimed) (hsteady : Steady packages event c)
    (hstep : step packages event c = some c') : c'.Aimed := by
  rcases event with msg | _ | message | ⟨i, ending⟩ | _
  · cases hstep
    refine ⟨safe_append.2 ⟨h.safe, safe_editor h hsteady⟩, fun acpId session hget => ?_⟩
    obtain ⟨before, hbefore, hsame⟩ := handleAcp_keeps msg acpId session hget
    rw [← hsame]
    exact h.known acpId before hbefore
  · rcases hqueue : c.toDaemon with _ | ⟨sent, rest⟩
    · simp [step, hqueue] at hstep
    · simp only [step, hqueue, some.injEq] at hstep
      subst hstep
      have hsafe := h.safe
      rw [hqueue] at hsafe
      exact ⟨hsafe.2.2, h.known⟩
  · cases hstep
    exact ⟨h.safe, h.known⟩
  · obtain ⟨input, -, rfl⟩ := map_eq_some_iff.1 hstep
    exact ⟨h.safe.mono (eraseIdx_subset), h.known⟩
  · rcases hinbox : c.toBridge with _ | ⟨message, rest⟩
    · simp [step, hinbox] at hstep
    · simp only [step, hinbox, some.injEq] at hstep
      subst hstep
      exact ⟨safe_append.2 ⟨h.safe, safe_deliver h hinbox hsteady⟩,
        fun acpId session hget => known_deliver h message acpId session hget⟩

theorem reaches_of_aimed (h : c.Aimed) (event : ConnectionEvent) : Reaches event c := by
  rcases event with msg | _ | message | ⟨i, ending⟩ | _
  · trivial
  · intro sent hsent happlies
    obtain ⟨rest, hqueue⟩ := List.head?_eq_some_iff.1 hsent
    have hsafe := h.safe
    rw [hqueue] at hsafe
    exact hsafe.2.1 happlies
  · trivial
  · exact fun input hinput => h.safe.running input (mem_of_getElem? hinput)
  · trivial

end Runs

/-- In every run of steady steps, the daemon applies every setting, input and cancellation to the
session that the editor named, and the end of every prompt is sent to the bridge. -/
theorem reaches_of_steady (packages : Packages) (events : List ConnectionEvent)
    (hsteady : StepSystem.Along (step packages) (Steady packages) events {}) :
    StepSystem.Along (step packages) Reaches events {} := by
  have hstart : Aimed {} := ⟨by simp [Safe], fun acpId session hget => by cases hget⟩
  exact StepSystem.Along.of_invariant (fun event _ h => reaches_of_aimed h event)
    (fun _ _ _ hsteady h hstep => aimed_step h hsteady hstep) hstart hsteady

/-! ### A setting for the session before the last -/

namespace Sample

def readSetting (params : Json) : Option SetConfigOptionRequest :=
  (params.getStr "sessionId").bind fun acpId => (params.getStr "configId").bind fun configId =>
    (params.getStr "value").map fun value => ⟨acpId, configId, .string value⟩

def settings : Packages where
  newSessionMetadata := fun _ => none
  loadSession := fun _ => none
  deleteSession := fun _ => none
  closeSession := fun _ => none
  setConfigOption := readSetting
  promptRequest := fun _ => none
  cancel := fun _ => none
  toStr := fun _ => ""
  toLowercase := id

/-- A request. -/
def ask (id : ℕ) (method : String) (params : Option Json) : ConnectionEvent :=
  .editor (.request { id := id, method := method, params := params })

def created (id sessionId : ℕ) : List ConnectionEvent :=
  [ask id "session/new" none, .process, .emit (.models [] none), .deliver, .process,
    .emit (.session (some sessionId) .sessionCreated), .deliver, .process]

/-- The model of a session is set. -/
def model (acpId : String) : Json :=
  .object [("sessionId", .string acpId), ("configId", .string "model"), ("value", .string "gpt-5")]

def twoSessions (acpId : String) : List ConnectionEvent :=
  ask 1 "initialize" none :: created 2 1 ++ created 3 2 ++
    [ask 4 "session/set_config_option" (some (model acpId))]

/-- The model of the last session is set. -/
theorem reaches_twoSessions :
    StepSystem.Along (step settings) Reaches (twoSessions "sess_2" ++ [.process]) {} := by
  refine reaches_of_steady settings _
    ⟨⟨fun h => absurd h (by decide), fun h => absurd h (by decide)⟩,
      ⟨fun h => absurd h (by decide), fun h => absurd h (by decide)⟩, trivial, trivial, ?_, trivial,
      trivial, ?_, trivial,
      ⟨fun h => absurd h (by decide), fun h => absurd h (by decide)⟩, trivial, trivial, ?_, trivial,
      trivial, ?_, trivial, ⟨fun h => absurd h (by decide), ?_⟩, trivial, trivial⟩
  · intro sessionId h
    cases h
  · intro sessionId _ _ input hinput
    cases hinput
  · intro sessionId h
    cases h
  · intro sessionId _ _ input hinput
    cases hinput
  · rintro - config ⟨⟩ - -
    exact ⟨2, by decide, by decide⟩

/-- The model of the first session is set on the second one. -/
theorem not_reaches_twoSessions :
    ¬ StepSystem.Along (step settings) Reaches (twoSessions "sess_1" ++ [.process]) {} := by
  intro h
  have hrun : ∃ c, StepSystem.run (step settings) (twoSessions "sess_1") {} = some c ∧
      (c.toDaemon.head?.map Sent.message) = some (.setModel "gpt-5") ∧
        (c.toDaemon.head?.bind Sent.target) = some 1 ∧ c.attached = some 2 :=
    ⟨_, rfl, by decide, by decide, by decide⟩
  obtain ⟨c, hrun, hmessage, htarget, hattached⟩ := hrun
  have hlast := ((StepSystem.along_append hrun).1 h).2.1
  obtain ⟨sent, hsent, hset⟩ := map_eq_some_iff.1 hmessage
  obtain ⟨sessionId, hreached, hmeant⟩ := hlast sent hsent (by rw [hset]; rfl)
  rw [hsent, bind_some, hmeant, ← hreached, hattached] at htarget
  exact absurd htarget (by decide)

end Sample

end Connection

end Acp

end Choreo
