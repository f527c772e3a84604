import Choreo.Agent.ToolSteps
import Choreo.Session.Requests

/-!
# The terminal events of a request

A request ends for its clients with a `Done`, `Failed` or `Cancelled`. The worker announces the first
two; `Cancelled` is announced by the session thread whenever it passes a stop on, whatever the worker
makes of it, and the refusal of another input under the same id is announced as `Failed`. So a client
gets one event for every stop, one for every such refusal, and one more unless the worker ended on a
cancel.
-/

namespace Choreo

open List

def Output.isTerminalFor (clientId requestId : ℕ) : Output → Bool
  | .broadcast event recipients =>
    event.terminalOf == some requestId && recipients.contains clientId
  | .direct recipient event => event.terminalOf == some requestId && recipient == clientId
  | _ => false

/-- How many terminal events of a request a client got. -/
def received (clientId requestId : ℕ) (log : List Output) : ℕ :=
  log.countP (Output.isTerminalFor clientId requestId)

def SessionCommand.announces (requestId : ℕ) : SessionCommand → Bool
  | .broadcast event => event.terminalOf == some requestId
  | _ => false

theorem SessionCommand.announces_of_isUpdate {command : SessionCommand} (h : command.isUpdate = true)
    (requestId : ℕ) : command.announces requestId = false := by
  cases command with
  | broadcast event =>
    have hquiet : event.isQuiet = true := (Bool.and_eq_true_iff.1 h).1
    unfold SessionEvent.isQuiet at hquiet
    rw [Bool.and_eq_true, Option.isNone_iff_eq_none] at hquiet
    simp only [SessionCommand.announces, hquiet.1]
    rfl
  | _ => rfl

theorem SessionCommand.announces_of_isExternal {command : SessionCommand} (h : command.isExternal = true)
    (requestId : ℕ) : command.announces requestId = false := by
  cases command with
  | broadcast event =>
    cases event with
    | done id usage tokens | failed id error | cancelled id => cases h
    | _ => rfl
  | _ => rfl

theorem Output.isTerminalFor_of_isQuiet {o : Output} (h : o.isQuiet = true)
    (clientId requestId : ℕ) : o.isTerminalFor clientId requestId = false := by
  have hevent : ∀ event : SessionEvent, event.isQuiet = true →
      (event.terminalOf == some requestId) = false := by
    intro event hquiet
    unfold SessionEvent.isQuiet at hquiet
    rw [Bool.and_eq_true, Option.isNone_iff_eq_none] at hquiet
    rw [hquiet.1]
    rfl
  cases o with
  | broadcast event recipients => simp only [isTerminalFor, hevent event h, Bool.false_and]
  | direct recipient event => simp only [isTerminalFor, hevent event h, Bool.false_and]
  | _ => rfl

def Serves (env : CommandEnv) (clientId : ℕ) (subscribers : Std.ExtTreeSet ℕ) : Prop :=
  env.gone clientId = false ∧ clientId ∈ subscribers

theorem Serves.filter {env : CommandEnv} {clientId : ℕ} {subscribers : Std.ExtTreeSet ℕ}
    (h : Serves env clientId subscribers) :
    Serves env clientId (subscribers.filter fun clientId => !env.gone clientId) := by
  refine ⟨h.1, ?_⟩
  rw [Std.ExtTreeSet.mem_filter]
  refine ⟨h.2, ?_⟩
  rw [Std.ExtTreeSet.get_eq, h.1]
  rfl

namespace Loop

variable {env : CommandEnv} {clientId : ℕ} {l l' : Loop}

/-- An attached client gets every broadcast. -/
theorem received_broadcast (h : Serves env clientId l.state.subscribers) (event : SessionEvent)
    (requestId : ℕ) :
    received clientId requestId (l.broadcast env event).log =
      received clientId requestId l.log + (event.terminalOf == some requestId).toNat := by
  have hmem : (l.state.subscribers.filter fun clientId => !env.gone clientId).toList.contains
      clientId = true :=
    contains_iff_mem.2 (Std.ExtTreeSet.mem_toList.2 h.filter.2)
  change List.countP _ (Output.broadcast event _ :: l.log) = _
  rw [countP_cons]
  simp only [Output.isTerminalFor, hmem, Bool.and_true]
  cases event.terminalOf == some requestId <;> rfl

theorem Quiet.received (h : Quiet l l') (clientId requestId : ℕ) :
    received clientId requestId l'.log = received clientId requestId l.log := by
  obtain ⟨sent, hlog, hsent⟩ := h.log
  unfold Choreo.received
  rw [hlog, countP_append, Nat.add_eq_right, List.countP_eq_zero]
  intro o ho
  rw [Output.isTerminalFor_of_isQuiet (hsent o ho)]
  exact Bool.false_ne_true

/-! ### Attached clients stay attached -/

theorem serves_foldl {α : Type*} (body : Loop → α → Loop)
    (hbody : ∀ l a, Serves env clientId l.state.subscribers →
      Serves env clientId (body l a).state.subscribers)
    (as : List α) {l : Loop} (h : Serves env clientId l.state.subscribers) :
    Serves env clientId (as.foldl body l).state.subscribers := by
  induction as generalizing l with
  | nil => exact h
  | cons a as ih => exact ih (hbody l a h)

theorem serves_announceContextWindow (h : Serves env clientId l.state.subscribers)
    (cw : Option UInt32) :
    Serves env clientId (l.announceContextWindow env cw).state.subscribers := by
  cases cw with
  | none => exact h
  | some cw => exact h.filter

theorem serves_inputProvider (h : Serves env clientId l.state.subscribers)
    (hl' : l' = l ∨ ∃ provider, l.inputProvider env = .ok (provider, l')) :
    Serves env clientId l'.state.subscribers := by
  rcases hl' with rfl | ⟨provider, hok⟩
  · exact h
  · unfold Loop.inputProvider at hok
    split at hok
    · cases hok
      exact h
    · split at hok
      · cases hok
        unfold resolveContextWindowIfMissing
        split
        · split
          · exact h.filter
          · exact h
        · exact h
      · cases hok
    · cases hok

theorem serves_cancelRequest (h : Serves env clientId l.state.subscribers) (requestId : ℕ) :
    Serves env clientId (l.cancelRequest env requestId).state.subscribers := by
  unfold Loop.cancelRequest
  split
  · exact h
  · exact h.filter

theorem serves_handleSetModel (h : Serves env clientId l.state.subscribers) (model : String) :
    Serves env clientId (l.handleSetModel env model).1.state.subscribers := by
  unfold Loop.handleSetModel
  split
  · exact h.filter
  · have hselect : Serves env clientId (l.selectModel env model).state.subscribers := by
      unfold selectModel
      exact serves_announceContextWindow (l := l.modifyConfig _) h _
    have hreset : ∀ capability, Serves env clientId
        ((l.selectModel env model).resetReasoningEffort env capability).state.subscribers := by
      intro capability
      unfold resetReasoningEffort
      split
      · split_ifs
        · exact hselect.filter
        · exact hselect
      · exact hselect
    exact (hreset _).filter

theorem serves_handleSetAccount (h : Serves env clientId l.state.subscribers) (name : String) :
    Serves env clientId (l.handleSetAccount env name).1.state.subscribers := by
  have huse : ∀ provider,
      Serves env clientId (l.useProvider env provider).state.subscribers := by
    intro provider
    unfold useProvider
    split
    · exact h
    · exact serves_announceContextWindow (l := l.modifyConfig _) h _
  unfold Loop.handleSetAccount
  split
  · exact h.filter
  · exact (huse _).filter

theorem serves_changeToolGroups (h : Serves env clientId l.state.subscribers)
    (apply : Std.ExtTreeSet String → List String → Std.ExtTreeSet String × String)
    (groups : List String) (reply : ℕ) :
    Serves env clientId (l.changeToolGroups env apply groups reply).1.state.subscribers := by
  unfold Loop.changeToolGroups
  split
  · exact h
  · exact h.filter

theorem serves_handleRequestFinished (h : Serves env clientId l.state.subscribers) (requestId : ℕ)
    (snapshot : SessionSnapshot) :
    Serves env clientId (l.handleRequestFinished env requestId snapshot).1.state.subscribers := by
  have hmerge : ∀ (l : Loop) (entry : ℕ × Turn), Serves env clientId l.state.subscribers →
      Serves env clientId (l.mergeTurn env entry).state.subscribers := by
    intro l entry hl
    unfold mergeTurn
    dsimp only
    split
    · exact hl
    · split_ifs <;> exact hl
  unfold Loop.handleRequestFinished
  exact Serves.filter (serves_foldl _ hmerge _ h)

theorem serves_handleUndo (h : Serves env clientId l.state.subscribers) :
    Serves env clientId (l.handleUndo env).1.state.subscribers := by
  unfold Loop.handleUndo
  split
  · exact h
  · next ids state hundo =>
    obtain ⟨-, rfl⟩ := SessionState.undoTurns_spec hundo
    refine Serves.filter (serves_foldl _ (fun l id hl => ?_) _ ?_)
    · split
      · exact hl
      · exact hl
    · unfold dropResponseChain
      split_ifs <;> exact h

theorem serves_handleRedo (h : Serves env clientId l.state.subscribers) :
    Serves env clientId (l.handleRedo env).1.state.subscribers := by
  unfold Loop.handleRedo
  split
  · exact h
  · next turns state hredo =>
    obtain ⟨ids, -, -, rfl⟩ := SessionState.redoTurns_spec hredo
    refine Serves.filter (serves_foldl _ (fun l _ hl => ?_) _ ?_)
    · exact hl
    · exact h

end Loop

def SessionCommand.detaches (clientId : ℕ) : SessionCommand → Bool
  | .detach id => id == clientId
  | .removeSubscriber id => id == clientId
  | _ => false

namespace Loop

variable {env : CommandEnv} {clientId : ℕ} {l l' : Loop}

/-- A client stays attached with every command that does not take it off. -/
theorem serves_processCommand (h : Serves env clientId l.state.subscribers)
    {command : SessionCommand} (hcommand : command.detaches clientId = false) :
    Serves env clientId (l.processCommand env command).1.state.subscribers := by
  have herase : ∀ id, id ≠ clientId → Serves env clientId (l.state.subscribers.erase id) := by
    intro id hne
    refine ⟨h.1, Std.ExtTreeSet.mem_erase.2 ⟨fun hc => hne ?_, h.2⟩⟩
    exact Std.LawfulEqCmp.compare_eq_iff_eq.1 hc
  cases command with
  | runInput requestId input =>
    rcases l.handleRunInput_cases env requestId input with
      ⟨l₁, error, hl₁, heq⟩ | ⟨l₁, provider, model, hprovider, -, -, -, heq⟩
    · simp only [processCommand, heq]
      exact (serves_inputProvider h hl₁).filter.filter
    · simp only [processCommand, heq]
      exact (serves_inputProvider h (Or.inr ⟨provider, hprovider⟩)).filter
  | runChildInput requestId userText reply =>
    rcases l.handleRunChildInput_cases env requestId userText reply with
      ⟨error, heq⟩ | ⟨provider, -, -, -, heq⟩
    · simp only [processCommand, heq]
      exact h
    · simp only [processCommand, heq]
      exact h.filter
  | cancel requestId => exact serves_foldl _ (fun _ id hl => serves_cancelRequest hl id) _ h
  | shutdown => exact serves_foldl _ (fun _ id hl => serves_cancelRequest hl id) _ h
  | setModel model => exact serves_handleSetModel h model
  | statusChanged status => exact h.filter
  | attach id =>
    have hinsert : Serves env clientId (l.state.subscribers.insert id) :=
      ⟨h.1, Std.ExtTreeSet.mem_insert.2 (Or.inr h.2)⟩
    exact serves_foldl
      (fun l (entry : ℕ × ActiveRequest) =>
        l.send (.direct id (.started entry.1 entry.2.turnId 0))) (fun _ _ hl => hl) _ hinsert
  | detach id => exact herase id (by simpa [SessionCommand.detaches] using hcommand)
  | removeSubscriber id => exact herase id (by simpa [SessionCommand.detaches] using hcommand)
  | getSummary reply => exact h
  | requestFinished requestId snapshot => exact serves_handleRequestFinished h requestId snapshot
  | broadcast event | syncAccumulatedUsage tokenUsage lastPromptTokens => exact h.filter
  | setTitle title =>
    simp only [processCommand, handleSetTitle]
    split_ifs
    · exact h
    · exact h.filter
  | setWorkingDir path reply => exact h.filter
  | loadTools groups reply =>
    exact serves_changeToolGroups h (applyLoadTools env.renderList) groups reply
  | unloadTools groups reply =>
    exact serves_changeToolGroups h (applyUnloadTools env.renderList) groups reply
  | setAccount name => exact serves_handleSetAccount h name
  | setReasoningEffort effort =>
    simp only [processCommand, handleSetReasoningEffort]
    split_ifs
    · exact h.filter
    · exact h.filter
    · exact h.filter
  | getReasoningEffort reply => exact h
  | undo => exact serves_handleUndo h
  | redo => exact serves_handleRedo h

end Loop

/-! ### Stops and refusals -/

def SessionCommand.stops (requestId : ℕ) : SessionCommand → Bool
  | .cancel id => id == 0 || id == requestId
  | .shutdown => true
  | _ => false

def SessionCommand.isInputOf (requestId : ℕ) : SessionCommand → Bool
  | .runInput id _ => id == requestId
  | _ => false

namespace Loop

/-- The number of messages that the cancel channel of a request has carried. -/
def cancels (requestId : ℕ) (l : Loop) : ℕ :=
  (l.state.activeRequests[requestId]?.map ActiveRequest.cancelsSent).getD 0

/-- Exactly one request is registered. -/
def Serving (requestId : ℕ) (l : Loop) : Prop :=
  ∀ id : ℕ, l.state.activeRequests[id]?.isSome = true ↔ id = requestId

variable {env : CommandEnv} {clientId requestId : ℕ} {l : Loop}

theorem Serving.keys (h : l.Serving requestId) : l.state.activeRequests.keys = [requestId] := by
  refine perm_singleton.1 ((perm_ext_iff_of_nodup ?_ ?_).2 fun id => ?_)
  · exact Std.ExtTreeMap.nodup_keys
  · exact nodup_singleton requestId
  · rw [Std.ExtTreeMap.mem_keys, ← Std.ExtTreeMap.isSome_getElem?_iff_mem, h id,
      mem_singleton]

theorem Serving.not_isEmpty (h : l.Serving requestId) :
    l.state.activeRequests.isEmpty ≠ true := by
  intro hempty
  have hsome := (h requestId).2 rfl
  rw [Std.ExtTreeMap.isEmpty_iff] at hempty
  rw [hempty, Std.ExtTreeMap.getElem?_empty] at hsome
  cases hsome

theorem Serving.foldl_cancelRequest (h : l.Serving requestId) (id : ℕ) :
    (if id = 0 then l.state.activeRequests.keys else [id]).foldl
        (fun l requestId => l.cancelRequest env requestId) l =
      if id == 0 || id == requestId then l.cancelRequest env requestId else l := by
  by_cases hzero : id = 0
  · simp only [hzero, if_true, h.keys, BEq.rfl, Bool.true_or, foldl_cons, foldl_nil]
  · by_cases hid : id = requestId
    · simp only [hid, BEq.rfl, Bool.or_true, if_true, foldl_cons, foldl_nil, ite_self,
        h.keys]
    · have hnone : l.state.activeRequests[id]? = none := by
        rw [← Option.not_isSome_iff_eq_none, h id]
        exact hid
      simp only [hzero, hid, if_false, foldl_cons, foldl_nil, beq_iff_eq, or_self,
        Bool.or_eq_true, cancelRequest, hnone]

/-- What a stop does to the request: its clients get a terminal event and its cancel channel a
message. -/
theorem Serving.cancelRequest (h : l.Serving requestId)
    (hserves : Serves env clientId l.state.subscribers) :
    received clientId requestId (l.cancelRequest env requestId).log =
        received clientId requestId l.log + 1 ∧
      (l.cancelRequest env requestId).cancels requestId = l.cancels requestId + 1 := by
  obtain ⟨active, hactive⟩ := Option.isSome_iff_exists.1 ((h requestId).2 rfl)
  unfold Loop.cancelRequest
  simp only [hactive]
  constructor
  · refine (received_broadcast ?_ _ requestId).trans ?_
    · exact hserves
    · simp only [SessionEvent.terminalOf, BEq.rfl, Bool.toNat_true]
  · unfold cancels
    change Option.getD (Option.map _ (l.state.activeRequests.insert requestId _)[requestId]?) 0 = _
    rw [Std.ExtTreeMap.get_insert, if_pos rfl, hactive]
    rfl

theorem Serving.handleCancel (h : l.Serving requestId) (id : ℕ) :
    (l.handleCancel env id).1 =
      if id == 0 || id == requestId then l.cancelRequest env requestId else l :=
  h.foldl_cancelRequest id

theorem Serving.handleShutdown (h : l.Serving requestId) :
    (l.handleShutdown env).1 =
      ({ l with shutdownRequested := true } : Loop).cancelRequest env requestId := by
  unfold Loop.handleShutdown
  simp only [h.keys, foldl_cons, foldl_nil]

/-- While a request is registered, a client gets a terminal event of it with every stop, every
refused input under the same id, and every announcement that is passed on. -/
theorem Serving.processCommand (h : l.Serving requestId)
    (hserves : Serves env clientId l.state.subscribers) {command : SessionCommand}
    (hfin : command.finishedId = none) :
    received clientId requestId (l.processCommand env command).1.log =
        received clientId requestId l.log + (command.stops requestId).toNat +
          (command.isInputOf requestId).toNat + (command.announces requestId).toNat ∧
      (l.processCommand env command).1.cancels requestId =
        l.cancels requestId + (command.stops requestId).toNat := by
  have hsame : ∀ l' : Loop, l'.requests = l.requests →
      l'.cancels requestId = l.cancels requestId := by
    intro l' hl'
    simp only [requests, Prod.mk.injEq] at hl'
    unfold cancels
    rw [hl'.1]
  have hquiet : command.isQuiet = true →
      received clientId requestId (l.processCommand env command).1.log =
          received clientId requestId l.log ∧
        (l.processCommand env command).1.cancels requestId = l.cancels requestId := by
    intro hq
    have hprocess := processCommand_quiet env hq l
    exact ⟨hprocess.received clientId requestId, hsame _ hprocess.requests⟩
  cases command with
  | runInput id input =>
    rcases l.handleRunInput_cases env id input with
      ⟨l₁, error, hl₁, heq⟩ | ⟨l₁, provider, model, -, -, -, hidle, -⟩
    · have hq := Quiet.of_inputProvider hl₁
      have hserves₁ := serves_inputProvider hserves hl₁
      have hstarted : Serves env clientId (l₁.broadcast env (.started id 0 0)).state.subscribers :=
        hserves₁.filter
      simp only [Loop.processCommand, heq]
      refine ⟨?_, (hsame (l₁.failRequest env id error) hq.requests).trans rfl⟩
      unfold failRequest
      rw [received_broadcast hstarted, received_broadcast hserves₁, hq.received]
      simp only [SessionEvent.terminalOf, SessionCommand.stops, SessionCommand.isInputOf,
        SessionCommand.announces]
      cases hid : id == requestId with
      | true => simp [beq_iff_eq.1 hid]
      | false => simp [beq_eq_false_iff_ne.1 hid]
    · exact absurd hidle h.not_isEmpty
  | runChildInput id userText reply =>
    rcases l.handleRunChildInput_cases env id userText reply with
      ⟨error, heq⟩ | ⟨provider, -, -, hidle, -⟩
    · simp only [Loop.processCommand, heq]
      exact ⟨(Quiet.send l rfl).received clientId requestId, rfl⟩
    · exact absurd hidle h.not_isEmpty
  | cancel id =>
    simp only [Loop.processCommand, h.handleCancel]
    cases hid : id == 0 || id == requestId with
    | true =>
      have hstop := h.cancelRequest hserves
      simp only [if_true, SessionCommand.stops, hid, SessionCommand.isInputOf,
        SessionCommand.announces]
      exact hstop
    | false =>
      simp only [Bool.false_eq_true, if_false, SessionCommand.stops, hid, SessionCommand.isInputOf,
        SessionCommand.announces]
      exact ⟨rfl, rfl⟩
  | shutdown =>
    simp only [Loop.processCommand, h.handleShutdown]
    exact Serving.cancelRequest (l := { l with shutdownRequested := true }) h hserves
  | requestFinished id snapshot => cases hfin
  | undo =>
    refine ⟨?_, hsame _ (requests_handleUndo env l)⟩
    cases hundo : l.state.undoTurns with
    | none =>
      simp only [Loop.processCommand, handleUndo, hundo]
      rfl
    | some p =>
      obtain ⟨ids, state⟩ := p
      obtain ⟨recipients, hlog⟩ := log_handleUndo (l := l) env hundo
      simp only [Loop.processCommand, hlog]
      rfl
  | redo =>
    refine ⟨?_, hsame _ (requests_handleRedo env l)⟩
    cases hredo : l.state.lastUndoTurnIds with
    | none =>
      simp only [Loop.processCommand, handleRedo, SessionState.redoTurns, hredo, Option.map_none]
      rfl
    | some ids =>
      obtain ⟨recipients, hlog⟩ := log_handleRedo (l := l) env hredo
      simp only [Loop.processCommand, hlog]
      rfl
  | broadcast event =>
    refine ⟨?_, rfl⟩
    simp only [Loop.processCommand, received_broadcast hserves]
    rfl
  | _ => exact hquiet rfl

end Loop

/-! ### The worker's part -/

/-- Whether a worker is past its announcement. -/
def WorkerPc.isConcluding : WorkerPc → Bool
  | .concluding .. => true
  | _ => false

/-- Whether a worker has given up on a cancel. -/
def WorkerPc.isCancelled : WorkerPc → Bool
  | .tools phase => phase.cancelled
  | .finalizing _ outcome | .persisted _ outcome => outcome = .cancelled
  | .returned outcome _ | .concluding outcome _ => outcome = .cancelled
  | _ => false

namespace Worker

def announcing (label : WorkerLabel) (w : Worker) : Bool :=
  match label, w.pc with
  | .conclude, .returned outcome _ => outcome ≠ .cancelled
  | _, _ => false

/-- Whether a step of a worker ends it as cancelled, without an announcement. -/
def endsCancelled (label : WorkerLabel) (w : Worker) : Bool :=
  match label, w.pc with
  | .conclude, .returned outcome _ => outcome = .cancelled
  | _, _ => false

/-- How many terminal events a worker is about to send. -/
def owed (w : Worker) : ℕ := w.outbox.countP (SessionCommand.announces w.requestId)

variable {setup : AgentSetup} {cancelPending : Bool} {label : WorkerLabel} {store : Store}
  {w w' : Worker} {effect : WorkerEffect}

/-- Before its announcement a worker owes nothing. -/
theorem Invariant.owed_eq_zero (hw : w.Invariant) (hpc : w.pc.isConcluding = false) :
    w.owed = 0 := by
  refine List.countP_eq_zero.2 fun c hc => ?_
  rcases hw.outbox c hc with hupdate | ⟨outcome, snapshot, heq, -⟩
  · rw [SessionCommand.announces_of_isUpdate hupdate]
    exact Bool.false_ne_true
  · rw [heq] at hpc
    cases hpc

theorem countP_outcomeCommands (w : Worker) (outcome : RequestOutcome) :
    (w.outcomeCommands outcome).countP (SessionCommand.announces w.requestId) =
      (decide (outcome ≠ .cancelled)).toNat := by
  cases outcome <;> simp [outcomeCommands, SessionCommand.announces, SessionEvent.terminalOf]

theorem step_owed (hw : w.Invariant)
    (h : w.step setup cancelPending label store = some effect) (hw' : effect.worker = some w') :
    w'.owed + (effect.command.toList.countP (SessionCommand.announces w.requestId)) =
        w.owed + (w.announcing label).toNat ∧
      w'.pc.isConcluding.toNat =
        w.pc.isConcluding.toNat + (w.announcing label).toNat + (w.endsCancelled label).toNat := by
  have hinv' := step_invariant hw h hw'
  have hgoOn : w.pc.isConcluding = false → w'.pc.isConcluding = false → effect.command = none →
      label ≠ .conclude →
      w'.owed + (effect.command.toList.countP (SessionCommand.announces w.requestId)) =
        w.owed + (w.announcing label).toNat ∧
      w'.pc.isConcluding.toNat =
        w.pc.isConcluding.toNat + (w.announcing label).toNat + (w.endsCancelled label).toNat := by
    intro hpc hpc' hcommand hlabel
    have hannouncing : w.announcing label = false := by
      unfold announcing
      split
      · exact absurd rfl hlabel
      · rfl
    have hends : w.endsCancelled label = false := by
      unfold endsCancelled
      split
      · exact absurd rfl hlabel
      · rfl
    rw [hinv'.owed_eq_zero hpc', hw.owed_eq_zero hpc, hcommand, hannouncing, hends, hpc, hpc']
    exact ⟨rfl, rfl⟩
  cases step_move h with
  | flush command outbox hout =>
    cases hw'
    refine ⟨?_, rfl⟩
    unfold owed
    rw [hout, countP_cons]
    simp only [Option.toList_some, countP_cons, countP_nil, Nat.zero_add]
    rfl
  | panic hloop =>
    cases hw'
    refine hgoOn ?_ rfl rfl (by rintro ⟨⟩)
    unfold inAgentLoop at hloop
    cases hpc : w.pc with
    | concluding outcome snapshot =>
      rw [hpc] at hloop
      cases hloop
    | _ => rfl
  | conclude outcome snapshot hout hpc =>
    cases hw'
    have howed : w.owed = 0 := by
      unfold owed
      rw [hout]
      rfl
    rw [howed]
    unfold owed announcing endsCancelled
    simp only [hpc, countP_outcomeCommands, WorkerPc.isConcluding]
    cases outcome <;> exact ⟨rfl, rfl⟩
  | finish outcome snapshot hout hpc => cases hw'
  | _ =>
    cases hw'
    exact hgoOn (by simp only [*]; rfl) rfl rfl (by rintro ⟨⟩)

/-- A worker gives up on a cancel only when one is pending. -/
theorem step_isCancelled (h : w.step setup cancelPending label store = some effect)
    (hw' : effect.worker = some w') (hcancelled : w'.pc.isCancelled = true) :
    w.pc.isCancelled = true ∨ cancelPending = true := by
  cases step_move h with
  | flush command outbox hout =>
    cases hw'
    exact Or.inl hcancelled
  | cancelAtTop now cache tokens hout hpc hcancel => exact Or.inr hcancel
  | callCancelled turnId hout hpc hcancel => exact Or.inr hcancel
  | toolUse turnId result hout hpc =>
    cases hw'
    refine absurd hcancelled ?_
    change (ToolRun.begin _ _ _ _ _).phase.cancelled ≠ true
    unfold ToolRun.begin
    rw [ToolRun.broadcastTurnAppended_phase]
    exact Bool.false_ne_true
  | tool label phase r consumed hout hpc hstep =>
    cases hw'
    rw [hpc]
    exact ToolRun.step_cancelled hstep hcancelled
  | toolsCancelled phase hout hpc hstage hphase =>
    rw [hpc]
    exact Or.inl hphase
  | write turnId outcome turn hout hpc hturn =>
    cases hw'
    rw [hpc]
    exact Or.inl hcancelled
  | writeFailed writeError turnId outcome outcome' hout hpc hwrite houtcome =>
    cases hw'
    rw [hpc]
    rcases houtcome with rfl | ⟨error, rfl⟩
    · exact Or.inl hcancelled
    · cases hcancelled
  | leaveLoop turnId outcome hout hpc | conclude outcome snapshot hout hpc =>
    cases hw'
    rw [hpc]
    exact Or.inl hcancelled
  | finish outcome snapshot hout hpc => cases hw'
  | _ =>
    cases hw'
    cases hcancelled

end Worker

/-! ### A request from its start to its end -/

namespace System

variable {setup : AgentSetup} {label : SystemLabel} {s s' : System} {clientId requestId : ℕ}

/-- The steps through which a client stays attached while a request runs: the session goes on, the
client's receiver is there, no command takes the client off, and the request is not reported as
finished. -/
def Attached (clientId : ℕ) (label : SystemLabel) (s : System) : Prop :=
  match label with
  | .restart _ => False
  | .process env => env.gone clientId = false ∧
      ∀ command ∈ s.queue.head?, command.detaches clientId = false ∧ command.finishedId = none
  | _ => True

instance (clientId : ℕ) (label : SystemLabel) (s : System) :
    Decidable (s.Attached clientId label) :=
  match label with
  | .restart _ => inferInstanceAs (Decidable False)
  | .process env => inferInstanceAs (Decidable (env.gone clientId = false ∧
      ∀ command ∈ s.queue.head?, command.detaches clientId = false ∧ command.finishedId = none))
  | .send _ => inferInstanceAs (Decidable True)
  | .work _ => inferInstanceAs (Decidable True)

def stopping (requestId : ℕ) (label : SystemLabel) (s : System) : ℕ :=
  (s.Handles (SessionCommand.stops requestId) label).toNat

/-- One when the session thread handles another input under the id of the request. -/
def repeating (requestId : ℕ) (label : SystemLabel) (s : System) : ℕ :=
  (s.Handles (SessionCommand.isInputOf requestId) label).toNat

/-- One when the worker announces an outcome. -/
def announcing (label : SystemLabel) (s : System) : ℕ :=
  match label, s.worker with
  | .work label, some w => (w.announcing label).toNat
  | _, _ => 0

def endsCancelled (label : SystemLabel) (s : System) : ℕ :=
  match label, s.worker with
  | .work label, some w => (w.endsCancelled label).toNat
  | _, _ => 0

/-- How many terminal events of a request are on their way to the session thread. -/
def owed (requestId : ℕ) (s : System) : ℕ :=
  s.queue.countP (SessionCommand.announces requestId) + (s.worker.map Worker.owed).getD 0

/-- One when the worker is past its announcement. -/
def concluded (s : System) : ℕ :=
  (s.worker.map fun w => w.pc.isConcluding.toNat).getD 1

/-- What holds while a request runs and a client is attached. -/
structure Window (clientId requestId : ℕ) (s : System) : Prop where
  invariant : s.Invariant
  pending : s.pending = [requestId]
  attached : clientId ∈ s.loop.state.subscribers
  cancelled : ∀ w, s.worker = some w → w.pc.isCancelled = true → 0 < s.loop.cancels requestId

/-- What a step adds to the terminal events that a client got or will get, to the messages of the
cancel channel, and to the announcements. -/
structure Adds (clientId requestId : ℕ) (label : SystemLabel) (s s' : System) : Prop where
  received : received clientId requestId s'.loop.log + s'.owed requestId =
    received clientId requestId s.loop.log + s.owed requestId +
      (s.stopping requestId label + s.repeating requestId label + s.announcing label)
  cancels : s'.loop.cancels requestId = s.loop.cancels requestId + s.stopping requestId label
  concluded : s'.concluded = s.concluded + (s.announcing label + s.endsCancelled label)

namespace Window

theorem serving (hs : s.Window clientId requestId) : s.loop.Serving requestId := by
  intro id
  rw [hs.invariant.registered id, hs.pending, mem_singleton]

theorem worker_requestId (hs : s.Window clientId requestId) {w : Worker} (hw : s.worker = some w) :
    w.requestId = requestId := by
  have hpending := hs.invariant.pending_of_worker hw
  rw [hs.pending] at hpending
  exact (cons.inj hpending).1.symm

theorem send (hs : s.Window clientId requestId) {command : SessionCommand}
    (hext : command.isExternal = true)
    (h : s.step setup (.send command) = some { s with queue := s.queue ++ [command] }) :
    Window clientId requestId { s with queue := s.queue ++ [command] } ∧
      Adds clientId requestId (.send command) s { s with queue := s.queue ++ [command] } := by
  have hannounces := SessionCommand.announces_of_isExternal hext requestId
  have hpending : System.pending { s with queue := s.queue ++ [command] } = s.pending := by
    unfold System.pending
    rw [filterMap_append, filterMap_cons_none
      (SessionCommand.finishedId_of_isExternal hext), filterMap_nil, append_nil]
  refine ⟨⟨step_invariant hs.invariant h, hpending.trans hs.pending, hs.attached, hs.cancelled⟩,
    ?_, rfl, rfl⟩
  unfold owed
  rw [countP_append, countP_singleton, hannounces]
  rfl

theorem process (hs : s.Window clientId requestId) {env : CommandEnv} {command : SessionCommand}
    {queue : List SessionCommand} (hlive : s.live = true) (hqueue : s.queue = command :: queue)
    (hattached : s.Attached clientId (.process env)) :
    Window clientId requestId (s.processStep env command queue) ∧
      Adds clientId requestId (.process env) s (s.processStep env command queue) := by
  obtain ⟨hgone, hhead⟩ := hattached
  rw [hqueue] at hhead
  obtain ⟨hdetaches, hfin⟩ := hhead command rfl
  have hne : s.pending ≠ [] := by
    rw [hs.pending]
    exact cons_ne_nil _ _
  have hserves : Serves env clientId s.loop.clearSpawned.state.subscribers := ⟨hgone, hs.attached⟩
  obtain ⟨hreceived, hcancels⟩ :=
    Loop.Serving.processCommand (l := s.loop.clearSpawned) hs.serving hserves hfin
  obtain ⟨hpending, hworker⟩ := continued_pending hs.invariant env hqueue hfin hne
  have hhandles : ∀ kind, s.Handles kind (.process env) = kind command := by
    intro kind
    unfold Handles
    rw [hqueue]
    rfl
  rw [processStep_of_pending hs.invariant hlive env hqueue hfin hne]
  refine ⟨⟨continued_invariant hs.invariant hlive env hqueue, hpending.trans hs.pending,
    (Loop.serves_processCommand hserves hdetaches).2, fun w hw hcancelled => ?_⟩, ?_, ?_, ?_⟩
  · rw [hworker] at hw
    refine Nat.lt_of_lt_of_le (hs.cancelled w hw hcancelled) ?_
    exact Nat.le.intro hcancels.symm
  · unfold owed stopping repeating
    rw [hworker, hhandles, hhandles, hqueue, countP_cons]
    have hannounced : (if command.announces requestId = true then 1 else 0) =
        (command.announces requestId).toNat := by
      cases command.announces requestId <;> rfl
    rw [hannounced]
    have hlog : received clientId requestId (s.continued env command queue).loop.log =
        received clientId requestId s.loop.log + (command.stops requestId).toNat +
          (command.isInputOf requestId).toNat + (command.announces requestId).toNat := hreceived
    rw [hlog]
    change _ + (queue.countP _ + _) = _ + _ + (_ + _ + 0)
    omega
  · unfold stopping
    rw [hhandles]
    exact hcancels
  · unfold concluded
    rw [hworker]
    rfl

theorem work (hs : s.Window clientId requestId) {w : Worker} (hworker : s.worker = some w)
    {wlabel : WorkerLabel} {effect : WorkerEffect}
    (h : w.step setup (s.cancelPending w) wlabel s.loop.store = some effect) :
    Window clientId requestId (s.workStep effect) ∧
      Adds clientId requestId (.work wlabel) s (s.workStep effect) := by
  have hid := hs.worker_requestId hworker
  have hinv := workStep_invariant hs.invariant hworker h
  have hpending := (workStep_pending hs.invariant hworker h).trans hs.pending
  have hlive := hs.invariant.live_of_worker hworker
  have howed : s.owed requestId =
      s.queue.countP (SessionCommand.announces requestId) + w.owed := by
    unfold owed
    rw [hworker]
    rfl
  have howed' : (s.workStep effect).owed requestId =
      s.queue.countP (SessionCommand.announces requestId) +
        effect.command.toList.countP (SessionCommand.announces requestId) +
        (effect.worker.map Worker.owed).getD 0 := by
    unfold owed workStep
    simp only [hlive, if_true, countP_append]
  have hcounts : s.announcing (.work wlabel) = (w.announcing wlabel).toNat ∧
      s.endsCancelled (.work wlabel) = (w.endsCancelled wlabel).toNat := by
    unfold announcing endsCancelled
    rw [hworker]
    exact ⟨rfl, rfl⟩
  rcases Worker.step_shape h with ⟨w', hw', -, -, houtput, -⟩ | ⟨outcome, snapshot, hpc, heffect⟩
  · obtain ⟨hadds, hconcluded⟩ := Worker.step_owed (hs.invariant.worker w hworker) h hw'
    rw [hid] at hadds
    refine ⟨⟨hinv, hpending, hs.attached, fun w₁ hw₁ hcancelled => ?_⟩, ?_, rfl, ?_⟩
    · have hw₁' : effect.worker = some w₁ := hw₁
      rcases Worker.step_isCancelled h hw₁' hcancelled with hbefore | hpend
      · exact hs.cancelled w hworker hbefore
      · unfold System.cancelPending at hpend
        change 0 < s.loop.cancels requestId
        rw [hid] at hpend
        unfold Loop.cancels
        split at hpend
        · next active hactive =>
          rw [hactive]
          have hlt := of_decide_eq_true hpend
          exact Nat.lt_of_le_of_lt (Nat.zero_le _) hlt
        · cases hpend
    · have hlog : (s.workStep effect).loop.log = s.loop.log := by
        unfold workStep
        rw [houtput]
        rfl
      rw [hlog, howed, howed', hw', hcounts.1]
      change _ + (_ + w'.owed) = _ + _ + (0 + 0 + _)
      omega
    · unfold concluded
      rw [hcounts.1, hcounts.2, hworker]
      change (effect.worker.map _).getD 1 = _
      rw [hw']
      change w'.pc.isConcluding.toNat = w.pc.isConcluding.toNat + _
      omega
  · obtain ⟨rfl, hout⟩ := Worker.step_over h (congrArg WorkerEffect.worker heffect)
    have hnone : w.announcing .finish = false ∧ w.endsCancelled .finish = false := ⟨rfl, rfl⟩
    refine ⟨⟨hinv, hpending, hs.attached, fun w₁ hw₁ => ?_⟩, ?_, rfl, ?_⟩
    · have hw₁' : effect.worker = some w₁ := hw₁
      rw [heffect] at hw₁'
      cases hw₁'
    · have hzero : w.owed = 0 := by
        unfold Worker.owed
        rw [hout]
        rfl
      have hlog : received clientId requestId (s.workStep effect).loop.log =
          received clientId requestId s.loop.log := by
        unfold workStep
        rw [heffect]
        cases w.childReply <;> rfl
      rw [hlog, howed, howed', hcounts.1, hnone.1, hzero, heffect]
      rfl
    · unfold concluded
      rw [hcounts.1, hcounts.2, hnone.1, hnone.2, hworker]
      change (effect.worker.map _).getD 1 = _
      rw [heffect]
      simp only [Option.map_none, Option.getD_none, Option.map_some, Option.getD_some, hpc]
      rfl

theorem step (hs : s.Window clientId requestId) (hattached : s.Attached clientId label)
    (h : s.step setup label = some s') :
    s'.Window clientId requestId ∧ Adds clientId requestId label s s' := by
  rcases step_cases h with ⟨command, rfl, -, hext, rfl⟩ |
    ⟨env, command, queue, rfl, hlive, hqueue, rfl⟩ | ⟨wlabel, w, effect, rfl, hworker, hstep, rfl⟩ |
    ⟨boot, record, rfl, -, -⟩
  · exact hs.send hext h
  · exact hs.process hlive hqueue hattached
  · exact hs.work hworker hstep
  · exact absurd hattached id

end Window

/-! ### Announcements come before the end -/

/-- Every announcement for a request in a command channel is followed by the end of a request. -/
def Followed (requestId : ℕ) : List SessionCommand → Prop
  | [] => True
  | command :: queue =>
    (command.announces requestId = true → ∃ next ∈ queue, next.finishedId.isSome = true) ∧
      Followed requestId queue

theorem Followed.append {queue : List SessionCommand} (h : Followed requestId queue)
    {command : SessionCommand} (hcommand : command.announces requestId = false) :
    Followed requestId (queue ++ [command]) := by
  induction queue with
  | nil =>
    refine ⟨fun hannounces => ?_, trivial⟩
    rw [hcommand] at hannounces
    cases hannounces
  | cons first queue ih =>
    refine ⟨fun hannounces => ?_, ih h.2⟩
    obtain ⟨next, hnext, hfinished⟩ := h.1 hannounces
    exact ⟨next, mem_append_left _ hnext, hfinished⟩

theorem followed_append_finished (queue : List SessionCommand) {command : SessionCommand}
    (hcommand : command.announces requestId = false) (hfinished : command.finishedId.isSome = true) :
    Followed requestId (queue ++ [command]) := by
  induction queue with
  | nil =>
    have hnil : Followed requestId [] := trivial
    exact hnil.append hcommand
  | cons first queue ih =>
    exact ⟨fun _ => ⟨command, mem_append_right _ mem_cons_self, hfinished⟩, ih⟩

/-- Without the end of a request, a channel holds no announcement. -/
theorem Followed.countP_eq_zero {queue : List SessionCommand} (h : Followed requestId queue)
    (hnone : queue.filterMap SessionCommand.finishedId = []) :
    queue.countP (SessionCommand.announces requestId) = 0 := by
  induction queue with
  | nil => rfl
  | cons first queue ih =>
    rw [filterMap_eq_nil_iff] at hnone
    have hfirst : first.announces requestId = false := by
      by_contra hannounces
      obtain ⟨next, hnext, hfinished⟩ := h.1 (Bool.eq_true_of_not_eq_false hannounces)
      rw [hnone next (mem_cons_of_mem _ hnext)] at hfinished
      cases hfinished
    rw [countP_cons, hfirst]
    refine ih h.2 (filterMap_eq_nil_iff.2 fun next hnext => ?_)
    exact hnone next (mem_cons_of_mem _ hnext)

/-- Without a worker, every announcement in the channel is followed by the end of a request. -/
def Settled (requestId : ℕ) (s : System) : Prop :=
  s.worker = none → Followed requestId s.queue

theorem step_settled (hinv : s.Invariant) (hs : s.Settled requestId)
    (h : s.step setup label = some s') : s'.Settled requestId := by
  rcases step_cases h with ⟨command, -, -, hext, rfl⟩ |
    ⟨env, command, queue, -, -, hqueue, rfl⟩ | ⟨wlabel, w, effect, -, hworker, hstep, rfl⟩ |
    ⟨boot, record, -, -, rfl⟩
  · exact fun hnone => (hs hnone).append (SessionCommand.announces_of_isExternal hext requestId)
  · rcases s.processStep_cases env command queue with heq | ⟨-, heq⟩
    · rw [heq]
      intro hnone
      rcases continued_worker hinv env command queue with hsame | ⟨id, args, -, -, hspawned⟩
      · have hfollowed := hs (hsame.symm.trans hnone)
        rw [hqueue] at hfollowed
        exact hfollowed.2
      · cases hspawned.symm.trans hnone
    · rw [heq]
      exact fun _ => trivial
  · intro hnone
    rcases Worker.step_shape hstep with ⟨w', hw', -⟩ | ⟨outcome, snapshot, -, rfl⟩
    · cases hw'.symm.trans hnone
    · unfold workStep
      simp only [hinv.live_of_worker hworker, if_true, Option.toList_some]
      exact followed_append_finished s.queue rfl rfl
  · exact fun _ => trivial

variable {labels : List SystemLabel}

theorem settled_of_run {store : Store}
    (hrun : StepSystem.run (step setup) labels (init store) = some s) (requestId : ℕ) :
    s.Invariant ∧ s.Settled requestId :=
  StepSystem.invariant_of_run (I := fun s => s.Invariant ∧ s.Settled requestId)
    (fun _ _ _ hs hstep => ⟨step_invariant hs.1 hstep, step_settled hs.1 hs.2 hstep⟩)
    ⟨init_invariant store, fun _ => trivial⟩ hrun

/-! ### The number of terminal events -/

theorem window_of_accept (hinv : s.Invariant) (hsettled : ∀ id, s.Settled id) {env : CommandEnv}
    {args : WorkerArgs} (h : s.step setup (.process env) = some s')
    (hargs : s'.loop.spawned = some args) (hclient : clientId ∈ s'.loop.state.subscribers) :
    s'.Window clientId args.requestId ∧ s'.owed args.requestId = 0 ∧
      s'.loop.cancels args.requestId = 0 ∧ s'.concluded = 0 := by
  have hspawned : s'.loop.spawned.isSome = true := by
    rw [hargs]
    rfl
  obtain ⟨command, queue, id, args', -, hqueue, rfl, haccepts, hworker⟩ :=
    accepts_of_spawned h hspawned
  have heq : args' = args := Option.some.inj (haccepts.spawned.symm.trans hargs)
  subst heq
  have hinv' := step_invariant hinv h
  have hnil := hinv.pending_of_isEmpty haccepts.idle
  unfold pending at hnil
  rw [append_eq_nil_iff, map_eq_nil_iff, Option.toList_eq_nil_iff] at hnil
  have hzero := Followed.countP_eq_zero (hsettled args'.requestId hnil.1) hnil.2
  rw [hqueue, countP_cons] at hzero
  refine ⟨⟨hinv', hinv'.pending_of_worker hworker, hclient, fun w hw hcancelled => ?_⟩, ?_, ?_, ?_⟩
  · rw [hworker] at hw
    cases hw
    cases hcancelled
  · unfold owed
    rw [hworker]
    change queue.countP _ + 0 = 0
    omega
  · unfold Loop.cancels
    rw [haccepts.active, haccepts.args_requestId, Std.ExtTreeMap.get_insert, if_pos rfl]
    rfl
  · unfold concluded
    rw [hworker]
    rfl

/-- When the end of a request is about to be handled, all of its announcements were. -/
theorem owed_of_finishing (hs : s.Window clientId requestId) (hsettled : s.Settled requestId)
    (hfinishing : s.finishing.isSome = true) : s.owed requestId = 0 ∧ s.concluded = 1 := by
  obtain ⟨id, snapshot, queue, hqueue⟩ := exists_of_isSome_finishing hfinishing
  have hlength := congrArg List.length hs.pending
  unfold System.pending at hlength
  rw [hqueue] at hlength
  change (s.worker.toList.map Worker.requestId ++
    id :: queue.filterMap SessionCommand.finishedId).length = 1 at hlength
  simp only [length_append, List.length_map, length_cons] at hlength
  have hworker : s.worker = none :=
    Option.toList_eq_nil_iff.1 (eq_nil_of_length_eq_zero (by omega))
  have hrest : queue.filterMap SessionCommand.finishedId = [] :=
    eq_nil_of_length_eq_zero (by omega)
  have hfollowed := hsettled hworker
  rw [hqueue] at hfollowed
  unfold owed concluded
  rw [hworker, hqueue, countP_cons, Followed.countP_eq_zero hfollowed.2 hrest]
  exact ⟨rfl, rfl⟩

theorem received_of_finishing {env : CommandEnv} (hfinishing : s.finishing.isSome = true)
    (h : s.step setup (.process env) = some s') (clientId requestId : ℕ) :
    received clientId requestId s'.loop.log = received clientId requestId s.loop.log := by
  obtain ⟨id, snapshot, queue, hqueue⟩ := exists_of_isSome_finishing hfinishing
  rcases step_cases h with ⟨command, heq, -⟩ | ⟨env', command, queue', heq, -, hqueue', rfl⟩ |
    ⟨wlabel, w, effect, heq, -⟩ | ⟨boot, record, heq, -⟩
  · cases heq
  · cases heq
    cases hqueue.symm.trans hqueue'
    obtain ⟨sent, hlog, hsent⟩ :=
      Loop.log_handleRequestFinished env id snapshot s.loop.clearSpawned
    have hreceived : received clientId requestId
        (s.continued env (.requestFinished id snapshot) queue).loop.log =
        received clientId requestId s.loop.log := by
      change received clientId requestId
        (s.loop.clearSpawned.handleRequestFinished env id snapshot).1.log = _
      unfold received
      rw [hlog, countP_append]
      refine Nat.add_eq_right.2 (List.countP_eq_zero.2 fun o ho => ?_)
      rw [Output.isTerminalFor_of_isQuiet (hsent o ho)]
      exact Bool.false_ne_true
    rcases s.processStep_cases env (.requestFinished id snapshot) queue with heq | ⟨-, heq⟩
    · rw [heq]
      exact hreceived
    · rw [heq]
      exact hreceived
  · cases heq
  · cases heq

/-- What a run adds while a request is in flight. -/
theorem window_run (hs : s.Window clientId requestId)
    (hattached : StepSystem.Along (step setup) (Attached clientId) labels s)
    (hrun : StepSystem.run (step setup) labels s = some s') :
    s'.Window clientId requestId ∧
      received clientId requestId s'.loop.log + s'.owed requestId =
        received clientId requestId s.loop.log + s.owed requestId +
          StepSystem.total (step setup) (fun label s => s.stopping requestId label +
            s.repeating requestId label + s.announcing label) labels s ∧
      s'.loop.cancels requestId = s.loop.cancels requestId +
        StepSystem.total (step setup) (stopping requestId) labels s ∧
      s'.concluded = s.concluded +
        StepSystem.total (step setup) (fun label s => s.announcing label + s.endsCancelled label)
          labels s := by
  have hreceived := StepSystem.balance_of_along (I := Window clientId requestId)
    (fun s => received clientId requestId s.loop.log + s.owed requestId)
    (fun _ _ _ hlabel hs hstep => (hs.step hlabel hstep).imp_right Adds.received) hs hattached hrun
  have hcancels := StepSystem.balance_of_along (I := Window clientId requestId)
    (fun s => s.loop.cancels requestId)
    (fun _ _ _ hlabel hs hstep => (hs.step hlabel hstep).imp_right Adds.cancels) hs hattached hrun
  have hconcluded := StepSystem.balance_of_along (I := Window clientId requestId)
    System.concluded
    (fun _ _ _ hlabel hs hstep => (hs.step hlabel hstep).imp_right Adds.concluded) hs hattached hrun
  exact ⟨hreceived.1, hreceived.2, hcancels.2, hconcluded.2⟩

theorem stopping_of_endsCancelled (hs : s.Window clientId requestId) (hzero : s.loop.cancels requestId = 0)
    (hattached : StepSystem.Along (step setup) (Attached clientId) labels s)
    (hends : 0 < StepSystem.total (step setup) endsCancelled labels s) :
    0 < StepSystem.total (step setup) (stopping requestId) labels s := by
  obtain ⟨labels₁, label, labels₂, s₁, rfl, hrun, hpos⟩ := StepSystem.exists_of_total_pos hends
  have hattached₁ := ((StepSystem.along_append hrun).1 hattached).1
  obtain ⟨hs₁, -, hcancels, -⟩ := window_run hs hattached₁ hrun
  have hstopped : 0 < s₁.loop.cancels requestId := by
    unfold endsCancelled at hpos
    split at hpos
    · next wlabel w hworker =>
      refine hs₁.cancelled w hworker ?_
      unfold Worker.endsCancelled at hpos
      split at hpos
      · next outcome snapshot hpc =>
        rw [hpc]
        cases outcome with
        | cancelled => rfl
        | done | failed error => cases hpos
      · cases hpos
    · cases hpos
  rw [StepSystem.total_append hrun]
  omega

/-- A client that is attached from the start of a request to its end gets exactly one terminal event
of it if and only if no other input came under its id, and either nothing stopped it, or one stop
did and the worker ended as cancelled. -/
theorem received_finished_iff (setup : AgentSetup) {store : Store} {before labels : List SystemLabel}
    {s₀ s₁ s₂ s₃ : System} {env env' : CommandEnv} {args : WorkerArgs} {clientId : ℕ}
    (hbefore : StepSystem.run (step setup) before (init store) = some s₀)
    (haccept : s₀.step setup (.process env) = some s₁) (hargs : s₁.loop.spawned = some args)
    (hclient : clientId ∈ s₁.loop.state.subscribers)
    (hattached : StepSystem.Along (step setup) (Attached clientId) labels s₁)
    (hrun : StepSystem.run (step setup) labels s₁ = some s₂)
    (hfinishing : s₂.finishing.isSome = true)
    (hfinish : s₂.step setup (.process env') = some s₃) :
    received clientId args.requestId s₃.loop.log =
        received clientId args.requestId s₁.loop.log + 1 ↔
      StepSystem.total (step setup) (repeating args.requestId) labels s₁ = 0 ∧
        (StepSystem.total (step setup) (stopping args.requestId) labels s₁ = 0 ∨
          StepSystem.total (step setup) (stopping args.requestId) labels s₁ = 1 ∧
            StepSystem.total (step setup) endsCancelled labels s₁ = 1) := by
  obtain ⟨hinv₀, -⟩ := settled_of_run hbefore 0
  obtain ⟨hs₁, howed₁, hcancels₁, hconcluded₁⟩ := window_of_accept hinv₀
    (fun id => (settled_of_run hbefore id).2) haccept hargs hclient
  obtain ⟨hs₂, hreceived, -, hconcluded⟩ := window_run hs₁ hattached hrun
  have hrun₂ : StepSystem.run (step setup) (before ++ .process env :: labels) (init store) =
      some s₂ :=
    StepSystem.run_append_eq_some.2
      ⟨s₀, hbefore, StepSystem.run_cons_eq_some.2 ⟨s₁, haccept, hrun⟩⟩
  obtain ⟨howed₂, hconcluded₂⟩ := owed_of_finishing hs₂ (settled_of_run hrun₂ _).2 hfinishing
  have hstopped := stopping_of_endsCancelled hs₁ hcancels₁ hattached
  rw [received_of_finishing hfinishing hfinish]
  simp only [StepSystem.total_add] at hreceived hconcluded
  omega

/-- A client is attached, and an input waits in the command channel. -/
def inputOfClient : List SystemLabel :=
  [SystemLabel.restart Sample.boot] ++ Sample.post (.attach 7) ++ [SystemLabel.send (.runInput 1 "again")]

/-- A cancel that the model call notices. -/
def cancelledCall : List SystemLabel :=
  Sample.call ++ Sample.drain 3 ++ Sample.post (.cancel 1) ++
    [SystemLabel.work (.reply .cancelled), .work .conclude, .work .finish]

/-- A cancel that comes while the model answers. -/
def answeredCall : List SystemLabel :=
  Sample.call ++ Sample.drain 3 ++ Sample.post (.cancel 1) ++ Sample.answer none ++ Sample.drain 3

/-- A client gets one terminal event of a request whose model call notices the cancel. -/
theorem received_cancelledCall :
    ∃ s₀ s₁ s₂ s₃ args,
      StepSystem.run (step Sample.setup) inputOfClient (init Sample.oneTurn) = some s₀ ∧
      s₀.step Sample.setup (.process Sample.env) = some s₁ ∧ s₁.loop.spawned = some args ∧
      StepSystem.run (step Sample.setup) cancelledCall s₁ = some s₂ ∧
      s₂.step Sample.setup (.process Sample.env) = some s₃ ∧
      received 7 args.requestId s₃.loop.log = received 7 args.requestId s₁.loop.log + 1 := by
  have hall : ((StepSystem.run (step Sample.setup) inputOfClient (init Sample.oneTurn)).bind fun s₀ =>
      (s₀.step Sample.setup (.process Sample.env)).bind fun s₁ =>
      s₁.loop.spawned.bind fun args =>
      (StepSystem.run (step Sample.setup) cancelledCall s₁).bind fun s₂ =>
      (s₂.step Sample.setup (.process Sample.env)).map fun _ =>
        decide (7 ∈ s₁.loop.state.subscribers ∧
          StepSystem.Along (step Sample.setup) (Attached 7) cancelledCall s₁ ∧
          s₂.finishing.isSome = true ∧
          StepSystem.total (step Sample.setup) (repeating args.requestId) cancelledCall s₁ = 0 ∧
          StepSystem.total (step Sample.setup) (stopping args.requestId) cancelledCall s₁ = 1 ∧
          StepSystem.total (step Sample.setup) endsCancelled cancelledCall s₁ = 1)) = some true := by
    decide +kernel
  simp only [Option.bind_eq_some_iff, Option.map_eq_some_iff, decide_eq_true_eq] at hall
  obtain ⟨s₀, hbefore, s₁, haccept, args, hargs, s₂, hrun, s₃, hfinish, hclient, hattached,
    hfinishing, hrepeating, hstopping, hends⟩ := hall
  refine ⟨s₀, s₁, s₂, s₃, args, hbefore, haccept, hargs, hrun, hfinish, ?_⟩
  exact (received_finished_iff Sample.setup hbefore haccept hargs hclient hattached hrun hfinishing
    hfinish).2 ⟨hrepeating, Or.inr ⟨hstopping, hends⟩⟩

/-- A client gets two terminal events of a request whose answer comes after the cancel. -/
theorem received_answeredCall :
    ∃ s₀ s₁ s₂ s₃ args,
      StepSystem.run (step Sample.setup) inputOfClient (init Sample.oneTurn) = some s₀ ∧
      s₀.step Sample.setup (.process Sample.env) = some s₁ ∧ s₁.loop.spawned = some args ∧
      7 ∈ s₁.loop.state.subscribers ∧
      StepSystem.Along (step Sample.setup) (Attached 7) answeredCall s₁ ∧
      StepSystem.run (step Sample.setup) answeredCall s₁ = some s₂ ∧
      s₂.finishing.isSome = true ∧
      s₂.step Sample.setup (.process Sample.env) = some s₃ ∧
      received 7 args.requestId s₃.loop.log = received 7 args.requestId s₁.loop.log + 2 := by
  have hall : ((StepSystem.run (step Sample.setup) inputOfClient (init Sample.oneTurn)).bind fun s₀ =>
      (s₀.step Sample.setup (.process Sample.env)).bind fun s₁ =>
      s₁.loop.spawned.bind fun args =>
      (StepSystem.run (step Sample.setup) answeredCall s₁).bind fun s₂ =>
      (s₂.step Sample.setup (.process Sample.env)).map fun s₃ =>
        decide (7 ∈ s₁.loop.state.subscribers ∧
          StepSystem.Along (step Sample.setup) (Attached 7) answeredCall s₁ ∧
          s₂.finishing.isSome = true ∧
          received 7 args.requestId s₃.loop.log = received 7 args.requestId s₁.loop.log + 2)) =
      some true := by
    decide +kernel
  simp only [Option.bind_eq_some_iff, Option.map_eq_some_iff, decide_eq_true_eq] at hall
  obtain ⟨s₀, hbefore, s₁, haccept, args, hargs, s₂, hrun, s₃, hfinish, hclient, hattached,
    hfinishing, hreceived⟩ := hall
  exact ⟨s₀, s₁, s₂, s₃, args, hbefore, haccept, hargs, hclient, hattached, hrun, hfinishing,
    hfinish, hreceived⟩

end System

end Choreo
