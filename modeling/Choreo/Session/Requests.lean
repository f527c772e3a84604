import Choreo.Session.System
import Choreo.Agent.Ownership

/-!
# One request at a time

A session accepts a request only while it has none. This file follows the request in flight through
all runs: it is registered exactly as long as its worker runs or its `RequestFinished` waits in the
command channel.
-/

namespace Choreo

open List Option

namespace System

variable {setup : AgentSetup} {label : SystemLabel} {s s' : System}

/-- The four kinds of steps. -/
theorem step_cases (h : s.step setup label = some s') :
    (∃ command, label = .send command ∧ s.live = true ∧ command.isExternal = true ∧
      s' = { s with queue := s.queue ++ [command] }) ∨
    (∃ env command queue, label = .process env ∧ s.live = true ∧ s.queue = command :: queue ∧
      s' = s.processStep env command queue) ∨
    (∃ wlabel w effect, label = .work wlabel ∧ s.worker = some w ∧
      w.step setup (s.cancelPending w) wlabel s.loop.store = some effect ∧
      s' = s.workStep effect) ∨
    ∃ boot record, label = .restart boot ∧ s.loop.store.record = some record ∧
      s' = { live := true
             loop := Loop.sessionMain boot record s.loop.store s.loop.log
             queue := []
             worker := none } := by
  cases label with
  | send command =>
    simp only [step] at h
    split_ifs at h with hcond
    cases h
    rw [Bool.and_eq_true] at hcond
    exact Or.inl ⟨command, rfl, hcond.1, hcond.2, rfl⟩
  | process env =>
    simp only [step] at h
    split at h
    · next command queue hlive hqueue =>
      cases h
      exact Or.inr (Or.inl ⟨env, command, queue, rfl, hlive, hqueue, rfl⟩)
    · cases h
  | work wlabel =>
    simp only [step] at h
    split at h
    · next w hworker =>
      rw [map_eq_some_iff] at h
      obtain ⟨effect, heffect, rfl⟩ := h
      exact Or.inr (Or.inr (Or.inl ⟨wlabel, w, effect, rfl, hworker, heffect, rfl⟩))
    · cases h
  | restart boot =>
    simp only [step] at h
    split at h
    · next record hrecord =>
      cases h
      exact Or.inr (Or.inr (Or.inr ⟨boot, record, rfl, hrecord, rfl⟩))
    · cases h

end System

def SessionCommand.finishedId : SessionCommand → Option ℕ
  | .requestFinished requestId _ => some requestId
  | _ => none

variable {command : SessionCommand}

theorem SessionCommand.finishedId_of_isExternal
    (h : command.isExternal = true) : command.finishedId = none := by
  cases command with
  | requestFinished requestId snapshot => cases h
  | _ => rfl

theorem SessionCommand.finishedId_of_isUpdate
    (h : command.isUpdate = true) : command.finishedId = none := by
  cases command with
  | requestFinished requestId snapshot => cases h
  | _ => rfl

theorem Worker.finishedId_of_mem_outcomeCommands {w : Worker} {outcome : RequestOutcome}
    (h : command ∈ w.outcomeCommands outcome) :
    command.finishedId = none := by
  cases outcome with
  | done | failed error =>
    rw [mem_singleton.1 h]
    rfl
  | cancelled => exact absurd h not_mem_nil

theorem Worker.Invariant.finishedId_of_mem_outbox {w : Worker} (hw : w.Invariant)
    (h : command ∈ w.outbox) : command.finishedId = none := by
  rcases hw.outbox command h with hupdate | ⟨outcome, snapshot, -, hmem⟩
  · exact SessionCommand.finishedId_of_isUpdate hupdate
  · exact Worker.finishedId_of_mem_outcomeCommands hmem

namespace System

def pending (s : System) : List ℕ :=
  s.worker.toList.map Worker.requestId ++ s.queue.filterMap SessionCommand.finishedId

/-- What holds of a session at any time: at most one request is pending, the registered requests are
the pending ones, none is pending while the thread does not run, and the worker keeps its own
invariant. -/
structure Invariant (s : System) : Prop where
  single : s.pending.length ≤ 1
  registered : ∀ id, s.loop.state.activeRequests[id]?.isSome = true ↔ id ∈ s.pending
  stopped : s.live = false → s.pending = [] ∧ s.queue = []
  worker : ∀ w, s.worker = some w → w.Invariant

variable {setup : AgentSetup} {label : SystemLabel} {s s' : System}

theorem init_invariant (store : Store) : (init store).Invariant where
  single := Nat.zero_le 1
  registered id := by
    have hnone : (init store).loop.state.activeRequests[id]? = none :=
      Std.ExtTreeMap.getElem?_empty
    rw [hnone]
    exact ⟨fun h => (by cases h), fun h => absurd h not_mem_nil⟩
  stopped _ := ⟨rfl, rfl⟩
  worker _ hw := by cases hw

namespace Invariant

theorem pending_of_isEmpty (hs : s.Invariant)
    (h : s.loop.state.activeRequests.isEmpty = true) : s.pending = [] := by
  refine eq_nil_iff_forall_not_mem.2 fun id hid => ?_
  have hsome := (hs.registered id).2 hid
  rw [Std.ExtTreeMap.isSome_getElem?_iff_mem] at hsome
  rw [Std.ExtTreeMap.isEmpty_iff] at h
  rw [h] at hsome
  exact Std.ExtTreeMap.not_mem_empty hsome

theorem live_of_worker (hs : s.Invariant) {w : Worker} (hw : s.worker = some w) :
    s.live = true := by
  by_contra hlive
  have hnil := (hs.stopped (Bool.eq_false_iff.2 hlive)).1
  unfold pending at hnil
  rw [hw] at hnil
  cases hnil

theorem finished_of_worker (hs : s.Invariant) {w : Worker} (hw : s.worker = some w) :
    s.queue.filterMap SessionCommand.finishedId = [] := by
  have hsingle := hs.single
  unfold pending at hsingle
  rw [hw, length_append] at hsingle
  refine eq_nil_of_length_eq_zero ?_
  change 1 + _ ≤ 1 at hsingle
  omega

theorem pending_of_worker (hs : s.Invariant) {w : Worker} (hw : s.worker = some w) :
    s.pending = [w.requestId] := by
  unfold pending
  rw [hs.finished_of_worker hw, hw]
  rfl

end Invariant

end System

theorem Loop.isEmpty_of_canExit {l : Loop} (h : l.canExit = true) :
    l.state.activeRequests.isEmpty = true := by
  unfold canExit at h
  rw [Bool.and_eq_true] at h
  exact h.1

/-- The commands on which a session thread may end. -/
def SessionCommand.canEnd : SessionCommand → Bool
  | .detach _ | .removeSubscriber _ | .requestFinished .. | .shutdown => true
  | _ => false

theorem Loop.canEnd_of_exit {env : CommandEnv} {l : Loop}
    (h : (l.processCommand env command).2 = true) : command.canEnd = true := by
  cases command with
  | runInput requestId input =>
    rcases l.handleRunInput_cases env requestId input with
      ⟨l₁, error, -, heq⟩ | ⟨l₁, provider, model, -, -, -, -, heq⟩ <;>
    · simp only [processCommand, heq] at h
      cases h
  | runChildInput requestId userText reply =>
    rcases l.handleRunChildInput_cases env requestId userText reply with
      ⟨error, heq⟩ | ⟨provider, -, -, -, heq⟩ <;>
    · simp only [processCommand, heq] at h
      cases h
  | setModel model =>
    simp only [processCommand, handleSetModel] at h
    split at h <;> cases h
  | setTitle title =>
    simp only [processCommand, handleSetTitle] at h
    split_ifs at h
  | loadTools groups reply =>
    simp only [processCommand, handleLoadTools, changeToolGroups] at h
    split at h <;> cases h
  | unloadTools groups reply =>
    simp only [processCommand, handleUnloadTools, changeToolGroups] at h
    split at h <;> cases h
  | setReasoningEffort effort =>
    simp only [processCommand, handleSetReasoningEffort] at h
    split_ifs at h
  | undo =>
    simp only [processCommand, handleUndo] at h
    split at h <;> cases h
  | redo =>
    simp only [processCommand, handleRedo] at h
    split at h <;> cases h
  | detach | removeSubscriber | requestFinished | shutdown => rfl
  | _ => cases h

/-- A session thread only ends when it has no request. -/
theorem Loop.isEmpty_of_exit (env : CommandEnv) (command : SessionCommand) (l : Loop)
    (h : (l.processCommand env command).2 = true) :
    (l.processCommand env command).1.state.activeRequests.isEmpty = true := by
  have hend := canEnd_of_exit h
  cases command with
  | detach clientId => exact isEmpty_of_canExit h
  | removeSubscriber clientId | requestFinished requestId snapshot => exact isEmpty_of_canExit h
  | shutdown => exact h
  | _ => cases hend

namespace System

/-- The session after a command that does not end its thread. -/
def continued (env : CommandEnv) (command : SessionCommand) (queue : List SessionCommand)
    (s : System) : System :=
  { s with
    loop := (s.loop.clearSpawned.processCommand env command).1
    queue := queue
    worker :=
      match (s.loop.clearSpawned.processCommand env command).1.spawned with
      | some args => some (Worker.spawn args)
      | none => s.worker }

theorem processStep_cases (env : CommandEnv) (command : SessionCommand)
    (queue : List SessionCommand) (s : System) :
    s.processStep env command queue = s.continued env command queue ∨
    (s.continued env command queue).loop.state.activeRequests.isEmpty = true ∧
      s.processStep env command queue =
        { s with
          live := false
          loop := (s.continued env command queue).loop.persistAndExit env
          queue := [] } := by
  have hexit := Loop.isEmpty_of_exit env command s.loop.clearSpawned
  unfold processStep continued
  dsimp only
  split_ifs with h
  · exact Or.inr ⟨hexit h, rfl⟩
  · exact Or.inl rfl

variable {command : SessionCommand} {queue : List SessionCommand} {env : CommandEnv}

theorem processStep_eq_continued
    {s : System}
    (h : (s.loop.clearSpawned.processCommand env command).2 = false) :
    s.processStep env command queue = s.continued env command queue := by
  unfold processStep continued
  dsimp only
  rw [h]
  rfl

variable {setup : AgentSetup} {label : SystemLabel} {s s' : System}

/-- A command that neither starts nor ends a request. -/
theorem continued_invariant_of_requests (hs : s.Invariant) (hlive : s.live = true)
    (hqueue : s.queue = command :: queue) (hfin : command.finishedId = none)
    (hids : ∀ id : ℕ, (s.loop.clearSpawned.processCommand env
      command).1.state.activeRequests[id]?.isSome = s.loop.state.activeRequests[id]?.isSome)
    (hspawned : (s.loop.clearSpawned.processCommand env command).1.spawned =
      none) : (s.continued env command queue).Invariant := by
  have hworker : (s.continued env command queue).worker = s.worker := by
    unfold continued
    rw [hspawned]
  have hpending : (s.continued env command queue).pending = s.pending := by
    unfold pending
    rw [hworker, hqueue, filterMap_cons_none hfin]
    rfl
  refine ⟨?_, ?_, ?_, ?_⟩
  · rw [hpending]
    exact hs.single
  · intro id
    rw [hpending]
    exact (Bool.eq_iff_iff.1 (hids id)).trans (hs.registered id)
  · intro hstop
    cases hlive.symm.trans hstop
  · rw [hworker]
    exact hs.worker

/-- A command that starts a request. -/
theorem continued_invariant_of_accepts (hs : s.Invariant) (hlive : s.live = true)
    (hqueue : s.queue = command :: queue) {requestId : ℕ} {args : WorkerArgs}
    (h : s.loop.clearSpawned.Accepts requestId args
      (s.loop.clearSpawned.processCommand env command).1) :
    (s.continued env command queue).Invariant := by
  have hnil : s.pending = [] := hs.pending_of_isEmpty h.idle
  have hfinished : queue.filterMap SessionCommand.finishedId = [] := by
    unfold pending at hnil
    rw [append_eq_nil_iff, hqueue] at hnil
    refine filterMap_eq_nil_iff.2 fun c hc => ?_
    exact filterMap_eq_nil_iff.1 hnil.2 c (mem_cons_of_mem _ hc)
  have hworker : (s.continued env command queue).worker = some (Worker.spawn args) := by
    unfold continued
    rw [h.spawned]
  have hpending : (s.continued env command queue).pending = [requestId] := by
    unfold pending
    rw [hworker]
    change [args.requestId] ++ queue.filterMap SessionCommand.finishedId = _
    rw [hfinished, h.args_requestId]
    rfl
  refine ⟨?_, ?_, ?_, ?_⟩
  · rw [hpending]
    exact le_refl _
  · intro id
    rw [hpending, mem_singleton]
    change (Loop.processCommand env command _).1.state.activeRequests[id]?.isSome = true ↔ _
    rw [h.active, Std.ExtTreeMap.get_insert]
    split_ifs with hid
    · exact ⟨fun _ => hid, fun _ => rfl⟩
    · have hnone := (hs.registered id).not
      rw [hnil] at hnone
      have hid' := hnone.2 not_mem_nil
      exact ⟨fun hsome => absurd hsome hid', fun heq => absurd heq hid⟩
  · intro hstop
    cases hlive.symm.trans hstop
  · intro w hw
    rw [hworker] at hw
    cases hw
    exact Worker.spawn_invariant h.args_session

/-- The end of a request. -/
theorem continued_invariant_of_finished (hs : s.Invariant) (hlive : s.live = true)
    (env : CommandEnv) {requestId : ℕ} {snapshot : SessionSnapshot}
    (hqueue : s.queue = .requestFinished requestId snapshot :: queue) :
    (s.continued env (.requestFinished requestId snapshot) queue).Invariant ∧
      (s.continued env (.requestFinished requestId snapshot) queue).pending = [] := by
  have hreq := Loop.processCommand_requests env (.requestFinished requestId snapshot)
    s.loop.clearSpawned
  simp only [Loop.requests, Prod.mk.injEq, Loop.clearSpawned_state,
    Loop.clearSpawned_spawned] at hreq
  have hworker : (s.continued env (.requestFinished requestId snapshot) queue).worker = s.worker := by
    unfold continued
    rw [hreq.2.1]
  have hsingle := hs.single
  have hregistered := hs.registered
  unfold pending at hsingle hregistered
  have hcons : s.queue.filterMap SessionCommand.finishedId =
      requestId :: queue.filterMap SessionCommand.finishedId := by
    rw [hqueue]
    exact filterMap_cons_some rfl
  rw [hcons] at hsingle hregistered
  rw [length_append, length_cons] at hsingle
  have hnone : s.worker.toList.map Worker.requestId = [] :=
    eq_nil_of_length_eq_zero (by omega)
  have hrest : queue.filterMap SessionCommand.finishedId = [] :=
    eq_nil_of_length_eq_zero (by omega)
  rw [hnone, hrest] at hregistered
  have hpending :
      (s.continued env (.requestFinished requestId snapshot) queue).pending = [] := by
    unfold pending
    rw [hworker, hnone]
    exact hrest
  refine ⟨⟨?_, ?_, ?_, ?_⟩, hpending⟩
  · rw [hpending]
    exact Nat.zero_le 1
  · intro id
    rw [hpending]
    change (Loop.processCommand env _ _).1.state.activeRequests[id]?.isSome = true ↔ _
    rw [hreq.1, Std.ExtTreeMap.get_erase]
    split_ifs with hid
    · exact ⟨fun h => (by cases h), fun h => absurd h not_mem_nil⟩
    · rw [hregistered id]
      simp only [nil_append, mem_singleton, not_mem_nil, hid]
  · intro hstop
    cases hlive.symm.trans hstop
  · rw [hworker]
    exact hs.worker

theorem continued_invariant (hs : s.Invariant) (hlive : s.live = true) (env : CommandEnv)
    (hqueue : s.queue = command :: queue) :
    (s.continued env command queue).Invariant := by
  have hreq := Loop.processCommand_requests env command s.loop.clearSpawned
  have hsame : ∀ {l' : Loop}, l'.requests = s.loop.clearSpawned.requests →
      (∀ id : ℕ, l'.state.activeRequests[id]?.isSome = s.loop.state.activeRequests[id]?.isSome) ∧
        l'.spawned = none := by
    intro l' h
    simp only [Loop.requests, Prod.mk.injEq] at h
    exact ⟨fun id => by rw [h.1, Loop.clearSpawned_state], h.2.1⟩
  have hkept : ∀ {l' : Loop},
      (∀ id : ℕ, l'.state.activeRequests[id]?.map ActiveRequest.turnId =
        s.loop.state.activeRequests[id]?.map ActiveRequest.turnId) →
      ∀ id : ℕ, l'.state.activeRequests[id]?.isSome = s.loop.state.activeRequests[id]?.isSome := by
    intro l' h id
    rw [← isSome_map (f := ActiveRequest.turnId), h id, isSome_map]
  cases command with
  | runInput requestId input | runChildInput requestId userText reply =>
    rcases hreq with hreq | ⟨args, haccepts⟩
    · obtain ⟨hids, hspawned⟩ := hsame hreq
      exact continued_invariant_of_requests hs hlive hqueue rfl hids hspawned
    · exact continued_invariant_of_accepts hs hlive hqueue haccepts
  | requestFinished requestId snapshot =>
    exact (continued_invariant_of_finished hs hlive env hqueue).1
  | cancel requestId =>
    exact continued_invariant_of_requests hs hlive hqueue rfl (hkept hreq.1) hreq.2
  | shutdown => exact continued_invariant_of_requests hs hlive hqueue rfl (hkept hreq.1) hreq.2
  | _ =>
    obtain ⟨hids, hspawned⟩ := hsame hreq
    exact continued_invariant_of_requests hs hlive hqueue rfl hids hspawned

/-- A command spawns a worker only when it accepts a request. -/
theorem processCommand_spawned (env : CommandEnv) (command : SessionCommand) (l : Loop) :
    (l.clearSpawned.processCommand env command).1.spawned = none ∨
      ∃ requestId args, l.clearSpawned.Accepts requestId args
        (l.clearSpawned.processCommand env command).1 := by
  have hreq := Loop.processCommand_requests env command l.clearSpawned
  cases command with
  | runInput requestId input | runChildInput requestId userText reply =>
    rcases hreq with hreq | ⟨args, haccepts⟩
    · exact Or.inl (congrArg (fun r => r.2.1) hreq)
    · exact Or.inr ⟨requestId, args, haccepts⟩
  | cancel requestId | shutdown => exact Or.inl hreq.2
  | requestFinished requestId snapshot | _ => exact Or.inl (congrArg (fun r => r.2.1) hreq)

/-- After a command, the worker is the one from before, or the first one of a request that was
accepted. -/
theorem continued_worker (hs : s.Invariant) (env : CommandEnv) (command : SessionCommand)
    (queue : List SessionCommand) :
    (s.continued env command queue).worker = s.worker ∨
      ∃ requestId args, s.loop.clearSpawned.Accepts requestId args
          (s.continued env command queue).loop ∧ s.worker = none ∧
        (s.continued env command queue).worker = some (Worker.spawn args) := by
  rcases processCommand_spawned env command s.loop with hnone | ⟨requestId, args, haccepts⟩
  · left
    unfold continued
    rw [hnone]
  · refine Or.inr ⟨requestId, args, haccepts, ?_, ?_⟩
    · have hnil := hs.pending_of_isEmpty haccepts.idle
      cases hw : s.worker with
      | none => rfl
      | some w =>
        rw [hs.pending_of_worker hw] at hnil
        cases hnil
    · unfold continued
      rw [haccepts.spawned]

/-- A step that spawns a worker accepts a request. -/
theorem accepts_of_spawned (h : s.step setup (.process env) = some s')
    (hspawned : s'.loop.spawned.isSome = true) :
    ∃ command queue requestId args, s.live = true ∧ s.queue = command :: queue ∧
      s' = s.continued env command queue ∧ s.loop.clearSpawned.Accepts requestId args s'.loop ∧
      s'.worker = some (Worker.spawn args) := by
  rcases step_cases h with ⟨command, heq, -⟩ | ⟨env', command, queue, heq, hlive, hqueue, rfl⟩ |
    ⟨wlabel, w, effect, heq, -⟩ | ⟨boot, record, heq, -⟩
  · cases heq
  · cases heq
    have hloop : (s.processStep env command queue).loop.spawned =
        (s.loop.clearSpawned.processCommand env command).1.spawned := by
      rcases s.processStep_cases env command queue with heq | ⟨-, heq⟩ <;> rw [heq] <;> rfl
    rcases processCommand_spawned env command s.loop with hnone | ⟨requestId, args, haccepts⟩
    · rw [hloop, hnone] at hspawned
      cases hspawned
    · rcases s.processStep_cases env command queue with heq | ⟨hempty, -⟩
      · rw [heq]
        refine ⟨command, queue, requestId, args, hlive, hqueue, rfl, haccepts, ?_⟩
        unfold continued
        rw [haccepts.spawned]
      · have hsome : (s.continued env command queue).loop.state.activeRequests[requestId]? =
            some { cancelsSent := 0, turnId := s.loop.state.nextTurnId } := by
          change (s.loop.clearSpawned.processCommand env
            command).1.state.activeRequests[requestId]? = _
          rw [haccepts.active, Std.ExtTreeMap.get_insert, if_pos rfl]
          rfl
        rw [Std.ExtTreeMap.isEmpty_iff] at hempty
        rw [hempty, Std.ExtTreeMap.getElem?_empty] at hsome
        cases hsome
  · cases heq
  · cases heq

theorem continued_pending (hs : s.Invariant) (env : CommandEnv)
    (hqueue : s.queue = command :: queue)
    (hfin : command.finishedId = none) (hpending : s.pending ≠ []) :
    (s.continued env command queue).pending = s.pending ∧
      (s.continued env command queue).worker = s.worker := by
  have hworker : (s.continued env command queue).worker = s.worker := by
    rcases continued_worker hs env command queue with hsame | ⟨requestId, args, haccepts, -, -⟩
    · exact hsame
    · exact absurd (hs.pending_of_isEmpty haccepts.idle) hpending
  refine ⟨?_, hworker⟩
  unfold pending
  rw [hworker, hqueue, filterMap_cons_none hfin]
  rfl

theorem processStep_of_pending (hs : s.Invariant) (hlive : s.live = true) (env : CommandEnv)
    (hqueue : s.queue = command :: queue)
    (hfin : command.finishedId = none) (hpending : s.pending ≠ []) :
    s.processStep env command queue = s.continued env command queue := by
  rcases s.processStep_cases env command queue with heq | ⟨hempty, -⟩
  · exact heq
  · have hnil := (continued_invariant hs hlive env hqueue).pending_of_isEmpty hempty
    rw [(continued_pending hs env hqueue hfin hpending).1] at hnil
    exact absurd hnil hpending

theorem processStep_invariant (hs : s.Invariant) (hlive : s.live = true) (env : CommandEnv)
    (hqueue : s.queue = command :: queue) :
    (s.processStep env command queue).Invariant := by
  have hcont := continued_invariant hs hlive env hqueue
  rcases s.processStep_cases env command queue with heq | ⟨hempty, heq⟩
  · rw [heq]
    exact hcont
  · rw [heq]
    have hnil := hcont.pending_of_isEmpty hempty
    have hspawned : (s.continued env command queue).worker = none := by
      cases hworker : (s.continued env command queue).worker with
      | none => rfl
      | some w =>
        rw [hcont.pending_of_worker hworker] at hnil
        cases hnil
    have hworker : s.worker = none := by
      unfold continued at hspawned
      dsimp only at hspawned
      split at hspawned
      · cases hspawned
      · exact hspawned
    have hpending : pending { s with
        live := false
        loop := (s.continued env command queue).loop.persistAndExit env
        queue := [] } = [] := by
      unfold pending
      rw [hworker]
      rfl
    refine ⟨?_, ?_, fun _ => ⟨hpending, rfl⟩, ?_⟩
    · rw [hpending]
      exact Nat.zero_le 1
    · intro id
      rw [hpending, ← hnil]
      exact hcont.registered id
    · intro w hw
      cases hworker.symm.trans hw

/-- A step of the worker leaves its request pending. -/
theorem workStep_pending (hs : s.Invariant) {w : Worker} (hworker : s.worker = some w)
    {wlabel : WorkerLabel} {effect : WorkerEffect}
    (h : w.step setup (s.cancelPending w) wlabel s.loop.store = some effect) :
    (s.workStep effect).pending = s.pending := by
  have hlive := hs.live_of_worker hworker
  rw [hs.pending_of_worker hworker]
  unfold pending workStep
  simp only [hlive, if_true, filterMap_append, hs.finished_of_worker hworker, nil_append]
  rcases Worker.step_shape h with ⟨w', hw', hid, -, -, hcommand⟩ | ⟨outcome, snapshot, -, rfl⟩
  · rw [hw']
    have hnone : effect.command.toList.filterMap SessionCommand.finishedId = [] := by
      refine filterMap_eq_nil_iff.2 fun c hc => ?_
      have hmem := (hcommand c (mem_toList.1 hc)).2
      exact (hs.worker w hworker).finishedId_of_mem_outbox hmem
    rw [hnone, ← hid]
    rfl
  · rfl

theorem workStep_invariant (hs : s.Invariant) {w : Worker} (hworker : s.worker = some w)
    {wlabel : WorkerLabel} {effect : WorkerEffect}
    (h : w.step setup (s.cancelPending w) wlabel s.loop.store = some effect) :
    (s.workStep effect).Invariant := by
  have hlive := hs.live_of_worker hworker
  have hpending := workStep_pending hs hworker h
  refine ⟨?_, ?_, ?_, ?_⟩
  · rw [hpending]
    exact hs.single
  · intro id
    rw [hpending]
    exact hs.registered id
  · intro hstop
    cases hlive.symm.trans hstop
  · intro w' hw'
    exact Worker.step_invariant (hs.worker w hworker) h hw'

/-- A command from outside arrives. -/
theorem Invariant.send (hs : s.Invariant) (hlive : s.live = true)
    (hext : command.isExternal = true) : Invariant { s with queue := s.queue ++ [command] } := by
  have hpending : pending { s with queue := s.queue ++ [command] } = s.pending := by
    unfold pending
    rw [filterMap_append, filterMap_cons_none
      (SessionCommand.finishedId_of_isExternal hext), filterMap_nil, append_nil]
  refine ⟨?_, ?_, ?_, hs.worker⟩
  · rw [hpending]
    exact hs.single
  · intro id
    rw [hpending]
    exact hs.registered id
  · intro hstop
    cases hlive.symm.trans hstop

/-- Every step keeps the invariant. -/
theorem step_invariant (hs : s.Invariant) (h : s.step setup label = some s') : s'.Invariant := by
  rcases step_cases h with ⟨command, -, hlive, hext, rfl⟩ |
    ⟨env, command, queue, -, hlive, hqueue, rfl⟩ | ⟨wlabel, w, effect, -, hworker, hstep, rfl⟩ |
    ⟨boot, record, -, -, rfl⟩
  · exact hs.send hlive hext
  · exact processStep_invariant hs hlive env hqueue
  · exact workStep_invariant hs hworker hstep
  · refine ⟨Nat.zero_le 1, ?_, ?_, ?_⟩
    · intro id
      rw [Loop.sessionMain_activeRequests, Std.ExtTreeMap.getElem?_empty]
      exact ⟨fun h => (by cases h), fun h => absurd h not_mem_nil⟩
    · intro hstop
      cases hstop
    · intro w hw
      cases hw

end System

end Choreo
