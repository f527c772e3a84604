import Choreo.Daemon.Attendance
import Choreo.Daemon.FreshIds

/-!
# The requests of a session

A session has one thread at a time, and the thread has one request under way at a time. The daemon
gives a session a new thread when it creates the session or is asked to attach to it, and by then the
last thread of that session is over.
-/

namespace Choreo

open List Option

namespace Registry

open StepSystem

variable {setup : AgentSetup} {label : RegistryLabel} {r r' : Registry}

/-- The daemon holds no channel for a session that is not deleted only when its thread is over. -/
theorem live_of_inactive {id : ℕ} (hstage : (r.view id).Stage)
    (hactive : r.activeSessions[id]? = none) (hkept : r.deletedSessions.contains id = false) :
    (r.slot id).system.live = false := by
  by_contra hlive
  have hstands := hstage.active_of_live (Bool.not_eq_false _ ▸ hlive)
  simp [view, Slot.onto, hactive, hkept] at hstands

/-- An attach starts a thread only for a session that the daemon holds no channel for. -/
theorem channel_handleAttachSession (env : RegistryEnv) (sessionId id : ℕ) (r : Registry) :
    ((r.handleAttachSession env sessionId).1.slot id).channel = (r.slot id).channel ∨
      r.activeSessions[id]? = none ∧ r.deletedSessions.contains id = false := by
  unfold handleAttachSession
  split_ifs with hdeleted hread
  · exact .inl rfl
  · split
    · exact .inl rfl
    · rename_i hactive
      split
      · dsimp only
        rw [slot_spawnSession]
        split_ifs with hid
        · subst hid
          exact .inr ⟨hactive, Bool.not_eq_true _ ▸ hdeleted⟩
        · exact .inl rfl
      · exact .inl rfl
  · split <;> exact .inl rfl

/-- A command gives a session a new channel only when its thread is over. -/
theorem channel_handleCommand (h : r.Invariant) (hstage : ∀ id, (r.view id).Stage)
    (env : RegistryEnv) (command : RegistryCommand) (queue : List RegistryCommand) (id : ℕ) :
    ((({ r with queue := queue } : Registry).handleCommand env command).slot id).channel =
        (r.slot id).channel ∨ (r.slot id).system.live = false := by
  set taken : Registry := { r with queue := queue }
  by_cases hcreate : ∃ session, command = .createSession session
  · obtain ⟨session, rfl⟩ := hcreate
    change ((taken.handleCreateSession env session).slot id).channel = _ ∨ _
    rw [slot_handleCreateSession]
    split_ifs with hid
    · have hidle := (h.fresh id hid.ge).1
      simp only [Lifecycle.isIdle, Bool.and_eq_true, Bool.not_eq_true'] at hidle
      exact .inr hidle.1.1.1.1
    · exact .inl rfl
  · by_cases hattach : ∃ sessionId clientId, command = .attachSession sessionId clientId
    · obtain ⟨sessionId, clientId, rfl⟩ := hattach
      have hchannel : ((taken.handleAttachSession env sessionId).1.slot id).channel =
          (r.slot id).channel ∨ (r.slot id).system.live = false :=
        (channel_handleAttachSession env sessionId id taken).imp_right
          fun hfree => live_of_inactive (hstage id) hfree.1 hfree.2
      change ((grant sessionId clientId (taken.handleAttachSession env sessionId)).slot
        id).channel = _ ∨ _
      unfold grant
      split <;> exact hchannel
    · have hcalm := Calm.handleCommand env (fun session hc => hcreate ⟨session, hc⟩)
        (fun sessionId clientId hc => hattach ⟨sessionId, clientId, hc⟩) taken
      exact .inl (hcalm.slots id).channel

theorem channel_step (h : r.Invariant) (hstage : ∀ id, (r.view id).Stage)
    (hstep : r.step setup label = some r') (id : ℕ) :
    (r'.slot id).channel = (r.slot id).channel ∨ (r.slot id).system.live = false := by
  cases label with
  | request | startTool | endTool =>
    simp only [step, ite_none_right_eq_some] at hstep
    obtain rfl := some.inj hstep.2
    exact .inl rfl
  | handle env =>
    obtain ⟨command, queue, -, rfl⟩ := step_handle_cases hstep
    exact channel_handleCommand h hstage env command queue id
  | start sessionId =>
    obtain ⟨s, hstart, rfl⟩ := map_eq_some_iff.1 hstep
    obtain ⟨⟨boot, record⟩, -, rfl⟩ := map_eq_some_iff.1 hstart
    rw [slot_afterThread]
    split_ifs with hid
    · exact .inl (by rw [hid])
    · exact .inl rfl
  | session sessionId slabel =>
    obtain ⟨-, -, system, -, rfl⟩ := threadStep_cases hstep
    rw [slot_afterThread]
    split_ifs with hid
    · exact .inl (by rw [hid])
    · exact .inl rfl
  | kvSet | kvDelete =>
    simp only [step, ite_none_right_eq_some] at hstep
    obtain rfl := some.inj hstep.2
    rw [slot_modifySlot]
    split_ifs <;> exact .inl rfl
  | finalize sessionId ok =>
    obtain ⟨phase, -, rfl⟩ := map_eq_some_iff.1 hstep
    cases phase with
    | deleteSession =>
      cases ok with
      | true => exact .inl ((Calm.deleteRows r sessionId).slots id).channel
      | false => exact .inl rfl
    | clearTombstone | report => exact .inl rfl
  | reboot env =>
    cases hstep
    rw [slot_startUp]
    split_ifs <;> exact .inl rfl

theorem boot_stage (env : StartEnv) (slots : Std.ExtTreeMap ℕ Slot)
    (tombstones : Std.ExtTreeMap ℕ Unit) (id : ℕ) :
    ((boot env slots tombstones).view id).Stage := by
  have hview := view_startUp (r := { slots := slots, tombstones := tombstones }) env id
  change (boot env slots tombstones).view id = _ at hview
  rw [hview]
  exact .idle rfl rfl rfl rfl rfl

/-- In every run of the daemon, a session works on at most one request at a time, the one that it
has registered, and on none once its thread has ended; the worker of a request changes only the turns
that it started; and no step gives the session a new thread before the last one has ended. -/
theorem oneRequest_of_run {setup : AgentSetup} {r : Registry} {env : StartEnv}
    (henv : env.sessionsOk = true) (slots : Std.ExtTreeMap ℕ Slot)
    (tombstones : Std.ExtTreeMap ℕ Unit) {labels : List RegistryLabel}
    (hreads : ∀ label ∈ labels, label.readsSessions = true)
    (hrun : run (step setup) labels (boot env slots tombstones) = some r) (id : ℕ) :
    (r.slot id).system.pending.length ≤ 1 ∧
      (∀ k, (r.slot id).system.loop.state.activeRequests[k]?.isSome = true ↔
        k ∈ (r.slot id).system.pending) ∧
      ((r.slot id).system.live = false → (r.slot id).system.pending = []) ∧
      (∀ w, (r.slot id).system.worker = some w → Ownership w.initialSnapshot w.session) ∧
      ∀ label r', r.step setup label = some r' →
        (r'.slot id).channel ≠ (r.slot id).channel → (r.slot id).system.live = false := by
  have hinv : r.Invariant ∧ ∀ id, (r.view id).Stage := invariant_of_along
    (G := fun label _ => label.readsSessions = true)
    (I := fun r => r.Invariant ∧ ∀ id, (r.view id).Stage)
    (fun label r r' hlabel h hstep => ⟨step_invariant h.1 hlabel hstep, fun id =>
      (step_view h.1 hstep id).preserves (fun _ _ _ hv _ hstep' => hv.step hstep') (h.2 id)⟩)
    ⟨boot_invariant henv slots tombstones, boot_stage env slots tombstones⟩
    (.of_labels fun label h _ => hreads label h) hrun
  have hsystem := (hinv.1.slots id).system
  exact ⟨hsystem.single, hsystem.registered, fun hlive => (hsystem.stopped hlive).1,
    fun w hw => (hsystem.worker w hw).session,
    fun label r' hstep hnew => (channel_step hinv.1 hinv.2 hstep id).resolve_left hnew⟩

/-- While a tool of the request 7 runs, that request is the only one, and the session gets no other
thread. -/
theorem oneRequest_of_run_toolRunning :
    ∃ r, run (step Sample.setup) Sample.toolRunning Sample.registry = some r ∧
      (r.slot 1).system.pending = [7] ∧
      (∀ w, (r.slot 1).system.worker = some w → Ownership w.initialSnapshot w.session) ∧
      ∀ label r', r.step Sample.setup label = some r' →
        (r'.slot 1).channel = (r.slot 1).channel := by
  have hany : (run (step Sample.setup) Sample.toolRunning Sample.registry).any (fun r =>
      decide ((r.slot 1).system.pending = [7] ∧ (r.slot 1).system.live = true)) = true := by
    decide +kernel
  obtain ⟨r, hrun, hr⟩ := (Option.any_eq_true _ _).1 hany
  obtain ⟨hpending, hlive⟩ := of_decide_eq_true hr
  obtain ⟨-, -, -, howned, hthread⟩ := oneRequest_of_run rfl ∅ ∅ (by decide) hrun 1
  refine ⟨r, hrun, hpending, howned, fun label r' hstep => ?_⟩
  by_contra hnew
  exact absurd (hlive.symm.trans (hthread label r' hstep hnew)) (by simp)

end Registry

end Choreo
