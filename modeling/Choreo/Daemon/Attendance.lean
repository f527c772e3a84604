import Choreo.Daemon.Connections

/-!
# Attached clients are served

In a run in which no session thread leaves its loop while an attach to it is under way, and the
daemon never hands out the channel of a thread that is over, every client that was told that its
session is attached is attached to a running thread: its attach is on the way, or it is a
subscriber. Without these conditions an acknowledged attach can be lost.
-/

namespace Choreo

open List Option

namespace Lobby

open StepSystem

/-- What holds of the daemon and its connections: a channel that the daemon holds or hands out, or
that a client was told about, is the one of a running thread, and an attached client is a subscriber
or will be. -/
structure Invariant (h : Lobby) : Prop where
  registry : h.registry.Invariant
  stage : ∀ id, (h.registry.view id).Stage
  channels : ∀ id channel : ℕ, h.registry.activeSessions[id]? = some channel →
    (h.registry.slot id).channel = channel
  starting : ∀ id, (h.registry.slot id).starting.isSome = true →
    (h.registry.slot id).system.loop.state.subscribers = ∅
  granted : ∀ grant ∈ h.registry.grants, h.registry.RunsOn grant.2.1 grant.2.2
  acknowledged : ∀ (clientId : ℕ) (c : Client), h.clients[clientId]? = some c →
    c.evicted = false → ∀ sessionId channel, c.phase = .acknowledged sessionId channel →
      h.registry.RunsOn sessionId channel
  attached : ∀ (clientId : ℕ) (c : Client), h.clients[clientId]? = some c → c.evicted = false →
    ∀ sessionId channel, c.attached = some (sessionId, channel) →
      h.registry.RunsOn sessionId channel ∧
        (h.registry.slot sessionId).system.Attends clientId

variable {setup : AgentSetup} {h h' : Lobby}

/-- A change of the daemon that is calm for all slots, and hands out channels of running threads
only, keeps the invariant. -/
theorem Invariant.of_slots (hinv : h.Invariant) {r : Registry}
    (hslots : ∀ id, (h.registry.slot id).Calm (r.slot id))
    (hactive : ∀ id channel : ℕ, r.activeSessions[id]? = some channel →
      h.registry.activeSessions[id]? = some channel)
    (hgrants : ∀ grant ∈ r.grants, grant ∈ h.registry.grants ∨ r.RunsOn grant.2.1 grant.2.2)
    (hregistry : r.Invariant) (hstage : ∀ id, (r.view id).Stage) :
    ({ h with registry := r } : Lobby).Invariant := by
  have hruns : ∀ sessionId channel, h.registry.RunsOn sessionId channel →
      r.RunsOn sessionId channel := by
    rintro sessionId channel ⟨hlive, hchannel⟩
    exact ⟨(hslots sessionId).live.trans hlive, (hslots sessionId).channel.trans hchannel⟩
  refine ⟨hregistry, hstage, fun id channel hid => ?_, fun id hid => ?_, fun grant hgrant => ?_,
    fun clientId c hc hevicted sessionId channel hphase => ?_,
    fun clientId c hc hevicted sessionId channel hattached => ?_⟩
  · exact (hslots id).channel.trans (hinv.channels id channel (hactive id channel hid))
  · change (r.slot id).starting.isSome = true at hid
    rcases (hslots id).starting with heq | hnone
    · rw [heq] at hid
      exact (hslots id).subscribers.trans (hinv.starting id hid)
    · rw [hnone] at hid
      cases hid
  · exact (hgrants grant hgrant).elim (fun hold => hruns _ _ (hinv.granted grant hold)) id
  · exact hruns _ _ (hinv.acknowledged clientId c hc hevicted sessionId channel hphase)
  · obtain ⟨hrunning, hattends⟩ := hinv.attached clientId c hc hevicted sessionId channel hattached
    obtain ⟨commands, hqueue, hcommands⟩ := (hslots sessionId).queue
    exact ⟨hruns _ _ hrunning, hattends.append commands
      (fun command hmem => hcommands command hmem clientId) (hslots sessionId).subscribers
      hqueue⟩

theorem Invariant.of_calm (hinv : h.Invariant) {r : Registry} (hcalm : h.registry.Calm r)
    (hregistry : r.Invariant) (hstage : ∀ id, (r.view id).Stage) :
    ({ h with registry := r } : Lobby).Invariant :=
  hinv.of_slots hcalm.slots hcalm.active (fun _ hgrant => Or.inl (hcalm.grants ▸ hgrant))
    hregistry hstage

theorem Invariant.of_spawn (hinv : h.Invariant) {r : Registry} {spawnedId : ℕ}
    (hidle : (h.registry.slot spawnedId).system.live = false)
    (hothers : ∀ id, id ≠ spawnedId → r.slot id = h.registry.slot id)
    (hsubscribers : (r.slot spawnedId).system.loop.state.subscribers = ∅)
    (hactive : r.activeSessions =
      h.registry.activeSessions.insert spawnedId (r.slot spawnedId).channel)
    (hgrants : ∀ grant ∈ r.grants, grant ∈ h.registry.grants ∨ r.RunsOn grant.2.1 grant.2.2)
    (hregistry : r.Invariant) (hstage : ∀ id, (r.view id).Stage) : ({ h with registry := r } : Lobby).Invariant := by
  have hne : ∀ sessionId channel, h.registry.RunsOn sessionId channel → sessionId ≠ spawnedId := by
    rintro sessionId channel ⟨hlive, -⟩ rfl
    exact absurd (hidle.symm.trans hlive) (by simp)
  have hruns : ∀ sessionId channel, h.registry.RunsOn sessionId channel →
      r.RunsOn sessionId channel := by
    intro sessionId channel hrunning
    unfold Registry.RunsOn
    rw [hothers sessionId (hne _ _ hrunning)]
    exact hrunning
  refine ⟨hregistry, hstage, fun id channel hid => ?_, fun id hid => ?_, fun grant hgrant => ?_,
    fun clientId c hc hevicted sessionId channel hphase => ?_,
    fun clientId c hc hevicted sessionId channel hattached => ?_⟩
  · change r.activeSessions[id]? = some channel at hid
    rw [hactive, Std.ExtTreeMap.get_insert] at hid
    change (r.slot id).channel = channel
    by_cases heq : id = spawnedId
    · rw [if_pos heq] at hid
      rw [heq]
      exact some.inj hid
    · rw [if_neg heq] at hid
      rw [hothers id heq]
      exact hinv.channels id channel hid
  · change (r.slot id).system.loop.state.subscribers = ∅
    by_cases heq : id = spawnedId
    · rw [heq]
      exact hsubscribers
    · change (r.slot id).starting.isSome = true at hid
      rw [hothers id heq] at hid ⊢
      exact hinv.starting id hid
  · exact (hgrants grant hgrant).elim (fun hold => hruns _ _ (hinv.granted grant hold)) id
  · exact hruns _ _ (hinv.acknowledged clientId c hc hevicted sessionId channel hphase)
  · obtain ⟨hrunning, hattends⟩ := hinv.attached clientId c hc hevicted sessionId channel hattached
    refine ⟨hruns _ _ hrunning, ?_⟩
    change (r.slot sessionId).system.Attends clientId
    rw [hothers sessionId (hne _ _ hrunning)]
    exact hattends

end Lobby

namespace Registry

variable {r : Registry} (env : RegistryEnv)

theorem slot_spawnSession (sessionId : ℕ) (record : SessionRecord)
    (metadata : SessionMetadata) (id : ℕ) :
    (r.spawnSession env sessionId record metadata).slot id =
      if id = sessionId then (r.slot id).spawn env.boot record else r.slot id :=
  slot_modifySlot _

theorem slot_handleCreateSession (session : NewSession) (id : ℕ) :
    (r.handleCreateSession env session).slot id =
      if id = r.nextSessionId then
        ((r.slot id).setStore ((r.slot id).store.writeSessionRetry env.writeOk
          (session.record env.now))).spawn env.boot (session.record env.now)
      else r.slot id := by
  have hchild : ∀ (r : Registry) (parentId : Option ℕ) (childId : ℕ),
      (r.addChild parentId childId).slot id = r.slot id := by
    intro r parentId childId
    cases parentId <;> rfl
  unfold handleCreateSession
  dsimp only
  change ((spawnSession env _ _ _ _).addChild _ _).slot id = _
  rw [hchild, slot_spawnSession, slot_modifySlot]
  by_cases hid : id = r.nextSessionId
  · rw [if_pos hid, if_pos hid, if_pos hid]
    rfl
  · rw [if_neg hid, if_neg hid, if_neg hid]
    rfl

theorem activeSessions_handleCreateSession (session : NewSession) :
    (r.handleCreateSession env session).activeSessions =
      r.activeSessions.insert r.nextSessionId
        ((r.handleCreateSession env session).slot r.nextSessionId).channel ∧
      (r.handleCreateSession env session).grants = r.grants := by
  unfold handleCreateSession addChild
  cases session.parentSessionId <;> exact ⟨rfl, rfl⟩

/-- An attach is refused, or hands out the channel that the daemon holds, or that of a new thread. -/
theorem handleAttachSession_cases (sessionId : ℕ) (r : Registry) :
    (∃ error, r.handleAttachSession env sessionId = (r, .error error)) ∨
    (∃ channel, r.activeSessions[sessionId]? = some channel ∧
      r.handleAttachSession env sessionId = (r, .ok channel)) ∨
    ∃ record metadata, r.deletedSessions.contains sessionId = false ∧
      r.activeSessions[sessionId]? = none ∧
      r.handleAttachSession env sessionId = (r.spawnSession env sessionId record metadata,
        .ok ((r.spawnSession env sessionId record metadata).slot sessionId).channel) := by
  unfold handleAttachSession
  by_cases hmarked : r.deletedSessions.contains sessionId = true
  · rw [if_pos hmarked]
    exact Or.inl ⟨_, rfl⟩
  · rw [if_neg hmarked]
    cases hactive : r.activeSessions[sessionId]? with
    | some channel => exact Or.inr (Or.inl ⟨channel, rfl, rfl⟩)
    | none =>
      dsimp only
      split_ifs
      · split
        · exact Or.inr (Or.inr ⟨_, _, Bool.eq_false_iff.2 hmarked, rfl, rfl⟩)
        · exact Or.inl ⟨_, rfl⟩
      · exact Or.inl ⟨_, rfl⟩

end Registry

namespace Lobby

open StepSystem

variable {setup : AgentSetup} {h h' : Lobby} {r : Registry}

theorem Invariant.not_live (hinv : h.Invariant) {sessionId : ℕ}
    (hactive : h.registry.activeSessions[sessionId]? = none)
    (hmarked : h.registry.deletedSessions.contains sessionId = false) :
    (h.registry.slot sessionId).system.live = false := by
  have hidle := (hinv.stage sessionId).isIdle
    (by change Option.isSome h.registry.activeSessions[sessionId]? = false
        rw [hactive]
        rfl) hmarked
  simp only [Lifecycle.isIdle, Bool.and_eq_true, Bool.not_eq_true'] at hidle
  exact hidle.1.1.1.1

theorem Invariant.attachSession (hinv : h.Invariant) {env : RegistryEnv} {sessionId clientId : ℕ}
    {queue : List RegistryCommand}
    (hqueue : h.registry.queue = .attachSession sessionId clientId :: queue)
    (hord : h.Orderly (.daemon (.handle env)))
    (hr : r = ({ h.registry with queue := queue } : Registry).handleCommand env
      (.attachSession sessionId clientId))
    (hregistry : r.Invariant) (hstage : ∀ id, (r.view id).Stage) :
    ({ h with registry := r } : Lobby).Invariant := by
  set r₀ : Registry := { h.registry with queue := queue } with hr₀
  have hhandle : r = Registry.grant sessionId clientId (r₀.handleAttachSession env sessionId) := hr
  rcases r₀.handleAttachSession_cases env sessionId with ⟨error, heq⟩ | ⟨channel, hactive, heq⟩ |
    ⟨record, metadata, hmarked, hactive, heq⟩
  · rw [heq] at hhandle
    subst hhandle
    exact hinv.of_calm (.of_eq rfl rfl rfl) hregistry hstage
  · rw [heq] at hhandle
    subst hhandle
    refine hinv.of_slots (fun id => .refl _) (fun _ _ hid => hid) (fun grant hgrant => ?_) hregistry
      hstage
    obtain hold | hnew := mem_append.1 hgrant
    · exact Or.inl hold
    · right
      rw [mem_singleton.1 hnew]
      refine ⟨?_, hinv.channels sessionId channel hactive⟩
      refine hord sessionId (by simp [hqueue, RegistryCommand.attaches]) ?_
      rw [Std.ExtTreeMap.contains_eq_isSome_getElem?]
      exact congrArg Option.isSome hactive
  · rw [heq] at hhandle
    subst hhandle
    set spawned : Registry := r₀.spawnSession env sessionId record metadata with hspawned
    have hslot : ∀ id, spawned.slot id =
        if id = sessionId then (h.registry.slot id).spawn env.boot record
        else h.registry.slot id := fun id => r₀.slot_spawnSession env sessionId record metadata id
    refine hinv.of_spawn (hinv.not_live hactive hmarked) (fun id hid => ?_) ?_ rfl
      (fun grant hgrant => ?_) hregistry hstage
    · exact (hslot id).trans (if_neg hid)
    · change (spawned.slot sessionId).system.loop.state.subscribers = ∅
      rw [hslot, if_pos rfl]
      rfl
    · obtain hold | hnew := mem_append.1 hgrant
      · exact Or.inl hold
      · right
        rw [mem_singleton.1 hnew]
        refine ⟨?_, rfl⟩
        change (spawned.slot sessionId).system.live = true
        rw [hslot, if_pos rfl]
        rfl

theorem Invariant.createSession (hinv : h.Invariant) (env : RegistryEnv) (session : NewSession)
    {queue : List RegistryCommand}
    (hr : r = ({ h.registry with queue := queue } : Registry).handleCreateSession env session)
    (hregistry : r.Invariant) (hstage : ∀ id, (r.view id).Stage) :
    ({ h with registry := r } : Lobby).Invariant := by
  have hidle : (h.registry.slot h.registry.nextSessionId).system.live = false := by
    have hfresh := (hinv.registry.fresh _ le_rfl).1
    simp only [Lifecycle.isIdle, Bool.and_eq_true, Bool.not_eq_true'] at hfresh
    exact hfresh.1.1.1.1
  have hslot := Registry.slot_handleCreateSession (r := { h.registry with queue := queue }) env session
  obtain ⟨hactive, hgrants⟩ :=
    Registry.activeSessions_handleCreateSession (r := { h.registry with queue := queue }) env session
  rw [← hr] at hslot hactive hgrants
  refine hinv.of_spawn hidle (fun id hid => ?_) ?_ hactive (fun grant hgrant => ?_) hregistry hstage
  · exact (hslot id).trans (if_neg hid)
  · rw [hslot]
    change (if h.registry.nextSessionId = h.registry.nextSessionId then _ else _ :
      Slot).system.loop.state.subscribers = ∅
    rw [if_pos rfl]
    rfl
  · exact Or.inl (hgrants ▸ hgrant)

variable {clientId : ℕ}

/-! ### Steps of a session thread -/

theorem any_clients_of_mem {P : ℕ → Client → Bool} {c : Client}
    (hc : h.clients[clientId]? = some c) (hP : P clientId c = true) :
    (h.clients.toList.any fun (clientId, c) => P clientId c) = true :=
  List.any_eq_true.2 ⟨(clientId, c), Std.ExtTreeMap.mem_toList_iff_getElem?_eq_some.2 hc, hP⟩

/-- The thread of a session leaves its loop in an orderly step only when no answer, no client that
was told so and no attached client counts on it. -/
theorem Invariant.ne_of_exit (hinv : h.Invariant) {sessionId : ℕ} {env : CommandEnv}
    {command : SessionCommand} {queue : List SessionCommand}
    (hord : h.Orderly (.daemon (.session sessionId (.process env))))
    (hadmits : h.admits (.session sessionId (.process env)) = true)
    (hqueue : (h.registry.slot sessionId).system.queue = command :: queue)
    (hexit : ((h.registry.slot sessionId).system.loop.clearSpawned.processCommand env
      command).2 = true) :
    (∀ grant ∈ h.registry.grants, grant.2.1 ≠ sessionId) ∧
    (∀ (clientId : ℕ) (c : Client), h.clients[clientId]? = some c → c.evicted = false →
      ∀ id channel, c.phase = .acknowledged id channel → id ≠ sessionId) ∧
    (∀ (clientId : ℕ) (c : Client), h.clients[clientId]? = some c → c.evicted = false →
      ∀ id channel, c.attached = some (id, channel) → id ≠ sessionId) := by
  have hleaves := Loop.leaves_of_exit hexit
  rw [Loop.leaves_clearSpawned] at hleaves
  obtain ⟨hawaited, hfollowed⟩ := hord command (by rw [hqueue]; rfl) hleaves
  unfold awaited at hawaited
  rw [Bool.or_eq_false_iff] at hawaited
  refine ⟨fun grant hgrant heq => ?_, fun clientId c hc hevicted id channel hphase heq => ?_,
    fun clientId c hc hevicted id channel hattached heq => ?_⟩
  · obtain ⟨-, hchannel⟩ := hinv.granted grant hgrant
    refine Bool.eq_false_iff.1 hawaited.1 (List.any_eq_true.2 ⟨grant, hgrant, ?_⟩)
    rw [beq_iff_eq]
    exact Prod.ext heq (by rw [← hchannel, heq])
  · obtain ⟨-, hchannel⟩ := hinv.acknowledged clientId c hc hevicted id channel hphase
    refine Bool.eq_false_iff.1 hawaited.2 (any_clients_of_mem hc (P := fun clientId c =>
      !c.evicted && h.awaits sessionId clientId c) ?_)
    rw [hevicted, Bool.not_false, Bool.true_and]
    unfold awaits
    rw [hphase, ← heq, hchannel]
    simp
  · obtain ⟨⟨-, hchannel⟩, hattends⟩ := hinv.attached clientId c hc hevicted id channel hattached
    subst heq
    have hsession : (c.attached == some (id, (h.registry.slot id).channel)) = true := by
      rw [hattached, hchannel, beq_iff_eq]
    rcases hattends with ⟨hmem, hall⟩ | ⟨before, after, hsplit, -⟩
    · -- A subscriber that stays keeps the thread, unless it is shut down.
      rw [hqueue, forall_mem_cons] at hall
      have hgone : env.gone clientId = false := by
        have hclient := List.all_eq_true.1 hadmits (clientId, c)
          (Std.ExtTreeMap.mem_toList_iff_getElem?_eq_some.2 hc)
        simpa [hevicted] using hclient
      have hshuts := Loop.shutsDown_of_exit (l := (h.registry.slot id).system.loop.clearSpawned)
        ⟨hgone, hmem⟩ hall.1 hexit
      rw [Loop.shutsDown_clearSpawned] at hshuts
      refine Bool.eq_false_iff.1 (hfollowed hshuts) (any_clients_of_mem hc (P := fun _ c =>
        !c.evicted && c.attached == some (id, (h.registry.slot id).channel)) ?_)
      rw [hevicted, hsession]
      rfl
    · refine Bool.eq_false_iff.1 hawaited.2 (any_clients_of_mem hc (P := fun clientId c =>
        !c.evicted && h.awaits id clientId c) ?_)
      rw [hevicted, Bool.not_false, Bool.true_and]
      unfold awaits
      rw [hsession, hsplit]
      simp

theorem Invariant.session (hinv : h.Invariant) {sessionId : ℕ} {slabel : SystemLabel}
    {system : System} (hord : h.Orderly (.daemon (.session sessionId slabel)))
    (hadmits : h.admits (.session sessionId slabel) = true) (hrestart : slabel.isRestart = false)
    (hstarting : slabel.isProcess = true → (h.registry.slot sessionId).starting = none)
    (hsystem : (h.registry.slot sessionId).system.step setup slabel = some system)
    (hr : r = h.registry.afterThread sessionId { h.registry.slot sessionId with system := system })
    (hregistry : r.Invariant) (hstage : ∀ id, (r.view id).Stage) :
    ({ h with registry := r } : Lobby).Invariant := by
  have hslot : ∀ id, r.slot id = if id = sessionId then
      { h.registry.slot sessionId with system := system } else h.registry.slot id := by
    intro id
    rw [hr, Registry.slot_afterThread]
  have hstarts : ∀ id, (r.slot id).starting.isSome = true →
      (r.slot id).system.loop.state.subscribers = ∅ := by
    intro id hid
    rw [hslot] at hid ⊢
    by_cases heq : id = sessionId
    · rw [if_pos heq] at hid ⊢
      obtain ⟨-, hworker, -⟩ := (hinv.registry.slots sessionId).starting hid
      rcases System.step_cases hsystem with ⟨command, -, -, -, rfl⟩ | ⟨env, _, _, rfl, -⟩ |
        ⟨_, w, _, -, hw, -⟩ | ⟨boot, _, rfl, -⟩
      · exact hinv.starting sessionId hid
      · have hnone := hstarting rfl
        change (h.registry.slot sessionId).starting.isSome = true at hid
        simp [hnone] at hid
      · simp [hworker] at hw
      · cases hrestart
    · rw [if_neg heq] at hid ⊢
      exact hinv.starting id hid
  have hchannels : ∀ id channel : ℕ, r.activeSessions[id]? = some channel →
      (r.slot id).channel = channel := by
    intro id channel hid
    have hid' : h.registry.activeSessions[id]? = some channel := by rwa [hr] at hid
    rw [hslot]
    by_cases heq : id = sessionId
    · rw [if_pos heq, ← heq]
      exact hinv.channels id channel hid'
    · rw [if_neg heq]
      exact hinv.channels id channel hid'
  have hgrants : r.grants = h.registry.grants := by rw [hr]; rfl
  -- What counts on another session is not concerned.
  have hother : ∀ id channel, id ≠ sessionId → h.registry.RunsOn id channel →
      r.RunsOn id channel := by
    intro id channel hne hruns
    unfold Registry.RunsOn
    rw [hslot, if_neg hne]
    exact hruns
  by_cases hlive : system.live = true
  · have hruns : ∀ id channel, h.registry.RunsOn id channel → r.RunsOn id channel := by
      intro id channel hrunning
      by_cases heq : id = sessionId
      · subst heq
        refine ⟨?_, ?_⟩
        · rw [hslot, if_pos rfl]
          exact hlive
        · rw [hslot, if_pos rfl]
          exact hrunning.2
      · exact hother id channel heq hrunning
    refine ⟨hregistry, hstage, hchannels, hstarts, fun grant hgrant => ?_,
      fun clientId c hc hevicted id channel hphase => ?_,
      fun clientId c hc hevicted id channel hattached => ?_⟩
    · exact hruns _ _ (hinv.granted grant (hgrants ▸ hgrant))
    · exact hruns _ _ (hinv.acknowledged clientId c hc hevicted id channel hphase)
    · obtain ⟨hrunning, hattends⟩ := hinv.attached clientId c hc hevicted id channel hattached
      refine ⟨hruns _ _ hrunning, ?_⟩
      change (r.slot id).system.Attends clientId
      rw [hslot]
      by_cases heq : id = sessionId
      · subst heq
        rw [if_pos rfl]
        refine System.step_attends (hinv.registry.slots id).system hattends (fun command hcommand => ?_)
          (fun env henv => ?_) hrestart hsystem hlive
        · subst hcommand
          have hserves : h.serves clientId = true := by simp [serves, hc, hevicted]
          cases command with
          | attach | detach => cases hadmits
          | removeSubscriber other =>
            simp only [admits, Bool.not_eq_true'] at hadmits
            simp only [SessionCommand.detaches, beq_eq_false_iff_ne, ne_eq]
            rintro rfl
            exact absurd (hadmits.symm.trans hserves) (by simp)
          | _ => rfl
        · subst henv
          have hclient := List.all_eq_true.1 hadmits (clientId, c)
            (Std.ExtTreeMap.mem_toList_iff_getElem?_eq_some.2 hc)
          simpa [hevicted] using hclient
      · rw [if_neg heq]
        exact hattends
  · -- The thread leaves its loop.
    obtain ⟨env, command, queue, rfl, hqueue, hexit⟩ := System.exit_of_step
      (hinv.registry.slots sessionId).system hrestart hsystem (Bool.eq_false_iff.2 hlive)
    obtain ⟨hgrant', hphase', hattached'⟩ := hinv.ne_of_exit hord hadmits hqueue hexit
    refine ⟨hregistry, hstage, hchannels, hstarts, fun grant hgrant => ?_,
      fun clientId c hc hevicted id channel hphase => ?_,
      fun clientId c hc hevicted id channel hattached => ?_⟩
    · have hold : grant ∈ h.registry.grants := hgrants ▸ hgrant
      exact hother _ _ (hgrant' grant hold) (hinv.granted grant hold)
    · exact hother _ _ (hphase' clientId c hc hevicted id channel hphase)
        (hinv.acknowledged clientId c hc hevicted id channel hphase)
    · have hne := hattached' clientId c hc hevicted id channel hattached
      obtain ⟨hrunning, hattends⟩ := hinv.attached clientId c hc hevicted id channel hattached
      refine ⟨hother _ _ hne hrunning, ?_⟩
      change (r.slot id).system.Attends clientId
      rw [hslot, if_neg hne]
      exact hattends

theorem Invariant.registry_step (hinv : h.Invariant) {label : RegistryLabel}
    (hreads : label.readsSessions = true) (hstep : h.registry.step setup label = some r) :
    r.Invariant ∧ ∀ id, (r.view id).Stage :=
  ⟨Registry.step_invariant hinv.registry hreads hstep, fun id =>
    (Registry.step_view hinv.registry hstep id).preserves
      (fun _ _ _ hv _ hstep' => hv.step hstep') (hinv.stage id)⟩

theorem Invariant.daemon (hinv : h.Invariant) {label : RegistryLabel}
    (hord : h.Orderly (.daemon label)) (hadmits : h.admits label = true)
    (hlabel : ∀ env, label ≠ .reboot env) (hstep : h.registry.step setup label = some r) :
    ({ h with registry := r } : Lobby).Invariant := by
  have hreads : label.readsSessions = true := by
    cases label with
    | reboot env => exact absurd rfl (hlabel env)
    | _ => rfl
  obtain ⟨hregistry, hstage⟩ := hinv.registry_step hreads hstep
  cases label with
  | request | startTool | endTool =>
    simp only [Registry.step, ite_none_right_eq_some] at hstep
    obtain rfl := some.inj hstep.2
    exact hinv.of_calm (.of_eq rfl rfl rfl) hregistry hstage
  | handle env =>
    obtain ⟨command, queue, hqueue, hr⟩ := Registry.step_handle_cases hstep
    by_cases hcreate : ∃ session, command = .createSession session
    · obtain ⟨session, rfl⟩ := hcreate
      exact hinv.createSession env session hr hregistry hstage
    · by_cases hattach : ∃ sessionId clientId, command = .attachSession sessionId clientId
      · obtain ⟨sessionId, clientId, rfl⟩ := hattach
        exact hinv.attachSession hqueue hord hr hregistry hstage
      · refine hinv.of_calm ?_ hregistry hstage
        rw [hr]
        refine Registry.Calm.trans ?_ (.handleCommand env
          (fun session hc => hcreate ⟨session, hc⟩)
          (fun sessionId clientId hc => hattach ⟨sessionId, clientId, hc⟩) _)
        exact .of_eq rfl rfl rfl
  | start sessionId =>
    obtain ⟨s, hstart, rfl⟩ := map_eq_some_iff.1 hstep
    obtain ⟨⟨boot, record⟩, hstarting, rfl⟩ := map_eq_some_iff.1 hstart
    refine hinv.of_calm ⟨fun id => ?_, fun _ _ hid => hid, rfl⟩ hregistry hstage
    rw [Registry.slot_afterThread]
    by_cases heq : id = sessionId
    · rw [if_pos heq, heq]
      have hempty := hinv.starting sessionId (by rw [hstarting]; rfl)
      refine ⟨rfl, rfl, Or.inr rfl, ?_, [], (append_nil _).symm, by simp⟩
      rw [hempty]
      exact Loop.subscribers_sessionMain ..
    · rw [if_neg heq]
      exact .refl _
  | session sessionId slabel =>
    obtain ⟨hrestart, hstarting, system, hsystem, hr⟩ := Registry.threadStep_cases hstep
    exact hinv.session hord hadmits hrestart hstarting hsystem hr hregistry hstage
  | kvSet | kvDelete =>
    simp only [Registry.step, ite_none_right_eq_some] at hstep
    obtain rfl := some.inj hstep.2
    refine hinv.of_calm (.modifySlot _ _ fun s => ?_) hregistry hstage
    exact .of_eq rfl rfl rfl rfl rfl
  | finalize sessionId ok =>
    obtain ⟨phase, -, rfl⟩ := map_eq_some_iff.1 hstep
    refine hinv.of_calm ?_ hregistry hstage
    cases phase with
    | deleteSession =>
      cases ok with
      | true => exact (Registry.Calm.deleteRows _ sessionId).trans (.of_eq rfl rfl rfl)
      | false => exact .of_eq rfl rfl rfl
    | clearTombstone | report => exact .of_eq rfl rfl rfl
  | reboot env => exact absurd rfl (hlabel env)

/-- A start of the daemon that reads its sessions begins with the invariant. -/
theorem Invariant.startUp {env : StartEnv} (henv : env.sessionsOk = true) (r : Registry)
    (nextClientId : ℕ) :
    ({ registry := Registry.startUp env r.slots r.tombstones r.log
       nextClientId := nextClientId } : Lobby).Invariant := by
  have hview := Registry.view_startUp (r := r) env
  refine ⟨⟨fun id => ?_, fun id hid => Registry.startUp_fresh henv hid⟩, fun id => ?_,
    fun id channel hid => ?_, fun id hid => ?_, fun grant hgrant => ?_,
    fun clientId c hc => ?_, fun clientId c hc => ?_⟩
  · rw [Registry.slot_startUp]
    split_ifs
    · exact (Slot.Invariant.crash _).deleteRows
    · exact .crash _
  · change ((Registry.startUp env r.slots r.tombstones r.log).view id).Stage
    rw [hview]
    exact .idle rfl rfl rfl rfl rfl
  · simp [Registry.startUp] at hid
  · change ((Registry.startUp env r.slots r.tombstones r.log).slot id).starting.isSome = true at hid
    rw [Registry.slot_startUp] at hid
    split_ifs at hid <;> cases hid
  · cases hgrant
  · simp at hc
  · simp at hc

/-! ### Steps of the connection threads -/

/-- A change of one connection that neither leaves nor promises anything new. -/
theorem Invariant.setClient (hinv : h.Invariant) (clientId : ℕ) (c' : Client)
    (hphase : c'.evicted = false → ∀ sessionId channel, c'.phase = .acknowledged sessionId channel →
      h.registry.RunsOn sessionId channel)
    (hattached : c'.evicted = false → ∀ sessionId channel, c'.attached = some (sessionId, channel) →
      h.registry.RunsOn sessionId channel ∧
        (h.registry.slot sessionId).system.Attends clientId) :
    (h.setClient clientId c').Invariant := by
  refine ⟨hinv.registry, hinv.stage, hinv.channels, hinv.starting, hinv.granted,
    fun id c hc hevicted => ?_, fun id c hc hevicted => ?_⟩
  · change (h.clients.insert clientId c')[id]? = some c at hc
    rw [Std.ExtTreeMap.get_insert] at hc
    by_cases hid : id = clientId
    · rw [if_pos hid] at hc
      cases hc
      exact hphase hevicted
    · rw [if_neg hid] at hc
      exact hinv.acknowledged id c hc hevicted
  · change (h.clients.insert clientId c')[id]? = some c at hc
    rw [Std.ExtTreeMap.get_insert] at hc
    by_cases hid : id = clientId
    · rw [if_pos hid] at hc
      cases hc
      rw [hid]
      exact hattached hevicted
    · rw [if_neg hid] at hc
      exact hinv.attached id c hc hevicted

/-- A connection that is gone promises nothing. -/
theorem Invariant.eraseClient (hinv : h.Invariant) (clientId : ℕ) :
    ({ h with clients := h.clients.erase clientId } : Lobby).Invariant := by
  have hold : ∀ (id : ℕ) (c : Client), (h.clients.erase clientId)[id]? = some c →
      h.clients[id]? = some c := by
    intro id c hc
    rw [Std.ExtTreeMap.get_erase] at hc
    split_ifs at hc
    exact hc
  exact ⟨hinv.registry, hinv.stage, hinv.channels, hinv.starting, hinv.granted,
    fun id c hc => hinv.acknowledged id c (hold id c hc),
    fun id c hc => hinv.attached id c (hold id c hc)⟩

theorem runsOn_deliver {sessionId channel id channel' : ℕ} (command : SessionCommand)
    (hruns : r.RunsOn id channel') : (r.deliver sessionId channel command).RunsOn id channel' := by
  unfold Registry.RunsOn Registry.deliver
  rw [Registry.slot_modifySlot]
  by_cases hid : id = sessionId
  · rw [if_pos hid]
    unfold Slot.deliver
    split_ifs
    · exact hruns
    · exact hruns
  · rw [if_neg hid]
    exact hruns

theorem Invariant.deliver (setup : AgentSetup) (hinv : h.Invariant) (clientId sessionId channel : ℕ)
    (command : SessionCommand) (hcommand : ∀ id, id ≠ clientId → command.detaches id = false)
    (hexternal : command.isExternal = true) :
    ({ h with
      clients := h.clients.erase clientId
      registry := h.registry.deliver sessionId channel command } : Lobby).Invariant := by
  have hslot : ∀ id, (h.registry.deliver sessionId channel command).slot id =
      if id = sessionId then (h.registry.slot id).deliver channel command
      else h.registry.slot id := fun id => Registry.slot_modifySlot _
  have hview : ∀ id, (h.registry.deliver sessionId channel command).view id =
      h.registry.view id :=
    fun id => Registry.view_modifySlot_of_onto (Registry.onto_deliver channel command)
  have hkept : ∀ s : Slot, (s.deliver channel command).channel = s.channel ∧
      (s.deliver channel command).starting = s.starting ∧
      (s.deliver channel command).system.loop = s.system.loop ∧
      ((s.deliver channel command).system.queue = s.system.queue ∨
        (s.deliver channel command).system.queue = s.system.queue ++ [command]) := by
    intro s
    unfold Slot.deliver
    split_ifs
    · exact ⟨rfl, rfl, rfl, Or.inr rfl⟩
    · exact ⟨rfl, rfl, rfl, Or.inl rfl⟩
  have herased := hinv.eraseClient clientId
  refine ⟨⟨fun id => ?_, fun id hid => ?_⟩, fun id => ?_, fun id channel' hid => ?_,
    fun id hid => ?_, fun grant hgrant => ?_, fun id c hc hevicted id' channel' hphase => ?_,
    fun id c hc hevicted id' channel' hattached => ?_⟩
  · change ((h.registry.deliver sessionId channel command).slot id).Invariant
    rw [hslot]
    split_ifs
    · exact (hinv.registry.slots id).deliver setup channel hexternal
    · exact hinv.registry.slots id
  · change ((h.registry.deliver sessionId channel command).view id).isIdle = true ∧
      ((h.registry.deliver sessionId channel command).view id).record = false
    rw [hview]
    exact hinv.registry.fresh id hid
  · change ((h.registry.deliver sessionId channel command).view id).Stage
    rw [hview]
    exact hinv.stage id
  · change ((h.registry.deliver sessionId channel command).slot id).channel = channel'
    rw [hslot]
    split_ifs
    · exact (hkept _).1.trans (hinv.channels id channel' hid)
    · exact hinv.channels id channel' hid
  · change ((h.registry.deliver sessionId channel command).slot id).starting.isSome = true at hid
    change ((h.registry.deliver sessionId channel command).slot id).system.loop.state.subscribers = ∅
    rw [hslot] at hid ⊢
    by_cases heq : id = sessionId
    · rw [if_pos heq] at hid ⊢
      rw [(hkept _).2.1] at hid
      rw [(hkept _).2.2.1]
      exact hinv.starting id hid
    · rw [if_neg heq] at hid ⊢
      exact hinv.starting id hid
  · exact runsOn_deliver command (hinv.granted grant hgrant)
  · exact runsOn_deliver command (herased.acknowledged id c hc hevicted id' channel' hphase)
  · obtain ⟨hruns, hattends⟩ := herased.attached id c hc hevicted id' channel' hattached
    refine ⟨runsOn_deliver command hruns, ?_⟩
    change ((h.registry.deliver sessionId channel command).slot id').system.Attends id
    have hid : id ≠ clientId := by
      rintro rfl
      simp at hc
    rw [hslot]
    by_cases heq : id' = sessionId
    · rw [if_pos heq]
      obtain ⟨-, -, hloop, hqueue | hqueue⟩ := hkept (h.registry.slot id')
      · exact hattends.append [] (by simp) (by rw [hloop]) (by rw [hqueue, append_nil])
      · exact hattends.append [command] (by simpa using hcommand id hid) (by rw [hloop]) hqueue
    · rw [if_neg heq]
      exact hattends

theorem attends_deliver_attach {clientId sessionId channel : ℕ} (hruns : r.RunsOn sessionId channel) :
    ((r.deliver sessionId channel (.attach clientId)).slot sessionId).system.Attends clientId := by
  unfold Registry.deliver
  rw [Registry.slot_modifySlot, if_pos rfl]
  unfold Slot.deliver
  rw [if_pos (by rw [hruns.1, hruns.2]; simp)]
  exact Or.inr ⟨_, [], rfl, by simp⟩

theorem Invariant.leaveAttached (setup : AgentSetup) (hinv : h.Invariant) (clientId sessionId : ℕ)
    (c : Client) :
    ({ h with
      clients := h.clients.erase clientId
      registry := Lobby.leaveAttached clientId sessionId c h.registry } : Lobby).Invariant ∧
    ∀ id channel, h.registry.RunsOn id channel →
      (Lobby.leaveAttached clientId sessionId c h.registry).RunsOn id channel := by
  unfold Lobby.leaveAttached
  split
  · split_ifs
    · exact ⟨hinv.eraseClient clientId, fun _ _ hruns => hruns⟩
    · refine ⟨hinv.deliver setup clientId _ _ _ (fun id hid => ?_) rfl,
        fun _ _ hruns => runsOn_deliver _ hruns⟩
      simpa [SessionCommand.detaches] using Ne.symm hid
  · exact ⟨hinv.eraseClient clientId, fun _ _ hruns => hruns⟩

theorem Invariant.switchAttached (setup : AgentSetup) (hinv : h.Invariant)
    (hstep : h.switchAttachedSession clientId = some h') : h'.Invariant := by
  obtain ⟨c, hc, hstep⟩ := bind_eq_some_iff.1 hstep
  split at hstep
  · next sessionId channel hphase =>
    cases hstep
    obtain ⟨hleft, hruns⟩ := hinv.leaveAttached setup clientId sessionId c
    have hsent := hleft.deliver setup clientId sessionId channel (.attach clientId)
      (fun _ _ => rfl) rfl
    -- The connection was left out while its commands were sent, and is put back now.
    have hback := hsent.setClient clientId
      { c with phase := .idle, attached := some (sessionId, channel) }
      (fun _ _ _ hno => by cases hno) (fun hevicted id channel' hattached => ?_)
    · simp only [Lobby.setClient, Std.ExtTreeMap.insert_erase] at hback
      exact hback
    · obtain ⟨rfl, rfl⟩ := Prod.mk.inj (some.inj hattached)
      have hrunning := hruns _ _ (hinv.acknowledged clientId c hc hevicted _ _ hphase)
      exact ⟨runsOn_deliver _ hrunning, attends_deliver_attach hrunning⟩
  · cases hstep

theorem Invariant.receiveReply (hinv : h.Invariant)
    (hstep : h.receiveReply clientId = some h') : h'.Invariant := by
  obtain ⟨c, hc, hstep⟩ := bind_eq_some_iff.1 hstep
  split at hstep
  · next sessionId grant hphase hfind =>
    cases hstep
    have hruns := hinv.granted grant (List.mem_of_find?_eq_some hfind)
    have hset := hinv.setClient clientId { c with phase := .acknowledged grant.2.1 grant.2.2 }
      (fun _ id channel hid => ?_) (hinv.attached clientId c hc)
    · exact ⟨⟨hset.registry.slots, hset.registry.fresh⟩, hset.stage, hset.channels, hset.starting,
        fun g hg => hset.granted g (mem_of_mem_erase hg), hset.acknowledged, hset.attached⟩
    · obtain ⟨rfl, rfl⟩ := AttachPhase.acknowledged.inj hid
      exact hruns
  · split_ifs at hstep
    cases hstep
    exact hinv.setClient clientId _ (fun _ _ _ hno => by cases hno) (hinv.attached clientId c hc)
  · cases hstep

theorem Invariant.cleanupClient (setup : AgentSetup) (hinv : h.Invariant)
    (hstep : h.cleanupClient clientId = some h') : h'.Invariant := by
  obtain ⟨c, hc, hstep⟩ := bind_eq_some_iff.1 hstep
  split_ifs at hstep
  cases hstep
  cases c.attached with
  | none => exact hinv.eraseClient clientId
  | some attached =>
    refine hinv.deliver setup clientId _ _ _ (fun id hid => ?_) rfl
    simpa [SessionCommand.detaches] using Ne.symm hid

/-- Every orderly step keeps the invariant. -/
theorem Invariant.step (hinv : h.Invariant) {label : LobbyLabel} (hord : h.Orderly label)
    (hstep : h.step setup label = some h') : h'.Invariant := by
  cases label with
  | daemon label =>
    simp only [Lobby.step, ite_none_right_eq_some] at hstep
    obtain ⟨hadmits, hstep⟩ := hstep
    obtain ⟨r, hr, rfl⟩ := map_eq_some_iff.1 hstep
    by_cases hlabel : ∃ env, label = .reboot env
    · obtain ⟨env, rfl⟩ := hlabel
      cases hr
      exact .startUp hord h.registry h.nextClientId
    · have hinv' := hinv.daemon hord hadmits (fun env henv => hlabel ⟨env, henv⟩) hr
      cases label with
      | reboot env => exact absurd ⟨env, rfl⟩ hlabel
      | _ => exact hinv'
  | connect =>
    cases hstep
    have hset := hinv.setClient h.nextClientId {} (fun _ _ _ hno => by cases hno)
      (fun _ _ _ hno => by cases hno)
    exact ⟨hset.registry, hset.stage, hset.channels, hset.starting, hset.granted,
      hset.acknowledged, hset.attached⟩
  | attachSession clientId sessionId =>
    obtain ⟨c, hc, hstep⟩ := bind_eq_some_iff.1 hstep
    split_ifs at hstep
    cases hstep
    have hset := hinv.setClient clientId { c with phase := .waiting sessionId }
      (fun _ _ _ hno => by cases hno) (hinv.attached clientId c hc)
    have hrequest : h.registry.step setup (.request (.attachSession sessionId clientId)) =
        some { h.registry with
          queue := h.registry.queue ++ [.attachSession sessionId clientId] } := rfl
    obtain ⟨hregistry, hstage⟩ := hinv.registry_step rfl hrequest
    exact hset.of_calm (.of_eq rfl rfl rfl) hregistry hstage
  | reply clientId => exact hinv.receiveReply hstep
  | switchAttached clientId => exact hinv.switchAttached setup hstep
  | evict clientId =>
    obtain ⟨c, hc, rfl⟩ := map_eq_some_iff.1 hstep
    exact hinv.setClient clientId _ (fun hno => by cases hno) (fun hno => by cases hno)
  | disconnect clientId => exact hinv.cleanupClient setup hstep

/-- In every run of the daemon and its connections whose steps are orderly, a client that was told
that a session is attached, and is not evicted, counts on a running thread of the session: its
attach is not sent yet, or it waits in the channel of the thread, or the client is a subscriber. -/
theorem attended_of_run {env : StartEnv} (henv : env.sessionsOk = true)
    (slots : Std.ExtTreeMap ℕ Slot) (tombstones : Std.ExtTreeMap ℕ Unit)
    {labels : List LobbyLabel}
    (hord : Along (step setup) (fun label h => h.Orderly label) labels (boot env slots tombstones))
    (hrun : run (step setup) labels (boot env slots tombstones) = some h) {clientId : ℕ} {c : Client}
    (hc : h.clients[clientId]? = some c) (hevicted : c.evicted = false) {sessionId channel : ℕ} :
    (c.phase = .acknowledged sessionId channel → h.registry.RunsOn sessionId channel) ∧
    (c.attached = some (sessionId, channel) → h.registry.RunsOn sessionId channel ∧
      (clientId ∈ (h.registry.slot sessionId).system.loop.state.subscribers ∨
        .attach clientId ∈ (h.registry.slot sessionId).system.queue)) := by
  have hinv : h.Invariant := invariant_of_along
    (fun label h h' hlabel hinv hstep => Invariant.step hinv hlabel hstep)
    (Invariant.startUp henv { slots := slots, tombstones := tombstones } 1) hord hrun
  refine ⟨hinv.acknowledged clientId c hc hevicted sessionId channel, fun hattached => ?_⟩
  obtain ⟨hruns, hattends⟩ := hinv.attached clientId c hc hevicted sessionId channel hattached
  refine ⟨hruns, ?_⟩
  rcases hattends with ⟨hmem, -⟩ | ⟨before, after, hsplit, -⟩
  · exact Or.inl hmem
  · right
    rw [hsplit]
    simp

instance (label : LobbyLabel) (h : Lobby) : Decidable (h.Orderly label) :=
  match label with
  | .daemon (.handle _) => inferInstanceAs (Decidable
      (∀ sessionId ∈ h.registry.queue.head?.bind RegistryCommand.attaches, _ → _))
  | .daemon (.session sessionId (.process _)) => inferInstanceAs (Decidable
      (∀ command ∈ (h.registry.slot sessionId).system.queue.head?, _ → _ ∧ (_ → _)))
  | .daemon (.reboot _) => inferInstanceAs (Decidable (_ = _))
  | .daemon (.request _) | .daemon (.start _) | .daemon (.session _ (.send _))
  | .daemon (.session _ (.work _)) | .daemon (.session _ (.restart _)) | .daemon (.startTool _)
  | .daemon (.kvSet ..) | .daemon (.kvDelete ..) | .daemon (.endTool _) | .daemon (.finalize ..)
  | .connect | .attachSession .. | .reply _ | .switchAttached _ | .evict _ | .disconnect _ =>
    isTrue trivial

end Lobby

namespace Sample

/-- The daemon on an empty database, without clients. -/
def lobby : Lobby := Lobby.boot startEnv ∅ ∅

/-- A session runs, and two clients connect. -/
def opened : List LobbyLabel :=
  (createSession 1 ++ [RegistryLabel.handle registryEnv]).map .daemon ++ [.connect, .connect]

def acknowledge (clientId : ℕ) : List LobbyLabel :=
  [.attachSession clientId 1, .daemon (.handle registryEnv), .reply clientId]

/-- The session thread handles its next command. -/
def processNext : List LobbyLabel := [.daemon (.session 1 (.process env))]

end Sample

namespace Lobby

open StepSystem

/-- One client attaches, then another one, and the first leaves. -/
theorem attended_of_run_twoClients :
    ∃ h, run (step Sample.setup) (Sample.opened ++ Sample.acknowledge 1 ++ [.switchAttached 1] ++
        Sample.processNext ++ Sample.acknowledge 2 ++ [.switchAttached 2] ++ Sample.processNext ++
        [.disconnect 1] ++ Sample.processNext) Sample.lobby = some h ∧
      h.registry.RunsOn 1 1 ∧
      (2 ∈ (h.registry.slot 1).system.loop.state.subscribers ∨
        .attach 2 ∈ (h.registry.slot 1).system.queue) := by
  have hany : (run (step Sample.setup) (Sample.opened ++ Sample.acknowledge 1 ++
      [.switchAttached 1] ++ Sample.processNext ++ Sample.acknowledge 2 ++ [.switchAttached 2] ++
      Sample.processNext ++ [.disconnect 1] ++ Sample.processNext) Sample.lobby).any (fun h =>
      h.clients[2]? == some { attached := some (1, 1) }) = true := by
    decide
  obtain ⟨h, hrun, hh⟩ := (Option.any_eq_true _ _).1 hany
  exact ⟨h, hrun, (attended_of_run rfl ∅ ∅ (by decide) hrun (beq_iff_eq.1 hh) rfl).2 rfl⟩

/-- The only subscriber leaves while another client attaches. The second client is told that the
session is attached, but its attach finds the channel of a thread that is over. -/
theorem not_attended_lastDetach :
    ∃ h, run (step Sample.setup) (Sample.opened ++ Sample.acknowledge 1 ++ [.switchAttached 1] ++
        Sample.processNext ++ Sample.acknowledge 2 ++ [.disconnect 1] ++ Sample.processNext ++
        [.switchAttached 2]) Sample.lobby = some h ∧
      h.clients[2]? = some { attached := some (1, 1) } ∧
      (h.registry.slot 1).system.live = false ∧ ¬ h.registry.RunsOn 1 1 := by
  have hany : (run (step Sample.setup) (Sample.opened ++ Sample.acknowledge 1 ++
      [.switchAttached 1] ++ Sample.processNext ++ Sample.acknowledge 2 ++ [.disconnect 1] ++
      Sample.processNext ++ [.switchAttached 2]) Sample.lobby).any (fun h =>
      h.clients[2]? == some { attached := some (1, 1) } &&
        !(h.registry.slot 1).system.live) = true := by
    decide
  obtain ⟨h, hrun, hh⟩ := (Option.any_eq_true _ _).1 hany
  rw [Bool.and_eq_true, beq_iff_eq, Bool.not_eq_true'] at hh
  refine ⟨h, hrun, hh.1, hh.2, fun hruns => ?_⟩
  exact absurd (hh.2.symm.trans hruns.1) (by simp)

end Lobby

end Choreo
