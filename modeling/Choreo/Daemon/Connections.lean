import Choreo.Daemon.Deletion
import Choreo.Session.Subscribers

/-!
# Attaching clients

A client attaches in three moves of its connection thread (`choreo-daemon/src/server/connection.rs`):
it asks the daemon for the channel of the session and waits for the answer, it tells the client that
the session is attached, and it sends the attach into the channel. The session thread may leave its
loop at any point in between. Then the attach is lost, although it was acknowledged; this also
happens when the daemon hands out the channel of a thread that is over before it has heard of its
end.
-/

namespace Choreo

/-- How far a connection thread is with an attach: nothing under way, waiting for the answer of the
daemon, or the client is told and the attach is not sent yet. -/
inductive AttachPhase
  | idle
  | waiting (sessionId : ℕ)
  | acknowledged (sessionId channel : ℕ)
deriving DecidableEq, Repr

/-- A connection: how far an attach is, the attached session with its channel, and whether the
daemon has evicted the client. -/
structure Client where
  phase : AttachPhase := .idle
  attached : Option (ℕ × ℕ) := none
  evicted : Bool := false
deriving DecidableEq, Repr

/-- The daemon with its connections. Client ids are not used twice. -/
structure Lobby where
  registry : Registry
  clients : Std.ExtTreeMap ℕ Client := ∅
  nextClientId : ℕ := 1

/-- The steps: the daemon or a session makes a step, a client connects, it asks for a session, its
connection thread reads the answer, it switches to the session, the daemon evicts a client, or a
client disconnects. -/
inductive LobbyLabel
  | daemon (label : RegistryLabel)
  | connect
  | attachSession (clientId sessionId : ℕ)
  | reply (clientId : ℕ)
  | switchAttached (clientId : ℕ)
  | evict (clientId : ℕ)
  | disconnect (clientId : ℕ)

def RegistryCommand.isAttachOf (clientId : ℕ) : RegistryCommand → Bool
  | .attachSession _ id => id == clientId
  | _ => false

def RegistryCommand.attaches : RegistryCommand → Option ℕ
  | .attachSession sessionId _ => some sessionId
  | _ => none

namespace Registry

def deliver (sessionId channel : ℕ) (command : SessionCommand) (r : Registry) : Registry :=
  r.modifySlot sessionId (Slot.deliver channel command)

def RunsOn (sessionId channel : ℕ) (r : Registry) : Prop :=
  (r.slot sessionId).system.live = true ∧ (r.slot sessionId).channel = channel

end Registry

namespace Lobby

/-- The daemon after its start, without clients. -/
def boot (env : StartEnv) (slots : Std.ExtTreeMap ℕ Slot)
    (tombstones : Std.ExtTreeMap ℕ Unit) : Lobby :=
  { registry := Registry.boot env slots tombstones }

variable (clientId : ℕ)

def serves (h : Lobby) : Bool := h.clients[clientId]?.any fun c => !c.evicted

/-- The steps of the daemon that do not come from a connection thread. Subscriptions do: a client is
taken off by the daemon only after its end or its eviction, and only then its receiver is gone. -/
def admits (label : RegistryLabel) (h : Lobby) : Bool :=
  match label with
  | .request (.attachSession ..) => false
  | .session _ (.send (.attach _)) | .session _ (.send (.detach _)) => false
  | .session _ (.send (.removeSubscriber clientId)) => !h.serves clientId
  | .session _ (.process env) => h.clients.toList.all fun (clientId, c) =>
      c.evicted || !env.gone clientId
  | _ => true

def setClient (c : Client) (h : Lobby) : Lobby :=
  { h with clients := h.clients.insert clientId c }

/-- The connection thread asks the daemon for a session. -/
def handleClientAttachSession (clientId sessionId : ℕ) (h : Lobby) : Option Lobby :=
  h.clients[clientId]?.bind fun c =>
    if c.phase = .idle then
      some { h.setClient clientId { c with phase := .waiting sessionId } with
        registry := { h.registry with
          queue := h.registry.queue ++ [.attachSession sessionId clientId] } }
    else none

/-- The connection thread reads the answer of the daemon. The client is told that the session is
attached, or that this failed. -/
def receiveReply (h : Lobby) : Option Lobby :=
  h.clients[clientId]?.bind fun c =>
    match c.phase, h.registry.grants.find? fun grant => grant.1 == clientId with
    | .waiting _, some grant =>
      some { h.setClient clientId { c with phase := .acknowledged grant.2.1 grant.2.2 } with
        registry := { h.registry with grants := h.registry.grants.erase grant } }
    | .waiting _, none =>
      if h.registry.queue.any (RegistryCommand.isAttachOf clientId) then none
      else some (h.setClient clientId { c with phase := .idle })
    | _, _ => none

/-- Leaves the session that a client was attached to, unless it is the given one. -/
def leaveAttached (clientId sessionId : ℕ) (c : Client) (r : Registry) : Registry :=
  match c.attached with
  | some (oldId, oldChannel) =>
    if oldId = sessionId then r else r.deliver oldId oldChannel (.detach clientId)
  | none => r

/-- The connection thread leaves the session that it was attached to, unless it is the same, and
sends the attach to the new one. -/
def switchAttachedSession (h : Lobby) : Option Lobby :=
  h.clients[clientId]?.bind fun c =>
    match c.phase with
    | .acknowledged sessionId channel =>
      some { h.setClient clientId
          { c with phase := .idle, attached := some (sessionId, channel) } with
        registry := (leaveAttached clientId sessionId c h.registry).deliver sessionId channel
          (.attach clientId) }
    | _ => none

/-- The end of a connection: the session is left. -/
def cleanupClient (h : Lobby) : Option Lobby :=
  h.clients[clientId]?.bind fun c =>
    if c.phase = .idle then
      some { h with
        clients := h.clients.erase clientId
        registry :=
          match c.attached with
          | some (sessionId, channel) =>
            h.registry.deliver sessionId channel (.detach clientId)
          | none => h.registry }
    else none

/-- One step. Connections do not outlive the process. -/
def step (setup : AgentSetup) (label : LobbyLabel) (h : Lobby) : Option Lobby :=
  match label with
  | .daemon label =>
    if h.admits label then
      (h.registry.step setup label).map fun r =>
        match label with
        | .reboot _ => { registry := r, nextClientId := h.nextClientId }
        | _ => { h with registry := r }
    else none
  | .connect =>
    some { h.setClient h.nextClientId {} with nextClientId := h.nextClientId + 1 }
  | .attachSession clientId sessionId => h.handleClientAttachSession clientId sessionId
  | .reply clientId => h.receiveReply clientId
  | .switchAttached clientId => h.switchAttachedSession clientId
  | .evict clientId =>
    h.clients[clientId]?.map fun c => h.setClient clientId { c with evicted := true }
  | .disconnect clientId => h.cleanupClient clientId

/-! ### The condition -/

/-- A client waits for the running thread of a session: it is told that the session is attached, and
its attach is not sent yet or waits in the channel. -/
def awaits (sessionId clientId : ℕ) (c : Client) (h : Lobby) : Bool :=
  c.phase == .acknowledged sessionId (h.registry.slot sessionId).channel ||
    (c.attached == some (sessionId, (h.registry.slot sessionId).channel) &&
      (h.registry.slot sessionId).system.queue.contains (.attach clientId))

/-- The running thread of a session is waited for: the daemon has handed out its channel in an answer
that is not read yet, or a client waits for it. -/
def awaited (sessionId : ℕ) (h : Lobby) : Bool :=
  h.registry.grants.any (fun grant =>
      grant.2 == (sessionId, (h.registry.slot sessionId).channel)) ||
    h.clients.toList.any fun (clientId, c) => !c.evicted && h.awaits sessionId clientId c

def followed (sessionId : ℕ) (h : Lobby) : Bool :=
  h.clients.toList.any fun (_, c) =>
    !c.evicted && c.attached == some (sessionId, (h.registry.slot sessionId).channel)

/-- The condition on a step: the daemon does not hand out the channel of a thread that is over; a
session thread does not leave its loop while a client waits for it, and is not shut down while a
client is attached; and a start of the daemon reads the sessions. -/
def Orderly (label : LobbyLabel) (h : Lobby) : Prop :=
  match label with
  | .daemon (.handle _) => ∀ sessionId ∈ h.registry.queue.head?.bind RegistryCommand.attaches,
      h.registry.activeSessions.contains sessionId = true →
        (h.registry.slot sessionId).system.live = true
  | .daemon (.session sessionId (.process env)) =>
    ∀ command ∈ (h.registry.slot sessionId).system.queue.head?,
      (h.registry.slot sessionId).system.loop.leaves env command = true →
        h.awaited sessionId = false ∧
          ((h.registry.slot sessionId).system.loop.shutsDown command = true →
            h.followed sessionId = false)
  | .daemon (.reboot env) => env.sessionsOk = true
  | _ => True

end Lobby

/-! ### What the daemon does to the running threads -/

/-- A change of a slot that keeps its thread, its channel and its subscribers; commands that arrive
take no client off. -/
structure Slot.Calm (s s' : Slot) : Prop where
  live : s'.system.live = s.system.live
  channel : s'.channel = s.channel
  starting : s'.starting = s.starting ∨ s'.starting = none
  subscribers : s'.system.loop.state.subscribers = s.system.loop.state.subscribers
  queue : ∃ commands, s'.system.queue = s.system.queue ++ commands ∧
    ∀ command ∈ commands, ∀ clientId, command.detaches clientId = false

namespace Slot.Calm

variable {s s' s'' : Slot}

theorem of_eq (hlive : s'.system.live = s.system.live) (hchannel : s'.channel = s.channel)
    (hstarting : s'.starting = s.starting)
    (hsubscribers : s'.system.loop.state.subscribers = s.system.loop.state.subscribers)
    (hqueue : s'.system.queue = s.system.queue) : Calm s s' :=
  ⟨hlive, hchannel, Or.inl hstarting, hsubscribers, [], by simpa using hqueue, by simp⟩

theorem refl (s : Slot) : Calm s s := of_eq rfl rfl rfl rfl rfl

theorem trans (h : Calm s s') (h' : Calm s' s'') : Calm s s'' := by
  obtain ⟨commands, hqueue, hcommands⟩ := h.queue
  obtain ⟨commands', hqueue', hcommands'⟩ := h'.queue
  refine ⟨h'.live.trans h.live, h'.channel.trans h.channel, ?_,
    h'.subscribers.trans h.subscribers, commands ++ commands', ?_, fun command hc => ?_⟩
  · rcases h'.starting with heq | hnone
    · rw [heq]
      exact h.starting
    · exact Or.inr hnone
  · rw [hqueue', hqueue, List.append_assoc]
  · exact (List.mem_append.1 hc).elim (hcommands command) (hcommands' command)

theorem deliver (s : Slot) (channel : ℕ) {command : SessionCommand}
    (h : ∀ clientId, command.detaches clientId = false) : Calm s (s.deliver channel command) := by
  unfold Slot.deliver
  split_ifs
  · exact ⟨rfl, rfl, Or.inl rfl, rfl, [command], rfl, by simpa using h⟩
  · exact refl s

end Slot.Calm

namespace Registry

/-- A change that is calm for every slot, hands out no channel and starts no thread. -/
structure Calm (r r' : Registry) : Prop where
  slots : ∀ id, (r.slot id).Calm (r'.slot id)
  active : ∀ id channel : ℕ,
    r'.activeSessions[id]? = some channel → r.activeSessions[id]? = some channel
  grants : r'.grants = r.grants

namespace Calm

variable {r r' r'' : Registry}

theorem of_eq (hslots : r'.slots = r.slots) (hactive : r'.activeSessions = r.activeSessions)
    (hgrants : r'.grants = r.grants) : Calm r r' := by
  refine ⟨fun id => ?_, fun id channel h => hactive ▸ h, hgrants⟩
  have hslot : r'.slot id = r.slot id := by
    unfold slot
    rw [hslots]
  rw [hslot]
  exact .refl _

theorem refl (r : Registry) : Calm r r := of_eq rfl rfl rfl

theorem trans (h : Calm r r') (h' : Calm r' r'') : Calm r r'' :=
  ⟨fun id => (h.slots id).trans (h'.slots id),
    fun id channel hactive => h.active id channel (h'.active id channel hactive),
    h'.grants.trans h.grants⟩

theorem modifySlot (r : Registry) (sessionId : ℕ) {f : Slot → Slot} (hf : ∀ s, Slot.Calm s (f s)) :
    Calm r (r.modifySlot sessionId f) := by
  refine ⟨fun id => ?_, fun _ _ h => h, rfl⟩
  rw [slot_modifySlot]
  split_ifs
  · exact hf _
  · exact .refl _

theorem deleteRows (r : Registry) (sessionId : ℕ) :
    Calm r (r.modifySlot sessionId Slot.deleteRows) :=
  modifySlot r sessionId fun _ => .of_eq rfl rfl rfl rfl rfl

theorem eraseActive (r : Registry) (sessionId : ℕ) :
    Calm r { r with activeSessions := r.activeSessions.erase sessionId } := by
  refine ⟨fun id => .refl _, fun id channel h => ?_, rfl⟩
  rw [Std.ExtTreeMap.get_erase] at h
  split_ifs at h
  exact h

theorem sendSession (r : Registry) (sessionId : ℕ) {command : SessionCommand}
    (h : ∀ clientId, command.detaches clientId = false) :
    Calm r (r.sendSession sessionId command) := by
  unfold Registry.sendSession
  split
  · exact modifySlot r sessionId fun s => .deliver s _ h
  · exact refl r

theorem foldl {α : Type*} {body : Registry → α → Registry} (h : ∀ r a, Calm r (body r a))
    (as : List α) (r : Registry) : Calm r (as.foldl body r) := by
  induction as generalizing r with
  | nil => exact refl r
  | cons a as ih => exact (h r a).trans (ih _)

variable (env : RegistryEnv) (sessionId : ℕ)

theorem clearSessionTombstone (r : Registry) :
    Calm r (r.clearSessionTombstone env sessionId) := by
  unfold Registry.clearSessionTombstone
  split_ifs
  · exact of_eq rfl rfl rfl
  · exact refl r

theorem deleteSessionInner (r : Registry) :
    Calm r (r.deleteSessionInner env sessionId).1 := by
  have hforget : ∀ r : Registry, Calm r (r.forgetSession sessionId) :=
    fun r => of_eq rfl rfl rfl
  have hmark : ∀ r : Registry,
      Calm r { r with deletedSessions := r.deletedSessions.insert sessionId } :=
    fun r => of_eq rfl rfl rfl
  unfold Registry.deleteSessionInner
  split
  · next channel hactive =>
    dsimp only
    refine (eraseActive r sessionId).trans ?_
    split_ifs
    · unfold deleteFinishedSession
      dsimp only
      refine (hmark _).trans ?_
      split_ifs
      · exact ((deleteRows _ sessionId).trans (clearSessionTombstone env sessionId _)).trans
          (hforget _)
      · exact refl _
    · refine (hmark _).trans (Calm.trans ?_ (hforget _))
      refine Calm.trans ?_ (modifySlot _ sessionId fun s =>
        (Slot.Calm.deliver s channel (fun _ => rfl)).trans (.deliver _ channel fun _ => rfl))
      unfold markSessionDeleted
      split_ifs
      · exact of_eq rfl rfl rfl
      · exact refl _
  · split_ifs
    · dsimp only
      refine (deleteRows r sessionId).trans (Calm.trans ?_ (hforget _))
      split_ifs
      · exact refl _
      · exact clearSessionTombstone env sessionId _
    · exact refl r

theorem handleDeleteSession (r : Registry) :
    Calm r (r.handleDeleteSession env sessionId).1 := by
  have hinner : ∀ (r : Registry) (id : ℕ),
      Calm r ((r.removeChildFromAllParents id).deleteSessionInner env id).1 := by
    intro r id
    refine Calm.trans ?_ (deleteSessionInner env id _)
    exact of_eq rfl rfl rfl
  unfold Registry.handleDeleteSession
  refine Calm.trans ?_ ((foldl hinner _ _).trans (hinner _ sessionId))
  exact of_eq rfl rfl rfl

theorem handleSessionExited (r : Registry) :
    Calm r (r.handleSessionExited sessionId) := by
  unfold Registry.handleSessionExited
  dsimp only
  set ended : Registry := handleBroadcastSessionStatus sessionId .sleeping _ with hended
  have hcalm : Calm r ended := by
    have hstatus : ∀ r : Registry, Calm r (r.handleBroadcastSessionStatus sessionId .sleeping) := by
      intro r
      unfold handleBroadcastSessionStatus
      split
      · exact of_eq rfl rfl rfl
      · exact refl r
    refine (eraseActive r sessionId).trans (Calm.trans ?_ (hstatus _))
    refine Calm.trans ?_ (foldl (fun r childId => ?_) _ _)
    · exact of_eq rfl rfl rfl
    · refine Calm.trans ?_ ((sendSession _ childId fun _ => rfl).trans
        (sendSession _ childId fun _ => rfl))
      exact of_eq rfl rfl rfl
  split_ifs
  · exact hcalm.trans (of_eq rfl rfl rfl)
  · exact hcalm

/-- Every command that neither creates nor attaches a session is calm. -/
theorem handleCommand {command : RegistryCommand}
    (hcreate : ∀ session, command ≠ .createSession session)
    (hattach : ∀ sessionId clientId, command ≠ .attachSession sessionId clientId) (r : Registry) :
    Calm r (r.handleCommand env command) := by
  cases command with
  | createSession session => exact absurd rfl (hcreate session)
  | attachSession sessionId clientId => exact absurd rfl (hattach sessionId clientId)
  | cancelRequest sessionId requestId =>
    have hsend : Calm r (r.sendSession sessionId (.cancel requestId)) :=
      sendSession r sessionId fun _ => rfl
    refine hsend.trans ?_
    unfold Registry.handleCommand handleCancelRequest cancelChildrenOf
    dsimp only
    split_ifs
    · exact refl _
    · exact foldl (fun r childId => sendSession r childId fun _ => rfl) _ _
  | deleteSession sessionId => exact handleDeleteSession env sessionId r
  | updateMetadata sessionId metadata =>
    unfold Registry.handleCommand handleUpdateMetadata
    dsimp only
    split_ifs
    · exact refl r
    · exact of_eq rfl rfl rfl
  | broadcastSessionStatus sessionId status =>
    unfold Registry.handleCommand handleBroadcastSessionStatus
    dsimp only
    split
    · exact of_eq rfl rfl rfl
    · exact refl r
  | sessionExited sessionId => exact handleSessionExited sessionId r
  | sessionDeleteFinalized sessionId => exact of_eq rfl rfl rfl

end Calm

end Registry

end Choreo
