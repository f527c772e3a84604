import Choreo.Daemon.Lifecycle
import Choreo.Session.Serving

/-!
# The registry, seen from one session id

Every step of the daemon and its sessions is, for each session id on its own, a sequence of events of
`Lifecycle`. What is proved of the life of a session id therefore holds of every session in
every run of the registry.
-/

namespace Choreo

open List Option

/-- The report that a command is about a session. -/
def RegistryCommand.mail (sessionId : ℕ) : RegistryCommand → Option Mail
  | .updateMetadata id _ => if id = sessionId then some .metadata else none
  | .broadcastSessionStatus id _ => if id = sessionId then some .status else none
  | .sessionExited id => if id = sessionId then some .exited else none
  | .sessionDeleteFinalized id => if id = sessionId then some .finalized else none
  | _ => none

def Announcement.decides (sessionId : ℕ) : Announcement → Bool
  | .sessionCreated id => id == sessionId
  | .sessionDeleted id => id == sessionId
  | .sessionStatusChanged _ _ => false

namespace Slot

/-- What holds of a slot: its session keeps its invariant, and a thread that has not started yet has
no request. -/
structure Invariant (s : Slot) : Prop where
  system : s.system.Invariant
  starting : s.starting.isSome = true →
    s.system.live = true ∧ s.system.worker = none ∧ s.system.loop.state.activeRequests = ∅

namespace Invariant

variable {s : Slot}

/-- A slot without a thread. -/
theorem of_idle (hsystem : s.system.Invariant) (hstarting : s.starting = none) : s.Invariant :=
  ⟨hsystem, fun h => by simp [hstarting] at h⟩

theorem deliver (setup : AgentSetup) (h : s.Invariant) (channel : ℕ) {command : SessionCommand}
    (hcommand : command.isExternal = true) : (s.deliver channel command).Invariant := by
  unfold Slot.deliver
  split_ifs with hlive
  · rw [Bool.and_eq_true] at hlive
    have hstep : s.system.step setup (.send command) =
        some { s.system with queue := s.system.queue ++ [command] } := by
      simp [System.step, hlive.1, hcommand]
    exact ⟨System.step_invariant h.system hstep, h.starting⟩
  · exact h

theorem setStore (h : s.Invariant) (store : Store) : (s.setStore store).Invariant :=
  ⟨⟨h.system.single, h.system.registered, h.system.stopped, h.system.worker⟩, h.starting⟩

theorem deleteRows (h : s.Invariant) : s.deleteRows.Invariant :=
  ⟨(h.setStore {}).system, (h.setStore {}).starting⟩

theorem spawn (boot : BootEnv) (record : SessionRecord) (s : Slot) :
    (s.spawn boot record).Invariant where
  system :=
    { single := Nat.zero_le 1
      registered := (System.init_invariant {}).registered
      stopped := fun h => (by cases h)
      worker := fun _ hw => (by cases hw) }
  starting _ := ⟨rfl, rfl, rfl⟩

/-- A thread that starts has no request yet. -/
theorem start (h : s.Invariant) {s' : Slot} (hstart : s.start = some s') :
    s'.Invariant ∧ s.system.live = true ∧ s'.system.live = true ∧ s'.kv = s.kv ∧
      s'.store = s.store ∧ ∃ sent, Output.sessionExited ∉ sent ∧
        s'.system.loop.log = sent ++ s.system.loop.log := by
  unfold Slot.start at hstart
  obtain ⟨⟨boot, record⟩, hstarting, rfl⟩ := map_eq_some_iff.1 hstart
  obtain ⟨hlive, hworker, hactive⟩ := h.starting (by simp [hstarting])
  refine ⟨.of_idle ⟨h.system.single, fun id => ?_, fun hl => by simp [hlive] at hl,
    fun w hw => by simp [hworker] at hw⟩ rfl, hlive, hlive, rfl, ?_, ?_⟩
  · change (Loop.sessionMain boot record s.store s.system.loop.log).state.activeRequests[id]?.isSome =
      true ↔ id ∈ s.system.pending
    rw [← h.system.registered id, hactive, Loop.sessionMain_activeRequests]
  · rfl
  · exact Loop.log_sessionMain boot record s.store s.system.loop.log

theorem crash (s : Slot) : s.crash.Invariant :=
  .of_idle
    { single := Nat.zero_le 1
      registered := (System.init_invariant {}).registered
      stopped := fun _ => ⟨rfl, rfl⟩
      worker := fun _ hw => (by cases hw) } rfl

end Invariant

/-- The thread and the rows of a slot, in the life of its session id. -/
def onto (s : Slot) (v : Lifecycle) : Lifecycle :=
  { v with
    live := s.system.live
    record := s.store.record.isSome
    content := !(s.store.turns.isEmpty && s.store.attachments.isEmpty)
    kv := !s.kv.isEmpty }

end Slot

namespace Registry

variable (sessionId : ℕ)

/-- Whether the last announcement about a session was that it is deleted. -/
def announcedDeleted (r : Registry) : Bool :=
  r.log.find? (Announcement.decides sessionId) == some (.sessionDeleted sessionId)

def view (r : Registry) : Lifecycle :=
  (r.slot sessionId).onto
    { mail := r.queue.filterMap (RegistryCommand.mail sessionId)
      active := r.activeSessions[sessionId]?.isSome
      indexed := r.sessionMetadata[sessionId]?.isSome
      marked := r.deletedSessions.contains sessionId
      tombstone := r.tombstones[sessionId]?.isSome
      finalizer := r.finalizers[sessionId]?
      gone := r.announcedDeleted sessionId }

/-- What holds of the registry at any time: the slots keep their invariant, and an id that was not
given out is unused. -/
structure Invariant (r : Registry) : Prop where
  slots : ∀ id, (r.slot id).Invariant
  fresh : ∀ id, r.nextSessionId ≤ id → (r.view id).isIdle = true ∧ (r.view id).record = false

variable (label : RegistryLabel)

/-- Whether a step creates a session. -/
def creates (r : Registry) : Bool :=
  match label, r.queue with
  | .handle _, .createSession _ :: _ => true
  | _, _ => false

/-- The events that a step of the registry can be for a session id whose life is `v`. -/
def Permits (r : Registry) (v : Lifecycle) :
    LifecycleEvent → Prop
  | .create recordOk => v = r.view sessionId ∧ r.creates label = true ∧
      sessionId = r.nextSessionId ∧ ∃ env, label = .handle env ∧ recordOk = env.writeOk
  | .attach => ∃ env, label = .handle env
  | .work .. => label = .start sessionId ∨ ∃ slabel, label = .session sessionId slabel
  | .kvWrite kv => v = r.view sessionId ∧ ((∃ key value, label = .kvSet sessionId key value) ∨
      ∃ key, label = .kvDelete sessionId key ∧ (kv = true → v.kv = true))
  | .receive => ∃ env, label = .handle env
  | .deleteRunning tombstoneOk =>
    ∃ env, label = .handle env ∧ tombstoneOk = env.tombstoneOk sessionId
  | .deleteFinished deleteOk clearOk | .deleteStored deleteOk clearOk =>
    ∃ env, label = .handle env ∧ deleteOk = env.deleteOk sessionId ∧
      clearOk = env.clearOk sessionId
  | .finalize ok => label = .finalize sessionId ok
  | .reboot sweeps clears reads => v = r.view sessionId ∧ ∃ env, label = .reboot env ∧
      sweeps = env.sweeps sessionId ∧ clears = env.clearOk sessionId ∧ reads = env.sessionsOk

/-- A sequence of permitted events. -/
def Leads (r : Registry) :
    Lifecycle → Lifecycle → Prop :=
  Relation.ReflTransGen fun v v' => ∃ event, r.Permits sessionId label v event ∧
    v.step event = some v'

/-! ### What the parts of the handlers do to the life of a session -/

section View

variable {id sessionId : ℕ} {r : Registry}

theorem slot_modifySlot (f : Slot → Slot) :
    (r.modifySlot sessionId f).slot id = if id = sessionId then f (r.slot id) else r.slot id := by
  unfold slot modifySlot
  dsimp only
  rw [Std.ExtTreeMap.get_insert]
  by_cases hid : id = sessionId
  · rw [if_pos hid, if_pos hid, hid]
    rfl
  · rw [if_neg hid, if_neg hid]

/-- A change of a slot only matters where it happens. -/
theorem view_modifySlot (f : Slot → Slot) :
    (r.modifySlot sessionId f).view id =
      if id = sessionId then (f (r.slot id)).onto (r.view id) else r.view id := by
  unfold view
  rw [slot_modifySlot]
  by_cases hid : id = sessionId
  · rw [if_pos hid, if_pos hid]
    rfl
  · rw [if_neg hid, if_neg hid]
    rfl

theorem view_modifySlot_of_onto {f : Slot → Slot} (h : ∀ s v, (f s).onto v = s.onto v) :
    (r.modifySlot sessionId f).view id = r.view id := by
  rw [view_modifySlot]
  by_cases hid : id = sessionId
  · rw [if_pos hid, h]
    rfl
  · rw [if_neg hid]

theorem onto_deliver (channel : ℕ) (command : SessionCommand) (s : Slot) (v : Lifecycle) :
    (s.deliver channel command).onto v = s.onto v := by
  unfold Slot.deliver
  split_ifs <;> rfl

theorem view_sendSession (command : SessionCommand) :
    (r.sendSession sessionId command).view id = r.view id := by
  unfold sendSession
  split
  · exact view_modifySlot_of_onto (onto_deliver _ _)
  · rfl

theorem view_cancelAndShutdownChild (childId : ℕ) :
    (r.cancelAndShutdownChild childId).view id = r.view id := by
  unfold cancelAndShutdownChild
  rw [view_sendSession, view_sendSession]

theorem view_addChild (parentId : Option ℕ) : (r.addChild parentId sessionId).view id = r.view id := by
  cases parentId <;> rfl

theorem view_foldl {α : Type*} (body : Registry → α → Registry)
    (h : ∀ r a, (body r a).view id = r.view id) (as : List α) (r : Registry) :
    (as.foldl body r).view id = r.view id := by
  induction as generalizing r with
  | nil => rfl
  | cons a as ih => rw [foldl_cons, ih, h]

theorem view_insertFinalizer (r : Registry) (sessionId id : ℕ) (phase : FinalizePhase) :
    ({ r with finalizers := r.finalizers.insert sessionId phase } : Registry).view id =
      if id = sessionId then { r.view id with finalizer := some phase } else r.view id := by
  unfold view
  dsimp only
  rw [Std.ExtTreeMap.get_insert]
  by_cases hid : id = sessionId
  · rw [if_pos hid, if_pos hid]
    rfl
  · rw [if_neg hid, if_neg hid]
    rfl

theorem view_handleBroadcastSessionStatus (status : SessionStatus) :
    (r.handleBroadcastSessionStatus sessionId status).view id = r.view id := by
  unfold handleBroadcastSessionStatus
  split
  · next metadata hmetadata =>
    unfold view
    dsimp only
    rw [Std.ExtTreeMap.get_insert]
    by_cases hid : id = sessionId
    · rw [if_pos hid, hid, hmetadata]
      rfl
    · rw [if_neg hid]
      rfl
  · rfl

theorem view_enter (channel : ℕ) (metadata : SessionMetadata) :
    ({ r with
      activeSessions := r.activeSessions.insert sessionId channel
      sessionMetadata := r.sessionMetadata.insert sessionId metadata } : Registry).view id =
      if id = sessionId then { r.view id with active := true, indexed := true } else r.view id := by
  unfold view
  dsimp only
  rw [Std.ExtTreeMap.get_insert, Std.ExtTreeMap.get_insert]
  by_cases hid : id = sessionId
  · rw [if_pos hid, if_pos hid, if_pos hid]
    rfl
  · rw [if_neg hid, if_neg hid, if_neg hid]
    rfl

variable (env : RegistryEnv)

theorem view_spawnSession (record : SessionRecord)
    (metadata : SessionMetadata) :
    (r.spawnSession env sessionId record metadata).view id =
      if id = sessionId then { r.view id with live := true, active := true, indexed := true }
      else r.view id := by
  rw [spawnSession, view_enter, view_modifySlot]
  by_cases hid : id = sessionId
  · rw [if_pos hid, if_pos hid, if_pos hid]
    rfl
  · rw [if_neg hid, if_neg hid, if_neg hid]

theorem announcedDeleted_broadcast (r : Registry) (id : ℕ) (announcement : Announcement) :
    (r.broadcast announcement).announcedDeleted id =
      if announcement.decides id then announcement == .sessionDeleted id
      else r.announcedDeleted id := by
  unfold announcedDeleted broadcast
  dsimp only
  rw [List.find?_cons]
  split
  · next h => simp [h]
  · next h => simp [h]

theorem view_broadcast_of_not_decides {announcement : Announcement}
    (h : announcement.decides id = false) :
    (r.broadcast announcement).view id = r.view id := by
  have hgone := announcedDeleted_broadcast r id announcement
  rw [h, if_neg (by simp)] at hgone
  unfold view
  rw [hgone]
  rfl

theorem view_broadcast_of_decides {announcement : Announcement}
    (h : announcement.decides id = true) :
    (r.broadcast announcement).view id =
      { r.view id with gone := announcement == .sessionDeleted id } := by
  have hgone := announcedDeleted_broadcast r id announcement
  rw [h, if_pos rfl] at hgone
  unfold view
  rw [hgone]
  rfl

/-- A session leaves the index with an announcement. -/
theorem view_forgetSession :
    (r.forgetSession sessionId).view id =
      if id = sessionId then (r.view id).forget else r.view id := by
  have herase : ({ r with sessionMetadata := r.sessionMetadata.erase sessionId } :
      Registry).view id =
      if id = sessionId then { r.view id with indexed := false } else r.view id := by
    unfold view
    dsimp only
    rw [Std.ExtTreeMap.get_erase]
    by_cases hid : id = sessionId
    · rw [if_pos hid, if_pos hid]
      rfl
    · rw [if_neg hid, if_neg hid]
      rfl
  unfold forgetSession
  by_cases hid : id = sessionId
  · rw [view_broadcast_of_decides (by simp [Announcement.decides, hid]), herase, if_pos hid,
      if_pos hid]
    simp [Lifecycle.forget, hid]
  · rw [view_broadcast_of_not_decides (by simpa [Announcement.decides] using Ne.symm hid), herase,
      if_neg hid, if_neg hid]

theorem view_mark :
    ({ r with deletedSessions := r.deletedSessions.insert sessionId } : Registry).view id =
      if id = sessionId then { r.view id with marked := true } else r.view id := by
  unfold view
  dsimp only
  rw [Std.ExtTreeSet.contains_insert_eq]
  by_cases hid : id = sessionId
  · rw [if_pos hid, decide_eq_true hid]
    rfl
  · rw [if_neg hid, decide_eq_false hid]
    rfl

theorem view_deactivate :
    ({ r with activeSessions := r.activeSessions.erase sessionId } : Registry).view id =
      if id = sessionId then { r.view id with active := false } else r.view id := by
  unfold view
  dsimp only
  rw [Std.ExtTreeMap.get_erase]
  by_cases hid : id = sessionId
  · rw [if_pos hid, if_pos hid]
    rfl
  · rw [if_neg hid, if_neg hid]
    rfl

theorem view_retire :
    ({ r with
      activeSessions := r.activeSessions.erase sessionId
      deletedSessions := r.deletedSessions.insert sessionId } : Registry).view id =
      if id = sessionId then { r.view id with active := false, marked := true } else r.view id := by
  unfold view
  dsimp only
  rw [Std.ExtTreeSet.contains_insert_eq, Std.ExtTreeMap.get_erase]
  by_cases hid : id = sessionId
  · rw [if_pos hid, if_pos hid, decide_eq_true hid]
    rfl
  · rw [if_neg hid, if_neg hid, decide_eq_false hid]
    rfl

theorem view_deleteRows :
    (r.modifySlot sessionId Slot.deleteRows).view id =
      if id = sessionId then (r.view id).deleteRows else r.view id := by
  rw [view_modifySlot]
  by_cases hid : id = sessionId
  · rw [if_pos hid, if_pos hid]
    simp [Slot.onto, Slot.deleteRows, Slot.setStore, Slot.store, Lifecycle.deleteRows, view]
  · rw [if_neg hid, if_neg hid]

theorem view_eraseTombstone :
    ({ r with tombstones := r.tombstones.erase sessionId } : Registry).view id =
      if id = sessionId then { r.view id with tombstone := false } else r.view id := by
  unfold view
  dsimp only
  rw [Std.ExtTreeMap.get_erase]
  by_cases hid : id = sessionId
  · rw [if_pos hid, if_pos hid]
    rfl
  · rw [if_neg hid, if_neg hid]
    rfl

theorem view_clearSessionTombstone :
    (r.clearSessionTombstone env sessionId).view id =
      if id = sessionId then
        { r.view id with tombstone := (r.view id).tombstone && !env.clearOk sessionId }
      else r.view id := by
  unfold clearSessionTombstone
  cases env.clearOk sessionId with
  | true =>
    rw [if_pos rfl, view_eraseTombstone]
    simp
  | false => simp

theorem view_markSessionDeleted :
    (r.markSessionDeleted env sessionId).view id =
      if id = sessionId then
        { r.view id with tombstone := (r.view id).tombstone || env.tombstoneOk sessionId }
      else r.view id := by
  unfold markSessionDeleted
  cases env.tombstoneOk sessionId with
  | true =>
    rw [if_pos rfl]
    unfold view
    dsimp only
    rw [Std.ExtTreeMap.get_insert]
    by_cases hid : id = sessionId
    · rw [if_pos hid, if_pos hid, Bool.or_true]
      rfl
    · rw [if_neg hid, if_neg hid]
      rfl
  | false => simp

theorem view_deleteFinishedSession :
    (r.deleteFinishedSession env sessionId).1.view id =
      if id = sessionId then
        if env.deleteOk sessionId then
          { ({ r.view id with marked := true } : Lifecycle).deleteRows.forget with
            tombstone := (r.view id).tombstone && !env.clearOk sessionId }
        else { r.view id with marked := true }
      else r.view id := by
  unfold deleteFinishedSession
  cases env.deleteOk sessionId with
  | false =>
    simp only [Bool.false_eq_true, if_false]
    rw [view_mark]
  | true =>
    simp only [if_true]
    rw [view_forgetSession, view_clearSessionTombstone, view_deleteRows, view_mark]
    by_cases hid : id = sessionId
    · simp only [hid, if_true]
      rfl
    · simp only [hid, if_false]

theorem view_deleteSessionInner_of_ne (hid : id ≠ sessionId) :
    (r.deleteSessionInner env sessionId).1.view id = r.view id := by
  unfold deleteSessionInner
  split
  · dsimp only
    split_ifs
    · rw [view_deleteFinishedSession, if_neg hid, view_deactivate, if_neg hid]
    · rw [view_forgetSession, if_neg hid, view_modifySlot, if_neg hid, view_markSessionDeleted,
        if_neg hid, view_retire, if_neg hid]
  · split_ifs
    · dsimp only
      rw [view_forgetSession, if_neg hid]
      split_ifs
      · rw [view_deleteRows, if_neg hid]
      · rw [view_clearSessionTombstone, if_neg hid, view_deleteRows, if_neg hid]
    · rfl

theorem view_deleteSessionInner (r : Registry) (env : RegistryEnv) (sessionId : ℕ) :
    ∃ event, (event = .deleteRunning (env.tombstoneOk sessionId) ∨
        event = .deleteFinished (env.deleteOk sessionId) (env.clearOk sessionId) ∨
        event = .deleteStored (env.deleteOk sessionId) (env.clearOk sessionId)) ∧
      (r.view sessionId).step event =
        some ((r.deleteSessionInner env sessionId).1.view sessionId) := by
  unfold deleteSessionInner
  cases hactive : r.activeSessions[sessionId]? with
  | some channel =>
    have hview : (r.view sessionId).active = true := by
      change r.activeSessions[sessionId]?.isSome = true
      rw [hactive]
      rfl
    dsimp only
    by_cases hfinished : threadFinished env sessionId
        { r with activeSessions := r.activeSessions.erase sessionId } = true
    · have hlive : (r.view sessionId).live = false := by
        simp only [threadFinished, Bool.and_eq_true, Bool.not_eq_true'] at hfinished
        exact hfinished.1
      refine ⟨_, Or.inr (Or.inl rfl), ?_⟩
      rw [if_pos hfinished, view_deleteFinishedSession, view_deactivate]
      simp only [Lifecycle.step, hview, hlive, if_true, Bool.not_false, Bool.and_self]
      split_ifs <;> rfl
    · refine ⟨_, Or.inl rfl, ?_⟩
      rw [if_neg hfinished, view_forgetSession, view_modifySlot_of_onto (fun s v => by
        rw [onto_deliver, onto_deliver]), view_markSessionDeleted, view_retire]
      simp only [Lifecycle.step, hview, if_true]
      rfl
  | none =>
    have hview : (r.view sessionId).active = false := by
      change r.activeSessions[sessionId]?.isSome = false
      rw [hactive]
      rfl
    refine ⟨_, Or.inr (Or.inr rfl), ?_⟩
    dsimp only
    cases hdelete : env.deleteOk sessionId with
    | false => simp [Lifecycle.step, hview]
    | true =>
      simp only [Lifecycle.step, hview, if_true, Bool.false_eq_true, if_false]
      rw [view_forgetSession, if_pos rfl]
      by_cases hmarked : r.deletedSessions.contains sessionId = true
      · have hm : (r.view sessionId).marked = true := hmarked
        rw [if_pos (by exact hmarked), view_deleteRows, if_pos rfl, hm]
        simp only [Bool.true_or, Bool.and_true]
        rfl
      · have hm : (r.view sessionId).marked = false := Bool.eq_false_iff.2 hmarked
        rw [if_neg (by exact hmarked), view_clearSessionTombstone, if_pos rfl, view_deleteRows,
          if_pos rfl, hm]
        simp only [Bool.false_or]
        rfl

end View

/-! ### What a session thread sends -/

theorem mail_toRegistry_of_ne {id sessionId : ℕ} (hid : id ≠ sessionId) (outputs : List Output) :
    (outputs.filterMap (Output.toRegistry sessionId)).filterMap (RegistryCommand.mail id) = [] := by
  rw [filterMap_filterMap, filterMap_eq_nil_iff]
  intro output _
  cases output <;> simp [Output.toRegistry, RegistryCommand.mail, Ne.symm hid]

theorem mail_toRegistry_early {outputs : List Output}
    (h : Output.sessionExited ∉ outputs) :
    ((outputs.filterMap (Output.toRegistry sessionId)).filterMap
      (RegistryCommand.mail sessionId)).all Mail.isEarly = true := by
  rw [filterMap_filterMap, List.all_eq_true]
  intro m hm
  obtain ⟨output, houtput, heq⟩ := mem_filterMap.1 hm
  cases output <;> simp [Output.toRegistry, RegistryCommand.mail] at heq
  · rw [← heq]
    rfl
  · rw [← heq]
    rfl
  · exact absurd houtput h

theorem sentBetween_eq {sessionId : ℕ} {s s' : System} {sent : List Output}
    (h : s'.loop.log = sent ++ s.loop.log) :
    System.sentBetween sessionId s s' = sent.reverse.filterMap (Output.toRegistry sessionId) := by
  unfold System.sentBetween
  rw [h, length_append, Nat.add_sub_cancel_right, take_left]

section Threads

variable {id sessionId : ℕ} {r : Registry}

theorem slot_afterThread (s : Slot) :
    (r.afterThread sessionId s).slot id = if id = sessionId then s else r.slot id := by
  unfold slot afterThread
  dsimp only
  rw [Std.ExtTreeMap.get_insert]
  by_cases hid : id = sessionId
  · rw [if_pos hid, if_pos hid]
    rfl
  · rw [if_neg hid, if_neg hid]

theorem view_afterThread_of_ne (s : Slot) (hid : id ≠ sessionId) :
    (r.afterThread sessionId s).view id = r.view id := by
  unfold view
  rw [slot_afterThread, if_neg hid]
  have hmail : (r.afterThread sessionId s).queue.filterMap (RegistryCommand.mail id) =
      r.queue.filterMap (RegistryCommand.mail id) := by
    unfold afterThread System.sentBetween
    dsimp only
    rw [filterMap_append, mail_toRegistry_of_ne hid, append_nil]
  rw [hmail]
  rfl

theorem view_afterThread {s : Slot} {sent : List Output}
    (hlive : (r.slot sessionId).system.live = true)
    (hrecord : (r.slot sessionId).store.record.isSome = true → s.store.record.isSome = true)
    (hkv : s.kv = (r.slot sessionId).kv) (hsent : Output.sessionExited ∉ sent)
    (hlog : s.system.loop.log = (if s.system.live then sent else .sessionExited :: sent) ++
      (r.slot sessionId).system.loop.log) :
    ∃ mail exits record content,
      (r.view sessionId).step (.work mail exits record content) =
        some ((r.afterThread sessionId s).view sessionId) := by
  refine ⟨(sent.reverse.filterMap (Output.toRegistry sessionId)).filterMap
      (RegistryCommand.mail sessionId), !s.system.live, s.store.record.isSome,
    !(s.store.turns.isEmpty && s.store.attachments.isEmpty), ?_⟩
  have hearly := mail_toRegistry_early sessionId
    (fun h => hsent (mem_reverse.1 h) : Output.sessionExited ∉ sent.reverse)
  have hguard : ((r.view sessionId).live &&
      ((sent.reverse.filterMap (Output.toRegistry sessionId)).filterMap
        (RegistryCommand.mail sessionId)).all Mail.isEarly &&
      (!(r.view sessionId).record || s.store.record.isSome)) = true := by
    have hl : (r.view sessionId).live = true := hlive
    rw [hl, hearly]
    cases h : (r.view sessionId).record with
    | false => rfl
    | true =>
      have hs := hrecord h
      rw [hs]
      rfl
  simp only [Lifecycle.step, hguard, if_true]
  unfold view
  rw [slot_afterThread, if_pos rfl]
  have hmail : (r.afterThread sessionId s).queue.filterMap (RegistryCommand.mail sessionId) =
      r.queue.filterMap (RegistryCommand.mail sessionId) ++
        (sent.reverse.filterMap (Output.toRegistry sessionId)).filterMap
          (RegistryCommand.mail sessionId) ++
        (if (!s.system.live) = true then [.exited] else []) := by
    unfold afterThread
    dsimp only
    rw [sentBetween_eq hlog, filterMap_append, append_assoc]
    congr 1
    cases s.system.live with
    | true => simp
    | false => simp [Output.toRegistry, RegistryCommand.mail]
  rw [hmail]
  simp only [Slot.onto, Bool.not_not, hkv]
  rfl

end Threads

/-! ### The commands of the daemon -/

section Commands

variable {r : Registry} {command : RegistryCommand} {queue : List RegistryCommand}

theorem view_of_queue (hqueue : r.queue = command :: queue) (id : ℕ) :
    r.view id =
      { ({ r with queue := queue } : Registry).view id with
        mail := (command.mail id).toList ++ queue.filterMap (RegistryCommand.mail id) } := by
  unfold view
  rw [hqueue, filterMap_cons]
  cases command.mail id <;> rfl

theorem view_of_queue_of_none (hqueue : r.queue = command :: queue) {id : ℕ}
    (hmail : command.mail id = none) : r.view id = ({ r with queue := queue } : Registry).view id := by
  rw [view_of_queue hqueue, hmail]
  rfl

variable (env : RegistryEnv)

theorem view_handleCreateSession (session : NewSession) (id : ℕ)
    (r : Registry) :
    (r.handleCreateSession env session).view id =
      if id = r.nextSessionId then
        { r.view id with
          live := true, active := true, indexed := true
          record := (r.view id).record || env.writeOk, gone := false }
      else r.view id := by
  unfold handleCreateSession
  dsimp only
  rw [view_broadcast_of_not_decides rfl]
  have hwrite : ∀ s : Slot, ∀ v : Lifecycle,
      (s.setStore (s.store.writeSessionRetry env.writeOk (session.record env.now))).onto v =
        { s.onto v with record := s.store.record.isSome || env.writeOk } := by
    intro s v
    unfold Store.writeSessionRetry
    cases env.writeOk <;> simp [Slot.onto, Slot.setStore, Slot.store]
  by_cases hid : id = r.nextSessionId
  · rw [view_broadcast_of_decides (by simp [Announcement.decides, hid]), view_addChild,
      view_spawnSession, view_modifySlot, if_pos hid, if_pos hid, if_pos hid, hwrite,
      show (Announcement.sessionCreated r.nextSessionId == .sessionDeleted id) = false by simp]
    rfl
  · rw [view_broadcast_of_not_decides (by simpa [Announcement.decides] using Ne.symm hid),
      view_addChild, view_spawnSession, view_modifySlot, if_neg hid, if_neg hid, if_neg hid]
    rfl

/-- An attach only starts the thread of a session that the daemon neither runs nor deletes. -/
theorem view_handleAttachSession (sessionId id : ℕ) (r : Registry) :
    (r.handleAttachSession env sessionId).1.view id = r.view id ∨
      id = sessionId ∧
        (r.view id).step .attach = some ((r.handleAttachSession env sessionId).1.view id) := by
  unfold handleAttachSession
  split_ifs with hmarked hread
  · exact Or.inl rfl
  · cases hactive : r.activeSessions[sessionId]? with
    | some channel => exact Or.inl rfl
    | none =>
      cases hrecord : (r.slot sessionId).store.record with
      | none => exact Or.inl rfl
      | some record =>
        dsimp only
        rw [view_spawnSession]
        by_cases hid : id = sessionId
        · subst hid
          refine Or.inr ⟨rfl, ?_⟩
          have hm : (r.view id).marked = false := Bool.eq_false_iff.2 hmarked
          have ha : (r.view id).active = false := by
            change r.activeSessions[id]?.isSome = false
            rw [hactive]
            rfl
          have hr : (r.view id).record = true := by
            change (r.slot id).store.record.isSome = true
            rw [hrecord]
            rfl
          simp [Lifecycle.step, hm, ha, hr]
        · rw [if_neg hid]
          exact Or.inl rfl
  · cases r.activeSessions[sessionId]? <;> exact Or.inl rfl

theorem view_grant (sessionId clientId id : ℕ) (answer : Registry × Except AttachError ℕ) :
    (grant sessionId clientId answer).view id = answer.1.view id := by
  unfold grant
  split <;> rfl

theorem view_cancelChildrenOf (parentId id : ℕ) (r : Registry) :
    (r.cancelChildrenOf parentId).view id = r.view id := by
  unfold cancelChildrenOf
  split_ifs
  · rfl
  · exact view_foldl _ (fun r childId => view_sendSession _) _ r

variable (sessionId id : ℕ)

/-- The end of a session thread: its channel is dropped, and a deletion that waited starts. -/
theorem view_handleSessionExited (r : Registry) :
    (r.handleSessionExited sessionId).view id =
      if id = sessionId then
        { r.view id with
          active := false
          finalizer := if (r.view id).marked then some .deleteSession else (r.view id).finalizer }
      else r.view id := by
  unfold handleSessionExited
  dsimp only
  set ended : Registry := handleBroadcastSessionStatus sessionId .sleeping _ with hended
  have hview : ∀ id, ended.view id =
      if id = sessionId then { r.view id with active := false } else r.view id := by
    intro id
    rw [hended, view_handleBroadcastSessionStatus, view_foldl]
    · exact view_deactivate
    · exact fun r childId => view_cancelAndShutdownChild childId
  have hmarked : ended.deletedSessions.contains sessionId = (r.view sessionId).marked := by
    have hm := congrArg Lifecycle.marked (hview sessionId)
    rw [if_pos rfl] at hm
    exact hm
  rw [hmarked]
  by_cases hid : id = sessionId
  · subst hid
    by_cases hm : (r.view id).marked = true
    · rw [if_pos hm, view_insertFinalizer, hview, if_pos rfl, if_pos rfl, if_pos rfl, if_pos hm]
    · rw [if_neg hm, hview, if_pos rfl, if_pos rfl, if_neg hm]
  · rw [if_neg hid]
    split_ifs
    · rw [view_insertFinalizer, hview, if_neg hid, if_neg hid]
    · rw [hview, if_neg hid]

theorem view_handleUpdateMetadata (metadata : SessionMetadata) (r : Registry) :
    (r.handleUpdateMetadata sessionId metadata).view id =
      if id = sessionId then
        { r.view id with indexed := (r.view id).indexed || !(r.view id).marked }
      else r.view id := by
  unfold handleUpdateMetadata
  by_cases hid : id = sessionId
  · subst hid
    by_cases hmarked : r.deletedSessions.contains id = true
    · have hm : (r.view id).marked = true := hmarked
      rw [if_pos hmarked, if_pos rfl, hm, Bool.not_true, Bool.or_false]
    · have hm : (r.view id).marked = false := Bool.eq_false_iff.2 hmarked
      rw [if_neg hmarked, if_pos rfl, hm]
      unfold view
      dsimp only
      rw [Std.ExtTreeMap.get_insert, if_pos rfl, Bool.not_false, Bool.or_true]
      rfl
  · rw [if_neg hid]
    split_ifs
    · rfl
    · unfold view
      dsimp only
      rw [Std.ExtTreeMap.get_insert, if_neg hid]
      rfl

theorem view_handleSessionDeleteFinalized (r : Registry) :
    (r.handleSessionDeleteFinalized sessionId).view id =
      if id = sessionId then { r.view id with marked := false } else r.view id := by
  unfold handleSessionDeleteFinalized view
  dsimp only
  rw [Std.ExtTreeSet.contains_erase_eq]
  by_cases hid : id = sessionId
  · rw [if_pos hid, decide_eq_true hid]
    rfl
  · rw [if_neg hid, decide_eq_false hid]
    rfl

theorem leads_handleDeleteSession {label : RegistryLabel} {base : Registry}
    (hlabel : label = .handle env) (sessionId id : ℕ) (r : Registry) :
    base.Leads id label (r.view id) ((r.handleDeleteSession env sessionId).1.view id) := by
  have hinner : ∀ (childId : ℕ) (r : Registry), base.Leads id label (r.view id)
      (((r.removeChildFromAllParents childId).deleteSessionInner env childId).1.view id) := by
    intro childId r
    change base.Leads id label ((r.removeChildFromAllParents childId).view id) _
    by_cases hid : id = childId
    · subst hid
      obtain ⟨event, hevent, hstep⟩ :=
        view_deleteSessionInner (r.removeChildFromAllParents id) env id
      refine .single ⟨event, ?_, hstep⟩
      obtain rfl | rfl | rfl := hevent
      · exact ⟨env, hlabel, rfl⟩
      · exact ⟨env, hlabel, rfl, rfl⟩
      · exact ⟨env, hlabel, rfl, rfl⟩
    · rw [view_deleteSessionInner_of_ne env hid]
      exact .refl
  have hfold : ∀ (childIds : List ℕ) (r : Registry), base.Leads id label (r.view id)
      ((childIds.foldl (fun r childId =>
        ((r.removeChildFromAllParents childId).deleteSessionInner env childId).1) r).view id) := by
    intro childIds
    induction childIds with
    | nil => exact fun r => .refl
    | cons childId childIds ih => exact fun r => (hinner childId r).trans (ih _)
  exact (hfold _ { r with children := r.children.erase sessionId }).trans (hinner sessionId _)

/-- A handled command is, for each session, a sequence of events. -/
theorem leads_handleCommand (h : r.Invariant) (hqueue : r.queue = command :: queue)
    (env : RegistryEnv) (id : ℕ) :
    r.Leads id (.handle env) (r.view id)
      ((({ r with queue := queue } : Registry).handleCommand env command).view id) := by
  cases command with
  | createSession session =>
    rw [view_of_queue_of_none hqueue rfl]
    change r.Leads id _ _ ((handleCreateSession env session _).view id)
    rw [view_handleCreateSession]
    by_cases hid : id = r.nextSessionId
    · rw [if_pos hid]
      refine .single ⟨.create env.writeOk,
        ⟨(view_of_queue_of_none hqueue rfl).symm, by simp [creates, hqueue], hid, env, rfl, rfl⟩, ?_⟩
      have hidle := (h.fresh id hid.ge).1
      rw [view_of_queue_of_none hqueue rfl] at hidle
      simp only [Lifecycle.step, hidle, if_true]
    · rw [if_neg hid]
      exact .refl
  | attachSession sessionId clientId =>
    rw [view_of_queue_of_none hqueue rfl]
    change r.Leads id _ _ ((grant sessionId clientId (handleAttachSession env sessionId _)).view id)
    rw [view_grant]
    obtain heq | ⟨-, hstep⟩ :=
      view_handleAttachSession env sessionId id { r with queue := queue }
    · rw [heq]
      exact .refl
    · exact .single ⟨.attach, ⟨env, rfl⟩, hstep⟩
  | cancelRequest sessionId requestId =>
    rw [view_of_queue_of_none hqueue rfl]
    change r.Leads id _ _ ((handleCancelRequest sessionId requestId _).view id)
    rw [handleCancelRequest, view_cancelChildrenOf, view_sendSession]
    exact .refl
  | deleteSession sessionId =>
    rw [view_of_queue_of_none hqueue rfl]
    exact leads_handleDeleteSession env rfl sessionId id _
  | updateMetadata sessionId metadata =>
    change r.Leads id _ _ ((handleUpdateMetadata sessionId metadata _).view id)
    rw [view_handleUpdateMetadata]
    by_cases hid : id = sessionId
    · refine .single ⟨.receive, ⟨env, rfl⟩, ?_⟩
      rw [if_pos hid, view_of_queue hqueue, RegistryCommand.mail, if_pos hid.symm]
      rfl
    · rw [if_neg hid, view_of_queue_of_none hqueue (if_neg (Ne.symm hid))]
      exact .refl
  | broadcastSessionStatus sessionId status =>
    change r.Leads id _ _ ((handleBroadcastSessionStatus sessionId status _).view id)
    rw [view_handleBroadcastSessionStatus]
    by_cases hid : id = sessionId
    · refine .single ⟨.receive, ⟨env, rfl⟩, ?_⟩
      rw [view_of_queue hqueue, RegistryCommand.mail, if_pos hid.symm]
      rfl
    · rw [view_of_queue_of_none hqueue (if_neg (Ne.symm hid))]
      exact .refl
  | sessionExited sessionId =>
    change r.Leads id _ _ ((handleSessionExited sessionId _).view id)
    rw [view_handleSessionExited]
    by_cases hid : id = sessionId
    · refine .single ⟨.receive, ⟨env, rfl⟩, ?_⟩
      rw [if_pos hid, view_of_queue hqueue, RegistryCommand.mail, if_pos hid.symm]
      rfl
    · rw [if_neg hid, view_of_queue_of_none hqueue (if_neg (Ne.symm hid))]
      exact .refl
  | sessionDeleteFinalized sessionId =>
    change r.Leads id _ _ ((handleSessionDeleteFinalized sessionId _).view id)
    rw [view_handleSessionDeleteFinalized]
    by_cases hid : id = sessionId
    · refine .single ⟨.receive, ⟨env, rfl⟩, ?_⟩
      rw [if_pos hid, view_of_queue hqueue, RegistryCommand.mail, if_pos hid.symm]
      rfl
    · rw [if_neg hid, view_of_queue_of_none hqueue (if_neg (Ne.symm hid))]
      exact .refl

end Commands

/-! ### What handling a command keeps -/

/-- The slots stay sound; the next id and the tool threads stay as they are. -/
structure Keeps (r r' : Registry) : Prop where
  slots : (∀ id, (r.slot id).Invariant) → ∀ id, (r'.slot id).Invariant
  next : r'.nextSessionId = r.nextSessionId
  tools : r'.toolThreads = r.toolThreads

namespace Keeps

variable {r r' r'' : Registry}

theorem refl (r : Registry) : Keeps r r := ⟨id, rfl, rfl⟩

theorem trans (h : Keeps r r') (h' : Keeps r' r'') : Keeps r r'' :=
  ⟨fun hr => h'.slots (h.slots hr), h'.next.trans h.next, h'.tools.trans h.tools⟩

theorem of_eq (hslots : r'.slots = r.slots) (hnext : r'.nextSessionId = r.nextSessionId)
    (htools : r'.toolThreads = r.toolThreads) : Keeps r r' := by
  refine ⟨fun h id => ?_, hnext, htools⟩
  have hslot : r'.slot id = r.slot id := by
    unfold slot
    rw [hslots]
  rw [hslot]
  exact h id

theorem modifySlot (r : Registry) (sessionId : ℕ) {f : Slot → Slot}
    (hf : ∀ s, s.Invariant → (f s).Invariant) : Keeps r (r.modifySlot sessionId f) := by
  refine ⟨fun h id => ?_, rfl, rfl⟩
  rw [slot_modifySlot]
  by_cases hid : id = sessionId
  · rw [if_pos hid]
    exact hf _ (h id)
  · rw [if_neg hid]
    exact h id

theorem sendSession (setup : AgentSetup) (r : Registry) (sessionId : ℕ) {command : SessionCommand}
    (hcommand : command.isExternal = true) : Keeps r (r.sendSession sessionId command) := by
  unfold Registry.sendSession
  split
  · exact modifySlot r sessionId fun s hs => hs.deliver setup _ hcommand
  · exact refl r

theorem foldl {α : Type*} (body : Registry → α → Registry) (h : ∀ r a, Keeps r (body r a))
    (as : List α) (r : Registry) : Keeps r (as.foldl body r) := by
  induction as generalizing r with
  | nil => exact refl r
  | cons a as ih => exact (h r a).trans (ih _)

variable (env : RegistryEnv)

theorem spawnSession (sessionId : ℕ) (record : SessionRecord)
    (metadata : SessionMetadata) (r : Registry) :
    Keeps r (r.spawnSession env sessionId record metadata) := by
  refine (modifySlot r sessionId fun s _ => Slot.Invariant.spawn env.boot record s).trans ?_
  exact of_eq rfl rfl rfl

theorem clearSessionTombstone (sessionId : ℕ) (r : Registry) :
    Keeps r (r.clearSessionTombstone env sessionId) := by
  unfold Registry.clearSessionTombstone
  split_ifs
  · exact of_eq rfl rfl rfl
  · exact refl r

theorem deleteRows (sessionId : ℕ) (r : Registry) :
    Keeps r (r.modifySlot sessionId Slot.deleteRows) :=
  modifySlot r sessionId fun _ hs => hs.deleteRows

theorem deleteSessionInner (setup : AgentSetup) (env : RegistryEnv) (sessionId : ℕ)
    (r : Registry) : Keeps r (r.deleteSessionInner env sessionId).1 := by
  have hforget : ∀ r : Registry, Keeps r (r.forgetSession sessionId) :=
    fun r => of_eq rfl rfl rfl
  unfold Registry.deleteSessionInner
  split
  · next channel hactive =>
    dsimp only
    split_ifs
    · unfold deleteFinishedSession
      dsimp only
      split_ifs
      · refine Keeps.trans ?_ (((deleteRows sessionId _).trans
          (clearSessionTombstone env sessionId _)).trans (hforget _))
        exact of_eq rfl rfl rfl
      · exact of_eq rfl rfl rfl
    · refine Keeps.trans ?_ (hforget _)
      refine Keeps.trans ?_ (modifySlot _ sessionId fun s hs =>
        (hs.deliver setup channel rfl).deliver setup channel rfl)
      unfold markSessionDeleted
      split_ifs <;> exact of_eq rfl rfl rfl
  · split_ifs
    · dsimp only
      refine (deleteRows sessionId r).trans (Keeps.trans ?_ (hforget _))
      split_ifs
      · exact refl _
      · exact clearSessionTombstone env sessionId _
    · exact refl r

theorem handleBroadcastSessionStatus (sessionId : ℕ) (status : SessionStatus) (r : Registry) :
    Keeps r (r.handleBroadcastSessionStatus sessionId status) := by
  unfold Registry.handleBroadcastSessionStatus
  split
  · exact of_eq rfl rfl rfl
  · exact refl r

theorem handleAttachSession (sessionId : ℕ) (r : Registry) :
    Keeps r (r.handleAttachSession env sessionId).1 := by
  unfold Registry.handleAttachSession
  split_ifs
  · exact refl r
  · split
    · exact refl r
    · split
      · exact spawnSession env sessionId _ _ r
      · exact refl r
  · split <;> exact refl r

theorem handleSessionExited (setup : AgentSetup) (sessionId : ℕ) (r : Registry) :
    Keeps r (r.handleSessionExited sessionId) := by
  unfold Registry.handleSessionExited
  dsimp only
  set ended : Registry := Registry.handleBroadcastSessionStatus sessionId .sleeping _ with hended
  have hkeeps : Keeps r ended := by
    refine Keeps.trans ?_ (handleBroadcastSessionStatus sessionId .sleeping _)
    refine Keeps.trans ?_ (foldl _ (fun r childId => ?_) _ _)
    · exact of_eq rfl rfl rfl
    · refine Keeps.trans ?_ ((sendSession setup _ childId rfl).trans
        (sendSession setup _ childId rfl))
      exact of_eq rfl rfl rfl
  split_ifs
  · exact hkeeps.trans (of_eq rfl rfl rfl)
  · exact hkeeps

/-- Every command other than a creation keeps the next id. -/
theorem handleCommand (setup : AgentSetup) (env : RegistryEnv) {command : RegistryCommand}
    (hcommand : ∀ session, command ≠ .createSession session) (r : Registry) :
    Keeps r (r.handleCommand env command) := by
  cases command with
  | createSession session => exact absurd rfl (hcommand session)
  | attachSession sessionId clientId =>
    refine (handleAttachSession env sessionId r).trans ?_
    unfold Registry.handleCommand grant
    dsimp only
    split
    · exact of_eq rfl rfl rfl
    · exact refl _
  | cancelRequest sessionId requestId =>
    have hsend : Keeps r (r.sendSession sessionId (.cancel requestId)) :=
      sendSession setup r sessionId rfl
    refine hsend.trans ?_
    unfold Registry.handleCommand handleCancelRequest cancelChildrenOf
    dsimp only
    split_ifs
    · exact refl _
    · exact foldl _ (fun r childId => sendSession setup r childId rfl) _ _
  | deleteSession sessionId =>
    have hinner : ∀ (r : Registry) (childId : ℕ),
        Keeps r ((r.removeChildFromAllParents childId).deleteSessionInner env childId).1 := by
      intro r childId
      refine Keeps.trans ?_ (deleteSessionInner setup env childId _)
      exact of_eq rfl rfl rfl
    refine Keeps.trans ?_ (hinner _ sessionId)
    refine Keeps.trans ?_ (foldl _ hinner _ _)
    exact of_eq rfl rfl rfl
  | updateMetadata sessionId metadata =>
    unfold Registry.handleCommand handleUpdateMetadata
    dsimp only
    split_ifs
    · exact refl r
    · exact of_eq rfl rfl rfl
  | broadcastSessionStatus sessionId status => exact handleBroadcastSessionStatus sessionId status r
  | sessionExited sessionId => exact handleSessionExited setup sessionId r
  | sessionDeleteFinalized sessionId => exact of_eq rfl rfl rfl

end Keeps

/-- A creation gives out the next id. -/
theorem handleCreateSession_keeps (env : RegistryEnv) (session : NewSession) (r : Registry) :
    Keeps { r with nextSessionId := r.nextSessionId + 1 } (r.handleCreateSession env session) := by
  have hadd : ∀ r₁ : Registry, Keeps r₁
      (((r₁.addChild session.parentSessionId r.nextSessionId).broadcast
        (.sessionCreated r.nextSessionId)).broadcast
          (.sessionStatusChanged r.nextSessionId .inactive)) := by
    intro r₁
    unfold addChild
    split <;> exact .of_eq rfl rfl rfl
  unfold handleCreateSession
  dsimp only
  refine Keeps.trans ?_ (hadd _)
  refine Keeps.trans ?_ (.spawnSession env _ _ _ _)
  exact .modifySlot _ _ fun s hs => hs.setStore _

/-! ### All steps -/

section Steps

variable {setup : AgentSetup} {label : RegistryLabel} {r r' : Registry} {sessionId : ℕ}

theorem step_handle_cases {env : RegistryEnv} (hstep : r.step setup (.handle env) = some r') :
    ∃ command queue, r.queue = command :: queue ∧
      r' = ({ r with queue := queue } : Registry).handleCommand env command := by
  cases hqueue : r.queue with
  | nil =>
    simp only [step, hqueue] at hstep
    cases hstep
  | cons command queue =>
    simp only [step, hqueue] at hstep
    exact ⟨command, queue, rfl, (some.inj hstep).symm⟩

theorem threadStep_cases {slabel : SystemLabel}
    (hstep : r.threadStep setup sessionId slabel = some r') :
    slabel.isRestart = false ∧
      (slabel.isProcess = true → (r.slot sessionId).starting = none) ∧
      ∃ system, (r.slot sessionId).system.step setup slabel = some system ∧
        r' = r.afterThread sessionId { r.slot sessionId with system := system } := by
  cases slabel with
  | restart boot => cases hstep
  | process env =>
    cases hstarting : (r.slot sessionId).starting with
    | some args =>
      simp only [threadStep, hstarting] at hstep
      cases hstep
    | none =>
      simp only [threadStep, hstarting] at hstep
      obtain ⟨system, hsystem, rfl⟩ := map_eq_some_iff.1 hstep
      exact ⟨rfl, fun _ => rfl, system, hsystem, by simp [hstarting]⟩
  | send command | work label =>
    obtain ⟨system, hsystem, rfl⟩ := map_eq_some_iff.1 hstep
    exact ⟨rfl, fun h => (by cases h), system, hsystem, rfl⟩

theorem leads_threadStep (h : r.Invariant) {slabel : SystemLabel}
    (hstep : r.threadStep setup sessionId slabel = some r') (id : ℕ) :
    r.Leads id (.session sessionId slabel) (r.view id) (r'.view id) := by
  obtain ⟨hrestart, -, system, hsystem, rfl⟩ := threadStep_cases hstep
  by_cases hid : id = sessionId
  · subst hid
    obtain ⟨hlive, hrecord, sent, hsent, hlog⟩ :=
      System.step_serves (h.slots id).system hrestart hsystem
    obtain ⟨mail, exits, record, content, hwork⟩ :=
      view_afterThread (s := { r.slot id with system := system }) hlive hrecord rfl hsent hlog
    exact .single ⟨.work mail exits record content, Or.inr ⟨slabel, rfl⟩, hwork⟩
  · rw [view_afterThread_of_ne _ hid]
    exact .refl

theorem leads_start (h : r.Invariant) {s : Slot}
    (hstart : (r.slot sessionId).start = some s) (id : ℕ) :
    r.Leads id (.start sessionId) (r.view id) ((r.afterThread sessionId s).view id) := by
  by_cases hid : id = sessionId
  · subst hid
    obtain ⟨-, hlive, hlive', hkv, hstore, sent, hsent, hlog⟩ := (h.slots id).start hstart
    obtain ⟨mail, exits, record, content, hwork⟩ :=
      view_afterThread hlive (fun hrecord => by rw [hstore, hrecord]) hkv hsent
        (by rw [hlive', if_pos rfl, hlog])
    exact .single ⟨.work mail exits record content, Or.inl rfl, hwork⟩
  · rw [view_afterThread_of_ne _ hid]
    exact .refl

theorem view_eraseFinalizer (r : Registry) (sessionId id : ℕ) :
    ({ r with finalizers := r.finalizers.erase sessionId } : Registry).view id =
      if id = sessionId then { r.view id with finalizer := none } else r.view id := by
  unfold view
  dsimp only
  rw [Std.ExtTreeMap.get_erase]
  by_cases hid : id = sessionId
  · rw [if_pos hid, if_pos hid]
    rfl
  · rw [if_neg hid, if_neg hid]
    rfl

theorem view_report (r : Registry) (sessionId id : ℕ) :
    ({ r with queue := r.queue ++ [.sessionDeleteFinalized sessionId] } : Registry).view id =
      if id = sessionId then { r.view id with mail := (r.view id).mail ++ [.finalized] }
      else r.view id := by
  have hview : ({ r with queue := r.queue ++ [.sessionDeleteFinalized sessionId] } :
      Registry).view id =
      { r.view id with
        mail := (r.queue ++ [RegistryCommand.sessionDeleteFinalized sessionId]).filterMap
          (RegistryCommand.mail id) } := rfl
  rw [hview, filterMap_append]
  by_cases hid : id = sessionId
  · have hmail : [RegistryCommand.sessionDeleteFinalized sessionId].filterMap
        (RegistryCommand.mail id) = [.finalized] := by
      simp [RegistryCommand.mail, hid]
    rw [if_pos hid, hmail]
    rfl
  · have hmail : [RegistryCommand.sessionDeleteFinalized sessionId].filterMap
        (RegistryCommand.mail id) = [] := by
      simp [RegistryCommand.mail, Ne.symm hid]
    rw [if_neg hid, hmail, append_nil]
    rfl

theorem view_finalizeSessionDelete {ok : Bool}
    (hstep : r.finalizeSessionDelete sessionId ok = some r') (id : ℕ) :
    (id = sessionId → (r.view id).finalize ok = some (r'.view id)) ∧
      (id ≠ sessionId → r'.view id = r.view id) := by
  obtain ⟨phase, hphase, rfl⟩ := map_eq_some_iff.1 hstep
  have hview : id = sessionId → (r.view id).finalizer = some phase := by
    rintro rfl
    exact hphase
  unfold Lifecycle.finalize
  cases phase with
  | deleteSession =>
    cases ok with
    | true =>
      have hdelete := view_insertFinalizer (r.modifySlot sessionId Slot.deleteRows) sessionId id
        .clearTombstone
      rw [view_deleteRows] at hdelete
      refine ⟨fun hid => ?_, fun hid => ?_⟩
      · rw [if_pos hid, if_pos hid] at hdelete
        rw [hview hid]
        exact congrArg some hdelete.symm
      · rw [if_neg hid, if_neg hid] at hdelete
        exact hdelete
    | false =>
      have herase := view_eraseFinalizer r sessionId id
      refine ⟨fun hid => ?_, fun hid => ?_⟩
      · rw [if_pos hid] at herase
        rw [hview hid]
        exact congrArg some herase.symm
      · rw [if_neg hid] at herase
        exact herase
  | clearTombstone =>
    have hclear : ({ r with
        tombstones := if ok then r.tombstones.erase sessionId else r.tombstones } :
        Registry).view id =
        if id = sessionId then { r.view id with tombstone := (r.view id).tombstone && !ok }
        else r.view id := by
      cases ok with
      | true =>
        refine Eq.trans view_eraseTombstone ?_
        simp
      | false => simp
    have hinsert := view_insertFinalizer { r with
        tombstones := if ok then r.tombstones.erase sessionId else r.tombstones } sessionId id
      .report
    rw [hclear] at hinsert
    refine ⟨fun hid => ?_, fun hid => ?_⟩
    · rw [if_pos hid, if_pos hid] at hinsert
      rw [hview hid]
      exact congrArg some hinsert.symm
    · rw [if_neg hid, if_neg hid] at hinsert
      exact hinsert
  | report =>
    have herase := view_eraseFinalizer
      { r with queue := r.queue ++ [.sessionDeleteFinalized sessionId] } sessionId id
    rw [view_report] at herase
    refine ⟨fun hid => ?_, fun hid => ?_⟩
    · rw [if_pos hid, if_pos hid] at herase
      rw [hview hid]
      exact congrArg some herase.symm
    · rw [if_neg hid, if_neg hid] at herase
      exact herase

theorem leads_finalize {ok : Bool}
    (hstep : r.finalizeSessionDelete sessionId ok = some r') (id : ℕ) :
    r.Leads id (.finalize sessionId ok) (r.view id) (r'.view id) := by
  obtain ⟨hself, hother⟩ := view_finalizeSessionDelete hstep id
  by_cases hid : id = sessionId
  · exact .single ⟨.finalize ok, by rw [hid]; rfl, hself hid⟩
  · rw [hother hid]
    exact .refl

theorem slot_startUp (r : Registry) (env : StartEnv) (id : ℕ) :
    (startUp env r.slots r.tombstones r.log).slot id =
      if r.tombstones[id]?.isSome && env.sweeps id then (r.slot id).crash.deleteRows
      else (r.slot id).crash := by
  unfold slot startUp
  dsimp only
  rw [Std.ExtTreeMap.getElem?_map]
  cases r.slots[id]? with
  | none =>
    simp only [map_none, getD_none]
    split_ifs <;> rfl
  | some s => rfl

theorem sessionMetadata_startUp (r : Registry) (env : StartEnv) (id : ℕ) :
    (startUp env r.slots r.tombstones r.log).sessionMetadata[id]?.isSome =
      (env.sessionsOk &&
        ((startUp env r.slots r.tombstones r.log).slot id).store.record.isSome) := by
  cases hok : env.sessionsOk with
  | false => simp [startUp, hok]
  | true =>
    simp only [startUp, hok, if_true, Bool.true_and, slot]
    rw [Std.ExtTreeMap.getElem?_map, Std.ExtTreeMap.getElem?_filterMap']
    cases (r.slots.map fun sessionId s =>
      if r.tombstones[sessionId]?.isSome && env.sweeps sessionId then s.crash.deleteRows
      else s.crash)[id]? with
    | none => rfl
    | some s =>
      simp only [bind_some, isSome_map, getD_some]

theorem view_startUp (env : StartEnv) (id : ℕ) :
    (startUp env r.slots r.tombstones r.log).view id =
      (r.view id).reboot (env.sweeps id) (env.clearOk id) env.sessionsOk := by
  have htombstone : (startUp env r.slots r.tombstones r.log).tombstones[id]?.isSome =
      (r.tombstones[id]?.isSome && !(env.sweeps id && env.clearOk id)) := by
    unfold startUp
    dsimp only
    rw [Std.ExtTreeMap.getElem?_filter']
    cases r.tombstones[id]? with
    | none => rfl
    | some u => cases !(env.sweeps id && env.clearOk id) <;> rfl
  have hactive : (startUp env r.slots r.tombstones r.log).activeSessions[id]?.isSome = false := by
    simp [startUp]
  have hmarked : (startUp env r.slots r.tombstones r.log).deletedSessions.contains id = false := by
    simp [startUp]
  have hfinalizer : (startUp env r.slots r.tombstones r.log).finalizers[id]? = none := by
    simp [startUp]
  have hmail : (startUp env r.slots r.tombstones r.log).queue.filterMap (RegistryCommand.mail id) =
      [] := rfl
  have hgone : (startUp env r.slots r.tombstones r.log).announcedDeleted id =
      r.announcedDeleted id := rfl
  have hslot := slot_startUp r env id
  unfold view
  rw [htombstone, sessionMetadata_startUp, hactive, hmarked, hfinalizer, hmail, hgone, hslot]
  unfold Lifecycle.reboot
  cases hsweep : r.tombstones[id]?.isSome && env.sweeps id with
  | true =>
    simp only [Slot.onto, hsweep, if_true, Lifecycle.deleteRows]
    simp [Slot.deleteRows, Slot.setStore, Slot.store, Slot.crash, System.init]
  | false =>
    simp only [Slot.onto, hsweep, Bool.false_eq_true, if_false]
    rfl

theorem leads_reboot (env : StartEnv) (id : ℕ) :
    r.Leads id (.reboot env) (r.view id) ((startUp env r.slots r.tombstones r.log).view id) := by
  refine .single ⟨.reboot (env.sweeps id) (env.clearOk id) env.sessionsOk,
    ⟨rfl, env, rfl, rfl, rfl, rfl⟩, ?_⟩
  rw [view_startUp]
  rfl

/-- A step of the registry is, for each session, a sequence of permitted events. -/
theorem step_view (h : r.Invariant) (hstep : r.step setup label = some r') (id : ℕ) :
    r.Leads id label (r.view id) (r'.view id) := by
  cases label with
  | request command =>
    simp only [step, ite_none_right_eq_some] at hstep
    obtain ⟨hrequest, heq⟩ := hstep
    cases heq
    have hview : ({ r with queue := r.queue ++ [command] } : Registry).view id = r.view id := by
      unfold view
      dsimp only
      rw [filterMap_append]
      cases command with
      | createSession | attachSession | cancelRequest | deleteSession =>
        simp only [filterMap_cons, RegistryCommand.mail, filterMap_nil, append_nil]
        rfl
      | updateMetadata | broadcastSessionStatus | sessionExited | sessionDeleteFinalized =>
        cases hrequest
    rw [hview]
    exact .refl
  | handle env =>
    obtain ⟨command, queue, hqueue, rfl⟩ := step_handle_cases hstep
    exact leads_handleCommand h hqueue env id
  | start sessionId =>
    obtain ⟨s, hstart, rfl⟩ := map_eq_some_iff.1 hstep
    exact leads_start h hstart id
  | session sessionId slabel => exact leads_threadStep h hstep id
  | startTool sessionId =>
    simp only [step, ite_none_right_eq_some] at hstep
    obtain rfl := some.inj hstep.2
    exact .refl
  | kvSet sessionId key value =>
    simp only [step, ite_none_right_eq_some] at hstep
    obtain rfl := some.inj hstep.2
    by_cases hid : id = sessionId
    · subst hid
      refine .single ⟨.kvWrite (!((r.slot id).kv.insert key value).isEmpty),
        ⟨rfl, Or.inl ⟨key, value, rfl⟩⟩, ?_⟩
      rw [view_modifySlot, if_pos rfl]
      rfl
    · rw [view_modifySlot, if_neg hid]
      exact .refl
  | kvDelete sessionId key =>
    simp only [step, ite_none_right_eq_some] at hstep
    obtain rfl := some.inj hstep.2
    by_cases hid : id = sessionId
    · subst hid
      refine .single ⟨.kvWrite (!((r.slot id).kv.erase key).isEmpty),
        ⟨rfl, Or.inr ⟨key, rfl, fun hkv => ?_⟩⟩, ?_⟩
      · rw [Bool.not_eq_true', Std.ExtTreeMap.isEmpty_eq_false_iff] at hkv
        change (!(r.slot id).kv.isEmpty) = true
        rw [Bool.not_eq_true', Std.ExtTreeMap.isEmpty_eq_false_iff]
        exact Std.ExtTreeMap.ne_empty_of_erase_ne_empty hkv
      · rw [view_modifySlot, if_pos rfl]
        rfl
    · rw [view_modifySlot, if_neg hid]
      exact .refl
  | endTool sessionId =>
    simp only [step, ite_none_right_eq_some] at hstep
    obtain rfl := some.inj hstep.2
    exact .refl
  | finalize sessionId ok => exact leads_finalize hstep id
  | reboot env =>
    cases hstep
    exact leads_reboot env id

theorem Leads.preserves {J : Lifecycle → Prop} {id : ℕ} {v v' : Lifecycle}
    (hleads : r.Leads id label v v')
    (hJ : ∀ v event v', J v → r.Permits id label v event → v.step event = some v' → J v')
    (hv : J v) : J v' := by
  induction hleads with
  | refl => exact hv
  | tail _ hstep ih =>
    obtain ⟨event, hpermits, hstep⟩ := hstep
    exact hJ _ event _ ih hpermits hstep

end Steps

end Registry

/-- Whether a start of the daemon, if the step is one, reads its sessions. -/
def RegistryLabel.readsSessions : RegistryLabel → Bool
  | .reboot env => env.sessionsOk
  | _ => true

namespace Registry

section Invariants

variable {setup : AgentSetup} {label : RegistryLabel} {r r' : Registry}

theorem nextSessionId_startUp {env : StartEnv} {last : ℕ}
    (h : (startUp env r.slots r.tombstones r.log).sessionMetadata.keys.max? = some last) :
    (startUp env r.slots r.tombstones r.log).nextSessionId = last + 1 := by
  simp only [startUp] at h ⊢
  rw [h]

theorem startUp_fresh {env : StartEnv} (henv : env.sessionsOk = true) {id : ℕ}
    (hid : (startUp env r.slots r.tombstones r.log).nextSessionId ≤ id) :
    ((startUp env r.slots r.tombstones r.log).view id).isIdle = true ∧
      ((startUp env r.slots r.tombstones r.log).view id).record = false := by
  refine ⟨by rw [view_startUp]; rfl, ?_⟩
  rw [Bool.eq_false_iff]
  intro hrecord
  have hindexed := sessionMetadata_startUp r env id
  rw [henv, Bool.true_and] at hindexed
  have hmem : id ∈ (startUp env r.slots r.tombstones r.log).sessionMetadata.keys := by
    rw [Std.ExtTreeMap.mem_keys, Std.ExtTreeMap.mem_iff_isSome_getElem?, hindexed]
    exact hrecord
  cases hmax : (startUp env r.slots r.tombstones r.log).sessionMetadata.keys.max? with
  | none =>
    rw [List.max?_eq_none_iff.1 hmax] at hmem
    exact absurd hmem not_mem_nil
  | some last =>
    have hle : id ≤ last := (List.max?_eq_some_iff.1 hmax).2 id hmem
    have hlt : last + 1 ≤ id := (nextSessionId_startUp hmax).ge.trans hid
    omega

/-- Every step keeps the slots sound. -/
theorem step_slots (h : r.Invariant) (hstep : r.step setup label = some r') :
    ∀ id, (r'.slot id).Invariant := by
  cases label with
  | request command =>
    simp only [step, ite_none_right_eq_some] at hstep
    obtain rfl := some.inj hstep.2
    exact h.slots
  | handle env =>
    obtain ⟨command, queue, hqueue, rfl⟩ := step_handle_cases hstep
    by_cases hcreate : ∃ session, command = .createSession session
    · obtain ⟨session, rfl⟩ := hcreate
      exact (handleCreateSession_keeps env session { r with queue := queue }).slots h.slots
    · exact (Keeps.handleCommand setup env (fun session hc => hcreate ⟨session, hc⟩)
        { r with queue := queue }).slots h.slots
  | start sessionId =>
    obtain ⟨s, hstart, rfl⟩ := map_eq_some_iff.1 hstep
    intro id
    rw [slot_afterThread]
    split_ifs
    · exact ((h.slots sessionId).start hstart).1
    · exact h.slots id
  | session sessionId slabel =>
    obtain ⟨-, hstarting, system, hsystem, rfl⟩ := threadStep_cases hstep
    intro id
    rw [slot_afterThread]
    split_ifs
    · refine ⟨System.step_invariant (h.slots sessionId).system hsystem, fun hs => ?_⟩
      -- Only its channel changes before a thread has started.
      obtain ⟨hlive, hworker, hactive⟩ := (h.slots sessionId).starting hs
      rcases System.step_cases hsystem with ⟨command, -, -, -, rfl⟩ | ⟨env, _, _, rfl, -⟩ |
        ⟨_, w, _, -, hw, -⟩ | ⟨boot, _, rfl, -⟩
      · exact ⟨hlive, hworker, hactive⟩
      · simp [hstarting rfl] at hs
      · simp [hworker] at hw
      · cases hstep
    · exact h.slots id
  | startTool sessionId =>
    simp only [step, ite_none_right_eq_some] at hstep
    obtain rfl := some.inj hstep.2
    exact h.slots
  | kvSet sessionId key value =>
    simp only [step, ite_none_right_eq_some] at hstep
    obtain rfl := some.inj hstep.2
    have hkeeps : Keeps r (r.modifySlot sessionId fun s => { s with kv := s.kv.insert key value }) :=
      .modifySlot r sessionId fun s hs => ⟨hs.system, hs.starting⟩
    exact hkeeps.slots h.slots
  | kvDelete sessionId key =>
    simp only [step, ite_none_right_eq_some] at hstep
    obtain rfl := some.inj hstep.2
    have hkeeps : Keeps r (r.modifySlot sessionId fun s => { s with kv := s.kv.erase key }) :=
      .modifySlot r sessionId fun s hs => ⟨hs.system, hs.starting⟩
    exact hkeeps.slots h.slots
  | endTool sessionId =>
    simp only [step, ite_none_right_eq_some] at hstep
    obtain rfl := some.inj hstep.2
    exact h.slots
  | finalize sessionId ok =>
    obtain ⟨phase, -, rfl⟩ := map_eq_some_iff.1 hstep
    cases phase with
    | deleteSession =>
      cases ok with
      | true => exact ((Keeps.deleteRows sessionId r).trans (.of_eq rfl rfl rfl)).slots h.slots
      | false => exact h.slots
    | clearTombstone | report => exact h.slots
  | reboot env =>
    cases hstep
    intro id
    rw [slot_startUp]
    split_ifs
    · exact (Slot.Invariant.crash _).deleteRows
    · exact .crash _

/-- Only a creation gives out an id, and only a start of the daemon takes one back. -/
theorem step_nextSessionId (hlabel : ∀ env, label ≠ .reboot env)
    (hstep : r.step setup label = some r') :
    r'.nextSessionId = if r.creates label then r.nextSessionId + 1 else r.nextSessionId := by
  cases label with
  | handle env =>
    obtain ⟨command, queue, hqueue, rfl⟩ := step_handle_cases hstep
    by_cases hcreate : ∃ session, command = .createSession session
    · obtain ⟨session, rfl⟩ := hcreate
      rw [if_pos (by simp [creates, hqueue])]
      exact (handleCreateSession_keeps env session { r with queue := queue }).next
    · have hcreates : r.creates (.handle env) = false := by
        cases command <;> simp_all [creates]
      rw [hcreates]
      exact (Keeps.handleCommand setup env (fun session hc => hcreate ⟨session, hc⟩)
        { r with queue := queue }).next
  | request command =>
    simp only [step, ite_none_right_eq_some] at hstep
    obtain rfl := some.inj hstep.2
    rfl
  | start sessionId =>
    obtain ⟨s, -, rfl⟩ := map_eq_some_iff.1 hstep
    rfl
  | session sessionId slabel =>
    obtain ⟨-, -, system, -, rfl⟩ := threadStep_cases hstep
    rfl
  | startTool | kvSet | kvDelete | endTool =>
    simp only [step, ite_none_right_eq_some] at hstep
    obtain rfl := some.inj hstep.2
    rfl
  | finalize sessionId ok =>
    obtain ⟨phase, -, rfl⟩ := map_eq_some_iff.1 hstep
    cases phase with
    | deleteSession => cases ok <;> rfl
    | clearTombstone | report => rfl
  | reboot env => exact absurd rfl (hlabel env)

theorem unused_of_step (hlabel : ∀ env, label ≠ .reboot env)
    (hstep : r.step setup label = some r') {id : ℕ} (hid : r'.nextSessionId ≤ id) :
    r.nextSessionId ≤ id ∧ ∀ v recordOk, ¬ r.Permits id label v (.create recordOk) := by
  have hnext := step_nextSessionId hlabel hstep
  refine ⟨by split_ifs at hnext <;> omega, fun v recordOk hcreate => ?_⟩
  obtain ⟨-, hcreates, rfl, -⟩ := hcreate
  rw [if_pos hcreates] at hnext
  omega

theorem step_invariant (h : r.Invariant) (hreads : label.readsSessions = true)
    (hstep : r.step setup label = some r') : r'.Invariant := by
  refine ⟨step_slots h hstep, fun id hid => ?_⟩
  by_cases hlabel : ∃ env, label = .reboot env
  · obtain ⟨env, rfl⟩ := hlabel
    cases hstep
    exact startUp_fresh hreads hid
  · obtain ⟨hid', hcreate⟩ := unused_of_step (fun env henv => hlabel ⟨env, henv⟩) hstep hid
    refine (step_view h hstep id).preserves (J := fun v => v.isIdle = true ∧ v.record = false) ?_
      (h.fresh id hid')
    rintro v event v' hv hpermits hstep'
    refine Lifecycle.unused_step hv.1 hv.2 (fun recordOk hevent => ?_) hstep'
    rw [hevent] at hpermits
    exact hcreate v recordOk hpermits

end Invariants

end Registry

end Choreo
