import Choreo.Daemon.Deletion

/-!
# Cancelling and deleting sub-sessions

Every session may have sub-sessions, which may have sub-sessions of their own; the index keeps the
parent of each session across restarts. Cancelling and deleting go by another list, the one that the
daemon keeps in memory for each parent (`children`): it is empty after a start, it is dropped when
the parent sleeps, and nothing follows it further down. So a cancel or a deletion reaches exactly
the descendants that the list of the session itself names, each of them once.
-/

namespace Choreo

open List Option

namespace Registry

open StepSystem

/-- The sub-sessions that the daemon lists for a session. -/
def childIds (parentId : ℕ) (r : Registry) : List ℕ := r.children[parentId]?.getD []

/-- The index says that a session is the parent of another. -/
def IsParentOf (r : Registry) (parentId childId : ℕ) : Prop :=
  r.sessionMetadata[childId]?.bind SessionMetadata.parentSessionId = some parentId

/-- A session is below another one, at any depth. -/
def Descends (r : Registry) : ℕ → ℕ → Prop := Relation.TransGen r.IsParentOf

/-- The session is still known: it runs or is in the index. -/
def knows (sessionId : ℕ) (r : Registry) : Bool :=
  r.activeSessions.contains sessionId || r.sessionMetadata.contains sessionId

/-- The thread of a session runs, and the daemon holds its channel. -/
def runs (sessionId : ℕ) (r : Registry) : Bool :=
  r.activeSessions[sessionId]?.any fun channel =>
    (r.slot sessionId).system.live && (r.slot sessionId).channel == channel

/-- The deletion of a session succeeds: its thread is not over yet, or its rows can be deleted. -/
def removable (env : RegistryEnv) (sessionId : ℕ) (r : Registry) : Bool :=
  env.deleteOk sessionId ||
    (r.activeSessions[sessionId]?.isSome && !r.threadFinished env sessionId)

/-- How often a session was announced as deleted. -/
def deletions (sessionId : ℕ) (r : Registry) : ℕ := r.log.count (.sessionDeleted sessionId)

/-- A cancel of a request of a session sends exactly one cancel to every descendant that runs. -/
def CancelReaches (sessionId requestId : ℕ) (r : Registry) : Prop :=
  ∀ id, r.Descends sessionId id → id ≠ sessionId → r.runs id = true →
    ((r.handleCancelRequest sessionId requestId).slot id).system.queue =
      (r.slot id).system.queue ++ [.cancel cancelAll]

/-- The deletion of a session deletes every descendant exactly once. -/
def DeleteReaches (env : RegistryEnv) (sessionId : ℕ) (r : Registry) : Prop :=
  ∀ id, r.Descends sessionId id → id ≠ sessionId →
    (r.handleDeleteSession env sessionId).1.sessionMetadata[id]? = none ∧
      (r.handleDeleteSession env sessionId).1.deletions id = r.deletions id + 1

/-- No session is listed twice under a parent, and only sessions that were created are listed. -/
structure ListsOnce (r : Registry) : Prop where
  nodup : ∀ parentId, (r.childIds parentId).Nodup
  created : ∀ parentId, ∀ id ∈ r.childIds parentId, id < r.nextSessionId

/-! ### The lists of sub-sessions -/

section Children

variable {setup : AgentSetup} {label : RegistryLabel} {r r' : Registry} {sessionId parentId id : ℕ}

theorem childIds_removeChildFromAllParents :
    (r.removeChildFromAllParents id).childIds parentId =
      (r.childIds parentId).filter (· ≠ id) := by
  unfold removeChildFromAllParents childIds
  dsimp only
  rw [Std.ExtTreeMap.getElem?_filter', Std.ExtTreeMap.getElem?_map]
  cases r.children[parentId]? with
  | none => rfl
  | some ids =>
    rw [map_some, getD_some]
    generalize ids.filter (· ≠ id) = rest
    cases rest <;> rfl

theorem children_sendSession (command : SessionCommand) :
    (r.sendSession sessionId command).children = r.children := by
  unfold sendSession
  split <;> rfl

theorem children_deleteSessionInner (env : RegistryEnv) :
    (r.deleteSessionInner env sessionId).1.children = r.children := by
  have hclear : ∀ r : Registry, (r.clearSessionTombstone env sessionId).children = r.children := by
    intro r
    unfold clearSessionTombstone
    split_ifs <;> rfl
  have hmark : ∀ r : Registry, (r.markSessionDeleted env sessionId).children = r.children := by
    intro r
    unfold markSessionDeleted
    split_ifs <;> rfl
  unfold deleteSessionInner
  split
  · dsimp only
    split_ifs
    · unfold deleteFinishedSession
      dsimp only
      split_ifs
      · exact hclear _
      · rfl
    · exact hmark _
  · split_ifs
    · dsimp only
      split_ifs
      · rfl
      · exact hclear _
    · rfl

/-- Lists of sub-sessions only get shorter. -/
def Prunes (r r' : Registry) : Prop :=
  ∀ parentId, (r'.childIds parentId).Sublist (r.childIds parentId)

namespace Prunes

theorem of_eq (h : r'.children = r.children) : Prunes r r' := by
  intro parentId
  unfold childIds
  rw [h]

theorem trans {r'' : Registry} (h : Prunes r r') (h' : Prunes r' r'') : Prunes r r'' :=
  fun parentId => (h' parentId).trans (h parentId)

theorem foldl {α : Type*} {body : Registry → α → Registry} (h : ∀ r a, Prunes r (body r a))
    (as : List α) (r : Registry) : Prunes r (as.foldl body r) := by
  induction as generalizing r with
  | nil => exact of_eq rfl
  | cons a as ih => exact (h r a).trans (ih _)

theorem removeChildFromAllParents (r : Registry) (id : ℕ) :
    Prunes r (r.removeChildFromAllParents id) := by
  intro parentId
  rw [childIds_removeChildFromAllParents]
  exact filter_sublist

theorem eraseChildren (r : Registry) (sessionId : ℕ) :
    Prunes r { r with children := r.children.erase sessionId } := by
  intro parentId
  unfold childIds
  dsimp only
  rw [Std.ExtTreeMap.get_erase]
  split_ifs
  · exact nil_sublist _
  · exact List.Sublist.refl _

theorem sendSession (r : Registry) (sessionId : ℕ) (command : SessionCommand) :
    Prunes r (r.sendSession sessionId command) :=
  of_eq (children_sendSession command)

variable (env : RegistryEnv)

theorem deleteSessionInner (sessionId : ℕ) (r : Registry) :
    Prunes r (r.deleteSessionInner env sessionId).1 :=
  of_eq (children_deleteSessionInner env)

theorem handleSessionExited (sessionId : ℕ) (r : Registry) :
    Prunes r (r.handleSessionExited sessionId) := by
  unfold Registry.handleSessionExited
  dsimp only
  set ended : Registry := handleBroadcastSessionStatus sessionId .sleeping _ with hended
  have hprunes : Prunes r ended := by
    have hstatus : ∀ r : Registry, Prunes r (r.handleBroadcastSessionStatus sessionId .sleeping) := by
      intro r
      unfold handleBroadcastSessionStatus
      split <;> exact of_eq rfl
    refine Prunes.trans ?_ (hstatus _)
    refine Prunes.trans ?_ (foldl (fun r childId => ?_) _ _)
    · exact (of_eq rfl).trans (eraseChildren _ sessionId)
    · exact (removeChildFromAllParents r childId).trans
        ((sendSession _ childId _).trans (sendSession _ childId _))
  split_ifs
  · exact hprunes.trans (of_eq rfl)
  · exact hprunes

theorem handleDeleteSession (sessionId : ℕ) (r : Registry) :
    Prunes r (r.handleDeleteSession env sessionId).1 := by
  have hinner : ∀ (r : Registry) (id : ℕ),
      Prunes r ((r.removeChildFromAllParents id).deleteSessionInner env id).1 :=
    fun r id => (removeChildFromAllParents r id).trans (deleteSessionInner env id _)
  exact (eraseChildren r sessionId).trans ((foldl hinner _ _).trans (hinner _ sessionId))

theorem handleCommand {command : RegistryCommand}
    (hcommand : ∀ session, command ≠ .createSession session) (r : Registry) :
    Prunes r (r.handleCommand env command) := by
  cases command with
  | createSession session => exact absurd rfl (hcommand session)
  | attachSession sessionId clientId =>
    have hattach : (r.handleAttachSession env sessionId).1.children = r.children := by
      unfold handleAttachSession
      split_ifs
      · rfl
      · split
        · rfl
        · split <;> rfl
      · split <;> rfl
    refine (of_eq hattach).trans ?_
    unfold Registry.handleCommand grant
    dsimp only
    split <;> exact of_eq rfl
  | cancelRequest sessionId requestId =>
    refine (sendSession r sessionId (.cancel requestId)).trans ?_
    unfold Registry.handleCommand handleCancelRequest cancelChildrenOf
    dsimp only
    split_ifs
    · exact of_eq rfl
    · exact foldl (fun r childId => sendSession r childId _) _ _
  | deleteSession sessionId => exact handleDeleteSession env sessionId r
  | updateMetadata sessionId metadata =>
    unfold Registry.handleCommand handleUpdateMetadata
    dsimp only
    split_ifs <;> exact of_eq rfl
  | broadcastSessionStatus sessionId status =>
    unfold Registry.handleCommand handleBroadcastSessionStatus
    dsimp only
    split <;> exact of_eq rfl
  | sessionExited sessionId => exact handleSessionExited sessionId r
  | sessionDeleteFinalized sessionId => exact of_eq rfl

end Prunes

theorem step_prunes (hstep : r.step setup label = some r') :
    Prunes r r' ∨ ∃ env session queue, label = .handle env ∧
      r.queue = .createSession session :: queue ∧
      r' = ({ r with queue := queue } : Registry).handleCreateSession env session := by
  cases label with
  | handle env =>
    obtain ⟨command, queue, hqueue, rfl⟩ := step_handle_cases hstep
    by_cases hcreate : ∃ session, command = .createSession session
    · obtain ⟨session, rfl⟩ := hcreate
      exact Or.inr ⟨env, session, queue, rfl, hqueue, rfl⟩
    · exact Or.inl ((Prunes.of_eq rfl).trans (.handleCommand env
        (fun session hc => hcreate ⟨session, hc⟩) { r with queue := queue }))
  | request | startTool | kvSet | kvDelete | endTool =>
    simp only [step, ite_none_right_eq_some] at hstep
    obtain rfl := some.inj hstep.2
    exact Or.inl (.of_eq rfl)
  | start sessionId =>
    obtain ⟨s, -, rfl⟩ := map_eq_some_iff.1 hstep
    exact Or.inl (.of_eq rfl)
  | session sessionId slabel =>
    obtain ⟨-, -, system, -, rfl⟩ := threadStep_cases hstep
    exact Or.inl (.of_eq rfl)
  | finalize sessionId ok =>
    obtain ⟨phase, -, rfl⟩ := map_eq_some_iff.1 hstep
    cases phase with
    | deleteSession => cases ok <;> exact Or.inl (.of_eq rfl)
    | clearTombstone | report => exact Or.inl (.of_eq rfl)
  | reboot env =>
    cases hstep
    exact Or.inl fun parentId => by simp [childIds, startUp]

theorem childIds_handleCreateSession (env : RegistryEnv) (session : NewSession) :
    (r.handleCreateSession env session).childIds parentId =
      if session.parentSessionId = some parentId then r.childIds parentId ++ [r.nextSessionId]
      else r.childIds parentId := by
  unfold handleCreateSession addChild
  cases session.parentSessionId with
  | none => rfl
  | some id =>
    change (r.children.insert id (r.childIds id ++ [r.nextSessionId]))[parentId]?.getD [] = _
    rw [Std.ExtTreeMap.get_insert]
    by_cases hid : parentId = id
    · rw [if_pos hid, if_pos (by rw [hid]), hid, getD_some]
    · rw [if_neg hid, if_neg (fun h => hid (some.inj h).symm)]
      rfl

namespace ListsOnce

theorem create (h : r.ListsOnce) (env : RegistryEnv) (session : NewSession) :
    (r.handleCreateSession env session).ListsOnce := by
  have hnext := (handleCreateSession_keeps env session r).next
  refine ⟨fun parentId => ?_, fun parentId id hid => ?_⟩
  · rw [childIds_handleCreateSession]
    split_ifs
    · refine (h.nodup parentId).append (nodup_singleton _) ?_
      rw [disjoint_singleton]
      exact fun hmem => lt_irrefl _ (h.created parentId _ hmem)
    · exact h.nodup parentId
  · rw [hnext]
    rw [childIds_handleCreateSession] at hid
    split_ifs at hid
    · obtain hold | hnew := mem_append.1 hid
      · exact Nat.lt_succ_of_lt (h.created parentId id hold)
      · rw [mem_singleton.1 hnew]
        exact Nat.lt_succ_self _
    · exact Nat.lt_succ_of_lt (h.created parentId id hid)

/-- Every step keeps the lists without repetitions. -/
theorem step (h : r.ListsOnce) (hstep : r.step setup label = some r') : r'.ListsOnce := by
  obtain hprunes | ⟨env, session, queue, rfl, hqueue, rfl⟩ := step_prunes hstep
  · refine ⟨fun parentId => (h.nodup parentId).sublist (hprunes parentId), fun parentId id hid => ?_⟩
    by_cases hlabel : ∃ env, label = .reboot env
    · obtain ⟨env, rfl⟩ := hlabel
      cases hstep
      simp [childIds, startUp] at hid
    · have hlt := h.created parentId id ((hprunes parentId).subset hid)
      have hnext := step_nextSessionId (fun env henv => hlabel ⟨env, henv⟩) hstep
      split_ifs at hnext <;> omega
  · have hr : ({ r with queue := queue } : Registry).ListsOnce := ⟨h.nodup, h.created⟩
    exact hr.create env session

theorem of_run {env : StartEnv} {slots : Std.ExtTreeMap ℕ Slot}
    {tombstones : Std.ExtTreeMap ℕ Unit} {labels : List RegistryLabel}
    (hrun : run (Registry.step setup) labels (boot env slots tombstones) = some r) :
    r.ListsOnce := by
  refine invariant_of_run (fun _ _ _ h hstep => h.step hstep) ⟨?_, ?_⟩ hrun <;>
    simp [boot, childIds, startUp]

end ListsOnce

end Children

/-! ### Cancelling -/

section Cancelling

variable {r : Registry} {sessionId id : ℕ} (command : SessionCommand)

theorem slot_sendSession_of_ne (hid : id ≠ sessionId) :
    (r.sendSession sessionId command).slot id = r.slot id := by
  unfold sendSession
  split
  · rw [slot_modifySlot, if_neg hid]
  · rfl

theorem activeSessions_sendSession :
    (r.sendSession sessionId command).activeSessions = r.activeSessions := by
  unfold sendSession
  split <;> rfl

theorem slot_sendSession_of_runs (hruns : r.runs id = true) :
    (r.sendSession id command).slot id =
      { r.slot id with
        system := { (r.slot id).system with queue := (r.slot id).system.queue ++ [command] } } := by
  obtain ⟨channel, hactive, hlive⟩ := (Option.any_eq_true _ _).1 hruns
  unfold sendSession
  rw [hactive]
  change (r.modifySlot id (Slot.deliver channel command)).slot id = _
  rw [slot_modifySlot, if_pos rfl, Slot.deliver, if_pos hlive]

theorem runs_sendSession (hruns : r.runs id = true) :
    (r.sendSession sessionId command).runs id = true := by
  unfold runs
  rw [activeSessions_sendSession]
  by_cases hid : id = sessionId
  · rw [← hid, slot_sendSession_of_runs command hruns]
    exact hruns
  · rw [slot_sendSession_of_ne command hid]
    exact hruns

theorem queue_foldl_sendSession (ids : List ℕ)
    (hruns : r.runs id = true) :
    ((ids.foldl (fun r childId => r.sendSession childId command) r).slot id).system.queue =
      (r.slot id).system.queue ++ List.replicate (ids.count id) command := by
  induction ids generalizing r with
  | nil => simp
  | cons childId ids ih =>
    rw [foldl_cons, ih (runs_sendSession command hruns)]
    by_cases hid : id = childId
    · rw [← hid, slot_sendSession_of_runs command hruns, count_cons_self, replicate_succ,
        append_assoc, singleton_append]
    · rw [slot_sendSession_of_ne command hid, count_cons_of_ne (Ne.symm hid)]

theorem queue_handleCancelRequest (requestId : ℕ) (hruns : r.runs id = true)
    (hid : id ≠ sessionId) :
    ((r.handleCancelRequest sessionId requestId).slot id).system.queue =
      (r.slot id).system.queue ++ List.replicate
        (if r.knows sessionId then (r.childIds sessionId).count id else 0) (.cancel cancelAll) := by
  have hmetadata : (r.sendSession sessionId (.cancel requestId)).sessionMetadata =
      r.sessionMetadata := by
    unfold sendSession
    split <;> rfl
  unfold handleCancelRequest cancelChildrenOf
  rw [activeSessions_sendSession, hmetadata, children_sendSession, ← Bool.not_or]
  change (slot (if (!r.knows sessionId) = true then _ else _) id).system.queue = _
  cases r.knows sessionId with
  | false =>
    rw [Bool.not_false, if_pos rfl, slot_sendSession_of_ne _ hid]
    simp
  | true =>
    rw [Bool.not_true, if_neg (by simp), if_pos rfl,
      queue_foldl_sendSession _ _ (runs_sendSession _ hruns), slot_sendSession_of_ne _ hid]
    rfl

/-- A cancel reaches every running descendant exactly if the list of the session names them all. -/
theorem cancelReaches_iff (h : r.ListsOnce) (requestId : ℕ) :
    r.CancelReaches sessionId requestId ↔
      ∀ id, r.Descends sessionId id → id ≠ sessionId → r.runs id = true →
        r.knows sessionId = true ∧ id ∈ r.childIds sessionId := by
  refine forall_congr' fun id => forall_congr' fun _ => forall_congr' fun hid =>
    forall_congr' fun hruns => ?_
  rw [queue_handleCancelRequest requestId hruns hid, append_cancel_left_eq]
  change List.replicate _ _ = List.replicate 1 _ ↔ _
  rw [replicate_left_inj]
  cases r.knows sessionId with
  | false => simp
  | true =>
    rw [if_pos rfl]
    refine ⟨fun hcount => ⟨rfl, one_le_count_iff.1 hcount.ge⟩, fun hmem => ?_⟩
    exact count_eq_one_of_mem (h.nodup sessionId) hmem.2

end Cancelling

/-! ### Deleting -/

section Deleting

variable {r r' : Registry} {sessionId id : ℕ}

/-- What matters for the deletion of a session, and its outcome, is the same. -/
structure SameFor (id : ℕ) (r r' : Registry) : Prop where
  active : r'.activeSessions[id]? = r.activeSessions[id]?
  slot : r'.slot id = r.slot id
  index : r'.sessionMetadata[id]? = r.sessionMetadata[id]?
  deletions : r'.deletions id = r.deletions id

theorem SameFor.trans {r'' : Registry} (h : SameFor id r r') (h' : SameFor id r' r'') :
    SameFor id r r'' :=
  ⟨h'.active.trans h.active, h'.slot.trans h.slot, h'.index.trans h.index,
    h'.deletions.trans h.deletions⟩

theorem SameFor.removable (h : SameFor id r r') (env : RegistryEnv) :
    r'.removable env id = r.removable env id := by
  unfold Registry.removable threadFinished
  rw [h.active, h.slot]

theorem SameFor.modifySlot (hid : id ≠ sessionId) (f : Slot → Slot) (r : Registry) :
    SameFor id r (r.modifySlot sessionId f) :=
  ⟨rfl, by rw [slot_modifySlot, if_neg hid], rfl, rfl⟩

theorem SameFor.forgetSession (hid : id ≠ sessionId) (r : Registry) :
    SameFor id r (r.forgetSession sessionId) := by
  refine ⟨rfl, rfl, ?_, ?_⟩
  · change (r.sessionMetadata.erase sessionId)[id]? = _
    rw [Std.ExtTreeMap.get_erase, if_neg hid]
  · change (Announcement.sessionDeleted sessionId :: r.log).count _ = _
    rw [count_cons_of_ne]
    · rfl
    · exact fun h => hid (Announcement.sessionDeleted.inj h).symm

variable (env : RegistryEnv)

theorem SameFor.clearSessionTombstone (sessionId : ℕ) (r : Registry) :
    SameFor id r (r.clearSessionTombstone env sessionId) := by
  unfold Registry.clearSessionTombstone
  split_ifs <;> exact ⟨rfl, rfl, rfl, rfl⟩

/-- The deletion of a session does not concern another one. -/
theorem SameFor.deleteSessionInner (hid : id ≠ sessionId) (r : Registry) :
    SameFor id r (r.deleteSessionInner env sessionId).1 := by
  have herase : r.activeSessions[id]? = (r.activeSessions.erase sessionId)[id]? := by
    rw [Std.ExtTreeMap.get_erase, if_neg hid]
  unfold Registry.deleteSessionInner
  split
  · dsimp only
    split_ifs
    · unfold deleteFinishedSession
      dsimp only
      split_ifs
      · refine SameFor.trans ?_ (.forgetSession hid _)
        refine SameFor.trans ?_ (.clearSessionTombstone env sessionId _)
        refine SameFor.trans ?_ (.modifySlot hid _ _)
        exact ⟨herase.symm, rfl, rfl, rfl⟩
      · exact ⟨herase.symm, rfl, rfl, rfl⟩
    · refine SameFor.trans ?_ (.forgetSession hid _)
      refine SameFor.trans ?_ (.modifySlot hid _ _)
      unfold markSessionDeleted
      split_ifs <;> exact ⟨herase.symm, rfl, rfl, rfl⟩
  · split_ifs
    · dsimp only
      refine (SameFor.modifySlot hid Slot.deleteRows r).trans
        (SameFor.trans ?_ (.forgetSession hid _))
      split_ifs
      · exact ⟨rfl, rfl, rfl, rfl⟩
      · exact .clearSessionTombstone env sessionId _
    · exact ⟨rfl, rfl, rfl, rfl⟩

theorem forgetSession_deletes (r : Registry) (id : ℕ) :
    (r.forgetSession id).sessionMetadata[id]? = none ∧
      (r.forgetSession id).deletions id = r.deletions id + 1 := by
  refine ⟨?_, count_cons_self⟩
  change (r.sessionMetadata.erase id)[id]? = none
  rw [Std.ExtTreeMap.get_erase, if_pos rfl]

/-- The deletion of a session that can be deleted removes it from the index with one announcement,
and any other does not announce anything. -/
theorem deleteSessionInner_deletes (id : ℕ) (r : Registry) :
    if r.removable env id then
      (r.deleteSessionInner env id).1.sessionMetadata[id]? = none ∧
        (r.deleteSessionInner env id).1.deletions id = r.deletions id + 1
    else (r.deleteSessionInner env id).1.deletions id = r.deletions id := by
  have hclear : ∀ r : Registry, (r.clearSessionTombstone env id).log = r.log := by
    intro r
    unfold clearSessionTombstone
    split_ifs <;> rfl
  have hmark : ∀ r : Registry, (r.markSessionDeleted env id).log = r.log := by
    intro r
    unfold markSessionDeleted
    split_ifs <;> rfl
  -- Forgetting is the only announcement of a deletion.
  have hforget : ∀ r₁ : Registry, r₁.log = r.log →
      (r₁.forgetSession id).sessionMetadata[id]? = none ∧
        (r₁.forgetSession id).deletions id = r.deletions id + 1 := by
    intro r₁ hlog
    have hdeletes := forgetSession_deletes r₁ id
    rwa [deletions, deletions, hlog] at hdeletes
  unfold removable deleteSessionInner
  cases hactive : r.activeSessions[id]? with
  | none =>
    cases env.deleteOk id with
    | false => simp
    | true =>
      simp only [Bool.true_or, if_true]
      refine hforget _ ?_
      split_ifs
      · rfl
      · exact hclear _
  | some channel =>
    change if env.deleteOk id || (true && !r.threadFinished env id) then _ else _
    dsimp only
    have hfinished : threadFinished env id
        { r with activeSessions := r.activeSessions.erase id } = r.threadFinished env id := rfl
    rw [hfinished]
    cases r.threadFinished env id with
    | false =>
      simp only [Bool.not_false, Bool.and_true, Bool.or_true, if_true, Bool.false_eq_true, if_false]
      exact hforget _ (hmark _)
    | true =>
      unfold deleteFinishedSession
      cases env.deleteOk id with
      | false => simp [deletions]
      | true =>
        simp only [Bool.true_or, if_true]
        exact hforget _ (hclear _)

/-- A step of the loop over the sub-sessions of a deleted session. -/
def deleteChild (r : Registry) (childId : ℕ) : Registry :=
  ((r.removeChildFromAllParents childId).deleteSessionInner env childId).1

theorem SameFor.deleteChild {childId : ℕ} (hid : id ≠ childId)
    (r : Registry) : SameFor id r (r.deleteChild env childId) := by
  have hremove : SameFor id r (r.removeChildFromAllParents childId) := ⟨rfl, rfl, rfl, rfl⟩
  exact hremove.trans (.deleteSessionInner env hid _)

theorem SameFor.foldl_deleteChild {ids : List ℕ} (hid : id ∉ ids)
    (r : Registry) : SameFor id r (ids.foldl (Registry.deleteChild env) r) := by
  induction ids generalizing r with
  | nil => exact ⟨rfl, rfl, rfl, rfl⟩
  | cons childId ids ih =>
    rw [mem_cons, not_or] at hid
    exact (SameFor.deleteChild env hid.1 r).trans (ih hid.2 _)

theorem foldl_deleteChild {ids : List ℕ} (hids : ids.Nodup) (hid : id ∈ ids)
    (r : Registry) :
    if r.removable env id then
      (ids.foldl (deleteChild env) r).sessionMetadata[id]? = none ∧
        (ids.foldl (deleteChild env) r).deletions id = r.deletions id + 1
    else (ids.foldl (deleteChild env) r).deletions id = r.deletions id := by
  obtain ⟨before, after, rfl⟩ := append_of_mem hid
  obtain ⟨-, hafter, hdisjoint⟩ := nodup_append'.1 hids
  have hbefore : id ∉ before := fun hmem => hdisjoint hmem mem_cons_self
  rw [foldl_append, foldl_cons]
  have hsame := SameFor.foldl_deleteChild env hbefore r
  have hsame' := SameFor.foldl_deleteChild env (nodup_cons.1 hafter).1
    ((before.foldl (deleteChild env) r).deleteChild env id)
  have hdeletes := deleteSessionInner_deletes env id
    ((before.foldl (deleteChild env) r).removeChildFromAllParents id)
  change if removable env id (before.foldl (deleteChild env) r) then
    ((before.foldl (deleteChild env) r).deleteChild env id).sessionMetadata[id]? = none ∧
      ((before.foldl (deleteChild env) r).deleteChild env id).deletions id =
        deletions id (before.foldl (deleteChild env) r) + 1
    else ((before.foldl (deleteChild env) r).deleteChild env id).deletions id =
        deletions id (before.foldl (deleteChild env) r) at hdeletes
  rw [hsame.removable, hsame.deletions] at hdeletes
  rw [hsame'.index, hsame'.deletions]
  exact hdeletes

/-- A deletion reaches every descendant exactly if the list of the session names them all, and each
of them can be deleted. -/
theorem deleteReaches_iff (h : r.ListsOnce) (env : RegistryEnv) :
    r.DeleteReaches env sessionId ↔
      ∀ id, r.Descends sessionId id → id ≠ sessionId →
        id ∈ r.childIds sessionId ∧ r.removable env id = true := by
  refine forall_congr' fun id => forall_congr' fun _ => forall_congr' fun hid => ?_
  have hstart : SameFor id r { r with children := r.children.erase sessionId } :=
    ⟨rfl, rfl, rfl, rfl⟩
  have hend := SameFor.deleteChild env hid ((r.childIds sessionId).foldl (deleteChild env)
    { r with children := r.children.erase sessionId })
  change (deleteChild env ((r.childIds sessionId).foldl (deleteChild env)
      { r with children := r.children.erase sessionId }) sessionId).sessionMetadata[id]? = none ∧
    (deleteChild env ((r.childIds sessionId).foldl (deleteChild env)
      { r with children := r.children.erase sessionId }) sessionId).deletions id = _ ↔ _
  rw [hend.index, hend.deletions]
  by_cases hmem : id ∈ r.childIds sessionId
  · have hdeletes := foldl_deleteChild env (h.nodup sessionId) hmem
      { r with children := r.children.erase sessionId }
    rw [hstart.removable, hstart.deletions] at hdeletes
    cases hremovable : r.removable env id with
    | true =>
      rw [hremovable, if_pos rfl] at hdeletes
      exact ⟨fun _ => ⟨hmem, rfl⟩, fun _ => hdeletes⟩
    | false =>
      rw [hremovable, if_neg (by simp)] at hdeletes
      rw [hdeletes]
      exact ⟨fun hno => absurd hno.2 (by omega), fun hno => (by cases hno.2)⟩
  · have hsame := SameFor.foldl_deleteChild env hmem
      { r with children := r.children.erase sessionId }
    rw [hsame.deletions, hstart.deletions]
    exact ⟨fun hno => absurd hno.2 (by omega), fun hno => absurd hno.1 hmem⟩

end Deleting

/-- Which cancels and deletions reach all sub-sessions. In every state that a run of the daemon
reaches, with any creations, exits and restarts before it: a cancel of a session sends one cancel to
each running descendant exactly if the daemon still knows the session and lists all of them under
it, and its deletion deletes each descendant once exactly if the daemon lists all of them under it
and the deletion of each succeeds. -/
theorem reaches_descendants_iff {setup : AgentSetup} {env : StartEnv}
    {slots : Std.ExtTreeMap ℕ Slot} {tombstones : Std.ExtTreeMap ℕ Unit}
    {labels : List RegistryLabel} {r : Registry}
    (hrun : run (step setup) labels (boot env slots tombstones) = some r) (sessionId : ℕ) :
    (∀ requestId, r.CancelReaches sessionId requestId ↔
      ∀ id, r.Descends sessionId id → id ≠ sessionId → r.runs id = true →
        r.knows sessionId = true ∧ id ∈ r.childIds sessionId) ∧
    (∀ env, r.DeleteReaches env sessionId ↔
      ∀ id, r.Descends sessionId id → id ≠ sessionId →
        id ∈ r.childIds sessionId ∧ r.removable env id = true) :=
  ⟨fun requestId => cancelReaches_iff (ListsOnce.of_run hrun) requestId,
    fun env => deleteReaches_iff (ListsOnce.of_run hrun) env⟩

end Registry

namespace Sample

/-- A session is created below another one, its thread starts, and the daemon handles its report. -/
def createBelow (parentId : Option ℕ) (sessionId : ℕ) : List RegistryLabel :=
  ask (.createSession { parentSessionId := parentId }) ++ [.start sessionId, .handle registryEnv]

/-- A session and a sub-session of it. -/
def family : List RegistryLabel := createBelow none 1 ++ createBelow (some 1) 2

end Sample

namespace Registry

open StepSystem

/-- A session whose only sub-session is listed. -/
theorem reaches_descendants_iff_family :
    ∃ r, run (step Sample.setup) Sample.family Sample.registry = some r ∧
      r.CancelReaches 1 7 ∧ r.DeleteReaches Sample.registryEnv 1 := by
  have hany : (run (step Sample.setup) Sample.family Sample.registry).any (fun r =>
      r.knows 1 && decide (r.childIds 1 = [2]) &&
        decide (r.sessionMetadata.toList.map (fun entry =>
          (entry.1, entry.2.parentSessionId)) = [(1, none), (2, some 1)])) = true := by
    decide
  obtain ⟨r, hrun, hr⟩ := (Option.any_eq_true _ _).1 hany
  rw [Bool.and_eq_true, Bool.and_eq_true, decide_eq_true_eq, decide_eq_true_eq] at hr
  obtain ⟨⟨hknows, hlist⟩, hindex⟩ := hr
  obtain ⟨hcancel, hdelete⟩ := reaches_descendants_iff hrun 1
  have hchild : ∀ id, r.Descends 1 id → id ∈ r.childIds 1 := by
    intro id hid
    obtain ⟨parentId, hparent⟩ : ∃ parentId, r.IsParentOf parentId id := by
      cases hid with
      | single h | tail _ h => exact ⟨_, h⟩
    obtain ⟨metadata, hmetadata, hparent⟩ := bind_eq_some_iff.1 hparent
    have hmem := List.mem_map_of_mem (f := fun entry : ℕ × SessionMetadata =>
      (entry.1, entry.2.parentSessionId))
      (Std.ExtTreeMap.mem_toList_iff_getElem?_eq_some.2 hmetadata)
    rw [hindex] at hmem
    rw [hlist]
    simp_all
  refine ⟨r, hrun, (hcancel 7).2 fun id hid _ _ => ⟨hknows, hchild id hid⟩,
    (hdelete _).2 fun id hid _ => ⟨hchild id hid, rfl⟩⟩

/-- A cancel and a deletion of a session pass by the sub-session of its sub-session, which runs. -/
theorem not_reaches_grandchild :
    ∃ r, run (step Sample.setup) (Sample.family ++ Sample.createBelow (some 2) 3)
        Sample.registry = some r ∧
      r.Descends 1 3 ∧ r.runs 3 = true ∧
      ((r.handleCancelRequest 1 7).slot 3).system.queue = [] ∧
      (r.handleDeleteSession Sample.registryEnv 1).1.deletions 3 = 0 ∧
      ¬ r.CancelReaches 1 7 ∧ ¬ r.DeleteReaches Sample.registryEnv 1 := by
  have hany : (run (step Sample.setup) (Sample.family ++ Sample.createBelow (some 2) 3)
      Sample.registry).any (fun r =>
        decide (r.sessionMetadata[2]?.bind SessionMetadata.parentSessionId = some 1) &&
        decide (r.sessionMetadata[3]?.bind SessionMetadata.parentSessionId = some 2) &&
        r.runs 3 && ((r.handleCancelRequest 1 7).slot 3).system.queue.isEmpty &&
        decide ((r.handleDeleteSession Sample.registryEnv 1).1.deletions 3 = 0)) = true := by
    decide
  obtain ⟨r, hrun, hr⟩ := (Option.any_eq_true _ _).1 hany
  simp only [Bool.and_eq_true, decide_eq_true_eq, List.isEmpty_iff] at hr
  obtain ⟨⟨⟨⟨hfirst, hsecond⟩, hruns⟩, hqueue⟩, hlog⟩ := hr
  have hbelow : r.Descends 1 3 := .tail (.single hfirst) hsecond
  refine ⟨r, hrun, hbelow, hruns, hqueue, hlog, fun hcancel => ?_, fun hdelete => ?_⟩
  · have hone := hcancel 3 hbelow (by decide) hruns
    rw [hqueue] at hone
    simp at hone
  · have hone := (hdelete 3 hbelow (by decide)).2
    omega

end Registry

end Choreo
