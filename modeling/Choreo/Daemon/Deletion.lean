import Choreo.Daemon.Simulation

/-!
# Deleted sessions

A session that was announced as deleted never comes back: whatever its thread, the background
deletion and late reports do, and also when the process dies after the tombstone was written, it is
out of the index and cannot be attached, and once the deletion of its rows is behind, no row is left.
-/

namespace Choreo

namespace Registry

open StepSystem

/-- The daemon after its start on a database. -/
def boot (env : StartEnv) (slots : Std.ExtTreeMap ℕ Slot)
    (tombstones : Std.ExtTreeMap ℕ Unit) : Registry :=
  startUp env slots tombstones []

/-- The rows of a session have been deleted: the mark is gone, which also holds after a start of the
daemon, or the background deletion is past that point. -/
def DeletionBehind (sessionId : ℕ) (r : Registry) : Prop :=
  r.deletedSessions.contains sessionId = false ∨
    r.finalizers[sessionId]? = some .clearTombstone ∨ r.finalizers[sessionId]? = some .report ∨
    ∃ command ∈ r.queue, command.mail sessionId = some .finalized

/-- The tombstone of a session is written, if `written` says so. Only then may the process die after
the session was deleted, and the start that follows reads the sessions after it swept the
tombstone. -/
def TombstoneKept (written : Bool) (sessionId : ℕ) (label : RegistryLabel) (r : Registry) : Prop :=
  match label with
  | .handle env => written = true → env.tombstoneOk sessionId = true
  | .reboot env => env.sessionsOk = true ∧
      (r.announcedDeleted sessionId = true → written = true ∧ env.sweeps sessionId = true)
  | _ => True

/-- No tool thread adds a key-value row to a deleted session once the deletion of its rows is
behind or without its tombstone. -/
def NoLateRow (sessionId : ℕ) (label : RegistryLabel) (r : Registry) : Prop :=
  match label with
  | .kvSet id _ _ => id = sessionId → r.announcedDeleted sessionId = true →
      ¬ r.DeletionBehind sessionId ∧ r.tombstones[sessionId]?.isSome = true
  | _ => True

instance (sessionId : ℕ) (r : Registry) : Decidable (r.DeletionBehind sessionId) :=
  inferInstanceAs (Decidable (_ ∨ _ ∨ _ ∨ ∃ command ∈ r.queue, command.mail sessionId = some .finalized))

instance (written : Bool) (sessionId : ℕ) (label : RegistryLabel) (r : Registry) :
    Decidable (TombstoneKept written sessionId label r) :=
  match label with
  | .handle _ => inferInstanceAs (Decidable (_ → _))
  | .reboot _ => inferInstanceAs (Decidable (_ ∧ (_ → _)))
  | .request _ | .start _ | .session .. | .startTool _ | .kvSet .. | .kvDelete .. | .endTool _
  | .finalize .. => isTrue trivial

instance (sessionId : ℕ) (label : RegistryLabel) (r : Registry) :
    Decidable (NoLateRow sessionId label r) :=
  match label with
  | .kvSet .. => inferInstanceAs (Decidable (_ → _ → _ ∧ _))
  | .request _ | .handle _ | .start _ | .session .. | .startTool _ | .kvDelete .. | .endTool _
  | .finalize .. | .reboot _ => isTrue trivial

theorem settled_view (sessionId : ℕ) (r : Registry) :
    (r.view sessionId).settled = true ↔ r.DeletionBehind sessionId := by
  have hmail : (r.view sessionId).mail.contains .finalized = true ↔
      ∃ command ∈ r.queue, command.mail sessionId = some .finalized := by
    rw [List.contains_iff_mem]
    exact List.mem_filterMap
  unfold Lifecycle.settled DeletionBehind
  rw [Bool.or_eq_true, Bool.or_eq_true, Bool.or_eq_true, hmail, Bool.not_eq_true', beq_iff_eq,
    beq_iff_eq, or_assoc, or_assoc]
  rfl

section Runs

variable {setup : AgentSetup} {label : RegistryLabel} {r r' : Registry}

theorem boot_invariant {env : StartEnv} (henv : env.sessionsOk = true)
    (slots : Std.ExtTreeMap ℕ Slot) (tombstones : Std.ExtTreeMap ℕ Unit) :
    (boot env slots tombstones).Invariant := by
  refine ⟨fun id => ?_, fun id hid => ?_⟩
  · have hslot := slot_startUp { slots := slots, tombstones := tombstones } env id
    change (boot env slots tombstones).slot id = _ at hslot
    rw [hslot]
    split_ifs
    · exact (Slot.Invariant.crash _).deleteRows
    · exact .crash _
  · exact startUp_fresh (r := { slots := slots, tombstones := tombstones }) henv hid

theorem boot_safe (env : StartEnv) (slots : Std.ExtTreeMap ℕ Slot)
    (tombstones : Std.ExtTreeMap ℕ Unit) (written countKv : Bool) (sessionId : ℕ) :
    ((boot env slots tombstones).view sessionId).Safe written countKv := by
  have hview := view_startUp (r := { slots := slots, tombstones := tombstones }) env sessionId
  change (boot env slots tombstones).view sessionId = _ at hview
  refine ⟨?_, fun hmarked => ?_, fun hgone => ?_⟩
  · rw [hview]
    exact .idle rfl rfl rfl rfl rfl
  · rw [hview] at hmarked
    cases hmarked
  · cases hgone

variable {written countKv : Bool}

theorem step_safe {sessionId : ℕ} (h : r.Invariant)
    (hsafe : (r.view sessionId).Safe written countKv)
    (hkept : TombstoneKept written sessionId label r)
    (hrow : countKv = true → NoLateRow sessionId label r) (hstep : r.step setup label = some r') :
    (r'.view sessionId).Safe written countKv := by
  refine (step_view h hstep sessionId).preserves (fun v event v' hv hpermits hstep' => ?_) hsafe
  refine hv.step ?_ hstep'
  cases event with
  | deleteRunning tombstoneOk =>
    obtain ⟨env, rfl, rfl⟩ := hpermits
    exact hkept
  | reboot sweeps clears reads =>
    obtain ⟨rfl, env, rfl, rfl, -, -⟩ := hpermits
    exact hkept.2
  | kvWrite kv =>
    obtain ⟨rfl, ⟨key, value, rfl⟩ | ⟨key, -, hold⟩⟩ := hpermits
    · intro hcount hgone _
      obtain ⟨hbehind, htombstone⟩ := hrow hcount rfl hgone
      exact Or.inr ⟨Bool.eq_false_iff.2 fun hs => hbehind ((settled_view _ _).1 hs), htombstone⟩
    · exact fun _ _ hkv => Or.inl (hold hkv)
  | create | attach | work | receive | deleteFinished | deleteStored | finalize => trivial

theorem safe_of_run {sessionId : ℕ} {labels : List RegistryLabel}
    (h : r.Invariant) (hsafe : (r.view sessionId).Safe written countKv)
    (hkept : Along (step setup) (TombstoneKept written sessionId) labels r)
    (hrow : countKv = true → Along (step setup) (NoLateRow sessionId) labels r)
    (hrun : run (step setup) labels r = some r') :
    (r'.view sessionId).Safe written countKv := by
  have hboth : Along (step setup) (fun label r => TombstoneKept written sessionId label r ∧
      (countKv = true → NoLateRow sessionId label r)) labels r := by
    cases countKv with
    | false => exact hkept.mono fun _ _ hk => ⟨hk, fun hcount => (by cases hcount)⟩
    | true => exact (hkept.and (hrow rfl)).mono fun _ _ hk => ⟨hk.1, fun _ => hk.2⟩
  refine (invariant_of_along (I := fun r => r.Invariant ∧ (r.view sessionId).Safe written countKv)
    ?_ ⟨h, hsafe⟩ hboth hrun).2
  rintro label r r' ⟨hkept, hrow⟩ ⟨h, hsafe⟩ hstep
  refine ⟨step_invariant h ?_ hstep, step_safe h hsafe hkept hrow hstep⟩
  cases label with
  | reboot env => exact hkept.1
  | _ => rfl

theorem deleted_of_safe {sessionId : ℕ} {r : Registry}
    (hsafe : (r.view sessionId).Safe written countKv)
    (hdeleted : r.announcedDeleted sessionId = true) :
    r.sessionMetadata[sessionId]? = none ∧
      (∀ env, ∃ error, (r.handleAttachSession env sessionId).2 = .error error) ∧
      (r.DeletionBehind sessionId → (r.slot sessionId).store = {} ∧
        (countKv = true → (r.slot sessionId).kv = ∅)) := by
  have hgone := hsafe.gone hdeleted
  have hrows : r.DeletionBehind sessionId → (r.view sessionId).hasRows countKv = false :=
    fun hbehind => hgone.rows ((settled_view _ _).2 hbehind)
  refine ⟨Option.isNone_iff_eq_none.1 ?_, fun env => ?_, fun hbehind => ?_⟩
  · rw [← Option.not_isSome, Bool.not_eq_true']
    exact hgone.indexed
  · unfold handleAttachSession
    have hactive : r.activeSessions[sessionId]? = none := by
      rw [← Option.isNone_iff_eq_none, ← Option.not_isSome, Bool.not_eq_true']
      exact hgone.active
    split_ifs with hmarked hread
    · exact ⟨_, rfl⟩
    · have hnone : (r.slot sessionId).store.record = none := by
        have hr := hrows (Or.inl (Bool.eq_false_iff.2 hmarked))
        simp only [Lifecycle.hasRows, Bool.or_eq_false_iff] at hr
        rw [← Option.isNone_iff_eq_none, ← Option.not_isSome, Bool.not_eq_true']
        exact hr.1.1
      rw [hactive, hnone]
      exact ⟨_, rfl⟩
    · rw [hactive]
      exact ⟨_, rfl⟩
  · have hr := hrows hbehind
    simp only [Lifecycle.hasRows, Bool.or_eq_false_iff] at hr
    obtain ⟨⟨hrecord, hcontent⟩, hkv⟩ := hr
    change (r.slot sessionId).store.record.isSome = false at hrecord
    change (!((r.slot sessionId).store.turns.isEmpty &&
      (r.slot sessionId).store.attachments.isEmpty)) = false at hcontent
    change (countKv && !(r.slot sessionId).kv.isEmpty) = false at hkv
    rw [Bool.not_eq_false', Bool.and_eq_true, Std.ExtTreeMap.isEmpty_iff,
      Std.ExtTreeMap.isEmpty_iff] at hcontent
    constructor
    · cases hstore : (r.slot sessionId).store with
      | mk record turns attachments =>
        rw [hstore] at hrecord hcontent
        simp only [Option.isSome_eq_false_iff, Option.isNone_iff_eq_none] at hrecord hcontent
        rw [hrecord, hcontent.1, hcontent.2]
    · rintro rfl
      simpa using hkv

/-- A deleted session never comes back. In every run of the daemon, whatever session threads, tool
threads, background deletions and late reports do, and however often the process dies after the
tombstone of the session is written: a session whose last announcement was its deletion is not in
the index and cannot be attached; and when the deletion of its rows is behind, its record, turns and
attachments are gone, and so are its key-value rows unless a tool thread added one afterwards. -/
theorem deleted_of_run {env : StartEnv} (henv : env.sessionsOk = true)
    (slots : Std.ExtTreeMap ℕ Slot) (tombstones : Std.ExtTreeMap ℕ Unit) (written : Bool)
    (sessionId : ℕ) {labels : List RegistryLabel}
    (hkept : Along (step setup) (TombstoneKept written sessionId) labels
      (boot env slots tombstones))
    (hrun : run (step setup) labels (boot env slots tombstones) = some r)
    (hdeleted : r.announcedDeleted sessionId = true) :
    r.sessionMetadata[sessionId]? = none ∧
      (∀ env, ∃ error, (r.handleAttachSession env sessionId).2 = .error error) ∧
      (r.DeletionBehind sessionId → (r.slot sessionId).store = {} ∧
        (Along (step setup) (NoLateRow sessionId) labels (boot env slots tombstones) →
          (r.slot sessionId).kv = ∅)) := by
  have hinv := boot_invariant henv slots tombstones
  have hstored := deleted_of_safe (safe_of_run hinv
    (boot_safe env slots tombstones written false sessionId) hkept (fun h => (by cases h)) hrun)
    hdeleted
  refine ⟨hstored.1, hstored.2.1, fun hbehind => ⟨(hstored.2.2 hbehind).1, fun hrow => ?_⟩⟩
  have hempty := deleted_of_safe (safe_of_run hinv
    (boot_safe env slots tombstones written true sessionId) hkept (fun _ => hrow) hrun) hdeleted
  exact (hempty.2.2 hbehind).2 rfl

end Runs

end Registry

namespace Sample

/-- Surroundings in which every database operation succeeds. -/
def registryEnv : RegistryEnv where
  boot := boot
  now := 0
  contextWindow := none
  readOk := true
  writeOk := true
  deleteOk _ := true
  tombstoneOk _ := true
  clearOk _ := true
  isFinished _ := true

/-- A start of the daemon in which every database operation succeeds. -/
def startEnv : StartEnv where
  tombstonesOk := true
  deleteOk _ := true
  clearOk _ := true
  sessionsOk := true

/-- The daemon on an empty database. -/
def registry : Registry := Registry.boot startEnv ∅ ∅

/-- A command arrives and is handled. -/
def ask (command : RegistryCommand) : List RegistryLabel :=
  [.request command, .handle registryEnv]

def createSession (sessionId : ℕ) : List RegistryLabel :=
  ask (.createSession {}) ++ [.start sessionId]

/-- A running session is deleted: its thread handles the cancel and the shutdown and ends. -/
def deleteRunning (sessionId : ℕ) : List RegistryLabel :=
  [.request (.deleteSession sessionId), .handle registryEnv, .handle registryEnv,
    .session sessionId (.process env), .session sessionId (.process env)]

end Sample

namespace Registry

open StepSystem

/-- A running session is deleted, its thread writes its record once more on the way out, and the
process dies before the background deletion starts. -/
theorem deleted_of_run_crash :
    ∃ r, run (step Sample.setup) (Sample.createSession 1 ++ Sample.deleteRunning 1 ++
        [.reboot Sample.startEnv]) Sample.registry = some r ∧
      r.sessionMetadata[1]? = none ∧
      (∀ env, ∃ error, (r.handleAttachSession env 1).2 = .error error) ∧
      (r.slot 1).store = {} ∧ (r.slot 1).kv = ∅ := by
  obtain ⟨r, hrun⟩ := Option.isSome_iff_exists.1 (by decide :
    (run (step Sample.setup) (Sample.createSession 1 ++ Sample.deleteRunning 1 ++
      [.reboot Sample.startEnv]) Sample.registry).isSome = true)
  have hany : ∀ P : Registry → Bool, (run (step Sample.setup) (Sample.createSession 1 ++
      Sample.deleteRunning 1 ++ [.reboot Sample.startEnv]) Sample.registry).any P = true →
      P r = true := by
    intro P hP
    rw [hrun] at hP
    exact hP
  obtain ⟨hindex, hattach, hrows⟩ := deleted_of_run rfl ∅ ∅ true 1 (by decide) hrun
    (hany (announcedDeleted 1) (by decide))
  obtain ⟨hstore, hkv⟩ := hrows (Or.inl (by
    simpa using hany (fun r => !r.deletedSessions.contains 1) (by decide)))
  exact ⟨r, hrun, hindex, hattach, hstore, hkv (by decide)⟩

end Registry

end Choreo
