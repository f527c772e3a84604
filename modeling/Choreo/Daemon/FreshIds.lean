import Choreo.Daemon.Deletion

/-!
# New sessions start empty

A start of the daemon takes the id after the highest stored session as the next one, so the id of a
deleted session can be given out again. The new session then starts with whatever rows are left
under that id: a tool thread that outlives its deleted session can leave a key-value row behind, and
the new session inherits it. As long as no tool thread does so and the database can be written, new
sessions start empty.
-/

namespace Choreo

open List Option

namespace Lifecycle

/-- Nothing under way and nothing stored. -/
def isBlank (v : Lifecycle) : Bool :=
  v.isIdle && !v.record && !v.content && !v.kv && !v.tombstone

/-- A session id without anything stays so until it is given out, or a row is added. -/
theorem blank_step {v v' : Lifecycle} {event : LifecycleEvent} (hblank : v.isBlank = true)
    (hcreate : ∀ recordOk, event ≠ .create recordOk) (hkv : event ≠ .kvWrite true)
    (hstep : v.step event = some v') : v'.isBlank = true := by
  simp only [isBlank, Bool.and_eq_true, Bool.not_eq_true'] at hblank
  obtain ⟨⟨⟨⟨hidle, hrecord⟩, hcontent⟩, hkv'⟩, htombstone⟩ := hblank
  obtain ⟨hidle', hrecord'⟩ := unused_step hidle hrecord hcreate hstep
  simp only [isIdle, Bool.and_eq_true, Bool.not_eq_true', List.isEmpty_iff,
    isNone_iff_eq_none] at hidle
  obtain ⟨⟨⟨⟨hlive, hmail⟩, hactive⟩, -⟩, hfinalizer⟩ := hidle
  have hrows : v'.content = false ∧ v'.kv = false ∧ v'.tombstone = false := by
    cases event with
    | create recordOk => exact absurd rfl (hcreate recordOk)
    | kvWrite kv =>
      cases hstep
      cases kv with
      | false => exact ⟨hcontent, rfl, htombstone⟩
      | true => exact absurd rfl hkv
    | deleteStored deleteOk clearOk =>
      simp only [step, hactive, Bool.false_eq_true, if_false] at hstep
      cases deleteOk <;> obtain rfl := some.inj hstep <;> simp [deleteRows, forget, *]
    | reboot sweeps clears reads =>
      cases hstep
      simp [reboot, htombstone, hcontent, hkv']
    | attach | work | deleteRunning | deleteFinished =>
      simp [step, hrecord, hlive, hactive] at hstep
    | receive => simp [step, receive, hmail] at hstep
    | finalize => simp [step, finalize, hfinalizer] at hstep
  simp [isBlank, hidle', hrecord', hrows]

/-- A tombstone is that of a deleted session, if it is written at the deletion of a running session
only, and an id is given out without one. -/
theorem buried_step {v v' : Lifecycle} {event : LifecycleEvent}
    (hburied : v.tombstone = true → v.gone = true)
    (hcreate : ∀ recordOk, event = .create recordOk → v.tombstone = false)
    (hstep : v.step event = some v') (htombstone : v'.tombstone = true) : v'.gone = true := by
  cases event with
  | create recordOk =>
    simp only [step, ite_none_right_eq_some] at hstep
    obtain rfl := some.inj hstep.2
    exact absurd ((hcreate recordOk rfl).symm.trans htombstone) (by simp)
  | attach | work =>
    simp only [step, ite_none_right_eq_some] at hstep
    obtain rfl := some.inj hstep.2
    exact hburied htombstone
  | kvWrite kv =>
    cases hstep
    exact hburied htombstone
  | receive =>
    simp only [step, receive] at hstep
    split at hstep <;> cases hstep <;> exact hburied htombstone
  | deleteRunning tombstoneOk =>
    simp only [step, ite_none_right_eq_some] at hstep
    obtain rfl := some.inj hstep.2
    rfl
  | deleteFinished deleteOk clearOk =>
    simp only [step, ite_none_right_eq_some] at hstep
    cases deleteOk <;> obtain rfl := some.inj hstep.2
    · exact hburied htombstone
    · rfl
  | deleteStored deleteOk clearOk =>
    simp only [step, ite_none_left_eq_some] at hstep
    cases deleteOk <;> obtain rfl := some.inj hstep.2
    · exact hburied htombstone
    · rfl
  | finalize ok =>
    simp only [step, finalize] at hstep
    split at hstep
    · cases hstep
    · cases ok <;> obtain rfl := some.inj hstep <;> exact hburied htombstone
    · cases hstep
      exact hburied (by simp_all)
    · cases hstep
      exact hburied htombstone
  | reboot sweeps clears reads =>
    cases hstep
    have hold : v.tombstone = true := by
      cases hv : v.tombstone with
      | true => rfl
      | false => simp [reboot, hv] at htombstone
    have hgone := hburied hold
    cases sweeps <;> simp [reboot, hold, deleteRows, hgone]

end Lifecycle

/-- The writes of a step that the rows of sessions depend on succeed: records and tombstones are
written, and a start of the daemon reads the sessions and sweeps every tombstone. -/
def RegistryLabel.Writes : RegistryLabel → Prop
  | .handle env => env.writeOk = true ∧ ∀ id, env.tombstoneOk id = true
  | .reboot env => env.sessionsOk = true ∧ ∀ id, env.sweeps id = true ∧ env.clearOk id = true
  | _ => True

namespace Registry

open StepSystem

/-- A session created now has no turns, attachments or key-value rows, and no tombstone. -/
def StartsEmpty (r : Registry) : Prop :=
  ∀ env session,
    ((r.handleCreateSession env session).slot r.nextSessionId).store.turns = ∅ ∧
    ((r.handleCreateSession env session).slot r.nextSessionId).store.attachments = ∅ ∧
    ((r.handleCreateSession env session).slot r.nextSessionId).kv = ∅ ∧
    (r.handleCreateSession env session).tombstones[r.nextSessionId]? = none

/-- A tool thread adds a row only while the record or the tombstone of its session is there, and not
between the two last actions of a background deletion. -/
def RowsBacked (label : RegistryLabel) (r : Registry) : Prop :=
  match label with
  | .kvSet id _ _ =>
    ((r.slot id).store.record.isSome = true ∨ r.tombstones[id]?.isSome = true) ∧
      r.finalizers[id]? ≠ some .clearTombstone
  | _ => True

instance (label : RegistryLabel) (r : Registry) : Decidable (RowsBacked label r) :=
  match label with
  | .kvSet .. => inferInstanceAs (Decidable ((_ ∨ _) ∧ _))
  | .request _ | .handle _ | .start _ | .session .. | .startTool _ | .kvDelete .. | .endTool _
  | .finalize .. | .reboot _ => isTrue trivial

/-- The invariant of runs that meet the condition: rows are backed, ids that were not given out have
nothing, tool threads belong to sessions that were, and a tombstone belongs to a deleted session. -/
structure Tidy (r : Registry) : Prop where
  sound : r.Invariant
  backed : ∀ id, (r.view id).Backed
  blank : ∀ id, r.nextSessionId ≤ id → (r.view id).isBlank = true
  tools : ∀ id ∈ r.toolThreads, id < r.nextSessionId
  buried : ∀ id, (r.view id).tombstone = true → (r.view id).gone = true

section Runs

variable {setup : AgentSetup} {label : RegistryLabel} {r r' : Registry}

theorem mem_toolThreads_of_step (hstep : r.step setup label = some r') {id : ℕ}
    (hid : id ∈ r'.toolThreads) : id ∈ r.toolThreads ∨ label = .startTool id := by
  cases label with
  | handle env =>
    obtain ⟨command, queue, hqueue, rfl⟩ := step_handle_cases hstep
    by_cases hcreate : ∃ session, command = .createSession session
    · obtain ⟨session, rfl⟩ := hcreate
      exact Or.inl
        ((handleCreateSession_keeps env session { r with queue := queue }).tools ▸ hid)
    · have hkeeps := Keeps.handleCommand setup env (fun session hc => hcreate ⟨session, hc⟩)
        { r with queue := queue }
      exact Or.inl (hkeeps.tools ▸ hid)
  | request | kvSet | kvDelete =>
    simp only [step, ite_none_right_eq_some] at hstep
    obtain rfl := some.inj hstep.2
    exact Or.inl hid
  | start sessionId =>
    obtain ⟨s, -, rfl⟩ := map_eq_some_iff.1 hstep
    exact Or.inl hid
  | session sessionId slabel =>
    obtain ⟨-, -, system, -, rfl⟩ := threadStep_cases hstep
    exact Or.inl hid
  | startTool sessionId =>
    simp only [step, ite_none_right_eq_some] at hstep
    obtain rfl := some.inj hstep.2
    obtain rfl | hold := mem_cons.1 hid
    · exact Or.inr rfl
    · exact Or.inl hold
  | endTool sessionId =>
    simp only [step, ite_none_right_eq_some] at hstep
    obtain rfl := some.inj hstep.2
    exact Or.inl (mem_of_mem_erase hid)
  | finalize sessionId ok =>
    obtain ⟨phase, -, rfl⟩ := map_eq_some_iff.1 hstep
    cases phase with
    | deleteSession => cases ok <;> exact Or.inl hid
    | clearTombstone | report => exact Or.inl hid
  | reboot env =>
    cases hstep
    cases hid

theorem lt_of_startTool (h : r.Invariant) {id : ℕ}
    (hstep : r.step setup (.startTool id) = some r') : id < r.nextSessionId := by
  simp only [step, ite_none_right_eq_some] at hstep
  obtain ⟨w, hworker, -⟩ := (Option.any_eq_true _ _).1 hstep.1
  have hlive := (h.slots id).system.live_of_worker hworker
  by_contra hle
  have hidle := (h.fresh id (not_lt.1 hle)).1
  simp only [Lifecycle.isIdle, Bool.and_eq_true, Bool.not_eq_true'] at hidle
  exact absurd (hidle.1.1.1.1.symm.trans hlive) (by simp)

namespace Tidy

/-- A new session of a tidy daemon starts empty. -/
theorem startsEmpty (h : r.Tidy) : r.StartsEmpty := by
  intro env session
  have hblank := h.blank _ le_rfl
  simp only [Lifecycle.isBlank, Bool.and_eq_true, Bool.not_eq_true'] at hblank
  obtain ⟨⟨⟨-, hcontent⟩, hkv⟩, htombstone⟩ := hblank
  have hview := view_handleCreateSession env session r.nextSessionId r
  rw [if_pos rfl] at hview
  have hcontent' := (congrArg Lifecycle.content hview).trans hcontent
  have hkv' := (congrArg Lifecycle.kv hview).trans hkv
  have htombstone' := (congrArg Lifecycle.tombstone hview).trans htombstone
  simp only [view, Slot.onto, Bool.not_eq_false', Bool.and_eq_true,
    Std.ExtTreeMap.isEmpty_iff] at hcontent' hkv'
  simp only [view, Slot.onto, isSome_eq_false_iff, isNone_iff_eq_none] at htombstone'
  exact ⟨hcontent'.1, hcontent'.2, hkv', htombstone'⟩

theorem step_tools (h : r.Tidy) (hstep : r.step setup label = some r') :
    ∀ id ∈ r'.toolThreads, id < r'.nextSessionId := by
  intro id hid
  by_cases hlabel : ∃ env, label = .reboot env
  · obtain ⟨env, rfl⟩ := hlabel
    cases hstep
    cases hid
  · have hlt : id < r.nextSessionId := by
      obtain hold | rfl := mem_toolThreads_of_step hstep hid
      · exact h.tools id hold
      · exact lt_of_startTool h.sound hstep
    have hnext := step_nextSessionId (fun env henv => hlabel ⟨env, henv⟩) hstep
    split_ifs at hnext <;> omega

/-- Ids that are not given out have nothing after a step either. -/
theorem step_blank (h : r.Tidy) (hwrites : label.Writes)
    (hbacked' : ∀ id, (r'.view id).Backed) (hstep : r.step setup label = some r') {id : ℕ}
    (hid : r'.nextSessionId ≤ id) : (r'.view id).isBlank = true := by
  by_cases hlabel : ∃ env, label = .reboot env
  · obtain ⟨env, rfl⟩ := hlabel
    cases hstep
    obtain ⟨hreads, hsweeps⟩ := hwrites
    obtain ⟨hidle, hrecord⟩ := startUp_fresh hreads hid
    have htombstone : ((startUp env r.slots r.tombstones r.log).view id).tombstone = false := by
      rw [view_startUp]
      simp [Lifecycle.reboot, hsweeps id]
    have hrows : ¬ (((startUp env r.slots r.tombstones r.log).view id).content = true ∨
        ((startUp env r.slots r.tombstones r.log).view id).kv = true) := by
      intro hor
      have hback := (hbacked' id).rows hor
      rw [hrecord, htombstone] at hback
      simp at hback
    rw [not_or, Bool.not_eq_true, Bool.not_eq_true] at hrows
    simp [Lifecycle.isBlank, hidle, hrecord, htombstone, hrows]
  · obtain ⟨hid', hcreate⟩ := unused_of_step (fun env henv => hlabel ⟨env, henv⟩) hstep hid
    refine (step_view h.sound hstep id).preserves (J := fun v => v.isBlank = true)
      (fun v event v' hv hpermits hstep' => ?_) (h.blank id hid')
    refine Lifecycle.blank_step hv (fun recordOk hevent => ?_) (fun hevent => ?_) hstep'
    · subst hevent
      exact hcreate v recordOk hpermits
    · subst hevent
      obtain ⟨rfl, ⟨key, value, rfl⟩ | ⟨key, -, hold⟩⟩ := hpermits
      · simp only [Registry.step, ite_none_right_eq_some] at hstep
        exact absurd (h.tools id hstep.1) (not_lt.2 hid')
      · simp [Lifecycle.isBlank, hold rfl] at hv

/-- A step that meets the condition keeps the daemon tidy. -/
theorem step (h : r.Tidy) (hwrites : label.Writes) (hbacked : RowsBacked label r)
    (hstep : r.step setup label = some r') : r'.Tidy := by
  have hreads : label.readsSessions = true := by
    cases label with
    | reboot env => exact hwrites.1
    | _ => rfl
  -- Every permitted event keeps the rows of a session backed.
  have hbacks : ∀ id v event, v.Backed → r.Permits id label v event → v.Backs event := by
    intro id v event hv hpermits
    cases event with
    | create recordOk =>
      obtain ⟨-, -, -, env, rfl, rfl⟩ := hpermits
      exact hwrites.1
    | deleteRunning tombstoneOk =>
      obtain ⟨env, rfl, rfl⟩ := hpermits
      exact hwrites.2 id
    | kvWrite kv =>
      obtain ⟨rfl, ⟨key, value, rfl⟩ | ⟨key, -, hold⟩⟩ := hpermits
      · exact fun _ => Or.inr hbacked
      · exact fun hkv => Or.inl (hold hkv)
    | attach | work | receive | deleteFinished | deleteStored | finalize | reboot => trivial
  have hview := step_view h.sound hstep
  have hbacked' : ∀ id, (r'.view id).Backed := fun id =>
    (hview id).preserves (fun v event v' hv hpermits hstep' =>
      hv.step (hbacks id v event hv hpermits) hstep') (h.backed id)
  refine ⟨step_invariant h.sound hreads hstep, hbacked',
    fun id hid => h.step_blank hwrites hbacked' hstep hid, h.step_tools hstep, fun id => ?_⟩
  refine (hview id).preserves (J := fun v => v.tombstone = true → v.gone = true)
    (fun v event v' hv hpermits hstep' => ?_) (h.buried id)
  refine Lifecycle.buried_step hv (fun recordOk hevent => ?_) hstep'
  subst hevent
  obtain ⟨rfl, -, rfl, -⟩ := hpermits
  have hblank := h.blank _ le_rfl
  simp only [Lifecycle.isBlank, Bool.and_eq_true, Bool.not_eq_true'] at hblank
  exact hblank.2

theorem boot {env : StartEnv} (henv : env.sessionsOk = true) : (boot env ∅ ∅).Tidy := by
  have hview : ∀ id, (Registry.boot env ∅ ∅).view id = {} := by
    intro id
    have hempty : ({} : Registry).view id = {} := by
      simp [view, slot, Slot.onto, Slot.store, System.init, announcedDeleted]
    have hstart := view_startUp (r := {}) env id
    rw [hempty] at hstart
    exact hstart.trans (by simp [Lifecycle.reboot])
  refine ⟨boot_invariant henv ∅ ∅, fun id => ?_, fun id _ => ?_, fun id hid => ?_, fun id => ?_⟩
  · rw [hview]
    exact ⟨.idle rfl rfl rfl rfl rfl, by simp, by simp, by simp, by simp⟩
  · rw [hview]
    rfl
  · cases hid
  · rw [hview]
    simp

end Tidy

/-- New sessions start empty. In every history of a daemon that started on an empty database, with
creations, deletions, tool threads and restarts, in which the database can be written and tool
threads add rows only to sessions that are still there: a session that is created has no turns,
attachments or key-value rows, and only deleted sessions have a tombstone. -/
theorem startsEmpty_of_run {env : StartEnv} (henv : env.sessionsOk = true)
    {labels : List RegistryLabel} (hwrites : ∀ label ∈ labels, label.Writes)
    (hbacked : Along (step setup) RowsBacked labels (boot env ∅ ∅))
    (hrun : run (step setup) labels (boot env ∅ ∅) = some r) :
    r.StartsEmpty ∧ ∀ id, r.announcedDeleted id = false → r.tombstones[id]? = none := by
  have htidy : r.Tidy := invariant_of_along
    (fun label r r' hlabel h hstep => h.step hlabel.1 hlabel.2 hstep) (Tidy.boot henv)
    (hbacked.and_labels hwrites) hrun
  refine ⟨htidy.startsEmpty, fun id hid => ?_⟩
  rw [← isNone_iff_eq_none, ← not_isSome, Bool.not_eq_true']
  by_contra htombstone
  have hgone : r.announcedDeleted id = true :=
    htidy.buried id (Bool.not_eq_false _ ▸ htombstone)
  exact absurd (hid.symm.trans hgone) (by simp)

end Runs

end Registry

namespace Sample

/-- Steps of a session. -/
def within (sessionId : ℕ) (labels : List SystemLabel) : List RegistryLabel :=
  labels.map (.session sessionId)

/-- A session runs a request whose reply calls a tool, and the tool thread starts. -/
def toolRunning : List RegistryLabel :=
  ask (.createSession { selectedModel := some "small", accountName := some "work" }) ++
    [RegistryLabel.start 1] ++
    within 1 (post (.runInput 7 "hi") ++ call ++
      [SystemLabel.work (.reply (.toolUse
        { toolCalls := [{ id := "a", name := "db_set", argumentsJson := "", caller := none }]
          responseId := none })),
        .work .flush, .work .flush, .work (.tool .serialNext), .work .flush, .work .flush] ++
      drain 7) ++
    List.replicate 4 (RegistryLabel.handle registryEnv) ++ [RegistryLabel.startTool 1]

/-- The session is deleted: its worker gives the tool up, its thread ends, and the background
deletion runs to its end. -/
def deleteDuringTool : List RegistryLabel :=
  ask (.deleteSession 1) ++
    within 1 (drain 2 ++
      [SystemLabel.work (.tool .collectCancel), .work (.tool .endEmptying),
        .work (.tool (.wake 0 .stop none)), .work (.tool (.collect files)), .work .flush,
        .work .flush, .work (.tool (.endBatch files)), .work .flush, .work .leaveTools,
        .work .conclude, .work .finish] ++ drain 4) ++
    List.replicate 3 (RegistryLabel.handle registryEnv) ++
    [RegistryLabel.finalize 1 true, .finalize 1 true, .finalize 1 true, .handle registryEnv]

end Sample

namespace Registry

open StepSystem

/-- The row that a tool thread wrote while its session ran is gone after the deletion. -/
theorem startsEmpty_of_run_toolRow :
    ∃ r, run (step Sample.setup) (Sample.toolRunning ++ [.kvSet 1 "k" [1]] ++
        Sample.deleteDuringTool ++ [.reboot Sample.startEnv]) Sample.registry = some r ∧
      r.nextSessionId = 1 ∧ r.StartsEmpty := by
  obtain ⟨r, hrun⟩ := isSome_iff_exists.1 (by decide :
    (run (step Sample.setup) (Sample.toolRunning ++ [.kvSet 1 "k" [1]] ++
      Sample.deleteDuringTool ++ [.reboot Sample.startEnv]) Sample.registry).isSome = true)
  have hnext : (run (step Sample.setup) (Sample.toolRunning ++ [.kvSet 1 "k" [1]] ++
      Sample.deleteDuringTool ++ [.reboot Sample.startEnv]) Sample.registry).map nextSessionId =
      some 1 := by decide +kernel
  rw [hrun] at hnext
  refine ⟨r, hrun, some.inj hnext,
    (startsEmpty_of_run rfl ?_ (by decide) hrun).1⟩
  simp only [Sample.toolRunning, Sample.deleteDuringTool, Sample.within, Sample.ask,
    forall_mem_append, forall_mem_cons, List.forall_mem_map, mem_replicate,
    RegistryLabel.Writes]
  simp [Sample.startEnv, Sample.registryEnv, StartEnv.sweeps]

/-- A tool thread that outlives its session adds a row after the deletion. The next start of the
daemon gives the id out again, and the new session finds the row. -/
theorem not_startsEmpty_lateRow :
    ∃ r, run (step Sample.setup) (Sample.toolRunning ++ Sample.deleteDuringTool ++
        [.kvSet 1 "k" [1], .reboot Sample.startEnv]) Sample.registry = some r ∧
      r.nextSessionId = 1 ∧ r.announcedDeleted 1 = true ∧
      ((r.handleCreateSession Sample.registryEnv {}).slot 1).kv["k"]? = some [1] ∧
      ¬ r.StartsEmpty := by
  have hany : (run (step Sample.setup) (Sample.toolRunning ++ Sample.deleteDuringTool ++
      [.kvSet 1 "k" [1], .reboot Sample.startEnv]) Sample.registry).any (fun r =>
      decide (r.nextSessionId = 1 ∧ r.announcedDeleted 1 = true ∧
        ((r.handleCreateSession Sample.registryEnv {}).slot 1).kv["k"]? = some [1])) = true := by
    decide +kernel
  obtain ⟨r, hrun, hr⟩ := (Option.any_eq_true _ _).1 hany
  obtain ⟨hnext, hdeleted, hrow⟩ := of_decide_eq_true hr
  refine ⟨r, hrun, hnext, hdeleted, hrow, fun hempty => ?_⟩
  have hkv := (hempty Sample.registryEnv {}).2.2.1
  rw [hnext] at hkv
  rw [hkv] at hrow
  simp at hrow

end Registry

end Choreo
