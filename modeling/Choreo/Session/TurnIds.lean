import Choreo.Session.Requests
import Choreo.Session.Restart

/-!
# Turn ids are never reused

The next turn id is computed in three ways: a worker counts the turns of its snapshot, a start takes
the largest id that was read, and the end of a request takes the largest id of the snapshot that is
handed back. They agree as long as the turn ids in memory are contiguous and the store has no turn
that memory lacks. A start that skips rows breaks that, and so does a worker that panics after it
wrote its last turn.
-/

namespace Choreo

open List Option

open Std.ExtTreeMap (Contiguous contiguous_size contiguous_of_forall_lt)

theorem Ownership.contiguous {base : SessionSnapshot} {s : SessionState} (h : Ownership base s)
    {n : ℕ} (hbase : base.turns.Contiguous n) : s.turns.Contiguous s.nextTurnId := by
  have hsize := contiguous_size hbase
  have hle := h.size_le
  intro k
  by_cases howns : Owns base s k
  · obtain ⟨turn, hturn, -⟩ := h.inside k howns
    rw [hturn]
    exact ⟨fun _ => howns.2, fun _ => rfl⟩
  · rw [h.outside k howns, hbase k]
    unfold Owns at howns
    omega

namespace Worker

variable (w : Worker)

/-- Whether the next thing the worker does with turns is to start one. -/
def aboutToStart : Bool :=
  match w.pc with
  | .start | .top => true
  | _ => false

/-- Whether the worker has written its last turn and has not left the agent loop yet. -/
def hasPersisted : Bool :=
  match w.pc with
  | .persisted _ _ => true
  | _ => false

/-- The ids of the turns that a worker will not lose: the turn it just wrote, or those of the
snapshot it hands back. -/
def Covers (k : ℕ) : Prop :=
  match w.pc with
  | .persisted turnId _ => k = turnId
  | .returned _ snapshot => snapshot.turns[k]?.isSome = true
  | .concluding _ snapshot => snapshot.turns[k]?.isSome = true
  | _ => False

variable {setup : AgentSetup} {cancelPending : Bool} {label : WorkerLabel} {store : Store}
  {w w' : Worker} {effect : WorkerEffect}

def BeforeFirstCall : Prop :=
  w.turnIter = 0 → w.aboutToStart = true → w.session.nextTurnId = w.initialSnapshot.turns.size

theorem step_beforeFirstCall (hw : w.BeforeFirstCall)
    (h : w.step setup cancelPending label store = some effect) (hw' : effect.worker = some w') :
    w'.BeforeFirstCall := by
  intro hiter hstart
  cases step_move h with
  | flush command outbox hout =>
    cases hw'
    exact hw hiter hstart
  | enterLoop catalog skills hout hpc =>
    cases hw'
    exact hw hiter (by rw [aboutToStart, hpc])
  | nextIteration phase hout hpc hstage hcancelled =>
    cases hw'
    cases hiter
  | finish outcome snapshot hout hpc => cases hw'
  | _ =>
    cases hw'
    cases hstart

theorem step_covers (hw : w.Invariant)
    (h : w.step setup cancelPending label store = some effect) (hw' : effect.worker = some w')
    (hpanic : label = .panic → w.hasPersisted = false) (k : ℕ) :
    (effect.store.turns[k]?.isSome = true → store.turns[k]?.isSome = true ∨ w'.Covers k) ∧
      (w.Covers k → w'.Covers k) := by
  cases step_move h with
  | panic hloop =>
    cases hw'
    refine ⟨Or.inl, fun hcovers => ?_⟩
    unfold Covers at hcovers
    unfold inAgentLoop at hloop
    cases hpc : w.pc with
    | persisted t o =>
      have hfalse := hpanic rfl
      rw [hasPersisted, hpc] at hfalse
      cases hfalse
    | returned o snapshot | concluding o snapshot =>
      rw [hpc] at hloop
      cases hloop
    | _ =>
      rw [hpc] at hcovers
      exact absurd hcovers id
  | flush command outbox hout =>
    cases hw'
    exact ⟨Or.inl, id⟩
  | write turnId outcome turn hout hpc hturn =>
    cases hw'
    refine ⟨fun hrow => ?_, fun hcovers => ?_⟩
    · change (store.turns.insert turnId _)[k]?.isSome = true at hrow
      rw [Std.ExtTreeMap.get_insert] at hrow
      split_ifs at hrow with hk
      · exact Or.inr hk
      · exact Or.inl hrow
    · unfold Covers at hcovers
      rw [hpc] at hcovers
      exact absurd hcovers id
  | leaveLoop turnId outcome hout hpc =>
    cases hw'
    refine ⟨Or.inl, fun hcovers => ?_⟩
    unfold Covers at hcovers
    rw [hpc] at hcovers
    obtain ⟨turn, hturn, -⟩ := hw.session.inside turnId
      (hw.owns_current (by rw [hpc]; rfl))
    change w.session.turns[k]?.isSome = true
    rw [show k = turnId from hcovers, hturn]
    rfl
  | conclude outcome snapshot hout hpc =>
    cases hw'
    refine ⟨Or.inl, fun hcovers => ?_⟩
    unfold Covers at hcovers
    rw [hpc] at hcovers
    exact hcovers
  | finish outcome snapshot hout hpc => cases hw'
  | _ =>
    cases hw'
    refine ⟨Or.inl, fun hcovers => ?_⟩
    unfold Covers at hcovers
    simp only [*] at hcovers

end Worker

namespace System

def HasTurn (s : System) (k : ℕ) : Prop :=
  s.loop.state.turns[k]?.isSome = true ∨ s.loop.store.turns[k]?.isSome = true ∨
    ∃ w, s.worker = some w ∧ w.session.turns[k]?.isSome = true

/-- A turn that is about to be started gets an id above all others. The first turn of a request gets
the next turn id of the session, with which the request was announced. -/
def IdsFresh (s : System) : Prop :=
  ∀ w, s.worker = some w → w.aboutToStart = true →
    (∀ k, s.HasTurn k → k < w.session.nextTurnId) ∧
    (w.turnIter = 0 → w.session.nextTurnId = s.loop.state.nextTurnId ∧
      ∃ recipients,
        .broadcast (.started w.requestId w.session.nextTurnId 0) recipients ∈ s.loop.log)

/-- The condition on a step: a start finds the rows `0, …, n - 1` and reads all of them, and a worker
does not panic after it wrote its last turn. -/
def IdSafe (label : SystemLabel) (s : System) : Prop :=
  match label with
  | .restart boot => ∀ k < s.loop.store.turns.size,
      boot.readOk = true ∧ (s.loop.store.readTurn k).isSome = true
  | .work .panic => ∀ w ∈ s.worker, w.hasPersisted = false
  | _ => True

instance (label : SystemLabel) (s : System) : Decidable (IdSafe label s) :=
  match label with
  | .restart boot => inferInstanceAs (Decidable (∀ k < s.loop.store.turns.size,
      boot.readOk = true ∧ (s.loop.store.readTurn k).isSome = true))
  | .work .panic => inferInstanceAs (Decidable (∀ w ∈ s.worker, w.hasPersisted = false))
  | .work .flush | .work (.enterLoop ..) | .work (.startCall ..) | .work (.reply ..)
  | .work (.tool ..) | .work .leaveTools | .work (.finalize ..) | .work .leaveLoop
  | .work .conclude | .work .finish | .send _ | .process _ => .isTrue trivial

/-- What holds while the thread runs: the ids in memory are contiguous, every row belongs to a turn
that is in memory or will be, and the request in flight continues these ids. -/
structure IdInvariant (s : System) : Prop where
  memory : s.loop.state.turns.Contiguous s.loop.state.nextTurnId
  rows : ∀ k : ℕ, s.loop.store.turns[k]?.isSome = true →
    k < s.loop.state.nextTurnId ∨ (∃ w, s.worker = some w ∧ w.Covers k) ∨
      ∃ requestId snapshot, .requestFinished requestId snapshot ∈ s.queue ∧
        snapshot.turns[k]?.isSome = true
  worker : ∀ w, s.worker = some w →
    w.initialSnapshot.turns.Contiguous s.loop.state.nextTurnId ∧ w.BeforeFirstCall ∧
      ∃ recipients,
        .broadcast (.started w.requestId s.loop.state.nextTurnId 0) recipients ∈ s.loop.log
  finished : ∀ requestId snapshot, .requestFinished requestId snapshot ∈ s.queue →
    ∃ n, s.loop.state.nextTurnId ≤ n ∧ snapshot.turns.Contiguous n

variable {setup : AgentSetup} {label : SystemLabel} {s s' : System}

theorem IdInvariant.idsFresh (hs : s.Invariant) (h : s.IdInvariant) : s.IdsFresh := by
  intro w hworker hstart
  have hw := hs.worker w hworker
  obtain ⟨hbase, hfirst, hannounced⟩ := h.worker w hworker
  have hsize := contiguous_size hbase
  have hle := hw.session.size_le
  refine ⟨fun k hk => ?_, fun hiter => ?_⟩
  · rcases hk with hmem | hrow | ⟨w', hworker', hown⟩
    · have hlt := (h.memory k).1 hmem
      omega
    · rcases h.rows k hrow with hlt | ⟨w', hworker', hcovers⟩ | ⟨requestId, snapshot, hfin, -⟩
      · omega
      · cases hworker.symm.trans hworker'
        unfold Worker.Covers at hcovers
        unfold Worker.aboutToStart at hstart
        split at hcovers <;> simp_all only [Bool.false_eq_true]
      · have hnil := hs.finished_of_worker hworker
        have hnone := filterMap_eq_nil_iff.1 hnil _ hfin
        cases hnone
    · cases hworker.symm.trans hworker'
      exact ((hw.session.contiguous hbase) k).1 hown
  · have hnext := hfirst hiter hstart
    rw [hsize] at hnext
    rw [hnext]
    exact ⟨rfl, hannounced⟩

variable {queue : List SessionCommand} {env : CommandEnv}

/-- A command that does not end a request. -/
theorem continued_idInvariant (hs : s.Invariant) (h : s.IdInvariant)
    {command : SessionCommand} (hqueue : s.queue = command :: queue)
    (hfin : command.finishedId = none) : (s.continued env command queue).IdInvariant := by
  have hne : ∀ requestId snapshot, command ≠ .requestFinished requestId snapshot := by
    rintro requestId snapshot rfl
    cases hfin
  obtain ⟨hnext, hids⟩ := Loop.processCommand_ids env command s.loop.clearSpawned hne
  have hsuffix := Loop.processCommand_log env command s.loop.clearSpawned
  set l' := (s.loop.clearSpawned.processCommand env command).1 with hl'
  have hmem : l'.state.turns.Contiguous l'.state.nextTurnId := by
    rw [hnext]
    exact h.memory.congr fun k => (hids k).1
  have hworker := continued_worker hs env command queue
  refine ⟨hmem, fun k hk => ?_, fun w hw => ?_, fun requestId snapshot hmem => ?_⟩
  · change l'.store.turns[k]?.isSome = true at hk
    change k < l'.state.nextTurnId ∨ _
    rw [hnext]
    rcases (hids k).2 hk with hrow | hturn
    · rcases h.rows k hrow with hlt | ⟨w, hw, hcovers⟩ | ⟨requestId, snapshot, hfin', hsome⟩
      · exact Or.inl hlt
      · rcases hworker with hsame | ⟨requestId, args, -, hnone, -⟩
        · exact Or.inr (Or.inl ⟨w, hsame.trans hw, hcovers⟩)
        · cases hnone.symm.trans hw
      · refine Or.inr (Or.inr ⟨requestId, snapshot, ?_, hsome⟩)
        rw [hqueue] at hfin'
        rcases mem_cons.1 hfin' with heq | hmem
        · exact absurd heq.symm (hne requestId snapshot)
        · exact hmem
    · exact Or.inl ((h.memory k).1 hturn)
  · change w.initialSnapshot.turns.Contiguous l'.state.nextTurnId ∧ _ ∧ ∃ recipients,
      .broadcast (.started w.requestId l'.state.nextTurnId 0) recipients ∈ l'.log
    rcases hworker with hsame | ⟨requestId, args, haccepts, -, hspawn⟩
    · rw [hnext]
      obtain ⟨hbase, hfirst, recipients, hann⟩ := h.worker w (hsame.symm.trans hw)
      exact ⟨hbase, hfirst, recipients, hsuffix.mem hann⟩
    · cases hspawn.symm.trans hw
      have hturns : (Worker.spawn args).initialSnapshot.turns = l'.state.turns := by
        change args.session.turns = _
        rw [haccepts.args_session]
        rfl
      refine ⟨hturns ▸ hmem, fun _ _ => ?_, ?_⟩
      · change args.session.nextTurnId = args.session.turns.size
        rw [haccepts.args_session]
        rfl
      · change ∃ recipients, .broadcast (.started args.requestId l'.state.nextTurnId 0)
          recipients ∈ l'.log
        rw [haccepts.args_requestId, hnext]
        exact haccepts.announced
  · change ∃ n, l'.state.nextTurnId ≤ n ∧ _
    rw [hnext]
    refine h.finished requestId snapshot ?_
    rw [hqueue]
    exact mem_cons_of_mem _ hmem

/-- The end of a request. -/
theorem continued_idInvariant_of_finished (hs : s.Invariant) (h : s.IdInvariant)
    (hlive : s.live = true) {requestId : ℕ} {snapshot : SessionSnapshot}
    (hqueue : s.queue = .requestFinished requestId snapshot :: queue) :
    (s.continued env (.requestFinished requestId snapshot) queue).IdInvariant := by
  obtain ⟨-, hnil⟩ := continued_invariant_of_finished hs hlive env hqueue
  unfold pending at hnil
  rw [append_eq_nil_iff, map_eq_nil_iff] at hnil
  obtain ⟨hnone, hrest⟩ := hnil
  have hrest' : ∀ requestId snapshot, .requestFinished requestId snapshot ∉ queue :=
    fun requestId snapshot hmem => by cases filterMap_eq_nil_iff.1 hrest _ hmem
  have hnoworker : s.worker = none := by
    rcases continued_worker hs env (.requestFinished requestId snapshot) queue with
      hsame | ⟨-, -, -, hnone', -⟩
    · rw [hsame] at hnone
      cases hw : s.worker with
      | none => rfl
      | some w =>
        rw [hw] at hnone
        cases hnone
    · exact hnone'
  obtain ⟨n, hle, hsnap⟩ := h.finished requestId snapshot (by
    rw [hqueue]
    exact mem_cons_self)
  obtain ⟨hnext, hids⟩ := Loop.requestFinished_ids env requestId snapshot s.loop.clearSpawned
  set l' := (s.loop.clearSpawned.processCommand env (.requestFinished requestId snapshot)).1
    with hl'
  have hnext' : l'.state.nextTurnId = n := by
    rw [hnext, hsnap.elim_max?]
    exact max_eq_right hle
  refine ⟨fun k => ?_, fun k hk => ?_, fun w hw => ?_, fun id snap hmem => ?_⟩
  · change l'.state.turns[k]?.isSome = true ↔ k < l'.state.nextTurnId
    have hmem : s.loop.clearSpawned.state.turns[k]?.isSome = true ↔
        k < s.loop.state.nextTurnId := h.memory k
    rw [hnext', (hids k).1, hmem, hsnap k]
    omega
  · left
    change k < l'.state.nextTurnId
    rw [hnext']
    rcases (hids k).2 hk with hrow | hsome
    · rcases h.rows k hrow with hlt | ⟨w, hw, -⟩ | ⟨id, snap, hmem, hsome⟩
      · omega
      · cases hnoworker.symm.trans hw
      · rw [hqueue] at hmem
        rcases mem_cons.1 hmem with heq | hmem
        · cases heq
          exact (hsnap k).1 hsome
        · exact absurd hmem (hrest' id snap)
    · exact (hsnap k).1 hsome
  · rw [hw] at hnone
    cases hnone
  · exact absurd hmem (hrest' id snap)

theorem processStep_idInvariant (hs : s.Invariant) (h : s.IdInvariant) (hlive : s.live = true)
    {command : SessionCommand}
    (hqueue : s.queue = command :: queue)
    (hlive' : (s.processStep env command queue).live = true) :
    (s.processStep env command queue).IdInvariant := by
  rcases s.processStep_cases env command queue with heq | ⟨-, heq⟩
  · rw [heq]
    cases hfin : command.finishedId with
    | none => exact continued_idInvariant hs h hqueue hfin
    | some id =>
      cases command with
      | requestFinished requestId snapshot =>
        exact continued_idInvariant_of_finished hs h hlive hqueue
      | _ => cases hfin
  · rw [heq] at hlive'
    cases hlive'

theorem workStep_idInvariant (hs : s.Invariant) (h : s.IdInvariant) {w : Worker}
    (hworker : s.worker = some w) {wlabel : WorkerLabel} {effect : WorkerEffect}
    (hstep : w.step setup (s.cancelPending w) wlabel s.loop.store = some effect)
    (hsafe : IdSafe (.work wlabel) s) : (s.workStep effect).IdInvariant := by
  have hw := hs.worker w hworker
  have hlive := hs.live_of_worker hworker
  have hnofin : ∀ requestId snapshot, .requestFinished requestId snapshot ∉ s.queue :=
    fun requestId snapshot hmem => by
      cases filterMap_eq_nil_iff.1 (hs.finished_of_worker hworker) _ hmem
  have hpanic : wlabel = .panic → w.hasPersisted = false := by
    rintro rfl
    exact hsafe w hworker
  obtain ⟨hbase, hfirst, recipients, hann⟩ := h.worker w hworker
  have hqueue : (s.workStep effect).queue = s.queue ++ effect.command.toList := by
    unfold workStep
    rw [hlive]
    rfl
  rcases Worker.step_shape hstep with ⟨w', hw', hid, hsnap, -, hcommand⟩ |
    ⟨outcome, snapshot, hpc, rfl⟩
  · refine ⟨h.memory, fun k hk => ?_, fun w'' hw'' => ?_, fun requestId snapshot hmem => ?_⟩
    · obtain ⟨hrow, hkept⟩ := Worker.step_covers hw hstep hw' hpanic k
      rcases hrow hk with hold | hcovers
      · rcases h.rows k hold with hlt | ⟨w₁, hw₁, hcovers⟩ | ⟨requestId, snapshot, hmem, -⟩
        · exact Or.inl hlt
        · cases hworker.symm.trans hw₁
          exact Or.inr (Or.inl ⟨w', hw', hkept hcovers⟩)
        · exact absurd hmem (hnofin requestId snapshot)
      · exact Or.inr (Or.inl ⟨w', hw', hcovers⟩)
    · cases hw'.symm.trans hw''
      refine ⟨hsnap ▸ hbase, Worker.step_beforeFirstCall hfirst hstep hw', recipients, ?_⟩
      rw [hid]
      exact mem_append_right _ hann
    · rw [hqueue] at hmem
      rcases mem_append.1 hmem with hold | hnew
      · exact absurd hold (hnofin requestId snapshot)
      · have hout := (hcommand _ (mem_toList.1 hnew)).2
        have hnone := hw.finishedId_of_mem_outbox hout
        cases hnone
  · refine ⟨h.memory, fun k hk => ?_, fun w'' hw'' => (by cases hw''), fun id snap hmem => ?_⟩
    · rcases h.rows k hk with hlt | ⟨w₁, hw₁, hcovers⟩ | ⟨requestId, snapshot, hmem, -⟩
      · exact Or.inl hlt
      · cases hworker.symm.trans hw₁
        unfold Worker.Covers at hcovers
        rw [hpc] at hcovers
        refine Or.inr (Or.inr ⟨w.requestId, snapshot, ?_, hcovers⟩)
        rw [hqueue]
        exact mem_append_right _ mem_cons_self
      · exact absurd hmem (hnofin requestId snapshot)
    · rw [hqueue] at hmem
      rcases mem_append.1 hmem with hold | hnew
      · exact absurd hold (hnofin id snap)
      · cases mem_singleton.1 hnew
        rcases hw.handedBack snapshot (by rw [hpc]; rfl) with rfl | rfl
        · exact ⟨_, le_refl _, hbase⟩
        · refine ⟨w.session.nextTurnId, ?_, hw.session.contiguous hbase⟩
          have hsize := contiguous_size hbase
          have hle := hw.session.size_le
          change s.loop.state.nextTurnId ≤ _
          omega

/-- A start that reads the rows `0, …, n - 1`. -/
theorem restart_idInvariant (boot : BootEnv) (record : SessionRecord) (store : Store)
    (log : List Output)
    (hsafe : ∀ k < store.turns.size, boot.readOk = true ∧ (store.readTurn k).isSome = true) :
    IdInvariant
      { live := true
        loop := Loop.sessionMain boot record store log
        queue := []
        worker := none } := by
  have hrow : ∀ k : ℕ, (store.readTurn k).isSome = true → store.turns[k]?.isSome = true := by
    intro k hk
    unfold Store.readTurn at hk
    cases hget : store.turns[k]? with
    | none =>
      rw [hget] at hk
      cases hk
    | some row => rfl
  have hrows : store.turns.Contiguous store.turns.size :=
    contiguous_of_forall_lt fun k hk => hrow k (hsafe k hk).2
  set l' := Loop.sessionMain boot record store log with hl'
  have hmem : l'.state.turns.Contiguous store.turns.size := by
    intro k
    rw [hl', Loop.sessionMain_turns]
    refine ⟨fun hk => (hrows k).1 ?_, fun hk => ?_⟩
    · split_ifs at hk
      · exact hrow k hk
      · cases hk
    · rw [if_pos (hsafe k hk).1]
      exact (hsafe k hk).2
  have hnext : l'.state.nextTurnId = store.turns.size := by
    refine le_antisymm ?_ (Nat.le_of_not_lt fun hlt => ?_)
    · exact Loop.sessionMain_nextTurnId_le boot record store log fun k hk => (hmem k).1 hk
    · have hlast := (hmem l'.state.nextTurnId).2 hlt
      exact lt_irrefl _ (Loop.lt_nextTurnId_sessionMain boot record store log hlast)
  refine ⟨?_, fun k hk => ?_, fun w hw => (by cases hw), fun id snap hin => ?_⟩
  · rw [← hnext] at hmem
    exact hmem
  · left
    change k < l'.state.nextTurnId
    rw [hnext]
    exact (hrows k).1 hk
  · exact absurd hin not_mem_nil

theorem step_idInvariant (hs : s.Invariant) (h : s.live = true → s.IdInvariant)
    (hsafe : IdSafe label s) (hstep : s.step setup label = some s') (hlive' : s'.live = true) :
    s'.IdInvariant := by
  rcases step_cases hstep with ⟨command, rfl, hlive, hext, rfl⟩ |
    ⟨env, command, queue, rfl, hlive, hqueue, rfl⟩ | ⟨wlabel, w, effect, rfl, hworker, hwork, rfl⟩ |
    ⟨boot, record, rfl, -, rfl⟩
  · have hI := h hlive
    have hfin : ∀ requestId snapshot, .requestFinished requestId snapshot ∈ s.queue ++ [command] →
        .requestFinished requestId snapshot ∈ s.queue := by
      intro requestId snapshot hmem
      rcases mem_append.1 hmem with hold | hnew
      · exact hold
      · cases mem_singleton.1 hnew
        cases hext
    refine ⟨hI.memory, fun k hk => ?_, hI.worker, fun id snap hmem => ?_⟩
    · rcases hI.rows k hk with hlt | hcovers | ⟨id, snap, hmem, hsome⟩
      · exact Or.inl hlt
      · exact Or.inr (Or.inl hcovers)
      · exact Or.inr (Or.inr ⟨id, snap, mem_append_left _ hmem, hsome⟩)
    · exact hI.finished id snap (hfin id snap hmem)
  · exact processStep_idInvariant hs (h hlive) hlive hqueue hlive'
  · exact workStep_idInvariant hs (h (hs.live_of_worker hworker)) hworker hwork hsafe
  · exact restart_idInvariant boot record s.loop.store s.loop.log hsafe

/-- In every state of a run whose steps are safe, turns that are about to be started get fresh
ids. -/
theorem idsFresh_of_run (setup : AgentSetup) (store : Store) (labels : List SystemLabel)
    (hsafe : StepSystem.Along (step setup) IdSafe labels (init store))
    (hrun : StepSystem.run (step setup) labels (init store) = some s) : s.IdsFresh := by
  have hboth : s.Invariant ∧ (s.live = true → s.IdInvariant) := by
    refine StepSystem.invariant_of_along
      (I := fun s : System => s.Invariant ∧ (s.live = true → s.IdInvariant))
      (fun label s s' hG hI hstep => ?_) ⟨init_invariant store, fun hlive => by cases hlive⟩
      hsafe hrun
    exact ⟨step_invariant hI.1 hstep, step_idInvariant hI.1 hI.2 hG hstep⟩
  intro w hworker
  exact (hboth.2 (hboth.1.live_of_worker hworker)).idsFresh hboth.1 w hworker

/-- A request whose worker uses a tool, up to its second model call. -/
def secondCall : List SystemLabel :=
  [.restart Sample.boot] ++ Sample.post (.runInput 1 "again") ++ Sample.call ++ Sample.useTool none

def twoTurns : Store :=
  Sample.store [{ createdAt := 0, userText := some "hi" }, { createdAt := 0, userText := some "ho" }]

/-- A worker is about to start the second turn of a request, and its id is fresh. -/
theorem idsFresh_secondCall :
    ∃ s w, StepSystem.run (step Sample.setup) secondCall (init twoTurns) = some s ∧
      s.worker = some w ∧ w.aboutToStart = true ∧ w.turnIter = 1 ∧ s.IdsFresh := by
  have hsome : (StepSystem.run (step Sample.setup) secondCall (init twoTurns)).bind
      (fun s => s.worker.map fun w => (w.aboutToStart, w.turnIter)) = some (true, 1) := by
    decide
  rw [bind_eq_some_iff] at hsome
  obtain ⟨s, hrun, hw⟩ := hsome
  rw [map_eq_some_iff] at hw
  obtain ⟨w, hworker, heq⟩ := hw
  rw [Prod.mk.injEq] at heq
  refine ⟨s, w, hrun, hworker, heq.1, heq.2, ?_⟩
  refine idsFresh_of_run Sample.setup twoTurns secondCall ?_ hrun
  decide

/-- Three stored turns, the second of which does not decode. -/
def skippedRow : Store :=
  { twoTurns with
    turns := (twoTurns.turns.insert 1 none).insert 2
      (some { createdAt := 0, userText := some "ho" }) }

/-- After a start that skipped a row, a request is announced with the id 3, but its worker is about
to start its first turn under the id 2, which memory and the store already have. -/
theorem not_idsFresh_skippedRow :
    ∃ s, StepSystem.run (step Sample.setup)
        ([.restart Sample.boot] ++ Sample.post (.runInput 1 "again")) (init skippedRow) = some s ∧
      ¬s.IdsFresh := by
  have hids : (StepSystem.run (step Sample.setup)
      ([.restart Sample.boot] ++ Sample.post (.runInput 1 "again")) (init skippedRow)).bind
      (fun s => s.worker.map fun w =>
        (w.aboutToStart, w.session.nextTurnId, s.loop.state.turns[2]?.isSome)) =
      some (true, 2, true) := by
    decide
  rw [bind_eq_some_iff] at hids
  obtain ⟨s, hrun, hw⟩ := hids
  rw [map_eq_some_iff] at hw
  obtain ⟨w, hworker, heq⟩ := hw
  simp only [Prod.mk.injEq] at heq
  obtain ⟨hstart, hnext, hmem⟩ := heq
  refine ⟨s, hrun, fun hfresh => ?_⟩
  have hlt := (hfresh w hworker hstart).1 2 (Or.inl hmem)
  rw [hnext] at hlt
  exact lt_irrefl 2 hlt

end System

end Choreo
