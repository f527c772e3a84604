import Choreo.Daemon.Registry
import Choreo.Session.Serving

/-!
# The time of the last change

A session keeps the time of its last change in its configuration, in its stored record and in the
daemon's index, and tells it to clients with its status. A change moves the time to the clock unless
the clock is behind, so that it never goes back. The end of a request moves it the same way, but
tells the clients what the clock says.
-/

namespace Choreo

open List Option

def Output.statusTime : Output → Option ℤ
  | .broadcast (.sessionStatusChanged _ lastModified) _ => some lastModified
  | _ => none

/-- The entry of a session in the daemon's index after an update from its thread. -/
def SessionMetadata.refresh (metadata : SessionMetadata) : Option SessionMetadata → SessionMetadata
  | some existing =>
    { metadata with
      lastModified := max metadata.lastModified existing.lastModified
      status := if existing.status = .sleeping then .sleeping else metadata.status }
  | none => metadata

/-- The entry of a session in the daemon's index once the daemon has handled a list of outputs of
its thread, newest first. -/
def indexed (entry : Option SessionMetadata) : List Output → Option SessionMetadata
  | [] => entry
  | .updateMetadata metadata :: log => some (metadata.refresh (indexed entry log))
  | .broadcastSessionStatus status :: log =>
    (indexed entry log).map fun metadata => { metadata with status := status }
  | _ :: log => indexed entry log

/-- The registry once it has handled what the thread of a session sent, newest first. -/
def Registry.handleOutputs (sessionId : ℕ) (log : List Output) (r : Registry) : Registry :=
  log.foldr (fun o r =>
    match o with
    | .updateMetadata metadata => r.handleUpdateMetadata sessionId metadata
    | .broadcastSessionStatus status => r.handleBroadcastSessionStatus sessionId status
    | _ => r) r

/-! ### The index -/

section Index

variable (entry : Option SessionMetadata)

/-- One more output never takes the time in the index back. -/
theorem exists_indexed_cons (o : Output) (log : List Output) {metadata : SessionMetadata}
    (h : indexed entry log = some metadata) :
    ∃ metadata', indexed entry (o :: log) = some metadata' ∧
      metadata.lastModified ≤ metadata'.lastModified := by
  cases o with
  | updateMetadata update =>
    refine ⟨update.refresh (some metadata), ?_, le_max_right _ _⟩
    rw [← h]
    rfl
  | broadcastSessionStatus status =>
    refine ⟨{ metadata with status := status }, ?_, le_refl _⟩
    change (indexed entry log).map _ = _
    rw [h]
    rfl
  | _ => exact ⟨metadata, h, le_refl _⟩

/-- The time in the index never goes back. -/
theorem exists_indexed_append (sent log : List Output) {metadata : SessionMetadata}
    (h : indexed entry log = some metadata) :
    ∃ metadata', indexed entry (sent ++ log) = some metadata' ∧
      metadata.lastModified ≤ metadata'.lastModified := by
  induction sent with
  | nil => exact ⟨metadata, h, le_refl _⟩
  | cons o sent ih =>
    obtain ⟨middle, hmiddle, hle⟩ := ih
    obtain ⟨last, hlast, hle'⟩ := exists_indexed_cons entry o (sent ++ log) hmiddle
    exact ⟨last, hlast, hle.trans hle'⟩

theorem indexed_le {log : List Output} {bound : ℤ}
    (hentry : ∀ metadata ∈ entry, metadata.lastModified ≤ bound)
    (hlog : ∀ o ∈ log, ∀ m ∈ o.modified, m ≤ bound) :
    ∀ metadata ∈ indexed entry log, metadata.lastModified ≤ bound := by
  induction log with
  | nil => exact hentry
  | cons o log ih =>
    have hrest := ih fun o ho => hlog o (mem_cons_of_mem _ ho)
    cases o with
    | updateMetadata update =>
      have hupdate : update.lastModified ≤ bound := hlog _ mem_cons_self _ rfl
      intro metadata hmetadata
      cases hmetadata
      cases hindexed : indexed entry log with
      | none => exact hupdate
      | some existing => exact max_le hupdate (hrest existing hindexed)
    | broadcastSessionStatus status =>
      intro metadata hmetadata
      obtain ⟨existing, hexisting, rfl⟩ := map_eq_some_iff.1 hmetadata
      exact hrest existing hexisting
    | _ => exact hrest

end Index

namespace Registry

variable {sessionId : ℕ} {r : Registry}

theorem get_handleUpdateMetadata (hkept : r.deletedSessions.contains sessionId = false)
    (metadata : SessionMetadata) :
    (r.handleUpdateMetadata sessionId metadata).sessionMetadata[sessionId]? =
        some (metadata.refresh r.sessionMetadata[sessionId]?) ∧
      (r.handleUpdateMetadata sessionId metadata).deletedSessions = r.deletedSessions := by
  rw [handleUpdateMetadata, hkept, if_neg Bool.false_ne_true]
  refine ⟨?_, rfl⟩
  rw [Std.ExtTreeMap.getElem?_insert_self]
  cases r.sessionMetadata[sessionId]? <;> rfl

theorem get_handleBroadcastSessionStatus (status : SessionStatus) :
    (r.handleBroadcastSessionStatus sessionId status).sessionMetadata[sessionId]? =
        r.sessionMetadata[sessionId]?.map (fun metadata => { metadata with status := status }) ∧
      (r.handleBroadcastSessionStatus sessionId status).deletedSessions = r.deletedSessions := by
  rw [handleBroadcastSessionStatus]
  cases hentry : r.sessionMetadata[sessionId]? with
  | none => exact ⟨hentry, rfl⟩
  | some metadata => exact ⟨Std.ExtTreeMap.getElem?_insert_self, rfl⟩

/-- The daemon's index of a session that is not deleted is what its handlers make of the outputs of
the session thread. -/
theorem get_handleOutputs (hkept : r.deletedSessions.contains sessionId = false)
    (log : List Output) :
    (r.handleOutputs sessionId log).sessionMetadata[sessionId]? =
        indexed r.sessionMetadata[sessionId]? log ∧
      (r.handleOutputs sessionId log).deletedSessions = r.deletedSessions := by
  induction log with
  | nil => exact ⟨rfl, rfl⟩
  | cons o log ih =>
    obtain ⟨hindexed, hdeleted⟩ := ih
    cases o with
    | updateMetadata metadata =>
      obtain ⟨hget, hsame⟩ := get_handleUpdateMetadata (r := r.handleOutputs sessionId log)
        (hdeleted ▸ hkept) metadata
      exact ⟨hget.trans (by rw [hindexed, indexed]), hsame.trans hdeleted⟩
    | broadcastSessionStatus status =>
      obtain ⟨hget, hsame⟩ :=
        get_handleBroadcastSessionStatus (r := r.handleOutputs sessionId log) status
      exact ⟨hget.trans (by rw [hindexed, indexed]), hsame.trans hdeleted⟩
    | _ => exact ⟨hindexed, hdeleted⟩

end Registry

/-! ### What a command does to the time of the last change -/

/-- The first output is not older than the second. -/
def Output.Later (newer older : Output) : Prop :=
  ∀ m ∈ newer.modified, ∀ m' ∈ older.modified, m' ≤ m

namespace Loop

def Synced (l : Loop) : Prop :=
  ∃ record, l.store.record = some record ∧ record.lastModified = l.state.config.lastModified

/-- What a session thread does to the time of the last change: the time never goes back, the stored
record keeps up with it, and what is sent carries times from before to after, in order. -/
structure Stamped (l l' : Loop) : Prop where
  later : l.state.config.lastModified ≤ l'.state.config.lastModified
  synced : l.Synced → l'.Synced
  sent : ∃ sent : List Output, l'.log = sent ++ l.log ∧ sent.Pairwise Output.Later ∧
    ∀ o ∈ sent, ∀ m ∈ o.modified,
      l.state.config.lastModified ≤ m ∧ m ≤ l'.state.config.lastModified

theorem synced_writeRecord {env : CommandEnv} (hwrite : env.recordWrite = true) (l : Loop) :
    (l.writeRecord env).Synced :=
  ⟨l.state.toRecord, record_writeRecord hwrite l, rfl⟩

namespace Stamped

variable {env : CommandEnv} {l l' l'' : Loop}

theorem trans (h : Stamped l l') (h' : Stamped l' l'') : Stamped l l'' := by
  obtain ⟨sent, hlog, hpairwise, hsent⟩ := h.sent
  obtain ⟨sent', hlog', hpairwise', hsent'⟩ := h'.sent
  refine ⟨h.later.trans h'.later, fun hs => h'.synced (h.synced hs), sent' ++ sent, ?_, ?_, ?_⟩
  · rw [hlog', hlog, append_assoc]
  · refine pairwise_append.2 ⟨hpairwise', hpairwise, fun newer hnewer older holder => ?_⟩
    intro m hm m' hm'
    exact (hsent older holder m' hm').2.trans (hsent' newer hnewer m hm).1
  · intro o ho m hm
    rcases mem_append.1 ho with hmem | hmem
    · exact ⟨h.later.trans (hsent' o hmem m hm).1, (hsent' o hmem m hm).2⟩
    · exact ⟨(hsent o hmem m hm).1, (hsent o hmem m hm).2.trans h'.later⟩

theorem of_eq (hlater : l'.state.config.lastModified = l.state.config.lastModified)
    (hrecord : l'.store.record = l.store.record) (hlog : l'.log = l.log) : Stamped l l' := by
  refine ⟨hlater.ge, ?_, [], hlog, List.Pairwise.nil, by simp⟩
  rintro ⟨record, hstored, hmodified⟩
  exact ⟨record, hrecord.trans hstored, hmodified.trans hlater.symm⟩

theorem refl (l : Loop) : Stamped l l := of_eq rfl rfl rfl

theorem modifyConfig (l : Loop) {f : SessionConfig → SessionConfig}
    (hf : (f l.state.config).lastModified = l.state.config.lastModified) :
    Stamped l (l.modifyConfig f) :=
  of_eq hf rfl rfl

theorem send (l : Loop) {output : Output}
    (houtput : ∀ m ∈ output.modified, m = l.state.config.lastModified) :
    Stamped l (l.send output) := by
  refine ⟨le_refl _, id, [output], rfl, pairwise_singleton _ _, fun o ho m hm => ?_⟩
  rw [mem_singleton.1 ho] at hm
  exact ⟨(houtput m hm).ge, (houtput m hm).le⟩

theorem broadcast (l : Loop) {event : SessionEvent}
    (hevent : ∀ recipients, ∀ m ∈ (Output.broadcast event recipients).modified,
      m = l.state.config.lastModified) : Stamped l (l.broadcast env event) := by
  refine ⟨le_refl _, id, [.broadcast event _], rfl, pairwise_singleton _ _,
    fun o ho m hm => ?_⟩
  rw [mem_singleton.1 ho] at hm
  exact ⟨(hevent _ m hm).ge, (hevent _ m hm).le⟩

theorem broadcast_of_isStatus {event : SessionEvent} (hevent : event.isStatus = false) (l : Loop) :
    Stamped l (l.broadcast env event) := by
  refine broadcast l fun recipients m hm => ?_
  cases event with
  | sessionStatusChanged status lastModified => cases hevent
  | _ => cases hm

theorem writeRecord (hwrite : env.recordWrite = true) (l : Loop) :
    Stamped l (l.writeRecord env) :=
  ⟨le_refl _, fun _ => synced_writeRecord hwrite l, [], rfl, List.Pairwise.nil, by simp⟩

theorem persistSessionMetadata (hwrite : env.recordWrite = true) (l : Loop) :
    Stamped l (l.persistSessionMetadata env) := by
  refine ⟨le_max_left _ _, fun _ => synced_writeRecord hwrite _, [.updateMetadata _], rfl,
    pairwise_singleton _ _, fun o ho m hm => ?_⟩
  rw [mem_singleton.1 ho] at hm
  cases hm
  exact ⟨le_max_left _ _, le_refl _⟩

theorem of_act (hwrite : env.recordWrite = true) (h : Act env l l') : Stamped l l' := by
  cases h with
  | inner hconfig hrecord hlog =>
    exact of_eq (congrArg SessionConfig.lastModified hconfig) hrecord hlog
  | configure hmodified husage => exact modifyConfig l hmodified
  | send h => exact send l h.modified
  | broadcast h => exact broadcast l fun recipients => (h recipients).modified
  | writeRecord => exact writeRecord hwrite l
  | persist => exact persistSessionMetadata hwrite l

theorem of_acts (hwrite : env.recordWrite = true) (h : Acts env l l') : Stamped l l' := by
  induction h with
  | refl => exact refl l
  | tail _ hact ih => exact ih.trans (of_act hwrite hact)

end Stamped

/-! ### The handlers -/

section Handlers

variable {env : CommandEnv}

theorem handleRequestFinished_synced (hwrite : env.recordWrite = true) (requestId : ℕ)
    (snapshot : SessionSnapshot) (l : Loop) :
    (l.handleRequestFinished env requestId snapshot).1.Synced := by
  obtain ⟨htime, -, hrecord, -⟩ := l.handleRequestFinished_reports env requestId snapshot
  obtain ⟨record, hstored, hmodified⟩ := hrecord hwrite
  exact ⟨record, hstored, hmodified.trans htime.symm⟩

theorem handleRequestFinished_stamped (hwrite : env.recordWrite = true) {l : Loop}
    (hnow : l.state.config.lastModified ≤ env.now) (requestId : ℕ) (snapshot : SessionSnapshot) :
    Stamped l (l.handleRequestFinished env requestId snapshot).1 := by
  obtain ⟨htime, -, -, metadata, recipients, hmetadata, -, hlog⟩ :=
    l.handleRequestFinished_reports env requestId snapshot
  rw [max_eq_right hnow] at htime hmetadata
  refine ⟨htime ▸ hnow, fun _ => l.handleRequestFinished_synced hwrite requestId snapshot,
    [_, _, _], hlog, ?_, ?_⟩
  · simp [Output.Later, Output.modified, hmetadata]
  · rw [htime]
    simp [Output.modified, hmetadata, hnow]

/-- A command moves the time of the last change forward only, as long as the record can be written
and, at the end of a request, the clock is not behind. -/
theorem processCommand_stamped (hwrite : env.recordWrite = true) {command : SessionCommand}
    {l : Loop}
    (hfinish : command.finishedId.isSome = true → l.state.config.lastModified ≤ env.now)
    (hevent : ∀ event, command = .broadcast event → event.isStatus = false) :
    Stamped l (l.processCommand env command).1 := by
  cases command with
  | requestFinished requestId snapshot =>
    exact handleRequestFinished_stamped hwrite (hfinish rfl) requestId snapshot
  | broadcast event => exact .broadcast_of_isStatus (hevent event rfl) l
  | syncAccumulatedUsage tokenUsage lastPromptTokens =>
    refine (Stamped.modifyConfig l rfl).trans
      ((Stamped.broadcast_of_isStatus rfl _).trans (.send _ fun m hm => ?_))
    exact (some.inj hm).symm
  | _ => exact .of_acts hwrite (processCommand_acts env rfl l)

/-- The end of a thread writes the record once more. -/
theorem persistAndExit_stamped (hwrite : env.recordWrite = true) (l : Loop) :
    Stamped l (l.persistAndExit env) :=
  (Stamped.writeRecord hwrite l).trans (.send _ (by rintro m ⟨⟩))

end Handlers

/-- The start of a session thread takes the time of the record over and tells the daemon. -/
theorem sessionMain_stamped (boot : BootEnv) (record : SessionRecord) (store : Store)
    (log : List Output) :
    Stamped { state := { config := SessionConfig.ofRecord record }, store := store, log := log }
      (sessionMain boot record store log) := by
  have htime : (sessionMain boot record store log).state.config.lastModified =
      record.lastModified := by
    unfold sessionMain SessionState.loadTurns
    dsimp only
    split_ifs
    · rw [SessionState.foldl_loadTurn]
      rfl
    · rfl
  have hsent : ∃ sent : List Output, (sessionMain boot record store log).log = sent ++ log ∧
      sent.Pairwise Output.Later ∧
      ∀ o ∈ sent, ∀ m ∈ o.modified,
        m = (sessionMain boot record store log).state.config.lastModified := by
    unfold sessionMain
    dsimp only
    cases record.selectedModel.bind fun model => boot.provider.bind fun provider =>
        provider.resolveContextWindow boot.catalog model with
    | none =>
      refine ⟨[_], rfl, pairwise_singleton _ _, fun o ho m hm => ?_⟩
      rw [mem_singleton.1 ho] at hm
      cases hm
      rfl
    | some cw =>
      refine ⟨[_, _], rfl, ?_, fun o ho m hm => ?_⟩
      · simp [Output.Later, Output.modified]
      · rcases mem_cons.1 ho with rfl | ho
        · cases hm
          rfl
        · rw [mem_singleton.1 ho] at hm
          cases hm
  obtain ⟨sent, hlog, hpairwise, htimes⟩ := hsent
  refine ⟨htime.ge, ?_, sent, hlog, hpairwise, fun o ho m hm => ?_⟩
  · rintro ⟨stored, hstored, hmodified⟩
    exact ⟨stored, hstored, hmodified.trans htime.symm⟩
  · rw [htimes o ho m hm]
    exact ⟨htime.ge, le_refl _⟩

/-- What holds of the times at any time: they were sent in order, and none is later than the stored
record, which in turn is not older than the one the daemon started with. -/
structure Timed (first : Store) (l : Loop) : Prop where
  sent : l.log.Pairwise Output.Later
  stored : ∀ record, l.store.record = some record → ∀ o ∈ l.log, ∀ m ∈ o.modified,
    m ≤ record.lastModified
  first : ∀ record, l.store.record = some record → ∀ old, first.record = some old →
    old.lastModified ≤ record.lastModified

theorem Stamped.timed {first : Store} {l l' : Loop} (h : Stamped l l') (hsynced : l.Synced)
    (ht : l.Timed first) : l'.Timed first := by
  obtain ⟨record, hrecord, hmodified⟩ := hsynced
  obtain ⟨record', hrecord', hmodified'⟩ := h.synced ⟨record, hrecord, hmodified⟩
  obtain ⟨sent, hlog, hpairwise, hsent⟩ := h.sent
  have hlater : record.lastModified ≤ record'.lastModified := by
    rw [hmodified, hmodified']
    exact h.later
  have heq : ∀ stored, l'.store.record = some stored → stored = record' := fun stored hstored =>
    some.inj (hstored.symm.trans hrecord')
  refine ⟨?_, fun stored hstored o ho m hm => ?_, fun stored hstored old hold => ?_⟩
  · rw [hlog]
    refine pairwise_append.2 ⟨hpairwise, ht.sent, fun newer hnewer older holder => ?_⟩
    intro m hm m' hm'
    have hle := ht.stored record hrecord older holder m' hm'
    rw [hmodified] at hle
    exact hle.trans (hsent newer hnewer m hm).1
  · rw [heq stored hstored]
    rw [hlog] at ho
    rcases mem_append.1 ho with hmem | hmem
    · rw [hmodified']
      exact (hsent o hmem m hm).2
    · exact (ht.stored record hrecord o hmem m hm).trans hlater
  · rw [heq stored hstored]
    exact (ht.first record hrecord old hold).trans hlater

end Loop

/-! ### Runs -/

namespace System

/-- The entry of the session in the index of a daemon that was started on the given store and has
handled everything that the session thread sent. -/
def index (first : Store) (s : System) : Option SessionMetadata :=
  indexed (first.record.map SessionRecord.toMetadata) s.loop.log

/-- No time that a client can observe goes back: neither what the session thread sends, nor the
entry in the daemon's index; and the stored record, which the next thread and the next daemon begin
with, is not older than anything observed. -/
structure Chronological (first : Store) (s : System) : Prop where
  sent : s.loop.log.Pairwise Output.Later
  index : ∀ sent log, s.loop.log = sent ++ log → ∀ metadata,
    indexed (first.record.map SessionRecord.toMetadata) log = some metadata →
    ∃ metadata', s.index first = some metadata' ∧ metadata.lastModified ≤ metadata'.lastModified
  stored : ∀ record, s.loop.store.record = some record →
    (∀ o ∈ s.loop.log, ∀ m ∈ o.modified, m ≤ record.lastModified) ∧
    ∀ metadata, s.index first = some metadata → metadata.lastModified ≤ record.lastModified

/-- The stored record, the daemon's index and the last status broadcast carry the same time. -/
def Agrees (first : Store) (s : System) : Prop :=
  ∃ m, s.loop.store.record.map SessionRecord.lastModified = some m ∧
    (s.index first).map SessionMetadata.lastModified = some m ∧
    s.loop.log.findSome? Output.statusTime = some m

/-- The condition on a step: the record can be written, and the clock is not behind the time of the
last change when a request ends. -/
def Timely : SystemLabel → System → Prop
  | .process env, s => env.recordWrite = true ∧
      (s.finishing.isSome = true → s.loop.state.config.lastModified ≤ env.now)
  | _, _ => True

instance (label : SystemLabel) (s : System) : Decidable (Timely label s) :=
  match label with
  | .process env =>
    inferInstanceAs (Decidable (env.recordWrite = true ∧
      (s.finishing.isSome = true → s.loop.state.config.lastModified ≤ env.now)))
  | .send _ => isTrue trivial
  | .work _ => isTrue trivial
  | .restart _ => isTrue trivial

/-- The times of a session in order, the record kept up while its thread runs, and no status
broadcast of others on the way. -/
structure TimeInvariant (first : Store) (s : System) : Prop where
  timed : s.loop.Timed first
  synced : s.live = true → s.loop.Synced
  broadcasts : ∀ event, .broadcast event ∈ s.queue → event.isStatus = false

variable {setup : AgentSetup} {label : SystemLabel} {first : Store} {s s' : System}

theorem init_timeInvariant (first : Store) : (init first).TimeInvariant first where
  timed :=
    { sent := List.Pairwise.nil
      stored := fun _ _ _ ho => absurd ho not_mem_nil
      first := fun record hrecord old hold =>
        le_of_eq (congrArg SessionRecord.lastModified (some.inj (hold.symm.trans hrecord))) }
  synced h := by cases h
  broadcasts _ h := absurd h not_mem_nil

theorem isStatus_of_mem_outbox {w : Worker} (hw : w.Invariant) {event : SessionEvent}
    (h : .broadcast event ∈ w.outbox) : event.isStatus = false := by
  rcases hw.outbox _ h with hupdate | ⟨outcome, snapshot, -, hmem⟩
  · have hstatus := (Bool.and_eq_true_iff.1 hupdate).2
    rw [Bool.not_eq_true'] at hstatus
    exact hstatus
  · cases outcome with
    | done | failed error =>
      cases mem_singleton.1 hmem
      rfl
    | cancelled => exact absurd hmem not_mem_nil

theorem workStep_timeInvariant (hs : s.Invariant) (h : s.TimeInvariant first) {w : Worker}
    (hworker : s.worker = some w) {wlabel : WorkerLabel} {effect : WorkerEffect}
    (hstep : w.step setup (s.cancelPending w) wlabel s.loop.store = some effect) :
    (s.workStep effect).TimeInvariant first := by
  obtain ⟨hrecord, -⟩ := Worker.step_serves hstep
  have hshape := Worker.step_shape hstep
  have hstamped : Loop.Stamped s.loop (s.workStep effect).loop := by
    have hmodified : ∀ o ∈ effect.output.toList, o.modified = none := by
      intro o ho
      rw [mem_toList] at ho
      rcases hshape with ⟨w', -, -, -, hout, -⟩ | ⟨outcome, snapshot, -, rfl⟩
      · rw [hout] at ho
        cases ho
      · obtain ⟨reply, -, rfl⟩ := map_eq_some_iff.1 ho
        rfl
    refine ⟨le_refl _, ?_, effect.output.toList, rfl, ?_, fun o ho m hm => ?_⟩
    · rintro ⟨record, hstored, htime⟩
      exact ⟨record, hrecord.trans hstored, htime⟩
    · cases effect.output with
      | none => exact List.Pairwise.nil
      | some o => exact pairwise_singleton _ _
    · rw [hmodified o ho] at hm
      cases hm
  have hlive := hs.live_of_worker hworker
  refine ⟨hstamped.timed (h.synced hlive) h.timed, fun _ => hstamped.synced (h.synced hlive),
    fun event hevent => ?_⟩
  simp only [workStep, hlive, if_true, mem_append, mem_toList] at hevent
  rcases hevent with hold | hcommand
  · exact h.broadcasts event hold
  · rcases hshape with ⟨w', -, -, -, -, hout⟩ | ⟨outcome, snapshot, -, rfl⟩
    · exact isStatus_of_mem_outbox (hs.worker w hworker) (hout _ hcommand).2
    · cases hcommand

theorem processStep_timeInvariant (h : s.TimeInvariant first) (hlive : s.live = true)
    {env : CommandEnv} {command : SessionCommand} {queue : List SessionCommand}
    (hqueue : s.queue = command :: queue) (htimely : Timely (.process env) s) :
    (s.processStep env command queue).TimeInvariant first := by
  obtain ⟨hwrite, hnow⟩ := htimely
  have hstamped : Loop.Stamped s.loop (s.loop.clearSpawned.processCommand env command).1 := by
    refine (Loop.Stamped.of_eq rfl rfl rfl : Loop.Stamped s.loop s.loop.clearSpawned).trans
      (Loop.processCommand_stamped hwrite (fun hfinish => hnow ?_) fun event hevent => ?_)
    · unfold finishing
      rw [hqueue]
      cases command with
      | requestFinished requestId snapshot => rfl
      | _ => cases hfinish
    · refine h.broadcasts event ?_
      rw [hqueue, hevent]
      exact mem_cons_self
  have hsynced := h.synced hlive
  rcases processStep_cases env command queue s with heq | ⟨-, heq⟩
  · rw [heq]
    refine ⟨hstamped.timed hsynced h.timed, fun _ => hstamped.synced hsynced, fun event hevent => ?_⟩
    exact h.broadcasts event (hqueue ▸ mem_cons_of_mem _ hevent)
  · rw [heq]
    have hexit := hstamped.trans (Loop.persistAndExit_stamped hwrite _)
    exact ⟨hexit.timed hsynced h.timed, fun _ => hexit.synced hsynced,
      fun _ hevent => absurd hevent not_mem_nil⟩

theorem restart_timeInvariant (h : s.TimeInvariant first) (boot : BootEnv)
    {record : SessionRecord} (hrecord : s.loop.store.record = some record) :
    TimeInvariant first
      { live := true
        loop := Loop.sessionMain boot record s.loop.store s.loop.log
        queue := []
        worker := none } := by
  have hstamped := Loop.sessionMain_stamped boot record s.loop.store s.loop.log
  have htimed : Loop.Timed first
      { state := { config := SessionConfig.ofRecord record }, store := s.loop.store
        log := s.loop.log } := ⟨h.timed.sent, h.timed.stored, h.timed.first⟩
  exact ⟨hstamped.timed ⟨record, hrecord, rfl⟩ htimed,
    fun _ => hstamped.synced ⟨record, hrecord, rfl⟩,
    fun _ hevent => absurd hevent not_mem_nil⟩

theorem step_timeInvariant (hs : s.Invariant) (h : s.TimeInvariant first)
    (htimely : Timely label s) (hstep : s.step setup label = some s') :
    s'.TimeInvariant first := by
  rcases step_cases hstep with ⟨command, rfl, hlive, hext, rfl⟩ |
    ⟨env, command, queue, rfl, hlive, hqueue, rfl⟩ | ⟨wlabel, w, effect, rfl, hworker, hwork, rfl⟩ |
    ⟨boot, record, rfl, hrecord, rfl⟩
  · refine ⟨h.timed, h.synced, fun event hevent => ?_⟩
    rcases mem_append.1 hevent with hold | hnew
    · exact h.broadcasts event hold
    · cases mem_singleton.1 hnew
      cases event <;> first | rfl | cases hext
  · exact processStep_timeInvariant h hlive hqueue htimely
  · exact workStep_timeInvariant hs h hworker hwork
  · exact restart_timeInvariant h boot hrecord

theorem TimeInvariant.index_le (h : s.TimeInvariant first) {record : SessionRecord}
    (hrecord : s.loop.store.record = some record) {metadata : SessionMetadata}
    (hmetadata : s.index first = some metadata) :
    metadata.lastModified ≤ record.lastModified := by
  refine indexed_le _ (fun entry hentry => ?_) (h.timed.stored record hrecord) metadata hmetadata
  obtain ⟨old, hold, rfl⟩ := map_eq_some_iff.1 hentry
  exact h.timed.first record hrecord old hold

theorem TimeInvariant.chronological (h : s.TimeInvariant first) : s.Chronological first where
  sent := h.timed.sent
  index sent log hlog metadata hmetadata := by
    unfold System.index
    rw [hlog]
    exact exists_indexed_append _ sent log hmetadata
  stored record hrecord :=
    ⟨h.timed.stored record hrecord, fun _ hmetadata => h.index_le hrecord hmetadata⟩

/-- The end of a request that is in time leaves the three places in agreement. -/
theorem agrees_of_step (hs : s.Invariant) (h : s.TimeInvariant first) {env : CommandEnv}
    (htimely : Timely (.process env) s) (hfinishing : s.finishing.isSome = true)
    (hstep : s.step setup (.process env) = some s') : s'.Agrees first := by
  have h' := step_timeInvariant hs h htimely hstep
  obtain ⟨requestId, snapshot, queue, hqueue⟩ := exists_of_isSome_finishing hfinishing
  obtain ⟨hwrite, hnow⟩ := htimely
  have hlive : s.live = true := by
    by_contra hlive
    rw [(hs.stopped (Bool.eq_false_iff.2 hlive)).2] at hqueue
    cases hqueue
  obtain ⟨htime, -, hrecord, metadata, recipients, hmetadata, -, hlog⟩ :=
    s.loop.clearSpawned.handleRequestFinished_reports env requestId snapshot
  obtain ⟨record, hrecord, hmodified⟩ := hrecord hwrite
  have hmax : max s.loop.clearSpawned.state.config.lastModified env.now = env.now :=
    max_eq_right (hnow hfinishing)
  rw [hmax] at htime hmetadata hmodified
  have hs' : s' = s.processStep env (.requestFinished requestId snapshot) queue := by
    simp only [step, hlive, hqueue] at hstep
    exact (some.inj hstep).symm
  have hshape : ∃ ended : List Output, ended.findSome? Output.statusTime = none ∧
      s'.loop.log = ended ++ (s.loop.clearSpawned.processCommand env
        (.requestFinished requestId snapshot)).1.log ∧
      ∃ stored, s'.loop.store.record = some stored ∧ stored.lastModified = env.now := by
    rcases processStep_cases env (.requestFinished requestId snapshot) queue s with heq | ⟨-, heq⟩
    · rw [hs', heq]
      exact ⟨[], rfl, rfl, record, hrecord, hmodified⟩
    · rw [hs', heq]
      obtain ⟨stored, hstored, hstoredTime⟩ := Loop.synced_writeRecord hwrite
        (s.continued env (.requestFinished requestId snapshot) queue).loop
      exact ⟨[.sessionExited], rfl, rfl, stored, hstored, hstoredTime.trans htime⟩
  obtain ⟨ended, hended, hlog', stored, hstored, hstoredTime⟩ := hshape
  have hlogs : s'.loop.log = (ended ++ [.broadcastSessionStatus .inactive,
      .broadcast (.sessionStatusChanged .inactive env.now) recipients]) ++
      (.updateMetadata metadata :: s.loop.log) := by
    rw [hlog', append_assoc]
    exact congrArg (ended ++ ·) hlog
  refine ⟨env.now, ?_, ?_, ?_⟩
  · rw [hstored, map_some, hstoredTime]
  · obtain ⟨entry, hentry, hle⟩ := exists_indexed_append
      (first.record.map SessionRecord.toMetadata) (ended ++ [.broadcastSessionStatus .inactive,
        .broadcast (.sessionStatusChanged .inactive env.now) recipients])
      (.updateMetadata metadata :: s.loop.log) rfl
    rw [← hlogs] at hentry
    have hge : env.now ≤ entry.lastModified := by
      refine le_trans ?_ hle
      rw [← hmetadata]
      cases indexed (first.record.map SessionRecord.toMetadata) s.loop.log with
      | none => exact le_refl _
      | some existing => exact le_max_left _ _
    have hbound := h'.index_le hstored hentry
    rw [hstoredTime] at hbound
    change (indexed _ s'.loop.log).map _ = _
    rw [hentry, map_some, le_antisymm hbound hge]
  · rw [hlogs, append_assoc, List.findSome?_append, hended]
    rfl

/-- Along a timely run no time that a client can observe goes back, and after every end of a request
the stored record, the daemon's index and the status broadcast carry the same time. -/
theorem chronological_of_run (setup : AgentSetup) (first : Store) (labels : List SystemLabel)
    (htimely : StepSystem.Along (step setup) Timely labels (init first))
    (hrun : StepSystem.run (step setup) labels (init first) = some s) :
    s.Chronological first ∧
      ∀ before env s₀, labels = before ++ [.process env] →
        StepSystem.run (step setup) before (init first) = some s₀ →
        s₀.finishing.isSome = true → s.Agrees first := by
  have hinvariant : ∀ {labels : List SystemLabel} {s : System},
      StepSystem.Along (step setup) Timely labels (init first) →
      StepSystem.run (step setup) labels (init first) = some s →
      s.Invariant ∧ s.TimeInvariant first := fun htimely hrun =>
    StepSystem.invariant_of_along (I := fun s => s.Invariant ∧ s.TimeInvariant first)
      (fun _ _ _ hG hI hstep => ⟨step_invariant hI.1 hstep, step_timeInvariant hI.1 hI.2 hG hstep⟩)
      ⟨init_invariant first, init_timeInvariant first⟩ htimely hrun
  refine ⟨(hinvariant htimely hrun).2.chronological, ?_⟩
  rintro before env s₀ rfl hbefore hfinishing
  obtain ⟨halong, hlast⟩ := (StepSystem.along_append hbefore).1 htimely
  obtain ⟨hs, h⟩ := hinvariant halong hbefore
  obtain ⟨s₁, hs₁, hstep⟩ := StepSystem.run_concat_eq_some.1 hrun
  cases hbefore.symm.trans hs₁
  exact agrees_of_step hs h hlast.1 hfinishing hstep

/-- A request up to its end, with the given number of commands of the worker handled. -/
def oneRequest (n : ℕ) : List SystemLabel :=
  [.restart Sample.boot] ++ Sample.post (.runInput 1 "again") ++ Sample.call ++
    Sample.answer none ++ Sample.drain n

/-- The session with one turn, last changed at the given time. The clock of its commands says 0. -/
def changedAt (lastModified : ℤ) : Store :=
  { Sample.oneTurn with
    record := Sample.oneTurn.record.map fun record => { record with lastModified := lastModified } }

/-- A request that ends in time leaves all three places at the clock. -/
theorem agrees_oneRequest :
    ∃ s, StepSystem.run (step Sample.setup) (oneRequest 6 ++ [.process Sample.env])
        (init (changedAt (-5))) = some s ∧ s.Chronological (changedAt (-5)) ∧
      s.Agrees (changedAt (-5)) := by
  have hbefore : ((StepSystem.run (step Sample.setup) (oneRequest 6) (init (changedAt (-5)))).map
      fun s => s.finishing.isSome) = some true := by
    decide
  have hsome : (StepSystem.run (step Sample.setup) (oneRequest 6 ++ [.process Sample.env])
      (init (changedAt (-5)))).isSome := by
    decide
  obtain ⟨s₀, hs₀, hfinishing⟩ := map_eq_some_iff.1 hbefore
  obtain ⟨s, hrun⟩ := isSome_iff_exists.1 hsome
  obtain ⟨hchronological, hagrees⟩ := chronological_of_run Sample.setup (changedAt (-5))
    (oneRequest 6 ++ [.process Sample.env]) (by decide) hrun
  exact ⟨s, hrun, hchronological, hagrees (oneRequest 6) Sample.env s₀ rfl hs₀ hfinishing⟩

/-- The clock was set back before a request ends: the stored record and the index keep the later
time, but the status broadcast carries the clock, which is earlier than what clients saw before. -/
theorem not_agrees_clockBehind :
    ∃ s₀ s, StepSystem.run (step Sample.setup) (oneRequest 6) (init (changedAt 5)) = some s₀ ∧
      s₀.finishing.isSome = true ∧ step Sample.setup (.process Sample.env) s₀ = some s ∧
      ¬s.Agrees (changedAt 5) ∧ ¬s.Chronological (changedAt 5) := by
  have hbefore : ((StepSystem.run (step Sample.setup) (oneRequest 6) (init (changedAt 5))).map
      fun s => s.finishing.isSome) = some true := by
    decide
  have hafter : ((StepSystem.run (step Sample.setup) (oneRequest 6 ++ [.process Sample.env])
      (init (changedAt 5))).map fun s => (s.loop.store.record.map SessionRecord.lastModified,
        s.loop.log.findSome? Output.statusTime, s.loop.log.filterMap Output.modified)) =
      some (some 5, some 0, [0, 5, 5, 5, 5]) := by
    decide
  obtain ⟨s₀, hs₀, hfinishing⟩ := map_eq_some_iff.1 hbefore
  obtain ⟨s, hrun, htimes⟩ := map_eq_some_iff.1 hafter
  obtain ⟨s₁, hs₁, hstep⟩ := StepSystem.run_concat_eq_some.1 hrun
  cases hs₀.symm.trans hs₁
  rw [Prod.mk.injEq, Prod.mk.injEq] at htimes
  obtain ⟨hrecord, hstatus, hsent⟩ := htimes
  refine ⟨s₀, s, hs₀, hfinishing, hstep, ?_, fun hchronological => ?_⟩
  · rintro ⟨m, hm, -, hm'⟩
    cases hrecord.symm.trans hm
    cases hstatus.symm.trans hm'
  · have hpairwise : (s.loop.log.filterMap Output.modified).Pairwise fun m m' => m' ≤ m :=
      pairwise_filterMap.2 hchronological.sent
    rw [hsent] at hpairwise
    revert hpairwise
    decide

end System

end Choreo
