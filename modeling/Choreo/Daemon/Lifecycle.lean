import Choreo.Daemon.Registry

/-!
# The life of one session id

What the daemon's registry does to one session id, forgetting everything about the others: whether
a thread runs, which of its reports wait in the command channel, what the daemon remembers, and which
rows the database holds. A session id passes through a few stages, from unused over running and over
to the background deletion; the stage decides which reports can still arrive.
-/

namespace Choreo

open List Option

/-- The reports about a session that wait in the daemon's command channel. -/
inductive Mail
  | metadata
  | status
  | exited
  | finalized
deriving DecidableEq, Repr

/-- Whether a report can be followed by others of the same thread. -/
def Mail.isEarly : Mail → Bool
  | .metadata | .status => true
  | _ => false

/-- One session id: whether its thread runs, its reports, what the daemon holds (a channel, an entry
of the index, a mark), the tombstone, whether there are rows (the record, turns or attachments, the
key-value table), the background deletion, and whether the last word about the session was that it
is deleted. -/
structure Lifecycle where
  live : Bool := false
  mail : List Mail := []
  active : Bool := false
  indexed : Bool := false
  marked : Bool := false
  tombstone : Bool := false
  record : Bool := false
  content : Bool := false
  kv : Bool := false
  finalizer : Option FinalizePhase := none
  gone : Bool := false
deriving DecidableEq

/-- What can happen to a session id. The flags are outcomes of database operations; a thread at work
sends reports, may end, and leaves the given rows behind. -/
inductive LifecycleEvent
  | create (recordOk : Bool)
  | attach
  | work (mail : List Mail) (exits record content : Bool)
  | kvWrite (kv : Bool)
  | receive
  | deleteRunning (tombstoneOk : Bool)
  | deleteFinished (deleteOk clearOk : Bool)
  | deleteStored (deleteOk clearOk : Bool)
  | finalize (ok : Bool)
  | reboot (sweeps clears reads : Bool)

namespace Lifecycle

variable (v : Lifecycle)

/-- Without its rows. -/
def deleteRows : Lifecycle :=
  { v with record := false, content := false, kv := false }

/-- Out of the index, with the announcement of it. -/
def forget : Lifecycle := { v with indexed := false, gone := true }

/-- The daemon handles the next report. -/
def receive : Option Lifecycle :=
  match v.mail with
  | [] => none
  | .metadata :: mail => some { v with mail := mail, indexed := v.indexed || !v.marked }
  | .status :: mail => some { v with mail := mail }
  | .exited :: mail =>
    some { v with
      mail := mail
      active := false
      finalizer := if v.marked then some .deleteSession else v.finalizer }
  | .finalized :: mail => some { v with mail := mail, marked := false }

/-- The background deletion goes on. -/
def finalize (ok : Bool) (v : Lifecycle) : Option Lifecycle :=
  match v.finalizer with
  | none => none
  | some .deleteSession =>
    if ok then some { v.deleteRows with finalizer := some .clearTombstone }
    else some { v with finalizer := none }
  | some .clearTombstone =>
    some { v with tombstone := v.tombstone && !ok, finalizer := some .report }
  | some .report => some { v with mail := v.mail ++ [.finalized], finalizer := none }

/-- The process dies and is started again. -/
def reboot (sweeps clears reads : Bool) (v : Lifecycle) : Lifecycle :=
  let swept := if v.tombstone && sweeps then v.deleteRows else v
  { swept with
    live := false
    mail := []
    active := false
    indexed := reads && swept.record
    marked := false
    tombstone := v.tombstone && !(sweeps && clears)
    finalizer := none }

/-- No thread, no reports, nothing that the daemon waits for. -/
def isIdle : Bool :=
  !v.live && v.mail.isEmpty && !v.active && !v.marked && v.finalizer.isNone

/-- One event of a session id. -/
def step (event : LifecycleEvent) (v : Lifecycle) : Option Lifecycle :=
  match event with
  | .create recordOk =>
    if v.isIdle then
      some { v with
        live := true, active := true, indexed := true, record := v.record || recordOk, gone := false }
    else none
  | .attach =>
    if !v.marked && !v.active && v.record then
      some { v with live := true, active := true, indexed := true }
    else none
  | .work mail exits record content =>
    if v.live && mail.all Mail.isEarly && (!v.record || record) then
      some { v with
        live := !exits
        mail := v.mail ++ mail ++ (if exits then [.exited] else [])
        record := record
        content := content }
    else none
  | .kvWrite kv => some { v with kv := kv }
  | .receive => v.receive
  | .deleteRunning tombstoneOk =>
    if v.active then
      some { v.forget with
        active := false, marked := true, tombstone := v.tombstone || tombstoneOk }
    else none
  | .deleteFinished deleteOk clearOk =>
    if v.active && !v.live then
      let marked := { v with active := false, marked := true }
      if deleteOk then some { marked.deleteRows.forget with tombstone := v.tombstone && !clearOk }
      else some marked
    else none
  | .deleteStored deleteOk clearOk =>
    if v.active then none
    else if deleteOk then
      some { v.deleteRows.forget with tombstone := v.tombstone && (v.marked || !clearOk) }
    else some v
  | .finalize ok => v.finalize ok
  | .reboot sweeps clears reads => some (v.reboot sweeps clears reads)

/-! ### The stages -/

/-- The stages of a session id: unused or only stored, running, over with the news still in the
channel, in the background deletion, reported as deleted, and left marked after a deletion that
failed. -/
inductive Stage (v : Lifecycle) : Prop
  | idle (live : v.live = false) (mail : v.mail = []) (active : v.active = false)
      (marked : v.marked = false) (finalizer : v.finalizer = none)
  | running (live : v.live = true) (mail : v.mail.all Mail.isEarly = true)
      (active : v.active = !v.marked) (finalizer : v.finalizer = none)
  | left (live : v.live = false) (mail : ∃ ms, v.mail = ms ++ [.exited] ∧ ms.all Mail.isEarly = true)
      (active : v.active = !v.marked) (finalizer : v.finalizer = none)
  | finalizing (live : v.live = false) (mail : v.mail = []) (active : v.active = false)
      (marked : v.marked = true)
  | reported (live : v.live = false) (mail : v.mail = [.finalized]) (active : v.active = false)
      (marked : v.marked = true) (finalizer : v.finalizer = none)

/-- An unused session id stays so until it is given out. -/
theorem unused_step {v v' : Lifecycle} {event : LifecycleEvent} (hidle : v.isIdle = true)
    (hrecord : v.record = false) (hcreate : ∀ recordOk, event ≠ .create recordOk)
    (hstep : v.step event = some v') : v'.isIdle = true ∧ v'.record = false := by
  simp only [isIdle, Bool.and_eq_true, Bool.not_eq_true', List.isEmpty_iff,
    isNone_iff_eq_none] at hidle
  obtain ⟨⟨⟨⟨hlive, hmail⟩, hactive⟩, hmarked⟩, hfinalizer⟩ := hidle
  cases event with
  | create recordOk => exact absurd rfl (hcreate recordOk)
  | kvWrite kv =>
    cases hstep
    simp [isIdle, *]
  | deleteStored deleteOk clearOk =>
    cases deleteOk <;> simp only [step, hactive, Bool.false_eq_true, if_false, if_true] at hstep <;>
      obtain rfl := some.inj hstep <;> simp [isIdle, deleteRows, forget, *]
  | reboot sweeps clears reads =>
    cases hstep
    cases h : v.tombstone && sweeps <;> simp [isIdle, reboot, deleteRows, h, hrecord]
  | attach | work | deleteRunning | deleteFinished => simp [step, hrecord, hlive, hactive] at hstep
  | receive => simp [step, receive, hmail] at hstep
  | finalize => simp [step, finalize, hfinalizer] at hstep

namespace Stage

variable {v v' : Lifecycle}

/-- The stage depends on what is under way only, not on rows or the index. -/
theorem congr (h : v.Stage) (hlive : v'.live = v.live) (hmail : v'.mail = v.mail)
    (hactive : v'.active = v.active) (hmarked : v'.marked = v.marked)
    (hfinalizer : v'.finalizer = v.finalizer) : v'.Stage := by
  cases h with
  | idle live mail active marked finalizer =>
    exact .idle (hlive.trans live) (hmail.trans mail) (hactive.trans active) (hmarked.trans marked)
      (hfinalizer.trans finalizer)
  | running live mail active finalizer =>
    exact .running (hlive.trans live) (hmail ▸ mail) (by rw [hactive, hmarked, active])
      (hfinalizer.trans finalizer)
  | left live mail active finalizer =>
    exact .left (hlive.trans live) (hmail ▸ mail) (by rw [hactive, hmarked, active])
      (hfinalizer.trans finalizer)
  | finalizing live mail active marked =>
    exact .finalizing (hlive.trans live) (hmail.trans mail) (hactive.trans active)
      (hmarked.trans marked)
  | reported live mail active marked finalizer =>
    exact .reported (hlive.trans live) (hmail.trans mail) (hactive.trans active)
      (hmarked.trans marked) (hfinalizer.trans finalizer)

theorem isIdle (h : v.Stage) (hactive : v.active = false) (hmarked : v.marked = false) :
    v.isIdle = true := by
  cases h with
  | idle live mail _ _ finalizer => simp [Lifecycle.isIdle, *]
  | running _ _ active | left _ _ active => simp [hactive, hmarked] at active
  | finalizing _ _ _ marked | reported _ _ _ marked => simp [hmarked] at marked

theorem active_of_live (h : v.Stage) (hlive : v.live = true) :
    v.mail.all Mail.isEarly = true ∧ v.active = !v.marked ∧ v.finalizer = none := by
  cases h with
  | running _ mail active finalizer => exact ⟨mail, active, finalizer⟩
  | idle live | left live | finalizing live | reported live => simp [live] at hlive

theorem of_active (h : v.Stage) (hactive : v.active = true) :
    v.marked = false ∧ v.finalizer = none ∧
      (v.live = true ∧ v.mail.all Mail.isEarly = true ∨
        v.live = false ∧ ∃ ms, v.mail = ms ++ [.exited] ∧ ms.all Mail.isEarly = true) := by
  cases h with
  | running live mail active finalizer =>
    exact ⟨by simpa [hactive] using active.symm, finalizer, Or.inl ⟨live, mail⟩⟩
  | left live mail active finalizer =>
    exact ⟨by simpa [hactive] using active.symm, finalizer, Or.inr ⟨live, mail⟩⟩
  | idle _ _ active | finalizing _ _ active | reported _ _ active => simp [hactive] at active

theorem work (h : v.Stage) {mail : List Mail} {exits record content : Bool}
    (hstep : v.step (.work mail exits record content) = some v') : v'.Stage := by
  simp only [step, ite_none_right_eq_some, Bool.and_eq_true] at hstep
  obtain ⟨⟨⟨hlive, hmail⟩, -⟩, heq⟩ := hstep
  obtain ⟨hearly, hactive, hfinalizer⟩ := h.active_of_live hlive
  cases heq
  cases exits with
  | false => exact .running rfl (by simp [hearly, hmail]) hactive hfinalizer
  | true => exact .left rfl ⟨v.mail ++ mail, rfl, by simp [hearly, hmail]⟩ hactive hfinalizer

theorem receive (h : v.Stage) (hstep : v.receive = some v') : v'.Stage := by
  unfold Lifecycle.receive at hstep
  cases h with
  | idle _ mail | finalizing _ mail =>
    rw [mail] at hstep
    cases hstep
  | running live mail active finalizer =>
    cases hmail : v.mail with
    | nil =>
      rw [hmail] at hstep
      cases hstep
    | cons m ms =>
      rw [hmail, all_cons, Bool.and_eq_true] at mail
      rw [hmail] at hstep
      cases m with
      | metadata | status =>
        cases hstep
        exact .running live mail.2 active finalizer
      | exited | finalized => cases mail.1
  | left live mail active finalizer =>
    obtain ⟨ms, hmail, hearly⟩ := mail
    rw [hmail] at hstep
    cases ms with
    | nil =>
      cases hstep
      cases hmarked : v.marked with
      | false => exact .idle live rfl rfl rfl finalizer
      | true => exact .finalizing live rfl rfl rfl
    | cons m ms =>
      rw [all_cons, Bool.and_eq_true] at hearly
      cases m with
      | metadata | status =>
        cases hstep
        exact .left live ⟨ms, rfl, hearly.2⟩ active finalizer
      | exited | finalized => cases hearly.1
  | reported live mail active marked finalizer =>
    rw [mail] at hstep
    cases hstep
    exact .idle live rfl active rfl finalizer

theorem of_finalizer (h : v.Stage) {phase : FinalizePhase} (hphase : v.finalizer = some phase) :
    v.live = false ∧ v.mail = [] ∧ v.active = false ∧ v.marked = true := by
  cases h with
  | finalizing live mail active marked => exact ⟨live, mail, active, marked⟩
  | idle _ _ _ _ finalizer => simp [hphase] at finalizer
  | running _ _ _ finalizer => simp [hphase] at finalizer
  | left _ _ _ finalizer | reported _ _ _ _ finalizer => simp [hphase] at finalizer

theorem finalize (h : v.Stage) {ok : Bool} (hstep : v.finalize ok = some v') : v'.Stage := by
  unfold Lifecycle.finalize at hstep
  split at hstep
  · cases hstep
  · next hphase =>
    obtain ⟨live, mail, active, marked⟩ := h.of_finalizer hphase
    cases ok <;> obtain rfl := some.inj hstep <;> exact .finalizing live mail active marked
  · next hphase =>
    obtain ⟨live, mail, active, marked⟩ := h.of_finalizer hphase
    cases hstep
    exact .finalizing live mail active marked
  · next hphase =>
    obtain ⟨live, mail, active, marked⟩ := h.of_finalizer hphase
    cases hstep
    exact .reported live (by simp [mail]) active marked rfl

/-- Every event leads from a stage to a stage. -/
theorem step {event : LifecycleEvent} (h : v.Stage) (hstep : v.step event = some v') :
    v'.Stage := by
  cases event with
  | create recordOk =>
    simp only [Lifecycle.step, ite_none_right_eq_some] at hstep
    obtain ⟨hidle, heq⟩ := hstep
    cases heq
    simp only [Lifecycle.isIdle, Bool.and_eq_true, Bool.not_eq_true', List.isEmpty_iff,
      isNone_iff_eq_none] at hidle
    exact .running rfl (by simp [hidle.1.1.1.2]) (by simp [hidle.1.2]) hidle.2
  | attach =>
    simp only [Lifecycle.step, ite_none_right_eq_some, Bool.and_eq_true,
      Bool.not_eq_true'] at hstep
    obtain ⟨⟨⟨hmarked, hactive⟩, -⟩, heq⟩ := hstep
    cases heq
    have hidle := h.isIdle hactive hmarked
    simp only [Lifecycle.isIdle, Bool.and_eq_true, List.isEmpty_iff,
      isNone_iff_eq_none] at hidle
    exact .running rfl (by simp [hidle.1.1.1.2]) (by simp [hmarked]) hidle.2
  | work mail exits record content => exact h.work hstep
  | kvWrite kv =>
    cases hstep
    exact h.congr rfl rfl rfl rfl rfl
  | receive => exact h.receive hstep
  | deleteRunning tombstoneOk =>
    simp only [Lifecycle.step, ite_none_right_eq_some] at hstep
    obtain ⟨hactive, heq⟩ := hstep
    obtain ⟨-, hfinalizer, ⟨hlive, hmail⟩ | ⟨hlive, hmail⟩⟩ := h.of_active hactive
    · cases heq
      exact .running hlive hmail rfl hfinalizer
    · cases heq
      exact .left hlive hmail rfl hfinalizer
  | deleteFinished deleteOk clearOk =>
    simp only [Lifecycle.step, ite_none_right_eq_some, Bool.and_eq_true,
      Bool.not_eq_true'] at hstep
    obtain ⟨⟨hactive, hlive⟩, heq⟩ := hstep
    obtain ⟨-, hfinalizer, ⟨hlive', -⟩ | ⟨-, hmail⟩⟩ := h.of_active hactive
    · simp [hlive] at hlive'
    · cases deleteOk <;> obtain rfl := some.inj heq <;>
        exact .left hlive hmail rfl hfinalizer
  | deleteStored deleteOk clearOk =>
    simp only [Lifecycle.step, ite_none_left_eq_some] at hstep
    obtain ⟨-, heq⟩ := hstep
    cases deleteOk with
    | false =>
      cases heq
      exact h
    | true =>
      cases heq
      exact h.congr rfl rfl rfl rfl rfl
  | finalize ok => exact h.finalize hstep
  | reboot sweeps clears reads =>
    cases hstep
    exact .idle rfl rfl rfl rfl rfl

end Stage

/-! ### Deleted sessions -/

/-- Whether the deletion of the rows is behind: the session is not marked, or its background
deletion is past that point. -/
def settled : Bool :=
  !v.marked || v.finalizer == some .clearTombstone || v.finalizer == some .report ||
    v.mail.contains .finalized

/-- Whether there are rows; those of the key-value table count when `countKv` says so. -/
def hasRows (countKv : Bool) (v : Lifecycle) : Bool :=
  v.record || v.content || (countKv && v.kv)

/-- What holds of a session that was announced as deleted: it is out of the index, no channel is
handed out, its rows are gone once the deletion is behind, and until then its tombstone is there
(when tombstones can be written). -/
structure Gone (written countKv : Bool) (v : Lifecycle) : Prop where
  indexed : v.indexed = false
  active : v.active = false
  rows : v.settled = true → v.hasRows countKv = false
  covered : written = true → v.live = true ∨ v.hasRows countKv = true → v.tombstone = true

/-- The invariant of deletion: the stage, and `Gone` after the announcement. -/
structure Safe (written countKv : Bool) (v : Lifecycle) : Prop where
  stage : v.Stage
  marked_live : v.marked = true → v.live = true → v.gone = true
  gone : v.gone = true → v.Gone written countKv

/-- The events that a deleted session survives as such. Tombstones are written when `written` says
so; then the process may die as well, if the sweep of the start works. When the rows of the key-value
table count, none is added after the deletion of the rows. -/
def Spares (written countKv : Bool) (v : Lifecycle) : LifecycleEvent → Prop
  | .deleteRunning tombstoneOk => written = true → tombstoneOk = true
  | .reboot sweeps _ _ => v.gone = true → written = true ∧ sweeps = true
  | .kvWrite kv => countKv = true → v.gone = true → kv = true →
      v.kv = true ∨ v.settled = false ∧ v.tombstone = true
  | _ => True

theorem not_contains_finalized {ms : List Mail} (h : ms.all Mail.isEarly = true) :
    ms.contains .finalized = false := by
  rw [Bool.eq_false_iff]
  intro hmem
  cases List.all_eq_true.1 h _ (contains_iff_mem.1 hmem)

namespace Safe

variable {written countKv : Bool} {v v' : Lifecycle}

theorem attach (h : v.Safe written countKv) (hstep : v.step .attach = some v') :
    v'.Safe written countKv := by
  have hstage := h.stage.step hstep
  simp only [Lifecycle.step, ite_none_right_eq_some, Bool.and_eq_true,
    Bool.not_eq_true'] at hstep
  obtain ⟨⟨⟨hmarked, -⟩, hrecord⟩, heq⟩ := hstep
  cases heq
  refine ⟨hstage, fun hmarked' => by simp [hmarked] at hmarked', fun hgone => ?_⟩
  have hrows := (h.gone hgone).rows (by simp [settled, hmarked])
  simp [hasRows, hrecord] at hrows

theorem work (h : v.Safe written countKv) {mail : List Mail} {exits record content : Bool}
    (hstep : v.step (.work mail exits record content) = some v') : v'.Safe written countKv := by
  have hstage := h.stage.step hstep
  simp only [Lifecycle.step, ite_none_right_eq_some, Bool.and_eq_true] at hstep
  obtain ⟨⟨⟨hlive, hmail⟩, -⟩, heq⟩ := hstep
  obtain ⟨hearly, hactive, hfinalizer⟩ := h.stage.active_of_live hlive
  cases heq
  refine ⟨hstage, fun hmarked _ => h.marked_live hmarked hlive, fun hgone => ?_⟩
  have hold := h.gone hgone
  have hmarked : v.marked = true := by simpa [hold.active] using hactive
  refine ⟨hold.indexed, hold.active, fun hsettled => ?_, fun hwritten _ =>
    hold.covered hwritten (Or.inl hlive)⟩
  have h₁ := not_contains_finalized hearly
  have h₂ := not_contains_finalized hmail
  cases exits <;> simp_all [settled]

theorem kvWrite (h : v.Safe written countKv) {kv : Bool}
    (hspares : v.Spares written countKv (.kvWrite kv)) (hstep : v.step (.kvWrite kv) = some v') :
    v'.Safe written countKv := by
  have hstage := h.stage.step hstep
  cases hstep
  refine ⟨hstage, h.marked_live, fun hgone => ?_⟩
  have hold := h.gone hgone
  -- A row of the key-value table that counts was there before, or is covered by the tombstone.
  have hnew : hasRows countKv { v with kv := kv } = true →
      v.hasRows countKv = true ∨ v.settled = false ∧ v.tombstone = true := by
    intro hrows
    cases hkv : countKv && kv with
    | false =>
      simp only [hasRows, hkv, Bool.or_false] at hrows
      exact Or.inl (by simp [hasRows, hrows])
    | true =>
      rw [Bool.and_eq_true] at hkv
      obtain hold | hpending := hspares hkv.1 hgone hkv.2
      · exact Or.inl (by simp [hasRows, hkv.1, hold])
      · exact Or.inr hpending
  refine ⟨hold.indexed, hold.active, fun hsettled => ?_, fun hwritten hor => ?_⟩
  · rw [Bool.eq_false_iff]
    intro hrows
    obtain hr | ⟨hpending, -⟩ := hnew hrows
    · exact absurd ((hold.rows hsettled).symm.trans hr) (by simp)
    · exact absurd (hpending.symm.trans hsettled) (by simp)
  · obtain hl | hr := hor
    · exact hold.covered hwritten (Or.inl hl)
    · obtain hr | ⟨-, htombstone⟩ := hnew hr
      · exact hold.covered hwritten (Or.inr hr)
      · exact htombstone

theorem receive (h : v.Safe written countKv) (hstep : v.step .receive = some v') :
    v'.Safe written countKv := by
  have hstage := h.stage.step hstep
  simp only [Lifecycle.step, Lifecycle.receive] at hstep
  have hmarked : v.gone = true → v.mail ≠ [] → v.marked = true := by
    intro hgone hmail
    by_contra hne
    have hidle := h.stage.isIdle (h.gone hgone).active (Bool.eq_false_iff.2 hne)
    simp [isIdle, hmail] at hidle
  split at hstep
  · cases hstep
  · next mail hmail =>
    cases hstep
    refine ⟨hstage, h.marked_live, fun hgone => ?_⟩
    have hold := h.gone hgone
    refine ⟨by simp [hold.indexed, hmarked hgone (by simp [hmail])], hold.active, fun hsettled =>
      hold.rows ?_, hold.covered⟩
    simpa [settled, hmail] using hsettled
  · next mail hmail =>
    cases hstep
    refine ⟨hstage, h.marked_live, fun hgone => ?_⟩
    have hold := h.gone hgone
    refine ⟨hold.indexed, hold.active, fun hsettled => hold.rows ?_, hold.covered⟩
    simpa [settled, hmail] using hsettled
  · next mail hmail =>
    cases hstep
    refine ⟨hstage, h.marked_live, fun hgone => ?_⟩
    have hold := h.gone hgone
    have hm := hmarked hgone (by simp [hmail])
    refine ⟨hold.indexed, rfl, fun hsettled => hold.rows ?_, hold.covered⟩
    simp only [settled, hm, if_true] at hsettled
    simpa [settled, hmail, hm] using Or.inr hsettled
  · next mail hmail =>
    cases hstep
    refine ⟨hstage, fun hfalse => (by cases hfalse), fun hgone => ?_⟩
    have hold := h.gone hgone
    refine ⟨hold.indexed, hold.active, fun _ => hold.rows ?_, hold.covered⟩
    simp [settled, hmail]

theorem deleteRunning (h : v.Safe written countKv) {tombstoneOk : Bool}
    (hok : written = true → tombstoneOk = true)
    (hstep : v.step (.deleteRunning tombstoneOk) = some v') : v'.Safe written countKv := by
  have hstage := h.stage.step hstep
  simp only [Lifecycle.step, ite_none_right_eq_some] at hstep
  obtain ⟨hactive, heq⟩ := hstep
  obtain ⟨-, hfinalizer, hmail⟩ := h.stage.of_active hactive
  cases heq
  have hcontains : v.mail.contains .finalized = false := by
    obtain ⟨-, hearly⟩ | ⟨-, ms, hmail, hearly⟩ := hmail
    · exact not_contains_finalized hearly
    · have := not_contains_finalized hearly
      simp_all
  refine ⟨hstage, fun _ _ => rfl, fun _ => ⟨rfl, rfl, fun hsettled => ?_, fun hwritten _ => ?_⟩⟩
  · simp only [settled, forget, hfinalizer, hcontains] at hsettled
    simp at hsettled
  · simp [hok hwritten]

theorem deleteFinished (h : v.Safe written countKv) {deleteOk clearOk : Bool}
    (hstep : v.step (.deleteFinished deleteOk clearOk) = some v') : v'.Safe written countKv := by
  have hstage := h.stage.step hstep
  simp only [Lifecycle.step, ite_none_right_eq_some, Bool.and_eq_true,
    Bool.not_eq_true'] at hstep
  obtain ⟨⟨hactive, hlive⟩, heq⟩ := hstep
  cases deleteOk with
  | false =>
    cases heq
    refine ⟨hstage, fun _ hlive' => by simp [hlive] at hlive', fun hgone => ?_⟩
    exact absurd ((h.gone hgone).active.symm.trans hactive) (by simp)
  | true =>
    cases heq
    refine ⟨hstage, fun _ _ => rfl, fun _ => ⟨rfl, rfl, fun _ => ?_, fun _ hrows => ?_⟩⟩
    · simp [hasRows, deleteRows, forget]
    · simp [hasRows, deleteRows, forget, hlive] at hrows

theorem deleteStored (h : v.Safe written countKv) {deleteOk clearOk : Bool}
    (hstep : v.step (.deleteStored deleteOk clearOk) = some v') : v'.Safe written countKv := by
  have hstage := h.stage.step hstep
  simp only [Lifecycle.step, ite_none_left_eq_some, Bool.not_eq_true] at hstep
  obtain ⟨hactive, heq⟩ := hstep
  cases deleteOk with
  | false =>
    cases heq
    exact h
  | true =>
    cases heq
    refine ⟨hstage, fun _ _ => rfl, fun _ =>
      ⟨rfl, hactive, fun _ => ?_, fun hwritten hrows => ?_⟩⟩
    · simp [hasRows, deleteRows, forget]
    · have hlive : v.live = true := by
        simpa [hasRows, deleteRows, forget] using hrows
      have hmarked : v.marked = true := by
        simpa [hactive] using (h.stage.active_of_live hlive).2.1
      have hcovered := (h.gone (h.marked_live hmarked hlive)).covered hwritten (Or.inl hlive)
      simp [hcovered, hmarked]

theorem finalize (h : v.Safe written countKv) {ok : Bool}
    (hstep : v.step (.finalize ok) = some v') : v'.Safe written countKv := by
  have hstage := h.stage.step hstep
  simp only [Lifecycle.step, Lifecycle.finalize] at hstep
  split at hstep
  · cases hstep
  · next hphase =>
    obtain ⟨hlive, hmail, -, hmarked⟩ := h.stage.of_finalizer hphase
    cases ok with
    | false =>
      cases hstep
      refine ⟨hstage, h.marked_live, fun hgone => ?_⟩
      have hold := h.gone hgone
      refine ⟨hold.indexed, hold.active, fun hsettled => ?_, hold.covered⟩
      simp [settled, hmarked, hmail] at hsettled
    | true =>
      cases hstep
      refine ⟨hstage, h.marked_live, fun hgone => ?_⟩
      have hold := h.gone hgone
      refine ⟨hold.indexed, hold.active, fun _ => ?_, fun _ hrows => ?_⟩
      · simp [hasRows, deleteRows]
      · simp [hasRows, deleteRows, hlive] at hrows
  · next hphase =>
    obtain ⟨hlive, -, -, -⟩ := h.stage.of_finalizer hphase
    cases hstep
    refine ⟨hstage, h.marked_live, fun hgone => ?_⟩
    have hold := h.gone hgone
    have hrows := hold.rows (by simp [settled, hphase])
    refine ⟨hold.indexed, hold.active, fun _ => hrows, fun _ hor => ?_⟩
    obtain hl | hr := hor
    · exact absurd (hlive.symm.trans hl) (by simp)
    · exact absurd (hrows.symm.trans hr) (by simp)
  · next hphase =>
    cases hstep
    refine ⟨hstage, h.marked_live, fun hgone => ?_⟩
    have hold := h.gone hgone
    exact ⟨hold.indexed, hold.active, fun _ => hold.rows (by simp [settled, hphase]), hold.covered⟩

theorem reboot (h : v.Safe written countKv) {sweeps clears reads : Bool}
    (hspares : v.gone = true → written = true ∧ sweeps = true) :
    (v.reboot sweeps clears reads).Safe written countKv := by
  refine ⟨.idle rfl rfl rfl rfl rfl, fun hmarked => (by cases hmarked), fun hgone => ?_⟩
  have hgone' : v.gone = true := by
    unfold Lifecycle.reboot at hgone
    split_ifs at hgone <;> exact hgone
  obtain ⟨hwritten, hsweeps⟩ := hspares hgone'
  have hrows : (v.reboot sweeps clears reads).hasRows countKv = false := by
    cases htombstone : v.tombstone with
    | true => simp [Lifecycle.reboot, htombstone, hsweeps, hasRows, deleteRows]
    | false =>
      have hcovered := (h.gone hgone').covered hwritten
      rw [htombstone] at hcovered
      rw [Bool.eq_false_iff]
      intro hr
      refine absurd (hcovered (Or.inr ?_)) (by simp)
      simpa [Lifecycle.reboot, htombstone, hasRows] using hr
  refine ⟨?_, rfl, fun _ => hrows, fun _ hor => ?_⟩
  · have hrecord : (v.reboot sweeps clears reads).record = false := by
      simp only [hasRows, Bool.or_eq_false_iff] at hrows
      exact hrows.1.1
    change (reads && (v.reboot sweeps clears reads).record) = false
    rw [hrecord, Bool.and_false]
  · rw [hrows] at hor
    simp [Lifecycle.reboot] at hor

/-- A deleted session stays deleted. -/
theorem step (h : v.Safe written countKv) {event : LifecycleEvent}
    (hspares : v.Spares written countKv event) (hstep : v.step event = some v') :
    v'.Safe written countKv := by
  cases event with
  | create recordOk =>
    have hstage := h.stage.step hstep
    simp only [Lifecycle.step, ite_none_right_eq_some, Lifecycle.isIdle, Bool.and_eq_true,
      Bool.not_eq_true'] at hstep
    obtain ⟨hidle, heq⟩ := hstep
    cases heq
    exact ⟨hstage, fun hmarked => by simp [hidle.1.2] at hmarked, fun hgone => (by cases hgone)⟩
  | attach => exact h.attach hstep
  | work mail exits record content => exact h.work hstep
  | kvWrite kv => exact h.kvWrite hspares hstep
  | receive => exact h.receive hstep
  | deleteRunning tombstoneOk => exact h.deleteRunning hspares hstep
  | deleteFinished deleteOk clearOk => exact h.deleteFinished hstep
  | deleteStored deleteOk clearOk => exact h.deleteStored hstep
  | finalize ok => exact h.finalize hstep
  | reboot sweeps clears reads =>
    cases hstep
    exact h.reboot hspares

end Safe

/-! ### Rows without a session -/

/-- Rows belong to a record, or a tombstone makes the next start remove them. So that a thread at
work keeps this, it has a record, or a tombstone if it is being deleted; and nothing is left when a
background deletion clears the tombstone. -/
structure Backed (v : Lifecycle) : Prop where
  stage : v.Stage
  rows : v.content = true ∨ v.kv = true → v.record = true ∨ v.tombstone = true
  active : v.live = true → v.active = true → v.record = true
  marked : v.live = true → v.marked = true → v.tombstone = true
  cleared : v.finalizer = some .clearTombstone → v.content = false ∧ v.kv = false

/-- The events that keep rows backed: records and tombstones are written, and a tool thread adds a
row only while the record or the tombstone is there and the rows are not being cleared away. -/
def Backs : LifecycleEvent → Prop
  | .create recordOk => recordOk = true
  | .deleteRunning tombstoneOk => tombstoneOk = true
  | .kvWrite kv => kv = true → v.kv = true ∨
      (v.record = true ∨ v.tombstone = true) ∧ v.finalizer ≠ some .clearTombstone
  | _ => True

namespace Backed

variable {v v' : Lifecycle}

theorem receive (h : v.Backed) (hstep : v.step .receive = some v') : v'.Backed := by
  have hstage := h.stage.step hstep
  simp only [Lifecycle.step, Lifecycle.receive] at hstep
  split at hstep
  · cases hstep
  · cases hstep
    exact ⟨hstage, h.rows, h.active, h.marked, h.cleared⟩
  · cases hstep
    exact ⟨hstage, h.rows, h.active, h.marked, h.cleared⟩
  · cases hstep
    refine ⟨hstage, h.rows, fun _ hactive => (by cases hactive), h.marked, fun hphase => ?_⟩
    cases hmarked : v.marked <;> simp_all [h.cleared]
  · cases hstep
    exact ⟨hstage, h.rows, h.active, fun _ hmarked => (by cases hmarked), h.cleared⟩

theorem finalize (h : v.Backed) {ok : Bool} (hstep : v.step (.finalize ok) = some v') :
    v'.Backed := by
  have hstage := h.stage.step hstep
  simp only [Lifecycle.step, Lifecycle.finalize] at hstep
  split at hstep
  · cases hstep
  · next hphase =>
    obtain ⟨hlive, -, -, -⟩ := h.stage.of_finalizer hphase
    cases ok with
    | false =>
      cases hstep
      exact ⟨hstage, h.rows, h.active, h.marked, fun hnone => (by cases hnone)⟩
    | true =>
      cases hstep
      refine ⟨hstage, ?_, ?_, ?_, fun _ => ⟨rfl, rfl⟩⟩ <;> simp [deleteRows, hlive]
  · next hphase =>
    obtain ⟨hlive, -, -, -⟩ := h.stage.of_finalizer hphase
    obtain ⟨hcontent, hkv⟩ := h.cleared hphase
    cases hstep
    refine ⟨hstage, ?_, ?_, ?_, ?_⟩ <;> simp [hcontent, hkv, hlive]
  · cases hstep
    exact ⟨hstage, h.rows, h.active, h.marked, fun hnone => (by cases hnone)⟩

theorem deleteStored (h : v.Backed) {deleteOk clearOk : Bool}
    (hstep : v.step (.deleteStored deleteOk clearOk) = some v') : v'.Backed := by
  have hstage := h.stage.step hstep
  simp only [Lifecycle.step, ite_none_left_eq_some, Bool.not_eq_true] at hstep
  obtain ⟨hactive, heq⟩ := hstep
  cases deleteOk with
  | false =>
    cases heq
    exact h
  | true =>
    cases heq
    refine ⟨hstage, ?_, ?_, fun hlive hmarked => ?_, fun _ => ⟨rfl, rfl⟩⟩
    · simp [deleteRows, forget]
    · simp [deleteRows, forget, hactive]
    · have hlive' : v.live = true := hlive
      have hmarked' : v.marked = true := hmarked
      simp [h.marked hlive' hmarked', hmarked']

theorem work (h : v.Backed) {mail : List Mail} {exits record content : Bool}
    (hstep : v.step (.work mail exits record content) = some v') : v'.Backed := by
  have hstage := h.stage.step hstep
  simp only [Lifecycle.step, ite_none_right_eq_some, Bool.and_eq_true,
    Bool.or_eq_true, Bool.not_eq_true'] at hstep
  obtain ⟨⟨⟨hlive, -⟩, hrecord⟩, heq⟩ := hstep
  obtain ⟨-, hactive, hfinalizer⟩ := h.stage.active_of_live hlive
  cases heq
  have hkeep : v.record = true → record = true := fun hr => by simpa [hr] using hrecord
  refine ⟨hstage, fun _ => ?_, fun _ ha => hkeep (h.active hlive ha),
    fun _ hm => h.marked hlive hm, fun hphase => by simp [hfinalizer] at hphase⟩
  cases hmarked : v.marked with
  | false => exact Or.inl (hkeep (h.active hlive (by simp [hactive, hmarked])))
  | true => exact Or.inr (h.marked hlive hmarked)

/-- Rows stay backed. -/
theorem step (h : v.Backed) {event : LifecycleEvent} (hbacks : v.Backs event)
    (hstep : v.step event = some v') : v'.Backed := by
  cases event with
  | create recordOk =>
    have hstage := h.stage.step hstep
    simp only [Lifecycle.step, ite_none_right_eq_some, Lifecycle.isIdle, Bool.and_eq_true,
      Bool.not_eq_true', isNone_iff_eq_none] at hstep
    obtain ⟨hidle, heq⟩ := hstep
    cases heq
    have hrecord : recordOk = true := hbacks
    exact ⟨hstage, fun _ => Or.inl (by simp [hrecord]), fun _ _ => by simp [hrecord],
      fun _ hmarked => by simp [hidle.1.2] at hmarked, h.cleared⟩
  | attach =>
    have hstage := h.stage.step hstep
    simp only [Lifecycle.step, ite_none_right_eq_some, Bool.and_eq_true,
      Bool.not_eq_true'] at hstep
    obtain ⟨⟨⟨hmarked, -⟩, hrecord⟩, heq⟩ := hstep
    cases heq
    exact ⟨hstage, fun _ => Or.inl hrecord, fun _ _ => hrecord,
      fun _ hm => by simp [hmarked] at hm, h.cleared⟩
  | work mail exits record content => exact h.work hstep
  | kvWrite kv =>
    have hstage := h.stage.step hstep
    cases hstep
    refine ⟨hstage, fun hor => ?_, h.active, h.marked, fun hphase => ?_⟩
    · obtain hcontent | hkv := hor
      · exact h.rows (Or.inl hcontent)
      · obtain hold | ⟨hbacked, -⟩ := hbacks hkv
        · exact h.rows (Or.inr hold)
        · exact hbacked
    · refine ⟨(h.cleared hphase).1, Bool.eq_false_iff.2 fun hkv => ?_⟩
      obtain hold | ⟨-, hne⟩ := hbacks hkv
      · exact absurd ((h.cleared hphase).2.symm.trans hold) (by simp)
      · exact hne hphase
  | receive => exact h.receive hstep
  | deleteRunning tombstoneOk =>
    have hstage := h.stage.step hstep
    simp only [Lifecycle.step, ite_none_right_eq_some] at hstep
    obtain ⟨-, heq⟩ := hstep
    cases heq
    have htombstone : tombstoneOk = true := hbacks
    exact ⟨hstage, fun _ => Or.inr (by simp [htombstone]), fun _ hactive => (by cases hactive),
      fun _ _ => by simp [htombstone], h.cleared⟩
  | deleteFinished deleteOk clearOk =>
    have hstage := h.stage.step hstep
    simp only [Lifecycle.step, ite_none_right_eq_some, Bool.and_eq_true,
      Bool.not_eq_true'] at hstep
    obtain ⟨⟨-, hlive⟩, heq⟩ := hstep
    cases deleteOk with
    | false =>
      cases heq
      exact ⟨hstage, h.rows, fun _ hactive => (by cases hactive),
        fun hl => by simp [hlive] at hl, h.cleared⟩
    | true =>
      cases heq
      refine ⟨hstage, ?_, ?_, ?_, fun _ => ⟨rfl, rfl⟩⟩ <;> simp [deleteRows, forget, hlive]
  | deleteStored deleteOk clearOk => exact h.deleteStored hstep
  | finalize ok => exact h.finalize hstep
  | reboot sweeps clears reads =>
    have hstage := h.stage.step hstep
    cases hstep
    refine ⟨hstage, fun hor => ?_, fun hl => (by cases hl), fun hl => (by cases hl),
      fun hphase => (by cases hphase)⟩
    have hrows := h.rows
    cases htombstone : v.tombstone <;> cases sweeps <;> cases clears <;>
      simp_all [Lifecycle.reboot, deleteRows]

end Backed

end Lifecycle

end Choreo
