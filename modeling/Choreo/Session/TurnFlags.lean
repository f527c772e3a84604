import Choreo.Session.Requests
import Choreo.Session.Restart

/-!
# The undone flag of a turn

The flag of a turn exists three times: in the memory of the session thread, in the turn row of the
store, and with the clients, who know it from the last `TurnsUndone` or `TurnsRedone` about the turn.
Undo and redo change all three, also while a request runs. The merge of a worker's snapshot keeps an
undo of a turn that the worker has as visible, but takes the worker's flag in all other cases, so a
redo of a turn that was undone when the request was accepted is lost in memory.
-/

namespace Choreo

open List Option

/-- Outputs that tell clients which turns are undone. -/
def Output.isTurnFlag : Output → Bool
  | .broadcast event _ => event.isTurnFlag
  | _ => false

/-- The flag of a turn that the broadcasts imply; the newest output comes first. -/
def announcedFlag (k : ℕ) : List Output → Option Bool
  | [] => none
  | .broadcast (.turnsUndone turnIds) _ :: log =>
    if k ∈ turnIds then some true else announcedFlag k log
  | .broadcast (.turnsRedone turns) _ :: log =>
    if turns.contains k then some false else announcedFlag k log
  | _ :: log => announcedFlag k log

theorem announcedFlag_cons {k : ℕ} {o : Output} {log : List Output} (h : o.isTurnFlag = false) :
    announcedFlag k (o :: log) = announcedFlag k log := by
  cases o with
  | broadcast event recipients =>
    cases event with
    | turnsUndone turnIds | turnsRedone turns => cases h
    | _ => rfl
  | _ => rfl

theorem announcedFlag_append {k : ℕ} {sent log : List Output}
    (h : ∀ o ∈ sent, o.isTurnFlag = false) :
    announcedFlag k (sent ++ log) = announcedFlag k log := by
  induction sent with
  | nil => rfl
  | cons o sent ih =>
    rw [cons_append, announcedFlag_cons (h o mem_cons_self)]
    exact ih fun o ho => h o (mem_cons_of_mem _ ho)

theorem Output.isTurnFlag_of_isQuiet {o : Output} (h : o.isQuiet = true) : o.isTurnFlag = false := by
  cases o with
  | broadcast event recipients =>
    have hquiet := (Bool.and_eq_true _ _ ▸ h : _ ∧ _).2
    exact Bool.not_eq_true' _ ▸ hquiet
  | _ => rfl

namespace Loop

theorem Quiet.announcedFlag {l l' : Loop} (h : Quiet l l') (k : ℕ) :
    announcedFlag k l'.log = announcedFlag k l.log := by
  obtain ⟨sent, hlog, hsent⟩ := h.log
  rw [hlog]
  exact announcedFlag_append fun o ho => Output.isTurnFlag_of_isQuiet (hsent o ho)

variable (env : CommandEnv)

theorem announcedFlag_failRequest (requestId : ℕ) (error : String) (l : Loop)
    (k : ℕ) : announcedFlag k (l.failRequest env requestId error).log = announcedFlag k l.log := rfl

theorem announcedFlag_startRequest (requestId : ℕ) (client : InferenceProvider)
    (model : String) (childReply : Option ℕ) (userText : Option String) (l : Loop) (k : ℕ) :
    announcedFlag k (l.startRequest env requestId client model childReply userText).log =
      announcedFlag k l.log := rfl

theorem announcedFlag_foldl_cancelRequest (targets : List ℕ) (l : Loop) (k : ℕ) :
    announcedFlag k (targets.foldl (fun l requestId => l.cancelRequest env requestId) l).log =
      announcedFlag k l.log := by
  induction targets generalizing l with
  | nil => rfl
  | cons requestId targets ih =>
    rw [foldl_cons, ih]
    unfold cancelRequest
    split <;> rfl

theorem announcedFlag_handleRequestFinished (requestId : ℕ)
    (snapshot : SessionSnapshot) (l : Loop) (k : ℕ) :
    announcedFlag k (l.handleRequestFinished env requestId snapshot).1.log =
      announcedFlag k l.log := by
  obtain ⟨sent, hlog, hsent⟩ := log_handleRequestFinished env requestId snapshot l
  rw [hlog]
  exact announcedFlag_append fun o ho => Output.isTurnFlag_of_isQuiet (hsent o ho)

theorem processCommand_announcedFlag (command : SessionCommand) (l : Loop)
    (hcommand : ∀ event, command = .broadcast event → event.isTurnFlag = false) (k : ℕ) :
    announcedFlag k (l.processCommand env command).1.log =
      match command with
      | .undo =>
        match l.state.undoTurns with
        | none => announcedFlag k l.log
        | some (ids, _) => if k ∈ ids then some true else announcedFlag k l.log
      | .redo =>
        match l.state.lastUndoTurnIds with
        | none => announcedFlag k l.log
        | some ids =>
          if k ∈ ids ∧ l.state.turns[k]?.isSome = true then some false else announcedFlag k l.log
      | _ => announcedFlag k l.log := by
  cases command with
  | undo =>
    simp only [processCommand]
    cases h : l.state.undoTurns with
    | none => simp only [handleUndo, h]
    | some p =>
      obtain ⟨ids, state⟩ := p
      obtain ⟨recipients, hlog⟩ := log_handleUndo env h
      rw [hlog]
      rfl
  | redo =>
    simp only [processCommand]
    cases h : l.state.lastUndoTurnIds with
    | none => simp only [handleRedo, SessionState.redoTurns, h, map_none]
    | some ids =>
      obtain ⟨recipients, hlog⟩ := log_handleRedo env h
      rw [hlog]
      refine if_congr ?_ rfl rfl
      rw [Std.ExtTreeMap.contains_map, ← Std.ExtTreeMap.isSome_getElem?_eq_contains,
        SessionState.get_restrict]
      by_cases hk : k ∈ ids
      · rw [if_pos hk, SessionState.isSome_setUndone]
        exact ⟨fun hsome => ⟨hk, hsome⟩, And.right⟩
      · rw [if_neg hk]
        exact ⟨fun hnone => (by cases hnone), fun hand => absurd hand.1 hk⟩
  | runInput requestId input =>
    rcases l.handleRunInput_cases env requestId input with
      ⟨l₁, error, hl₁, heq⟩ | ⟨l₁, provider, model, hprovider, -, -, -, heq⟩
    · simp only [processCommand, heq, announcedFlag_failRequest]
      exact (Quiet.of_inputProvider hl₁).announcedFlag k
    · simp only [processCommand, heq, announcedFlag_startRequest]
      exact (Quiet.inputProvider hprovider).announcedFlag k
  | runChildInput requestId userText reply =>
    rcases l.handleRunChildInput_cases env requestId userText reply with
      ⟨error, heq⟩ | ⟨provider, -, -, -, heq⟩
    · simp only [processCommand, heq]
      exact announcedFlag_cons rfl
    · simp only [processCommand, heq, announcedFlag_startRequest]
  | cancel requestId => exact announcedFlag_foldl_cancelRequest env _ l k
  | shutdown => exact announcedFlag_foldl_cancelRequest env _ _ k
  | requestFinished requestId snapshot =>
    exact announcedFlag_handleRequestFinished env requestId snapshot l k
  | broadcast event => exact announcedFlag_cons (hcommand event rfl)
  | _ => exact (processCommand_quiet env rfl l).announcedFlag k

end Loop

/-! ### The three copies of the flags -/

/-- The flags of all turns: in memory, in the store, and as the clients know them. -/
@[ext]
structure Flags where
  memory : ℕ → Option Bool
  stored : ℕ → Option Bool
  announced : ℕ → Option Bool

namespace Flags

/-- The store has the flag of every turn in memory, and the clients have no other flag than the
store. -/
structure Coherent (f : Flags) : Prop where
  stored : ∀ k flag, f.memory k = some flag → f.stored k = some flag
  announced : ∀ k flag flag', f.stored k = some flag → f.announced k = some flag' → flag' = flag

def set (flag : Bool) (ids : List ℕ) (f : Flags) : Flags where
  memory k := if k ∈ ids then (f.memory k).map fun _ => flag else f.memory k
  stored k := if k ∈ ids ∧ (f.memory k).isSome then some flag else f.stored k
  announced k := if k ∈ ids ∧ (f.memory k).isSome then some flag else f.announced k

/-- The merge of a worker's flags: an undone turn stays undone, new turns are stored. -/
def merge (snap : ℕ → Option Bool) (f : Flags) : Flags where
  memory k :=
    match snap k, f.memory k with
    | none, flag => flag
    | some new, none => some new
    | some new, some flag => some (flag || new)
  stored k :=
    match snap k, f.memory k with
    | some new, none => some new
    | _, _ => f.stored k
  announced := f.announced

variable {f : Flags}

theorem Coherent.set (h : f.Coherent) (flag : Bool) (ids : List ℕ) : (f.set flag ids).Coherent := by
  refine ⟨fun k b hb => ?_, fun k b b' hb hb' => ?_⟩
  · simp only [Flags.set] at hb ⊢
    by_cases hk : k ∈ ids
    · rw [if_pos hk, map_eq_some_iff] at hb
      obtain ⟨old, hold, rfl⟩ := hb
      rw [if_pos ⟨hk, by rw [hold]; rfl⟩]
    · rw [if_neg hk] at hb
      rw [if_neg fun hand => hk hand.1]
      exact h.stored k b hb
  · simp only [Flags.set] at hb hb'
    split_ifs at hb hb'
    · exact (some.inj hb').symm.trans (some.inj hb)
    · exact h.announced k b b' hb hb'

/-- A change of the flags that keeps the set of turns in memory and announces nothing about other
turns. -/
def Stable (f f' : Flags) : Prop :=
  ∀ k, (f'.memory k).isSome = (f.memory k).isSome ∧
    (f.memory k = none → f'.announced k = f.announced k)

theorem Stable.refl (f : Flags) : f.Stable f := fun _ => ⟨rfl, fun _ => rfl⟩

theorem stable_set (flag : Bool) (ids : List ℕ) (f : Flags) : f.Stable (f.set flag ids) := by
  intro k
  simp only [Flags.set]
  refine ⟨?_, fun hmem => ?_⟩
  · split_ifs
    · rw [isSome_map]
    · rfl
  · rw [if_neg]
    rw [hmem]
    exact fun hand => by cases hand.2

/-- The merge keeps the copies coherent when the worker has no turn as undone that is visible in
memory, and its new turns were never announced. -/
theorem Coherent.merge (h : f.Coherent) {snap : ℕ → Option Bool}
    (hredone : ∀ k, snap k = some true → f.memory k ≠ some false)
    (hnew : ∀ k, (snap k).isSome = true → f.memory k = none → f.announced k = none) :
    (f.merge snap).Coherent := by
  refine ⟨fun k b hb => ?_, fun k b b' hb hb' => ?_⟩
  · simp only [Flags.merge] at hb ⊢
    cases hsnap : snap k with
    | none =>
      simp only [hsnap] at hb ⊢
      exact h.stored k b hb
    | some new =>
      cases hmem : f.memory k with
      | none =>
        simp only [hsnap, hmem] at hb ⊢
        exact hb
      | some old =>
        simp only [hsnap, hmem] at hb ⊢
        have hold := h.stored k old hmem
        rw [hold, ← hb]
        cases old with
        | true => rfl
        | false =>
          cases new with
          | false => rfl
          | true => exact absurd hmem (hredone k hsnap)
  · simp only [Flags.merge] at hb hb'
    cases hsnap : snap k with
    | none =>
      simp only [hsnap] at hb
      exact h.announced k b b' hb hb'
    | some new =>
      cases hmem : f.memory k with
      | none =>
        rw [hnew k (by rw [hsnap]; rfl) hmem] at hb'
        cases hb'
      | some old =>
        simp only [hsnap, hmem] at hb
        exact h.announced k b b' hb hb'

theorem Coherent.write (h : f.Coherent) {k : ℕ} (hmem : f.memory k = none)
    (hann : f.announced k = none) (flag : Bool) :
    Coherent { f with stored := fun j => if j = k then some flag else f.stored j } := by
  refine ⟨fun j b hb => ?_, fun j b b' hb hb' => ?_⟩
  · have hj : j ≠ k := by
      rintro rfl
      rw [hmem] at hb
      cases hb
    exact (if_neg hj).trans (h.stored j b hb)
  · have hj : j ≠ k := by
      rintro rfl
      rw [hann] at hb'
      cases hb'
    exact h.announced j b b' ((if_neg hj).symm.trans hb) hb'

/-- Memory is loaded from the store, or stays empty. -/
theorem Coherent.load (h : f.Coherent) {memory : ℕ → Option Bool}
    (hmem : ∀ k flag, memory k = some flag → f.stored k = some flag) :
    Coherent { f with memory := memory } :=
  ⟨hmem, h.announced⟩

end Flags

namespace TurnCell

def memoryFlag (cell : TurnCell) : Option Bool := cell.turn.map Turn.undone

def storedFlag (cell : TurnCell) : Option Bool := (cell.row.getD none).map Turn.undone

theorem memoryFlag_setUndone (ok flag : Bool) (cell : TurnCell) :
    (cell.setUndone ok flag).memoryFlag = cell.memoryFlag.map fun _ => flag := by
  unfold memoryFlag
  rw [setUndone_turn, Option.map_map, Option.map_map]
  rfl

theorem storedFlag_setUndone (flag : Bool) (cell : TurnCell) :
    (cell.setUndone true flag).storedFlag =
      if cell.memoryFlag.isSome then some flag else cell.storedFlag := by
  unfold setUndone memoryFlag
  cases cell.turn <;> rfl

theorem memoryFlag_merge (ok : Bool) (turn : Turn) (cell : TurnCell) :
    (cell.merge ok turn).memoryFlag =
      match cell.memoryFlag with
      | none => some turn.undone
      | some flag => some (flag || turn.undone) := by
  unfold memoryFlag
  rw [merge_turn]
  cases cell.turn with
  | none => rfl
  | some stateTurn =>
    change Option.map _ (if _ then _ else _) = some (stateTurn.undone || turn.undone)
    cases hstate : stateTurn.undone <;> cases hturn : turn.undone <;> simp [hstate, hturn]

theorem storedFlag_merge (turn : Turn) (cell : TurnCell) :
    (cell.merge true turn).storedFlag =
      match cell.memoryFlag with
      | none => some turn.undone
      | some _ => cell.storedFlag := by
  unfold merge memoryFlag
  cases cell.turn with
  | none => rfl
  | some stateTurn =>
    dsimp only [map_some]
    split_ifs <;> rfl

end TurnCell

namespace Loop

/-- The three copies of the flags of a session. -/
def flags (l : Loop) : Flags where
  memory k := (l.core.cell k).memoryFlag
  stored k := (l.core.cell k).storedFlag
  announced k := announcedFlag k l.log

theorem flags_eq {l l' : Loop} (hcore : l'.core = l.core)
    (hann : ∀ k, announcedFlag k l'.log = announcedFlag k l.log) : l'.flags = l.flags := by
  unfold flags
  rw [hcore, funext hann]

theorem processCommand_flags (env : CommandEnv) (hwrite : ∀ k, env.turnWrite k = true)
    (command : SessionCommand) (l : Loop)
    (hcommand : ∀ event, command = .broadcast event → event.isTurnFlag = false) :
    (l.processCommand env command).1.flags =
      match command with
      | .undo => (l.state.undoTurns.map Prod.fst).elim l.flags fun ids => l.flags.set true ids
      | .redo => l.state.lastUndoTurnIds.elim l.flags fun ids => l.flags.set false ids
      | .requestFinished _ snapshot =>
        l.flags.merge fun k => snapshot.turns[k]?.map Turn.undone
      | _ => l.flags := by
  have hset : ∀ (flag : Bool) (ids : List ℕ) (k : ℕ) (cell : TurnCell),
      cell = (if k ∈ ids then (l.core.cell k).setUndone (env.turnWrite k) flag
        else l.core.cell k) →
      cell.memoryFlag = (l.flags.set flag ids).memory k ∧
        cell.storedFlag = (l.flags.set flag ids).stored k := by
    rintro flag ids k cell rfl
    rw [hwrite k]
    by_cases hk : k ∈ ids
    · simp only [hk, if_true, TurnCell.memoryFlag_setUndone, TurnCell.storedFlag_setUndone,
        Flags.set, flags, true_and, and_self]
    · simp only [hk, if_false, Flags.set, flags, false_and, and_self]
  have hcore := l.processCommand_core env command
  have hann := l.processCommand_announcedFlag env command hcommand
  cases command with
  | undo =>
    cases hundo : l.state.undoTurns with
    | none =>
      simp only [hundo] at hcore hann
      simp only [map_none, elim_none, flags, hcore, hann]
    | some p =>
      obtain ⟨ids, state⟩ := p
      simp only [hundo] at hcore hann
      have hids := (SessionState.undoTurns_spec hundo).1
      refine Flags.ext (funext fun k => ?_) (funext fun k => ?_) (funext fun k => ?_)
      · exact (hset true ids k _ (by rw [hcore, TurnCore.cell_undo])).1
      · exact (hset true ids k _ (by rw [hcore, TurnCore.cell_undo])).2
      · refine (hann k).trans (if_congr ⟨fun hk => ⟨hk, ?_⟩, And.left⟩ rfl rfl)
        simp only [flags, TurnCell.memoryFlag, isSome_map]
        exact hids k hk
  | redo =>
    cases hredo : l.state.lastUndoTurnIds with
    | none =>
      simp only [hredo] at hcore hann
      simp only [elim_none, flags, hcore, hann]
    | some ids =>
      simp only [hredo] at hcore hann
      refine Flags.ext (funext fun k => ?_) (funext fun k => ?_) (funext fun k => ?_)
      · exact (hset false ids k _ (by rw [hcore, TurnCore.cell_redo])).1
      · exact (hset false ids k _ (by rw [hcore, TurnCore.cell_redo])).2
      · refine (hann k).trans (if_congr (and_congr_right fun _ => ?_) rfl rfl)
        simp only [flags, TurnCell.memoryFlag, isSome_map]
        exact Iff.rfl
  | requestFinished requestId snapshot =>
    simp only at hcore hann
    refine Flags.ext (funext fun k => ?_) (funext fun k => ?_) (funext hann)
    · simp only [flags, hcore, TurnCore.cell_merge, Flags.merge]
      cases snapshot.turns[k]? with
      | none => rfl
      | some turn =>
        simp only [TurnCell.memoryFlag_merge, map_some]
        cases (l.core.cell k).memoryFlag <;> rfl
    · simp only [flags, hcore, TurnCore.cell_merge, Flags.merge, hwrite k]
      cases snapshot.turns[k]? with
      | none => rfl
      | some turn =>
        simp only [TurnCell.storedFlag_merge, map_some]
        cases (l.core.cell k).memoryFlag <;> rfl
  | _ => exact flags_eq hcore hann

end Loop

/-! ### Runs -/

/-- The turn writes of a step succeed. -/
def SystemLabel.TurnWritesSucceed : SystemLabel → Prop
  | .process env => ∀ k, env.turnWrite k = true
  | .work (.finalize writeError) => writeError = none
  | _ => True

namespace System

/-- For every turn in memory, the store has the same flag, and so do the clients if they were told
about the turn. -/
def FlagsAgree (s : System) : Prop :=
  ∀ k turn, s.loop.state.turns[k]? = some turn →
    (∃ row, s.loop.store.turns[k]? = some (some row) ∧ row.undone = turn.undone) ∧
    ∀ flag, announcedFlag k s.loop.log = some flag → flag = turn.undone

/-- When a request finishes, no turn is visible in the session that its snapshot has as undone. -/
def NoTurnRedone (s : System) : Prop :=
  ∀ snapshot ∈ s.finishing, ∀ entry ∈ snapshot.turns.toList, entry.2.undone = true →
    ∀ turn ∈ s.loop.state.turns[entry.1]?, turn.undone = true

/-- The worker's next turn id is fresh: no turn in memory has it, and no broadcast has named it. -/
def NextIdFresh (s : System) : Prop :=
  ∀ w ∈ s.worker, s.loop.state.turns[w.session.nextTurnId]? = none ∧
    announcedFlag w.session.nextTurnId s.loop.log = none

instance (s : System) : Decidable s.NoTurnRedone :=
  inferInstanceAs (Decidable (∀ snapshot ∈ s.finishing, ∀ entry ∈ snapshot.turns.toList,
    entry.2.undone = true → ∀ turn ∈ s.loop.state.turns[entry.1]?, turn.undone = true))

instance (s : System) : Decidable s.NextIdFresh :=
  inferInstanceAs (Decidable (∀ w ∈ s.worker, s.loop.state.turns[w.session.nextTurnId]? = none ∧
    announcedFlag w.session.nextTurnId s.loop.log = none))

/-- The condition on a step, besides that its turn writes succeed: a request finishes only when none
of its turns was redone in the meantime, and a worker starts turns under fresh ids only. -/
def FlagSafe (label : SystemLabel) (s : System) : Prop :=
  (label.isProcess = true → s.NoTurnRedone) ∧ (label.isStartCall = true → s.NextIdFresh)

instance (label : SystemLabel) (s : System) : Decidable (FlagSafe label s) :=
  inferInstanceAs (Decidable (_ ∧ _))

/-- What holds in every state of a run whose steps are safe: the copies of the flags are coherent,
only undo and redo announce flags, and the turns of a request that are not in memory were never
announced. -/
structure FlagInvariant (s : System) : Prop where
  coherent : s.loop.flags.Coherent
  broadcasts : ∀ event, .broadcast event ∈ s.queue → event.isTurnFlag = false
  own : ∀ w, s.worker = some w → ∀ k, Owns w.initialSnapshot w.session k →
    s.loop.flags.memory k = none ∧ s.loop.flags.announced k = none
  base : ∀ w, s.worker = some w → ∀ k : ℕ, w.initialSnapshot.turns[k]?.isSome = true →
    (s.loop.flags.memory k).isSome = true
  finished : ∀ requestId snapshot, .requestFinished requestId snapshot ∈ s.queue →
    ∀ k : ℕ, snapshot.turns[k]?.isSome = true →
      (s.loop.flags.memory k).isSome = true ∨ s.loop.flags.announced k = none

variable {setup : AgentSetup} {label : SystemLabel} {s s' : System}

theorem FlagInvariant.flagsAgree (h : s.FlagInvariant) : s.FlagsAgree := by
  intro k turn hturn
  have hmem : s.loop.flags.memory k = some turn.undone := by
    change Option.map Turn.undone s.loop.state.turns[k]? = _
    rw [hturn]
    rfl
  have hstored := h.coherent.stored k turn.undone hmem
  refine ⟨?_, fun flag hflag => h.coherent.announced k turn.undone flag hstored hflag⟩
  change Option.map Turn.undone (s.loop.store.turns[k]?.getD none) = _ at hstored
  rw [map_eq_some_iff] at hstored
  obtain ⟨row, hrow, hundone⟩ := hstored
  refine ⟨row, ?_, hundone⟩
  cases hget : s.loop.store.turns[k]? with
  | none =>
    rw [hget] at hrow
    cases hrow
  | some cell =>
    rw [hget] at hrow
    exact congrArg some hrow

theorem init_flagInvariant (store : Store) : (init store).FlagInvariant where
  coherent := by
    refine ⟨fun k flag h => ?_, fun k flag flag' _ h => ?_⟩
    · change Option.map Turn.undone (∅ : TurnMap)[k]? = _ at h
      rw [Std.ExtTreeMap.getElem?_empty] at h
      cases h
    · cases h
  broadcasts _ h := absurd h not_mem_nil
  own _ h := by cases h
  base _ h := by cases h
  finished _ _ h := absurd h not_mem_nil

/-- The parts of the invariant that concern the request in flight, after a change that keeps the set
of turns in memory and announces nothing about other turns. -/
theorem FlagInvariant.of_stable (h : s.FlagInvariant) {f : Flags} (hstable : s.loop.flags.Stable f)
    (hcoherent : f.Coherent) (hloop : s'.loop.flags = f)
    (hqueue : ∀ command ∈ s'.queue, command ∈ s.queue)
    (hworker : ∀ w, s'.worker = some w → s.worker = some w ∨
      (∀ k, ¬Owns w.initialSnapshot w.session k) ∧
        ∀ k : ℕ, w.initialSnapshot.turns[k]?.isSome = true → (f.memory k).isSome = true) :
    s'.FlagInvariant where
  coherent := hloop ▸ hcoherent
  broadcasts event hevent := h.broadcasts event (hqueue _ hevent)
  own w hw k hk := by
    rw [hloop]
    rcases hworker w hw with hold | ⟨hnone, -⟩
    · obtain ⟨hmem, hann⟩ := h.own w hold k hk
      refine ⟨?_, ((hstable k).2 hmem).trans hann⟩
      rw [← isNone_iff_eq_none, ← not_isSome, (hstable k).1, hmem]
      rfl
    · exact absurd hk (hnone k)
  base w hw k hk := by
    rw [hloop]
    rcases hworker w hw with hold | ⟨-, hbase⟩
    · rw [(hstable k).1]
      exact h.base w hold k hk
    · exact hbase k hk
  finished requestId snapshot hmem k hk := by
    rw [hloop]
    rcases h.finished requestId snapshot (hqueue _ hmem) k hk with hsome | hann
    · rw [(hstable k).1]
      exact Or.inl hsome
    · cases hk' : s.loop.flags.memory k with
      | none => exact Or.inr (((hstable k).2 hk').trans hann)
      | some flag =>
        left
        rw [(hstable k).1, hk']
        rfl

theorem spawn_flags {l l' : Loop} {requestId : ℕ} {args : WorkerArgs}
    (h : l.Accepts requestId args l') :
    (∀ k, ¬Owns (Worker.spawn args).initialSnapshot (Worker.spawn args).session k) ∧
      ∀ k : ℕ, (Worker.spawn args).initialSnapshot.turns[k]?.isSome = true →
        (l'.flags.memory k).isSome = true := by
  have hsession := h.args_session
  refine ⟨fun k hk => ?_, fun k hk => ?_⟩
  · change args.session.turns.size ≤ k ∧ k < args.session.nextTurnId at hk
    rw [hsession] at hk
    exact absurd hk.2 (not_lt.2 hk.1)
  · change args.session.turns[k]?.isSome = true at hk
    rw [hsession] at hk
    change (Option.map Turn.undone l'.state.turns[k]?).isSome = true
    rw [isSome_map]
    exact hk

variable {env : CommandEnv} {command : SessionCommand} {queue : List SessionCommand}

/-- A command that ends no request. -/
theorem continued_flagInvariant_of_stable (hs : s.Invariant) (h : s.FlagInvariant)
    (hqueue : s.queue = command :: queue)
    (hstable : s.loop.flags.Stable (s.loop.clearSpawned.processCommand env command).1.flags)
    (hcoherent : (s.loop.clearSpawned.processCommand env command).1.flags.Coherent) :
    (s.continued env command queue).FlagInvariant := by
  refine h.of_stable hstable hcoherent rfl (fun c hc => ?_) fun w hw => ?_
  · rw [hqueue]
    exact mem_cons_of_mem _ hc
  · rcases continued_worker hs env command queue with
      hsame | ⟨requestId, args, haccepts, -, hspawn⟩
    · exact Or.inl (hsame.symm.trans hw)
    · cases hspawn.symm.trans hw
      exact Or.inr (spawn_flags haccepts)

/-- The end of a request. -/
theorem continued_flagInvariant_of_finished (hs : s.Invariant) (h : s.FlagInvariant)
    (hlive : s.live = true) (hwrite : ∀ k, env.turnWrite k = true)
    {requestId : ℕ} {snapshot : SessionSnapshot}
    (hqueue : s.queue = .requestFinished requestId snapshot :: queue)
    (hredone : s.NoTurnRedone) :
    (s.continued env (.requestFinished requestId snapshot) queue).FlagInvariant := by
  obtain ⟨-, hnil⟩ := continued_invariant_of_finished hs hlive env hqueue
  unfold pending at hnil
  rw [append_eq_nil_iff, map_eq_nil_iff] at hnil
  have hflags := Loop.processCommand_flags env hwrite (.requestFinished requestId snapshot)
    s.loop.clearSpawned fun event hevent => by cases hevent
  refine ⟨?_, fun event hevent => ?_, fun w hw => ?_, fun w hw => ?_, fun id snap hmem => ?_⟩
  · change (Loop.processCommand env _ _).1.flags.Coherent
    rw [hflags]
    refine h.coherent.merge (fun k hk hfalse => ?_) fun k hk hnone => ?_
    · rw [map_eq_some_iff] at hk
      obtain ⟨new, hnew, hundone⟩ := hk
      change Option.map Turn.undone s.loop.state.turns[k]? = _ at hfalse
      rw [map_eq_some_iff] at hfalse
      obtain ⟨turn, hturn, hvisible⟩ := hfalse
      have hfinishing : snapshot ∈ s.finishing := by
        rw [finishing, hqueue]
        rfl
      have hentry := Std.ExtTreeMap.mem_toList_iff_getElem?_eq_some.2 hnew
      rw [hredone snapshot hfinishing (k, new) hentry hundone turn hturn] at hvisible
      cases hvisible
    · rw [isSome_map] at hk
      have hmem : SessionCommand.requestFinished requestId snapshot ∈ s.queue := by
        rw [hqueue]
        exact mem_cons_self
      rcases h.finished requestId snapshot hmem k hk with hsome | hann
      · change s.loop.flags.memory k = none at hnone
        rw [hnone] at hsome
        cases hsome
      · exact hann
  · refine h.broadcasts event ?_
    rw [hqueue]
    exact mem_cons_of_mem _ hevent
  · rw [hw] at hnil
    cases hnil.1
  · rw [hw] at hnil
    cases hnil.1
  · have hfin := filterMap_eq_nil_iff.1 hnil.2 _ hmem
    cases hfin

theorem continued_flagInvariant (hs : s.Invariant) (h : s.FlagInvariant) (hlive : s.live = true)
    (hqueue : s.queue = command :: queue) (hwrite : ∀ k, env.turnWrite k = true)
    (hsafe : FlagSafe (.process env) s) : (s.continued env command queue).FlagInvariant := by
  have hbroadcast : ∀ event, command = .broadcast event → event.isTurnFlag = false := by
    rintro event rfl
    refine h.broadcasts event ?_
    rw [hqueue]
    exact mem_cons_self
  have hflags := Loop.processCommand_flags env hwrite command s.loop.clearSpawned hbroadcast
  have hsame : ∀ {l' : Loop}, l'.flags = s.loop.clearSpawned.flags →
      s.loop.flags.Stable l'.flags ∧ l'.flags.Coherent := by
    intro l' heq
    rw [heq]
    exact ⟨.refl _, h.coherent⟩
  cases command with
  | undo =>
    have hset : ∃ f, (s.loop.clearSpawned.processCommand env .undo).1.flags = f ∧
        s.loop.flags.Stable f ∧ f.Coherent := by
      refine ⟨_, hflags, ?_⟩
      cases s.loop.clearSpawned.state.undoTurns with
      | none => exact ⟨.refl _, h.coherent⟩
      | some p => exact ⟨Flags.stable_set true p.1 _, h.coherent.set true p.1⟩
    obtain ⟨f, hf, hstable, hcoherent⟩ := hset
    exact continued_flagInvariant_of_stable hs h hqueue (hf ▸ hstable) (hf ▸ hcoherent)
  | redo =>
    have hset : ∃ f, (s.loop.clearSpawned.processCommand env .redo).1.flags = f ∧
        s.loop.flags.Stable f ∧ f.Coherent := by
      refine ⟨_, hflags, ?_⟩
      cases s.loop.clearSpawned.state.lastUndoTurnIds with
      | none => exact ⟨.refl _, h.coherent⟩
      | some ids => exact ⟨Flags.stable_set false ids _, h.coherent.set false ids⟩
    obtain ⟨f, hf, hstable, hcoherent⟩ := hset
    exact continued_flagInvariant_of_stable hs h hqueue (hf ▸ hstable) (hf ▸ hcoherent)
  | requestFinished requestId snapshot =>
    exact continued_flagInvariant_of_finished hs h hlive hwrite hqueue (hsafe.1 rfl)
  | _ =>
    obtain ⟨hstable, hcoherent⟩ := hsame hflags
    exact continued_flagInvariant_of_stable hs h hqueue hstable hcoherent

theorem persistAndExit_flags (env : CommandEnv) (l : Loop) :
    (l.persistAndExit env).flags = l.flags :=
  Loop.flags_eq (Loop.core_writeRecord env l) fun _ => announcedFlag_cons rfl

theorem processStep_flagInvariant (hs : s.Invariant) (h : s.FlagInvariant) (hlive : s.live = true)
    (hqueue : s.queue = command :: queue) (hwrite : ∀ k, env.turnWrite k = true)
    (hsafe : FlagSafe (.process env) s) : (s.processStep env command queue).FlagInvariant := by
  have hcont := continued_flagInvariant hs h hlive hqueue hwrite hsafe
  have hinv := processStep_invariant hs hlive env hqueue
  rcases s.processStep_cases env command queue with heq | ⟨-, heq⟩
  · rw [heq]
    exact hcont
  · rw [heq] at hinv ⊢
    refine hcont.of_stable (.refl _) hcont.coherent (persistAndExit_flags env _)
      (fun c hc => absurd hc not_mem_nil) fun w hw => ?_
    cases hinv.live_of_worker hw

theorem workStep_flags (hs : s.Invariant) (h : s.FlagInvariant) {w : Worker}
    (hworker : s.worker = some w) {wlabel : WorkerLabel} {effect : WorkerEffect}
    (hstep : w.step setup (s.cancelPending w) wlabel s.loop.store = some effect) :
    (s.workStep effect).loop.flags.Coherent ∧
      (s.workStep effect).loop.flags.memory = s.loop.flags.memory ∧
      (s.workStep effect).loop.flags.announced = s.loop.flags.announced := by
  have hann : (s.workStep effect).loop.flags.announced = s.loop.flags.announced := by
    funext k
    refine announcedFlag_append fun o ho => ?_
    rcases Worker.step_shape hstep with ⟨w', -, -, -, hout, -⟩ | ⟨outcome, snapshot, -, rfl⟩
    · rw [hout] at ho
      exact absurd ho not_mem_nil
    · rw [mem_toList, map_eq_some_iff] at ho
      obtain ⟨reply, -, rfl⟩ := ho
      rfl
  refine ⟨?_, rfl, hann⟩
  rcases Worker.step_store hstep with hstore | ⟨turnId, outcome, turn, -, hpc, hturn, hstore⟩
  · have hflags : (s.workStep effect).loop.flags = s.loop.flags := by
      refine Loop.flags_eq ?_ (congrFun hann)
      unfold workStep Loop.core
      simp only [hstore]
    rw [hflags]
    exact h.coherent
  · have howns := (hs.worker w hworker).owns_current (k := turnId) (by rw [hpc]; rfl)
    obtain ⟨hmem, hnone⟩ := h.own w hworker turnId howns
    have hflags : (s.workStep effect).loop.flags =
        { s.loop.flags with
          stored := fun j => if j = turnId then some turn.undone else s.loop.flags.stored j } := by
      refine Flags.ext rfl (funext fun j => ?_) hann
      change Option.map Turn.undone (effect.store.turns[j]?.getD none) = _
      rw [hstore]
      simp only [Store.writeTurn, Std.ExtTreeMap.get_insert]
      split_ifs <;> rfl
    rw [hflags]
    exact h.coherent.write hmem hnone turn.undone

theorem workStep_flagInvariant (hs : s.Invariant) (h : s.FlagInvariant) {w : Worker}
    (hworker : s.worker = some w) {wlabel : WorkerLabel} {effect : WorkerEffect}
    (hstep : w.step setup (s.cancelPending w) wlabel s.loop.store = some effect)
    (hsafe : FlagSafe (.work wlabel) s) : (s.workStep effect).FlagInvariant := by
  have hw := hs.worker w hworker
  obtain ⟨hcoherent, hmem, hann⟩ := workStep_flags hs h hworker hstep
  have hqueue : ∀ c ∈ (s.workStep effect).queue, c ∈ s.queue ∨ effect.command = some c := by
    intro c hc
    change c ∈ (if s.live then s.queue ++ effect.command.toList else s.queue) at hc
    split_ifs at hc
    · rw [mem_append, mem_toList] at hc
      exact hc
    · exact Or.inl hc
  refine ⟨hcoherent, fun event hevent => ?_, fun w' hw' k hk => ?_, fun w' hw' k hk => ?_,
    fun requestId snapshot hfin k hk => ?_⟩
  · rcases hqueue _ hevent with hold | hcommand
    · exact h.broadcasts event hold
    · rcases Worker.step_shape hstep with ⟨w', -, -, -, -, hout⟩ | ⟨outcome, snapshot, -, rfl⟩
      · rcases hw.outbox _ (hout _ hcommand).2 with hupdate | ⟨outcome, snapshot, -, hmem⟩
        · have hquiet : event.isQuiet = true := (Bool.and_eq_true_iff.1 hupdate).1
          exact Bool.not_eq_true' _ ▸ (Bool.and_eq_true _ _ ▸ hquiet : _ ∧ _).2
        · cases outcome with
          | done | failed error =>
            cases mem_singleton.1 hmem
            rfl
          | cancelled => exact absurd hmem not_mem_nil
      · cases hcommand
  · rw [hmem, hann]
    change effect.worker = some w' at hw'
    rcases Worker.step_shape hstep with ⟨w'', heq, -, hbase, -, -⟩ | ⟨outcome, snapshot, -, rfl⟩
    · cases hw'.symm.trans heq
      rw [hbase] at hk
      rcases Worker.step_nextTurnId hstep hw' with hnext | ⟨⟨now, cache, tokens, rfl⟩, -, hnext⟩
      · exact h.own w hworker k ⟨hk.1, hnext ▸ hk.2⟩
      · by_cases hlast : k = w.session.nextTurnId
        · obtain ⟨hfresh, hfresh'⟩ := hsafe.2 rfl w hworker
          rw [hlast]
          refine ⟨?_, hfresh'⟩
          change Option.map Turn.undone s.loop.state.turns[w.session.nextTurnId]? = none
          rw [hfresh]
          rfl
        · refine h.own w hworker k ⟨hk.1, ?_⟩
          have hlt := hk.2
          omega
    · cases hw'
  · rw [hmem]
    change effect.worker = some w' at hw'
    rcases Worker.step_shape hstep with ⟨w'', heq, -, hbase, -, -⟩ | ⟨outcome, snapshot, -, rfl⟩
    · cases hw'.symm.trans heq
      rw [hbase] at hk
      exact h.base w hworker k hk
    · cases hw'
  · rw [hmem, hann]
    rcases hqueue _ hfin with hold | hcommand
    · exact h.finished requestId snapshot hold k hk
    · rcases Worker.step_shape hstep with ⟨w', -, -, -, -, hout⟩ | ⟨outcome, snap, hpc, rfl⟩
      · have hnone := hw.finishedId_of_mem_outbox (hout _ hcommand).2
        cases hnone
      · cases hcommand
        rcases hw.handedBack snapshot (by rw [hpc]; rfl) with rfl | rfl
        · exact Or.inl (h.base w hworker k hk)
        · by_cases howns : Owns w.initialSnapshot w.session k
          · exact Or.inr (h.own w hworker k howns).2
          · rw [SessionState.snapshot_turns, hw.session.outside k howns] at hk
            exact Or.inl (h.base w hworker k hk)

theorem restart_flagInvariant (h : s.FlagInvariant) (boot : BootEnv) (record : SessionRecord) :
    FlagInvariant
      { live := true
        loop := Loop.sessionMain boot record s.loop.store s.loop.log
        queue := []
        worker := none } where
  coherent := by
    obtain ⟨sent, hlog, hsent⟩ := Loop.sessionMain_log boot record s.loop.store s.loop.log
    have hflags : (Loop.sessionMain boot record s.loop.store s.loop.log).flags =
        { s.loop.flags with
          memory := fun k =>
            (if boot.readOk then s.loop.store.readTurn k else none).map Turn.undone } := by
      refine Flags.ext (funext fun k => ?_) rfl (funext fun k => ?_)
      · change Option.map Turn.undone
          (Loop.sessionMain boot record s.loop.store s.loop.log).state.turns[k]? = _
        rw [Loop.sessionMain_turns]
      · change announcedFlag k (Loop.sessionMain boot record s.loop.store s.loop.log).log = _
        rw [hlog]
        exact announcedFlag_append fun o ho => Output.isTurnFlag_of_isQuiet (hsent o ho)
    rw [hflags]
    refine h.coherent.load fun k flag hflag => ?_
    split_ifs at hflag
    · rw [Store.readTurn, Option.map_map] at hflag
      exact hflag
    · cases hflag
  broadcasts _ hevent := absurd hevent not_mem_nil
  own _ hw := by cases hw
  base _ hw := by cases hw
  finished _ _ hmem := absurd hmem not_mem_nil

theorem step_flagInvariant (hs : s.Invariant) (h : s.FlagInvariant)
    (hwrite : label.TurnWritesSucceed) (hsafe : FlagSafe label s)
    (hstep : s.step setup label = some s') : s'.FlagInvariant := by
  rcases step_cases hstep with ⟨command, rfl, hlive, hext, rfl⟩ |
    ⟨env, command, queue, rfl, hlive, hqueue, rfl⟩ | ⟨wlabel, w, effect, rfl, hworker, hwork, rfl⟩ |
    ⟨boot, record, rfl, hrecord, rfl⟩
  · refine ⟨h.coherent, fun event hevent => ?_, h.own, h.base, fun id snapshot hmem => ?_⟩
    · rcases mem_append.1 hevent with hold | hnew
      · exact h.broadcasts event hold
      · cases mem_singleton.1 hnew
        cases event <;> first | rfl | cases hext
    · rcases mem_append.1 hmem with hold | hnew
      · exact h.finished id snapshot hold
      · cases mem_singleton.1 hnew
        cases hext
  · exact processStep_flagInvariant hs h hlive hqueue hwrite hsafe
  · exact workStep_flagInvariant hs h hworker hwork hsafe
  · exact restart_flagInvariant h boot record

/-- In every state of a run whose turn writes succeed and whose steps are safe, the three copies of
the flags agree. -/
theorem flagsAgree_of_run (setup : AgentSetup) (store : Store) (labels : List SystemLabel)
    (hwrite : ∀ label ∈ labels, label.TurnWritesSucceed)
    (hsafe : StepSystem.Along (step setup) FlagSafe labels (init store))
    (hrun : StepSystem.run (step setup) labels (init store) = some s) : s.FlagsAgree := by
  have hboth : s.Invariant ∧ s.FlagInvariant := by
    refine StepSystem.invariant_of_along (I := fun s => s.Invariant ∧ s.FlagInvariant)
      (G := fun label s => label.TurnWritesSucceed ∧ FlagSafe label s)
      (fun label s s' hG hI hstep => ?_) ⟨init_invariant store, init_flagInvariant store⟩
      (hsafe.and_labels hwrite) hrun
    exact ⟨step_invariant hI.1 hstep, step_flagInvariant hI.1 hI.2 hG.1 hG.2 hstep⟩
  exact hboth.2.flagsAgree

/-- A turn is undone while a request runs. -/
def undoDuringRequest : List SystemLabel :=
  [.restart Sample.boot] ++ Sample.post (.runInput 1 "again") ++ Sample.post .undo ++ Sample.call ++
    Sample.answer none ++ Sample.drain 7

/-- A turn is undone, and redone while the next request runs. -/
def redoDuringRequest : List SystemLabel :=
  [.restart Sample.boot] ++ Sample.post .undo ++ Sample.post (.runInput 1 "again") ++
    Sample.post .redo ++ Sample.call ++ Sample.answer none ++ Sample.drain 7

theorem undoDuringRequest_turnWritesSucceed :
    ∀ label ∈ undoDuringRequest, label.TurnWritesSucceed := by
  simp [undoDuringRequest, Sample.post, Sample.call, Sample.answer, Sample.drain,
    SystemLabel.TurnWritesSucceed, Sample.env]

theorem redoDuringRequest_turnWritesSucceed :
    ∀ label ∈ redoDuringRequest, label.TurnWritesSucceed := by
  simp [redoDuringRequest, Sample.post, Sample.call, Sample.answer, Sample.drain,
    SystemLabel.TurnWritesSucceed, Sample.env]

/-- An undo that lands while a request runs survives the end of the request. -/
theorem flagsAgree_undoDuringRequest :
    ∃ s, StepSystem.run (step Sample.setup) undoDuringRequest (init Sample.oneTurn) = some s ∧
      s.FlagsAgree := by
  have hsome : (StepSystem.run (step Sample.setup) undoDuringRequest (init Sample.oneTurn)).isSome := by
    decide
  obtain ⟨s, hrun⟩ := isSome_iff_exists.1 hsome
  refine ⟨s, hrun, flagsAgree_of_run Sample.setup Sample.oneTurn undoDuringRequest
    undoDuringRequest_turnWritesSucceed ?_ hrun⟩
  decide

/-- A redo that lands while a request runs is reverted by its end: the turn is undone in memory, but
not in the store, and the clients were told that it is back. -/
theorem not_flagsAgree_redoDuringRequest :
    (∀ label ∈ redoDuringRequest, label.TurnWritesSucceed) ∧
      ∃ s, StepSystem.run (step Sample.setup) redoDuringRequest (init Sample.oneTurn) = some s ∧
        ¬s.FlagsAgree := by
  refine ⟨redoDuringRequest_turnWritesSucceed, ?_⟩
  have hflags : (StepSystem.run (step Sample.setup) redoDuringRequest (init Sample.oneTurn)).map
      (fun s => (s.loop.state.turns[0]?.map Turn.undone, announcedFlag 0 s.loop.log)) =
      some (some true, some false) := by
    decide +kernel
  rw [map_eq_some_iff] at hflags
  obtain ⟨s, hrun, hs⟩ := hflags
  refine ⟨s, hrun, fun hagree => ?_⟩
  rw [Prod.mk.injEq, map_eq_some_iff] at hs
  obtain ⟨⟨turn, hturn, hundone⟩, hann⟩ := hs
  have hflag := (hagree 0 turn hturn).2 false hann
  rw [hundone] at hflag
  cases hflag

end System

end Choreo
