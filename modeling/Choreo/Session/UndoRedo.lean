import Choreo.Session.State

/-!
# An undo followed by a redo

An undo hides the most recent visible user turn and every later turn, and it remembers the ids of
all of them, also of those that an earlier undo had hidden already. The redo makes all of them
visible. It takes the undo back exactly when none of them was hidden before; after two undos in a
row it brings back the turns of both.
-/

namespace Choreo

open Option

namespace SessionState

variable (state : SessionState)

/-- The `undone` flag of a turn; `none` for an id without a turn. -/
def flag (k : ℕ) : Option Bool := state.turns[k]?.map Turn.undone

/-- The state after an undo, which changes nothing when there is no turn to undo. -/
def afterUndo : SessionState := (state.undoTurns.map Prod.snd).getD state

/-- The turn ids that an undo reports. -/
def undoReport : List ℕ := (state.undoTurns.map Prod.fst).getD []

/-- The state after a redo, which changes nothing when there is nothing to redo. -/
def afterRedo : SessionState := (state.redoTurns.map Prod.snd).getD state

/-- The turn ids that a redo reports. -/
def redoReport : List ℕ :=
  (state.redoTurns.map fun p => p.1.keys).getD []

/-- A redo right after an undo restores every flag, and both report the turns whose flag they
changed. -/
structure RedoRestores (state : SessionState) : Prop where
  flags : ∀ k : ℕ, state.afterUndo.afterRedo.flag k = state.flag k
  undoReported : ∀ k : ℕ, k ∈ state.undoReport ↔ state.afterUndo.flag k ≠ state.flag k
  redoReported : ∀ k : ℕ,
    k ∈ state.afterUndo.redoReport ↔ state.afterUndo.afterRedo.flag k ≠ state.afterUndo.flag k

/-- No turn from the undone one on is hidden before the undo; when there is nothing to undo, no
turn is remembered from an earlier undo either. -/
def RedoExact : Prop :=
  match undoTarget state.turns with
  | some target => ∀ k : ℕ, target ≤ k → state.flag k ≠ some true
  | none => ∀ k ∈ state.lastUndoTurnIds.getD [], state.flag k = none

/-! ### What the two commands do to the flags -/

theorem flag_setUndone (b : Bool) (ids : List ℕ) (state : SessionState) (k : ℕ) :
    ((setUndone b ids state.turns)[k]?.map Turn.undone) =
      if k ∈ ids then (state.flag k).map fun _ => b else state.flag k := by
  rw [get_setUndone, flag]
  split_ifs
  · simp only [map_map]
    rfl
  · rfl

theorem flag_afterRedo (k : ℕ) :
    state.afterRedo.flag k =
      if k ∈ state.lastUndoTurnIds.getD [] then (state.flag k).map fun _ => false
      else state.flag k := by
  rcases hids : state.lastUndoTurnIds with _ | ids
  · simp only [afterRedo, redoTurns, hids, map_none, getD_none, List.not_mem_nil,
      if_false]
  · simp only [afterRedo, redoTurns, hids, map_some, getD_some]
    exact flag_setUndone false ids state k

theorem mem_redoReport (k : ℕ) :
    k ∈ state.redoReport ↔
      k ∈ state.lastUndoTurnIds.getD [] ∧ (state.flag k).isSome = true := by
  rcases hids : state.lastUndoTurnIds with _ | ids
  · simp only [redoReport, redoTurns, hids, map_none, getD_none, List.not_mem_nil,
      false_and]
  · simp only [redoReport, redoTurns, hids, map_some, getD_some]
    rw [Std.ExtTreeMap.mem_keys, ← Std.ExtTreeMap.isSome_getElem?_iff_mem, get_restrict, flag,
      isSome_map]
    by_cases hk : k ∈ ids
    · simp only [hk, if_true, true_and, isSome_setUndone]
    · simp only [hk, if_false, false_and, isSome_none, Bool.false_eq_true]

variable {state : SessionState}

/-- Without a turn to undo, an undo changes nothing. -/
theorem undo_of_none (h : undoTarget state.turns = none) :
    state.afterUndo = state ∧ state.undoReport = [] := by
  constructor
  · simp only [afterUndo, undoTurns, h, map_none, getD_none]
  · simp only [undoReport, undoTurns, h, map_none, getD_none]

variable {target : ℕ}

theorem mem_undoReport
    (h : undoTarget state.turns = some target) (k : ℕ) :
    k ∈ state.undoReport ↔ target ≤ k ∧ (state.flag k).isSome = true := by
  simp only [undoReport, undoTurns, h, map_some, getD_some]
  rw [List.mem_filter, Std.ExtTreeMap.mem_keys, ← Std.ExtTreeMap.isSome_getElem?_iff_mem, flag,
    isSome_map, decide_eq_true_iff, and_comm]

theorem lastUndoTurnIds_afterUndo
    (h : undoTarget state.turns = some target) :
    state.afterUndo.lastUndoTurnIds = some state.undoReport := by
  simp only [afterUndo, undoReport, undoTurns, h, map_some, getD_some]

theorem flag_afterUndo
    (h : undoTarget state.turns = some target) (k : ℕ) :
    state.afterUndo.flag k =
      if k ∈ state.undoReport then (state.flag k).map fun _ => true else state.flag k := by
  simp only [afterUndo, undoReport, undoTurns, h, map_some, getD_some]
  exact flag_setUndone true _ state k

/-! ### When the redo takes the undo back -/

theorem flag_afterUndo_afterRedo
    (h : undoTarget state.turns = some target) (k : ℕ) :
    state.afterUndo.afterRedo.flag k =
      if k ∈ state.undoReport then (state.flag k).map fun _ => false else state.flag k := by
  rw [flag_afterRedo, lastUndoTurnIds_afterUndo h, getD_some, flag_afterUndo h]
  split_ifs
  · rw [map_map]
    rfl
  · rfl

theorem redoRestores_iff_of_some
    (h : undoTarget state.turns = some target) :
    state.RedoRestores ↔ ∀ k : ℕ, target ≤ k → state.flag k ≠ some true := by
  constructor
  · intro hr k hk htrue
    have hflag := hr.flags k
    have hmem : k ∈ state.undoReport := by
      rw [mem_undoReport h, htrue]
      exact ⟨hk, rfl⟩
    rw [flag_afterUndo_afterRedo h, if_pos hmem, htrue] at hflag
    cases hflag
  · intro hvisible
    -- a reported turn exists and was visible, so each command flips its flag
    have hfalse : ∀ k ∈ state.undoReport, state.flag k = some false := by
      intro k hk
      rw [mem_undoReport h] at hk
      obtain ⟨b, hb⟩ := isSome_iff_exists.1 hk.2
      have hne := hvisible k hk.1
      rcases b with _ | _
      · exact hb
      · exact absurd hb hne
    refine ⟨fun k => ?_, fun k => ?_, fun k => ?_⟩
    · rw [flag_afterUndo_afterRedo h]
      by_cases hk : k ∈ state.undoReport
      · rw [if_pos hk, hfalse k hk]
        rfl
      · rw [if_neg hk]
    · rw [flag_afterUndo h]
      by_cases hk : k ∈ state.undoReport
      · simp [hk, hfalse k hk]
      · simp [hk]
    · rw [flag_afterUndo_afterRedo h, mem_redoReport, lastUndoTurnIds_afterUndo h,
        getD_some, flag_afterUndo h]
      by_cases hk : k ∈ state.undoReport
      · simp [hk, hfalse k hk]
      · simp [hk]

theorem redoRestores_iff_of_none (h : undoTarget state.turns = none) :
    state.RedoRestores ↔ ∀ k ∈ state.lastUndoTurnIds.getD [], state.flag k = none := by
  obtain ⟨hundo, hreport⟩ := undo_of_none h
  constructor
  · intro hr k hk
    -- a remembered turn would be reported, although the flags do not change
    have hflag := hr.flags k
    have hredo := hr.redoReported k
    rw [hundo] at hflag hredo
    rw [hflag, mem_redoReport] at hredo
    by_contra hsome
    exact hredo.1 ⟨hk, isSome_iff_ne_none.2 hsome⟩ rfl
  · intro hgone
    have hsame : ∀ k, state.afterRedo.flag k = state.flag k := by
      intro k
      rw [flag_afterRedo]
      split_ifs with hk
      · rw [hgone k hk]
        rfl
      · rfl
    refine ⟨fun k => ?_, fun k => ?_, fun k => ?_⟩
    · rw [hundo, hsame]
    · rw [hreport, hundo]
      simp
    · rw [hundo, hsame, mem_redoReport]
      constructor
      · rintro ⟨hk, hsome⟩
        rw [hgone k hk] at hsome
        cases hsome
      · exact fun hne => absurd rfl hne

/-- A redo right after an undo restores the flags and both report what they changed, exactly when
nothing that the redo shows was hidden before the undo. -/
theorem redoRestores_iff (state : SessionState) : state.RedoRestores ↔ state.RedoExact := by
  rw [RedoExact]
  rcases h : undoTarget state.turns with _ | target
  · exact redoRestores_iff_of_none h
  · exact redoRestores_iff_of_some h

/-! ### Two undos in a row -/

/-- A session of two user turns after one undo: its second turn is hidden. -/
def undoneOnce : SessionState :=
  ((({} : SessionState).startTurn 0 (some "first")).2.startTurn 1 (some "second")).2.afterUndo

/-- The second undo and the redo together bring back the turn that the first undo had hidden. -/
theorem not_redoRestores_twice : ¬undoneOnce.RedoRestores := by
  intro h
  have hflag := h.flags 1
  revert hflag
  decide

/-! ### Any number of undos and redos -/

/-- Every hidden turn is remembered, and no visible turn comes after it. -/
def HidesRest (s : SessionState) : Prop :=
  ∀ i, s.flag i = some true →
    i ∈ s.lastUndoTurnIds.getD [] ∧ ∀ j, i ≤ j → s.flag j ≠ some false

theorem HidesRest.undo (h : state.HidesRest) : state.afterUndo.HidesRest := by
  rcases htarget : undoTarget state.turns with - | target
  · rwa [(undo_of_none htarget).1]
  · have hreport := mem_undoReport htarget
    have hvisible : state.flag target = some false := by
      obtain ⟨p, hfind, rfl⟩ := map_eq_some_iff.1 htarget
      have hturn := Std.ExtTreeMap.mem_toList_iff_getElem?_eq_some.1
        (List.mem_reverse.1 (List.mem_of_find?_eq_some hfind))
      have := List.find?_some hfind
      simp_all [flag]
    intro i hi
    rw [flag_afterUndo htarget] at hi
    have hmem : i ∈ state.undoReport := by
      by_contra hnot
      rw [if_neg hnot] at hi
      exact (h i hi).2 target (Nat.le_of_not_le fun hle =>
        hnot ((hreport i).2 ⟨hle, by rw [hi]; rfl⟩)) hvisible
    refine ⟨by rwa [lastUndoTurnIds_afterUndo htarget], fun j hij hj => ?_⟩
    rw [flag_afterUndo htarget] at hj
    split_ifs at hj with hlater
    · simp at hj
    · exact hlater ((hreport j).2 ⟨((hreport i).1 hmem).1.trans hij, by rw [hj]; rfl⟩)

theorem HidesRest.redo (h : state.HidesRest) (k : ℕ) : state.afterRedo.flag k ≠ some true := by
  intro hk
  rw [flag_afterRedo] at hk
  split_ifs at hk with hmem
  · simp at hk
  · exact hmem (h k hk).1

/-- However often undos (`true`) and redos follow each other in a session without hidden turns, no
visible turn comes after a hidden one, and one redo shows everything. -/
theorem hidesRest_of_run (start : SessionState) (h : ∀ k, start.flag k ≠ some true)
    (commands : List Bool) :
    let s := commands.foldl (fun s undo => if undo then s.afterUndo else s.afterRedo) start
    s.HidesRest ∧ ∀ k, s.afterRedo.flag k ≠ some true := by
  suffices hrun : HidesRest _ from ⟨hrun, hrun.redo⟩
  refine List.foldlRecOn commands _ (fun i hi => absurd hi (h i)) fun s hs undo _ => ?_
  cases undo
  · exact fun i hi => absurd hi (hs.redo i)
  · exact hs.undo

/-- A session of two user turns. -/
def twoTurns : SessionState :=
  ((({} : SessionState).startTurn 0 (some "hi")).2.startTurn 1 (some "more")).2

/-- Two undos hide both turns, a redo shows them, and another undo hides the last one. -/
theorem hidesRest_twoTurns :
    (twoTurns.afterUndo.afterUndo.flag 0 = some true ∧
      twoTurns.afterUndo.afterUndo.afterRedo.afterUndo.flag 0 = some false) ∧
    twoTurns.afterUndo.afterUndo.afterRedo.afterUndo.HidesRest ∧
      ∀ k, twoTurns.afterUndo.afterUndo.afterRedo.afterUndo.afterRedo.flag k ≠ some true := by
  refine ⟨⟨by decide, by decide⟩, hidesRest_of_run twoTurns ?_ [true, true, false, true]⟩
  intro k
  simp only [twoTurns, flag, startTurn, Std.ExtTreeMap.getElem?_insert]
  split_ifs <;> simp

end SessionState

end Choreo
