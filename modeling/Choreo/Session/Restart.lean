import Choreo.Session.System
import Choreo.Session.Frame

/-!
# Starting a session from its store

What a session thread starts with: the turns that the reader returns, a next turn id above all of
them, no redo memory and no requests.
-/

namespace Choreo

open List Option

namespace Store

theorem mem_readTurns {store : Store} {k : ℕ} {turn : Turn} :
    (k, turn) ∈ store.readTurns ↔ store.readTurn k = some turn := by
  unfold readTurns
  rw [mem_filterMap]
  constructor
  · rintro ⟨⟨k', row⟩, -, hread⟩
    rw [map_eq_some_iff] at hread
    obtain ⟨turn', hturn', heq⟩ := hread
    cases heq
    exact hturn'
  · intro hread
    cases hrow : store.turns[k]? with
    | none =>
      rw [readTurn, hrow] at hread
      cases hread
    | some row =>
      refine ⟨(k, row), Std.ExtTreeMap.mem_toList_iff_getElem?_eq_some.2 hrow, ?_⟩
      rw [hread]
      rfl

/-- Loading all turns that can be read. -/
theorem get_foldl_readTurns (store : Store) (k : ℕ) :
    (store.readTurns.foldl (fun (m : TurnMap) entry => m.insert entry.1 entry.2) ∅)[k]? =
      store.readTurn k := by
  unfold readTurns
  rw [foldl_filterMap, Std.ExtTreeMap.foldl_toList_view (fun (m : TurnMap) k => m[k]?)
    (fun k old _ => (store.readTurn k).elim old some)]
  · cases hrow : store.turns[k]? with
    | none =>
      rw [readTurn, hrow]
      exact Std.ExtTreeMap.getElem?_empty
    | some row =>
      rw [elim_some, Std.ExtTreeMap.getElem?_empty]
      cases store.readTurn k <;> rfl
  · intro m k row k'
    cases store.readTurn k with
    | none =>
      dsimp only [map_none, elim_none]
      split_ifs with hk
      · rw [hk]
      · rfl
    | some turn => exact Std.ExtTreeMap.get_insert m k k' turn

end Store

/-- The running maximum of the ids bounds all of them. -/
theorem lt_foldl_max {entries : List (ℕ × Turn)} {entry : ℕ × Turn} (h : entry ∈ entries) (n : ℕ) :
    entry.1 < entries.foldl (fun n entry => max n (entry.1 + 1)) n ∧
      n ≤ entries.foldl (fun n entry => max n (entry.1 + 1)) n := by
  have hmono : ∀ (entries : List (ℕ × Turn)) (n : ℕ),
      n ≤ entries.foldl (fun n entry => max n (entry.1 + 1)) n := by
    intro entries
    induction entries with
    | nil => exact fun n => le_refl n
    | cons e entries ih => exact fun n => (le_max_left n (e.1 + 1)).trans (ih _)
  refine ⟨?_, hmono entries n⟩
  induction entries generalizing n with
  | nil => exact absurd h not_mem_nil
  | cons e entries ih =>
    rw [foldl_cons]
    rcases mem_cons.1 h with rfl | h
    · exact lt_of_lt_of_le (Nat.lt_succ_self _) ((le_max_right n _).trans (hmono entries _))
    · exact ih h _

theorem foldl_max_le {entries : List (ℕ × Turn)} {n b : ℕ} (hn : n ≤ b)
    (h : ∀ entry ∈ entries, entry.1 < b) :
    entries.foldl (fun n entry => max n (entry.1 + 1)) n ≤ b := by
  induction entries generalizing n with
  | nil => exact hn
  | cons e entries ih =>
    rw [foldl_cons]
    exact ih (max_le hn (h e mem_cons_self)) fun e he => h e (mem_cons_of_mem _ he)

namespace Loop

variable (boot : BootEnv) (record : SessionRecord) (store : Store) (log : List Output)

/-- The turns in memory are those that can be read. -/
theorem sessionMain_turns (k : ℕ) :
    (sessionMain boot record store log).state.turns[k]? =
      if boot.readOk then store.readTurn k else none := by
  unfold sessionMain SessionState.loadTurns
  dsimp only
  cases boot.readOk with
  | true =>
    simp only [if_true, SessionState.foldl_loadTurn]
    exact store.get_foldl_readTurns k
  | false => exact Std.ExtTreeMap.getElem?_empty

theorem sessionMain_nextTurnId :
    (sessionMain boot record store log).state.nextTurnId =
      if boot.readOk then store.readTurns.foldl (fun n entry => max n (entry.1 + 1)) 0 else 0 := by
  unfold sessionMain SessionState.loadTurns
  dsimp only
  cases boot.readOk with
  | true => simp only [if_true, SessionState.foldl_loadTurn]
  | false => rfl

theorem lt_nextTurnId_sessionMain {k : ℕ}
    (h : (sessionMain boot record store log).state.turns[k]?.isSome = true) :
    k < (sessionMain boot record store log).state.nextTurnId := by
  rw [sessionMain_turns] at h
  rw [sessionMain_nextTurnId]
  split_ifs at h ⊢
  · obtain ⟨turn, hturn⟩ := isSome_iff_exists.1 h
    exact (lt_foldl_max (Store.mem_readTurns.2 hturn) 0).1
  · cases h

/-- The next turn id is the least such bound. -/
theorem sessionMain_nextTurnId_le {b : ℕ}
    (h : ∀ k, (sessionMain boot record store log).state.turns[k]?.isSome = true → k < b) :
    (sessionMain boot record store log).state.nextTurnId ≤ b := by
  rw [sessionMain_nextTurnId]
  simp only [sessionMain_turns] at h
  split_ifs at h ⊢
  · refine foldl_max_le (Nat.zero_le b) fun entry hentry => h entry.1 ?_
    rw [Store.mem_readTurns.1 (show (entry.1, entry.2) ∈ store.readTurns from hentry)]
    rfl
  · exact Nat.zero_le b

@[simp]
theorem sessionMain_store : (sessionMain boot record store log).store = store := rfl

@[simp]
theorem sessionMain_shutdownRequested :
    (sessionMain boot record store log).shutdownRequested = false := rfl

theorem sessionMain_lastUndoTurnIds :
    (sessionMain boot record store log).state.lastUndoTurnIds = none := by
  unfold sessionMain SessionState.loadTurns
  dsimp only
  split_ifs
  · rw [SessionState.foldl_loadTurn]
  · rfl

/-- A start only sends quiet outputs. -/
theorem sessionMain_log :
    ∃ sent, (sessionMain boot record store log).log = sent ++ log ∧
      ∀ o ∈ sent, o.isQuiet = true := by
  unfold sessionMain
  dsimp only
  generalize (record.selectedModel.bind fun model => boot.provider.bind fun provider =>
    provider.resolveContextWindow boot.catalog model) = cw
  cases cw with
  | none =>
    exact ⟨[.updateMetadata _], rfl, fun o ho => by
      rw [mem_singleton.1 ho]
      rfl⟩
  | some cw =>
    exact ⟨[.updateMetadata _, .broadcast (.contextWindowResolved cw) []], rfl, fun o ho => by
      rcases mem_pair.1 ho with rfl | rfl <;> rfl⟩

end Loop

end Choreo
