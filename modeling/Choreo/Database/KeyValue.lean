import Choreo.Proto
import Choreo.Library.OrderedTable
import Choreo.Library.Runs
import Choreo.Library.Utf8
import Mathlib.Data.String.Basic

/-!
# The key-value store of the sessions

All sessions keep their key-value pairs in one table, ordered by session id and key
(`kv_set` to `kv_count` of `choreo-daemon/src/db/mod.rs`). Ranges of one session end at a key of the
session or at the empty key of the next session id, and a prefix is counted as the range from the
prefix to the prefix followed by the replacement character U+FFFD.

The store behaves like one sorted map for each session, except in three corners: a key that goes on
after the prefix with U+FFFD or a larger character is not counted, the largest session id has no
next one, so that its ranges without an end are empty, and what only reads fails until a write has
created the table.
-/

namespace Choreo

open OrderedTable List Option

/-- The order of the keys: by session id, then by key. -/
abbrev kvOrder : ℕ × String → ℕ × String → Ordering := keyOrder compare compare

abbrev KvTable := Std.ExtTreeMap (ℕ × String) Bytes kvOrder

/-- The database; there is no table until a write has created it. -/
abbrev KvDb := Option KvTable

/-- The pairs of one session. -/
abbrev KvMap := Std.ExtTreeMap String Bytes

def sessionRangeEnd (sessionId : ℕ) : ℕ := min (sessionId + 1) (2 ^ 64 - 1)

def prefixRangeEnd (pre : String) : String :=
  String.ofList (Utf8.decodeLossy (Utf8.encode pre.toList ++ [0xFF]))

namespace KvTable

variable (sessionId : ℕ)

def kvRange (start : String) (stop : Option String) (t : KvTable) :
    List ((ℕ × String) × Bytes) :=
  match stop with
  | some stop => rangeEntries t (sessionId, start) (sessionId, stop)
  | none => rangeEntries t (sessionId, start) (sessionRangeEnd sessionId, "")

/-- Inserts or overwrites a pair. -/
def kvSet (key : String) (value : Bytes) (t : KvTable) : KvTable :=
  t.insert (sessionId, key) value

def kvGet (key : String) (t : KvTable) : Option Bytes := t[(sessionId, key)]?

/-- Removes a key; returns whether it was there. -/
def kvDelete (key : String) (t : KvTable) : Bool × KvTable :=
  (t[(sessionId, key)]?.isSome, t.erase (sessionId, key))

/-- Removes the keys of a range; returns how many there were. -/
def kvDeleteRange (start : String) (stop : Option String) (t : KvTable) :
    ℕ × KvTable :=
  let keys := (t.kvRange sessionId start stop).map Prod.fst
  (keys.length, removeKeys keys t)

/-- The pairs of a range. -/
def kvGetRange (start : String) (stop : Option String) (t : KvTable) :
    List (String × Bytes) :=
  (t.kvRange sessionId start stop).map fun p => (p.1.2, p.2)

/-- The keys of a range, which may start at the session's first key. -/
def kvList (start stop : Option String) (t : KvTable) : List String :=
  (t.kvRange sessionId (start.getD "") stop).map fun p => p.1.2

def kvCount (pre : Option String) (t : KvTable) : ℕ :=
  match pre with
  | some pre =>
    (rangeEntries t (sessionId, pre) (sessionId, prefixRangeEnd pre)).length
  | none => (rangeEntries t (sessionId, "") (sessionRangeEnd sessionId, "")).length

end KvTable

/-! ### One map for each session -/

def inRange (start : String) (stop : Option String) (key : String) : Bool :=
  decide (start ≤ key) && stop.all fun stop => decide (key < stop)

/-- Whether a key starts with a prefix. -/
def hasPrefix (pre key : String) : Bool := pre.toList.isPrefixOf key.toList

/-- An operation on the store of the sessions. -/
inductive KvOp
  | set (sessionId : ℕ) (key : String) (value : Bytes)
  | get (sessionId : ℕ) (key : String)
  | delete (sessionId : ℕ) (key : String)
  | deleteRange (sessionId : ℕ) (start : String) (stop : Option String)
  | getRange (sessionId : ℕ) (start : String) (stop : Option String)
  | list (sessionId : ℕ) (start stop : Option String)
  | count (sessionId : ℕ) (pre : Option String)
deriving DecidableEq, Repr

/-- What an operation returns. -/
inductive KvResult
  | unit
  | value (value : Option Bytes)
  | removed (found : Bool)
  | count (n : ℕ)
  | pairs (pairs : List (String × Bytes))
  | keys (keys : List String)
deriving DecidableEq, Repr

namespace KvOp

/-- Whether an operation opens the table for reading only. -/
def reads : KvOp → Bool
  | .set .. | .delete .. | .deleteRange .. => false
  | .get .. | .getRange .. | .list .. | .count .. => true

/-- An operation on the table that it has opened. -/
def apply : KvOp → KvTable → KvResult × KvTable
  | .set sessionId key value, t => (.unit, t.kvSet sessionId key value)
  | .get sessionId key, t => (.value (t.kvGet sessionId key), t)
  | .delete sessionId key, t =>
    (.removed (t.kvDelete sessionId key).1, (t.kvDelete sessionId key).2)
  | .deleteRange sessionId start stop, t =>
    (.count (t.kvDeleteRange sessionId start stop).1, (t.kvDeleteRange sessionId start stop).2)
  | .getRange sessionId start stop, t => (.pairs (t.kvGetRange sessionId start stop), t)
  | .list sessionId start stop, t => (.keys (t.kvList sessionId start stop), t)
  | .count sessionId pre, t => (.count (t.kvCount sessionId pre), t)

/-- An operation on the database: a write creates the table, and a read fails without it. -/
def applyDb (op : KvOp) (db : KvDb) : Option KvResult × KvDb :=
  if op.reads && db.isNone then (none, none)
  else (some (op.apply (db.getD ∅)).1, some (op.apply (db.getD ∅)).2)

def pairsIn (start : String) (stop : Option String) (m : KvMap) : List (String × Bytes) :=
  m.toList.filter fun p => inRange start stop p.1

/-- The meaning of an operation on one sorted map for each session. -/
def spec : KvOp → (ℕ → KvMap) → KvResult × (ℕ → KvMap)
  | .set sessionId key value, parts =>
    (.unit, Function.update parts sessionId ((parts sessionId).insert key value))
  | .get sessionId key, parts => (.value (parts sessionId)[key]?, parts)
  | .delete sessionId key, parts =>
    (.removed (parts sessionId)[key]?.isSome,
      Function.update parts sessionId ((parts sessionId).erase key))
  | .deleteRange sessionId start stop, parts =>
    let keys := (pairsIn start stop (parts sessionId)).map Prod.fst
    (.count keys.length, Function.update parts sessionId (removeKeys keys (parts sessionId)))
  | .getRange sessionId start stop, parts =>
    (.pairs (pairsIn start stop (parts sessionId)), parts)
  | .list sessionId start stop, parts =>
    (.keys ((pairsIn (start.getD "") stop (parts sessionId)).map Prod.fst), parts)
  | .count sessionId pre, parts =>
    (.count ((parts sessionId).toList.filter fun p => hasPrefix (pre.getD "") p.1).length, parts)

def RangeExact (sessionId : ℕ) (start : String) (t : KvTable) : Prop :=
  ∀ key : String, start ≤ key → t[(sessionId, key)]?.isSome = true → sessionId < 2 ^ 64 - 1

/-- No key goes on after the prefix with a character from U+FFFD on. -/
def PrefixExact (sessionId : ℕ) (pre : String) (t : KvTable) : Prop :=
  ∀ (key : String) (c : Char) (rest : List Char), key.toList = pre.toList ++ c :: rest →
    t[(sessionId, key)]?.isSome = true → c < Utf8.replacement

/-- The operations on which the table behaves like the maps: ranges without an end stay below the
largest session id, and a counted prefix is followed by smaller characters than U+FFFD. -/
def Exact : KvOp → KvTable → Prop
  | .deleteRange sessionId start none, t => RangeExact sessionId start t
  | .getRange sessionId start none, t => RangeExact sessionId start t
  | .list sessionId start none, t => RangeExact sessionId (start.getD "") t
  | .count sessionId none, t => RangeExact sessionId "" t
  | .count sessionId (some pre), t => PrefixExact sessionId pre t
  | _, _ => True

/-- The operations on which the database behaves like the maps: those, if the table is there or they
create it. -/
def ExactDb (op : KvOp) (db : KvDb) : Prop :=
  (op.reads = true → db.isSome = true) ∧ op.Exact (db.getD ∅)

/-- The results of a sequence of operations on the database, and the database after them. -/
def runDb : List KvOp → KvDb → List (Option KvResult) × KvDb
  | [], db => ([], db)
  | op :: ops, db =>
    ((op.applyDb db).1 :: (runDb ops (op.applyDb db).2).1, (runDb ops (op.applyDb db).2).2)

/-- The results of a sequence of operations on the maps, and the maps after them. -/
def runSpec : List KvOp → (ℕ → KvMap) → List KvResult × (ℕ → KvMap)
  | [], parts => ([], parts)
  | op :: ops, parts =>
    ((op.spec parts).1 :: (runSpec ops (op.spec parts).2).1, (runSpec ops (op.spec parts).2).2)

end KvOp

/-! ### Strings as keys -/

theorem compare_eq_lt_iff {s t : String} : compare s t = .lt ↔ s < t :=
  compareOfLessAndEq_eq_lt

theorem isLE_compare_iff {s t : String} : (compare s t).isLE = true ↔ s ≤ t :=
  isLE_compareOfLessAndEq String.le_antisymm String.not_le String.le_total

theorem compare_empty_ne_lt (s : String) : compare s "" ≠ .lt := by
  rw [ne_eq, compare_eq_lt_iff, String.lt_iff_toList_lt]
  exact not_lt_nil _

theorem isLE_compare_empty (s : String) : (compare "" s).isLE = true := by
  rw [Ordering.isLE_iff_ne_gt, Std.OrientedCmp.gt_iff_lt]
  exact compare_empty_ne_lt s

theorem toList_prefixRangeEnd (pre : String) :
    (prefixRangeEnd pre).toList = pre.toList ++ [Utf8.replacement] := by
  rw [prefixRangeEnd, String.toList_ofList, Utf8.decodeLossy_encode_append]
  rfl

/-- The texts from a prefix up to the prefix and a character are those that go on with a smaller
character. -/
theorem between_append_iff {pre key : List Char} {c : Char} :
    ¬key < pre ∧ key < pre ++ [c] ↔ ∃ rest, key = pre ++ rest ∧ ∀ d ∈ rest.head?, d < c := by
  induction pre generalizing key with
  | nil =>
    rcases key with _ | ⟨d, key⟩
    · simp
    · simp [cons_lt_cons_iff]
  | cons a pre ih =>
    rcases key with _ | ⟨d, key⟩
    · simp
    · rw [cons_append, cons_lt_cons_iff, cons_lt_cons_iff]
      constructor
      · rintro ⟨hnot, hlt⟩
        have hda : d = a := by
          rcases hlt with h | ⟨h, -⟩
          · exact absurd (Or.inl h) hnot
          · exact h
        subst hda
        have hkey : key < pre ++ [c] := by
          rcases hlt with h | ⟨-, h⟩
          · exact absurd h (Char.lt_irrefl d)
          · exact h
        obtain ⟨rest, rfl, hhead⟩ := ih.1 ⟨fun h => hnot (Or.inr ⟨rfl, h⟩), hkey⟩
        exact ⟨rest, rfl, hhead⟩
      · rintro ⟨rest, heq, hhead⟩
        rw [cons_append, cons.injEq] at heq
        obtain ⟨rfl, rfl⟩ := heq
        obtain ⟨hnot, hlt⟩ := ih.2 ⟨rest, rfl, hhead⟩
        refine ⟨?_, Or.inr ⟨rfl, hlt⟩⟩
        rintro (h | ⟨-, h⟩)
        · exact Char.lt_irrefl d h
        · exact hnot h

/-- The keys that are counted for a prefix. -/
theorem inRange_prefixRangeEnd_iff {pre key : String} :
    inRange pre (some (prefixRangeEnd pre)) key = true ↔
      ∃ rest, key.toList = pre.toList ++ rest ∧ ∀ d ∈ rest.head?, d < Utf8.replacement := by
  rw [inRange, all_some, Bool.and_eq_true, decide_eq_true_iff, decide_eq_true_iff,
    ← String.not_lt, String.lt_iff_toList_lt, String.lt_iff_toList_lt, toList_prefixRangeEnd,
    between_append_iff]

theorem hasPrefix_iff {pre key : String} :
    hasPrefix pre key = true ↔ ∃ rest, key.toList = pre.toList ++ rest := by
  rw [hasPrefix, isPrefixOf_iff_prefix]
  exact ⟨fun ⟨rest, h⟩ => ⟨rest, h.symm⟩, fun ⟨rest, h⟩ => ⟨rest, h.symm⟩⟩

/-! ### Ranges of one session -/

section Ranges

variable {t : KvTable} {parts : ℕ → KvMap} {sessionId : ℕ}

theorem bounds_some (sessionId : ℕ) (start stop : String) (x : ℕ) (k : String) :
    (kvOrder (sessionId, start) (x, k)).isLE = true ∧ kvOrder (x, k) (sessionId, stop) = .lt ↔
      x = sessionId ∧ inRange start (some stop) k = true := by
  refine between_iff.trans (and_congr_right fun _ => ?_)
  rw [inRange, all_some, Bool.and_eq_true, Bool.and_eq_true, beq_iff_eq,
    decide_eq_true_iff, decide_eq_true_iff, isLE_compare_iff, compare_eq_lt_iff]

theorem bounds_none (h : sessionId < 2 ^ 64 - 1) (start : String) (x : ℕ) (k : String) :
    (kvOrder (sessionId, start) (x, k)).isLE = true ∧
        kvOrder (x, k) (sessionRangeEnd sessionId, "") = .lt ↔
      x = sessionId ∧ inRange start none k = true := by
  have hend : sessionRangeEnd sessionId = sessionId + 1 := by
    rw [sessionRangeEnd]
    omega
  rw [hend]
  refine (from_iff compare_empty_ne_lt (Nat.compare_eq_lt.2 (Nat.lt_succ_self _))
    fun y hle hlt => ?_).trans (and_congr_right fun _ => ?_)
  · rw [Nat.isLE_compare] at hle
    rw [Nat.compare_eq_lt] at hlt
    omega
  · rw [inRange, all_none, Bool.and_true, decide_eq_true_iff, isLE_compare_iff]

theorem kvRange_last (h : ¬sessionId < 2 ^ 64 - 1) (t : KvTable) (start : String) :
    t.kvRange sessionId start none = [] := by
  refine rangeEntries_of_le ?_ t
  have hend : sessionRangeEnd sessionId ≤ sessionId := by
    rw [sessionRangeEnd]
    omega
  rw [kvOrder, keyOrder_mk, Ordering.isLE_then_iff_and, Nat.isLE_compare]
  exact ⟨hend, Or.inr (isLE_compare_empty start)⟩

/-- A range is what the session's map has in it; or the range has no end and the session is the
last one, and then nothing is found although the map has something in it. -/
theorem range_cases (h : Splits t parts) (sessionId : ℕ) (start : String)
    (stop : Option String) :
    ((stop = none → KvOp.RangeExact sessionId start t) ∧
        t.kvGetRange sessionId start stop = KvOp.pairsIn start stop (parts sessionId) ∧
        (t.kvRange sessionId start stop).map Prod.fst =
          ((KvOp.pairsIn start stop (parts sessionId)).map Prod.fst).map (Prod.mk sessionId)) ∨
      (¬(stop = none → KvOp.RangeExact sessionId start t) ∧
        t.kvRange sessionId start stop = [] ∧
        KvOp.pairsIn start stop (parts sessionId) ≠ []) := by
  rcases stop with _ | stop
  · by_cases hlast : sessionId < 2 ^ 64 - 1
    · exact Or.inl ⟨fun _ _ _ _ => hlast, h.map_rangeEntries (bounds_none hlast start),
        h.map_fst_rangeEntries (bounds_none hlast start)⟩
    · have hnil := kvRange_last hlast t start
      by_cases hpairs : KvOp.pairsIn start none (parts sessionId) = []
      · refine Or.inl ⟨fun _ key hkey hmem => ?_, ?_, ?_⟩
        · -- a key in the range would be among the pairs
          exfalso
          rw [h sessionId key] at hmem
          obtain ⟨a, ha⟩ := isSome_iff_exists.1 hmem
          have hin : (key, a) ∈ KvOp.pairsIn start none (parts sessionId) := by
            rw [KvOp.pairsIn, mem_filter, Std.ExtTreeMap.mem_toList_iff_getElem?_eq_some]
            exact ⟨ha, by rw [inRange, decide_eq_true hkey]; rfl⟩
          rw [hpairs] at hin
          cases hin
        · rw [KvTable.kvGetRange, hnil, hpairs]
          rfl
        · rw [hnil, hpairs]
          rfl
      · refine Or.inr ⟨fun hexact => ?_, hnil, hpairs⟩
        obtain ⟨⟨key, a⟩, hin⟩ := exists_mem_of_ne_nil _ hpairs
        rw [KvOp.pairsIn, mem_filter, Std.ExtTreeMap.mem_toList_iff_getElem?_eq_some, inRange,
          all_none, Bool.and_true, decide_eq_true_iff] at hin
        exact hlast (hexact rfl key hin.2 (by rw [h sessionId key, hin.1]; rfl))
  · exact Or.inl ⟨fun hnone => absurd hnone (some_ne_none stop),
      h.map_rangeEntries (bounds_some sessionId start stop),
      h.map_fst_rangeEntries (bounds_some sessionId start stop)⟩

/-- The pairs that are counted for a prefix are those of the session that have it, exactly when no
character from U+FFFD on follows the prefix. -/
theorem length_prefix_iff (h : Splits t parts) (sessionId : ℕ) (pre : String) :
    t.kvCount sessionId (some pre) =
        ((parts sessionId).toList.filter fun p => hasPrefix pre p.1).length ↔
      KvOp.PrefixExact sessionId pre t := by
  have hcount : t.kvCount sessionId (some pre) =
      (((parts sessionId).toList.filter fun p => hasPrefix pre p.1).filter
        fun p => inRange pre (some (prefixRangeEnd pre)) p.1).length := by
    have hrange := h.map_rangeEntries (bounds_some sessionId pre (prefixRangeEnd pre))
    rw [KvTable.kvCount, ← List.length_map, hrange, List.filter_filter]
    congr 1
    refine filter_congr fun p _ => ?_
    by_cases hp : inRange pre (some (prefixRangeEnd pre)) p.1 = true
    · obtain ⟨rest, hrest, -⟩ := inRange_prefixRangeEnd_iff.1 hp
      rw [hp, hasPrefix_iff.2 ⟨rest, hrest⟩]
      rfl
    · rw [Bool.eq_false_of_not_eq_true hp]
      rfl
  rw [hcount, length_filter_eq_length_iff]
  constructor
  · intro hall key c rest hkey hmem
    rw [h sessionId key] at hmem
    obtain ⟨a, ha⟩ := isSome_iff_exists.1 hmem
    obtain ⟨rest', hrest', hhead⟩ := inRange_prefixRangeEnd_iff.1 (hall (key, a) (by
      rw [mem_filter, Std.ExtTreeMap.mem_toList_iff_getElem?_eq_some]
      exact ⟨ha, hasPrefix_iff.2 ⟨c :: rest, hkey⟩⟩))
    have hsame : rest' = c :: rest := append_cancel_left (hrest'.symm.trans hkey)
    exact hhead c (by rw [hsame]; rfl)
  · rintro hexact ⟨key, a⟩ hmem
    rw [mem_filter, Std.ExtTreeMap.mem_toList_iff_getElem?_eq_some] at hmem
    obtain ⟨rest, hrest⟩ := hasPrefix_iff.1 hmem.2
    refine inRange_prefixRangeEnd_iff.2 ⟨rest, hrest, fun d hd => ?_⟩
    rcases rest with _ | ⟨c, rest⟩
    · cases hd
    · cases hd
      exact hexact key d rest hrest (by rw [h sessionId key, hmem.1]; rfl)

end Ranges

/-! ### The table refines the maps -/

namespace KvOp

variable {t : KvTable} {parts : ℕ → KvMap}

/-- Without an excluded corner, an operation keeps the table split into the maps. -/
theorem splits_apply (h : Splits t parts) {op : KvOp} (hexact : op.Exact t) :
    Splits (op.apply t).2 (op.spec parts).2 := by
  rcases op with ⟨s, key, value⟩ | ⟨s, key⟩ | ⟨s, key⟩ | ⟨s, start, stop⟩ | ⟨s, start, stop⟩ |
    ⟨s, start, stop⟩ | ⟨s, pre⟩
  · exact h.insert s key value
  · exact h
  · exact h.removeKeys s [key]
  · rcases range_cases h s start stop with ⟨-, -, hkeys⟩ | ⟨hnot, -, -⟩
    · rw [apply, KvTable.kvDeleteRange, hkeys]
      exact h.removeKeys s _
    · refine absurd (fun hnone => ?_) hnot
      subst hnone
      exact hexact
  · exact h
  · exact h
  · exact h

theorem read_eq_iff {β : Type*} (h : Splits t parts) (s : ℕ) (start : String)
    (stop : Option String) (read : List (String × Bytes) → β)
    (hread : ∀ pairs, read [] = read pairs → pairs = []) :
    read (t.kvGetRange s start stop) = read (pairsIn start stop (parts s)) ↔
      (stop = none → RangeExact s start t) := by
  rcases range_cases h s start stop with ⟨hexact, hpairs, -⟩ | ⟨hnot, hnil, hpairs⟩
  · rw [hpairs]
    exact iff_of_true rfl hexact
  · refine iff_of_false (fun heq => hpairs (hread _ ?_)) hnot
    rw [← heq, KvTable.kvGetRange, hnil]
    rfl

theorem none_imp_iff (stop : Option String) {P : Option String → Prop}
    (hsome : ∀ stop, P (some stop)) : (stop = none → P none) ↔ P stop := by
  rcases stop with _ | stop
  · exact ⟨fun h => h rfl, fun h _ => h⟩
  · exact iff_of_true (fun hnone => absurd hnone (some_ne_none stop)) (hsome stop)

/-- An operation returns what the maps say exactly when it avoids the two corners. -/
theorem result_eq_iff (h : Splits t parts) (op : KvOp) :
    (op.apply t).1 = (op.spec parts).1 ↔ op.Exact t := by
  rcases op with ⟨s, key, value⟩ | ⟨s, key⟩ | ⟨s, key⟩ | ⟨s, start, stop⟩ | ⟨s, start, stop⟩ |
    ⟨s, start, stop⟩ | ⟨s, pre⟩
  · exact iff_of_true rfl trivial
  · exact iff_of_true (congrArg KvResult.value (h s key)) trivial
  · refine iff_of_true (congrArg KvResult.removed ?_) trivial
    rw [KvTable.kvDelete, h s key]
  · have hread := read_eq_iff h s start stop List.length fun pairs heq =>
      length_eq_zero_iff.1 heq.symm
    rw [KvTable.kvGetRange, List.length_map] at hread
    rw [apply, spec, KvTable.kvDeleteRange, KvResult.count.injEq, List.length_map, List.length_map,
      hread]
    exact none_imp_iff stop (P := fun stop => Exact (.deleteRange s start stop) t) fun _ => trivial
  · have hread := read_eq_iff h s start stop id fun pairs heq => heq.symm
    rw [apply, spec, KvResult.pairs.injEq]
    exact hread.trans
      (none_imp_iff stop (P := fun stop => Exact (.getRange s start stop) t) fun _ => trivial)
  · have hread := read_eq_iff h s (start.getD "") stop (List.map Prod.fst) fun pairs heq =>
      map_eq_nil_iff.1 heq.symm
    rw [KvTable.kvGetRange, List.map_map] at hread
    rw [apply, spec, KvResult.keys.injEq]
    exact hread.trans
      (none_imp_iff stop (P := fun stop => Exact (.list s start stop) t) fun _ => trivial)
  · rw [apply, spec, KvResult.count.injEq]
    rcases pre with _ | pre
    · have hread := read_eq_iff h s "" none List.length fun pairs heq =>
        length_eq_zero_iff.1 heq.symm
      have hall : pairsIn "" none (parts s) =
          (parts s).toList.filter fun p => hasPrefix ((none : Option String).getD "") p.1 := by
        refine filter_congr fun p _ => ?_
        rw [hasPrefix_iff.2 ⟨p.1.toList, rfl⟩, inRange, all_none, Bool.and_true,
          decide_eq_true_iff, ← isLE_compare_iff]
        exact isLE_compare_empty p.1
      rw [KvTable.kvGetRange, List.length_map, hall] at hread
      exact hread.trans ⟨fun hr => hr rfl, fun hr _ => hr⟩
    · exact length_prefix_iff h s pre

/-- On a database, an operation returns what the maps say exactly when it finds the table or creates
it, and avoids the two corners. -/
theorem applyDb_eq_iff {db : KvDb} (h : Splits (db.getD ∅) parts) (op : KvOp) :
    (op.applyDb db).1 = some (op.spec parts).1 ↔ op.ExactDb db := by
  rw [applyDb, ExactDb, ← result_eq_iff h]
  rcases db with - | t <;> cases op.reads <;> simp

theorem getD_applyDb {op : KvOp} {db : KvDb} (h : op.ExactDb db) :
    (op.applyDb db).2.getD ∅ = (op.apply (db.getD ∅)).2 := by
  rw [applyDb, if_neg]
  · rfl
  · rw [Bool.and_eq_true, isNone_iff_eq_none, not_and]
    exact fun hreads hnone => absurd (h.1 hreads) (by rw [hnone]; simp)

/-- A sequence of operations on a fresh database returns what the maps say, and leaves a table that
consists of the maps, exactly when every operation avoids the three corners. -/
theorem run_eq_iff (ops : List KvOp) :
    ((runDb ops none).1 = (runSpec ops fun _ => ∅).1.map some ∧
        Splits ((runDb ops none).2.getD ∅) (runSpec ops fun _ => ∅).2) ↔
      StepSystem.Along (fun op db => some (op.applyDb db).2) ExactDb ops none := by
  have hrun : ∀ (ops : List KvOp) {db : KvDb} {parts : ℕ → KvMap}, Splits (db.getD ∅) parts →
      (((runDb ops db).1 = (runSpec ops parts).1.map some ∧
          Splits ((runDb ops db).2.getD ∅) (runSpec ops parts).2) ↔
        StepSystem.Along (fun op db => some (op.applyDb db).2) ExactDb ops db) := by
    intro ops
    induction ops with
    | nil => exact fun h => iff_of_true ⟨rfl, h⟩ trivial
    | cons op ops ih =>
      intro db parts h
      rw [runDb, runSpec, map_cons, cons.injEq, applyDb_eq_iff h, and_assoc]
      refine and_congr_right fun hexact => ih ?_
      rw [getD_applyDb hexact]
      exact splits_apply h hexact.2
  exact hrun ops Splits.empty

/-- The key `a😀` starts with `a`, but is not counted. -/
theorem not_run_eq_emoji :
    ¬∀ ops : List KvOp, (runDb ops none).1 = (runSpec ops fun _ => ∅).1.map some := by
  intro h
  have hcount := h [.set 1 "a😀" [], .count 1 (some "a")]
  revert hcount
  decide

/-! ### Sessions that share the table -/

/-- The session of an operation. -/
def session : KvOp → ℕ
  | .set s .. | .get s _ | .delete s _ | .deleteRange s .. | .getRange s .. | .list s ..
  | .count s _ => s

/-- The results of a session's operations among those of a run. -/
def seenBy (s : ℕ) (ops : List KvOp) (results : List (Option KvResult)) :
    List (Option KvResult) :=
  ((ops.zip results).filter fun p => p.1.session = s).map Prod.snd

/-- The two tables have the same pairs for a session. -/
def Same (s : ℕ) (t t' : KvTable) : Prop := ∀ k : String, t[(s, k)]? = t'[(s, k)]?

variable {s : ℕ} {start : String} {stop : Option String} {t t' : KvTable}

theorem mem_kvRange {x : ℕ} {k : String} {a : Bytes} :
    ((x, k), a) ∈ t.kvRange s start stop ↔ t[(x, k)]? = some a ∧ x = s ∧
      inRange start stop k = true ∧ (stop = none → s < 2 ^ 64 - 1) := by
  rcases stop with _ | stop
  · by_cases hlast : s < 2 ^ 64 - 1
    · rw [KvTable.kvRange, mem_rangeEntries, bounds_none hlast]
      simp only [hlast, imp_true_iff, and_true]
    · simp only [kvRange_last hlast, not_mem_nil, hlast, imp_false, not_true, and_false]
  · rw [KvTable.kvRange, mem_rangeEntries, bounds_some]
    simp

/-- A range depends on the pairs of its session only. -/
theorem kvRange_congr (h : Same s t t') : t.kvRange s start stop = t'.kvRange s start stop := by
  have hsorted (t : KvTable) :
      (t.kvRange s start stop).Pairwise fun p q => kvOrder p.1 q.1 = .lt := by
    cases stop <;> exact pairwise_rangeEntries _ _ _
  refine eq_of_sorted (hsorted t) (hsorted t') fun ⟨⟨x, k⟩, a⟩ => ?_
  rw [mem_kvRange, mem_kvRange]
  refine ⟨?_, ?_⟩ <;> rintro ⟨hget, rfl, hrest⟩
  · exact ⟨h k ▸ hget, rfl, hrest⟩
  · exact ⟨(h k).trans hget, rfl, hrest⟩

open Std.ExtTreeMap (get_insert get_erase)

/-- An operation leaves the pairs of the other sessions alone. -/
theorem same_apply_of_ne {op : KvOp} (hne : op.session ≠ s) : Same s (op.apply t).2 t := by
  intro k
  have hpair (key : String) : (s, k) ≠ (op.session, key) := by simp [hne.symm]
  cases op
  case set => exact (get_insert ..).trans (if_neg (hpair _))
  case delete => exact (get_erase ..).trans (if_neg (hpair _))
  case deleteRange =>
    refine (get_removeKeys ..).trans (if_neg fun hmem => ?_)
    obtain ⟨p, hp, heq⟩ := mem_map.1 hmem
    exact hne ((mem_kvRange.1 hp).2.1.symm.trans (congrArg Prod.fst heq))
  all_goals rfl

/-- What an operation returns and does to its session depends on the pairs of the session only. -/
theorem apply_congr {op : KvOp} (h : Same op.session t t') :
    (op.apply t).1 = (op.apply t').1 ∧ Same op.session (op.apply t).2 (op.apply t').2 := by
  have hget (k : String) : t[(op.session, k)]? = t'[(op.session, k)]? := h k
  have hrange (start : String) (stop : Option String) :
      t.kvRange op.session start stop = t'.kvRange op.session start stop := kvRange_congr h
  refine ⟨?_, fun k => ?_⟩
  · cases op <;> dsimp only [session] at hget hrange
    case count x pre =>
      cases pre with
      | none => exact congrArg (KvResult.count ∘ length) (hrange "" none)
      | some pre => exact congrArg (KvResult.count ∘ length) (hrange pre (prefixRangeEnd pre))
    all_goals simp only [apply, KvTable.kvGet, KvTable.kvDelete, KvTable.kvDeleteRange,
      KvTable.kvGetRange, KvTable.kvList, hrange, hget]
  · cases op <;> dsimp only [session] at hget hrange ⊢ <;>
      simp only [apply, KvTable.kvSet, KvTable.kvDelete, KvTable.kvDeleteRange, get_insert,
        get_erase, get_removeKeys, hrange, hget]
    congr

/-- Once the table is there, a session gets the results, and is left with the pairs, of the run of
its own operations alone, whatever the other sessions have and do. -/
theorem isolated_of_run (ops : List KvOp) (h : Same s t t') :
    let own := ops.filter fun op => op.session = s
    seenBy s ops (runDb ops (some t)).1 = (runDb own (some t')).1 ∧
      ∃ u u', (runDb ops (some t)).2 = some u ∧ (runDb own (some t')).2 = some u' ∧
        Same s u u' := by
  induction ops generalizing t t' with
  | nil => exact ⟨rfl, t, t', rfl, rfl, h⟩
  | cons op ops ih =>
    have hopened (op : KvOp) (t : KvTable) :
        op.applyDb (some t) = (some (op.apply t).1, some (op.apply t).2) := by simp [applyDb]
    dsimp only at ih ⊢
    by_cases hop : op.session = s
    · subst hop
      obtain ⟨hresult, hsame⟩ := apply_congr h
      obtain ⟨hresults, hend⟩ := ih hsame
      rw [filter_cons_of_pos (by simp), runDb, runDb, hopened, hopened, ← hresults, ← hresult]
      exact ⟨by simp [seenBy], hend⟩
    · obtain ⟨hresults, hend⟩ := ih fun k => (same_apply_of_ne hop k).trans (h k)
      rw [filter_cons_of_neg (by simpa using hop), runDb, hopened, ← hresults]
      exact ⟨by simp [seenBy, hop], hend⟩

/-- Session 1 reads and counts beside a session that has the same key and deletes it. -/
theorem isolated_of_run_two :
    seenBy 1 [.set 1 "k" [7], .set 2 "k" [8], .count 1 none, .delete 2 "k", .get 1 "k"]
        (runDb [.set 1 "k" [7], .set 2 "k" [8], .count 1 none, .delete 2 "k", .get 1 "k"]
          (some ∅)).1 =
      (runDb [.set 1 "k" [7], .count 1 none, .get 1 "k"] (some ∅)).1 :=
  (isolated_of_run _ fun _ => rfl).1

end KvOp

end Choreo
