import Choreo.Library.TreeMap

/-!
# Ordered tables with composite keys

A table that is ordered by a composite key can be read and cut by half-open ranges of keys. When
the first component of the key names an owner, the ranges between two keys of one owner, and from a
key of one owner to the start of the next, stay inside the part of that owner.
-/

namespace OrderedTable

open Std List

section Ranges

variable {κ α : Type*} {cmp : κ → κ → Ordering} (m : ExtTreeMap κ α cmp)

/-- The entries whose key is at least `lo` and below `hi`, in order. -/
def rangeEntries [TransCmp cmp] (lo hi : κ) : List (κ × α) :=
  m.toList.filter fun p => (cmp lo p.1).isLE && cmp p.1 hi == .lt

/-- The table without the given keys. -/
def removeKeys [TransCmp cmp] (keys : List κ) (m : ExtTreeMap κ α cmp) : ExtTreeMap κ α cmp :=
  keys.foldl (fun m k => m.erase k) m

variable [TransCmp cmp] [LawfulEqCmp cmp]

theorem mem_rangeEntries {m : ExtTreeMap κ α cmp} {lo hi k : κ} {a : α} :
    (k, a) ∈ rangeEntries m lo hi ↔
      m[k]? = some a ∧ (cmp lo k).isLE = true ∧ cmp k hi = .lt := by
  rw [rangeEntries, mem_filter, ExtTreeMap.mem_toList_iff_getElem?_eq_some,
    Bool.and_eq_true, beq_iff_eq]

/-- A range that ends at or before its start is empty. -/
theorem rangeEntries_of_le {lo hi : κ} (h : (cmp hi lo).isLE = true) (m : ExtTreeMap κ α cmp) :
    rangeEntries m lo hi = [] := by
  rw [eq_nil_iff_forall_not_mem]
  rintro ⟨k, a⟩ hmem
  obtain ⟨-, hle, hlt⟩ := mem_rangeEntries.1 hmem
  have hself : cmp k k = .lt := TransCmp.lt_of_lt_of_isLE hlt (TransCmp.isLE_trans h hle)
  rw [(ReflCmp.compare_self : cmp k k = .eq)] at hself
  cases hself

theorem get_removeKeys [DecidableEq κ] (keys : List κ) (m : ExtTreeMap κ α cmp) (k : κ) :
    (removeKeys keys m)[k]? = if k ∈ keys then none else m[k]? := by
  rw [removeKeys]
  induction keys generalizing m with
  | nil => simp only [foldl_nil, not_mem_nil, if_false]
  | cons k' keys ih =>
    rw [foldl_cons, ih, ExtTreeMap.get_erase]
    by_cases hk : k = k'
    · simp only [hk, if_true, mem_cons, true_or, ite_self]
    · simp only [hk, if_false, mem_cons, false_or]

/-- Removing all keys leaves nothing. -/
theorem removeKeys_keys [DecidableEq κ] : removeKeys m.keys m = ∅ := by
  refine ExtTreeMap.ext_getElem? fun k => ?_
  rw [get_removeKeys, ExtTreeMap.getElem?_empty]
  split_ifs with hk
  · rfl
  · rw [ExtTreeMap.mem_keys] at hk
    exact ExtTreeMap.getElem?_eq_none hk

omit [LawfulEqCmp cmp] in
/-- The entries of a range are sorted by key. -/
theorem pairwise_rangeEntries (lo hi : κ) :
    (rangeEntries m lo hi).Pairwise fun p q => cmp p.1 q.1 = .lt :=
  ExtTreeMap.ordered_keys_toList.filter _

omit [LawfulEqCmp cmp] in
theorem eq_of_sorted {l l' : List (κ × α)} (hl : l.Pairwise fun p q => cmp p.1 q.1 = .lt)
    (hl' : l'.Pairwise fun p q => cmp p.1 q.1 = .lt) (hmem : ∀ p, p ∈ l ↔ p ∈ l') : l = l' := by
  have hirrefl : ∀ p : κ × α, ¬cmp p.1 p.1 = .lt := by
    intro p h
    rw [(ReflCmp.compare_self : cmp p.1 p.1 = .eq)] at h
    cases h
  have : Std.Irrefl fun p q : κ × α => cmp p.1 q.1 = .lt := ⟨hirrefl⟩
  have : Std.Antisymm fun p q : κ × α => cmp p.1 q.1 = .lt :=
    ⟨fun p q h h' => absurd (TransCmp.lt_trans h h') (hirrefl p)⟩
  exact hl.eq_of_mem_iff hl' hmem

theorem eq_filter_toList {m : ExtTreeMap κ α cmp} {l : List (κ × α)} {P : κ → Bool}
    (hl : l.Pairwise fun p q => cmp p.1 q.1 = .lt)
    (hmem : ∀ k a, (k, a) ∈ l ↔ m[k]? = some a ∧ P k = true) :
    l = m.toList.filter fun p => P p.1 := by
  refine eq_of_sorted hl (ExtTreeMap.ordered_keys_toList.filter _) fun p => ?_
  rw [mem_filter, ExtTreeMap.mem_toList_iff_getElem?_eq_some]
  exact hmem p.1 p.2

end Ranges

/-! ### Composite keys -/

section Composite

/-- The comparison of a part of two values. -/
def compareVia {β κ : Type*} (f : β → κ) (cmp : κ → κ → Ordering) (a b : β) : Ordering :=
  cmp (f a) (f b)

instance {β κ : Type*} (f : β → κ) (cmp : κ → κ → Ordering) [TransCmp cmp] :
    TransCmp (compareVia f cmp) where
  eq_swap {a b} := (OrientedCmp.eq_swap : cmp (f a) (f b) = (cmp (f b) (f a)).swap)
  isLE_trans {a _ c} h h' := (TransCmp.isLE_trans h h' : (cmp (f a) (f c)).isLE = true)

variable {ω κ α : Type*} (cmpOwner : ω → ω → Ordering) (cmp : κ → κ → Ordering)

/-- Composite keys are compared by their owner first. -/
def keyOrder : ω × κ → ω × κ → Ordering :=
  compareLex (compareVia Prod.fst cmpOwner) (compareVia Prod.snd cmp)

theorem keyOrder_mk (o o' : ω) (k k' : κ) :
    keyOrder cmpOwner cmp (o, k) (o', k') = (cmpOwner o o').then (cmp k k') := rfl

instance [TransCmp cmpOwner] [TransCmp cmp] : TransCmp (keyOrder cmpOwner cmp) :=
  inferInstanceAs (TransCmp (compareLex _ _))

instance [LawfulEqCmp cmpOwner] [LawfulEqCmp cmp] : LawfulEqCmp (keyOrder cmpOwner cmp) where
  compare_self {p} := by
    rw [keyOrder, compareLex_eq_eq]
    exact ⟨(ReflCmp.compare_self : cmpOwner p.1 p.1 = .eq), (ReflCmp.compare_self : cmp p.2 p.2 = .eq)⟩
  eq_of_compare {p q} h := by
    rw [keyOrder, compareLex_eq_eq] at h
    exact Prod.ext (LawfulEqCmp.eq_of_compare (h.1 : cmpOwner p.1 q.1 = .eq))
      (LawfulEqCmp.eq_of_compare (h.2 : cmp p.2 q.2 = .eq))

variable {cmpOwner cmp} [TransCmp cmpOwner] [TransCmp cmp] [LawfulEqCmp cmpOwner]
  [LawfulEqCmp cmp]

omit [TransCmp cmp] [LawfulEqCmp cmp] in
/-- The keys between two keys of one owner are keys of that owner. -/
theorem between_iff {o x : ω} {lo hi k : κ} :
    (keyOrder cmpOwner cmp (o, lo) (x, k)).isLE = true ∧
        keyOrder cmpOwner cmp (x, k) (o, hi) = .lt ↔
      x = o ∧ ((cmp lo k).isLE && cmp k hi == .lt) = true := by
  rw [keyOrder_mk, keyOrder_mk, Bool.and_eq_true, beq_iff_eq]
  constructor
  · rintro ⟨hlo, hhi⟩
    rcases hcmp : cmpOwner o x with _ | _ | _
    · rw [OrientedCmp.gt_iff_lt.2 hcmp] at hhi
      cases hhi
    · obtain rfl := LawfulEqCmp.eq_of_compare hcmp
      rw [hcmp] at hlo hhi
      exact ⟨rfl, hlo, hhi⟩
    · rw [hcmp] at hlo
      cases hlo
  · rintro ⟨rfl, hlo, hhi⟩
    rw [(ReflCmp.compare_self : cmpOwner x x = .eq)]
    exact ⟨hlo, hhi⟩

omit [TransCmp cmpOwner] [TransCmp cmp] [LawfulEqCmp cmp] in
/-- The keys from a key of one owner up to the least key of the next owner are keys of the first
one. -/
theorem from_iff {o next x : ω} {lo bot k : κ} (hbot : ∀ k, cmp k bot ≠ .lt)
    (hlt : cmpOwner o next = .lt)
    (hnext : ∀ x, (cmpOwner o x).isLE = true → cmpOwner x next = .lt → x = o) :
    (keyOrder cmpOwner cmp (o, lo) (x, k)).isLE = true ∧
        keyOrder cmpOwner cmp (x, k) (next, bot) = .lt ↔
      x = o ∧ (cmp lo k).isLE = true := by
  rw [keyOrder_mk, keyOrder_mk, Ordering.isLE_then_iff_and, Ordering.then_eq_lt]
  constructor
  · rintro ⟨⟨hle, hlo⟩, hhi⟩
    have hxnext : cmpOwner x next = .lt := by
      rcases hhi with h | ⟨-, h⟩
      · exact h
      · exact absurd h (hbot k)
    obtain rfl := hnext x hle hxnext
    rw [(ReflCmp.compare_self : cmpOwner x x = .eq)] at hlo
    rcases hlo with h | h
    · cases h
    · exact ⟨rfl, h⟩
  · rintro ⟨rfl, hlo⟩
    rw [(ReflCmp.compare_self : cmpOwner x x = .eq)]
    exact ⟨⟨rfl, Or.inr hlo⟩, Or.inl hlt⟩

/-- A table that consists of one map for each owner. -/
def Splits (m : ExtTreeMap (ω × κ) α (keyOrder cmpOwner cmp)) (parts : ω → ExtTreeMap κ α cmp) :
    Prop :=
  ∀ (o : ω) (k : κ), m[(o, k)]? = (parts o)[k]?

namespace Splits

variable {m : ExtTreeMap (ω × κ) α (keyOrder cmpOwner cmp)} {parts : ω → ExtTreeMap κ α cmp}

omit [LawfulEqCmp cmpOwner] [LawfulEqCmp cmp] in
theorem empty : Splits (∅ : ExtTreeMap (ω × κ) α (keyOrder cmpOwner cmp)) fun _ => ∅ := by
  intro o k
  rw [ExtTreeMap.getElem?_empty, ExtTreeMap.getElem?_empty]

/-- Inserting an entry changes the map of its owner. -/
theorem insert [DecidableEq ω] [DecidableEq κ] (h : Splits m parts) (o : ω) (k : κ) (a : α) :
    Splits (m.insert (o, k) a) (Function.update parts o ((parts o).insert k a)) := by
  intro o' k'
  rw [ExtTreeMap.get_insert, h o' k']
  by_cases ho : o' = o
  · subst ho
    rw [Function.update_self, ExtTreeMap.get_insert]
    by_cases hk : k' = k
    · subst hk
      rw [if_pos rfl, if_pos rfl]
    · rw [if_neg hk, if_neg fun heq => hk (congrArg Prod.snd heq)]
  · rw [Function.update_of_ne ho, if_neg fun heq => ho (congrArg Prod.fst heq)]

/-- Removing keys of one owner changes the map of that owner. -/
theorem removeKeys [DecidableEq ω] [DecidableEq κ] (h : Splits m parts) (o : ω) (keys : List κ) :
    Splits (OrderedTable.removeKeys (keys.map (Prod.mk o)) m)
      (Function.update parts o (OrderedTable.removeKeys keys (parts o))) := by
  intro o' k'
  rw [get_removeKeys, h o' k']
  by_cases ho : o' = o
  · subst ho
    rw [Function.update_self, get_removeKeys]
    by_cases hk : k' ∈ keys
    · rw [if_pos hk, if_pos (mem_map_of_mem hk)]
    · rw [if_neg hk, if_neg]
      rintro hmem
      obtain ⟨k, hmem, heq⟩ := mem_map.1 hmem
      cases heq
      exact hk hmem
  · rw [Function.update_of_ne ho, if_neg]
    rintro hmem
    obtain ⟨k, -, heq⟩ := mem_map.1 hmem
    exact ho (congrArg Prod.fst heq).symm

/-- A range that holds keys of one owner only, read from the map of the owner. -/
theorem map_rangeEntries (h : Splits m parts) {lo hi : ω × κ} {o : ω} {P : κ → Bool}
    (hrange : ∀ x k, (keyOrder cmpOwner cmp lo (x, k)).isLE = true ∧
      keyOrder cmpOwner cmp (x, k) hi = .lt ↔ x = o ∧ P k = true) :
    (rangeEntries m lo hi).map (fun p => (p.1.2, p.2)) =
      (parts o).toList.filter fun p => P p.1 := by
  have hmem : ∀ x k a, ((x, k), a) ∈ rangeEntries m lo hi ↔
      x = o ∧ (parts o)[k]? = some a ∧ P k = true := by
    intro x k a
    rw [mem_rangeEntries, h x k]
    constructor
    · rintro ⟨ha, hbetween⟩
      obtain ⟨rfl, hP⟩ := (hrange x k).1 hbetween
      exact ⟨rfl, ha, hP⟩
    · rintro ⟨rfl, ha, hP⟩
      exact ⟨ha, (hrange x k).2 ⟨rfl, hP⟩⟩
  refine eq_filter_toList ?_ fun k a => ?_
  · rw [pairwise_map]
    refine (pairwise_rangeEntries m lo hi).imp_of_mem ?_
    rintro ⟨⟨x, k⟩, a⟩ ⟨⟨y, k'⟩, b⟩ hp hq hlt
    obtain rfl := ((hmem x k a).1 hp).1
    obtain rfl := ((hmem y k' b).1 hq).1
    rw [keyOrder_mk, (ReflCmp.compare_self : cmpOwner y y = .eq)] at hlt
    exact hlt
  · rw [mem_map]
    constructor
    · rintro ⟨⟨⟨x, k'⟩, b⟩, hp, heq⟩
      cases heq
      exact ((hmem x _ _).1 hp).2
    · intro hka
      exact ⟨((o, k), a), (hmem o k a).2 ⟨rfl, hka⟩, rfl⟩

theorem map_fst_rangeEntries (h : Splits m parts) {lo hi : ω × κ} {o : ω} {P : κ → Bool}
    (hrange : ∀ x k, (keyOrder cmpOwner cmp lo (x, k)).isLE = true ∧
      keyOrder cmpOwner cmp (x, k) hi = .lt ↔ x = o ∧ P k = true) :
    (rangeEntries m lo hi).map Prod.fst =
      (((parts o).toList.filter fun p => P p.1).map Prod.fst).map (Prod.mk o) := by
  rw [← h.map_rangeEntries hrange, map_map, map_map]
  refine map_congr_left fun p hp => ?_
  obtain ⟨⟨x, k⟩, a⟩ := p
  obtain ⟨-, hbetween⟩ := mem_rangeEntries.1 hp
  obtain ⟨rfl, -⟩ := (hrange x k).1 hbetween
  rfl

end Splits

end Composite

end OrderedTable
