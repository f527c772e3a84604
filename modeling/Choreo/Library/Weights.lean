import Choreo.Library.TreeMap
import Mathlib

/-!
# The weight of a map

Every entry of a map weighs something, and the map weighs as much as its entries together. The
weight of a map depends on the weights at the single keys only, so that a change of the map can be
followed one key at a time.
-/

namespace Std.ExtTreeMap

section Weight

variable {κ α : Type*} {cmp : κ → κ → Ordering} [TransCmp cmp] [LawfulEqCmp cmp]
variable (f : α → ℕ)

/-- The weight of the entry with the given key; no entry weighs nothing. -/
def weightAt (m : ExtTreeMap κ α cmp) (k : κ) : ℕ := m[k]?.elim 0 f

/-- The weight of all entries of a map. -/
def weight (m : ExtTreeMap κ α cmp) : ℕ := (m.values.map f).sum

omit [LawfulEqCmp cmp] in
theorem weightAt_of_get {m : ExtTreeMap κ α cmp} {k : κ} {a : α} (h : m[k]? = some a) :
    m.weightAt f k = f a := by
  rw [weightAt, h, Option.elim_some]

omit [LawfulEqCmp cmp] in
theorem weightAt_of_none {m : ExtTreeMap κ α cmp} {k : κ} (h : m[k]? = none) :
    m.weightAt f k = 0 := by
  rw [weightAt, h, Option.elim_none]

variable [DecidableEq κ]

/-- The weight of a map is the sum of the weights at the keys of any set that has all its keys. -/
theorem weight_eq_sum {m : ExtTreeMap κ α cmp} {keys : Finset κ}
    (hkeys : ∀ k, k ∈ m → k ∈ keys) : m.weight f = ∑ k ∈ keys, m.weightAt f k := by
  have hentries : m.values.map f = (m.toList.map Prod.fst).map (m.weightAt f) := by
    rw [values_eq_map_snd, List.map_map, List.map_map]
    refine List.map_congr_left fun entry hentry => ?_
    exact (weightAt_of_get f (mem_toList_iff_getElem?_eq_some.1 hentry)).symm
  have hsub : (m.toList.map Prod.fst).toFinset ⊆ keys := by
    intro k hk
    rw [List.mem_toFinset, map_fst_toList_eq_keys, mem_keys] at hk
    exact hkeys k hk
  calc m.weight f = ((m.toList.map Prod.fst).map (m.weightAt f)).sum := by rw [weight, hentries]
    _ = ∑ k ∈ (m.toList.map Prod.fst).toFinset, m.weightAt f k :=
      (List.sum_toFinset _ (nodup_map_fst_toList m)).symm
    _ = ∑ k ∈ keys, m.weightAt f k := by
      refine Finset.sum_subset hsub fun k _ hk => weightAt_of_none f ?_
      rw [List.mem_toFinset, map_fst_toList_eq_keys, mem_keys] at hk
      exact getElem?_eq_none hk

/-- Two maps have a finite set with all their keys. -/
theorem exists_keys (m m' : ExtTreeMap κ α cmp) :
    ∃ keys : Finset κ, (∀ k, k ∈ m → k ∈ keys) ∧ ∀ k, k ∈ m' → k ∈ keys := by
  refine ⟨m.keys.toFinset ∪ m'.keys.toFinset, fun k hk => ?_, fun k hk => ?_⟩
  · exact Finset.mem_union_left _ (List.mem_toFinset.2 (mem_keys.2 hk))
  · exact Finset.mem_union_right _ (List.mem_toFinset.2 (mem_keys.2 hk))

variable {f} {m m' : ExtTreeMap κ α cmp}

theorem weight_mono (h : ∀ k, m.weightAt f k ≤ m'.weightAt f k) : m.weight f ≤ m'.weight f := by
  obtain ⟨keys, hm, hm'⟩ := exists_keys m m'
  rw [weight_eq_sum f hm, weight_eq_sum f hm']
  exact Finset.sum_le_sum fun k _ => h k

theorem weight_congr (h : ∀ k, m.weightAt f k = m'.weightAt f k) : m.weight f = m'.weight f :=
  le_antisymm (weight_mono fun k => (h k).le) (weight_mono fun k => (h k).ge)

theorem weightAt_eq_of_weight_le (h : ∀ k, m.weightAt f k ≤ m'.weightAt f k)
    (hle : m'.weight f ≤ m.weight f) (k : κ) : m.weightAt f k = m'.weightAt f k := by
  obtain ⟨keys, hm, hm'⟩ := exists_keys m m'
  by_cases hk : k ∈ keys
  · have hsum : ∑ k ∈ keys, m.weightAt f k = ∑ k ∈ keys, m'.weightAt f k := by
      rw [← weight_eq_sum f hm, ← weight_eq_sum f hm']
      exact le_antisymm (weight_mono h) hle
    exact (Finset.sum_eq_sum_iff_of_le fun k _ => h k).1 hsum k hk
  · rw [weightAt_of_none f (getElem?_eq_none fun hmem => hk (hm k hmem)),
      weightAt_of_none f (getElem?_eq_none fun hmem => hk (hm' k hmem))]

/-- A change at one key. -/
theorem weight_add {key : κ} {d : ℕ} (hothers : ∀ k, k ≠ key → m'.weightAt f k = m.weightAt f k)
    (hkey : m'.weightAt f key = m.weightAt f key + d) : m'.weight f = m.weight f + d := by
  obtain ⟨keys, hm, hm'⟩ := exists_keys m m'
  have hin : ∀ k, k ∈ keys → k ∈ keys ∪ {key} := fun k hk => Finset.mem_union_left _ hk
  have hlast : key ∈ keys ∪ {key} := Finset.mem_union_right _ (Finset.mem_singleton_self key)
  rw [weight_eq_sum f fun k hk => hin k (hm k hk), weight_eq_sum f fun k hk => hin k (hm' k hk),
    ← Finset.add_sum_erase _ _ hlast, ← Finset.add_sum_erase _ (fun k => m.weightAt f k) hlast,
    hkey, Finset.sum_congr rfl fun k hk => hothers k (Finset.ne_of_mem_erase hk)]
  exact Nat.add_right_comm _ _ _

end Weight

end Std.ExtTreeMap
