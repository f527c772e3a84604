import Mathlib.Data.List.Sort

/-!
# Extensional ordered maps with lawful keys

Facts about `Std.ExtTreeMap` that an imperative program over ordered maps needs: lookups in one
form (`if k' = k then …`), a loop over the entries of a map that treats every key on its own, and
maps whose keys are exactly `0, …, n - 1`.
-/

namespace List

variable {κ α β σ : Type*} [DecidableEq κ]

/-- A loop over an association list whose body changes the view of the state at the key it handles
only leaves at every key what the body makes of the entry of that key. -/
theorem foldl_view (view : σ → κ → β) (upd : κ → β → α → β) (body : σ → κ × α → σ)
    (hbody : ∀ s k a k', view (body s (k, a)) k' = if k' = k then upd k (view s k) a else view s k')
    (l : List (κ × α)) (hl : (l.map Prod.fst).Nodup) (s : σ) (k : κ) :
    view (l.foldl body s) k = (l.lookup k).elim (view s k) (upd k (view s k)) := by
  induction l generalizing s with
  | nil => rfl
  | cons x l ih =>
    obtain ⟨kx, a⟩ := x
    rw [List.map_cons, List.nodup_cons] at hl
    rw [List.foldl_cons, ih hl.2, List.lookup_cons]
    by_cases hk : k = kx
    · subst hk
      have hnone : l.lookup k = none := by
        rw [List.lookup_eq_none_iff]
        intro p hp
        rw [bne_iff_ne]
        rintro rfl
        exact hl.1 (List.mem_map.2 ⟨p, hp, rfl⟩)
      rw [hnone, beq_self_eq_true]
      simp only [hbody, if_true, Option.elim_none, Option.elim_some]
    · rw [beq_eq_false_iff_ne.2 hk]
      simp only [hbody, if_neg hk]

end List

namespace Std.ExtTreeMap

section Lookup

variable {κ α : Type*} {cmp : κ → κ → Ordering} [TransCmp cmp] [LawfulEqCmp cmp]
variable [DecidableEq κ] (m : ExtTreeMap κ α cmp)

theorem get_insert (k k' : κ) (a : α) :
    (m.insert k a)[k']? = if k' = k then some a else m[k']? := by
  rw [getElem?_insert]
  by_cases h : k' = k
  · subst h
    rw [if_pos (LawfulEqCmp.compare_eq_iff_eq.2 rfl), if_pos rfl]
  · rw [if_neg h, if_neg]
    intro hc
    exact h (LawfulEqCmp.compare_eq_iff_eq.1 hc).symm

theorem get_erase (k k' : κ) :
    (m.erase k)[k']? = if k' = k then none else m[k']? := by
  rw [getElem?_erase]
  by_cases h : k' = k
  · subst h
    rw [if_pos (LawfulEqCmp.compare_eq_iff_eq.2 rfl), if_pos rfl]
  · rw [if_neg h, if_neg]
    intro hc
    exact h (LawfulEqCmp.compare_eq_iff_eq.1 hc).symm

theorem insert_erase (k : κ) (a : α) :
    (m.erase k).insert k a = m.insert k a := by
  refine ext_getElem? fun k' => ?_
  rw [get_insert, get_insert, get_erase]
  by_cases h : k' = k
  · rw [if_pos h, if_pos h]
  · rw [if_neg h, if_neg h, if_neg h]

theorem get_modify (k k' : κ) (f : α → α) :
    (m.modify k f)[k']? = if k' = k then m[k']?.map f else m[k']? := by
  rw [getElem?_modify]
  by_cases h : k' = k
  · subst h
    rw [if_pos (LawfulEqCmp.compare_eq_iff_eq.2 rfl), if_pos rfl]
  · rw [if_neg h, if_neg]
    intro hc
    exact h (LawfulEqCmp.compare_eq_iff_eq.1 hc).symm

omit [LawfulEqCmp cmp] [DecidableEq κ] in
theorem nodup_map_fst_toList : (m.toList.map Prod.fst).Nodup := by
  rw [map_fst_toList_eq_keys]
  exact nodup_keys

omit [LawfulEqCmp cmp] [DecidableEq κ] in
theorem values_eq_map_snd : m.values = m.toList.map Prod.snd := by
  obtain ⟨⟨t⟩⟩ := m
  induction t using Quotient.ind with
  | _ t =>
    change t.inner.values = (DTreeMap.Internal.Impl.Const.toList t.inner).map Prod.snd
    rw [DTreeMap.Internal.Impl.values_eq_map_snd,
      DTreeMap.Internal.Impl.Const.toList_eq_toListModel_map, List.map_map]
    rfl

omit [DecidableEq κ] in
theorem mem_values_iff {m : ExtTreeMap κ α cmp} {a : α} :
    a ∈ m.values ↔ ∃ k : κ, m[k]? = some a := by
  rw [values_eq_map_snd, List.mem_map]
  constructor
  · rintro ⟨⟨k, a'⟩, hmem, rfl⟩
    exact ⟨k, mem_toList_iff_getElem?_eq_some.1 hmem⟩
  · rintro ⟨k, hk⟩
    exact ⟨(k, a), mem_toList_iff_getElem?_eq_some.2 hk, rfl⟩

theorem lookup_toList (k : κ) : m.toList.lookup k = m[k]? := by
  cases hm : m[k]? with
  | none =>
    rw [List.lookup_eq_none_iff]
    rintro ⟨k', a⟩ hp
    rw [bne_iff_ne]
    rintro rfl
    rw [mem_toList_iff_getElem?_eq_some, hm] at hp
    exact absurd hp (by simp only [reduceCtorEq, not_false_eq_true])
  | some a =>
    obtain ⟨l₁, l₂, hl⟩ := List.append_of_mem (mem_toList_iff_getElem?_eq_some.2 hm)
    rw [List.lookup_eq_some_iff]
    refine ⟨l₁, l₂, hl, fun p hp => ?_⟩
    rw [bne_iff_ne]
    rintro rfl
    have hnd := nodup_map_fst_toList m
    rw [hl, List.map_append, List.map_cons, List.nodup_append] at hnd
    exact hnd.2.2 p.1 (List.mem_map.2 ⟨p, hp, rfl⟩) p.1 List.mem_cons_self rfl

theorem foldl_toList_view {β σ : Type*} (view : σ → κ → β) (upd : κ → β → α → β)
    (body : σ → κ × α → σ)
    (hbody : ∀ s k a k', view (body s (k, a)) k' = if k' = k then upd k (view s k) a else view s k')
    (m : ExtTreeMap κ α cmp) (s : σ) (k : κ) :
    view (m.toList.foldl body s) k = m[k]?.elim (view s k) (upd k (view s k)) := by
  rw [List.foldl_view view upd body hbody _ (nodup_map_fst_toList m), lookup_toList]

end Lookup

section Contiguous

variable {α : Type*}

/-- The keys of the map are exactly `0, …, n - 1`. -/
def Contiguous (m : ExtTreeMap ℕ α) (n : ℕ) : Prop :=
  ∀ k, m[k]?.isSome ↔ k < n

variable {m : ExtTreeMap ℕ α}

theorem contiguous_size {n : ℕ} (h : m.Contiguous n) : m.size = n := by
  have hperm : m.keys.Perm (List.range n) := by
    rw [List.perm_ext_iff_of_nodup nodup_keys List.nodup_range]
    intro k
    rw [mem_keys, List.mem_range, ← h k, isSome_getElem?_iff_mem]
  rw [← length_keys, hperm.length_eq, List.length_range]

theorem contiguous_of_forall_lt
    (h : ∀ k < m.size, m[k]?.isSome = true) : m.Contiguous m.size := by
  have hsub : List.range m.size ⊆ m.keys := by
    intro k hk
    rw [mem_keys, ← isSome_getElem?_iff_mem]
    exact h k (List.mem_range.1 hk)
  have hperm : (List.range m.size).Perm m.keys := by
    refine (List.subperm_of_subset List.nodup_range hsub).perm_of_length_le ?_
    rw [List.length_range, length_keys]
  intro k
  rw [isSome_getElem?_iff_mem, ← mem_keys, ← hperm.mem_iff, List.mem_range]

/-- The largest key of a segment, as a new lower bound. -/
theorem Contiguous.elim_max? {n : ℕ} (h : m.Contiguous n) (b : ℕ) :
    (m.keys.max?.elim b fun k => max b (k + 1)) = max b n := by
  have hkeys : ∀ k, k ∈ m.keys ↔ k < n := by
    intro k
    rw [mem_keys, ← isSome_getElem?_iff_mem]
    exact h k
  cases n with
  | zero =>
    have hnil : m.keys = [] :=
      List.eq_nil_iff_forall_not_mem.2 fun k hk => absurd ((hkeys k).1 hk) (Nat.not_lt_zero k)
    rw [hnil]
    exact (Nat.max_zero b).symm
  | succ n =>
    have hmax : m.keys.max? = some n := by
      rw [List.max?_eq_some_iff]
      exact ⟨(hkeys n).2 (Nat.lt_succ_self n), fun k hk => Nat.le_of_lt_succ ((hkeys k).1 hk)⟩
    rw [hmax]
    rfl

theorem Contiguous.congr {β : Type*} {m' : ExtTreeMap ℕ β} {n : ℕ}
    (h : m.Contiguous n) (hm : ∀ k : ℕ, m'[k]?.isSome = m[k]?.isSome) : m'.Contiguous n := by
  intro k
  rw [hm k]
  exact h k

/-- The keys of some entries, in order, depend on which keys have such an entry only. -/
theorem map_fst_filter_congr {α : Type*} {m m' : ExtTreeMap ℕ α} {p : α → Bool}
    (h : ∀ k : ℕ, (m[k]?).any p = (m'[k]?).any p) :
    (m.toList.filter fun e => p e.2).map Prod.fst =
      (m'.toList.filter fun e => p e.2).map Prod.fst := by
  have hmem (m : ExtTreeMap ℕ α) (k : ℕ) :
      k ∈ (m.toList.filter fun e => p e.2).map Prod.fst ↔ (m[k]?).any p = true := by
    simp only [List.mem_map, List.mem_filter, Prod.exists, exists_and_right, exists_eq_right,
      mem_toList_iff_getElem?_eq_some, Option.any_eq_true]
  have hsub (m : ExtTreeMap ℕ α) : ((m.toList.filter fun e => p e.2).map Prod.fst).Sublist
      m.keys := by
    rw [← map_fst_toList_eq_keys]
    exact List.filter_sublist.map _
  have hlt (m : ExtTreeMap ℕ α) :
      ((m.toList.filter fun e => p e.2).map Prod.fst).Pairwise (· < ·) :=
    (ordered_keys.imp fun hlt => Nat.compare_eq_lt.1 hlt).sublist (hsub m)
  have hperm : ((m.toList.filter fun e => p e.2).map Prod.fst).Perm
      ((m'.toList.filter fun e => p e.2).map Prod.fst) := by
    rw [List.perm_ext_iff_of_nodup (nodup_keys.sublist (hsub m)) (nodup_keys.sublist (hsub m'))]
    intro k
    rw [hmem, hmem, h]
  exact hperm.eq_of_pairwise (fun a b _ _ hab hba => absurd hab (Nat.lt_asymm hba)) (hlt m) (hlt m')

/-- The entries of a map whose keys are `0, …, n - 1`, in order. -/
theorem toList_eq_map_range {n : ℕ} {f : ℕ → α}
    (h : ∀ k : ℕ, m[k]? = if k < n then some (f k) else none) :
    m.toList = (List.range n).map fun k => (k, f k) := by
  have hmem : ∀ k, k ∈ m.keys ↔ k < n := by
    intro k
    rw [mem_keys, ← isSome_getElem?_iff_mem, h k]
    by_cases hk : k < n
    · simp [hk]
    · simp [hk]
  have hperm : m.keys.Perm (List.range n) := by
    rw [List.perm_ext_iff_of_nodup nodup_keys List.nodup_range]
    intro k
    rw [hmem, List.mem_range]
  have hkeys : m.keys = List.range n := by
    have hlt : m.keys.Pairwise (· < ·) := ordered_keys.imp fun hlt => Nat.compare_eq_lt.1 hlt
    refine hperm.eq_of_pairwise (fun a b _ _ hab hba => ?_) hlt List.pairwise_lt_range
    exact absurd hab (Nat.lt_asymm hba)
  have hentry : ∀ entry ∈ m.toList, entry = (entry.1, f entry.1) := by
    rintro ⟨k, a⟩ hmem
    have hget := mem_toList_iff_getElem?_eq_some.1 hmem
    rw [h k] at hget
    split_ifs at hget with hk
    rw [Option.some.inj hget]
  calc m.toList = m.toList.map fun entry => (entry.1, f entry.1) := by
        rw [← List.map_congr_left hentry, List.map_id']
    _ = (List.range n).map fun k => (k, f k) := by
        rw [← hkeys, ← map_fst_toList_eq_keys, List.map_map]
        rfl
end Contiguous

end Std.ExtTreeMap

namespace Std.ExtTreeSet

variable {κ : Type*} {cmp : κ → κ → Ordering} [TransCmp cmp] [LawfulEqCmp cmp] [DecidableEq κ]

omit [DecidableEq κ] in
theorem contains_filter_eq (s : ExtTreeSet κ cmp) (f : κ → Bool) (k : κ) :
    (s.filter f).contains k = (s.contains k && f k) := by
  rw [Bool.eq_iff_iff, Bool.and_eq_true, ← mem_iff_contains, mem_filter, ← mem_iff_contains]
  constructor
  · rintro ⟨hmem, hf⟩
    exact ⟨hmem, get_eq hmem ▸ hf⟩
  · rintro ⟨hmem, hf⟩
    exact ⟨hmem, (get_eq hmem).symm ▸ hf⟩

omit [DecidableEq κ] in
theorem nodup_toList (s : ExtTreeSet κ cmp) : s.toList.Nodup := by
  refine (distinct_toList (t := s)).imp fun {a b} hne heq => hne ?_
  rw [heq]
  exact ReflCmp.compare_self

theorem count_toList (s : ExtTreeSet κ cmp) (k : κ) : s.toList.count k = (s.contains k).toNat := by
  by_cases hk : k ∈ s
  · rw [List.count_eq_one_of_mem (nodup_toList s) (mem_toList.2 hk), mem_iff_contains.1 hk]
    rfl
  · rw [List.count_eq_zero_of_not_mem (mt mem_toList.1 hk),
      Bool.eq_false_iff.2 (mt mem_iff_contains.2 hk)]
    rfl

theorem contains_insert_eq (s : ExtTreeSet κ cmp) (k k' : κ) :
    (s.insert k).contains k' = (decide (k' = k) || s.contains k') := by
  rw [contains_insert, Bool.eq_iff_iff, Bool.or_eq_true, Bool.or_eq_true, beq_iff_eq,
    LawfulEqCmp.compare_eq_iff_eq, decide_eq_true_iff, eq_comm]

theorem contains_erase_eq (s : ExtTreeSet κ cmp) (k k' : κ) :
    (s.erase k).contains k' = (!decide (k' = k) && s.contains k') := by
  rw [contains_erase, Bool.eq_iff_iff, Bool.and_eq_true, Bool.and_eq_true, bne_iff_ne, Ne,
    LawfulEqCmp.compare_eq_iff_eq, Bool.not_eq_true', decide_eq_false_iff_not, eq_comm]

end Std.ExtTreeSet
