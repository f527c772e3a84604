import Mathlib.Data.List.Nodup
import Mathlib.Data.List.Perm.Subperm

/-!
# Tables of obligations

A table assigns values to some keys. What is owed to the keys, one thing after another, is a list of
keys and values. The list represents the table when it has each entry of the table once and nothing
else. The rules below follow what happens to the two sides together: a new obligation is entered and
appended, a settled one is erased and dropped, and the order of the list does not matter.
-/

variable {κ α : Type*} {table table' : κ → Option α} {owed owed' : List (κ × α)}

/-- The list has each entry of the table once, and nothing else. -/
structure Represents (table : κ → Option α) (owed : List (κ × α)) : Prop where
  nodup : (owed.map Prod.fst).Nodup
  mem_iff : ∀ key value, (key, value) ∈ owed ↔ table key = some value

namespace Represents

open List

theorem empty : Represents (fun _ : κ => (none : Option α)) [] :=
  ⟨nodup_nil, by simp⟩

theorem congr (h : Represents table owed) (htable : ∀ key, table' key = table key) :
    Represents table' owed :=
  ⟨h.nodup, fun key value => by rw [h.mem_iff, htable]⟩

theorem perm (h : Represents table owed) (hperm : owed.Perm owed') : Represents table owed' :=
  ⟨(hperm.map Prod.fst).nodup_iff.1 h.nodup, fun key value => by
    rw [← hperm.mem_iff, h.mem_iff]⟩

theorem key_notMem (h : Represents table owed) {key : κ} (hfree : table key = none) :
    key ∉ owed.map Prod.fst := by
  intro hmem
  obtain ⟨⟨k, value⟩, hentry, rfl⟩ := mem_map.1 hmem
  rw [h.mem_iff, hfree] at hentry
  exact Option.some_ne_none _ hentry.symm

/-- A new obligation. -/
theorem enter [DecidableEq κ] (h : Represents table owed) {key : κ} (hfree : table key = none)
    (value : α) : Represents (Function.update table key (some value)) (owed ++ [(key, value)]) := by
  refine perm ⟨?_, fun k v => ?_⟩ (perm_append_singleton (key, value) owed).symm
  · rw [map_cons, nodup_cons]
    exact ⟨h.key_notMem hfree, h.nodup⟩
  · rw [mem_cons, h.mem_iff, Function.update_apply]
    split_ifs with hk
    · subst hk
      simp [hfree, eq_comm]
    · simp [hk]

/-- The first obligation is in the table. -/
theorem get_head {key : κ} {value : α} (h : Represents table ((key, value) :: owed)) :
    table key = some value :=
  (h.mem_iff key value).1 mem_cons_self

/-- The first obligation is settled. -/
theorem settle [DecidableEq κ] {key : κ} {value : α} (h : Represents table ((key, value) :: owed)) :
    Represents (Function.update table key none) owed := by
  have hnodup := h.nodup
  rw [map_cons, nodup_cons] at hnodup
  refine ⟨hnodup.2, fun k v => ?_⟩
  rw [Function.update_apply]
  split_ifs with hk
  · subst hk
    refine iff_of_false (fun hmem => hnodup.1 ?_) (by simp)
    exact mem_map.2 ⟨(k, v), hmem, rfl⟩
  · rw [← h.mem_iff, mem_cons, Prod.mk.injEq]
    simp [hk]

theorem perm_of_entries (h : Represents table owed) (h' : Represents table owed') :
    owed.Perm owed' := by
  refine (perm_ext_iff_of_nodup (List.Nodup.of_map _ h.nodup)
    (List.Nodup.of_map _ h'.nodup)).2 fun entry => ?_
  rw [h.mem_iff, h'.mem_iff]

end Represents
