import Mathlib.Data.List.Nodup
import Mathlib.Order.Basic

/-!
# Entries that are changed by their keys

A table gives changes for some keys. Applied to a list of entries, each change updates the first
entry with its key, or a fresh one that is appended. If the table gives one change for a key, the
entry with a key depends on it only by the change for this key. Where two keys act on the same part
of a record, a table in the order of its keys lets the smaller one act first.
-/

namespace Upserts

open List Option

variable {ε β : Type*} {κ : Type*} [DecidableEq κ]

/-! ### Tables -/

section Tables

theorem lookup_eq_none {table : List (κ × β)} {k : κ} (h : k ∉ table.map Prod.fst) :
    table.lookup k = none := by
  rw [lookup_eq_none_iff]
  rintro ⟨k', b⟩ hmem
  rw [bne_iff_ne]
  rintro rfl
  exact h (List.mem_map_of_mem (f := Prod.fst) hmem)

theorem mem_of_lookup {table : List (κ × β)} {k : κ} {b : β} (h : table.lookup k = some b) :
    (k, b) ∈ table := by
  obtain ⟨pre, post, rfl, -⟩ := lookup_eq_some_iff.1 h
  exact mem_append_right _ mem_cons_self

/-- The changes of a table that can be read. -/
def readable {α : Type*} (read : α → Option β) (table : List (κ × α)) : List (κ × β) :=
  table.filterMap fun entry => (read entry.2).map (entry.1, ·)

variable {α : Type*} {read : α → Option β}

omit [DecidableEq κ] in
theorem sublist_readable (table : List (κ × α)) :
    ((readable read table).map Prod.fst).Sublist (table.map Prod.fst) := by
  induction table with
  | nil => exact List.Sublist.refl _
  | cons entry table ih =>
    rw [readable, filterMap_cons]
    cases read entry.2 with
    | none => exact ih.cons _
    | some b => exact ih.cons_cons _

theorem lookup_readable {table : List (κ × α)} (htable : (table.map Prod.fst).Nodup) (k : κ) :
    (readable read table).lookup k = (table.lookup k).bind read := by
  induction table with
  | nil => rfl
  | cons entry table ih =>
    rw [map_cons, nodup_cons] at htable
    rw [readable, filterMap_cons, lookup_cons]
    by_cases h : k = entry.1
    · have hnone : (readable read table).lookup entry.1 = none :=
        lookup_eq_none fun hmem => htable.1 ((sublist_readable table).subset hmem)
      subst h
      rw [beq_self_eq_true, bind_some]
      cases hread : read entry.2 with
      | none => exact hnone
      | some b => rw [map_some, lookup_cons, beq_self_eq_true]
    · rw [beq_eq_false_iff_ne.2 h, ← ih htable.2]
      cases hread : read entry.2 with
      | none => rfl
      | some b =>
        rw [map_some, lookup_cons, beq_eq_false_iff_ne.2 h]
        rfl

omit [DecidableEq κ] in
/-- A fold that skips the changes that cannot be read. -/
theorem foldl_readable {σ : Type*} {f : σ → κ × β → σ} {step : σ → κ × α → σ}
    (hstep : ∀ s entry, step s entry = (read entry.2).elim s fun b => f s (entry.1, b))
    (table : List (κ × α)) (s : σ) : table.foldl step s = (readable read table).foldl f s := by
  induction table generalizing s with
  | nil => rfl
  | cons entry table ih =>
    rw [foldl_cons, hstep, readable, filterMap_cons]
    cases hread : read entry.2 with
    | none => exact ih s
    | some b => exact ih (f s (entry.1, b))

end Tables

/-! ### Entries -/

section Entries

variable (key : ε → κ) (update : ε → β → ε) (fresh : κ → ε)

/-- The first entry with a key. -/
def find (entries : List ε) (k : κ) : Option ε := entries.find? fun e => key e = k

/-- Updates the first entry with a key, or appends a fresh one. -/
def upsert : List ε → κ × β → List ε
  | [], change => [update (fresh change.1) change.2]
  | e :: rest, change =>
    if key e = change.1 then update e change.2 :: rest else e :: upsert rest change

variable {key update fresh}

theorem find_cons (e : ε) (entries : List ε) (k : κ) :
    find key (e :: entries) k = if key e = k then some e else find key entries k := by
  rw [find, List.find?_cons]
  by_cases h : key e = k
  · rw [if_pos h, decide_eq_true h]
  · rw [if_neg h, decide_eq_false h]
    rfl

variable {entries : List ε}

theorem find_eq_none_iff {k : κ} :
    find key entries k = none ↔ k ∉ entries.map key := by
  rw [find, List.find?_eq_none, List.mem_map]
  simp

theorem mem_of_find {k : κ} {e : ε} (h : find key entries k = some e) :
    e ∈ entries := List.mem_of_find?_eq_some h

theorem find_of_mem (hnodup : (entries.map key).Nodup) {e : ε}
    (he : e ∈ entries) : find key entries (key e) = some e := by
  induction entries with
  | nil => exact absurd he not_mem_nil
  | cons first rest ih =>
    rw [map_cons, nodup_cons] at hnodup
    rw [find_cons]
    rcases mem_cons.1 he with rfl | he
    · rw [if_pos rfl]
    · rw [if_neg, ih hnodup.2 he]
      rintro heq
      exact hnodup.1 (heq ▸ List.mem_map_of_mem he)

/-- Lists with the same keys, all different, and the same entry for each key are the same. -/
theorem eq_of_find {entries entries' : List ε} (hkeys : entries.map key = entries'.map key)
    (hnodup : (entries'.map key).Nodup) (hfind : ∀ k, find key entries k = find key entries' k) :
    entries = entries' := by
  induction entries' generalizing entries with
  | nil => exact map_eq_nil_iff.1 hkeys
  | cons e' rest' ih =>
    obtain ⟨e, rest, rfl, hhead, htail⟩ := map_eq_cons_iff.1 hkeys
    rw [map_cons, nodup_cons] at hnodup
    have he : e = e' := by
      have h := hfind (key e')
      rwa [find_cons, find_cons, if_pos hhead, if_pos rfl, some_inj] at h
    have hrest : rest = rest' := by
      refine ih htail hnodup.2 ?_
      rintro k
      by_cases hk : key e' = k
      · have hnone : k ∉ rest'.map key := hk ▸ hnodup.1
        rw [find_eq_none_iff.2 hnone, find_eq_none_iff.2 (htail.symm ▸ hnone)]
      · have h := hfind k
        rwa [find_cons, find_cons, if_neg (hhead ▸ hk), if_neg hk] at h
    rw [he, hrest]

variable (hkey : ∀ e b, key (update e b) = key e) (hfresh : ∀ k, key (fresh k) = k)
include hkey hfresh

/-- After a change of one key, the entry with this key is updated, and the others are as before. -/
theorem find_upsert (entries : List ε) (change : κ × β) (k : κ) :
    find key (upsert key update fresh entries change) k =
      if k = change.1 then
        some (update ((find key entries change.1).getD (fresh change.1)) change.2)
      else find key entries k := by
  induction entries with
  | nil =>
    rw [upsert, find_cons, hkey, hfresh]
    by_cases h : k = change.1
    · rw [if_pos h.symm, if_pos h]
      rfl
    · rw [if_neg (Ne.symm h), if_neg h]
  | cons e rest ih =>
    rw [upsert, find_cons e rest change.1]
    by_cases he : key e = change.1
    · rw [if_pos he, if_pos he, find_cons, find_cons, hkey, he]
      by_cases h : k = change.1
      · rw [if_pos h.symm, if_pos h]
        rfl
      · rw [if_neg (Ne.symm h), if_neg h, if_neg (Ne.symm h)]
    · rw [if_neg he, if_neg he, find_cons, ih, find_cons]
      by_cases h : k = change.1
      · rw [if_neg (h ▸ he), if_pos h, if_pos h]
      · rw [if_neg h, if_neg h]

theorem map_key_upsert (entries : List ε) (change : κ × β) :
    (upsert key update fresh entries change).map key =
      if change.1 ∈ entries.map key then entries.map key else entries.map key ++ [change.1] := by
  induction entries with
  | nil => simp [upsert, hkey, hfresh]
  | cons e rest ih =>
    rw [upsert]
    by_cases he : key e = change.1
    · simp [he, hkey]
    · rw [if_neg he, map_cons, ih, map_cons]
      by_cases hmem : change.1 ∈ rest.map key
      · rw [if_pos hmem, if_pos (mem_cons_of_mem _ hmem)]
      · have hnot : change.1 ∉ key e :: rest.map key := by
          rintro h
          exact (mem_cons.1 h).elim (Ne.symm he) hmem
        rw [if_neg hmem, if_neg hnot, cons_append]

theorem nodup_upsert (h : (entries.map key).Nodup) (change : κ × β) :
    ((upsert key update fresh entries change).map key).Nodup := by
  rw [map_key_upsert hkey hfresh]
  split_ifs with hmem
  · exact h
  · exact nodup_append.2 ⟨h, nodup_singleton _, by
      rintro k hk k' hk' rfl
      exact hmem (mem_singleton.1 hk' ▸ hk)⟩

theorem nodup_foldl_upsert (h : (entries.map key).Nodup)
    (table : List (κ × β)) :
    ((table.foldl (upsert key update fresh) entries).map key).Nodup := by
  induction table generalizing entries with
  | nil => exact h
  | cons change table ih => exact ih (nodup_upsert hkey hfresh h change)

variable {table : List (κ × β)}

/-- After all changes of a table, an entry is updated by the change for its key, if there is one. -/
theorem find_foldl_upsert (htable : (table.map Prod.fst).Nodup)
    (entries : List ε) (k : κ) :
    find key (table.foldl (upsert key update fresh) entries) k =
      match table.lookup k with
      | some change => some (update ((find key entries k).getD (fresh k)) change)
      | none => find key entries k := by
  induction table generalizing entries with
  | nil => rfl
  | cons change table ih =>
    rw [map_cons, nodup_cons] at htable
    rw [foldl_cons, ih htable.2, find_upsert hkey hfresh, lookup_cons]
    by_cases h : k = change.1
    · rw [lookup_eq_none (h ▸ htable.1), h, if_pos rfl, beq_self_eq_true]
    · rw [if_neg h, beq_eq_false_iff_ne.2 h]

theorem prefix_foldl_upsert (entries : List ε) (table : List (κ × β)) :
    entries.map key <+: (table.foldl (upsert key update fresh) entries).map key := by
  induction table generalizing entries with
  | nil => exact prefix_rfl
  | cons change table ih =>
    refine List.IsPrefix.trans ?_ (ih (upsert key update fresh entries change))
    rw [map_key_upsert hkey hfresh]
    split_ifs
    · exact prefix_rfl
    · exact prefix_append _ _

/-- A table whose keys are all there adds no entry. -/
theorem map_key_foldl_upsert
    (h : ∀ change ∈ table, change.1 ∈ entries.map key) :
    (table.foldl (upsert key update fresh) entries).map key = entries.map key := by
  induction table generalizing entries with
  | nil => rfl
  | cons change table ih =>
    have hsame : (upsert key update fresh entries change).map key = entries.map key := by
      rw [map_key_upsert hkey hfresh, if_pos (h change mem_cons_self)]
    rw [foldl_cons, ih (hsame.symm ▸ fun c hc => h c (mem_cons_of_mem _ hc)), hsame]

/-- The keys of a table are there after its changes. -/
theorem mem_map_key_foldl_upsert {change : κ × β}
    (h : change ∈ table) :
    change.1 ∈ (table.foldl (upsert key update fresh) entries).map key := by
  induction table generalizing entries with
  | nil => exact absurd h not_mem_nil
  | cons first table ih =>
    rcases mem_cons.1 h with rfl | h
    · refine (prefix_foldl_upsert hkey hfresh _ table).subset ?_
      rw [map_key_upsert hkey hfresh]
      split_ifs with hmem
      · exact hmem
      · exact mem_append_right _ mem_cons_self
    · exact ih h

/-- Where a change made twice is the change made once, so are the changes of a table. -/
theorem foldl_upsert_twice (hentries : (entries.map key).Nodup)
    (htable : (table.map Prod.fst).Nodup)
    (htwice : ∀ change ∈ table, ∀ e, e = (find key entries change.1).getD (fresh change.1) →
      update (update e change.2) change.2 = update e change.2) :
    table.foldl (upsert key update fresh) (table.foldl (upsert key update fresh) entries) =
      table.foldl (upsert key update fresh) entries := by
  have hnodup : ((table.foldl (upsert key update fresh) entries).map key).Nodup :=
    nodup_foldl_upsert hkey hfresh hentries table
  refine eq_of_find ?_ hnodup ?_
  · exact map_key_foldl_upsert hkey hfresh fun change h =>
      mem_map_key_foldl_upsert hkey hfresh h
  · rintro k
    rw [find_foldl_upsert hkey hfresh htable]
    cases hlookup : table.lookup k with
    | none => rfl
    | some change =>
      have hmem : (k, change) ∈ table := mem_of_lookup hlookup
      simp only [find_foldl_upsert hkey hfresh htable entries k, hlookup, getD_some,
        htwice _ hmem _ rfl]

end Entries

/-! ### Changes that only some keys make -/

section Keys

variable [Preorder κ] {table : List (κ × β)}

/-- The keys of a table ascend. -/
abbrev Ascending (table : List (κ × β)) : Prop := (table.map Prod.fst).Pairwise (· < ·)

omit [DecidableEq κ] in
theorem Ascending.nodup (h : Ascending table) : (table.map Prod.fst).Nodup := h.imp fun h => h.ne

variable {σ : Type*} {step : σ → κ × β → σ} {k k' : κ} {act act' : σ → β → σ}

/-- Only the changes with two keys do something, and the keys of the table ascend: the change of the
smaller key is made first. -/
theorem foldl_two (hlt : k < k')
    (hstep : ∀ s change, step s change =
      if change.1 = k then act s change.2 else if change.1 = k' then act' s change.2 else s)
    (htable : Ascending table) (s : σ) :
    table.foldl step s =
      (table.lookup k').elim ((table.lookup k).elim s (act s))
        (act' ((table.lookup k).elim s (act s))) := by
  induction table generalizing s with
  | nil => rfl
  | cons change table ih =>
    rw [Ascending, map_cons, pairwise_cons] at htable
    rw [foldl_cons, ih htable.2, hstep, lookup_cons, lookup_cons]
    -- the keys that follow are larger than the one of the change
    have hrest : ∀ key ≤ change.1, table.lookup key = none := fun key hkey =>
      lookup_eq_none fun hmem => (lt_of_le_of_lt hkey (htable.1 key hmem)).false
    by_cases h : change.1 = k
    · subst h
      rw [hrest _ le_rfl, beq_eq_false_iff_ne.2 hlt.ne', beq_self_eq_true, if_pos rfl]
      rfl
    · have hk : (k == change.1) = false := beq_eq_false_iff_ne.2 (Ne.symm h)
      by_cases h' : change.1 = k'
      · subst h'
        rw [hrest _ le_rfl, hrest _ hlt.le, if_neg h, if_pos rfl, hk, beq_self_eq_true]
        rfl
      · rw [if_neg h, if_neg h', hk, beq_eq_false_iff_ne.2 (Ne.symm h')]

end Keys

end Upserts
