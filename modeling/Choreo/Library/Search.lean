import Mathlib.Tactic

/-!
# Searching a text for a pattern

The first occurrence of a pattern in a text, and the pieces of the text between occurrences that do
not overlap. A pattern may also occur across such an occurrence, where the search does not look.
-/

namespace Search

open List Option

variable {α : Type*}

/-- A pattern occurs at a position of a text. -/
def OccursAt (pat text : List α) (k : ℕ) : Prop := k ≤ text.length ∧ pat <+: text.drop k

variable {pat text : List α}

theorem occursAt_iff {k : ℕ} :
    OccursAt pat text k ↔ ∃ before after, text = before ++ (pat ++ after) ∧ before.length = k := by
  constructor
  · rintro ⟨hk, after, hafter⟩
    refine ⟨text.take k, after, ?_, length_take_of_le hk⟩
    rw [hafter, take_append_drop]
  · rintro ⟨before, after, rfl, rfl⟩
    refine ⟨by simp, after, ?_⟩
    rw [drop_left]

theorem occursAt_cons_succ {c : α} {k : ℕ} :
    OccursAt pat (c :: text) (k + 1) ↔ OccursAt pat text k := by
  rw [OccursAt, OccursAt, length_cons, drop_succ_cons, Nat.add_le_add_iff_right]

theorem occursAt_zero : OccursAt pat text 0 ↔ pat <+: text := by
  rw [OccursAt, drop_zero]
  exact and_iff_right (Nat.zero_le _)

/-- An occurrence in the text behind some characters. -/
theorem occursAt_append (before : List α) {k : ℕ} :
    OccursAt pat (before ++ text) (before.length + k) ↔ OccursAt pat text k := by
  rw [OccursAt, OccursAt, length_append, drop_length_add_append,
    Nat.add_le_add_iff_left]

variable [DecidableEq α]

instance (pat text : List α) (k : ℕ) : Decidable (OccursAt pat text k) :=
  inferInstanceAs (Decidable (_ ∧ _))

/-- The text before the first occurrence of a pattern and the text after it. -/
def splitFirst (pat : List α) : List α → Option (List α × List α)
  | [] => if pat = [] then some ([], []) else none
  | c :: text =>
    if pat <+: c :: text then some ([], (c :: text).drop pat.length)
    else (splitFirst pat text).map fun (before, after) => (c :: before, after)

theorem splitFirst_eq_some_iff {pat text before after : List α} :
    splitFirst pat text = some (before, after) ↔
      text = before ++ (pat ++ after) ∧ ∀ k < before.length, ¬OccursAt pat text k := by
  induction text generalizing before with
  | nil =>
    rw [splitFirst]
    split_ifs with hpat
    · simp only [some.injEq, Prod.mk.injEq, hpat, nil_append]
      constructor
      · rintro ⟨rfl, rfl⟩
        simp
      · rintro ⟨h, -⟩
        exact ⟨(append_eq_nil_iff.1 h.symm).1.symm, (append_eq_nil_iff.1 h.symm).2.symm⟩
    · simp [hpat]
  | cons c text ih =>
    rw [splitFirst]
    split_ifs with hpre
    · simp only [some.injEq, Prod.mk.injEq]
      constructor
      · rintro ⟨rfl, rfl⟩
        exact ⟨(prefix_iff_eq_append.1 hpre).symm, by simp⟩
      · rintro ⟨htext, hfirst⟩
        rcases before with - | ⟨d, before⟩
        · rw [htext, nil_append, drop_left]
          exact ⟨rfl, rfl⟩
        · exact absurd (occursAt_zero.2 hpre) (hfirst 0 (by simp))
    · rw [map_eq_some_iff]
      constructor
      · rintro ⟨⟨before', after'⟩, hsplit, heq⟩
        simp only [Prod.mk.injEq] at heq
        obtain ⟨rfl, rfl⟩ := heq
        obtain ⟨htext, hfirst⟩ := ih.1 hsplit
        refine ⟨by rw [htext, cons_append], fun k hk => ?_⟩
        rcases k with - | k
        · rwa [occursAt_zero]
        · rw [occursAt_cons_succ]
          exact hfirst k (by simpa using hk)
      · rintro ⟨htext, hfirst⟩
        rcases before with - | ⟨d, before⟩
        · exact absurd ⟨after, htext.symm⟩ hpre
        · rw [cons_append, cons.injEq] at htext
          refine ⟨(before, after), ih.2 ⟨htext.2, fun k hk => ?_⟩, by rw [htext.1]⟩
          rw [← occursAt_cons_succ (c := c)]
          exact hfirst (k + 1) (by simpa using hk)

theorem splitFirst_eq_none_iff :
    splitFirst pat text = none ↔ ∀ k, ¬OccursAt pat text k := by
  induction text with
  | nil =>
    rw [splitFirst]
    split_ifs with hpat
    · simp only [false_iff, not_forall, not_not]
      exact ⟨0, by rw [occursAt_zero, hpat]⟩
    · simp [OccursAt, hpat]
  | cons c text ih =>
    rw [splitFirst]
    split_ifs with hpre
    · simp only [false_iff, not_forall, not_not]
      exact ⟨0, occursAt_zero.2 hpre⟩
    · rw [map_eq_none_iff, ih]
      constructor
      · intro h k
        rcases k with - | k
        · rwa [occursAt_zero]
        · rw [occursAt_cons_succ]
          exact h k
      · intro h k
        rw [← occursAt_cons_succ (c := c)]
        exact h (k + 1)

theorem splitFirst_isSome_iff :
    (∃ parts, splitFirst pat text = some parts) ↔ ∃ k, OccursAt pat text k := by
  rw [← isSome_iff_exists, ← not_iff_not, Bool.not_eq_true, isSome_eq_false_iff,
    isNone_iff_eq_none, splitFirst_eq_none_iff, not_exists]

theorem length_of_splitFirst {pat text before after : List α}
    (h : splitFirst pat text = some (before, after)) :
    text.length = before.length + (pat.length + after.length) := by
  rw [(splitFirst_eq_some_iff.1 h).1, length_append, length_append]

/-! ### Occurrences that do not overlap -/

/-- The text between the occurrences of a pattern that a search from left to right finds. -/
def pieces (pat text : List α) : List (List α) :=
  if _hpat : pat = [] then [text]
  else
    match _h : splitFirst pat text with
    | none => [text]
    | some (before, after) => before :: pieces pat after
termination_by text.length
decreasing_by
  have hlen := length_of_splitFirst _h
  have hpos := length_pos_of_ne_nil _hpat
  omega

/-- The number of occurrences that a search from left to right finds. -/
def matchCount (pat text : List α) : ℕ := (pieces pat text).length - 1

/-- The text with every occurrence that a search finds replaced. -/
def replaceAll (pat new text : List α) : List α := new.intercalate (pieces pat text)

/-- Two occurrences of a pattern overlap. -/
def Overlapped (pat text : List α) : Prop :=
  ∃ k k', OccursAt pat text k ∧ OccursAt pat text k' ∧ k < k' ∧ k' < k + pat.length

variable {pat new text before after : List α}

theorem pieces_of_none (h : splitFirst pat text = none) : pieces pat text = [text] := by
  rw [pieces]
  split
  · rfl
  · split
    · rfl
    · rename_i h'
      rw [h] at h'
      cases h'

theorem pieces_of_some (hpat : pat ≠ []) (h : splitFirst pat text = some (before, after)) :
    pieces pat text = before :: pieces pat after := by
  rw [pieces, dif_neg hpat]
  split
  · rename_i h'
    rw [h] at h'
    cases h'
  · rename_i h'
    rw [h] at h'
    cases h'
    rfl

theorem pieces_ne_nil (pat text : List α) : pieces pat text ≠ [] := by
  by_cases hpat : pat = []
  · rw [pieces, dif_pos hpat]
    exact cons_ne_nil _ _
  · rcases h : splitFirst pat text with - | ⟨before, after⟩
    · rw [pieces_of_none h]
      exact cons_ne_nil _ _
    · rw [pieces_of_some hpat h]
      exact cons_ne_nil _ _

theorem matchCount_of_none (h : splitFirst pat text = none) : matchCount pat text = 0 := by
  rw [matchCount, pieces_of_none h, length_singleton]

theorem matchCount_of_some (hpat : pat ≠ []) (h : splitFirst pat text = some (before, after)) :
    matchCount pat text = matchCount pat after + 1 := by
  have hpos := length_pos_of_ne_nil (pieces_ne_nil pat after)
  rw [matchCount, matchCount, pieces_of_some hpat h, length_cons]
  omega

theorem matchCount_eq_zero_iff (hpat : pat ≠ []) :
    matchCount pat text = 0 ↔ ∀ k, ¬OccursAt pat text k := by
  rw [← splitFirst_eq_none_iff]
  rcases h : splitFirst pat text with - | ⟨before, after⟩
  · exact iff_of_true (matchCount_of_none h) rfl
  · rw [matchCount_of_some hpat h]
    simp

omit [DecidableEq α] in
theorem intercalate_cons {sep piece : List α} {rest : List (List α)} (hrest : rest ≠ []) :
    sep.intercalate (piece :: rest) = piece ++ (sep ++ sep.intercalate rest) := by
  obtain ⟨next, rest, rfl⟩ := exists_cons_of_ne_nil hrest
  simp [List.intercalate]

/-- The text with every found occurrence replaced has changed by as many characters. -/
theorem length_replaceAll (hpat : pat ≠ []) :
    ((replaceAll pat new text).length : ℤ) =
      text.length + ((new.length : ℤ) - pat.length) * matchCount pat text := by
  induction hn : text.length using Nat.strong_induction_on generalizing text with
  | _ n ih =>
    rcases h : splitFirst pat text with - | ⟨before, after⟩
    · rw [replaceAll, pieces_of_none h, matchCount_of_none h]
      simp [List.intercalate, hn]
    · have hlen := length_of_splitFirst h
      have hpos := length_pos_of_ne_nil hpat
      have hafter := ih after.length (by omega) rfl
      rw [replaceAll] at hafter
      rw [replaceAll, pieces_of_some hpat h, intercalate_cons (pieces_ne_nil pat after),
        matchCount_of_some hpat h, length_append, length_append, ← hn, hlen]
      push_cast
      rw [hafter]
      ring

/-- The search finds a pattern once and nothing overlaps it exactly if it occurs at one position. -/
theorem occursOnce_iff (hpat : pat ≠ []) :
    (∃! k, OccursAt pat text k) ↔ matchCount pat text = 1 ∧ ¬Overlapped pat text := by
  rcases h : splitFirst pat text with - | ⟨before, after⟩
  · have hnone := splitFirst_eq_none_iff.1 h
    rw [matchCount_of_none h]
    refine iff_of_false ?_ fun hone => absurd hone.1 Nat.zero_ne_one
    rintro ⟨k, hk, -⟩
    exact hnone k hk
  · obtain ⟨htext, hfirst⟩ := splitFirst_eq_some_iff.1 h
    have hocc : OccursAt pat text before.length :=
      occursAt_iff.2 ⟨before, after, htext, rfl⟩
    have hrest (k : ℕ) :
        OccursAt pat text ((before ++ pat).length + k) ↔ OccursAt pat after k := by
      rw [htext, ← append_assoc, occursAt_append]
    have hone : matchCount pat text = 1 ↔ ∀ k, ¬OccursAt pat after k := by
      rw [matchCount_of_some hpat h, ← matchCount_eq_zero_iff hpat]
      omega
    have hpos := length_pos_of_ne_nil hpat
    rw [hone]
    constructor
    · rintro ⟨k, hk, hunique⟩
      refine ⟨fun j hj => ?_, ?_⟩
      · have heq := (hunique _ ((hrest j).2 hj)).trans (hunique _ hocc).symm
        rw [length_append] at heq
        omega
      · rintro ⟨i, j, hi, hj, hlt, -⟩
        have heq := (hunique i hi).trans (hunique j hj).symm
        omega
    · rintro ⟨hnone, hoverlap⟩
      refine ⟨before.length, hocc, fun k hk => ?_⟩
      rcases lt_trichotomy k before.length with hlt | heq | hgt
      · exact absurd hk (hfirst k hlt)
      · exact heq
      · by_cases hin : k < before.length + pat.length
        · exact absurd ⟨before.length, k, hocc, hk, hgt, hin⟩ hoverlap
        · obtain ⟨j, rfl⟩ := Nat.exists_eq_add_of_le (Nat.le_of_not_lt hin)
          rw [← length_append, hrest] at hk
          exact absurd hk (hnone j)

end Search
