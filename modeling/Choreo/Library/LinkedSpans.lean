import Choreo.Library.Spans

/-!
# Doubly linked spans in a memory of words

A list of spans is stored in the spans themselves: the first three words of each hold the address of
the next span, its own size and the address of the span before it. The address `0` stands for none.
-/

namespace Span

open List

/-- A part of a doubly linked list: `front` is the address of its first span, with `prev` before it,
and `last` is the address of its last span, with `next` after it. -/
def Segment (mem : ℕ → ℕ) : ℕ → ℕ → List Span → ℕ → ℕ → Prop
  | prev, front, [], last, next => last = prev ∧ next = front
  | prev, front, s :: spans, last, next =>
    s.start ≠ 0 ∧ front = s.start ∧ mem (s.start + 8) = s.size ∧ mem (s.start + 16) = prev ∧
      Segment mem s.start (mem s.start) spans last next

/-- The three words of a span do not overlap those of a later one. -/
def Separate (spans : List Span) : Prop := spans.Pairwise fun s t => s.start + 24 ≤ t.start

variable {mem mem' : ℕ → ℕ} {prev front last next : ℕ} {xs ys : List Span}

theorem segment_cons {s : Span} :
    Segment mem prev front (s :: xs) last next ↔
      s.start ≠ 0 ∧ front = s.start ∧ mem (s.start + 8) = s.size ∧ mem (s.start + 16) = prev ∧
        Segment mem s.start (mem s.start) xs last next := Iff.rfl

theorem segment_append :
    Segment mem prev front (xs ++ ys) last next ↔
      ∃ p c, Segment mem prev front xs p c ∧ Segment mem p c ys last next := by
  induction xs generalizing prev front with
  | nil =>
    constructor
    · exact fun h => ⟨prev, front, ⟨rfl, rfl⟩, h⟩
    · rintro ⟨p, c, ⟨rfl, rfl⟩, h⟩
      exact h
  | cons s xs ih =>
    rw [cons_append, segment_cons, ih]
    constructor
    · rintro ⟨hs, hfront, hsize, hprev, p, c, hxs, hys⟩
      exact ⟨p, c, ⟨hs, hfront, hsize, hprev, hxs⟩, hys⟩
    · rintro ⟨p, c, ⟨hs, hfront, hsize, hprev, hxs⟩, hys⟩
      exact ⟨hs, hfront, hsize, hprev, p, c, hxs, hys⟩

theorem segment_congr
    (hmem : ∀ s ∈ xs, ∀ x, s.start ≤ x → x < s.start + 24 → mem' x = mem x)
    (h : Segment mem prev front xs last next) : Segment mem' prev front xs last next := by
  induction xs generalizing prev front with
  | nil => exact h
  | cons s xs ih =>
    obtain ⟨hs, hfront, hsize, hprev, hrest⟩ := h
    have hword := hmem s mem_cons_self
    refine ⟨hs, hfront, ?_, ?_, ?_⟩
    · rw [hword _ (by omega) (by omega), hsize]
    · rw [hword _ (by omega) (by omega), hprev]
    · rw [hword _ (by omega) (by omega)]
      exact ih (fun t ht => hmem t (mem_cons_of_mem _ ht)) hrest

theorem segment_update {a v : ℕ} (ha : ∀ s ∈ xs, a < s.start ∨ s.start + 24 ≤ a)
    (h : Segment mem prev front xs last next) :
    Segment (Function.update mem a v) prev front xs last next := by
  refine segment_congr (fun s hs x hle hlt => Function.update_of_ne ?_ _ _) h
  have := ha s hs
  omega

theorem segment_start_ne_zero (h : Segment mem prev front xs last next) :
    ∀ s ∈ xs, s.start ≠ 0 := by
  induction xs generalizing prev front with
  | nil => exact fun s hs => absurd hs not_mem_nil
  | cons t xs ih =>
    intro s hs
    rcases mem_cons.1 hs with rfl | hs
    · exact h.1
    · exact ih h.2.2.2.2 s hs

theorem segment_last (h : Segment mem prev front xs last next) :
    (xs = [] ∧ last = prev) ∨ ∃ s ∈ xs, last = s.start := by
  induction xs generalizing prev front with
  | nil => exact Or.inl ⟨rfl, h.1⟩
  | cons s xs ih =>
    right
    obtain ⟨-, hlast⟩ | ⟨t, ht, hlast⟩ := ih h.2.2.2.2
    · exact ⟨s, mem_cons_self, hlast⟩
    · exact ⟨t, mem_cons_of_mem _ ht, hlast⟩

/-- Another span after a part. -/
theorem segment_setLast {v : ℕ} (hne : xs ≠ []) (hsep : Separate xs)
    (h : Segment mem prev front xs last next) :
    Segment (Function.update mem last v) prev front xs last v := by
  induction xs generalizing prev front with
  | nil => exact absurd rfl hne
  | cons s xs ih =>
    obtain ⟨hs, hfront, hsize, hprev, hrest⟩ := h
    obtain ⟨hafter, hsep⟩ := pairwise_cons.1 hsep
    obtain ⟨hnil, hlast⟩ | ⟨t, ht, hlast⟩ := segment_last hrest
    · subst hnil hlast
      refine ⟨hs, hfront, ?_, ?_, rfl, ?_⟩
      · rw [Function.update_of_ne (by omega), hsize]
      · rw [Function.update_of_ne (by omega), hprev]
      · rw [Function.update_self]
    · have hlt := hafter t ht
      have htail := ih (ne_nil_of_mem ht) hsep hrest
      refine ⟨hs, hfront, ?_, ?_, ?_⟩
      · rw [Function.update_of_ne (by omega), hsize]
      · rw [Function.update_of_ne (by omega), hprev]
      · rw [Function.update_of_ne (by omega)]
        exact htail

/-- Another span before a part. -/
theorem segment_setHead {s : Span} {v : ℕ} (hsep : Separate (s :: xs))
    (h : Segment mem prev front (s :: xs) last next) :
    Segment (Function.update mem (s.start + 16) v) v front (s :: xs) last next := by
  obtain ⟨hs, hfront, hsize, -, hrest⟩ := h
  obtain ⟨hafter, -⟩ := pairwise_cons.1 hsep
  refine ⟨hs, hfront, ?_, Function.update_self .., ?_⟩
  · rw [Function.update_of_ne (by omega), hsize]
  · rw [Function.update_of_ne (by omega)]
    refine segment_update (fun t ht => ?_) hrest
    have := hafter t ht
    omega

theorem segment_front_eq_zero_iff (h : Segment mem prev front xs last 0) :
    front = 0 ↔ xs = [] := by
  cases xs with
  | nil => simpa using h.2.symm
  | cons s xs => simpa [h.2.1] using h.1

/-- The memory determines the list. -/
theorem segment_unique {last' : ℕ} (h : Segment mem prev front xs last 0)
    (h' : Segment mem prev front ys last' 0) : xs = ys := by
  induction xs generalizing prev front ys with
  | nil => exact ((segment_front_eq_zero_iff h').1 h.2.symm).symm
  | cons s xs ih =>
    obtain ⟨hs, hfront, hsize, -, hrest⟩ := h
    cases ys with
    | nil => exact absurd (hfront.symm.trans h'.2.symm) hs
    | cons t ys =>
      obtain ⟨-, hfront', hsize', -, hrest'⟩ := h'
      have hstart : s.start = t.start := hfront.symm.trans hfront'
      have hst : s = t := by
        cases s
        cases t
        simp_all
      subst hst
      rw [ih hrest hrest']

end Span
