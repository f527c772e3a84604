import Mathlib.Data.List.Basic

/-!
# Sorted lists of spans

A span is a stretch of addresses. A list of spans is spaced by `m` if each span ends at least `m`
before the next one starts. A span is inserted into such a list so that it is joined with a
neighbour that is closer than `m`; the gap between them is swallowed.
-/

/-- A stretch of addresses. -/
structure Span where
  start : ℕ
  size : ℕ
deriving DecidableEq, Repr

namespace Span

open List

/-- The first address after the span. -/
def stop (s : Span) : ℕ := s.start + s.size

/-- Two spans have no address in common. -/
def Apart (s t : Span) : Prop := s.stop ≤ t.start ∨ t.stop ≤ s.start

/-- An address is in the span. -/
def Covers (s : Span) (x : ℕ) : Prop := s.start ≤ x ∧ x < s.stop

instance (s t : Span) : Decidable (s.Apart t) := inferInstanceAs (Decidable (_ ∨ _))

instance (s : Span) (x : ℕ) : Decidable (s.Covers x) := inferInstanceAs (Decidable (_ ∧ _))

/-- Two spans have an address in common. -/
def Overlaps (s t : Span) : Prop := ∃ x, s.Covers x ∧ t.Covers x

variable {s t : Span}

theorem overlaps_iff :
    s.Overlaps t ↔ 0 < s.size ∧ 0 < t.size ∧ s.start < t.stop ∧ t.start < s.stop := by
  constructor
  · rintro ⟨x, hs, ht⟩
    simp only [Covers, stop] at hs ht ⊢
    omega
  · rintro ⟨hs, ht, hst, hts⟩
    refine ⟨max s.start t.start, ?_, ?_⟩ <;>
      simp only [Covers, stop] at hst hts ⊢ <;> omega

theorem Apart.symm (h : s.Apart t) : t.Apart s := Or.symm h

/-- A list of spans is sorted, and each ends at least `m` before the next one starts. -/
def Spaced (m : ℕ) (spans : List Span) : Prop :=
  spans.Pairwise fun s t => s.stop + m ≤ t.start

/-- Two spans and what is between them. -/
def join (s t : Span) : Span := ⟨s.start, max s.stop t.stop - s.start⟩

/-- A span before a list, joined with the first span of the list if that is closer than `m`. -/
def attach (m : ℕ) (s : Span) : List Span → List Span
  | [] => [s]
  | t :: spans => if t.start < s.stop + m then s.join t :: spans else s :: t :: spans

/-- A span at its place in a sorted list, joined with its neighbours if these are closer than
`m`. -/
def insert (m : ℕ) (s : Span) : List Span → List Span
  | [] => [s]
  | t :: spans =>
    if s.start < t.start then attach m s (t :: spans)
    else if s.start < t.stop + m then attach m (t.join s) spans
    else t :: insert m s spans

theorem start_join (s t : Span) : (s.join t).start = s.start := rfl

theorem stop_join (h : s.stop ≤ t.start) : (s.join t).stop = t.stop := by
  simp only [stop, join] at *
  omega

variable {m : ℕ}

theorem apart_join {s t b : Span} (hst : s.stop ≤ t.start) (hnear : t.start < s.stop + m)
    (hb : m ≤ b.size) (hs : s.Apart b) (ht : t.Apart b) : (s.join t).Apart b := by
  simp only [Apart, stop_join hst, start_join]
  simp only [Apart, stop] at *
  omega

theorem covers_join (hst : s.stop ≤ t.start) {x : ℕ} (h : s.Covers x ∨ t.Covers x) :
    (s.join t).Covers x := by
  simp only [Covers, stop_join hst, start_join]
  simp only [Covers, stop] at *
  omega

variable {spans : List Span}

/-! ### Attaching -/

theorem spaced_attach {s : Span} (h : Spaced m spans)
    (hs : ∀ t ∈ spans, s.stop ≤ t.start) : Spaced m (attach m s spans) := by
  cases spans with
  | nil => exact pairwise_singleton _ _
  | cons t spans =>
    obtain ⟨ht, hspans⟩ := pairwise_cons.1 h
    rw [attach]
    split_ifs with hnear
    · refine pairwise_cons.2 ⟨fun u hu => ?_, hspans⟩
      rw [stop_join (hs t mem_cons_self)]
      exact ht u hu
    · refine pairwise_cons.2 ⟨fun u hu => ?_, h⟩
      rcases mem_cons.1 hu with rfl | hu
      · omega
      · have := ht u hu
        rw [stop] at this
        omega

/-- A property of spans that joining near spans keeps holds after a span was attached. -/
theorem forall_attach {P : Span → Prop} {s : Span}
    (hjoin : ∀ s t, s.stop ≤ t.start → t.start < s.stop + m → P s → P t → P (s.join t))
    (hafter : ∀ t ∈ spans, s.stop ≤ t.start) (hs : P s) (hspans : ∀ t ∈ spans, P t) :
    ∀ u ∈ attach m s spans, P u := by
  intro u hu
  cases spans with
  | nil =>
    rw [attach, mem_singleton] at hu
    rw [hu]
    exact hs
  | cons t spans =>
    have ht := hspans t mem_cons_self
    rw [attach] at hu
    split_ifs at hu with hnear
    · rcases mem_cons.1 hu with rfl | hu
      · exact hjoin s t (hafter t mem_cons_self) hnear hs ht
      · exact hspans u (mem_cons_of_mem _ hu)
    · rcases mem_cons.1 hu with rfl | hu
      · exact hs
      · exact hspans u hu

theorem covered_attach {s : Span} (hafter : ∀ t ∈ spans, s.stop ≤ t.start)
    {x : ℕ} (hx : s.Covers x ∨ ∃ t ∈ spans, t.Covers x) : ∃ u ∈ attach m s spans, u.Covers x := by
  cases spans with
  | nil =>
    obtain hx | ⟨t, ht, -⟩ := hx
    · exact ⟨s, mem_singleton.2 rfl, hx⟩
    · cases ht
  | cons t spans =>
    rw [attach]
    split_ifs with hnear
    · have hst := hafter t mem_cons_self
      obtain hx | ⟨u, hu, hx⟩ := hx
      · exact ⟨s.join t, mem_cons_self, covers_join hst (Or.inl hx)⟩
      · rcases mem_cons.1 hu with rfl | hu
        · exact ⟨s.join u, mem_cons_self, covers_join hst (Or.inr hx)⟩
        · exact ⟨u, mem_cons_of_mem _ hu, hx⟩
    · obtain hx | ⟨u, hu, hx⟩ := hx
      · exact ⟨s, mem_cons_self, hx⟩
      · exact ⟨u, mem_cons_of_mem _ hu, hx⟩

/-! ### Inserting -/

section Insert

variable {s : Span} {spans : List Span}

theorem stop_le_of_apart {t : Span} (hs : 0 < s.size) (h : s.Apart t) (hle : t.start ≤ s.start) :
    t.stop ≤ s.start := by
  simp only [Apart, stop] at *
  omega

theorem le_start_of_apart {t : Span} (h : s.Apart t) (hlt : s.start < t.start) :
    s.stop ≤ t.start := by
  simp only [Apart, stop] at *
  omega

theorem join_stop_le {t : Span} (hs : 0 < s.size) (h : Spaced m (t :: spans))
    (happart : ∀ u ∈ t :: spans, s.Apart u) (hle : t.start ≤ s.start)
    (hnear : s.start < t.stop + m) : ∀ u ∈ spans, (t.join s).stop ≤ u.start := by
  intro u hu
  rw [stop_join (stop_le_of_apart hs (happart t mem_cons_self) hle)]
  have htu := (pairwise_cons.1 h).1 u hu
  exact le_start_of_apart (happart u (mem_cons_of_mem _ hu)) (by omega)

theorem le_start_of_lt {t : Span} (h : Spaced m (t :: spans))
    (happart : ∀ u ∈ t :: spans, s.Apart u) (hlt : s.start < t.start) :
    ∀ u ∈ t :: spans, s.stop ≤ u.start := by
  intro u hu
  refine le_start_of_apart (happart u hu) ?_
  rcases mem_cons.1 hu with rfl | hu
  · exact hlt
  · have htu := (pairwise_cons.1 h).1 u hu
    rw [stop] at htu
    omega

/-- The induction rule for inserting: a property of spans that joining near spans keeps holds after
a span was inserted. -/
theorem forall_insert {P : Span → Prop}
    (hjoin : ∀ s t, s.stop ≤ t.start → t.start < s.stop + m → P s → P t → P (s.join t))
    (hsize : 0 < s.size) (h : Spaced m spans) (happart : ∀ t ∈ spans, s.Apart t) (hs : P s)
    (hspans : ∀ t ∈ spans, P t) : ∀ u ∈ insert m s spans, P u := by
  induction spans with
  | nil =>
    intro u hu
    rw [insert, mem_singleton] at hu
    rw [hu]
    exact hs
  | cons t spans ih =>
    have ht := hspans t mem_cons_self
    have htail : ∀ u ∈ spans, P u := fun u hu => hspans u (mem_cons_of_mem _ hu)
    rw [insert]
    split_ifs with hlt hnear
    · exact forall_attach hjoin (le_start_of_lt h happart hlt) hs hspans
    · refine forall_attach hjoin (join_stop_le hsize h happart (Nat.not_lt.1 hlt) hnear) ?_ htail
      exact hjoin t s (stop_le_of_apart hsize (happart t mem_cons_self) (Nat.not_lt.1 hlt))
        hnear ht hs
    · intro u hu
      rcases mem_cons.1 hu with rfl | hu
      · exact ht
      · exact ih (pairwise_cons.1 h).2 (fun v hv => happart v (mem_cons_of_mem _ hv))
          htail u hu

theorem spaced_insert (hsize : 0 < s.size) (h : Spaced m spans) (happart : ∀ t ∈ spans, s.Apart t) :
    Spaced m (insert m s spans) := by
  induction spans with
  | nil => exact pairwise_singleton _ _
  | cons t spans ih =>
    obtain ⟨ht, hspans⟩ := pairwise_cons.1 h
    have htail : ∀ u ∈ spans, s.Apart u := fun u hu => happart u (mem_cons_of_mem _ hu)
    rw [insert]
    split_ifs with hlt hnear
    · exact spaced_attach h (le_start_of_lt h happart hlt)
    · exact spaced_attach hspans (join_stop_le hsize h happart (Nat.not_lt.1 hlt) hnear)
    · refine pairwise_cons.2 ⟨?_, ih hspans htail⟩
      refine forall_insert (fun u v _ _ hu _ => hu) hsize hspans htail ?_ ht
      omega

/-- What was covered by the spans or by the inserted one is covered after that. -/
theorem covered_insert (hsize : 0 < s.size) (h : Spaced m spans)
    (happart : ∀ t ∈ spans, s.Apart t) {x : ℕ} (hx : s.Covers x ∨ ∃ t ∈ spans, t.Covers x) :
    ∃ u ∈ insert m s spans, u.Covers x := by
  induction spans with
  | nil =>
    obtain hx | ⟨t, ht, -⟩ := hx
    · exact ⟨s, mem_singleton.2 rfl, hx⟩
    · cases ht
  | cons t spans ih =>
    rw [insert]
    split_ifs with hlt hnear
    · exact covered_attach (le_start_of_lt h happart hlt) hx
    · refine covered_attach (join_stop_le hsize h happart (Nat.not_lt.1 hlt) hnear) ?_
      have hts := stop_le_of_apart hsize (happart t mem_cons_self) (Nat.not_lt.1 hlt)
      obtain hx | ⟨u, hu, hx⟩ := hx
      · exact Or.inl (covers_join hts (Or.inr hx))
      · rcases mem_cons.1 hu with rfl | hu
        · exact Or.inl (covers_join hts (Or.inl hx))
        · exact Or.inr ⟨u, hu, hx⟩
    · have hrest : s.Covers x ∨ (∃ u ∈ spans, u.Covers x) →
          ∃ u ∈ t :: insert m s spans, u.Covers x := by
        intro hx
        obtain ⟨u, hu, hux⟩ := ih (pairwise_cons.1 h).2
          (fun v hv => happart v (mem_cons_of_mem _ hv)) hx
        exact ⟨u, mem_cons_of_mem _ hu, hux⟩
      obtain hx | ⟨u, hu, hx⟩ := hx
      · exact hrest (Or.inl hx)
      · rcases mem_cons.1 hu with rfl | hu
        · exact ⟨u, mem_cons_self, hx⟩
        · exact hrest (Or.inr ⟨u, hu, hx⟩)

theorem insert_eq_attach (h : ∀ t ∈ spans.head?, s.start < t.start) :
    insert m s spans = attach m s spans := by
  cases spans with
  | nil => rfl
  | cons t spans => rw [insert, if_pos (h t rfl)]

theorem insert_append {ts : List Span} (h : ∀ t ∈ ts, t.start ≤ s.start ∧ t.stop + m ≤ s.start) :
    insert m s (ts ++ spans) = ts ++ insert m s spans := by
  induction ts with
  | nil => rfl
  | cons t ts ih =>
    obtain ⟨hle, hfar⟩ := h t mem_cons_self
    rw [cons_append, insert, if_neg (Nat.not_lt.2 hle), if_neg (Nat.not_lt.2 hfar),
      ih fun u hu => h u (mem_cons_of_mem _ hu), cons_append]

end Insert

/-- A span is inserted if it has at least `m` addresses, and dropped otherwise. -/
def keep (m : ℕ) (s : Span) (spans : List Span) : List Span :=
  if m ≤ s.size then insert m s spans else spans

section Keep

variable {s : Span} {spans : List Span}

theorem forall_keep {P : Span → Prop}
    (hjoin : ∀ s t, s.stop ≤ t.start → t.start < s.stop + m → P s → P t → P (s.join t))
    (hm : 0 < m) (h : Spaced m spans) (happart : m ≤ s.size → ∀ t ∈ spans, s.Apart t)
    (hs : m ≤ s.size → P s) (hspans : ∀ t ∈ spans, P t) : ∀ u ∈ keep m s spans, P u := by
  rw [keep]
  split_ifs with hsize
  · exact forall_insert hjoin (by omega) h (happart hsize) (hs hsize) hspans
  · exact hspans

theorem spaced_keep (hm : 0 < m) (h : Spaced m spans)
    (happart : m ≤ s.size → ∀ t ∈ spans, s.Apart t) : Spaced m (keep m s spans) := by
  rw [keep]
  split_ifs with hsize
  · exact spaced_insert (by omega) h (happart hsize)
  · exact h

theorem covered_keep (hm : 0 < m) (h : Spaced m spans)
    (happart : m ≤ s.size → ∀ t ∈ spans, s.Apart t) {x : ℕ}
    (hx : (m ≤ s.size ∧ s.Covers x) ∨ ∃ t ∈ spans, t.Covers x) :
    ∃ u ∈ keep m s spans, u.Covers x := by
  rw [keep]
  split_ifs with hsize
  · exact covered_insert (by omega) h (happart hsize) (hx.imp_left And.right)
  · exact hx.resolve_left fun hs => hsize hs.1

end Keep

/-- Spans that are not empty are not more than the addresses. -/
theorem add_length_le {lo hi : ℕ} (hle : lo ≤ hi) (h : Spaced m spans)
    (hspans : ∀ s ∈ spans, lo ≤ s.start ∧ 0 < s.size ∧ s.stop ≤ hi) : lo + spans.length ≤ hi := by
  induction spans generalizing lo with
  | nil => exact hle
  | cons s spans ih =>
    obtain ⟨hafter, hrest⟩ := pairwise_cons.1 h
    obtain ⟨hlo, hsize, hhi⟩ := hspans s mem_cons_self
    have hstop : lo + 1 ≤ s.stop := by
      rw [stop]
      omega
    have htail := @ih (lo + 1) (by omega) hrest fun t ht => by
      obtain ⟨-, htsize, hthi⟩ := hspans t (mem_cons_of_mem _ ht)
      have := hafter t ht
      exact ⟨by omega, htsize, hthi⟩
    rw [length_cons]
    omega

end Span
