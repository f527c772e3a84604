import Choreo.Vm.Heap

/-!
# What the heap of a guest loses

A stretch next to a block that is too small for a hole is not put on the free list. It is recovered
when both of its neighbours are free, unless it touches the base or the end of the heap, or has
grown to the size of a hole because several such stretches have come together. A stretch that is
lost in this way stays lost.
-/

namespace Choreo

open List

namespace GuestHeap

open HoleList (fitsIn alignedIn)
open Span (Spaced)

variable {region : HeapRegion} {holes : List Span} {live : List LiveBlock}

/-- The hole for the whole heap. -/
def whole (region : HeapRegion) : Span := ⟨region.base, region.size⟩

def spans (holes : List Span) (live : List LiveBlock) : List Span :=
  holes ++ live.map LiveBlock.span

def Covered (holes : List Span) (live : List LiveBlock) (x : ℕ) : Prop :=
  ∃ s ∈ spans holes live, s.Covers x

/-- The base and the end of the heap are in a hole or a live block, and no stretch between holes and
live blocks has room for a hole. -/
structure Tight (region : HeapRegion) (holes : List Span) (live : List LiveBlock) : Prop where
  base : Covered holes live region.base
  stop : Covered holes live (region.stop - 1)
  between : ∀ x, region.base ≤ x → x + Hole.minSize ≤ region.stop →
    ∃ y, x ≤ y ∧ y < x + Hole.minSize ∧ Covered holes live y

/-- A part of a hole is dropped, as it is too small for a hole, but not empty. -/
def Dropped (part : Span) : Prop := 0 < part.size ∧ part.size < Hole.minSize

/-- What is before the block in its hole is dropped, and no live block ends so close to the new one
that nothing is lost. -/
def StrandsFront (layout : Layout) (t : Span) (live : List LiveBlock) : Prop :=
  Dropped (frontOf layout t) ∧
    ¬∃ b ∈ live, b.span.stop ≤ t.start ∧ alignedIn layout t.start < b.span.stop + Hole.minSize

/-- What is after the block in its hole is dropped, and no live block starts so close to the new one
that nothing is lost. -/
def StrandsTail (layout : Layout) (t : Span) (live : List LiveBlock) : Prop :=
  Dropped (tailOf layout t) ∧
    ¬∃ b ∈ live, t.stop ≤ b.span.start ∧
      b.span.start < alignedIn layout t.start + layout.rounded + Hole.minSize

/-- An allocation leaves a stretch before or after its block that will not be recovered. -/
def Strands (label : HeapLabel) (heap : GuestHeap) : Prop :=
  match label with
  | .allocate layout =>
    ∃ holes t, heap.holes.Holds holes ∧ holes.find? (fitsIn layout) = some t ∧
      (StrandsFront layout t heap.live ∨ StrandsTail layout t heap.live)
  | _ => False

/-! ### Stretches that are lost -/

theorem mem_spans_bounds (h : Sound region holes live) :
    ∀ s ∈ spans holes live,
      Hole.minSize ≤ s.size ∧ region.base ≤ s.start ∧ s.stop ≤ region.stop := by
  intro s hs
  rcases mem_append.1 hs with hs | hs
  · exact ⟨h.hole_size s hs, h.hole_mem s hs⟩
  · obtain ⟨b, hb, rfl⟩ := mem_map.1 hs
    exact ⟨minSize_le_span b, h.block_mem b hb⟩

/-- A stretch is lost: at the base of the heap, at its end, or with room for a hole. -/
def Lost (region : HeapRegion) (holes : List Span) (live : List LiveBlock) : Prop :=
  (∀ s ∈ spans holes live, region.base < s.start) ∨
    (∀ s ∈ spans holes live, s.stop < region.stop) ∨
    ∃ g : Span, g.size = Hole.minSize ∧ region.base ≤ g.start ∧ g.stop ≤ region.stop ∧
      ∀ s ∈ spans holes live, s.Apart g

/-- Nothing is lost exactly if all stretches will be recovered. -/
theorem tight_iff (h : Sound region holes live) :
    Tight region holes live ↔ ¬Lost region holes live := by
  have hbounds := mem_spans_bounds h
  have hmin : 0 < Hole.minSize := by decide
  constructor
  · rintro htight (hbase | hstop | ⟨g, hsize, hle, hend, hapart⟩)
    · obtain ⟨s, hs, hcovers⟩ := htight.base
      exact absurd hcovers.1 (Nat.not_le.2 (hbase s hs))
    · obtain ⟨s, hs, hcovers⟩ := htight.stop
      have := hstop s hs
      have := hcovers.2
      omega
    · obtain ⟨y, hxy, hyx, s, hs, hcovers⟩ := htight.between g.start hle (by
        rw [← hsize]
        exact hend)
      have := hapart s hs
      simp only [Span.Apart, Span.Covers, Span.stop] at *
      omega
  · intro hlost
    simp only [Lost, not_or, not_forall, not_exists, not_and] at hlost
    obtain ⟨⟨s, hs, hbase⟩, ⟨u, hu, hstop⟩, hgap⟩ := hlost
    refine ⟨⟨s, hs, ?_⟩, ⟨u, hu, ?_⟩, fun x hle hend => ?_⟩
    · have := hbounds s hs
      simp only [Span.Covers, Span.stop] at *
      omega
    · have := hbounds u hu
      simp only [Span.Covers, Span.stop] at *
      omega
    · obtain ⟨v, hv, hmeet⟩ := hgap ⟨x, Hole.minSize⟩ rfl hle hend
      have := hbounds v hv
      refine ⟨max v.start x, le_max_right _ _, ?_, v, hv, le_max_left _ _, ?_⟩
      · simp only [Span.Apart, Span.stop] at *
        omega
      · simp only [Span.Apart, Span.stop] at *
        omega

theorem covered_nil {x : ℕ} : Covered holes [] x ↔ ∃ s ∈ holes, s.Covers x := by
  simp [Covered, spans]

/-- Without live blocks, nothing is lost exactly if there is one hole for the whole heap. -/
theorem tight_nil_iff (h : Sound region holes []) :
    Tight region holes [] ↔ holes = [whole region] := by
  have hmin : Hole.minSize = 24 := rfl
  have hsize := region.minSize_le
  constructor
  · rintro ⟨hbase, hstop, hbetween⟩
    simp only [covered_nil] at hbase hstop hbetween
    cases holes with
    | nil =>
      obtain ⟨s, hs, -⟩ := hbase
      cases hs
    | cons s rest =>
      have hsmem := h.hole_mem s mem_cons_self
      have hafter := (pairwise_cons.1 h.spaced).1
      have hstart : s.start = region.base := by
        obtain ⟨u, hu, hcovers⟩ := hbase
        rcases mem_cons.1 hu with rfl | hu
        · exact le_antisymm hcovers.1 hsmem.1
        · have := hafter u hu
          simp only [Span.Covers, Span.stop] at *
          omega
      cases rest with
      | nil =>
        obtain ⟨u, hu, hcovers⟩ := hstop
        rw [mem_singleton] at hu
        subst hu
        have hend : u.stop = region.stop := by
          have := hcovers.2
          omega
        have hwhole : u = whole region := by
          cases u
          simp only [Span.stop, HeapRegion.stop, whole, Span.mk.injEq] at *
          omega
        rw [hwhole]
      | cons v rest =>
        have hv := hafter v mem_cons_self
        have hvmem := h.hole_mem v (by simp)
        have hvstop : v.start ≤ v.stop := Nat.le_add_right ..
        have hsstop : s.start ≤ s.stop := Nat.le_add_right ..
        obtain ⟨y, hle, hlt, u, hu, hcovers⟩ := hbetween s.stop (by omega) (by omega)
        rcases mem_cons.1 hu with rfl | hu
        · exact absurd hcovers.2 (by omega)
        · have := hafter u hu
          exact absurd hcovers.1 (by omega)
  · rintro rfl
    have hcovers : ∀ x, region.base ≤ x → x < region.stop → Covered [whole region] [] x :=
      fun x hle hlt => covered_nil.2 ⟨_, mem_singleton.2 rfl, hle, hlt⟩
    rw [HeapRegion.stop] at hcovers
    refine ⟨hcovers _ le_rfl (by omega), hcovers _ ?_ ?_, fun x hle hend =>
      ⟨x, le_rfl, by omega, hcovers x hle ?_⟩⟩
    · rw [HeapRegion.stop]
      omega
    · rw [HeapRegion.stop]
      omega
    · rw [HeapRegion.stop] at hend
      omega

/-! ### Giving a block back -/

theorem forall_mem_spans {P : Span → Prop} :
    (∀ s ∈ spans holes live, P s) ↔ (∀ s ∈ holes, P s) ∧ ∀ b ∈ live, P b.span := by
  simp [spans, or_imp, forall_and]

/-- What is lost stays lost when all holes and blocks keep what the old ones had in common. -/
theorem Lost.mono {holes' : List Span} {live' : List LiveBlock} (h : Lost region holes live)
    (hforall : ∀ P : Span → Prop,
      (∀ s t, s.stop ≤ t.start → t.start < s.stop + Hole.minSize → P s → P t → P (s.join t)) →
      (∀ s t, P t → t.start ≤ s.start → s.stop ≤ t.stop → P s) →
      (∀ s ∈ spans holes live, P s) → ∀ s ∈ spans holes' live', P s) :
    Lost region holes' live' := by
  rcases h with hbase | hstop | ⟨g, hsize, hle, hend, hapart⟩
  · refine Or.inl (hforall _ (fun s t _ _ hs _ => hs) (fun s t ht hle _ => ?_) hbase)
    exact lt_of_lt_of_le ht hle
  · refine Or.inr (Or.inl (hforall _ (fun s t hst _ _ ht => ?_) (fun s t ht _ hle => ?_) hstop))
    · rw [Span.stop_join hst]
      exact ht
    · exact lt_of_le_of_lt hle ht
  · refine Or.inr (Or.inr ⟨g, hsize, hle, hend, hforall _ (fun s t hst hnear hs ht =>
      Span.apart_join hst hnear hsize.ge hs ht) (fun s t ht hstart hstop => ?_) hapart⟩)
    rcases ht with ht | ht
    · exact Or.inl (le_trans hstop ht)
    · exact Or.inr (le_trans ht hstart)

theorem mem_or_eq_of_eraseIdx {i : ℕ} {b c : LiveBlock} (hget : live[i]? = some b) (hc : c ∈ live) :
    c ∈ live.eraseIdx i ∨ c = b := by
  obtain ⟨hi, rfl⟩ := List.getElem?_eq_some_iff.1 hget
  rw [← take_append_drop i live, drop_eq_getElem_cons hi] at hc
  rw [eraseIdx_eq_take_drop_succ]
  simp only [mem_append, mem_cons] at hc ⊢
  tauto

/-- Giving a block back loses nothing, and what was lost stays lost. -/
theorem release_tight_iff {i : ℕ} {b : LiveBlock} (h : Sound region holes live)
    (h' : Sound region (Span.insert Hole.minSize b.span holes) (live.eraseIdx i))
    (hget : live[i]? = some b) :
    Tight region (Span.insert Hole.minSize b.span holes) (live.eraseIdx i) ↔
      Tight region holes live := by
  have hmem := mem_of_getElem? hget
  have hpos : 0 < b.span.size := Nat.lt_of_lt_of_le (by decide) (minSize_le_span b)
  have hapart : ∀ t ∈ holes, b.span.Apart t := fun t ht => (h.holes_apart t ht b hmem).symm
  have hcovered : ∀ {x}, Covered holes live x →
      Covered (Span.insert Hole.minSize b.span holes) (live.eraseIdx i) x := by
    rintro x ⟨s, hs, hx⟩
    have hinsert : (b.span.Covers x ∨ ∃ t ∈ holes, t.Covers x) →
        Covered (Span.insert Hole.minSize b.span holes) (live.eraseIdx i) x := by
      intro hx
      obtain ⟨u, hu, hux⟩ := Span.covered_insert (m := Hole.minSize) hpos h.spaced hapart hx
      exact ⟨u, mem_append_left _ hu, hux⟩
    rcases mem_append.1 hs with hs | hs
    · exact hinsert (Or.inr ⟨s, hs, hx⟩)
    · obtain ⟨c, hc, rfl⟩ := mem_map.1 hs
      rcases mem_or_eq_of_eraseIdx hget hc with hc | rfl
      · exact ⟨c.span, mem_append_right _ (mem_map_of_mem hc), hx⟩
      · exact hinsert (Or.inl hx)
  constructor
  · rw [tight_iff h', tight_iff h]
    refine mt fun hlost => hlost.mono fun P hjoin _ hall => ?_
    obtain ⟨hholes, hlive⟩ := forall_mem_spans.1 hall
    refine forall_mem_spans.2 ⟨?_, fun c hc => hlive c (mem_of_mem_eraseIdx hc)⟩
    exact Span.forall_insert hjoin hpos h.spaced hapart (hlive b hmem) hholes
  · rintro ⟨hbase, hstop, hbetween⟩
    refine ⟨hcovered hbase, hcovered hstop, fun x hle hend => ?_⟩
    obtain ⟨y, hxy, hyx, hy⟩ := hbetween x hle hend
    exact ⟨y, hxy, hyx, hcovered hy⟩

/-! ### Taking a block -/

section Take

variable {layout : Layout} {xs ys : List Span} {t : Span}
variable (h : Sound region (xs ++ t :: ys) live) (hne : t.start ≠ 0)
  (hfits : fitsIn layout t = true) (hno : alignedIn layout t.start + layout.rounded < 2 ^ 64)
include h hne hfits hno

theorem parts_spec :
    t.start ≤ alignedIn layout t.start ∧
      alignedIn layout t.start + layout.rounded ≤ t.stop ∧ Hole.minSize ≤ layout.rounded ∧
      region.base ≤ t.start ∧ t.stop ≤ region.stop ∧
      (frontOf layout t).stop = alignedIn layout t.start ∧ (tailOf layout t).stop = t.stop := by
  have ht : t ∈ xs ++ t :: ys := by simp
  obtain ⟨hle, hend, hfront, -, htailstop⟩ := blockIn_spec hne (h.hole_bounds t ht).2 hfits hno
  exact ⟨hle, hend, minSize_le_span (blockIn layout t), (h.hole_mem t ht).1, (h.hole_mem t ht).2,
    hfront, htailstop⟩

theorem front_apart : ∀ u ∈ xs ++ ys, (frontOf layout t).Apart u := by
  obtain ⟨hle, hend, -, -, -, hfront, -⟩ := parts_spec h hne hfits hno
  exact apart_of_part h.spaced le_rfl (by omega)

/-- The rule for the holes after a block was taken. -/
theorem forall_carved {P : Span → Prop}
    (hjoin : ∀ s u, s.stop ≤ u.start → u.start < s.stop + Hole.minSize → P s → P u → P (s.join u))
    (hfront : Hole.minSize ≤ (frontOf layout t).size → P (frontOf layout t))
    (htail : Hole.minSize ≤ (tailOf layout t).size → P (tailOf layout t))
    (hrest : ∀ u ∈ xs ++ ys, P u) : ∀ u ∈ carved layout t (xs ++ ys), P u := by
  have hfrontapart := front_apart h hne hfits hno
  refine Span.forall_keep hjoin (by decide)
    (Span.spaced_keep (by decide) h.remove.spaced fun _ => hfrontapart)
    (tail_apart h hne hfits hno) htail ?_
  exact Span.forall_keep hjoin (by decide) h.remove.spaced (fun _ => hfrontapart) hfront hrest

theorem covered_carved {x : ℕ}
    (hx : (Hole.minSize ≤ (frontOf layout t).size ∧ (frontOf layout t).Covers x) ∨
      (Hole.minSize ≤ (tailOf layout t).size ∧ (tailOf layout t).Covers x) ∨
      ∃ u ∈ xs ++ ys, u.Covers x) :
    ∃ u ∈ carved layout t (xs ++ ys), u.Covers x := by
  have hfrontapart := front_apart h hne hfits hno
  refine Span.covered_keep (by decide)
    (Span.spaced_keep (by decide) h.remove.spaced fun _ => hfrontapart)
    (tail_apart h hne hfits hno) ?_
  rcases hx with hx | hx | hx
  · exact Or.inr (Span.covered_keep (by decide) h.remove.spaced (fun _ => hfrontapart) (Or.inl hx))
  · exact Or.inl hx
  · exact Or.inr (Span.covered_keep (by decide) h.remove.spaced (fun _ => hfrontapart) (Or.inr hx))

/-- What was lost stays lost. -/
theorem take_lost (hlost : Lost region (xs ++ t :: ys) live) :
    Lost region (carved layout t (xs ++ ys)) (blockIn layout t :: live) := by
  obtain ⟨hle, hend, -, -, -, hfront, htail⟩ := parts_spec h hne hfits hno
  refine hlost.mono fun P hjoin hpart hall => ?_
  obtain ⟨hholes, hlive⟩ := forall_mem_spans.1 hall
  have ht : P t := hholes t (by simp)
  have hrest : ∀ u ∈ xs ++ ys, P u := fun u hu => hholes u (by
    simp only [mem_append, mem_cons] at hu ⊢
    tauto)
  refine forall_mem_spans.2 ⟨?_, forall_mem_cons.2 ⟨hpart _ t ht hle hend, hlive⟩⟩
  refine forall_carved h hne hfits hno hjoin (fun _ => hpart _ t ht le_rfl (by omega))
    (fun _ => hpart _ t ht ?_ htail.le) hrest
  change t.start ≤ alignedIn layout t.start + layout.rounded
  omega

omit hne hfits hno in
theorem side_of_rest :
    (∀ u ∈ xs ++ ys, u.stop + Hole.minSize ≤ t.start ∨ t.stop + Hole.minSize ≤ u.start) ∧
      ∀ b ∈ live, b.span.stop ≤ t.start ∨ t.stop ≤ b.span.start := by
  obtain ⟨-, hspacedt, hcross⟩ := pairwise_append.1 h.spaced
  refine ⟨fun u hu => ?_, fun b hb => ?_⟩
  · rcases mem_append.1 hu with hu | hu
    · exact Or.inl (hcross u hu t mem_cons_self)
    · exact Or.inr ((pairwise_cons.1 hspacedt).1 u hu)
  · exact (h.holes_apart t (by simp) b hb).symm

theorem lost_of_strandsFront (hstrands : StrandsFront layout t live) :
    Lost region (carved layout t (xs ++ ys)) (blockIn layout t :: live) := by
  obtain ⟨⟨hpos, hsmall⟩, hnear⟩ := hstrands
  obtain ⟨hle, hend, hround, hbase, hstop, hfront, htail⟩ := parts_spec h hne hfits hno
  obtain ⟨hholes, hlive⟩ := side_of_rest h
  have hmin : Hole.minSize = 24 := rfl
  have hlt : t.start < alignedIn layout t.start := Nat.lt_of_sub_pos hpos
  have htailstart : (tailOf layout t).start = alignedIn layout t.start + layout.rounded := rfl
  have hstart : (blockIn layout t).span.start = alignedIn layout t.start := rfl
  push Not at hnear
  by_cases hleft : ∃ u ∈ spans (xs ++ ys) live, u.stop ≤ t.start
  · -- there is room for a hole between the block and everything before it
    obtain ⟨u, hu, hustop⟩ := hleft
    have hufar : u.stop + Hole.minSize ≤ alignedIn layout t.start := by
      rcases mem_append.1 hu with hu | hu
      · have := hholes u hu
        have : u.start ≤ u.stop := Nat.le_add_right ..
        omega
      · obtain ⟨b, hb, rfl⟩ := mem_map.1 hu
        exact hnear b hb hustop
    have hubase : region.base ≤ u.stop :=
      le_trans (mem_spans_bounds h.remove u hu).2.1 (Nat.le_add_right ..)
    refine Or.inr (Or.inr ⟨⟨alignedIn layout t.start - Hole.minSize, Hole.minSize⟩, rfl, ?_, ?_,
      ?_⟩)
    · change region.base ≤ alignedIn layout t.start - Hole.minSize
      omega
    · change alignedIn layout t.start - Hole.minSize + Hole.minSize ≤ region.stop
      omega
    · refine forall_mem_spans.2 ⟨forall_carved h hne hfits hno (fun s u hsu hsnear hs hu =>
        Span.apart_join hsu hsnear le_rfl hs hu) (fun hlarge => ?_) (fun _ => Or.inr ?_)
        fun v hv => ?_, forall_mem_cons.2 ⟨Or.inr ?_, fun b hb => ?_⟩⟩
      · omega
      · change alignedIn layout t.start - Hole.minSize + Hole.minSize ≤ _
        omega
      · have := hholes v hv
        simp only [Span.Apart, Span.stop] at *
        omega
      · change alignedIn layout t.start - Hole.minSize + Hole.minSize ≤ _
        omega
      · have := hlive b hb
        have := hnear b hb
        simp only [Span.Apart, Span.stop] at *
        omega
  · -- nothing is before the hole, so the base of the heap is lost
    push Not at hleft
    obtain ⟨hholesleft, hliveleft⟩ := forall_mem_spans.1 hleft
    refine Or.inl (forall_mem_spans.2 ⟨forall_carved h hne hfits hno
      (fun s u _ _ hs _ => hs) (fun hlarge => ?_) (fun _ => ?_) fun v hv => ?_,
      forall_mem_cons.2 ⟨?_, fun b hb => ?_⟩⟩)
    · omega
    · omega
    · have := hholesleft v hv
      have := hholes v hv
      omega
    · omega
    · have := hliveleft b hb
      have := hlive b hb
      omega

/-- What is dropped after a block is lost if no live block is near. -/
theorem lost_of_strandsTail (hstrands : StrandsTail layout t live) :
    Lost region (carved layout t (xs ++ ys)) (blockIn layout t :: live) := by
  obtain ⟨⟨hpos, hsmall⟩, hnear⟩ := hstrands
  obtain ⟨hle, hend, hround, hbase, hstop, hfront, htail⟩ := parts_spec h hne hfits hno
  obtain ⟨hholes, hlive⟩ := side_of_rest h
  have hmin : Hole.minSize = 24 := rfl
  have hlt : alignedIn layout t.start + layout.rounded < t.stop := Nat.lt_of_sub_pos hpos
  have hblockstop : (blockIn layout t).span.stop =
      alignedIn layout t.start + layout.rounded := rfl
  push Not at hnear
  by_cases hright : ∃ u ∈ spans (xs ++ ys) live, t.stop ≤ u.start
  · -- there is room for a hole between the block and everything after it
    obtain ⟨u, hu, hustart⟩ := hright
    have hufar : alignedIn layout t.start + layout.rounded + Hole.minSize ≤ u.start := by
      rcases mem_append.1 hu with hu | hu
      · have := hholes u hu
        have : u.start ≤ u.stop := Nat.le_add_right ..
        omega
      · obtain ⟨b, hb, rfl⟩ := mem_map.1 hu
        exact hnear b hb hustart
    have hustop : u.start ≤ region.stop :=
      le_trans (Nat.le_add_right ..) (mem_spans_bounds h.remove u hu).2.2
    refine Or.inr (Or.inr ⟨⟨alignedIn layout t.start + layout.rounded, Hole.minSize⟩, rfl, ?_, ?_,
      ?_⟩)
    · change region.base ≤ alignedIn layout t.start + layout.rounded
      omega
    · exact le_trans hufar hustop
    · refine forall_mem_spans.2 ⟨forall_carved h hne hfits hno (fun s u hsu hsnear hs hu =>
        Span.apart_join hsu hsnear le_rfl hs hu) (fun _ => Or.inl ?_) (fun hlarge => ?_)
        fun v hv => ?_, forall_mem_cons.2 ⟨Or.inl le_rfl, fun b hb => ?_⟩⟩
      · rw [hfront]
        exact Nat.le_add_right ..
      · omega
      · have := hholes v hv
        simp only [Span.Apart, Span.stop] at *
        omega
      · have := hlive b hb
        have := hnear b hb
        simp only [Span.Apart, Span.stop] at *
        omega
  · -- nothing is after the hole, so the end of the heap is lost
    push Not at hright
    obtain ⟨hholesright, hliveright⟩ := forall_mem_spans.1 hright
    refine Or.inr (Or.inl (forall_mem_spans.2 ⟨forall_carved h hne hfits hno
      (fun s u hsu _ _ hu => ?_) (fun _ => ?_) (fun hlarge => ?_) fun v hv => ?_,
      forall_mem_cons.2 ⟨?_, fun b hb => ?_⟩⟩))
    · rw [Span.stop_join hsu]
      exact hu
    · omega
    · omega
    · have := hholesright v hv
      have := hholes v hv
      have : t.start ≤ t.stop := Nat.le_add_right ..
      omega
    · omega
    · have := hliveright b hb
      have := hlive b hb
      have : t.start ≤ t.stop := Nat.le_add_right ..
      omega

/-- What is covered after a block was taken. -/
theorem covered_take {x : ℕ} (hx : Covered (xs ++ t :: ys) live x)
    (hdropped : ¬(Dropped (frontOf layout t) ∧ (frontOf layout t).Covers x) ∧
      ¬(Dropped (tailOf layout t) ∧ (tailOf layout t).Covers x)) :
    Covered (carved layout t (xs ++ ys)) (blockIn layout t :: live) x := by
  obtain ⟨s, hs, hsx⟩ := hx
  have hcarved : ∀ {y}, (∃ u ∈ carved layout t (xs ++ ys), u.Covers y) →
      Covered (carved layout t (xs ++ ys)) (blockIn layout t :: live) y := by
    rintro y ⟨u, hu, huy⟩
    exact ⟨u, mem_append_left _ hu, huy⟩
  rcases mem_append.1 hs with hs | hs
  · by_cases hst : s = t
    · subst hst
      obtain ⟨hle, hend, -, -, -, hfront, htail⟩ := parts_spec h hne hfits hno
      rcases Nat.lt_or_ge x (alignedIn layout s.start) with hbefore | hafter
      · have hcovers : (frontOf layout s).Covers x := ⟨hsx.1, by omega⟩
        refine hcarved (covered_carved h hne hfits hno (Or.inl ⟨?_, hcovers⟩))
        by_contra hsmall
        refine hdropped.1 ⟨⟨?_, Nat.not_le.1 hsmall⟩, hcovers⟩
        simp only [Span.Covers, Span.stop] at hcovers
        omega
      · rcases Nat.lt_or_ge x (alignedIn layout s.start + layout.rounded) with hin | hover
        · exact ⟨(blockIn layout s).span, mem_append_right _ (by simp), hafter, hin⟩
        · have hcovers : (tailOf layout s).Covers x := ⟨hover, by
            have := hsx.2
            omega⟩
          refine hcarved (covered_carved h hne hfits hno (Or.inr (Or.inl ⟨?_, hcovers⟩)))
          by_contra hsmall
          refine hdropped.2 ⟨⟨?_, Nat.not_le.1 hsmall⟩, hcovers⟩
          simp only [Span.Covers, Span.stop] at hcovers
          omega
    · refine hcarved (covered_carved h hne hfits hno (Or.inr (Or.inr ⟨s, ?_, hsx⟩)))
      simp only [mem_append, mem_cons] at hs ⊢
      tauto
  · refine ⟨s, mem_append_right _ ?_, hsx⟩
    rw [map_cons]
    exact mem_cons_of_mem _ hs

/-- Nothing is lost if a live block is near wherever something is dropped. -/
theorem tight_of_not_strands (htight : Tight region (xs ++ t :: ys) live)
    (hfrontok : ¬StrandsFront layout t live) (htailok : ¬StrandsTail layout t live) :
    Tight region (carved layout t (xs ++ ys)) (blockIn layout t :: live) := by
  obtain ⟨hle, hend, hround, hbase, hstop, hfront, htail⟩ := parts_spec h hne hfits hno
  have hmin : Hole.minSize = 24 := rfl
  have hfrontstart : (frontOf layout t).start = t.start := rfl
  have htailstart : (tailOf layout t).start = alignedIn layout t.start + layout.rounded := rfl
  have hlivecovered : ∀ {b x}, b ∈ live → b.span.Covers x →
      Covered (carved layout t (xs ++ ys)) (blockIn layout t :: live) x := by
    intro b x hb hx
    exact ⟨b.span, mem_append_right _
      (mem_cons_of_mem _ (mem_map_of_mem hb)), hx⟩
  have hblockcovered : ∀ {x}, alignedIn layout t.start ≤ x →
      x < alignedIn layout t.start + layout.rounded →
      Covered (carved layout t (xs ++ ys)) (blockIn layout t :: live) x := by
    intro x hx hlt
    exact ⟨(blockIn layout t).span, mem_append_right _ (by simp), hx, hlt⟩
  have hfrontnear : Dropped (frontOf layout t) → ∃ b ∈ live, b.span.stop ≤ t.start ∧
      alignedIn layout t.start < b.span.stop + Hole.minSize := by
    intro hdropped
    by_contra hnone
    exact hfrontok ⟨hdropped, hnone⟩
  have htailnear : Dropped (tailOf layout t) → ∃ b ∈ live, t.stop ≤ b.span.start ∧
      b.span.start < alignedIn layout t.start + layout.rounded + Hole.minSize := by
    intro hdropped
    by_contra hnone
    exact htailok ⟨hdropped, hnone⟩
  refine ⟨covered_take h hne hfits hno htight.base ⟨?_, ?_⟩,
    covered_take h hne hfits hno htight.stop ⟨?_, ?_⟩, fun x hx hxend => ?_⟩
  · rintro ⟨hdropped, hcovers⟩
    obtain ⟨b, hb, hbstop, -⟩ := hfrontnear hdropped
    have := (h.block_mem b hb).1
    have := minSize_le_span b
    simp only [Span.Covers, Span.stop] at *
    omega
  · rintro ⟨-, hcovers⟩
    have := hcovers.1
    omega
  · rintro ⟨-, hcovers⟩
    have := hcovers.2
    omega
  · rintro ⟨hdropped, hcovers⟩
    obtain ⟨b, hb, hbstart, -⟩ := htailnear hdropped
    have := (h.block_mem b hb).2
    have := minSize_le_span b
    simp only [Span.Covers, Span.stop] at *
    omega
  · obtain ⟨y, hxy, hyx, hy⟩ := htight.between x hx hxend
    by_cases hfrontdrop : Dropped (frontOf layout t) ∧ (frontOf layout t).Covers y
    · obtain ⟨hdropped, hcovers⟩ := hfrontdrop
      -- the window reaches the block, or the live block before the hole
      rcases Nat.lt_or_ge (alignedIn layout t.start) (x + Hole.minSize) with hreach | hshort
      · refine ⟨alignedIn layout t.start, ?_, hreach, hblockcovered le_rfl (by omega)⟩
        have := hcovers.2
        omega
      · obtain ⟨b, hb, hbstop, hbnear⟩ := hfrontnear hdropped
        have := minSize_le_span b
        have := hcovers.1
        refine ⟨b.span.stop - 1, by omega, by omega, hlivecovered hb ?_⟩
        simp only [Span.Covers, Span.stop] at *
        omega
    · by_cases htaildrop : Dropped (tailOf layout t) ∧ (tailOf layout t).Covers y
      · obtain ⟨hdropped, hcovers⟩ := htaildrop
        rcases Nat.lt_or_ge x (alignedIn layout t.start + layout.rounded) with hreach | hshort
        · refine ⟨alignedIn layout t.start + layout.rounded - 1, by omega, ?_,
            hblockcovered (by omega) (by omega)⟩
          have := hcovers.1
          omega
        · obtain ⟨b, hb, hbstart, hbnear⟩ := htailnear hdropped
          have := minSize_le_span b
          have := hcovers.2
          refine ⟨b.span.start, by omega, by omega, hlivecovered hb ?_⟩
          simp only [Span.Covers, Span.stop] at *
          omega
      · exact ⟨y, hxy, hyx, covered_take h hne hfits hno hy ⟨hfrontdrop, htaildrop⟩⟩

/-- Taking a block loses nothing exactly if a live block is near wherever something is dropped. -/
theorem take_tight_iff :
    Tight region (carved layout t (xs ++ ys)) (blockIn layout t :: live) ↔
      Tight region (xs ++ t :: ys) live ∧
        ¬(StrandsFront layout t live ∨ StrandsTail layout t live) := by
  have h' := sound_carved h hne hfits hno
  constructor
  · intro htight
    rw [tight_iff h'] at htight
    refine ⟨(tight_iff h).2 fun hlost => htight (take_lost h hne hfits hno hlost), ?_⟩
    rintro (hstrands | hstrands)
    · exact htight (lost_of_strandsFront h hne hfits hno hstrands)
    · exact htight (lost_of_strandsTail h hne hfits hno hstrands)
  · rintro ⟨htight, hstrands⟩
    exact tight_of_not_strands h hne hfits hno htight (fun hs => hstrands (Or.inl hs))
      fun hs => hstrands (Or.inr hs)

end Take

/-! ### Whole runs -/

/-- Nothing of the heap is lost. -/
def TightHeap (region : HeapRegion) (heap : GuestHeap) : Prop :=
  ∃ holes, heap.holes.Holds holes ∧ Tight region holes heap.live

theorem holds_unique {s : HoleList} {holes' : List Span} (h : s.Holds holes)
    (h' : s.Holds holes') : holes = holes' := by
  obtain ⟨last, h⟩ := h
  obtain ⟨last', h'⟩ := h'
  exact Span.segment_unique h h'

theorem tightHeap_iff {heap : GuestHeap} (h : heap.holes.Holds holes) :
    heap.TightHeap region ↔ Tight region holes heap.live := by
  constructor
  · rintro ⟨holes', h', htight⟩
    rw [holds_unique h h']
    exact htight
  · exact fun htight => ⟨holes, h, htight⟩

theorem strands_allocate_iff {heap : GuestHeap} (h : heap.holes.Holds holes) (layout : Layout) :
    heap.Strands (.allocate layout) ↔
      ∃ t, holes.find? (fitsIn layout) = some t ∧
        (StrandsFront layout t heap.live ∨ StrandsTail layout t heap.live) := by
  constructor
  · rintro ⟨holes', t, h', hfind, hstrands⟩
    rw [← holds_unique h h'] at hfind
    exact ⟨t, hfind, hstrands⟩
  · rintro ⟨t, hfind, hstrands⟩
    exact ⟨holes, t, h, hfind, hstrands⟩

/-- Exactly which steps lose nothing. -/
theorem step_tightHeap_iff {heap heap' : GuestHeap} {label : HeapLabel}
    (h : heap.Invariant region) (hfits : heap.Fits label)
    (hstep : step label heap = some heap') :
    heap'.TightHeap region ↔ heap.TightHeap region ∧ ¬heap.Strands label := by
  obtain ⟨hhung, holes, hholds, hsound⟩ := id h
  have hinv := step_invariant h hfits hstep
  rw [tightHeap_iff hholds]
  cases label with
  | allocate layout =>
    rw [strands_allocate_iff hholds]
    obtain ⟨-, ⟨hfind, hholds', hlive⟩ | ⟨xs, t, ys, rfl, hfind, hfitst, hlt, hholds', hlive⟩⟩ :=
      allocate_outcome hhung hholds hsound hfits hstep
    · rw [tightHeap_iff hholds', hlive]
      simp [hfind]
    · rw [tightHeap_iff hholds', hlive,
        take_tight_iff hsound (hsound.start_ne_zero t (by simp)) hfitst hlt]
      simp [hfind]
  | deallocate block =>
    obtain ⟨-, ⟨hholds', hlive⟩ | ⟨b, hget, hholds', hlive⟩⟩ :=
      deallocate_outcome hhung hholds hsound hstep
    · rw [tightHeap_iff hholds', hlive]
      exact (and_iff_left id).symm
    · obtain ⟨-, holes', hholds'', hsound'⟩ := hinv
      rw [← holds_unique hholds' hholds'', hlive] at hsound'
      rw [tightHeap_iff hholds', hlive, release_tight_iff hsound hsound' hget]
      exact (and_iff_left id).symm
  | write addr value =>
    obtain ⟨-, hholds', hlive⟩ := write_outcome hhung hholds hsound hstep
    rw [tightHeap_iff hholds', hlive]
    exact (and_iff_left id).symm

/-- For every heap and every sequence of allocations, deallocations and writes in which nothing
wraps around and that ends without live blocks, the free list is again one hole for the whole heap,
if and only if no allocation left a stretch that is not recovered. -/
theorem reclaimed_iff {region : HeapRegion} {mem : ℕ → ℕ} {labels : List HeapLabel}
    {heap : GuestHeap}
    (hfits : StepSystem.Along step (fun label heap => heap.Fits label) labels (start region mem))
    (hrun : StepSystem.run step labels (start region mem) = some heap) (hlive : heap.live = []) :
    heap.holes.Holds [whole region] ↔
      StepSystem.Along step (fun label heap => ¬heap.Strands label) labels (start region mem) := by
  have hstart : (start region mem).TightHeap region := by
    obtain ⟨-, holes, hholds, hsound⟩ := start_invariant region mem
    have hone : holes = [whole region] := holds_unique hholds (start_holds region mem)
    exact ⟨holes, hholds, (tight_nil_iff hsound).2 hone⟩
  have hkeeps : ∀ label heap heap', Invariant region heap → heap.Fits label →
      step label heap = some heap' → heap'.Invariant region :=
    fun label heap heap' h hfits hstep => step_invariant h hfits hstep
  obtain ⟨-, holes, hholds, hsound⟩ := StepSystem.invariant_of_along
    (fun label heap heap' hfits h hstep => hkeeps label heap heap' h hfits hstep)
    (start_invariant region mem) hfits hrun
  have hiff := StepSystem.holds_iff_along (T := TightHeap region)
    (H := fun label heap => ¬heap.Strands label) hkeeps
    (fun label heap heap' h hfits hstep => step_tightHeap_iff h hfits hstep)
    (start_invariant region mem) hfits hrun
  rw [and_iff_right hstart, tightHeap_iff hholds, hlive] at hiff
  rw [hlive] at hsound
  rw [← hiff, tight_nil_iff hsound]
  constructor
  · exact fun hwhole => holds_unique hholds hwhole
  · rintro rfl
    exact hholds

/-- A heap of a few blocks. -/
def smallRegion : HeapRegion where
  base := 4096
  size := 80
  aligned := by decide
  minSize_le := by decide
  base_ne_zero := by decide
  stop_lt := by decide

/-- A block of the size of a hole. -/
def smallLayout : Layout where
  size := 24
  logAlign := 3
  valid := by decide

/-- Two blocks are taken and given back. -/
theorem reclaimed_twoBlocks :
    ∃ heap, StepSystem.run step
        [.allocate smallLayout, .allocate smallLayout, .deallocate 1, .deallocate 0]
        (start smallRegion fun _ => 0) = some heap ∧
      heap.live = [] ∧
      (heap.holes.Holds [whole smallRegion] ↔
        StepSystem.Along step (fun label heap => ¬heap.Strands label)
          [.allocate smallLayout, .allocate smallLayout, .deallocate 1, .deallocate 0]
          (start smallRegion fun _ => 0)) := by
  have hlive : (StepSystem.run step
      [.allocate smallLayout, .allocate smallLayout, .deallocate 1, .deallocate 0]
      (start smallRegion fun _ => 0)).any (fun heap => heap.live.isEmpty) = true := by
    decide
  obtain ⟨heap, hrun, hlive⟩ := (Option.any_eq_true ..).1 hlive
  exact ⟨heap, hrun, List.isEmpty_iff.1 hlive,
    reclaimed_iff (along_fits_of_low (by decide) _ _) hrun (List.isEmpty_iff.1 hlive)⟩

/-- After three blocks the end of the heap is too small for a hole, and is lost. -/
theorem not_reclaimed_sliver :
    ∃ heap, StepSystem.run step
        [.allocate smallLayout, .allocate smallLayout, .allocate smallLayout, .deallocate 2,
          .deallocate 1, .deallocate 0]
        (start smallRegion fun _ => 0) = some heap ∧
      heap.live = [] ∧ ¬heap.holes.Holds [whole smallRegion] := by
  have hrun : (StepSystem.run step
      [.allocate smallLayout, .allocate smallLayout, .allocate smallLayout, .deallocate 2,
        .deallocate 1, .deallocate 0]
      (start smallRegion fun _ => 0)).any
      (fun heap => heap.live.isEmpty && heap.holes.size 4096 == 72) = true := by
    decide +kernel
  obtain ⟨heap, hrun, hend⟩ := (Option.any_eq_true ..).1 hrun
  rw [Bool.and_eq_true] at hend
  refine ⟨heap, hrun, List.isEmpty_iff.1 hend.1, fun hholds => ?_⟩
  have hsize := @HoleList.size_of_holds _ [] [] _ hholds
  have hless : heap.holes.size 4096 = 72 := by simpa using hend.2
  exact absurd (hless.symm.trans hsize) (by decide)

end GuestHeap

end Choreo
