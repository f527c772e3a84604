import Choreo.Library.Runs
import Choreo.Vm.Allocator

/-!
# The heap of a guest

A guest program allocates blocks, writes into them and gives them back, in any order. The blocks
stay inside the heap, are aligned and do not overlap each other or the holes, as long as no request is so
large that the end of the block wraps around the address space.
-/

namespace Choreo

open List Option

/-- The memory for the heap: aligned, large enough for a hole and not at the end of the address
space. -/
structure HeapRegion where
  base : ℕ
  size : ℕ
  aligned : Hole.align ∣ base
  minSize_le : Hole.minSize ≤ size
  base_ne_zero : base ≠ 0
  stop_lt : base + size < 2 ^ 64

def HeapRegion.stop (region : HeapRegion) : ℕ := region.base + region.size

/-- A block that was allocated and not given back. -/
structure LiveBlock where
  addr : ℕ
  layout : Layout

/-- The addresses that are taken for a block. -/
def LiveBlock.span (block : LiveBlock) : Span := ⟨block.addr, block.layout.rounded⟩

/-- The list of the holes, the live blocks, and whether a call did not return. -/
structure GuestHeap where
  holes : HoleList
  live : List LiveBlock := []
  hung : Bool := false

/-- What a guest does with its heap: it allocates a block, gives the live block at an index back, or
writes a word of a live block. -/
inductive HeapLabel
  | allocate (layout : Layout)
  | deallocate (block : ℕ)
  | write (addr value : ℕ)

namespace GuestHeap

open HoleList (fitsIn alignedIn)
open Span (Spaced)

def start (region : HeapRegion) (mem : ℕ → ℕ) : GuestHeap where
  holes := (HoleList.init region.base region.size ⟨0, mem⟩).1

variable (label : HeapLabel)

def step (heap : GuestHeap) : Option GuestHeap :=
  if heap.hung then some heap
  else
    match label with
    | .allocate layout =>
      match heap.holes.allocateFirstFit layout with
      | none => some { heap with hung := true }
      | some (holes, addr) =>
        if addr = 0 then some { heap with holes := holes }
        else some { heap with holes := holes, live := ⟨addr, layout⟩ :: heap.live }
    | .deallocate block =>
      match heap.live[block]? with
      | none => some heap
      | some b =>
        match heap.holes.deallocate b.addr b.layout with
        | none => some { heap with hung := true }
        | some holes => some { heap with holes := holes, live := heap.live.eraseIdx block }
    | .write addr value =>
      if heap.live.any fun b => b.span.Covers addr then
        some { heap with holes := heap.holes.write addr value }
      else some heap

/-- What the allocator promises about the holes and the live blocks. -/
structure Valid (region : HeapRegion) (holes : List Span) (live : List LiveBlock) : Prop where
  sorted : holes.Pairwise fun s t => s.stop ≤ t.start
  hole_aligned : ∀ s ∈ holes, Hole.align ∣ s.start
  hole_size : ∀ s ∈ holes, Hole.minSize ≤ s.size
  hole_mem : ∀ s ∈ holes, region.base ≤ s.start ∧ s.stop ≤ region.stop
  block_mem : ∀ b ∈ live, region.base ≤ b.span.start ∧ b.span.stop ≤ region.stop
  block_aligned : ∀ b ∈ live, b.layout.align ∣ b.addr
  block_size : ∀ b ∈ live, b.layout.size ≤ b.span.size
  blocks_apart : live.Pairwise fun b c => b.span.Apart c.span
  holes_apart : ∀ s ∈ holes, ∀ b ∈ live, s.Apart b.span

/-- Every call returned, and the free list represents holes that are valid with the live blocks. -/
def Safe (region : HeapRegion) (heap : GuestHeap) : Prop :=
  heap.hung = false ∧ ∃ holes, heap.holes.Holds holes ∧ Valid region holes heap.live

variable (layout : Layout)

/-- The first hole that a block seems to fit into is so close to the end of the address space that
the end of the block wraps around. -/
def Overflows (heap : GuestHeap) : Prop :=
  ∃ holes hole, heap.holes.Holds holes ∧ holes.find? (fitsIn layout) = some hole ∧
    2 ^ 64 ≤ alignedIn layout hole.start + layout.rounded

/-- The condition on the steps: no block wraps around. -/
def Fits (heap : GuestHeap) : Prop :=
  match label with
  | .allocate layout => ¬heap.Overflows layout
  | _ => True

/-- The invariant: besides, live blocks are aligned as holes are, and there is room for a hole
between any two holes. -/
structure Sound (region : HeapRegion) (holes : List Span) (live : List LiveBlock) : Prop
    extends Valid region holes live where
  spaced : Spaced Hole.minSize holes
  block_hole_aligned : ∀ b ∈ live, Hole.align ∣ b.addr

variable {region : HeapRegion} {holes : List Span} {live : List LiveBlock}

theorem minSize_le_span (b : LiveBlock) : Hole.minSize ≤ b.span.size :=
  le_trans (le_max_right _ _) b.layout.rounded_spec.2.1

/-! ### Keeping the invariant -/

namespace Sound

/-- What a hole of the list satisfies. -/
theorem hole_bounds (h : Sound region holes live) :
    ∀ s ∈ holes, Hole.minSize ≤ s.size ∧ s.stop < 2 ^ 64 := by
  intro s hs
  exact ⟨h.hole_size s hs, lt_of_le_of_lt (h.hole_mem s hs).2 region.stop_lt⟩

/-- A hole is taken out. -/
theorem remove {xs ys : List Span} {t : Span} (h : Sound region (xs ++ t :: ys) live) :
    Sound region (xs ++ ys) live := by
  have hsub : (xs ++ ys).Sublist (xs ++ t :: ys) :=
    (List.Sublist.refl xs).append (sublist_cons_self t ys)
  exact {
    sorted := h.sorted.sublist hsub
    hole_aligned := fun s hs => h.hole_aligned s (hsub.subset hs)
    hole_size := fun s hs => h.hole_size s (hsub.subset hs)
    hole_mem := fun s hs => h.hole_mem s (hsub.subset hs)
    block_mem := h.block_mem
    block_aligned := h.block_aligned
    block_size := h.block_size
    blocks_apart := h.blocks_apart
    holes_apart := fun s hs => h.holes_apart s (hsub.subset hs)
    spaced := h.spaced.sublist hsub
    block_hole_aligned := h.block_hole_aligned }

/-- A block is taken. -/
theorem take {b : LiveBlock} (h : Sound region holes live)
    (hmem : region.base ≤ b.span.start ∧ b.span.stop ≤ region.stop)
    (halign : b.layout.align ∣ b.addr) (hhole : Hole.align ∣ b.addr)
    (hlive : ∀ c ∈ live, b.span.Apart c.span) (hholes : ∀ s ∈ holes, s.Apart b.span) :
    Sound region holes (b :: live) where
  sorted := h.sorted
  hole_aligned := h.hole_aligned
  hole_size := h.hole_size
  hole_mem := h.hole_mem
  block_mem := forall_mem_cons.2 ⟨hmem, h.block_mem⟩
  block_aligned := forall_mem_cons.2 ⟨halign, h.block_aligned⟩
  block_size := forall_mem_cons.2
    ⟨le_trans (le_max_left _ _) b.layout.rounded_spec.2.1, h.block_size⟩
  blocks_apart := pairwise_cons.2 ⟨hlive, h.blocks_apart⟩
  holes_apart := fun s hs => forall_mem_cons.2 ⟨hholes s hs, h.holes_apart s hs⟩
  spaced := h.spaced
  block_hole_aligned := forall_mem_cons.2 ⟨hhole, h.block_hole_aligned⟩

/-- A block is given back. -/
theorem release {i : ℕ} (h : Sound region holes live) : Sound region holes (live.eraseIdx i) := by
  have hsub := eraseIdx_sublist live i
  exact {
    sorted := h.sorted
    hole_aligned := h.hole_aligned
    hole_size := h.hole_size
    hole_mem := h.hole_mem
    block_mem := fun b hb => h.block_mem b (hsub.subset hb)
    block_aligned := fun b hb => h.block_aligned b (hsub.subset hb)
    block_size := fun b hb => h.block_size b (hsub.subset hb)
    blocks_apart := h.blocks_apart.sublist hsub
    holes_apart := fun s hs b hb => h.holes_apart s hs b (hsub.subset hb)
    spaced := h.spaced
    block_hole_aligned := fun b hb => h.block_hole_aligned b (hsub.subset hb) }

/-- A hole is inserted, if it is large enough. The gap to a neighbour that it is joined with is too
small for a live block. -/
theorem keep {s : Span} (h : Sound region holes live)
    (hs : Hole.minSize ≤ s.size → Hole.align ∣ s.start ∧ region.base ≤ s.start ∧
      s.stop ≤ region.stop ∧ (∀ t ∈ holes, s.Apart t) ∧ ∀ b ∈ live, s.Apart b.span) :
    Sound region (Span.keep Hole.minSize s holes) live := by
  have happart : Hole.minSize ≤ s.size → ∀ t ∈ holes, s.Apart t := fun hsize =>
    (hs hsize).2.2.2.1
  have hspaced := Span.spaced_keep (by decide) h.spaced happart
  exact {
    sorted := hspaced.imp fun hst => le_trans (Nat.le_add_right _ _) hst
    hole_aligned := Span.forall_keep (fun _ _ _ _ hs _ => hs) (by decide) h.spaced happart
      (fun hsize => (hs hsize).1) h.hole_aligned
    hole_size := Span.forall_keep
      (fun s t hst _ hs _ => by
        have hstop := Span.stop_join hst
        have hstart := s.start_join t
        simp only [Span.stop] at *
        omega)
      (by decide) h.spaced happart (fun hsize => hsize) h.hole_size
    hole_mem := Span.forall_keep
      (fun s t hst _ hs ht => ⟨hs.1, by rw [Span.stop_join hst]; exact ht.2⟩)
      (by decide) h.spaced happart (fun hsize => ⟨(hs hsize).2.1, (hs hsize).2.2.1⟩) h.hole_mem
    block_mem := h.block_mem
    block_aligned := h.block_aligned
    block_size := h.block_size
    blocks_apart := h.blocks_apart
    holes_apart := Span.forall_keep
      (fun s t hst hnear hs ht b hb =>
        Span.apart_join hst hnear (minSize_le_span b) (hs b hb) (ht b hb))
      (by decide) h.spaced happart (fun hsize => (hs hsize).2.2.2.2) h.holes_apart
    spaced := hspaced
    block_hole_aligned := h.block_hole_aligned }

end Sound

/-! ### Allocating -/

/-- What is before a block in the hole that it is taken from. -/
def frontOf (t : Span) : Span :=
  ⟨t.start, alignedIn layout t.start - t.start⟩

/-- What is after a block in the hole that it is taken from. -/
def tailOf (t : Span) : Span :=
  ⟨alignedIn layout t.start + layout.rounded,
    t.stop - (alignedIn layout t.start + layout.rounded)⟩

/-- The block that is taken from a hole. -/
def blockIn (t : Span) : LiveBlock := ⟨alignedIn layout t.start, layout⟩

variable {layout : Layout}

/-- Where a block is placed in a hole that it fits into. -/
theorem fitsIn_spec {t : Span} (hne : t.start ≠ 0) (hstop : t.stop < 2 ^ 64)
    (h : fitsIn layout t = true) :
    t.start ≤ alignedIn layout t.start ∧ alignedIn layout t.start < t.stop ∧
      wrap (alignedIn layout t.start + layout.rounded) ≤ t.stop ∧
      layout.effectiveAlign ∣ alignedIn layout t.start := by
  have hwrap : wrap (t.start + t.size) = t.stop := wrap_of_lt hstop
  rw [fitsIn, HoleList.fits, hwrap] at h
  simp only [Bool.not_eq_true', Bool.or_eq_false_iff, decide_eq_false_iff_not, Nat.not_lt,
    Nat.not_le] at h
  obtain ⟨⟨hle, hlt⟩, hend⟩ := h
  refine ⟨hle, hlt, hend, ?_⟩
  have hk : max layout.logAlign 3 ≤ 64 :=
    max_le (le_trans layout.logAlign_le (by decide)) (by decide)
  have haddr : t.start < 2 ^ 64 := by
    rw [Span.stop] at hstop
    omega
  rw [alignedIn, layout.effectiveAlign_eq] at hle ⊢
  rcases Nat.lt_or_ge (t.start + 2 ^ max layout.logAlign 3 - 1) (2 ^ 64) with hfit | hover
  · exact (alignUp_spec hk hfit).1
  · rw [alignUp_eq_zero hk haddr hover] at hle
    omega

theorem blockIn_spec {t : Span} (hne : t.start ≠ 0) (hstop : t.stop < 2 ^ 64)
    (h : fitsIn layout t = true) (hno : alignedIn layout t.start + layout.rounded < 2 ^ 64) :
    t.start ≤ (blockIn layout t).span.start ∧ (blockIn layout t).span.stop ≤ t.stop ∧
      (frontOf layout t).stop = (blockIn layout t).span.start ∧
      (tailOf layout t).start = (blockIn layout t).span.stop ∧ (tailOf layout t).stop = t.stop := by
  obtain ⟨hle, hlt, hend, -⟩ := fitsIn_spec hne hstop h
  rw [wrap_of_lt hno] at hend
  refine ⟨hle, hend, ?_, rfl, ?_⟩
  · simp only [frontOf, blockIn, LiveBlock.span, Span.stop]
    omega
  · simp only [tailOf, Span.stop] at *
    omega

section Carve

variable {layout : Layout} {xs ys : List Span} {t : Span}

theorem apart_of_part (hspaced : Spaced Hole.minSize (xs ++ t :: ys)) {u : Span}
    (hstart : t.start ≤ u.start) (hstop : u.stop ≤ t.stop) : ∀ v ∈ xs ++ ys, u.Apart v := by
  obtain ⟨-, hspacedt, hcross⟩ := pairwise_append.1 hspaced
  intro v hv
  rcases mem_append.1 hv with hv | hv
  · have := hcross v hv t mem_cons_self
    exact Or.inr (by omega)
  · have := (pairwise_cons.1 hspacedt).1 v hv
    exact Or.inl (by omega)

theorem apart_live_of_part (hapart : ∀ b ∈ live, t.Apart b.span) {u : Span}
    (hstart : t.start ≤ u.start) (hstop : u.stop ≤ t.stop) : ∀ b ∈ live, u.Apart b.span := by
  intro b hb
  have := hapart b hb
  simp only [Span.Apart] at *
  omega

/-- The holes after a block was taken from a hole. -/
def carved (layout : Layout) (t : Span) (rest : List Span) : List Span :=
  Span.keep Hole.minSize (tailOf layout t) (Span.keep Hole.minSize (frontOf layout t) rest)

variable (h : Sound region (xs ++ t :: ys) live) (hne : t.start ≠ 0)
  (hfits : fitsIn layout t = true)
  (hno : alignedIn layout t.start + layout.rounded < 2 ^ 64)
include h hne hfits hno

theorem sound_front :
    Sound region (Span.keep Hole.minSize (frontOf layout t) (xs ++ ys))
      (blockIn layout t :: live) := by
  have ht : t ∈ xs ++ t :: ys := by simp
  have hstop := (h.hole_bounds t ht).2
  obtain ⟨hle, hend, hfront, -, -⟩ := blockIn_spec hne hstop hfits hno
  obtain ⟨-, -, -, hdvd⟩ := fitsIn_spec hne hstop hfits
  have hmem := h.hole_mem t ht
  have hpow := layout.effectiveAlign_eq
  have htaken : Sound region (xs ++ ys) (blockIn layout t :: live) := by
    refine h.remove.take ⟨by omega, by omega⟩ ?_ ?_
      (apart_live_of_part (h.holes_apart t ht) hle hend)
      (fun s hs => (apart_of_part h.spaced hle hend s hs).symm)
    · refine Nat.dvd_trans ?_ hdvd
      rw [hpow]
      exact Nat.pow_dvd_pow 2 (le_max_left _ _)
    · refine Nat.dvd_trans ?_ hdvd
      rw [hpow]
      exact Nat.pow_dvd_pow 2 (le_max_right layout.logAlign 3)
  have hfrontstop : (frontOf layout t).stop ≤ t.stop := by
    simp only [LiveBlock.span, Span.stop] at *
    omega
  refine htaken.keep fun _ => ⟨h.hole_aligned t ht, hmem.1, le_trans hfrontstop hmem.2,
    apart_of_part h.spaced le_rfl hfrontstop, forall_mem_cons.2 ⟨Or.inl hfront.le,
      apart_live_of_part (h.holes_apart t ht) le_rfl hfrontstop⟩⟩

theorem tail_apart (hsize : Hole.minSize ≤ (tailOf layout t).size) :
    ∀ u ∈ Span.keep Hole.minSize (frontOf layout t) (xs ++ ys), (tailOf layout t).Apart u := by
  have ht : t ∈ xs ++ t :: ys := by simp
  have hstop := (h.hole_bounds t ht).2
  obtain ⟨hle, hend, hfront, htail, htailstop⟩ := blockIn_spec hne hstop hfits hno
  have hblock : (blockIn layout t).span.start ≤ (blockIn layout t).span.stop := Nat.le_add_right ..
  have hfrontstop : (frontOf layout t).stop ≤ t.stop := by omega
  have htailstart : t.start ≤ (tailOf layout t).start := by omega
  refine Span.forall_keep (fun s u hsu hnear hs hu =>
      (Span.apart_join hsu hnear hsize hs.symm hu.symm).symm) (by decide) h.remove.spaced
    (fun _ => apart_of_part h.spaced le_rfl hfrontstop) (fun _ => Or.inr ?_)
    (apart_of_part h.spaced htailstart htailstop.le)
  omega

/-- Taking a block from a hole keeps the invariant. -/
theorem sound_carved :
    Sound region (carved layout t (xs ++ ys)) (blockIn layout t :: live) := by
  have ht : t ∈ xs ++ t :: ys := by simp
  have hstop := (h.hole_bounds t ht).2
  obtain ⟨hle, hend, hfront, htail, htailstop⟩ := blockIn_spec hne hstop hfits hno
  have hblock : (blockIn layout t).span.start ≤ (blockIn layout t).span.stop := Nat.le_add_right ..
  have hfront' := sound_front h hne hfits hno
  have hmem := h.hole_mem t ht
  have htailstart : t.start ≤ (tailOf layout t).start := by omega
  refine hfront'.keep fun hsize => ⟨?_, by omega, by omega, tail_apart h hne hfits hno hsize,
    forall_mem_cons.2 ⟨Or.inr htail.ge,
      apart_live_of_part (h.holes_apart t ht) htailstart htailstop.le⟩⟩
  exact Nat.dvd_add (hfront'.block_hole_aligned _ mem_cons_self) layout.rounded_spec.1

/-- What the list represents after a block was taken from a hole. -/
theorem carve_holds {s : HoleList} (hs : s.Holds (xs ++ t :: ys)) :
    ∃ s', s.carve layout t.start = some (s', alignedIn layout t.start) ∧
      s'.Holds (carved layout t (xs ++ ys)) := by
  have ht : t ∈ xs ++ t :: ys := by simp
  have hstop := (h.hole_bounds t ht).2
  obtain ⟨hle, hend, hfront, htail, htailstop⟩ := blockIn_spec hne hstop hfits hno
  have hblock : (blockIn layout t).span.start ≤ (blockIn layout t).span.stop := Nat.le_add_right ..
  have hfrontstop : (frontOf layout t).stop ≤ t.stop := by omega
  have hsep : Span.Separate (xs ++ t :: ys) := h.spaced.imp fun hst => by
    simp only [Span.stop, Hole.minSize] at hst
    omega
  have hremove := HoleList.remove_holds hsep hs
  obtain ⟨s₁, hreclaim₁, hs₁⟩ := @HoleList.reclaim_holds _ (frontOf layout t) _ hremove
    h.remove.spaced (fun _ => apart_of_part h.spaced le_rfl hfrontstop) h.remove.hole_bounds hne
    (lt_of_le_of_lt hfrontstop hstop)
  have hfront' := sound_front h hne hfits hno
  have htailne : (tailOf layout t).start ≠ 0 := by omega
  obtain ⟨s₂, hreclaim₂, hs₂⟩ := HoleList.reclaim_holds hs₁ hfront'.spaced
    (tail_apart h hne hfits hno) hfront'.hole_bounds htailne (by omega)
  refine ⟨s₂, ?_, hs₂⟩
  have hsize := HoleList.size_of_holds hs
  have hwrap : wrap (t.start + t.size) = t.stop := wrap_of_lt hstop
  have hsub₁ : wrapSub (alignedIn layout t.start) t.start = (frontOf layout t).size :=
    wrapSub_of_le hle (by omega)
  have hsub₂ : wrapSub t.stop (alignedIn layout t.start + layout.rounded) =
      (tailOf layout t).size := wrapSub_of_le hend hstop
  change (s.remove t.start).reclaim t.start (frontOf layout t).size = some s₁ at hreclaim₁
  change s₁.reclaim (alignedIn layout t.start + layout.rounded) (tailOf layout t).size = some s₂
    at hreclaim₂
  simp only [HoleList.carve, hsize, hwrap, wrap_of_lt hno, hsub₁, hsub₂, hreclaim₁, hreclaim₂,
    bind_eq_bind, bind_some, Option.pure_def]

end Carve

/-! ### Steps -/

def Invariant (region : HeapRegion) (heap : GuestHeap) : Prop :=
  heap.hung = false ∧ ∃ holes, heap.holes.Holds holes ∧ Sound region holes heap.live

theorem Sound.start_ne_zero (h : Sound region holes live) : ∀ s ∈ holes, s.start ≠ 0 := by
  intro s hs
  have := h.hole_mem s hs
  have := region.base_ne_zero
  omega

theorem allocateFirstFit_eq {s : HoleList} (h : Sound region holes live) (hs : s.Holds holes)
    (layout : Layout) :
    s.allocateFirstFit layout =
      match holes.find? (fitsIn layout) with
      | none => some (s, 0)
      | some hole => s.carve layout hole.start := by
  obtain ⟨last, hs⟩ := hs
  refine HoleList.allocateFrom_eq ?_ hs
  have := @Span.add_length_le _ holes 0 (2 ^ 64 - 1) (Nat.zero_le _) h.spaced fun t ht => by
    obtain ⟨hsize, hstop⟩ := h.hole_bounds t ht
    exact ⟨Nat.zero_le _, Nat.lt_of_lt_of_le (by decide) hsize, by omega⟩
  rw [HoleList.walkLimit]
  omega

theorem carve_addr {s s' : HoleList} {hole addr : ℕ}
    (h : s.carve layout hole = some (s', addr)) : addr = alignedIn layout hole := by
  simp only [HoleList.carve, bind_eq_bind, Option.pure_def, bind_eq_some_iff,
    some.injEq, Prod.mk.injEq] at h
  obtain ⟨_, -, _, -, -, haddr⟩ := h
  exact haddr.symm

variable {heap heap' : GuestHeap}

/-- What an allocation does that does not wrap around. -/
theorem allocate_outcome (hhung : heap.hung = false)
    (hholds : heap.holes.Holds holes) (hsound : Sound region holes heap.live)
    (hno : ¬heap.Overflows layout) (hstep : step (.allocate layout) heap = some heap') :
    heap'.hung = false ∧
      (holes.find? (fitsIn layout) = none ∧ heap'.holes.Holds holes ∧ heap'.live = heap.live ∨
      ∃ xs t ys, holes = xs ++ t :: ys ∧ holes.find? (fitsIn layout) = some t ∧
        fitsIn layout t = true ∧ alignedIn layout t.start + layout.rounded < 2 ^ 64 ∧
        heap'.holes.Holds (carved layout t (xs ++ ys)) ∧
        heap'.live = blockIn layout t :: heap.live) := by
  simp only [step, hhung, allocateFirstFit_eq hsound hholds] at hstep
  cases hfind : holes.find? (fitsIn layout) with
  | none =>
    simp only [hfind] at hstep
    cases hstep
    exact ⟨rfl, Or.inl ⟨rfl, hholds, rfl⟩⟩
  | some t =>
    obtain ⟨hfits, xs, ys, rfl, -⟩ := List.find?_eq_some_iff_append.1 hfind
    have ht : t ∈ xs ++ t :: ys := by simp
    have hne := hsound.start_ne_zero t ht
    have hlt : alignedIn layout t.start + layout.rounded < 2 ^ 64 := by
      by_contra hover
      exact hno ⟨_, t, hholds, hfind, Nat.not_lt.1 hover⟩
    obtain ⟨s', hcarve, hholds'⟩ := carve_holds hsound hne hfits hlt hholds
    have haddr : alignedIn layout t.start ≠ 0 := by
      have := (fitsIn_spec hne (hsound.hole_bounds t ht).2 hfits).1
      omega
    simp only [hfind, hcarve, if_neg haddr] at hstep
    cases hstep
    exact ⟨rfl, Or.inr ⟨xs, t, ys, rfl, rfl, hfits, hlt, hholds', rfl⟩⟩

theorem allocate_invariant
    (h : heap.Invariant region) (hno : ¬heap.Overflows layout)
    (hstep : step (.allocate layout) heap = some heap') : heap'.Invariant region := by
  obtain ⟨hhung, holes, hholds, hsound⟩ := h
  obtain ⟨hhung', ⟨-, hholds', hlive⟩ | ⟨xs, t, ys, rfl, -, hfits, hlt, hholds', hlive⟩⟩ :=
    allocate_outcome hhung hholds hsound hno hstep
  · exact ⟨hhung', holes, hholds', by rw [hlive]; exact hsound⟩
  · refine ⟨hhung', _, hholds', ?_⟩
    rw [hlive]
    exact sound_carved hsound (hsound.start_ne_zero t (by simp)) hfits hlt

/-- An allocation that wraps around breaks the promise: the block ends after the heap. -/
theorem not_overflows_of_safe
    (h : heap.Invariant region) (hstep : step (.allocate layout) heap = some heap')
    (hsafe : heap'.Safe region) : ¬heap.Overflows layout := by
  rintro ⟨holes', t, ⟨last', hseg'⟩, hfind, hover⟩
  obtain ⟨hhung, holes, hholds, hsound⟩ := h
  obtain ⟨last, hseg⟩ := id hholds
  obtain rfl := Span.segment_unique hseg hseg'
  simp only [step, hhung, allocateFirstFit_eq hsound hholds, hfind] at hstep
  obtain ⟨hhung', _, -, hvalid⟩ := hsafe
  cases hcarve : heap.holes.carve layout t.start with
  | none =>
    simp only [hcarve] at hstep
    cases hstep
    cases hhung'
  | some result =>
    obtain ⟨s', addr⟩ := result
    have ht := List.mem_of_find?_eq_some hfind
    have hne := hsound.start_ne_zero t ht
    have hfits := List.find?_some hfind
    obtain rfl := carve_addr hcarve
    have haddr : alignedIn layout t.start ≠ 0 := by
      have := (fitsIn_spec hne (hsound.hole_bounds t ht).2 hfits).1
      omega
    simp only [hcarve, if_neg haddr] at hstep
    cases hstep
    have hmem := (hvalid.block_mem (blockIn layout t) mem_cons_self).2
    have hstop := region.stop_lt
    simp only [blockIn, LiveBlock.span, Span.stop, HeapRegion.stop] at *
    omega

theorem apart_of_eraseIdx {i : ℕ} {b : LiveBlock} (hget : live[i]? = some b)
    (h : live.Pairwise fun b c => b.span.Apart c.span) :
    ∀ c ∈ live.eraseIdx i, b.span.Apart c.span := by
  obtain ⟨hi, rfl⟩ := List.getElem?_eq_some_iff.1 hget
  rw [← take_append_drop i live, drop_eq_getElem_cons hi] at h
  obtain ⟨-, hafter, hcross⟩ := pairwise_append.1 h
  rw [eraseIdx_eq_take_drop_succ]
  intro c hc
  rcases mem_append.1 hc with hc | hc
  · exact (hcross c hc _ mem_cons_self).symm
  · exact (pairwise_cons.1 hafter).1 c hc

/-- What giving a block back does. -/
theorem deallocate_outcome {block : ℕ} (hhung : heap.hung = false)
    (hholds : heap.holes.Holds holes) (hsound : Sound region holes heap.live)
    (hstep : step (.deallocate block) heap = some heap') :
    heap'.hung = false ∧
      (heap'.holes.Holds holes ∧ heap'.live = heap.live ∨
      ∃ b, heap.live[block]? = some b ∧
        heap'.holes.Holds (Span.insert Hole.minSize b.span holes) ∧
        heap'.live = heap.live.eraseIdx block) := by
  simp only [step, hhung] at hstep
  cases hget : heap.live[block]? with
  | none =>
    simp only [hget] at hstep
    cases hstep
    exact ⟨hhung, Or.inl ⟨hholds, rfl⟩⟩
  | some b =>
    have hmem := mem_of_getElem? hget
    obtain ⟨hstart, hstop⟩ := hsound.block_mem b hmem
    have hbase := region.base_ne_zero
    have hlt : b.span.stop < 2 ^ 64 := lt_of_le_of_lt hstop region.stop_lt
    obtain ⟨s', hinsert, hholds'⟩ := HoleList.insert_writeHole_holds hholds hsound.spaced
      (fun t ht => ⟨(hsound.holes_apart t ht b hmem).symm, hsound.hole_bounds t ht⟩) (by omega)
      (minSize_le_span b) hlt
    have hdeallocate : heap.holes.deallocate b.addr b.layout = some s' := hinsert
    simp only [hget, hdeallocate] at hstep
    cases hstep
    exact ⟨rfl, Or.inr ⟨b, rfl, hholds', rfl⟩⟩

/-- Giving a block back keeps the invariant. -/
theorem deallocate_invariant {block : ℕ} (h : heap.Invariant region)
    (hstep : step (.deallocate block) heap = some heap') : heap'.Invariant region := by
  obtain ⟨hhung, holes, hholds, hsound⟩ := h
  obtain ⟨hhung', ⟨hholds', hlive⟩ | ⟨b, hget, hholds', hlive⟩⟩ :=
    deallocate_outcome hhung hholds hsound hstep
  · exact ⟨hhung', holes, hholds', by rw [hlive]; exact hsound⟩
  · have hmem := mem_of_getElem? hget
    obtain ⟨hstart, hstop⟩ := hsound.block_mem b hmem
    refine ⟨hhung', _, hholds', ?_⟩
    have hkeep := hsound.release (i := block) |>.keep (s := b.span) fun _ =>
      ⟨hsound.block_hole_aligned b hmem, hstart, hstop,
        fun t ht => (hsound.holes_apart t ht b hmem).symm,
        apart_of_eraseIdx hget hsound.blocks_apart⟩
    rw [hlive]
    rwa [Span.keep, if_pos (minSize_le_span b)] at hkeep

/-- A write into a live block leaves the list alone. -/
theorem write_outcome {addr value : ℕ} (hhung : heap.hung = false)
    (hholds : heap.holes.Holds holes) (hsound : Sound region holes heap.live)
    (hstep : step (.write addr value) heap = some heap') :
    heap'.hung = false ∧ heap'.holes.Holds holes ∧ heap'.live = heap.live := by
  obtain ⟨last, hseg⟩ := hholds
  rw [step, hhung, if_neg Bool.false_ne_true] at hstep
  split_ifs at hstep with hcovered
  · cases hstep
    refine ⟨rfl, ⟨last, Span.segment_update (fun t ht => ?_) hseg⟩, rfl⟩
    obtain ⟨b, hb, hcovers⟩ := List.any_eq_true.1 hcovered
    have hapart := hsound.holes_apart t ht b hb
    have hsize := hsound.hole_size t ht
    have hcovers' := of_decide_eq_true hcovers
    simp only [Span.Covers, Span.Apart, Span.stop, Hole.minSize] at *
    omega
  · cases hstep
    exact ⟨hhung, ⟨last, hseg⟩, rfl⟩

theorem write_invariant {addr value : ℕ} (h : heap.Invariant region)
    (hstep : step (.write addr value) heap = some heap') : heap'.Invariant region := by
  obtain ⟨hhung, holes, hholds, hsound⟩ := h
  obtain ⟨hhung', hholds', hlive⟩ := write_outcome hhung hholds hsound hstep
  exact ⟨hhung', holes, hholds', by rw [hlive]; exact hsound⟩

/-! ### Whole runs -/

theorem Sound.valid (h : Sound region holes live) : Valid region holes live := h.toValid

theorem safe_of_invariant {heap : GuestHeap} (h : heap.Invariant region) : heap.Safe region := by
  obtain ⟨hhung, holes, hholds, hsound⟩ := h
  exact ⟨hhung, holes, hholds, hsound.valid⟩

theorem isSome_step (heap : GuestHeap) : (step label heap).isSome = true := by
  cases hhung : heap.hung with
  | true => simp [step, hhung]
  | false =>
    cases label with
    | allocate layout =>
      rw [step, hhung, if_neg Bool.false_ne_true]
      split
      · rfl
      · split_ifs <;> rfl
    | deallocate block =>
      rw [step, hhung, if_neg Bool.false_ne_true]
      split
      · rfl
      · split <;> rfl
    | write addr value =>
      rw [step, hhung, if_neg Bool.false_ne_true]
      split_ifs <;> rfl

theorem start_holds (region : HeapRegion) (mem : ℕ → ℕ) :
    (start region mem).holes.Holds [⟨region.base, region.size⟩] := by
  rw [start, HoleList.init, if_neg (Nat.not_lt.2 region.minSize_le)]
  refine ⟨region.base, region.base_ne_zero, rfl, HoleList.writeHole_size _ _ _, ?_, rfl, ?_⟩
  · exact Function.update_self ..
  · simp [HoleList.writeHole, HoleList.write]

theorem start_invariant (region : HeapRegion) (mem : ℕ → ℕ) :
    (start region mem).Invariant region := by
  refine ⟨rfl, _, start_holds region mem, ?_⟩
  exact {
    sorted := pairwise_singleton _ _
    hole_aligned := by simpa using region.aligned
    hole_size := by simpa using region.minSize_le
    hole_mem := by simp [Span.stop, HeapRegion.stop]
    block_mem := by simp [start]
    block_aligned := by simp [start]
    block_size := by simp [start]
    blocks_apart := List.Pairwise.nil
    holes_apart := by simp [start]
    spaced := pairwise_singleton _ _
    block_hole_aligned := by simp [start] }

theorem step_invariant {label : HeapLabel} (h : heap.Invariant region)
    (hfits : heap.Fits label) (hstep : step label heap = some heap') : heap'.Invariant region := by
  cases label with
  | allocate layout => exact allocate_invariant h hfits hstep
  | deallocate block => exact deallocate_invariant h hstep
  | write addr value => exact write_invariant h hstep

/-- For every heap and every sequence of allocations, deallocations and writes, the heap is safe in
every state that is reached, if and only if no allocation wraps around. -/
theorem safe_of_run_iff (region : HeapRegion) (mem : ℕ → ℕ) (labels : List HeapLabel) :
    (∀ before heap, before <+: labels →
      StepSystem.run step before (start region mem) = some heap → heap.Safe region) ↔
    StepSystem.Along step (fun label heap => heap.Fits label) labels (start region mem) := by
  refine StepSystem.forall_prefix_iff_along_of (I := Invariant region)
    (fun label heap _ => isSome_step label heap) (fun _ h => safe_of_invariant h)
    (fun label heap heap' h hstep hsafe => ?_)
    (fun label heap heap' h hstep hfits => step_invariant h hfits hstep)
    (start_invariant region mem)
  cases label with
  | allocate layout => exact not_overflows_of_safe h hstep hsafe
  | deallocate block | write addr value => trivial

/-- A block that starts in the lower half of the address space does not wrap around: a size that
large comes with a small alignment. -/
theorem alignedIn_add_rounded_lt (layout : Layout) {start : ℕ} (hstart : start < 2 ^ 63)
    (haligned : Hole.align ∣ start) : alignedIn layout start + layout.rounded < 2 ^ 64 := by
  have hk : max layout.logAlign 3 ≤ 63 := max_le layout.logAlign_le (by decide)
  have hpow : 2 ^ max layout.logAlign 3 ≤ 2 ^ 63 := Nat.pow_le_pow_right (by decide) hk
  obtain ⟨⟨q, hq⟩, -, hlt⟩ := @alignUp_spec start (max layout.logAlign 3) (by omega) (by omega)
  obtain ⟨r, hr⟩ : 2 ^ max layout.logAlign 3 ∣ 2 ^ 63 := Nat.pow_dvd_pow 2 hk
  obtain ⟨-, -, hrounded, hround⟩ := layout.rounded_spec
  rw [alignedIn, layout.effectiveAlign_eq]
  have hle : alignUp start (2 ^ max layout.logAlign 3) ≤ 2 ^ 63 := by
    by_contra hgt
    rw [hq] at hgt hlt
    have hrq : r < q := by
      by_contra hqr
      have := Nat.mul_le_mul_left (2 ^ max layout.logAlign 3) (Nat.not_lt.1 hqr)
      omega
    have := Nat.mul_le_mul_left (2 ^ max layout.logAlign 3) (Nat.succ_le_of_lt hrq)
    rw [Nat.mul_succ, ← hr] at this
    omega
  rcases Nat.lt_or_ge layout.rounded (2 ^ 63) with hsmall | hlarge
  · omega
  · have hvalid := layout.valid
    have hlog : layout.logAlign < 3 := by
      refine (Nat.pow_lt_pow_iff_right (a := 2) (by decide)).1 ?_
      simp only [Hole.minSize, Hole.align] at hrounded
      omega
    rw [max_eq_right hlog.le] at hlt hq ⊢
    simp only [Hole.align] at haligned
    omega

theorem not_overflows_of_low {heap : GuestHeap} (hlow : region.stop < 2 ^ 63 + Hole.minSize)
    (h : heap.Invariant region) (layout : Layout) : ¬heap.Overflows layout := by
  rintro ⟨holes', t, ⟨last', hseg'⟩, hfind, hover⟩
  obtain ⟨-, holes, ⟨last, hseg⟩, hsound⟩ := h
  obtain rfl := Span.segment_unique hseg hseg'
  have ht := List.mem_of_find?_eq_some hfind
  have hmem := (hsound.hole_mem t ht).2
  have hsize := hsound.hole_size t ht
  have hstart : t.start < 2 ^ 63 := by
    simp only [Span.stop] at hmem
    omega
  have := alignedIn_add_rounded_lt layout hstart (hsound.hole_aligned t ht)
  omega

theorem along_fits_of_low (hlow : region.stop < 2 ^ 63 + Hole.minSize) (mem : ℕ → ℕ)
    (labels : List HeapLabel) :
    StepSystem.Along step (fun label heap => heap.Fits label) labels (start region mem) := by
  have hfits : ∀ (label : HeapLabel) (heap : GuestHeap), heap.Invariant region →
      heap.Fits label := by
    intro label heap h
    cases label with
    | allocate layout => exact not_overflows_of_low hlow h layout
    | deallocate block | write addr value => trivial
  exact StepSystem.along_of_invariant hfits
    (fun label heap heap' h hstep => step_invariant h (hfits label heap h) hstep)
    (start_invariant region mem)

/-- A heap in the upper half of the address space. -/
def highRegion : HeapRegion where
  base := 2 ^ 63
  size := 4096
  aligned := by decide
  minSize_le := by decide
  base_ne_zero := by decide
  stop_lt := by decide

/-- The largest block. -/
def hugeLayout : Layout where
  size := 2 ^ 63 - 1
  logAlign := 0
  valid := by decide

/-- The largest block is taken from a small heap. -/
theorem not_safe_highHeap :
    ¬∀ before heap, before <+: [.allocate hugeLayout] →
      StepSystem.run step before (start highRegion fun _ => 0) = some heap →
        heap.Safe highRegion := by
  intro hall
  have hblock : (StepSystem.run step [.allocate hugeLayout] (start highRegion fun _ => 0)).any
      (fun heap => heap.live.any fun b => highRegion.stop < b.span.stop) = true := by
    decide
  obtain ⟨heap, hrun, hblock⟩ := (Option.any_eq_true ..).1 hblock
  obtain ⟨b, hb, hstop⟩ := List.any_eq_true.1 hblock
  obtain ⟨-, _, -, hvalid⟩ := hall _ heap (prefix_refl _) hrun
  exact absurd (hvalid.block_mem b hb).2 (Nat.not_le.2 (of_decide_eq_true hstop))

end GuestHeap

end Choreo
