import Choreo.Library.LinkedSpans
import Mathlib.Data.Nat.Bitwise
import Mathlib.Tactic.Ring

/-!
# The allocator of a guest

The heap of a guest program is managed by a first-fit allocator. Its free holes form a doubly linked
list that is sorted by address and stored in the holes themselves: a hole starts with the address of
the next hole, its size and the address of the hole before it. The address `0` stands for none, as
in an optional pointer that cannot be null. Addresses and sizes are 64 bits wide and wrap around.
-/

namespace Choreo

open List

/-- A number of 64 bits. -/
def wrap (n : ℕ) : ℕ := n % 2 ^ 64

/-- The difference of two numbers of 64 bits. -/
def wrapSub (a b : ℕ) : ℕ := wrap (a + (2 ^ 64 - b))

theorem wrap_of_lt {n : ℕ} (h : n < 2 ^ 64) : wrap n = n := Nat.mod_eq_of_lt h

theorem wrapSub_of_le {a b : ℕ} (hle : b ≤ a) (h : a < 2 ^ 64) : wrapSub a b = a - b := by
  rw [wrapSub, wrap]
  omega

/-- The next multiple of `align`, which is a power of two. -/
def alignUp (addr align : ℕ) : ℕ := wrap (addr + align - 1) &&& (2 ^ 64 - 1 - (align - 1))

/-- The size and the alignment of a block. The alignment is a power of two, and the size rounded up
to it is at most the largest signed number. -/
structure Layout where
  size : ℕ
  logAlign : ℕ
  valid : size + 2 ^ logAlign ≤ 2 ^ 63

/-- The alignment of a block. -/
def Layout.align (layout : Layout) : ℕ := 2 ^ layout.logAlign

namespace Hole

/-- The size of a hole's header, which is also the least size of a hole. -/
def minSize : ℕ := 24

/-- The alignment of a hole. -/
def align : ℕ := 8

/-- A size, rounded up so that a hole can follow. -/
def roundToAlign (size : ℕ) : ℕ := alignUp size align

end Hole

/-- The size that is taken for a block. -/
def Layout.rounded (layout : Layout) : ℕ := Hole.roundToAlign (max layout.size Hole.minSize)

/-- The alignment that is used for a block. -/
def Layout.effectiveAlign (layout : Layout) : ℕ := max layout.align Hole.align

/-! ### Alignment -/

/-- The mask that rounds down to a multiple of a power of two. -/
theorem and_mask {x k : ℕ} (hk : k ≤ 64) (hx : x < 2 ^ 64) :
    x &&& (2 ^ 64 - 1 - (2 ^ k - 1)) = x / 2 ^ k * 2 ^ k := by
  have hle : 2 ^ k ≤ 2 ^ 64 := Nat.pow_le_pow_right (by decide) hk
  have hpos : 0 < 2 ^ k := Nat.two_pow_pos k
  have hmask : 2 ^ 64 - 1 - (2 ^ k - 1) = 2 ^ 64 - (2 ^ k - 1 + 1) := by omega
  rw [hmask]
  apply Nat.eq_of_testBit_eq
  intro i
  rw [Nat.testBit_and, Nat.testBit_two_pow_sub_succ (by omega), Nat.testBit_two_pow_sub_one,
    Nat.testBit_mul_two_pow, Nat.testBit_div_two_pow]
  by_cases hi : k ≤ i
  · rw [Nat.sub_add_cancel hi]
    by_cases hlt : i < 64
    · simp [hi, hlt]
    · have hbit : x.testBit i = false := Nat.testBit_lt_two_pow
        (lt_of_lt_of_le hx (Nat.pow_le_pow_right (by decide) (Nat.not_lt.1 hlt)))
      simp [hbit]
  · simp [hi, Nat.not_le.1 hi]

theorem alignUp_spec {addr k : ℕ} (hk : k ≤ 64) (h : addr + 2 ^ k - 1 < 2 ^ 64) :
    2 ^ k ∣ alignUp addr (2 ^ k) ∧ addr ≤ alignUp addr (2 ^ k) ∧
      alignUp addr (2 ^ k) < addr + 2 ^ k := by
  have hpos : 0 < 2 ^ k := Nat.two_pow_pos k
  rw [alignUp, wrap_of_lt h, and_mask hk h]
  have hdiv := Nat.div_add_mod' (addr + 2 ^ k - 1) (2 ^ k)
  have hmod := Nat.mod_lt (addr + 2 ^ k - 1) hpos
  refine ⟨Nat.dvd_mul_left _ _, ?_, ?_⟩
  · omega
  · omega

/-- Rounding up gives `0` when it wraps around. -/
theorem alignUp_eq_zero {addr k : ℕ} (hk : k ≤ 64) (haddr : addr < 2 ^ 64)
    (h : 2 ^ 64 ≤ addr + 2 ^ k - 1) : alignUp addr (2 ^ k) = 0 := by
  have hle : 2 ^ k ≤ 2 ^ 64 := Nat.pow_le_pow_right (by decide) hk
  have hwrap : wrap (addr + 2 ^ k - 1) < 2 ^ k := by
    rw [wrap]
    omega
  rw [alignUp, and_mask hk (lt_of_lt_of_le hwrap hle), Nat.div_eq_of_lt hwrap, Nat.zero_mul]

namespace Layout

variable (layout : Layout)

theorem align_le : layout.align ≤ 2 ^ 63 := by
  have := layout.valid
  rw [align]
  omega

theorem logAlign_le : layout.logAlign ≤ 63 :=
  (Nat.pow_le_pow_iff_right (by decide)).1 layout.align_le

/-- The size that is taken for a block. -/
theorem rounded_spec :
    Hole.align ∣ layout.rounded ∧ max layout.size Hole.minSize ≤ layout.rounded ∧
      layout.rounded < max layout.size Hole.minSize + Hole.align ∧ layout.rounded ≤ 2 ^ 63 := by
  have hpow : Hole.align = 2 ^ 3 := rfl
  have hvalid := layout.valid
  have hpos : 0 < 2 ^ layout.logAlign := Nat.two_pow_pos _
  have hmax : max layout.size Hole.minSize < 2 ^ 63 := by
    rw [Hole.minSize]
    omega
  obtain ⟨hdvd, hle, hlt⟩ := @alignUp_spec (max layout.size Hole.minSize) 3 (by decide) (by omega)
  rw [rounded, Hole.roundToAlign, hpow]
  refine ⟨hdvd, hle, hlt, ?_⟩
  omega

theorem effectiveAlign_eq : layout.effectiveAlign = 2 ^ max layout.logAlign 3 := by
  rw [effectiveAlign, align, show Hole.align = 2 ^ 3 from rfl]
  rcases Nat.le_total layout.logAlign 3 with h | h
  · rw [max_eq_right h, max_eq_right (Nat.pow_le_pow_right (by decide) h)]
  · rw [max_eq_left h, max_eq_left (Nat.pow_le_pow_right (by decide) h)]

end Layout

/-- The list of the holes: the address of the first one, and the memory they are stored in. -/
structure HoleList where
  front : ℕ
  mem : ℕ → ℕ

namespace HoleList

/-- The address of the next hole. -/
def next (hole : ℕ) (s : HoleList) : ℕ := s.mem hole

def size (hole : ℕ) (s : HoleList) : ℕ := s.mem (hole + 8)

/-- The address of the hole before. -/
def prev (hole : ℕ) (s : HoleList) : ℕ := s.mem (hole + 16)

def write (addr value : ℕ) (s : HoleList) : HoleList :=
  { s with mem := Function.update s.mem addr value }

def writeHole (hole size : ℕ) (s : HoleList) : HoleList :=
  ((s.write hole 0).write (hole + 8) size).write (hole + 16) 0

/-- Makes a hole the one that follows `prev`, or the first one if there is no hole before. -/
def linkNext (prev hole : ℕ) (s : HoleList) : HoleList :=
  if prev = 0 then { s with front := hole } else s.write prev hole

def linkPrev (next hole : ℕ) (s : HoleList) : HoleList :=
  if next = 0 then s else s.write (next + 16) hole

/-- Takes a hole out of the list. -/
def remove (hole : ℕ) (s : HoleList) : HoleList :=
  (s.linkNext (s.prev hole) (s.next hole)).linkPrev (s.next hole) (s.prev hole)

/-- The number of holes after which a walk over the list does not end, as there are no more
addresses. -/
def walkLimit : ℕ := 2 ^ 64

/-- The walk to the place of a hole: the first hole with a larger address, and the one before it. -/
def findPlace (hole : ℕ) (s : HoleList) : ℕ → ℕ → ℕ → Option (ℕ × ℕ)
  | 0, _, _ => none
  | limit + 1, current, prev =>
    if current = 0 then some (prev, current)
    else if hole < current then some (prev, current)
    else s.findPlace hole limit (s.next current) current

/-- Links a hole between two neighbours. -/
def link (hole prev current : ℕ) (s : HoleList) : HoleList :=
  (((s.write (hole + 16) prev).write hole current).linkNext prev hole).linkPrev current hole

/-- Gives a hole a new size and takes the hole after it out of the list. -/
def absorb (hole next newSize : ℕ) (s : HoleList) : HoleList :=
  let s := s.write (hole + 8) newSize
  let s := s.write hole (s.next next)
  s.linkPrev (s.next next) hole

/-- Whether two holes are adjacent, or so close that no hole fits between them. -/
def isNear (hole next : ℕ) (s : HoleList) : Bool :=
  next < wrap (wrap (hole + s.size hole) + Hole.minSize)

/-- The size of two holes with what is between them. -/
def joinedSize (hole next : ℕ) (s : HoleList) : ℕ :=
  wrapSub (max (wrap (hole + s.size hole)) (wrap (next + s.size next))) hole

def mergePrev (prev hole : ℕ) (s : HoleList) : HoleList × ℕ :=
  if prev ≠ 0 && s.isNear prev hole then
    (s.absorb prev hole (s.joinedSize prev hole), prev)
  else (s, hole)

def mergeNext (hole : ℕ) (s : HoleList) : HoleList :=
  if s.next hole ≠ 0 && s.isNear hole (s.next hole) then
    s.absorb hole (s.next hole) (s.joinedSize hole (s.next hole))
  else s

def insert (hole : ℕ) (s : HoleList) : Option HoleList := do
  let (prev, current) ← s.findPlace hole walkLimit s.front 0
  let s := s.link hole prev current
  let (s, hole) := s.mergePrev prev hole
  return s.mergeNext hole

/-- Inserts a hole if it is large enough for one. -/
def reclaim (hole size : ℕ) (s : HoleList) : Option HoleList :=
  if Hole.minSize ≤ size then (s.writeHole hole size).insert hole else some s

variable (layout : Layout)

/-- Where a block would start in a hole. -/
def alignedIn (hole : ℕ) : ℕ := alignUp hole layout.effectiveAlign

/-- Whether a block fits into a hole. -/
def fits (layout : Layout) (hole size : ℕ) : Bool :=
  !(alignedIn layout hole < hole ||
    wrap (hole + size) ≤ alignedIn layout hole ||
    wrap (hole + size) < wrap (alignedIn layout hole + layout.rounded))

/-- Takes a block out of a hole. -/
def carve (hole : ℕ) (s : HoleList) : Option (HoleList × ℕ) := do
  let holeEnd := wrap (hole + s.size hole)
  let aligned := alignedIn layout hole
  let allocEnd := wrap (aligned + layout.rounded)
  let s := s.remove hole
  let s ← s.reclaim hole (wrapSub aligned hole)
  let s ← s.reclaim allocEnd (wrapSub holeEnd allocEnd)
  return (s, aligned)

/-- The walk to the first hole that a block fits into. -/
def allocateFrom (layout : Layout) (s : HoleList) : ℕ → ℕ → Option (HoleList × ℕ)
  | 0, _ => none
  | limit + 1, current =>
    if current = 0 then some (s, 0)
    else if fits layout current (s.size current) then s.carve layout current
    else s.allocateFrom layout limit (s.next current)

/-- Allocates a block in the first hole that it fits into. The address `0` means that there is no
such hole. Nothing is returned when the walk does not end. -/
def allocateFirstFit (s : HoleList) : Option (HoleList × ℕ) :=
  s.allocateFrom layout walkLimit s.front

/-- Gives a block back. -/
def deallocate (ptr : ℕ) (layout : Layout) (s : HoleList) : Option HoleList :=
  (s.writeHole ptr layout.rounded).insert ptr

/-- One hole for the whole heap; the list stays empty if the heap is too small for a hole. -/
def init (addr size : ℕ) (s : HoleList) : HoleList × Bool :=
  if size < Hole.minSize then ({ s with front := 0 }, false)
  else ({ s.writeHole addr size with front := addr }, true)

/-! ### Linking -/

open Span (Segment Separate Spaced)

/-- The list represents the given holes. -/
def Holds (s : HoleList) (holes : List Span) : Prop :=
  ∃ last, Segment s.mem 0 s.front holes last 0

variable {s : HoleList} {xs ys : List Span}

theorem segment_ne_zero {mem : ℕ → ℕ} {prev front last next : ℕ}
    (h : Segment mem prev front xs last next) (hne : xs ≠ []) : last ≠ 0 := by
  obtain ⟨hnil, -⟩ | ⟨t, ht, rfl⟩ := Span.segment_last h
  · exact absurd hnil hne
  · exact Span.segment_start_ne_zero h t ht

theorem write_mem_of_ne {a v x : ℕ} (h : x ≠ a) : (s.write a v).mem x = s.mem x :=
  Function.update_of_ne h _ _

/-- Another hole after the first part of the list. -/
theorem linkNext_segment {p c v : ℕ} (hsep : Separate xs) (h : Segment s.mem 0 s.front xs p c) :
    Segment (s.linkNext p v).mem 0 (s.linkNext p v).front xs p v := by
  rw [linkNext]
  by_cases hnil : xs = []
  · subst hnil
    obtain ⟨rfl, -⟩ := h
    exact ⟨rfl, rfl⟩
  · rw [if_neg (segment_ne_zero h hnil)]
    exact Span.segment_setLast hnil hsep h

/-- Another hole before the last part of the list. -/
theorem linkPrev_segment {p c v last : ℕ} (hsep : Separate ys) (h : Segment s.mem p c ys last 0) :
    ∃ last', Segment (s.linkPrev c v).mem v c ys last' 0 := by
  rw [linkPrev]
  cases ys with
  | nil =>
    obtain ⟨-, rfl⟩ := h
    exact ⟨v, rfl, rfl⟩
  | cons t ys =>
    obtain rfl := h.2.1
    rw [if_neg h.1]
    exact ⟨last, Span.segment_setHead hsep h⟩

theorem linkNext_mem_of_ne {p v x : ℕ} (h : x ≠ p ∨ p = 0) :
    (s.linkNext p v).mem x = s.mem x := by
  rw [linkNext]
  split_ifs with hzero
  · rfl
  · exact Function.update_of_ne (h.resolve_right hzero) _ _

@[simp]
theorem linkPrev_front (c v : ℕ) (s : HoleList) : (s.linkPrev c v).front = s.front := by
  rw [linkPrev]
  split_ifs <;> rfl

theorem linkPrev_segment_left {c v p n : ℕ} {prev front : ℕ}
    (hc : ∀ t ∈ xs, t.start + 24 ≤ c ∨ c = 0) (h : Segment s.mem prev front xs p n) :
    Segment (s.linkPrev c v).mem prev front xs p n := by
  rw [linkPrev]
  split_ifs with hzero
  · exact h
  · refine Span.segment_update (fun t ht => ?_) h
    have := hc t ht
    omega

theorem linkNext_segment_right {p v c n last : ℕ}
    (hp : ∀ t ∈ ys, p + 24 ≤ t.start ∨ p = 0) (h : Segment s.mem c n ys last 0) :
    Segment (s.linkNext p v).mem c n ys last 0 := by
  rw [linkNext]
  split_ifs with hzero
  · exact h
  · refine Span.segment_update (fun t ht => ?_) h
    have := hp t ht
    omega

theorem separate_append : Separate (xs ++ ys) ↔
    Separate xs ∧ Separate ys ∧ ∀ t ∈ xs, ∀ u ∈ ys, t.start + 24 ≤ u.start :=
  pairwise_append

theorem last_le {p c : ℕ} (hsep : Separate (xs ++ ys)) (h : Segment s.mem 0 s.front xs p c) :
    ∀ u ∈ ys, p + 24 ≤ u.start ∨ p = 0 := by
  intro u hu
  obtain ⟨-, hp⟩ | ⟨t, ht, rfl⟩ := Span.segment_last h
  · exact Or.inr hp
  · exact Or.inl ((separate_append.1 hsep).2.2 t ht u hu)

theorem le_first {p c last : ℕ} (hsep : Separate (xs ++ ys)) (h : Segment s.mem p c ys last 0) :
    ∀ t ∈ xs, t.start + 24 ≤ c ∨ c = 0 := by
  intro t ht
  cases ys with
  | nil => exact Or.inr h.2.symm
  | cons u ys =>
    rw [h.2.1]
    exact Or.inl ((separate_append.1 hsep).2.2 t ht u mem_cons_self)

variable {hole : Span}

/-- Taking a hole out of the list. -/
theorem remove_holds (hsep : Separate (xs ++ hole :: ys))
    (h : s.Holds (xs ++ hole :: ys)) : (s.remove hole.start).Holds (xs ++ ys) := by
  obtain ⟨last, h⟩ := h
  obtain ⟨p, c, hxs, hne, rfl, hsize, hprev, hys⟩ := Span.segment_append.1 h
  obtain ⟨hsepx, hsepy, hcross⟩ := separate_append.1 hsep
  have hsep' : Separate (xs ++ ys) := separate_append.2
    ⟨hsepx, (pairwise_cons.1 hsepy).2, fun t ht u hu =>
      hcross t ht u (mem_cons_of_mem _ hu)⟩
  rw [remove, prev, next, hprev]
  have hright := linkNext_segment_right (v := s.mem hole.start) (last_le hsep' hxs) hys
  obtain ⟨last', hright'⟩ := linkPrev_segment (v := p) (pairwise_cons.1 hsepy).2 hright
  refine ⟨last', Span.segment_append.2 ⟨p, s.mem hole.start, ?_, hright'⟩⟩
  rw [linkPrev_front]
  exact linkPrev_segment_left (le_first hsep' hys) (linkNext_segment hsepx hxs)

/-- Linking a hole between the two parts of a list. -/
theorem link_holds {p c last : ℕ} (hsep : Separate (xs ++ hole :: ys))
    (hne : hole.start ≠ 0) (hsize : s.mem (hole.start + 8) = hole.size)
    (hxs : Segment s.mem 0 s.front xs p c) (hys : Segment s.mem p c ys last 0) :
    (s.link hole.start p c).Holds (xs ++ hole :: ys) := by
  obtain ⟨hsepx, hsepy, hcross⟩ := separate_append.1 hsep
  obtain ⟨hafter, hsepy'⟩ := pairwise_cons.1 hsepy
  have hbefore : ∀ t ∈ xs, t.start + 24 ≤ hole.start := fun t ht =>
    hcross t ht hole mem_cons_self
  have hsep' : Separate (xs ++ ys) := separate_append.2
    ⟨hsepx, hsepy', fun t ht u hu => hcross t ht u (mem_cons_of_mem _ hu)⟩
  -- the header of the hole is written outside the other holes
  have hwritex : Segment ((s.write (hole.start + 16) p).write hole.start c).mem 0
      ((s.write (hole.start + 16) p).write hole.start c).front xs p c := by
    refine Span.segment_update (fun t ht => ?_) (Span.segment_update (fun t ht => ?_) hxs)
    · have := hbefore t ht
      omega
    · have := hbefore t ht
      omega
  have hwritey : Segment ((s.write (hole.start + 16) p).write hole.start c).mem p c ys last 0 := by
    refine Span.segment_update (fun t ht => ?_) (Span.segment_update (fun t ht => ?_) hys)
    · have := hafter t ht
      omega
    · have := hafter t ht
      omega
  have hp : p + 24 ≤ hole.start ∨ p = 0 := by
    obtain ⟨-, hp⟩ | ⟨t, ht, rfl⟩ := Span.segment_last hxs
    · exact Or.inr hp
    · exact Or.inl (hbefore t ht)
  have hc : c = 0 ∨ hole.start + 24 ≤ c := by
    cases ys with
    | nil => exact Or.inl hys.2.symm
    | cons u ys =>
      rw [hys.2.1]
      exact Or.inr (hafter u mem_cons_self)
  have hleft := linkNext_segment (v := hole.start) hsepx hwritex
  have hright := linkNext_segment_right (v := hole.start) (last_le hsep' hxs) hwritey
  obtain ⟨last', hright'⟩ := linkPrev_segment (v := hole.start) hsepy' hright
  have hword : ∀ x, hole.start ≤ x → x < hole.start + 24 →
      (s.link hole.start p c).mem x =
        ((s.write (hole.start + 16) p).write hole.start c).mem x := by
    intro x hle hlt
    rw [link, linkPrev]
    split_ifs with hzero
    · exact linkNext_mem_of_ne (by omega)
    · rw [write_mem_of_ne (by omega)]
      exact linkNext_mem_of_ne (by omega)
  refine ⟨last', Span.segment_append.2 ⟨p, hole.start, ?_, hne, rfl, ?_, ?_, ?_⟩⟩
  · rw [link, linkPrev_front]
    exact linkPrev_segment_left (le_first hsep' hys) hleft
  · rw [hword _ (by omega) (by omega)]
    simp [write, Function.update_of_ne, hsize]
  · rw [hword _ (by omega) (by omega)]
    simp [write, Function.update_of_ne]
  · rw [hword _ (by omega) (by omega)]
    simpa [write, link] using hright'

variable {a b : Span}

/-- Giving a hole a new size while the hole after it is taken out of the list. -/
theorem absorb_holds {newSize : ℕ} (hsep : Separate (xs ++ a :: b :: ys))
    (h : s.Holds (xs ++ a :: b :: ys)) :
    (s.absorb a.start b.start newSize).Holds (xs ++ ⟨a.start, newSize⟩ :: ys) := by
  obtain ⟨last, h⟩ := h
  obtain ⟨p, c, hxs, hne, rfl, -, hprev, -, -, -, -, hys⟩ := Span.segment_append.1 h
  obtain ⟨hsepx, hsepab, hcross⟩ := separate_append.1 hsep
  obtain ⟨haftera, hsepb⟩ := pairwise_cons.1 hsepab
  obtain ⟨hafterb, hsepy⟩ := pairwise_cons.1 hsepb
  have hbefore : ∀ t ∈ xs, t.start + 24 ≤ a.start := fun t ht => hcross t ht a mem_cons_self
  have hab : a.start + 24 ≤ b.start := haftera b mem_cons_self
  have haftery : ∀ t ∈ ys, a.start + 24 ≤ t.start := fun t ht =>
    haftera t (mem_cons_of_mem _ ht)
  set n := s.mem b.start
  have hn : n = 0 ∨ a.start + 24 ≤ n := by
    cases ys with
    | nil => exact Or.inl hys.2.symm
    | cons u ys =>
      rw [hys.2.1]
      exact Or.inr (haftery u mem_cons_self)
  set s₂ := (s.write (a.start + 8) newSize).write a.start n with hs₂
  have habsorb : s.absorb a.start b.start newSize = s₂.linkPrev n a.start := by
    simp only [absorb, next]
    rw [write_mem_of_ne (show b.start ≠ a.start + 8 by omega),
      write_mem_of_ne (show b.start ≠ a.start by omega),
      write_mem_of_ne (show b.start ≠ a.start + 8 by omega)]
  have hwritex : Segment s₂.mem 0 s₂.front xs p a.start := by
    refine Span.segment_update (fun t ht => ?_) (Span.segment_update (fun t ht => ?_) hxs)
    · have := hbefore t ht
      omega
    · have := hbefore t ht
      omega
  have hwritey : Segment s₂.mem b.start n ys last 0 := by
    refine Span.segment_update (fun t ht => ?_) (Span.segment_update (fun t ht => ?_) hys)
    · have := haftery t ht
      omega
    · have := haftery t ht
      omega
  have hword : ∀ x, a.start ≤ x → x < a.start + 24 → (s₂.linkPrev n a.start).mem x = s₂.mem x := by
    intro x hle hlt
    rw [linkPrev]
    split_ifs with hzero
    · rfl
    · exact write_mem_of_ne (by omega)
  have hbeforen : ∀ t ∈ xs, t.start + 24 ≤ n ∨ n = 0 := by
    intro t ht
    have := hbefore t ht
    omega
  obtain ⟨last', hright⟩ := linkPrev_segment (v := a.start) hsepy hwritey
  rw [habsorb]
  refine ⟨last', Span.segment_append.2 ⟨p, a.start, ?_, hne, rfl, ?_, ?_, ?_⟩⟩
  · rw [linkPrev_front]
    exact linkPrev_segment_left hbeforen hwritex
  · rw [hword _ (by dsimp only; omega) (by dsimp only; omega)]
    simp [hs₂, write]
  · rw [hword _ (by dsimp only; omega) (by dsimp only; omega)]
    simp [hs₂, write, hprev]
  · rw [hword _ (by dsimp only; omega) (by dsimp only; omega)]
    simpa [hs₂, write] using hright

/-! ### Inserting -/

variable {holes : List Span}

theorem findPlace_eq {hole : ℕ} {limit prev front last : ℕ}
    (hlimit : holes.length < limit) (h : Segment s.mem prev front holes last 0) :
    ∃ xs ys p c, holes = xs ++ ys ∧ s.findPlace hole limit front prev = some (p, c) ∧
      Segment s.mem prev front xs p c ∧ Segment s.mem p c ys last 0 ∧
      (∀ t ∈ xs, t.start ≤ hole) ∧ ∀ t ∈ ys.head?, hole < t.start := by
  induction holes generalizing limit prev front with
  | nil =>
    obtain ⟨limit, rfl⟩ := Nat.exists_eq_succ_of_ne_zero (Nat.ne_of_gt hlimit)
    refine ⟨[], [], prev, front, rfl, ?_, ⟨rfl, rfl⟩, h, by simp, by simp⟩
    rw [findPlace, if_pos h.2.symm]
  | cons t holes ih =>
    obtain ⟨limit, rfl⟩ := Nat.exists_eq_succ_of_ne_zero (Nat.ne_of_gt (Nat.zero_lt_of_lt hlimit))
    obtain ⟨hne, rfl, hsize, hprev, hrest⟩ := h
    rw [findPlace, if_neg hne]
    split_ifs with hlt
    · exact ⟨[], t :: holes, prev, t.start, rfl, rfl, ⟨rfl, rfl⟩, ⟨hne, rfl, hsize, hprev, hrest⟩,
        by simp, by simpa using hlt⟩
    · obtain ⟨xs, ys, p, c, rfl, hfind, hxs, hys, hle, hgt⟩ :=
        ih (Nat.lt_of_succ_lt_succ hlimit) hrest
      refine ⟨t :: xs, ys, p, c, rfl, hfind, ⟨hne, rfl, hsize, hprev, hxs⟩, hys, ?_, hgt⟩
      intro u hu
      rcases mem_cons.1 hu with rfl | hu
      · exact Nat.not_lt.1 hlt
      · exact hle u hu

/-- What the header of a hole of the list says. -/
theorem size_of_holds {a : Span} (h : s.Holds (xs ++ a :: ys)) : s.size a.start = a.size := by
  obtain ⟨last, h⟩ := h
  obtain ⟨p, c, -, -, -, hsize, -⟩ := Span.segment_append.1 h
  exact hsize

theorem next_of_holds_nil {a : Span} (h : s.Holds (xs ++ [a])) : s.next a.start = 0 := by
  obtain ⟨last, h⟩ := h
  obtain ⟨p, c, -, -, -, -, -, -, hnext⟩ := Span.segment_append.1 h
  exact hnext.symm

theorem next_of_holds_cons (h : s.Holds (xs ++ a :: b :: ys)) :
    s.next a.start = b.start ∧ b.start ≠ 0 ∧ s.size b.start = b.size := by
  obtain ⟨last, h⟩ := h
  obtain ⟨p, c, -, -, -, -, -, hne, hnext, hsize, -⟩ := Span.segment_append.1 h
  exact ⟨hnext, hne, hsize⟩

/-- When two neighbours in the list are near each other, and what they are joined to. -/
theorem isNear_eq (h : s.Holds (xs ++ a :: b :: ys)) (hab : a.stop ≤ b.start)
    (hb : Hole.minSize ≤ b.size) (hstop : b.stop < 2 ^ 64) :
    s.isNear a.start b.start = decide (b.start < a.stop + Hole.minSize) ∧
      s.joinedSize a.start b.start = (a.join b).size := by
  have hasize := size_of_holds h
  obtain ⟨-, -, hbsize⟩ := next_of_holds_cons h
  have hawrap : wrap (a.start + a.size) = a.stop := wrap_of_lt (by
    simp only [Span.stop] at *
    omega)
  have hbwrap : wrap (b.start + b.size) = b.stop := wrap_of_lt hstop
  constructor
  · rw [isNear, hasize, hawrap, wrap_of_lt]
    simp only [Span.stop] at *
    omega
  · rw [joinedSize, hasize, hbsize, hawrap, hbwrap, wrapSub_of_le]
    · rfl
    · simp only [Span.stop]
      omega
    · simp only [Span.stop] at *
      omega

theorem separate_absorb {n : ℕ} (h : Separate (xs ++ a :: b :: ys)) :
    Separate (xs ++ ⟨a.start, n⟩ :: ys) := by
  obtain ⟨hsepx, hsepab, hcross⟩ := separate_append.1 h
  obtain ⟨haftera, hsepb⟩ := pairwise_cons.1 hsepab
  refine separate_append.2 ⟨hsepx, pairwise_cons.2 ⟨fun u hu =>
    haftera u (mem_cons_of_mem _ hu), (pairwise_cons.1 hsepb).2⟩, fun t ht u hu => ?_⟩
  rcases mem_cons.1 hu with rfl | hu
  · exact hcross t ht a mem_cons_self
  · exact hcross t ht u (mem_cons_of_mem _ (mem_cons_of_mem _ hu))

theorem mergeNext_holds {a : Span} (hsep : Separate (xs ++ a :: ys)) (h : s.Holds (xs ++ a :: ys))
    (hys : ∀ t ∈ ys, a.stop ≤ t.start ∧ Hole.minSize ≤ t.size ∧ t.stop < 2 ^ 64) :
    (s.mergeNext a.start).Holds (xs ++ Span.attach Hole.minSize a ys) := by
  rw [mergeNext]
  cases ys with
  | nil =>
    rw [next_of_holds_nil h]
    exact h
  | cons b ys =>
    obtain ⟨hab, hb, hstop⟩ := hys b mem_cons_self
    obtain ⟨hnext, hne, -⟩ := next_of_holds_cons h
    obtain ⟨hnear, hjoined⟩ := isNear_eq h hab hb hstop
    rw [hnext, hnear, hjoined, Span.attach]
    by_cases hlt : b.start < a.stop + Hole.minSize
    · rw [if_pos (by simp [hne, hlt]), if_pos hlt]
      exact absorb_holds hsep h
    · rw [if_neg (by simp [hlt]), if_neg hlt]
      exact h

/-- A hole between the two parts of a sorted list of holes overlaps no header. -/
theorem separate_of_sorted (hspaced : Spaced Hole.minSize (xs ++ ys))
    (hbefore : ∀ t ∈ xs, t.stop ≤ hole.start) (hafter : ∀ t ∈ ys, hole.stop ≤ t.start)
    (hsize : ∀ t ∈ xs ++ ys, Hole.minSize ≤ t.size) (hmin : Hole.minSize ≤ hole.size) :
    Separate (xs ++ hole :: ys) := by
  have hspaced' : ∀ {t u : Span}, t.stop + Hole.minSize ≤ u.start → t.start + 24 ≤ u.start := by
    intro t u htu
    simp only [Span.stop, Hole.minSize] at htu
    omega
  obtain ⟨hspacedx, hspacedy, hcross⟩ := pairwise_append.1 hspaced
  refine separate_append.2 ⟨hspacedx.imp hspaced',
    pairwise_cons.2 ⟨fun u hu => ?_, hspacedy.imp hspaced'⟩, fun t ht u hu => ?_⟩
  · have := hafter u hu
    simp only [Span.stop, Hole.minSize] at *
    omega
  · rcases mem_cons.1 hu with rfl | hu
    · have := hbefore t ht
      have := hsize t (mem_append_left _ ht)
      simp only [Span.stop, Hole.minSize] at *
      omega
    · exact hspaced' (hcross t ht u hu)

theorem insert_holds {holes : List Span} (h : s.Holds holes)
    (hspaced : Spaced Hole.minSize holes)
    (hholes : ∀ t ∈ holes, hole.Apart t ∧ Hole.minSize ≤ t.size ∧ t.stop < 2 ^ 64)
    (hne : hole.start ≠ 0) (hsize : s.mem (hole.start + 8) = hole.size)
    (hmin : Hole.minSize ≤ hole.size) (hstop : hole.stop < 2 ^ 64) :
    ∃ s', s.insert hole.start = some s' ∧ s'.Holds (Span.insert Hole.minSize hole holes) := by
  have hpos : 0 < hole.size := Nat.lt_of_lt_of_le (by decide) hmin
  have hlength : holes.length < walkLimit := by
    have := @Span.add_length_le _ holes 0 (2 ^ 64 - 1) (Nat.zero_le _) hspaced fun t ht => by
      obtain ⟨-, hsize, hstop⟩ := hholes t ht
      exact ⟨Nat.zero_le _, Nat.lt_of_lt_of_le (by decide) hsize, by omega⟩
    rw [walkLimit]
    omega
  obtain ⟨last, hseg⟩ := h
  obtain ⟨xs, ys, p, c, rfl, hfind, hxs, hys, hle, hgt⟩ := findPlace_eq hlength hseg
  obtain ⟨hspacedx, hspacedy, hcross⟩ := pairwise_append.1 hspaced
  have hbefore : ∀ t ∈ xs, t.stop ≤ hole.start := fun t ht =>
    Span.stop_le_of_apart hpos (hholes t (mem_append_left _ ht)).1 (hle t ht)
  have hafter : ∀ t ∈ ys, hole.stop ≤ t.start ∧ Hole.minSize ≤ t.size ∧ t.stop < 2 ^ 64 := by
    intro t ht
    refine ⟨?_, (hholes t (mem_append_right _ ht)).2⟩
    cases ys with
    | nil => cases ht
    | cons y ys =>
      exact Span.le_start_of_lt hspacedy (fun u hu => (hholes u (mem_append_right _ hu)).1)
        (hgt y rfl) t ht
  have hsep : Separate (xs ++ hole :: ys) := separate_of_sorted hspaced hbefore
    (fun t ht => (hafter t ht).1) (fun t ht => (hholes t ht).2.1) hmin
  have hlink := link_holds hsep hne hsize hxs hys
  have hinsert : s.insert hole.start =
      some (((s.link hole.start p c).mergePrev p hole.start).1.mergeNext
        ((s.link hole.start p c).mergePrev p hole.start).2) := by
    rw [insert, hfind]
    rfl
  refine ⟨_, hinsert, ?_⟩
  obtain rfl | ⟨xs, q, rfl⟩ := eq_nil_or_concat' xs
  · obtain ⟨rfl, -⟩ := hxs
    rw [nil_append, Span.insert_eq_attach hgt]
    exact @mergeNext_holds _ [] _ _ hsep hlink hafter
  · obtain ⟨_, _, -, hq, -, -, -, hp, -⟩ := Span.segment_append.1 hxs
    subst hp
    simp only [append_assoc, cons_append, nil_append] at hlink hsep ⊢
    have hqstop := hbefore q (by simp)
    have hfar : ∀ t ∈ xs, t.start ≤ hole.start ∧ t.stop + Hole.minSize ≤ hole.start := by
      intro t ht
      have htq := (pairwise_append.1 hspacedx).2.2 t ht q (by simp)
      have := hle q (by simp)
      exact ⟨hle t (by simp [ht]), by omega⟩
    obtain ⟨hnear, hjoined⟩ := isNear_eq hlink hqstop hmin hstop
    rw [mergePrev, hnear, hjoined, Span.insert_append hfar, Span.insert,
      if_neg (Nat.not_lt.2 (hle q (by simp)))]
    by_cases hlt : hole.start < q.stop + Hole.minSize
    · rw [if_pos (by simp [hq, hlt]), if_pos hlt]
      have habsorb := @absorb_holds _ _ _ _ _ (q.join hole).size hsep hlink
      refine mergeNext_holds (a := q.join hole) (separate_absorb hsep) habsorb fun t ht => ?_
      rw [Span.stop_join hqstop]
      exact hafter t ht
    · rw [if_neg (by simp [hlt]), if_neg hlt, Span.insert_eq_attach hgt]
      have hsplit : xs ++ q :: hole :: ys = (xs ++ [q]) ++ hole :: ys := by simp
      rw [hsplit] at hlink hsep
      have hmerge := mergeNext_holds hsep hlink hafter
      simpa using hmerge

/-! ### Operations -/

theorem writeHole_holds {hole size : ℕ} (h : s.Holds holes)
    (hholes : ∀ t ∈ holes, t.start + 24 ≤ hole ∨ hole + 24 ≤ t.start) :
    (s.writeHole hole size).Holds holes := by
  obtain ⟨last, h⟩ := h
  refine ⟨last, ?_⟩
  refine Span.segment_congr (fun t ht x hle hlt => ?_) h
  have := hholes t ht
  rw [writeHole, write_mem_of_ne (by omega), write_mem_of_ne (by omega),
    write_mem_of_ne (by omega)]

theorem writeHole_size (hole size : ℕ) (s : HoleList) :
    (s.writeHole hole size).mem (hole + 8) = size := by
  rw [writeHole, write_mem_of_ne (by omega)]
  exact Function.update_self ..

theorem insert_writeHole_holds (h : s.Holds holes)
    (hspaced : Spaced Hole.minSize holes)
    (hholes : ∀ t ∈ holes, hole.Apart t ∧ Hole.minSize ≤ t.size ∧ t.stop < 2 ^ 64)
    (hne : hole.start ≠ 0) (hmin : Hole.minSize ≤ hole.size) (hstop : hole.stop < 2 ^ 64) :
    ∃ s', (s.writeHole hole.start hole.size).insert hole.start = some s' ∧
      s'.Holds (Span.insert Hole.minSize hole holes) := by
  refine insert_holds (writeHole_holds h fun t ht => ?_) hspaced hholes hne
    (writeHole_size _ _ _) hmin hstop
  obtain ⟨hapart, hsize, -⟩ := hholes t ht
  simp only [Span.Apart, Span.stop, Hole.minSize] at *
  omega

theorem reclaim_holds (h : s.Holds holes)
    (hspaced : Spaced Hole.minSize holes)
    (happart : Hole.minSize ≤ hole.size → ∀ t ∈ holes, hole.Apart t)
    (hholes : ∀ t ∈ holes, Hole.minSize ≤ t.size ∧ t.stop < 2 ^ 64)
    (hne : hole.start ≠ 0) (hstop : hole.stop < 2 ^ 64) :
    ∃ s', s.reclaim hole.start hole.size = some s' ∧
      s'.Holds (Span.keep Hole.minSize hole holes) := by
  rw [reclaim, Span.keep]
  split_ifs with hmin
  · exact insert_writeHole_holds h hspaced (fun t ht => ⟨happart hmin t ht, hholes t ht⟩) hne hmin
      hstop
  · exact ⟨s, rfl, h⟩

/-- Whether a block fits into a hole. -/
def fitsIn (hole : Span) : Bool := fits layout hole.start hole.size

theorem allocateFrom_eq {layout : Layout} {limit prev front last : ℕ}
    (hlimit : holes.length < limit) (h : Segment s.mem prev front holes last 0) :
    s.allocateFrom layout limit front =
      match holes.find? (fitsIn layout) with
      | none => some (s, 0)
      | some hole => s.carve layout hole.start := by
  induction holes generalizing limit prev front with
  | nil =>
    obtain ⟨limit, rfl⟩ := Nat.exists_eq_succ_of_ne_zero (Nat.ne_of_gt hlimit)
    rw [allocateFrom, if_pos h.2.symm]
    rfl
  | cons t holes ih =>
    obtain ⟨limit, rfl⟩ := Nat.exists_eq_succ_of_ne_zero (Nat.ne_of_gt (Nat.zero_lt_of_lt hlimit))
    obtain ⟨hne, rfl, hsize, hprev, hrest⟩ := h
    rw [allocateFrom, if_neg hne, size, hsize, List.find?_cons, fitsIn]
    cases fits layout t.start t.size with
    | true => rfl
    | false => exact ih (Nat.lt_of_succ_lt_succ hlimit) hrest

end HoleList

end Choreo
