import Choreo.Library.Utf8

/-!
# Where bytes may be cut

Bytes that are decoded in parts give the text of the whole if no part ends inside a character that
the next part continues. The decoder's state after the first part tells: either it is between two
characters, or the next byte is no tail byte, so that the decoder would have ended the character
there anyway.
-/

namespace Utf8

open List Option

/-- A byte inside a character of several bytes. -/
def IsTail (b : UInt8) : Prop := 0x80 ≤ b.toNat ∧ b.toNat ≤ 0xBF

/-- Bytes that continue no character. -/
def StartsApart (bytes : List UInt8) : Prop := ∀ b ∈ bytes.head?, ¬IsTail b

/-- The state an outcome leaves. -/
def Outcome.state : Outcome → Option Partial
  | .inl _ => none
  | .inr p => some p

variable (s : Option Partial)

/-- The state after one byte. -/
def next (b : UInt8) : Option Partial :=
  match s with
  | none => Outcome.state (start b)
  | some p => if p.accepts b then Outcome.state (p.extend b) else Outcome.state (start b)

/-- The state after some bytes. -/
def stateAfter (bytes : List UInt8) : Option Partial := bytes.foldl next s

@[simp] theorem stateAfter_nil : stateAfter s [] = s := rfl

@[simp] theorem stateAfter_cons (b : UInt8) (bs : List UInt8) :
    stateAfter s (b :: bs) = stateAfter (next s b) bs := rfl

theorem stateAfter_append (bs bs' : List UInt8) :
    stateAfter s (bs ++ bs') = stateAfter (stateAfter s bs) bs' :=
  foldl_append

/-- A character in the making waits for a byte, and only tail bytes continue it. -/
structure Partial.Proper (p : Partial) : Prop where
  missing : 0 < p.missing
  tail : ∀ b : UInt8, p.accepts b = true → IsTail b

/-- A state between two characters or inside a proper one. -/
def ProperState : Prop := ∀ p ∈ s, p.Proper

theorem properState_none : ProperState none := by
  rintro p ⟨⟩

theorem properState_start (b : UInt8) : ProperState (start b).state := by
  intro p hp
  rw [start] at hp
  split_ifs at hp <;>
    simp only [Outcome.state, mem_def, some.injEq, reduceCtorEq] at hp
  all_goals
    subst hp
    refine ⟨by norm_num, fun b hb => ?_⟩
    simp only [Partial.accepts, Bool.and_eq_true, decide_eq_true_eq] at hb
    exact ⟨by omega, by omega⟩

theorem Partial.Proper.extend {p : Partial} (h : p.Proper) (b : UInt8) :
    ProperState (p.extend b).state := by
  intro q hq
  have hpos := h.missing
  rw [Partial.extend] at hq
  split_ifs at hq with hlast <;>
    simp only [Outcome.state, mem_def, some.injEq, reduceCtorEq] at hq
  subst hq
  constructor
  · dsimp only
    omega
  · intro b hb
    simpa only [Partial.accepts, IsTail, Bool.and_eq_true, decide_eq_true_eq] using hb

variable {s : Option Partial}

theorem ProperState.next (h : ProperState s) (b : UInt8) :
    ProperState (Utf8.next s b) := by
  rcases s with - | p
  · exact properState_start b
  · rw [Utf8.next]
    split_ifs
    · exact (h p rfl).extend b
    · exact properState_start b

theorem ProperState.stateAfter (h : ProperState s) (bytes : List UInt8) :
    ProperState (Utf8.stateAfter s bytes) := by
  induction bytes generalizing s with
  | nil => exact h
  | cons b bs ih => exact ih (h.next b)

/-! ### The cuts -/

theorem emit_append (outcome : Outcome) {f g : Option Partial → List Char} {rest : List Char}
    (h : f outcome.state = g outcome.state ++ rest) :
    emit outcome f = emit outcome g ++ rest := by
  rcases outcome with c | p
  · exact congrArg (c :: ·) h
  · exact h

variable {bytes : List UInt8}

/-- Bytes may be cut where the decoder is between two characters. -/
theorem decodeFrom_append (rest : List UInt8)
    (h : stateAfter s bytes = none ∨ ProperState s ∧ StartsApart rest) :
    decodeFrom s (bytes ++ rest) = decodeFrom s bytes ++ decodeLossy rest := by
  induction bytes generalizing s with
  | nil =>
    rcases s with - | p
    · rfl
    · rcases h with h | ⟨hproper, hrest⟩
      · cases h
      · cases rest with
        | nil => rfl
        | cons b bs =>
          have hno : ¬p.accepts b = true := fun hb => hrest b rfl ((hproper p rfl).tail b hb)
          rw [nil_append, decodeFrom.eq_4, if_neg hno]
          rfl
  | cons b bs ih =>
    have hrest : stateAfter (next s b) bs = none ∨
        ProperState (next s b) ∧ StartsApart rest := h.imp_right fun h => ⟨h.1.next b, h.2⟩
    have hnext := ih hrest
    rcases s with - | p
    · rw [cons_append, decodeFrom, decodeFrom]
      exact emit_append _ hnext
    · rw [next] at hnext
      rw [cons_append, decodeFrom, decodeFrom]
      by_cases hb : p.accepts b = true
      · rw [if_pos hb] at hnext
        rw [if_pos hb, if_pos hb]
        exact emit_append _ hnext
      · rw [if_neg hb] at hnext
        rw [if_neg hb, if_neg hb, cons_append]
        exact congrArg _ (emit_append (start b) hnext)

theorem decodeLossy_append_of_stateAfter (h : stateAfter none bytes = none)
    (rest : List UInt8) : decodeLossy (bytes ++ rest) = decodeLossy bytes ++ decodeLossy rest :=
  decodeFrom_append rest (.inl h)

theorem decodeLossy_append_of_head (bytes : List UInt8) {rest : List UInt8}
    (h : StartsApart rest) : decodeLossy (bytes ++ rest) = decodeLossy bytes ++ decodeLossy rest :=
  decodeFrom_append rest (.inr ⟨properState_none, h⟩)

/-! ### States between two characters -/

theorem next_of_not_isTail (h : ProperState s) {b : UInt8} (hb : ¬IsTail b) :
    next s b = (start b).state := by
  rcases s with - | p
  · rfl
  · rw [next, if_neg fun haccepts => hb ((h p rfl).tail b haccepts)]

theorem start_of_isTail {b : UInt8} (hb : IsTail b) : (start b).state = none := by
  obtain ⟨hlow, hhigh⟩ := hb
  rw [start, if_neg (by omega), if_pos (by omega)]
  rfl

theorem start_of_ascii {b : UInt8} (hb : b.toNat < 0x80) : (start b).state = none := by
  rw [start, if_pos hb]
  rfl

theorem stateAfter_concat_ascii (h : ProperState s) (bytes : List UInt8)
    {b : UInt8} (hb : b.toNat < 0x80) : stateAfter s (bytes ++ [b]) = none := by
  have hno : ¬IsTail b := fun htail => absurd htail.1 (by omega)
  rw [stateAfter_append, stateAfter_cons, next_of_not_isTail (h.stateAfter bytes) hno,
    start_of_ascii hb, stateAfter_nil]

theorem stateAfter_tails (h : ∀ b ∈ bytes, IsTail b) :
    stateAfter none bytes = none := by
  induction bytes with
  | nil => rfl
  | cons b bs ih =>
    have hnext : next none b = none := start_of_isTail (h b mem_cons_self)
    rw [stateAfter_cons, hnext]
    exact ih fun b hb => h b (mem_cons_of_mem _ hb)

/-- Enough tail bytes end any character. -/
theorem stateAfter_missing {p : Partial} (h : p.Proper)
    (htails : ∀ b ∈ bytes, IsTail b) (hlen : p.missing ≤ bytes.length) :
    stateAfter (some p) bytes = none := by
  induction bytes generalizing p with
  | nil =>
    have hpos := h.missing
    simp only [length_nil] at hlen
    omega
  | cons b bs ih =>
    have hrest : ∀ b ∈ bs, IsTail b := fun b hb => htails b (mem_cons_of_mem _ hb)
    have hpos := h.missing
    rw [length_cons] at hlen
    rw [stateAfter_cons, next]
    by_cases hb : p.accepts b = true
    · have hproper := h.extend b
      rw [if_pos hb]
      rw [Partial.extend] at hproper ⊢
      split_ifs with hlast
      · exact stateAfter_tails hrest
      · rw [if_neg hlast] at hproper
        refine ih (hproper _ rfl) hrest ?_
        dsimp only
        omega
    · rw [if_neg hb, start_of_isTail (htails b mem_cons_self)]
      exact stateAfter_tails hrest

/-- The tail bytes a first byte asks for by its leading bits. -/
def expectedTails (lead : UInt8) : ℕ :=
  if 0xC0 ≤ lead.toNat ∧ lead.toNat ≤ 0xDF then 1
  else if 0xE0 ≤ lead.toNat ∧ lead.toNat ≤ 0xEF then 2
  else if 0xF0 ≤ lead.toNat ∧ lead.toNat ≤ 0xF7 then 3
  else 0

theorem start_missing_le {lead : UInt8} : ∀ p ∈ (start lead).state,
    p.missing ≤ expectedTails lead := by
  intro p hp
  rw [start] at hp
  split_ifs at hp <;>
    simp only [Outcome.state, mem_def, some.injEq, reduceCtorEq] at hp
  all_goals
    subst hp
    rw [expectedTails]
    split_ifs <;> dsimp only <;> omega

theorem stateAfter_complete (h : ProperState s) {lead : UInt8}
    (hlead : ¬IsTail lead) {tails : List UInt8} (htails : ∀ b ∈ tails, IsTail b)
    (hlen : expectedTails lead ≤ tails.length) : stateAfter s (lead :: tails) = none := by
  rw [stateAfter_cons, next_of_not_isTail h hlead]
  rcases hstate : (start lead).state with - | p
  · exact stateAfter_tails htails
  · have hproper := properState_start lead p hstate
    exact stateAfter_missing hproper htails ((start_missing_le p hstate).trans hlen)

end Utf8
