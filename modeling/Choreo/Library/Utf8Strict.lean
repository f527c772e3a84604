import Choreo.Library.Utf8

/-!
# Strict UTF-8 decoding

Bytes are read as text only if they are well-formed. Otherwise the error says where the first part
that is not begins, and whether that part is the beginning of a character at the end of the bytes.
-/

namespace Utf8

/-- Why bytes are not well-formed: the number of bytes before the first ill-formed part, and whether
the bytes end within a character there. -/
structure Utf8Error where
  validUpTo : ℕ
  incomplete : Bool
deriving DecidableEq, Repr

/-- Reads bytes, from between two characters or from inside one, after some bytes of whole
characters. -/
def fromUtf8From : Option Partial → ℕ → List UInt8 → Except Utf8Error (List Char)
  | none, _, [] => .ok []
  | some _, valid, [] => .error ⟨valid, true⟩
  | none, valid, b :: bs =>
    match start b with
    | .inl c =>
      if c = replacement then .error ⟨valid, false⟩
      else (fromUtf8From none (valid + 1) bs).map (c :: ·)
    | .inr p => fromUtf8From (some p) valid bs
  | some p, valid, b :: bs =>
    if p.accepts b then
      match p.extend b with
      | .inl c => (fromUtf8From none (valid + c.utf8Size) bs).map (c :: ·)
      | .inr p => fromUtf8From (some p) valid bs
    else .error ⟨valid, false⟩

/-- The text of well-formed bytes. -/
def fromUtf8 (bytes : List UInt8) : Except Utf8Error (List Char) := fromUtf8From none 0 bytes

variable {text : List Char}

theorem map_eq_ok {c : Char} {x : Except Utf8Error (List Char)}
    (h : x.map (c :: ·) = .ok text) : ∃ rest, x = .ok rest ∧ text = c :: rest := by
  rcases x with error | rest
  · cases h
  · exact ⟨rest, rfl, (Except.ok.inj h).symm⟩

variable {bytes : List UInt8}

/-- Bytes that are accepted have no ill-formed part. -/
theorem decodeFrom_of_fromUtf8From {s : Option Partial} {valid : ℕ}
    (h : fromUtf8From s valid bytes = .ok text) : decodeFrom s bytes = text := by
  induction bytes generalizing s valid text with
  | nil =>
    rcases s with - | p
    · exact Except.ok.inj h
    · cases h
  | cons b bytes ih =>
    rcases s with - | p
    · rw [fromUtf8From] at h
      rw [decodeFrom]
      rcases hstart : start b with c | p
      · rw [hstart] at h
        dsimp only at h
        split_ifs at h
        obtain ⟨rest, hrest, rfl⟩ := map_eq_ok h
        rw [emit, ih hrest]
      · rw [hstart] at h
        exact ih h
    · rw [fromUtf8From] at h
      rw [decodeFrom]
      split_ifs at h with haccepts
      rw [if_pos haccepts]
      rcases hextend : p.extend b with c | q
      · rw [hextend] at h
        obtain ⟨rest, hrest, rfl⟩ := map_eq_ok h
        rw [emit, ih hrest]
      · rw [hextend] at h
        exact ih h

theorem decodeLossy_of_fromUtf8
    (h : fromUtf8 bytes = .ok text) : decodeLossy bytes = text :=
  decodeFrom_of_fromUtf8From h

theorem start_of_lt {b : UInt8} (h : b.toNat < 0x80) : start b = .inl (Char.ofNat b.toNat) := by
  simp only [start, if_pos h]

theorem ofNat_ne_replacement {n : ℕ} (h : n < 0x80) : Char.ofNat n ≠ replacement := by
  interval_cases n <;> decide

/-- ASCII bytes are well-formed. -/
theorem fromUtf8From_ascii (h : ∀ b ∈ bytes, b.toNat < 0x80) (valid : ℕ) :
    fromUtf8From none valid bytes = .ok (bytes.map fun b => Char.ofNat b.toNat) := by
  induction bytes generalizing valid with
  | nil => rfl
  | cons b bytes ih =>
    have hb := h b List.mem_cons_self
    rw [fromUtf8From, start_of_lt hb]
    dsimp only
    rw [if_neg (ofNat_ne_replacement hb), ih fun c hc => h c (List.mem_cons_of_mem _ hc)]
    rfl

theorem fromUtf8_ascii (h : ∀ b ∈ bytes, b.toNat < 0x80) :
    fromUtf8 bytes = .ok (bytes.map fun b => Char.ofNat b.toNat) :=
  fromUtf8From_ascii h 0

end Utf8
