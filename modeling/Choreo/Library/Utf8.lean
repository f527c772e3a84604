import Mathlib.Tactic

/-!
# Lossy decoding of UTF-8

A decoder of UTF-8 that never fails. It reads one byte at a time and keeps the character it is
in the middle of. Each maximal part of an ill-formed sequence becomes one replacement character.
The decoder inverts the encoder, and bytes cut inside a character decode to the characters
before the cut and one replacement character.
-/

namespace Utf8

open List

/-- The replacement character. -/
def replacement : Char := Char.ofNat 0xFFFD

variable (text : List Char)

/-- The bytes of a text. -/
def encode : List UInt8 := text.flatMap String.utf8EncodeChar

/-- The number of bytes of a text. -/
def size : ℕ := (text.map Char.utf8Size).sum

@[simp] theorem encode_nil : encode [] = [] := rfl

variable (c : Char)

@[simp] theorem encode_cons (text : List Char) :
    encode (c :: text) = String.utf8EncodeChar c ++ encode text := rfl

@[simp] theorem encode_append (text text' : List Char) :
    encode (text ++ text') = encode text ++ encode text' := by
  simp [encode]

@[simp] theorem size_nil : size [] = 0 := rfl

@[simp] theorem size_cons (text : List Char) :
    size (c :: text) = c.utf8Size + size text := by
  simp [size]

@[simp] theorem size_append (text text' : List Char) :
    size (text ++ text') = size text + size text' := by
  simp [size]

@[simp] theorem length_encode : (encode text).length = size text := by
  induction text with
  | nil => rfl
  | cons c text ih => simp [ih]

theorem length_le_size : text.length ≤ size text := by
  induction text with
  | nil => simp
  | cons c text ih =>
    have hpos := c.utf8Size_pos
    simp only [length_cons, size_cons]
    omega

theorem utf8Size_of_ascii {c : Char} (hc : c.toNat < 0x80) : c.utf8Size = 1 := by
  rw [Char.utf8Size_eq_one_iff, UInt32.le_iff_toNat_le]
  exact Nat.le_of_lt_succ hc

theorem ascii_of_all {text : List Char} (h : (text.all fun c => c.toNat < 0x80) = true) :
    ∀ c ∈ text, c.toNat < 0x80 := by
  intro c hc
  exact of_decide_eq_true (all_eq_true.1 h c hc)

theorem size_eq_length {text : List Char} (hascii : ∀ c ∈ text, c.toNat < 0x80) :
    size text = text.length := by
  induction text with
  | nil => rfl
  | cons c text ih =>
    have hrest := ih fun d hd => hascii d (mem_cons_of_mem c hd)
    have hc := utf8Size_of_ascii (hascii c mem_cons_self)
    simp only [length_cons, size_cons]
    omega

/-! ### The decoder -/

/-- A character whose first bytes were read: their value, the number of bytes that are missing
and the range of the next one. -/
structure Partial where
  code : ℕ
  missing : ℕ
  low : ℕ
  high : ℕ
deriving Repr, DecidableEq

/-- What one byte leads to: a character, or a character in the making. -/
abbrev Outcome : Type := Char ⊕ Partial

/-- Reads the first byte of a character. -/
def start (b : UInt8) : Outcome :=
  let n := b.toNat
  if n < 0x80 then .inl (Char.ofNat n)
  else if n < 0xC2 then .inl replacement
  else if n < 0xE0 then .inr ⟨n - 0xC0, 1, 0x80, 0xBF⟩
  else if n = 0xE0 then .inr ⟨0, 2, 0xA0, 0xBF⟩
  else if n = 0xED then .inr ⟨0xD, 2, 0x80, 0x9F⟩
  else if n < 0xF0 then .inr ⟨n - 0xE0, 2, 0x80, 0xBF⟩
  else if n = 0xF0 then .inr ⟨0, 3, 0x90, 0xBF⟩
  else if n < 0xF4 then .inr ⟨n - 0xF0, 3, 0x80, 0xBF⟩
  else if n = 0xF4 then .inr ⟨4, 3, 0x80, 0x8F⟩
  else .inl replacement

namespace Partial

/-- Whether a byte may come next. -/
def accepts (p : Partial) (b : UInt8) : Bool := p.low ≤ b.toNat && b.toNat ≤ p.high

/-- Reads a byte that may come next. -/
def extend (p : Partial) (b : UInt8) : Outcome :=
  let code := p.code * 64 + (b.toNat - 0x80)
  if p.missing = 1 then .inl (Char.ofNat code) else .inr ⟨code, p.missing - 1, 0x80, 0xBF⟩

end Partial

/-- Hands a character out, or keeps the character in the making. -/
def emit (outcome : Outcome) (rest : Option Partial → List Char) : List Char :=
  match outcome with
  | .inl c => c :: rest none
  | .inr p => rest (some p)

/-- Decodes bytes, from between two characters or from inside one. A byte that may not come next
ends the part before it and is read again as a first byte. -/
def decodeFrom : Option Partial → List UInt8 → List Char
  | none, [] => []
  | some _, [] => [replacement]
  | none, b :: bs => emit (start b) fun s => decodeFrom s bs
  | some p, b :: bs =>
    if p.accepts b then emit (p.extend b) fun s => decodeFrom s bs
    else replacement :: emit (start b) fun s => decodeFrom s bs

/-- Decodes bytes, with a replacement character for each ill-formed part. -/
def decodeLossy (bytes : List UInt8) : List Char := decodeFrom none bytes

@[simp] theorem decodeLossy_nil : decodeLossy [] = [] := rfl

@[simp] theorem emit_inl (rest : Option Partial → List Char) :
    emit (.inl c) rest = c :: rest none := rfl

@[simp] theorem emit_inr (p : Partial) (rest : Option Partial → List Char) :
    emit (.inr p) rest = rest (some p) := rfl

theorem emit_ne_nil (outcome : Outcome) {rest : Option Partial → List Char}
    (hrest : ∀ p, rest (some p) ≠ []) : emit outcome rest ≠ [] := by
  rcases outcome with c | p
  · simp
  · exact hrest p

theorem decodeFrom_some_ne_nil (p : Partial) (bytes : List UInt8) :
    decodeFrom (some p) bytes ≠ [] := by
  induction bytes generalizing p with
  | nil => simp [decodeFrom]
  | cons b bs ih =>
    rw [decodeFrom]
    split_ifs
    · exact emit_ne_nil _ ih
    · simp

theorem decodeLossy_ne_nil {bytes : List UInt8} (hbytes : bytes ≠ []) :
    decodeLossy bytes ≠ [] := by
  obtain ⟨b, bs, rfl⟩ := exists_cons_of_ne_nil hbytes
  rw [decodeLossy, decodeFrom]
  exact emit_ne_nil _ fun p => decodeFrom_some_ne_nil p bs

variable {n : ℕ}

/-! ### Decoding what was encoded -/

theorem toNat_ofNat (h : n < 256) : (UInt8.ofNat n).toNat = n := by
  simp [Nat.mod_eq_of_lt h]

/-- The byte of a code point that has `m` bytes after it. -/
def tailByte (v m : ℕ) : UInt8 := UInt8.ofNat (v / 64 ^ m % 64 + 0x80)

/-- The decoder has read all but the last `m + 1` bytes of a code point, and accepts the next
one. -/
structure Reading (v m : ℕ) (p : Partial) : Prop where
  code : p.code = v / 64 ^ (m + 1)
  missing : p.missing = m + 1
  low : 0x80 ≤ p.low
  accepts : p.accepts (tailByte v m) = true

theorem toNat_tailByte (v m : ℕ) : (tailByte v m).toNat = v / 64 ^ m % 64 + 0x80 :=
  toNat_ofNat (by omega)

theorem accepts_tailByte (v m k n : ℕ) : Partial.accepts ⟨k, n, 0x80, 0xBF⟩ (tailByte v m) := by
  have hlt : v / 64 ^ m % 64 < 64 := Nat.mod_lt _ (by norm_num)
  simp only [Partial.accepts, toNat_tailByte, Bool.and_eq_true, decide_eq_true_eq]
  omega

theorem div_pow_succ (v m : ℕ) : v / 64 ^ (m + 1) * 64 + v / 64 ^ m % 64 = v / 64 ^ m := by
  rw [pow_succ, ← Nat.div_div_eq_div_mul]
  omega

variable {p : Partial} {v : ℕ}

theorem Reading.last (h : Reading v 0 p) (rest : List UInt8) :
    decodeFrom (some p) (tailByte v 0 :: rest) = Char.ofNat v :: decodeLossy rest := by
  have hcode : p.code * 64 + ((tailByte v 0).toNat - 0x80) = v := by
    rw [toNat_tailByte, Nat.add_sub_cancel, h.code, div_pow_succ, pow_zero, Nat.div_one]
  rw [decodeFrom, if_pos h.accepts, Partial.extend, if_pos h.missing, hcode]
  rfl

theorem Reading.next {v m : ℕ} (h : Reading v (m + 1) p) :
    ∃ q, Reading v m q ∧ ∀ rest,
      decodeFrom (some p) (tailByte v (m + 1) :: rest) = decodeFrom (some q) rest := by
  refine ⟨⟨v / 64 ^ (m + 1), m + 1, 0x80, 0xBF⟩,
    ⟨rfl, rfl, le_rfl, accepts_tailByte v m _ _⟩, fun rest => ?_⟩
  have hcode : p.code * 64 + ((tailByte v (m + 1)).toNat - 0x80) = v / 64 ^ (m + 1) := by
    rw [toNat_tailByte, Nat.add_sub_cancel, h.code, div_pow_succ]
  have hmissing : p.missing ≠ 1 := by
    rw [h.missing]
    omega
  rw [decodeFrom, if_pos h.accepts, Partial.extend, if_neg hmissing, hcode, h.missing]
  rfl

theorem start_ascii (h : v ≤ 0x7F) : start (UInt8.ofNat v) = .inl (Char.ofNat v) := by
  rw [start, toNat_ofNat (by omega), if_pos (by omega)]

theorem start_two (h : 0x7F < v) (h' : v ≤ 0x7FF) :
    ∃ p, Reading v 0 p ∧ start (UInt8.ofNat (v / 64 % 0x20 + 0xC0)) = .inr p := by
  refine ⟨⟨v / 64, 1, 0x80, 0xBF⟩, ⟨by simp, rfl, le_rfl, accepts_tailByte v 0 _ _⟩, ?_⟩
  have hcode : v / 64 % 0x20 + 0xC0 - 0xC0 = v / 64 := by omega
  rw [start, toNat_ofNat (by omega), if_neg (by omega), if_neg (by omega), if_pos (by omega),
    hcode]

theorem accepts_iff {k n low high v m : ℕ} :
    Partial.accepts ⟨k, n, low, high⟩ (tailByte v m) = true ↔
      low ≤ v / 64 ^ m % 64 + 0x80 ∧ v / 64 ^ m % 64 + 0x80 ≤ high := by
  simp only [Partial.accepts, toNat_tailByte, Bool.and_eq_true, decide_eq_true_eq]

theorem start_three (h : 0x7FF < v) (h' : v ≤ 0xFFFF) (hvalid : v < 0xD800 ∨ 0xDFFF < v) :
    ∃ p, Reading v 1 p ∧ start (UInt8.ofNat (v / 4096 % 0x10 + 0xE0)) = .inr p := by
  rw [start, toNat_ofNat (by omega), if_neg (by omega), if_neg (by omega), if_neg (by omega)]
  -- the ranges of the second byte differ after the least lead byte and after the one of surrogates
  by_cases hlow : v < 0x1000
  · rw [if_pos (by omega)]
    refine ⟨_, ⟨?_, rfl, by norm_num, ?_⟩, rfl⟩
    · norm_num
      omega
    · rw [accepts_iff]
      norm_num
      omega
  · rw [if_neg (by omega)]
    by_cases hsurrogate : v / 4096 = 0xD
    · rw [if_pos (by omega)]
      refine ⟨_, ⟨?_, rfl, le_rfl, ?_⟩, rfl⟩
      · norm_num
        omega
      · rw [accepts_iff]
        norm_num
        omega
    · rw [if_neg (by omega), if_pos (by omega)]
      refine ⟨_, ⟨?_, rfl, le_rfl, accepts_tailByte v 1 _ _⟩, rfl⟩
      norm_num
      omega

theorem start_four (h : 0xFFFF < v) (h' : v < 0x110000) :
    ∃ p, Reading v 2 p ∧ start (UInt8.ofNat (v / 262144 % 0x08 + 0xF0)) = .inr p := by
  rw [start, toNat_ofNat (by omega), if_neg (by omega), if_neg (by omega), if_neg (by omega),
    if_neg (by omega), if_neg (by omega), if_neg (by omega)]
  -- the ranges of the second byte differ after the least and after the greatest lead byte
  by_cases hlow : v < 0x40000
  · rw [if_pos (by omega)]
    refine ⟨_, ⟨?_, rfl, by norm_num, ?_⟩, rfl⟩
    · norm_num
      omega
    · rw [accepts_iff]
      norm_num
      omega
  · rw [if_neg (by omega)]
    by_cases hhigh : v < 0x100000
    · rw [if_pos (by omega)]
      refine ⟨_, ⟨?_, rfl, le_rfl, accepts_tailByte v 2 _ _⟩, rfl⟩
      norm_num
      omega
    · rw [if_neg (by omega), if_pos (by omega)]
      refine ⟨_, ⟨?_, rfl, le_rfl, ?_⟩, rfl⟩
      · norm_num
        omega
      · rw [accepts_iff]
        norm_num
        omega

/-- The last `m + 1` bytes of a code point. -/
def tailBytes (v : ℕ) : ℕ → List UInt8
  | 0 => [tailByte v 0]
  | m + 1 => tailByte v (m + 1) :: tailBytes v m

@[simp] theorem length_tailBytes (v m : ℕ) : (tailBytes v m).length = m + 1 := by
  induction m with
  | zero => rfl
  | succ m ih => rw [tailBytes, length_cons, ih]

theorem Reading.all {v m : ℕ} (h : Reading v m p) (rest : List UInt8) :
    decodeFrom (some p) (tailBytes v m ++ rest) = Char.ofNat v :: decodeLossy rest := by
  induction m generalizing p with
  | zero => exact h.last rest
  | succ m ih =>
    obtain ⟨q, hq, hnext⟩ := h.next
    rw [tailBytes, cons_append, hnext, ih hq]

theorem Reading.part {v m k : ℕ} (h : Reading v m p) (hk : k ≤ m) :
    ∃ j q, Reading v j q ∧ ∀ rest,
      decodeFrom (some p) ((tailBytes v m).take k ++ rest) = decodeFrom (some q) rest := by
  induction m generalizing p k with
  | zero =>
    obtain rfl : k = 0 := by omega
    exact ⟨0, p, h, fun rest => rfl⟩
  | succ m ih =>
    rcases k with - | k
    · exact ⟨m + 1, p, h, fun rest => rfl⟩
    · obtain ⟨q, hq, hnext⟩ := h.next
      obtain ⟨j, q', hq', hpart⟩ := ih hq (Nat.le_of_succ_le_succ hk)
      refine ⟨j, q', hq', fun rest => ?_⟩
      rw [tailBytes, take_succ_cons, cons_append, hnext, hpart]

/-- A character is one byte of its own, or a first byte and the tail bytes it asks for. -/
theorem encodeChar_cases :
    String.utf8EncodeChar c = [UInt8.ofNat c.val.toNat] ∧ c.val.toNat ≤ 0x7F ∨
      ∃ m b p, Reading c.val.toNat m p ∧ start b = .inr p ∧
        String.utf8EncodeChar c = b :: tailBytes c.val.toNat m := by
  have hvalid : c.val.toNat < 0xD800 ∨ 0xDFFF < c.val.toNat ∧ c.val.toNat < 0x110000 := c.valid
  rw [String.utf8EncodeChar]
  set v := c.val.toNat
  split_ifs with h1 h2 h3
  · exact .inl ⟨rfl, h1⟩
  · obtain ⟨p, hp, hstart⟩ := start_two (by omega) h2
    exact .inr ⟨0, _, p, hp, hstart, by simp [tailBytes, tailByte]⟩
  · obtain ⟨p, hp, hstart⟩ := start_three (by omega) h3 (by omega)
    exact .inr ⟨1, _, p, hp, hstart, by simp [tailBytes, tailByte]⟩
  · obtain ⟨p, hp, hstart⟩ := @start_four v (by omega) (by omega)
    exact .inr ⟨2, _, p, hp, hstart, by simp [tailBytes, tailByte]⟩

theorem decodeLossy_encodeChar_append (rest : List UInt8) :
    decodeLossy (String.utf8EncodeChar c ++ rest) = c :: decodeLossy rest := by
  have hc : Char.ofNat c.val.toNat = c := Char.ofNat_toNat c
  rcases encodeChar_cases c with ⟨hbytes, hascii⟩ | ⟨m, b, p, hp, hstart, hbytes⟩
  · rw [hbytes, decodeLossy, singleton_append, decodeFrom, start_ascii hascii, emit_inl, hc]
    rfl
  · rw [hbytes, decodeLossy, cons_append, decodeFrom, hstart, emit_inr, hp.all, hc]

/-- Decoding inverts encoding, whatever bytes follow. -/
theorem decodeLossy_encode_append (rest : List UInt8) :
    decodeLossy (encode text ++ rest) = text ++ decodeLossy rest := by
  induction text with
  | nil => rfl
  | cons c text ih =>
    rw [encode_cons, append_assoc, decodeLossy_encodeChar_append, ih, cons_append]

@[simp] theorem decodeLossy_encode : decodeLossy (encode text) = text := by
  simpa using decodeLossy_encode_append text []

/-! ### Cutting encoded text -/

/-- Bytes that begin with no tail byte. -/
def Fresh (bytes : List UInt8) : Prop := ∀ b ∈ bytes.head?, b.toNat < 0x80

variable {rest : List UInt8}

theorem Reading.cut {v m : ℕ} (h : Reading v m p)
    (hrest : Fresh rest) : decodeFrom (some p) rest = replacement :: decodeLossy rest := by
  cases rest with
  | nil => rfl
  | cons b bs =>
    have hb : b.toNat < 0x80 := hrest b rfl
    have hlow := h.low
    have hno : ¬p.accepts b = true := by
      simp only [Partial.accepts, Bool.and_eq_true, decide_eq_true_eq]
      omega
    rw [decodeFrom, if_neg hno]
    rfl

theorem decodeLossy_take_encodeChar_append {k : ℕ} (hpos : 0 < k)
    (hk : k < c.utf8Size) (hrest : Fresh rest) :
    decodeLossy ((String.utf8EncodeChar c).take k ++ rest) = replacement :: decodeLossy rest := by
  have hsize := String.length_utf8EncodeChar c
  rcases encodeChar_cases c with ⟨hbytes, -⟩ | ⟨m, b, p, hp, hstart, hbytes⟩
  · rw [hbytes] at hsize
    simp only [length_singleton] at hsize
    omega
  · rw [hbytes, length_cons, length_tailBytes] at hsize
    obtain ⟨k, rfl⟩ := Nat.exists_eq_succ_of_ne_zero hpos.ne'
    obtain ⟨j, q, hq, hpart⟩ := hp.part (show k ≤ m by omega)
    rw [hbytes, decodeLossy, take_succ_cons, cons_append, decodeFrom, hstart, emit_inr,
      hpart, hq.cut hrest]

/-- The longest beginning of a text that has at most `n` bytes. -/
def floorPrefix (n : ℕ) : List Char → List Char
  | [] => []
  | c :: text => if c.utf8Size ≤ n then c :: floorPrefix (n - c.utf8Size) text else []

/-- The bytes of a cut character that remain at the end of the first `n` bytes of a text. -/
def cutBytes (n : ℕ) (text : List Char) : ℕ := n - size (floorPrefix n text)

/-- The bytes a replacement character takes beyond the part of a character it replaces. -/
def growth (k : ℕ) : ℕ := if k = 0 then 0 else 3 - k

theorem growth_le_two (k : ℕ) : growth k ≤ 2 := by
  rw [growth]
  split_ifs <;> omega

/-- What stands for a cut character of which `k` bytes are there. -/
def cutMark (k : ℕ) : List Char := if k = 0 then [] else [replacement]

theorem floorPrefix_of_size_le {text : List Char} (h : size text ≤ n) :
    floorPrefix n text = text := by
  induction text generalizing n with
  | nil => rfl
  | cons c text ih =>
    rw [size_cons] at h
    rw [floorPrefix, if_pos (by omega), ih (by omega)]

theorem size_floorPrefix_le (n : ℕ) (text : List Char) : size (floorPrefix n text) ≤ n := by
  induction text generalizing n with
  | nil => simp [floorPrefix]
  | cons c text ih =>
    rw [floorPrefix]
    split_ifs with hc
    · have hrest := ih (n - c.utf8Size)
      rw [size_cons]
      omega
    · simp

theorem floorPrefix_isPrefix (n : ℕ) (text : List Char) : floorPrefix n text <+: text := by
  induction text generalizing n with
  | nil => exact prefix_rfl
  | cons c text ih =>
    rw [floorPrefix]
    split_ifs with hc
    · exact cons_prefix_cons.2 ⟨rfl, ih _⟩
    · exact nil_prefix

theorem floorPrefix_append {c : Char} {k : ℕ} (hk : k < c.utf8Size)
    (rest : List Char) : floorPrefix (size text + k) (text ++ c :: rest) = text := by
  induction text with
  | nil => simp [floorPrefix, hk]
  | cons d text ih =>
    have hsub : d.utf8Size + size text + k - d.utf8Size = size text + k := by omega
    rw [size_cons, cons_append, floorPrefix, if_pos (by omega), hsub, ih]

theorem exists_cut {text : List Char} (h : n < size text) :
    ∃ c rest, text = floorPrefix n text ++ c :: rest ∧ cutBytes n text < c.utf8Size := by
  induction text generalizing n with
  | nil => simp at h
  | cons c text ih =>
    by_cases hc : c.utf8Size ≤ n
    · rw [size_cons] at h
      obtain ⟨d, rest, htext, hcut⟩ := @ih (n - c.utf8Size) (by omega)
      refine ⟨d, rest, ?_, ?_⟩
      · rw [floorPrefix, if_pos hc, cons_append, ← htext]
      · rw [cutBytes] at hcut ⊢
        rw [floorPrefix, if_pos hc, size_cons]
        omega
    · refine ⟨c, text, ?_, ?_⟩
      · rw [floorPrefix, if_neg hc, nil_append]
      · rw [cutBytes, floorPrefix, if_neg hc, size_nil]
        omega

theorem take_encode_append {c : Char} {k : ℕ} (hk : k ≤ c.utf8Size)
    (rest : List Char) :
    (encode (text ++ c :: rest)).take (size text + k) =
      encode text ++ (String.utf8EncodeChar c).take k := by
  rw [encode_append, ← length_encode, take_length_add_append, encode_cons,
    take_append_of_le_length (by rw [String.length_utf8EncodeChar]; exact hk)]

theorem take_encode {text : List Char} (h : n < size text) :
    ∃ c rest, text = floorPrefix n text ++ c :: rest ∧ cutBytes n text < c.utf8Size ∧
      (encode text).take n =
        encode (floorPrefix n text) ++ (String.utf8EncodeChar c).take (cutBytes n text) := by
  obtain ⟨c, rest, htext, hcut⟩ := exists_cut h
  refine ⟨c, rest, htext, hcut, ?_⟩
  have hle := size_floorPrefix_le n text
  have hn : n = size (floorPrefix n text) + cutBytes n text := by
    rw [cutBytes]
    omega
  calc (encode text).take n
      = (encode (floorPrefix n text ++ c :: rest)).take
          (size (floorPrefix n text) + cutBytes n text) := by rw [← htext, ← hn]
    _ = _ := take_encode_append _ hcut.le rest

/-- Decoding the first `n` bytes of a text: the whole characters among them, a replacement
character if the cut is inside one, and then whatever follows. -/
theorem decodeLossy_take_encode_append {text : List Char} (h : n ≤ size text)
    (hrest : Fresh rest) :
    decodeLossy ((encode text).take n ++ rest) =
      floorPrefix n text ++ cutMark (cutBytes n text) ++ decodeLossy rest := by
  rcases h.lt_or_eq with h | rfl
  · obtain ⟨c, after, htext, hcut, htake⟩ := take_encode h
    rw [htake, append_assoc, decodeLossy_encode_append, append_assoc, cutMark]
    split_ifs with hk
    · rw [hk, take_zero, nil_append, nil_append]
    · rw [decodeLossy_take_encodeChar_append c (by omega) hcut hrest, singleton_append]
  · have hfloor := floorPrefix_of_size_le (le_refl (size text))
    have hcut : cutBytes (size text) text = 0 := by rw [cutBytes, hfloor, Nat.sub_self]
    rw [hcut, hfloor, cutMark, if_pos rfl, append_nil, ← length_encode, take_length,
      decodeLossy_encode_append]

theorem cutBytes_le_three {text : List Char} (h : n < size text) :
    cutBytes n text ≤ 3 := by
  obtain ⟨c, -, -, hcut⟩ := exists_cut h
  have hsize := c.utf8Size_le_four
  omega

/-- The size of the decoded first `n` bytes. -/
theorem size_cut {text : List Char} (h : n ≤ size text) :
    size (floorPrefix n text ++ cutMark (cutBytes n text)) = n + growth (cutBytes n text) := by
  have hle := size_floorPrefix_le n text
  rcases h.lt_or_eq with h | rfl
  · have hthree := cutBytes_le_three h
    rw [size_append, cutMark, growth]
    split_ifs with hk
    · rw [cutBytes] at hk
      rw [size_nil]
      omega
    · have hrep : size [replacement] = 3 := by decide
      rw [hrep]
      rw [cutBytes] at hk hthree ⊢
      omega
  · have hfloor := floorPrefix_of_size_le (le_refl (size text))
    have hcut : cutBytes (size text) text = 0 := by rw [cutBytes, hfloor, Nat.sub_self]
    rw [hcut, hfloor, cutMark, growth, if_pos rfl, if_pos rfl, append_nil, Nat.add_zero]

end Utf8
