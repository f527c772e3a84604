import Choreo.Library.Protobuf

/-!
# The postcard format

A compact binary format without names. The fields of a record stand one after the other. Numbers are
written in groups of seven bits, texts and sequences with their length before them, an option with a
byte that says whether there is a value, and a variant by its number. A value is read from the front
of the bytes, and what follows it is left.
-/

namespace Postcard

open List Option

open Protobuf (varint)

/-- How a type is written, and how it is read from the front of bytes. -/
structure Format (α : Type) where
  write : α → List UInt8
  read : List UInt8 → Option (α × List UInt8)
  read_write : ∀ a rest, read (write a ++ rest) = some (a, rest)

/-- What is written alone is read to the end. -/
theorem Format.read_write_nil {α : Type} (F : Format α) (a : α) :
    F.read (F.write a) = some (a, []) := by
  rw [← append_nil (F.write a), F.read_write]

/-! ### Numbers -/

/-- Reads a number in at most the given number of groups; the last of them is at most `top`. -/
def readGroups (top : ℕ) : ℕ → List UInt8 → Option (ℕ × List UInt8)
  | 0, _ => none
  | _ + 1, [] => none
  | groups + 1, b :: rest =>
    if b.toNat < 128 then
      if groups = 0 ∧ top < b.toNat then none else some (b.toNat, rest)
    else (readGroups top groups rest).map fun read => (b.toNat - 128 + 128 * read.1, read.2)

/-- A number that fits into its groups is read back. -/
theorem readGroups_varint {top : ℕ} (htop : top < 128) (groups : ℕ) {n : ℕ}
    (hn : n < 128 ^ groups * (top + 1)) (rest : List UInt8) :
    readGroups top (groups + 1) (varint n ++ rest) = some (n, rest) := by
  induction groups generalizing n with
  | zero =>
    rw [varint, if_pos (by omega), singleton_append, readGroups,
      Protobuf.toNat_ofNat_of_lt (by omega), if_pos (by omega), if_neg (by omega)]
  | succ groups ih =>
    rw [varint]
    split_ifs with h
    · rw [singleton_append, readGroups, Protobuf.toNat_ofNat_of_lt (by omega), if_pos h,
        if_neg (by omega)]
    · have hjoin : n % 128 + 128 - 128 + 128 * (n / 128) = n := by omega
      have hrest : n / 128 < 128 ^ groups * (top + 1) := by
        rw [Nat.pow_succ', Nat.mul_assoc] at hn
        exact Nat.div_lt_of_lt_mul hn
      rw [cons_append, readGroups, Protobuf.toNat_ofNat_of_lt (by omega), if_neg (by omega),
        ih hrest, map_some, hjoin]

/-- A number that does not fit into its groups is not read. -/
theorem readGroups_varint_of_le {top : ℕ} (groups : ℕ) {n : ℕ}
    (hn : 128 ^ groups * (top + 1) ≤ n) (rest : List UInt8) :
    readGroups top (groups + 1) (varint n ++ rest) = none := by
  induction groups generalizing n with
  | zero =>
    rw [varint]
    split_ifs with h
    · rw [singleton_append, readGroups, Protobuf.toNat_ofNat_of_lt (by omega), if_pos h,
        if_pos ⟨rfl, by omega⟩]
    · rw [cons_append, readGroups, Protobuf.toNat_ofNat_of_lt (by omega),
        if_neg (by omega)]
      rfl
  | succ groups ih =>
    rw [Nat.pow_succ', Nat.mul_assoc] at hn
    have hpos : 0 < 128 ^ groups * (top + 1) := Nat.mul_pos (Nat.pow_pos (by omega)) (by omega)
    have hrest : 128 ^ groups * (top + 1) ≤ n / 128 := by
      rw [Nat.le_div_iff_mul_le (by omega), Nat.mul_comm]
      exact hn
    rw [varint, if_neg (by omega), cons_append, readGroups,
      Protobuf.toNat_ofNat_of_lt (by omega), if_neg (by omega), ih hrest, map_none]

/-- Numbers of 32 bits. -/
def u32 : Format UInt32 where
  write n := varint n.toNat
  read stream := (readGroups 15 5 stream).map fun read => (UInt32.ofNat read.1, read.2)
  read_write n rest := by
    rw [readGroups_varint (by decide) 4 n.toNat_lt, map_some, UInt32.ofNat_toNat]

/-- Numbers of 64 bits, and lengths. -/
def u64 : Format UInt64 where
  write n := varint n.toNat
  read stream := (readGroups 1 10 stream).map fun read => (UInt64.ofNat read.1, read.2)
  read_write n rest := by
    rw [readGroups_varint (by decide) 9 n.toNat_lt, map_some, UInt64.ofNat_toNat]

/-- A length is written as a number. -/
theorem u64_write {n : ℕ} (hn : n < 2 ^ 64) : u64.write (UInt64.ofNat n) = varint n := by
  have hwrite (m : UInt64) : u64.write m = varint m.toNat := rfl
  rw [hwrite, UInt64.toNat_ofNat_of_lt' hn]

/-- A small number is one byte. -/
theorem u32_read_cons {b : UInt8} (hb : b.toNat < 128) (rest : List UInt8) :
    u32.read (b :: rest) = some (UInt32.ofNat b.toNat, rest) := by
  have hread : readGroups 15 5 (b :: rest) = some (b.toNat, rest) := by
    rw [readGroups, if_pos hb, if_neg (by omega)]
  exact congrArg (Option.map _) hread

/-! ### Bytes -/

/-- A truth value in one byte. -/
def bool : Format Bool where
  write b := if b then [1] else [0]
  read
    | [] => none
    | b :: rest => if b = 0 then some (false, rest) else if b = 1 then some (true, rest) else none
  read_write b rest := by rcases b <;> rfl

/-- Bytes whose number is a length. -/
abbrev Blob := { data : List UInt8 // data.length < 2 ^ 64 }

/-- A text whose size is a length. -/
abbrev Text := { text : String // text.utf8ByteSize < 2 ^ 64 }

/-- The bytes of a text. -/
def Text.blob (text : Text) : Blob := ⟨text.1.toByteArray.data.toList, text.2⟩

/-- The text of valid bytes. -/
def Blob.text (blob : Blob) : Option Text :=
  if h : (ByteArray.mk blob.1.toArray).IsValidUTF8 then
    some ⟨⟨⟨blob.1.toArray⟩, h⟩, blob.2⟩
  else none

theorem Text.text_blob (text : Text) : text.blob.text = some text := by
  have hvalid : (ByteArray.mk text.blob.1.toArray).IsValidUTF8 := text.1.isValidUTF8
  rw [Blob.text, dif_pos hvalid]
  rfl

/-- Bytes with their number before them. -/
def bytes : Format Blob where
  write blob := varint blob.1.length ++ blob.1
  read stream :=
    match u64.read stream with
    | none => none
    | some (n, rest) =>
      if rest.length < n.toNat then none
      else some (⟨rest.take n.toNat, lt_of_le_of_lt (length_take_le _ _) n.toNat_lt⟩,
        rest.drop n.toNat)
  read_write blob rest := by
    rw [append_assoc, ← u64_write blob.2, u64.read_write]
    simp [UInt64.toNat_ofNat_of_lt' blob.2]

/-- A text with its size before it. -/
def str : Format Text where
  write text := bytes.write text.blob
  read stream := (bytes.read stream).bind fun read => read.1.text.map fun text => (text, read.2)
  read_write text rest := by
    rw [bytes.read_write, bind_some, Text.text_blob, map_some]

/-! ### Formats of formats -/

section Formats

variable {α β : Type} (F : Format α) (G : Format β)

/-- A value that may be absent. -/
def option : Format (Option α) where
  write
    | none => [0]
    | some a => 1 :: F.write a
  read
    | [] => none
    | b :: rest =>
      if b = 0 then some (none, rest)
      else if b = 1 then (F.read rest).map fun read => (some read.1, read.2)
      else none
  read_write a rest := by
    rcases a with _ | a
    · rfl
    · simp [F.read_write]

/-- A value of one type and then a value of another. -/
def Format.pair : Format (α × β) where
  write a := F.write a.1 ++ G.write a.2
  read stream :=
    (F.read stream).bind fun first =>
      (G.read first.2).map fun second => ((first.1, second.1), second.2)
  read_write a rest := by
    rw [append_assoc, F.read_write, bind_some, G.read_write, map_some]

theorem Format.pair_read_eq_some {stream rest : List UInt8} {a : α × β} :
    (F.pair G).read stream = some (a, rest) ↔
      ∃ middle, F.read stream = some (a.1, middle) ∧ G.read middle = some (a.2, rest) := by
  refine bind_eq_some_iff.trans ⟨?_, ?_⟩
  · rintro ⟨⟨first, middle⟩, hfirst, hmap⟩
    obtain ⟨read, hsecond, heq⟩ := map_eq_some_iff.1 hmap
    obtain ⟨rfl, rfl⟩ := Prod.mk.inj heq
    exact ⟨middle, hfirst, hsecond⟩
  · rintro ⟨middle, hfirst, hsecond⟩
    exact ⟨_, hfirst, map_eq_some_iff.2 ⟨_, hsecond, rfl⟩⟩

/-- A record, written as its fields in their order. -/
def Format.record (make : α → β) (fields : β → α) (hfields : ∀ b, make (fields b) = b) :
    Format β where
  write b := F.write (fields b)
  read stream := (F.read stream).map fun read => (make read.1, read.2)
  read_write b rest := by rw [F.read_write, map_some, hfields]

/-- A variant without fields, written as its number. -/
def enum (number : α → UInt32) (ofNumber : UInt32 → Option α)
    (hnumber : ∀ a, ofNumber (number a) = some a) : Format α where
  write a := u32.write (number a)
  read stream := (u32.read stream).bind fun read => (ofNumber read.1).map fun a => (a, read.2)
  read_write a rest := by rw [u32.read_write, bind_some, hnumber, map_some]

/-- A sequence whose number of items is a length. -/
abbrev Seq (α : Type) := { items : List α // items.length < 2 ^ 64 }

/-- Reads a number of items. -/
def readSeq : (n : ℕ) → List UInt8 → Option ({ items : List α // items.length = n } × List UInt8)
  | 0, stream => some (⟨[], rfl⟩, stream)
  | n + 1, stream =>
    match F.read stream with
    | none => none
    | some (a, rest) =>
      (readSeq n rest).map fun read => (⟨a :: read.1.1, congrArg (· + 1) read.1.2⟩, read.2)

/-- A sequence is read back. -/
theorem readSeq_write {n : ℕ} {items : List α} (hn : items.length = n) (rest : List UInt8) :
    readSeq F n (items.flatMap F.write ++ rest) = some (⟨items, hn⟩, rest) := by
  induction items generalizing n with
  | nil =>
    subst hn
    rfl
  | cons a items ih =>
    obtain ⟨m, rfl⟩ : ∃ m, n = m + 1 := ⟨items.length, hn.symm⟩
    rw [flatMap_cons, append_assoc, readSeq, F.read_write]
    dsimp only
    rw [ih (Nat.succ.inj hn), map_some]

/-- A sequence with its length before it. -/
def seq : Format (Seq α) where
  write items := varint items.1.length ++ items.1.flatMap F.write
  read stream :=
    match u64.read stream with
    | none => none
    | some (n, rest) =>
      (readSeq F n.toNat rest).map fun read =>
        (⟨read.1.1, lt_of_eq_of_lt read.1.2 n.toNat_lt⟩, read.2)
  read_write items rest := by
    rw [append_assoc, ← u64_write items.2, u64.read_write]
    dsimp only
    rw [readSeq_write F (UInt64.toNat_ofNat_of_lt' items.2).symm, map_some]

end Formats

end Postcard
