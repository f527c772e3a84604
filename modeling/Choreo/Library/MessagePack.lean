import Mathlib.Tactic

/-!
# Serialization as MessagePack

A serializer that writes values in the MessagePack format, structures as maps from the names of
their fields and variants by name. A program only relies on how long its output is: each value
takes the shortest header that holds its length or its number. The format itself is one such
serializer.
-/

namespace MessagePack

open List

/-! ### Headers and numbers -/

variable (n : ℕ)

/-- The header of a text of `n` bytes. -/
def strHeader : ℕ :=
  if n < 32 then 1 else if n < 2 ^ 8 then 2 else if n < 2 ^ 16 then 3 else 5

/-- The header of a sequence of `n` elements. -/
def seqHeader : ℕ := if n < 16 then 1 else if n < 2 ^ 16 then 3 else 5

/-- The header of a map of `n` entries. -/
def mapHeader : ℕ := if n < 16 then 1 else if n < 2 ^ 16 then 3 else 5

/-- The bytes of a natural number. -/
def uintWidth : ℕ :=
  if n < 2 ^ 7 then 1 else if n < 2 ^ 8 then 2 else if n < 2 ^ 16 then 3
  else if n < 2 ^ 32 then 5 else 9

/-- The bytes of an integer. -/
def intWidth (i : ℤ) : ℕ :=
  if 0 ≤ i then uintWidth i.toNat
  else if -32 ≤ i then 1 else if -2 ^ 7 ≤ i then 2 else if -2 ^ 15 ≤ i then 3
  else if -2 ^ 31 ≤ i then 5 else 9

theorem strHeader_le : strHeader n ≤ 5 := by
  rw [strHeader]
  split_ifs <;> omega

theorem seqHeader_le : seqHeader n ≤ 5 := by
  rw [seqHeader]
  split_ifs <;> omega

theorem uintWidth_le : uintWidth n ≤ 9 := by
  rw [uintWidth]
  split_ifs <;> omega

theorem uintWidth_le_of_lt {n : ℕ} (h : n < 2 ^ 32) : uintWidth n ≤ 5 := by
  rw [uintWidth]
  split_ifs <;> omega

theorem intWidth_le (i : ℤ) : intWidth i ≤ 9 := by
  have hnat := uintWidth_le i.toNat
  rw [intWidth]
  split_ifs <;> omega

/-! ### Serializers -/

/-- What a serializer writes for each kind of value, and how long that is. -/
structure Serializer where
  none : List UInt8
  bool : Bool → List UInt8
  uint : UInt64 → List UInt8
  int : Int64 → List UInt8
  str : String → List UInt8
  seq : List (List UInt8) → List UInt8
  map : List (List UInt8 × List UInt8) → List UInt8
  length_none : none.length = 1
  length_bool : ∀ b, (bool b).length = 1
  length_uint : ∀ n, (uint n).length = uintWidth n.toNat
  length_int : ∀ i, (int i).length = intWidth i.toInt
  length_str : ∀ text, (str text).length = strHeader text.utf8ByteSize + text.utf8ByteSize
  length_seq : ∀ items, (seq items).length = seqHeader items.length + (items.map List.length).sum
  length_map : ∀ entries, (map entries).length =
    mapHeader entries.length + (entries.map fun entry => entry.1.length + entry.2.length).sum

namespace Serializer

variable (s : Serializer)

/-- A value that may be absent. -/
def option {α : Type} (write : α → List UInt8) (value : Option α) : List UInt8 :=
  value.elim s.none write

/-- A structure: a map from the names of its fields. -/
def struct (fields : List (String × List UInt8)) : List UInt8 :=
  s.map (fields.map fun field => (s.str field.1, field.2))

/-- A variant without data. -/
def unitVariant (name : String) : List UInt8 := s.str name

/-- A variant with one value. -/
def newtypeVariant (name : String) (value : List UInt8) : List UInt8 := s.map [(s.str name, value)]

/-- A variant with named fields. -/
def structVariant (name : String) (fields : List (String × List UInt8)) : List UInt8 :=
  s.newtypeVariant name (s.struct fields)

/-- Bytes, each written as a number. -/
def byteSeq (bytes : List UInt8) : List UInt8 := s.seq (bytes.map fun b => s.uint b.toUInt64)

end Serializer

/-- The bytes of a name of a field or a variant. -/
def nameSize (name : String) : ℕ := strHeader name.utf8ByteSize + name.utf8ByteSize

/-- The bytes of the names of fields. -/
def nameSizes (names : List String) : ℕ := (names.map nameSize).sum

/-- The bytes of the values of fields. -/
def valueSizes : List (String × List UInt8) → ℕ
  | [] => 0
  | field :: fields => field.2.length + valueSizes fields

/-- The bytes that take two as a number. -/
def wideBytes (bytes : List UInt8) : ℕ := bytes.countP fun b => 0x80 ≤ b.toNat

namespace Serializer

variable (s : Serializer)

theorem length_struct (fields : List (String × List UInt8)) :
    (s.struct fields).length =
      mapHeader fields.length + nameSizes (fields.map Prod.fst) + valueSizes fields := by
  rw [struct, s.length_map, List.length_map, map_map, nameSizes, map_map, Nat.add_assoc]
  congr 1
  induction fields with
  | nil => rfl
  | cons field fields ih =>
    simp only [map_cons, sum_cons, Function.comp_apply, s.length_str, nameSize,
      valueSizes] at ih ⊢
    omega

theorem length_newtypeVariant (name : String) (value : List UInt8) :
    (s.newtypeVariant name value).length = 1 + nameSize name + value.length := by
  have hone : mapHeader [(s.str name, value)].length = 1 := rfl
  rw [newtypeVariant, s.length_map, hone, nameSize]
  simp only [map_cons, map_nil, sum_cons, sum_nil, s.length_str]
  omega

theorem length_structVariant (name : String) (fields : List (String × List UInt8)) :
    (s.structVariant name fields).length =
      1 + nameSize name +
        (mapHeader fields.length + nameSizes (fields.map Prod.fst) + valueSizes fields) := by
  rw [structVariant, length_newtypeVariant, length_struct]

theorem length_byteSeq (bytes : List UInt8) :
    (s.byteSeq bytes).length = seqHeader bytes.length + bytes.length + wideBytes bytes := by
  rw [byteSeq, s.length_seq, List.length_map, map_map, Nat.add_assoc]
  congr 1
  induction bytes with
  | nil => rfl
  | cons b bytes ih =>
    have hb := b.toNat_lt
    rw [map_cons, sum_cons, ih, wideBytes, wideBytes, countP_cons,
      length_cons, Function.comp_apply, s.length_uint, UInt8.toNat_toUInt64, uintWidth]
    split_ifs <;> simp_all <;> omega

end Serializer

/-! ### The format -/

/-- The last `k` bytes of a number, the most significant first. -/
def bigEndian (k n : ℕ) : List UInt8 :=
  (List.range k).reverse.map fun i => UInt8.ofNat (n / 256 ^ i)

@[simp] theorem length_bigEndian (k n : ℕ) : (bigEndian k n).length = k := by
  simp [bigEndian]

/-- A natural number in the format. -/
def formatUint : List UInt8 :=
  if n < 2 ^ 7 then [UInt8.ofNat n]
  else if n < 2 ^ 8 then 0xCC :: bigEndian 1 n
  else if n < 2 ^ 16 then 0xCD :: bigEndian 2 n
  else if n < 2 ^ 32 then 0xCE :: bigEndian 4 n
  else 0xCF :: bigEndian 8 n

/-- An integer in the format. -/
def formatInt (i : ℤ) : List UInt8 :=
  if 0 ≤ i then formatUint i.toNat
  else if -32 ≤ i then bigEndian 1 (i + 2 ^ 8).toNat
  else if -2 ^ 7 ≤ i then 0xD0 :: bigEndian 1 (i + 2 ^ 8).toNat
  else if -2 ^ 15 ≤ i then 0xD1 :: bigEndian 2 (i + 2 ^ 16).toNat
  else if -2 ^ 31 ≤ i then 0xD2 :: bigEndian 4 (i + 2 ^ 32).toNat
  else 0xD3 :: bigEndian 8 (i + 2 ^ 64).toNat

/-- The header of a text in the format. -/
def formatStrHeader : List UInt8 :=
  if n < 32 then [UInt8.ofNat (0xA0 + n)]
  else if n < 2 ^ 8 then 0xD9 :: bigEndian 1 n
  else if n < 2 ^ 16 then 0xDA :: bigEndian 2 n
  else 0xDB :: bigEndian 4 n

/-- The header of a sequence or a map in the format, from its three markers. -/
def formatHeader (small middle large : UInt8) (n : ℕ) : List UInt8 :=
  if n < 16 then [small + UInt8.ofNat n]
  else if n < 2 ^ 16 then middle :: bigEndian 2 n
  else large :: bigEndian 4 n

theorem length_formatUint : (formatUint n).length = uintWidth n := by
  rw [formatUint, uintWidth]
  split_ifs <;> simp

theorem length_formatInt (i : ℤ) : (formatInt i).length = intWidth i := by
  rw [formatInt, intWidth]
  split_ifs <;> simp [length_formatUint]

theorem length_formatStrHeader : (formatStrHeader n).length = strHeader n := by
  rw [formatStrHeader, strHeader]
  split_ifs <;> simp

theorem length_formatHeader (small middle large : UInt8) (n : ℕ) :
    (formatHeader small middle large n).length = seqHeader n := by
  rw [formatHeader, seqHeader]
  split_ifs <;> simp

/-- The format as a serializer. -/
def format : Serializer where
  none := [0xC0]
  bool b := [if b then 0xC3 else 0xC2]
  uint n := formatUint n.toNat
  int i := formatInt i.toInt
  str text := formatStrHeader text.utf8ByteSize ++ text.toUTF8.data.toList
  seq items := formatHeader 0x90 0xDC 0xDD items.length ++ items.flatten
  map entries :=
    formatHeader 0x80 0xDE 0xDF entries.length ++ entries.flatMap fun entry => entry.1 ++ entry.2
  length_none := rfl
  length_bool _ := rfl
  length_uint n := length_formatUint n.toNat
  length_int i := length_formatInt i.toInt
  length_str text := by
    rw [length_append, length_formatStrHeader]
    rfl
  length_seq items := by
    rw [length_append, length_formatHeader, length_flatten]
  length_map entries := by
    rw [length_append, length_formatHeader, length_flatMap]
    simp only [length_append]
    rfl

end MessagePack
