import Mathlib.Data.List.Basic
import Mathlib.Tactic.Ring

/-!
# Fields of a protobuf message

A message on the wire is a sequence of fields. A field is its number with the kind of its value,
and the value: a number in groups of seven bits, a number in four bytes, or bytes with their
length. This file writes and reads sequences of fields; what they mean is up to the message.
-/

namespace Protobuf

open List Option

/-- A number in groups of seven bits, the lowest first; the last group has its high bit clear. -/
def varint (n : ℕ) : List UInt8 :=
  if n < 128 then [UInt8.ofNat n] else UInt8.ofNat (n % 128 + 128) :: varint (n / 128)
termination_by n
decreasing_by omega

/-- Reads a number in groups of seven bits, and what follows it. -/
def readVarint : List UInt8 → Option (ℕ × List UInt8)
  | [] => none
  | b :: rest =>
    if b.toNat < 128 then some (b.toNat, rest)
    else (readVarint rest).map fun read => (b.toNat - 128 + 128 * read.1, read.2)

theorem toNat_ofNat_of_lt {n : ℕ} (h : n < 256) : (UInt8.ofNat n).toNat = n :=
  UInt8.toNat_ofNat_of_lt' (by rw [UInt8.size]; omega)

theorem readVarint_varint (n : ℕ) (rest : List UInt8) :
    readVarint (varint n ++ rest) = some (n, rest) := by
  induction n using Nat.strongRecOn with
  | ind n ih =>
    rw [varint]
    split_ifs with h
    · rw [singleton_append, readVarint, toNat_ofNat_of_lt (by omega), if_pos h]
    · have hjoin : n % 128 + 128 - 128 + 128 * (n / 128) = n := by omega
      rw [cons_append, readVarint, toNat_ofNat_of_lt (by omega), if_neg (by omega),
        ih (n / 128) (by omega), map_some, hjoin]

theorem varint_ne_nil (n : ℕ) : varint n ≠ [] := by
  rw [varint]
  split_ifs <;> simp

/-- A value of one of the three kinds. -/
inductive Value
  | varint (n : ℕ)
  | bytes (data : List UInt8)
  | fixed32 (n : ℕ)
deriving DecidableEq, Repr

/-- A value under the number of its field. -/
abbrev Field := ℕ × Value

/-- The kind of a value, as it stands beside the field number. -/
def Value.wireType : Value → ℕ
  | .varint _ => 0
  | .bytes _ => 2
  | .fixed32 _ => 5

/-- Four bytes, the lowest first. -/
def littleEndian (n : ℕ) : List UInt8 :=
  [UInt8.ofNat n, UInt8.ofNat (n / 256), UInt8.ofNat (n / 65536), UInt8.ofNat (n / 16777216)]

/-- The bytes of a value. -/
def Value.encode : Value → List UInt8
  | .varint n => Protobuf.varint n
  | .bytes data => Protobuf.varint data.length ++ data
  | .fixed32 n => littleEndian n

/-- The bytes of a field. -/
def encodeField (field : Field) : List UInt8 :=
  varint (8 * field.1 + field.2.wireType) ++ field.2.encode

variable (fields : List Field)

/-- The bytes of a sequence of fields. -/
def encode : List UInt8 := fields.flatMap encodeField

/-- Reads a value of a kind, and what follows it. -/
def readValue (wireType : ℕ) (stream : List UInt8) : Option (Value × List UInt8) :=
  match wireType with
  | 0 => (readVarint stream).map fun read => (.varint read.1, read.2)
  | 2 =>
    match readVarint stream with
    | none => none
    | some (length, rest) =>
      if rest.length < length then none else some (.bytes (rest.take length), rest.drop length)
  | 5 =>
    match stream with
    | a :: b :: c :: d :: rest =>
      some (.fixed32 (a.toNat + 256 * b.toNat + 65536 * c.toNat + 16777216 * d.toNat), rest)
    | _ => none
  | _ => none

/-- Reads a field, and what follows it. -/
def readField (stream : List UInt8) : Option (Field × List UInt8) :=
  match readVarint stream with
  | none => none
  | some (key, rest) => (readValue (key % 8) rest).map fun read => ((key / 8, read.1), read.2)

/-- Reads fields to the end, at most as many as there is fuel. -/
def readFields : ℕ → List UInt8 → Option (List Field)
  | _, [] => some []
  | 0, _ :: _ => none
  | fuel + 1, stream =>
    match readField stream with
    | none => none
    | some (field, rest) => (readFields fuel rest).map fun fields => field :: fields

/-- The fields of a message. Every field takes at least one byte. -/
def decode (stream : List UInt8) : Option (List Field) := readFields stream.length stream

/-- A value that its kind has room for. -/
def Value.Fits : Value → Prop
  | .fixed32 n => n < 2 ^ 32
  | .varint _ | .bytes _ => True

theorem readValue_encode (value : Value) (hfits : value.Fits) (rest : List UInt8) :
    readValue value.wireType (value.encode ++ rest) = some (value, rest) := by
  rcases value with n | data | n
  · rw [Value.wireType, Value.encode, readValue, readVarint_varint, map_some]
  · simp only [Value.wireType, Value.encode, readValue, append_assoc, readVarint_varint,
      length_append, take_left, drop_left]
    rw [if_neg (by omega)]
  · have hn : n < 2 ^ 32 := hfits
    simp only [Value.wireType, Value.encode, readValue, littleEndian, cons_append,
      nil_append, UInt8.toNat_ofNat']
    have hsum : n % 256 + 256 * (n / 256 % 256) + 65536 * (n / 65536 % 256) +
        16777216 * (n / 16777216 % 256) = n := by omega
    simp only [Nat.reducePow, hsum]

theorem readField_encodeField (field : Field) (hfits : field.2.Fits) (rest : List UInt8) :
    readField (encodeField field ++ rest) = some (field, rest) := by
  obtain ⟨number, value⟩ := field
  have hkind : value.wireType < 8 := by rcases value <;> rw [Value.wireType] <;> omega
  have hnumber : (8 * number + value.wireType) / 8 = number := by omega
  have hwire : (8 * number + value.wireType) % 8 = value.wireType := by omega
  rw [encodeField, readField, append_assoc, readVarint_varint]
  simp only [hnumber, hwire, readValue_encode value hfits, map_some]

theorem readFields_encode (hfits : ∀ field ∈ fields, field.2.Fits)
    (fuel : ℕ) (hfuel : fields.length ≤ fuel) : readFields fuel (encode fields) = some fields := by
  induction fields generalizing fuel with
  | nil => rw [encode, flatMap_nil, readFields]
  | cons field fields ih =>
    obtain ⟨fuel, rfl⟩ : ∃ k, fuel = k + 1 := ⟨fuel - 1, by simp at hfuel; omega⟩
    have hne : encodeField field ++ encode fields ≠ [] := by
      simp [encodeField, varint_ne_nil]
    obtain ⟨b, stream, hstream⟩ := exists_cons_of_ne_nil hne
    have hread := readField_encodeField field (hfits field mem_cons_self) (encode fields)
    rw [hstream] at hread
    rw [encode, flatMap_cons, ← encode, hstream, readFields]
    · simp only [hread]
      rw [ih (fun f hf => hfits f (mem_cons_of_mem _ hf)) fuel (by simpa using hfuel),
        map_some]
    · exact cons_ne_nil b stream

theorem length_le_encode : fields.length ≤ (encode fields).length := by
  induction fields with
  | nil => simp
  | cons field fields ih =>
    have hpos : 0 < (encodeField field).length := by
      rw [encodeField, length_append]
      have := length_pos_iff.2 (varint_ne_nil (8 * field.1 + field.2.wireType))
      omega
    rw [encode, flatMap_cons, ← encode, length_append, length_cons]
    omega

/-- The fields that were written are read back. -/
theorem decode_encode (hfits : ∀ field ∈ fields, field.2.Fits) :
    decode (encode fields) = some fields :=
  readFields_encode fields hfits _ (length_le_encode fields)

end Protobuf
