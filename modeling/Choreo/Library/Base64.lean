import Mathlib.Data.List.Basic

/-!
# Base64

Bytes in the standard alphabet of 64 characters, with padding: three bytes make four digits, and
what is left at the end is filled up with `=`. Reading asks for the padding and for zeros in the
bits that the last digit does not need.
-/

namespace Base64

/-- A digit as a character: upper case, lower case, decimal digits, and two signs. -/
def digit (d : ℕ) : Char :=
  if d < 26 then Char.ofNat (d + 65)
  else if d < 52 then Char.ofNat (d + 71)
  else if d < 62 then Char.ofNat (d - 4)
  else if d = 62 then '+'
  else '/'

/-- The value of a character. -/
def value (c : Char) : Option ℕ :=
  if 65 ≤ c.toNat ∧ c.toNat ≤ 90 then some (c.toNat - 65)
  else if 97 ≤ c.toNat ∧ c.toNat ≤ 122 then some (c.toNat - 71)
  else if 48 ≤ c.toNat ∧ c.toNat ≤ 57 then some (c.toNat + 4)
  else if c = '+' then some 62
  else if c = '/' then some 63
  else none

/-- Four characters for three bytes. -/
def encode : List UInt8 → List Char
  | [] => []
  | [a] => [digit (a.toNat / 4), digit (a.toNat % 4 * 16), '=', '=']
  | [a, b] =>
    [digit (a.toNat / 4), digit (a.toNat % 4 * 16 + b.toNat / 16), digit (b.toNat % 16 * 4), '=']
  | a :: b :: c :: rest =>
    digit (a.toNat / 4) :: digit (a.toNat % 4 * 16 + b.toNat / 16) ::
      digit (b.toNat % 16 * 4 + c.toNat / 64) :: digit (c.toNat % 64) :: encode rest

/-- The byte in two characters before padding. -/
def decodeOne (c₀ c₁ : Char) : Option (List UInt8) :=
  match value c₀, value c₁ with
  | some d₀, some d₁ => if d₁ % 16 = 0 then some [UInt8.ofNat (d₀ * 4 + d₁ / 16)] else none
  | _, _ => none

/-- The bytes in three characters before padding. -/
def decodeTwo (c₀ c₁ c₂ : Char) : Option (List UInt8) :=
  match value c₀, value c₁, value c₂ with
  | some d₀, some d₁, some d₂ =>
    if d₂ % 4 = 0 then
      some [UInt8.ofNat (d₀ * 4 + d₁ / 16), UInt8.ofNat (d₁ % 16 * 16 + d₂ / 4)]
    else none
  | _, _, _ => none

/-- The bytes in four characters. -/
def decodeThree (c₀ c₁ c₂ c₃ : Char) : Option (List UInt8) :=
  match value c₀, value c₁, value c₂, value c₃ with
  | some d₀, some d₁, some d₂, some d₃ =>
    some [UInt8.ofNat (d₀ * 4 + d₁ / 16), UInt8.ofNat (d₁ % 16 * 16 + d₂ / 4),
      UInt8.ofNat (d₂ % 4 * 64 + d₃)]
  | _, _, _, _ => none

/-- The bytes of groups of four characters, of which only the last may be padded. -/
def decode : List Char → Option (List UInt8)
  | [] => some []
  | c₀ :: c₁ :: c₂ :: c₃ :: rest =>
    if rest = [] ∧ c₂ = '=' ∧ c₃ = '=' then decodeOne c₀ c₁
    else if rest = [] ∧ c₃ = '=' then decodeTwo c₀ c₁ c₂
    else
      match decodeThree c₀ c₁ c₂ c₃, decode rest with
      | some bytes, some more => some (bytes ++ more)
      | _, _ => none
  | _ => none

theorem value_digit {d : ℕ} (hd : d < 64) : value (digit d) = some d := by
  have hall : ∀ d : Fin 64, value (digit d) = some d.val := by decide
  exact hall ⟨d, hd⟩

theorem digit_ne_padding {d : ℕ} (hd : d < 64) : digit d ≠ '=' := by
  have hall : ∀ d : Fin 64, digit d ≠ '=' := by decide
  exact hall ⟨d, hd⟩

/-- A byte is put together from its parts. -/
theorem ofNat_of_eq {n : ℕ} {b : UInt8} (h : n = b.toNat) : UInt8.ofNat n = b := by
  rw [h, UInt8.ofNat_toNat]

/-- Reading what was written. -/
theorem decode_encode (bytes : List UInt8) : decode (encode bytes) = some bytes := by
  induction bytes using encode.induct with
  | case1 => rfl
  | case2 a =>
    have ha := a.toNat_lt
    rw [encode, decode, if_pos ⟨rfl, rfl, rfl⟩, decodeOne, value_digit (by omega),
      value_digit (by omega)]
    simp only [Nat.mul_mod_left, if_true]
    rw [ofNat_of_eq (b := a) (by omega)]
  | case3 a b =>
    have ha := a.toNat_lt
    have hb := b.toNat_lt
    rw [encode, decode, if_neg fun h => digit_ne_padding (by omega) h.2.1, if_pos ⟨rfl, rfl⟩,
      decodeTwo, value_digit (by omega), value_digit (by omega), value_digit (by omega)]
    simp only [Nat.mul_mod_left, if_true]
    rw [ofNat_of_eq (b := a) (by omega), ofNat_of_eq (b := b) (by omega)]
  | case4 a b c rest ih =>
    have ha := a.toNat_lt
    have hb := b.toNat_lt
    have hc := c.toNat_lt
    rw [encode, decode, if_neg fun h => digit_ne_padding (by omega) h.2.2,
      if_neg fun h => digit_ne_padding (by omega) h.2, ih, decodeThree, value_digit (by omega),
      value_digit (by omega), value_digit (by omega), value_digit (by omega)]
    simp only
    rw [ofNat_of_eq (b := a) (by omega), ofNat_of_eq (b := b) (by omega),
      ofNat_of_eq (b := c) (by omega)]
    rfl

/-- A property of all digits and the padding holds of what was written. -/
theorem forall_mem_encode {P : Char → Prop} (hdigit : ∀ d < 64, P (digit d)) (hpadding : P '=')
    (bytes : List UInt8) : ∀ c ∈ encode bytes, P c := by
  induction bytes using encode.induct with
  | case1 => simp [encode]
  | case2 a =>
    have ha := a.toNat_lt
    simp only [encode, List.forall_mem_cons]
    exact ⟨hdigit _ (by omega), hdigit _ (by omega), hpadding, hpadding, by simp⟩
  | case3 a b =>
    have ha := a.toNat_lt
    have hb := b.toNat_lt
    simp only [encode, List.forall_mem_cons]
    exact ⟨hdigit _ (by omega), hdigit _ (by omega), hdigit _ (by omega), hpadding, by simp⟩
  | case4 a b c rest ih =>
    have ha := a.toNat_lt
    have hb := b.toNat_lt
    have hc := c.toNat_lt
    simp only [encode, List.forall_mem_cons]
    exact ⟨hdigit _ (by omega), hdigit _ (by omega), hdigit _ (by omega), hdigit _ (by omega), ih⟩

end Base64
