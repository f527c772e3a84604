import Mathlib.Data.Nat.Digits.Lemmas
import Mathlib.Data.List.TakeWhile

/-!
# Bytes written in digits

Two ways of writing bytes as text: two hexadecimal digits for each byte, and the digits of the
whole in another base. The second keeps the zeros at the beginning, so it loses nothing.
-/

namespace Digits

/-- The digits in base `c` of the number whose digits in base `b` are given, the most significant
first. Zeros at the beginning stay. -/
def rebase (b c : ℕ) (digits : List ℕ) : List ℕ :=
  List.replicate (digits.takeWhile (· == 0)).length 0 ++
    (Nat.digits c (Nat.ofDigits b digits.reverse)).reverse

/-- Digits are zeros at the beginning and then the digits of their number. -/
theorem eq_zeros_append {b : ℕ} (hb : 1 < b) (digits : List ℕ) (hdigits : ∀ d ∈ digits, d < b) :
    digits = List.replicate (digits.takeWhile (· == 0)).length 0 ++
      (Nat.digits b (Nat.ofDigits b digits.reverse)).reverse := by
  induction digits with
  | nil => simp
  | cons d digits ih =>
    by_cases hd : d = 0
    · subst hd
      have htail := ih fun d h => hdigits d (List.mem_cons_of_mem _ h)
      rw [List.reverse_cons, Nat.ofDigits_append_zero, List.takeWhile_cons_of_pos (by simp),
        List.length_cons, List.replicate_succ, List.cons_append, ← htail]
    · rw [List.takeWhile_cons_of_neg (by simpa using hd), Nat.digits_ofDigits b hb]
      · simp
      · exact fun l hl => hdigits l (List.mem_reverse.1 hl)
      · simpa using hd

/-- The digits of a number do not begin with zeros. -/
theorem takeWhile_zeros_append (c n zeros : ℕ) :
    ((List.replicate zeros 0 ++ (Nat.digits c n).reverse).takeWhile (· == 0)).length = zeros := by
  have hdigits : (Nat.digits c n).reverse.takeWhile (· == 0) = [] := by
    rcases hrev : (Nat.digits c n).reverse with _ | ⟨d, rest⟩
    · rfl
    · have hne : Nat.digits c n ≠ [] := by
        intro h
        simp [h] at hrev
      have hn : n ≠ 0 := by
        rintro rfl
        simp at hne
      have hlast := Nat.getLast_digit_ne_zero c hn
      rw [List.getLast_eq_head_reverse hne] at hlast
      simp only [hrev, List.head_cons] at hlast
      rw [List.takeWhile_cons_of_neg (by simpa using hlast)]
  rw [List.takeWhile_append_of_pos (by simp), hdigits]
  simp

theorem ofDigits_zeros_append (c zeros : ℕ) (digits : List ℕ) :
    Nat.ofDigits c (List.replicate zeros 0 ++ digits.reverse).reverse = Nat.ofDigits c digits := by
  rw [List.reverse_append, List.reverse_reverse, List.reverse_replicate,
    Nat.ofDigits_append_replicate_zero]

/-- Changing the base and back changes nothing. -/
theorem rebase_rebase {b : ℕ} (c : ℕ) (hb : 1 < b) {digits : List ℕ}
    (hdigits : ∀ d ∈ digits, d < b) : rebase c b (rebase b c digits) = digits := by
  rw [rebase, rebase, takeWhile_zeros_append, ofDigits_zeros_append, Nat.ofDigits_digits]
  exact (eq_zeros_append hb digits hdigits).symm

theorem rebase_lt {b c : ℕ} (hc : 1 < c) {digits : List ℕ} : ∀ d ∈ rebase b c digits, d < c := by
  intro d hd
  rcases List.mem_append.1 hd with h | h
  · obtain ⟨-, rfl⟩ := List.mem_replicate.1 h
    omega
  · exact Nat.digits_lt_base hc (List.mem_reverse.1 h)

end Digits

namespace Hex

/-- The sixteen digits. -/
def alphabet : List Char := "0123456789abcdef".toList

/-- A digit as a character. -/
def digit (d : ℕ) : Char := alphabet.getD d '0'

/-- The value of a character, in either case. -/
def value (c : Char) : Option ℕ :=
  if c.toLower ∈ alphabet then some (alphabet.idxOf c.toLower) else none

/-- Two digits for each byte. -/
def encode (bytes : List UInt8) : List Char :=
  bytes.flatMap fun b => [digit (b.toNat / 16), digit (b.toNat % 16)]

/-- The bytes of an even number of digits. -/
def decode : List Char → Option (List UInt8)
  | [] => some []
  | [_] => none
  | c :: d :: rest =>
    match value c, value d, decode rest with
    | some high, some low, some bytes => some (UInt8.ofNat (16 * high + low) :: bytes)
    | _, _, _ => none

theorem value_digit {d : ℕ} (hd : d < 16) : value (digit d) = some d := by
  have hall : ∀ d : Fin 16, value (digit d) = some d.val := by decide
  exact hall ⟨d, hd⟩

theorem digit_of_value {c : Char} {d : ℕ} (h : value c = some d) :
    digit d = c.toLower ∧ d < 16 := by
  rw [value] at h
  split_ifs at h with hmem
  cases h
  have hlt := List.idxOf_lt_length_of_mem hmem
  refine ⟨?_, hlt⟩
  rw [digit, List.getD_eq_getElem?_getD, List.getElem?_eq_getElem hlt, List.getElem_idxOf,
    Option.getD_some]

/-- Reading what was written. -/
theorem decode_encode (bytes : List UInt8) : decode (encode bytes) = some bytes := by
  induction bytes with
  | nil => rfl
  | cons b bytes ih =>
    have hb := b.toNat_lt
    have hencode : encode (b :: bytes) =
        digit (b.toNat / 16) :: digit (b.toNat % 16) :: encode bytes := rfl
    have hjoin : UInt8.ofNat (16 * (b.toNat / 16) + b.toNat % 16) = b := by
      rw [Nat.div_add_mod, UInt8.ofNat_toNat]
    rw [hencode, decode, value_digit (by omega), value_digit (by omega), ih]
    simp only [hjoin]

/-- Writing what was read gives the text in lower case. -/
theorem encode_of_decode : ∀ {text : List Char} {bytes : List UInt8},
    decode text = some bytes → encode bytes = text.map Char.toLower
  | [], _, h => by
    cases h
    rfl
  | [_], _, h => nomatch h
  | c :: d :: rest, bytes, h => by
    rw [decode] at h
    split at h
    · next high low tail hhigh hlow htail =>
      cases h
      obtain ⟨hc, hhigh'⟩ := digit_of_value hhigh
      obtain ⟨hd, hlow'⟩ := digit_of_value hlow
      have hbyte : (UInt8.ofNat (16 * high + low)).toNat = 16 * high + low :=
        UInt8.toNat_ofNat_of_lt' (by rw [UInt8.size]; omega)
      have hfirst : (16 * high + low) / 16 = high := by omega
      have hsecond : (16 * high + low) % 16 = low := by omega
      have hrest : tail.flatMap (fun b => [digit (b.toNat / 16), digit (b.toNat % 16)]) =
          rest.map Char.toLower := encode_of_decode htail
      rw [encode, List.flatMap_cons, hbyte, hfirst, hsecond, hc, hd, hrest]
      rfl
    · exact nomatch h

end Hex

namespace Base58

/-- The 58 digits. -/
def alphabet : List Char := "123456789ABCDEFGHJKLMNPQRSTUVWXYZabcdefghijkmnopqrstuvwxyz".toList

/-- Bytes in base 58. -/
def encode (bytes : List UInt8) : List Char :=
  (Digits.rebase 256 58 (bytes.map UInt8.toNat)).map fun d => alphabet.getD d '1'

/-- The bytes of a text in base 58. -/
def decode (text : List Char) : Option (List UInt8) :=
  if text.all (· ∈ alphabet) then
    some ((Digits.rebase 58 256 (text.map fun c => alphabet.idxOf c)).map UInt8.ofNat)
  else none

/-- Writing what was read. -/
theorem encode_of_decode {text : List Char} {bytes : List UInt8} (h : decode text = some bytes) :
    encode bytes = text := by
  rw [decode] at h
  split_ifs at h with hall
  cases h
  simp only [List.all_eq_true, decide_eq_true_eq] at hall
  have hdigits : ∀ d ∈ text.map (fun c => alphabet.idxOf c), d < 58 := by
    simp only [List.mem_map, forall_exists_index, and_imp, forall_apply_eq_imp_iff₂]
    exact fun c hc => List.idxOf_lt_length_of_mem (hall c hc)
  have hbytes : ∀ d ∈ Digits.rebase 58 256 (text.map fun c => alphabet.idxOf c), d < 256 :=
    Digits.rebase_lt (by omega)
  have hnumbers : ((Digits.rebase 58 256 (text.map fun c => alphabet.idxOf c)).map
      UInt8.ofNat).map UInt8.toNat = Digits.rebase 58 256 (text.map fun c => alphabet.idxOf c) := by
    rw [List.map_map]
    exact (List.map_congr_left fun d hd => UInt8.toNat_ofNat_of_lt' (hbytes d hd)).trans
      (List.map_id _)
  rw [encode, hnumbers, Digits.rebase_rebase 256 (by omega) hdigits, List.map_map]
  refine (List.map_congr_left fun c hc => ?_).trans (List.map_id _)
  have hlt := List.idxOf_lt_length_of_mem (hall c hc)
  rw [Function.comp_apply, List.getD_eq_getElem?_getD, List.getElem?_eq_getElem hlt,
    List.getElem_idxOf, Option.getD_some, id_eq]

end Base58
