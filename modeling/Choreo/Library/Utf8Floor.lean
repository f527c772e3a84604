import Choreo.Library.Utf8

/-!
# The longest beginning of a text within a number of bytes

How the longest beginning of a text that has at most `n` bytes behaves when text is appended: the
characters that fit are taken first, and what comes after a character that does not fit makes no
difference.
-/

namespace Utf8

variable {n : ℕ} {text : List Char}

theorem floorPrefix_append_of_le (h : size text ≤ n) (rest : List Char) :
    floorPrefix n (text ++ rest) = text ++ floorPrefix (n - size text) rest := by
  induction text generalizing n with
  | nil => rfl
  | cons c text ih =>
    rw [size_cons] at h ⊢
    rw [List.cons_append, floorPrefix, if_pos (by omega), ih (by omega), Nat.sub_sub,
      List.cons_append]

theorem floorPrefix_append_of_lt (h : n < size text) (rest : List Char) :
    floorPrefix n (text ++ rest) = floorPrefix n text := by
  induction text generalizing n with
  | nil => simp at h
  | cons c text ih =>
    rw [size_cons] at h
    rw [List.cons_append, floorPrefix, floorPrefix]
    split_ifs with hc
    · rw [ih (by omega)]
    · rfl

theorem floorPrefix_zero (text : List Char) : floorPrefix 0 text = [] := by
  cases text with
  | nil => rfl
  | cons c text =>
    have hc := c.utf8Size_pos
    rw [floorPrefix, if_neg (by omega)]

theorem floorPrefix_append_of_size (text rest : List Char) :
    floorPrefix (size text) (text ++ rest) = text := by
  rw [floorPrefix_append_of_le le_rfl, Nat.sub_self, floorPrefix_zero, List.append_nil]

theorem floorPrefix_longest {part : List Char} (h : part <+: text) (hsize : size part ≤ n) :
    part <+: floorPrefix n text := by
  obtain ⟨rest, rfl⟩ := h
  rw [floorPrefix_append_of_le hsize]
  exact List.prefix_append _ _

theorem lt_size_floorPrefix_add_four (h : n < size text) : n < size (floorPrefix n text) + 4 := by
  have hcut := cutBytes_le_three h
  rw [cutBytes] at hcut
  omega

/-- The size of a string is that of its characters. -/
theorem utf8ByteSize_eq_size (text : String) : text.utf8ByteSize = size text.toList := by
  rw [← length_encode]
  conv_lhs => rw [← String.ofList_toList (s := text)]
  change (List.utf8Encode text.toList).size = _
  rw [List.utf8Encode, List.size_toByteArray]
  rfl

/-! ### Texts that are cut at whole characters -/

/-- A text that fits, or whose first `n` bytes are whole characters. -/
def CutsWhole (n : ℕ) (text : List Char) : Prop :=
  size text ≤ n ∨ size (floorPrefix n text) = n

instance (n : ℕ) (text : List Char) : Decidable (CutsWhole n text) :=
  inferInstanceAs (Decidable (size text ≤ n ∨ size (floorPrefix n text) = n))

/-- Characters of one byte are never cut. -/
theorem cutsWhole_of_ascii (hascii : ∀ c ∈ text, c.toNat < 0x80) (n : ℕ) : CutsWhole n text := by
  by_cases h : size text ≤ n
  · exact .inl h
  · obtain ⟨c, rest, htext, hcut⟩ := exists_cut (Nat.lt_of_not_le h)
    have hc : c.utf8Size = 1 := by
      refine utf8Size_of_ascii (hascii c ?_)
      rw [htext]
      simp
    have hle := size_floorPrefix_le n text
    rw [hc, cutBytes] at hcut
    refine .inr ?_
    omega

end Utf8
