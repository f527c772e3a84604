import Mathlib.Data.List.Basic

/-!
# Records in a sequence

A sequence is cut into records by a mark on its elements: an element that is marked is followed by
another one of the same record, an element that is not marked is the last of its record. Records
delimit themselves: from the beginning of a sequence at most one record can be read.
-/

variable {α : Type*} {more : α → Bool}

/-- One record: every element but the last is marked. -/
inductive Record (more : α → Bool) : List α → Prop
  | last {a : α} (h : more a = false) : Record more [a]
  | cons {a : α} {l : List α} (h : more a = true) (hl : Record more l) : Record more (a :: l)

namespace Record

theorem ne_nil {l : List α} (h : Record more l) : l ≠ [] := by
  cases h <;> simp

/-- Two records at the beginning of one sequence are equal. -/
theorem append_inj {l₁ l₂ rest₁ rest₂ : List α} (h₁ : Record more l₁) (h₂ : Record more l₂)
    (h : l₁ ++ rest₁ = l₂ ++ rest₂) : l₁ = l₂ ∧ rest₁ = rest₂ := by
  induction h₁ generalizing l₂ with
  | last ha =>
    cases h₂ with
    | last hb => simpa using h
    | cons hb hl =>
      obtain ⟨rfl, -⟩ := List.cons.inj h
      rw [ha] at hb
      cases hb
  | cons ha _ ih =>
    cases h₂ with
    | last hb =>
      obtain ⟨rfl, -⟩ := List.cons.inj h
      rw [ha] at hb
      cases hb
    | cons hb hl =>
      obtain ⟨rfl, htail⟩ := List.cons.inj h
      obtain ⟨rfl, hrest⟩ := ih hl htail
      exact ⟨rfl, hrest⟩

end Record
