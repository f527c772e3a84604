import Mathlib.Data.List.Forall2

/-!
# Loops that can fail

Rules for folds and maps whose body may fail. A loop that succeeds has run its body successfully on
every element.
-/

namespace Choreo

namespace Folds

universe u v w

variable {α : Type u} {β σ τ : Type v} {ε : Type w}

theorem bind_eq_ok {x : Except ε σ} {f : σ → Except ε τ} {b : τ} :
    x >>= f = .ok b ↔ ∃ a, x = .ok a ∧ f a = .ok b := by
  rcases x with e | a
  · simp [bind, Except.bind]
  · simp [bind, Except.bind]

theorem foldlM_cons_eq_ok {f : σ → α → Except ε σ} {a : α} {as : List α} {s s' : σ} :
    (a :: as).foldlM f s = .ok s' ↔ ∃ s₁, f s a = .ok s₁ ∧ as.foldlM f s₁ = .ok s' := by
  rw [List.foldlM_cons, bind_eq_ok]

/-- What the body of a loop keeps, the loop keeps. -/
theorem foldlM_invariant {f : σ → α → Except ε σ} {P : σ → Prop}
    (hf : ∀ s a s', P s → f s a = .ok s' → P s') {as : List α} {s s' : σ} (hs : P s)
    (h : as.foldlM f s = .ok s') : P s' := by
  induction as generalizing s with
  | nil =>
    cases h
    exact hs
  | cons a as ih =>
    obtain ⟨s₁, ha, hrest⟩ := foldlM_cons_eq_ok.1 h
    exact ih (hf s a s₁ hs ha) hrest

/-- What the body of a loop keeps, the loop keeps. -/
theorem foldl_invariant {f : σ → α → σ} {P : σ → Prop} (hf : ∀ s a, P s → P (f s a))
    (as : List α) {s : σ} (hs : P s) : P (as.foldl f s) := by
  induction as generalizing s with
  | nil => exact hs
  | cons a as ih => exact ih (hf s a hs)

/-- A map succeeds exactly with the results of its body. -/
theorem mapM_eq_ok_iff {f : α → Except ε β} {as : List α} {bs : List β} :
    as.mapM f = .ok bs ↔ List.Forall₂ (fun a b => f a = .ok b) as bs := by
  induction as generalizing bs with
  | nil =>
    rw [List.mapM_nil, List.forall₂_nil_left_iff]
    exact ⟨fun h => (Except.ok.inj h).symm, fun h => congrArg Except.ok h.symm⟩
  | cons a as ih =>
    rw [List.mapM_cons, bind_eq_ok]
    constructor
    · rintro ⟨b, hb, hbind⟩
      obtain ⟨rest, hrest, hbs⟩ := bind_eq_ok.1 hbind
      cases hbs
      exact List.Forall₂.cons hb (ih.1 hrest)
    · intro h
      rcases h with _ | ⟨hb, hrest⟩
      exact ⟨_, hb, bind_eq_ok.2 ⟨_, ih.2 hrest, rfl⟩⟩

end Folds

end Choreo
