import Mathlib.Data.List.Basic

/-!
# What waits in a queue

A queue of commands that are handled in their order, one after the other: each changes a state and
produces results, depending on the state it finds. Seen from now, the commands that wait determine
the state after them and the results they are going to have.
-/

namespace CommandQueue

variable {σ α β : Type*} (turn : α → σ → σ)

/-- The state after all commands that wait. -/
def after (s : σ) (as : List α) : σ := as.foldl (fun s a => turn a s) s

/-- The results of the commands that wait. -/
def results (result : α → σ → List β) : σ → List α → List β
  | _, [] => []
  | s, a :: as => result a s ++ results result (turn a s) as

/-- Every command that waits finds a state that meets the condition. -/
def Always (P : α → σ → Prop) : σ → List α → Prop
  | _, [] => True
  | s, a :: as => P a s ∧ Always P (turn a s) as

variable {turn}

@[simp]
theorem after_nil (s : σ) : after turn s [] = s := rfl

@[simp]
theorem after_cons (s : σ) (a : α) (as : List α) :
    after turn s (a :: as) = after turn (turn a s) as := rfl

@[simp]
theorem after_concat (s : σ) (as : List α) (a : α) :
    after turn s (as ++ [a]) = turn a (after turn s as) := by
  simp [after]

theorem results_concat (result : α → σ → List β) (s : σ) (as : List α) (a : α) :
    results turn result s (as ++ [a]) =
      results turn result s as ++ result a (after turn s as) := by
  induction as generalizing s with
  | nil => simp [results]
  | cons b as ih => simp [results, ih]

variable {as : List α}

theorem results_eq_nil {result : α → σ → List β} (h : ∀ a ∈ as, ∀ s, result a s = [])
    (s : σ) : results turn result s as = [] := by
  induction as generalizing s with
  | nil => rfl
  | cons a as ih =>
    rw [List.forall_mem_cons] at h
    simp [results, h.1, ih h.2]

theorem results_eq_nil_of_imp {result result' : α → σ → List β}
    (h : ∀ a s, result' a s = [] → result a s = []) {s : σ}
    (hnil : results turn result' s as = []) : results turn result s as = [] := by
  induction as generalizing s with
  | nil => rfl
  | cons a as ih =>
    rw [results, List.append_eq_nil_iff] at hnil
    rw [results, h a s hnil.1, ih hnil.2, List.append_nil]

theorem always_concat {P : α → σ → Prop} {s : σ} {a : α} (h : Always turn P s as)
    (ha : P a (after turn s as)) : Always turn P s (as ++ [a]) := by
  induction as generalizing s with
  | nil => exact ⟨ha, trivial⟩
  | cons b as ih => exact ⟨h.1, ih h.2 ha⟩

theorem always_of_forall {P : α → σ → Prop} (h : ∀ a ∈ as, ∀ s, P a s) (s : σ) :
    Always turn P s as := by
  induction as generalizing s with
  | nil => trivial
  | cons a as ih =>
    rw [List.forall_mem_cons] at h
    exact ⟨h.1 s, ih h.2 _⟩

end CommandQueue
