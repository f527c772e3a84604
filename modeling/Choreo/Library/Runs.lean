import Mathlib.Data.List.Basic

/-!
# Runs of labelled partial step functions

A system is given by a partial step function `step : α → σ → Option σ`: the label `a` picks what
happens, and `step a s = none` says that it cannot happen in `s`. A schedule of labels then either
runs to a state or gets stuck. The invariant rules below take the step lemma of a system to a
statement about all of its runs, also when only the runs that keep a condition on each step are
considered.
-/

namespace StepSystem

open List Option

variable {α σ : Type*} {step : α → σ → Option σ}

/-- Runs a schedule of labels from a state, in order; `none` when some label is not enabled. -/
def run (step : α → σ → Option σ) : List α → σ → Option σ
  | [], s => some s
  | a :: as, s => (step a s).bind (run step as)

/-- Every step of the run along a schedule meets the condition `G` on its label and on the state
before it. A schedule that gets stuck is only asked about the steps it takes. -/
def Along (step : α → σ → Option σ) (G : α → σ → Prop) : List α → σ → Prop
  | [], _ => True
  | a :: as, s => G a s ∧
      match step a s with
      | none => True
      | some s' => Along step G as s'

/-- The condition of `Along` is decidable along a concrete schedule. -/
instance decidableAlong (step : α → σ → Option σ) (G : α → σ → Prop)
    [hG : ∀ a s, Decidable (G a s)] : ∀ as s, Decidable (Along step G as s)
  | [], _ => isTrue trivial
  | a :: as, s =>
    match hG a s with
    | isFalse h => isFalse fun h' => h h'.1
    | isTrue h =>
      match hstep : step a s with
      | none => isTrue ⟨h, by rw [hstep]; trivial⟩
      | some s' =>
        match decidableAlong step G as s' with
        | isTrue h' => isTrue ⟨h, by rw [hstep]; exact h'⟩
        | isFalse h' => isFalse fun hx => h' (by have h2 := hx.2; rw [hstep] at h2; exact h2)

@[simp]
theorem run_nil (s : σ) : run step [] s = some s := rfl

theorem run_cons (a : α) (as : List α) (s : σ) :
    run step (a :: as) s = (step a s).bind (run step as) := rfl

theorem run_cons_eq_some {a : α} {as : List α} {s t : σ} :
    run step (a :: as) s = some t ↔ ∃ s', step a s = some s' ∧ run step as s' = some t := by
  rw [run_cons, bind_eq_some_iff]

theorem run_append (as bs : List α) (s : σ) :
    run step (as ++ bs) s = (run step as s).bind (run step bs) := by
  induction as generalizing s with
  | nil => rfl
  | cons a as ih =>
    rw [cons_append, run_cons, run_cons, Option.bind_assoc]
    congr 1
    funext s'
    exact ih s'

theorem run_append_eq_some {as bs : List α} {s t : σ} :
    run step (as ++ bs) s = some t ↔
      ∃ s', run step as s = some s' ∧ run step bs s' = some t := by
  rw [run_append, bind_eq_some_iff]

theorem run_singleton (a : α) (s : σ) : run step [a] s = step a s := by
  rw [run_cons]
  cases step a s <;> rfl

theorem run_concat_eq_some {as : List α} {a : α} {s t : σ} :
    run step (as ++ [a]) s = some t ↔ ∃ s', run step as s = some s' ∧ step a s' = some t := by
  rw [run_append_eq_some]
  simp only [run_singleton]

theorem along_cons {G : α → σ → Prop} {a : α} {as : List α} {s s' : σ}
    (hstep : step a s = some s') :
    Along step G (a :: as) s ↔ G a s ∧ Along step G as s' := by
  simp only [Along, hstep]

theorem along_append {G : α → σ → Prop} {as bs : List α} {s s' : σ}
    (hrun : run step as s = some s') :
    Along step G (as ++ bs) s ↔ Along step G as s ∧ Along step G bs s' := by
  induction as generalizing s with
  | nil =>
    cases hrun
    simp only [nil_append, Along, true_and]
  | cons a as ih =>
    obtain ⟨s₁, hstep, hrest⟩ := run_cons_eq_some.1 hrun
    rw [cons_append, along_cons hstep, along_cons hstep, ih hrest, and_assoc]

theorem Along.mono {G G' : α → σ → Prop} (h : ∀ a s, G a s → G' a s) {as : List α} {s : σ}
    (hG : Along step G as s) : Along step G' as s := by
  induction as generalizing s with
  | nil => trivial
  | cons a as ih =>
    refine ⟨h a s hG.1, ?_⟩
    have htail := hG.2
    cases hstep : step a s with
    | none => trivial
    | some s' =>
      rw [hstep] at htail
      exact ih htail

/-- Two conditions that the steps of a run meet. -/
theorem Along.and {G G' : α → σ → Prop} {as : List α} {s : σ} (hG : Along step G as s)
    (hG' : Along step G' as s) : Along step (fun a s => G a s ∧ G' a s) as s := by
  induction as generalizing s with
  | nil => trivial
  | cons a as ih =>
    refine ⟨⟨hG.1, hG'.1⟩, ?_⟩
    have htail := hG.2
    have htail' := hG'.2
    cases hstep : step a s with
    | none => trivial
    | some s' =>
      rw [hstep] at htail htail'
      exact ih htail htail'

theorem Along.and_labels {G : α → σ → Prop} {P : α → Prop} {as : List α} {s : σ}
    (hG : Along step G as s) (hP : ∀ a ∈ as, P a) :
    Along step (fun a s => P a ∧ G a s) as s := by
  induction as generalizing s with
  | nil => trivial
  | cons a as ih =>
    refine ⟨⟨hP a mem_cons_self, hG.1⟩, ?_⟩
    have htail := hG.2
    cases hstep : step a s with
    | none => trivial
    | some s' =>
      rw [hstep] at htail
      exact ih htail fun b hb => hP b (mem_cons_of_mem _ hb)

theorem Along.of_labels {G : α → σ → Prop} {as : List α} (h : ∀ a ∈ as, ∀ s, G a s) {s : σ} :
    Along step G as s := by
  induction as generalizing s with
  | nil => trivial
  | cons a as ih =>
    refine ⟨h a mem_cons_self s, ?_⟩
    cases step a s with
    | none => trivial
    | some s' => exact ih fun b hb => h b (mem_cons_of_mem _ hb)

theorem invariant_of_along {G : α → σ → Prop} {I : σ → Prop}
    (hstep : ∀ a s s', G a s → I s → step a s = some s' → I s')
    {as : List α} {s t : σ} (hs : I s) (hG : Along step G as s) (hrun : run step as s = some t) :
    I t := by
  induction as generalizing s with
  | nil =>
    cases hrun
    exact hs
  | cons a as ih =>
    obtain ⟨s', ha, hrest⟩ := run_cons_eq_some.1 hrun
    obtain ⟨hGa, hGas⟩ := (along_cons ha).1 hG
    exact ih (hstep a s s' hGa hs ha) hGas hrest

/-- The invariant rule for all runs. -/
theorem invariant_of_run {I : σ → Prop} (hstep : ∀ a s s', I s → step a s = some s' → I s')
    {as : List α} {s t : σ} (hs : I s) (hrun : run step as s = some t) : I t := by
  induction as generalizing s with
  | nil =>
    cases hrun
    exact hs
  | cons a as ih =>
    obtain ⟨s', ha, hrest⟩ := run_cons_eq_some.1 hrun
    exact ih (hstep a s s' hs ha) hrest

theorem along_of_invariant {G : α → σ → Prop} {I : σ → Prop} (hG : ∀ a s, I s → G a s)
    (hstep : ∀ a s s', I s → step a s = some s' → I s') {as : List α} {s : σ} (hs : I s) :
    Along step G as s := by
  induction as generalizing s with
  | nil => trivial
  | cons a as ih =>
    refine ⟨hG a s hs, ?_⟩
    cases ha : step a s with
    | none => trivial
    | some s' => exact ih (hstep a s s' hs ha)

theorem Along.of_invariant {G R : α → σ → Prop} {I : σ → Prop} (hR : ∀ a s, I s → R a s)
    (hstep : ∀ a s s', G a s → I s → step a s = some s' → I s') {as : List α} {s : σ} (hs : I s)
    (hG : Along step G as s) : Along step R as s := by
  induction as generalizing s with
  | nil => trivial
  | cons a as ih =>
    refine ⟨hR a s hs, ?_⟩
    have htail := hG.2
    cases ha : step a s with
    | none => trivial
    | some s' =>
      rw [ha] at htail
      exact ih (hstep a s s' hG.1 hs ha) htail

/-- The exact rule: when a step that meets the condition keeps the invariant, and one that does not
breaks the property, then the property holds in all states of a run exactly if all steps of the run
meet the condition. -/
theorem forall_prefix_iff_along_of {G : α → σ → Prop} {I P : σ → Prop}
    (htotal : ∀ a s, I s → (step a s).isSome = true) (hIP : ∀ s, I s → P s)
    (hbreaks : ∀ a s s', I s → step a s = some s' → P s' → G a s)
    (hkeeps : ∀ a s s', I s → step a s = some s' → G a s → I s') {as : List α} {s : σ} (hs : I s) :
    (∀ before t, before <+: as → run step before s = some t → P t) ↔ Along step G as s := by
  induction as generalizing s with
  | nil =>
    refine ⟨fun _ => trivial, fun _ before t hbefore hrun => ?_⟩
    rw [prefix_nil.1 hbefore] at hrun
    cases hrun
    exact hIP s hs
  | cons a as ih =>
    obtain ⟨s', ha⟩ := isSome_iff_exists.1 (htotal a s hs)
    rw [along_cons ha]
    constructor
    · intro hall
      have hP : P s' := hall [a] s' (by simp) (by rw [run_singleton, ha])
      have hG := hbreaks a s s' hs ha hP
      refine ⟨hG, (ih (hkeeps a s s' hs ha hG)).1 fun before t hbefore hrun => ?_⟩
      exact hall (a :: before) t (cons_prefix_cons.2 ⟨rfl, hbefore⟩)
        (run_cons_eq_some.2 ⟨s', ha, hrun⟩)
    · rintro ⟨hG, htail⟩ before t hbefore hrun
      have hs' : I s' := hkeeps a s s' hs ha hG
      cases before with
      | nil =>
        cases hrun
        exact hIP s hs
      | cons b before =>
        obtain ⟨rfl, hrest'⟩ := cons_prefix_cons.1 hbefore
        obtain ⟨s₁, hb, hrest⟩ := run_cons_eq_some.1 hrun
        cases ha.symm.trans hb
        exact (ih hs').2 htail before t hrest' hrest

theorem forall_prefix_iff_along {G : α → σ → Prop} {I : σ → Prop}
    (htotal : ∀ a s, (step a s).isSome = true)
    (hstep : ∀ a s s', I s → step a s = some s' → (I s' ↔ G a s)) {as : List α} {s : σ} (hs : I s) :
    (∀ before t, before <+: as → run step before s = some t → I t) ↔ Along step G as s :=
  forall_prefix_iff_along_of (fun a s _ => htotal a s) (fun _ h => h)
    (fun a s s' h ha => (hstep a s s' h ha).1) (fun a s s' h ha => (hstep a s s' h ha).2) hs

theorem holds_iff_along {G H : α → σ → Prop} {I T : σ → Prop}
    (hinv : ∀ a s s', I s → G a s → step a s = some s' → I s')
    (hstep : ∀ a s s', I s → G a s → step a s = some s' → (T s' ↔ T s ∧ H a s))
    {as : List α} {s t : σ} (hs : I s) (hG : Along step G as s) (hrun : run step as s = some t) :
    T t ↔ T s ∧ Along step H as s := by
  induction as generalizing s with
  | nil =>
    cases hrun
    exact (and_iff_left trivial).symm
  | cons a as ih =>
    obtain ⟨s', ha, hrest⟩ := run_cons_eq_some.1 hrun
    obtain ⟨hGa, hGas⟩ := (along_cons ha).1 hG
    rw [ih (hinv a s s' hs hGa ha) hGas hrest, hstep a s s' hs hGa ha, along_cons ha, and_assoc]

/-! ### Totals -/

/-- The sum of an amount over the steps that a schedule takes. -/
def total (step : α → σ → Option σ) (amount : α → σ → ℕ) : List α → σ → ℕ
  | [], _ => 0
  | a :: as, s => amount a s +
      match step a s with
      | none => 0
      | some s' => total step amount as s'

theorem total_cons {amount : α → σ → ℕ} {a : α} {as : List α} {s s' : σ}
    (hstep : step a s = some s') :
    total step amount (a :: as) s = amount a s + total step amount as s' := by
  simp only [total, hstep]

theorem total_add (amount amount' : α → σ → ℕ) (as : List α) (s : σ) :
    total step (fun a s => amount a s + amount' a s) as s =
      total step amount as s + total step amount' as s := by
  induction as generalizing s with
  | nil => rfl
  | cons a as ih =>
    simp only [total]
    cases step a s with
    | none => simp only [Nat.add_zero]
    | some s' =>
      simp only [ih]
      omega

/-- A positive total comes from a step with a positive amount. -/
theorem exists_of_total_pos {amount : α → σ → ℕ} {as : List α} {s : σ}
    (h : 0 < total step amount as s) :
    ∃ as₁ a as₂ s₁, as = as₁ ++ a :: as₂ ∧ run step as₁ s = some s₁ ∧ 0 < amount a s₁ := by
  induction as generalizing s with
  | nil => exact absurd h (Nat.lt_irrefl 0)
  | cons a as ih =>
    by_cases ha : 0 < amount a s
    · exact ⟨[], a, as, s, rfl, rfl, ha⟩
    · simp only [total] at h
      cases hstep : step a s with
      | none =>
        rw [hstep] at h
        exact absurd h ha
      | some s' =>
        rw [hstep] at h
        obtain ⟨as₁, b, as₂, s₁, rfl, hrun, hb⟩ := ih (s := s') (by dsimp only at h; omega)
        exact ⟨a :: as₁, b, as₂, s₁, rfl, run_cons_eq_some.2 ⟨s', hstep, hrun⟩, hb⟩

theorem total_append {amount : α → σ → ℕ} {as bs : List α} {s s' : σ}
    (hrun : run step as s = some s') :
    total step amount (as ++ bs) s = total step amount as s + total step amount bs s' := by
  induction as generalizing s with
  | nil =>
    cases hrun
    simp only [nil_append, total, Nat.zero_add]
  | cons a as ih =>
    obtain ⟨s₁, hstep, hrest⟩ := run_cons_eq_some.1 hrun
    rw [cons_append, total_cons hstep, total_cons hstep, ih hrest, Nat.add_assoc]

/-- The accounting rule: a measure that grows with every step by the amount of the step has grown
after a run by the total. -/
theorem balance_of_along {G : α → σ → Prop} {I : σ → Prop} (measure : σ → ℕ)
    {amount : α → σ → ℕ}
    (hstep : ∀ a s s', G a s → I s → step a s = some s' →
      I s' ∧ measure s' = measure s + amount a s)
    {as : List α} {s t : σ} (hs : I s) (hG : Along step G as s) (hrun : run step as s = some t) :
    I t ∧ measure t = measure s + total step amount as s := by
  induction as generalizing s with
  | nil =>
    cases hrun
    exact ⟨hs, rfl⟩
  | cons a as ih =>
    obtain ⟨s', ha, hrest⟩ := run_cons_eq_some.1 hrun
    obtain ⟨hGa, hGas⟩ := (along_cons ha).1 hG
    obtain ⟨hI, hmeasure⟩ := hstep a s s' hGa hs ha
    obtain ⟨hIt, htotal⟩ := ih hI hGas hrest
    refine ⟨hIt, ?_⟩
    rw [htotal, hmeasure, total_cons ha]
    omega

end StepSystem
