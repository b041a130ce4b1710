import Mathlib.Data.List.Basic

/-!
# Paths of a labelled transition relation

A path is a list of labels together with the steps that carry them. What one step preserves a path
preserves, and a simulation of steps is a simulation of paths under the same labels.
-/

universe u v w

/-- The states that `labels` lead between. -/
inductive StepPath {σ : Type u} {α : Type v} (step : σ → α → σ → Prop) : σ → List α → σ → Prop
  | nil (s : σ) : StepPath step s [] s
  | cons {s t r : σ} {a : α} {labels : List α} (head : step s a t) (tail : StepPath step t labels r) :
      StepPath step s (a :: labels) r

namespace StepPath

variable {σ : Type u} {α : Type v} {ρ : Type w} {step : σ → α → σ → Prop}

theorem single {s t : σ} {a : α} (h : step s a t) : StepPath step s [a] t := .cons h (.nil t)

theorem append {s t r : σ} {xs ys : List α} (first : StepPath step s xs t) (rest : StepPath step t ys r) :
    StepPath step s (xs ++ ys) r := by
  induction first with
  | nil => exact rest
  | cons head _ ih => exact .cons head (ih rest)

/-- What every step keeps, a path keeps. -/
theorem preserves {P : σ → Prop} (keep : ∀ s a t, P s → step s a t → P t) {s t : σ}
    {labels : List α} (path : StepPath step s labels t) (start : P s) : P t := by
  induction path with
  | nil => exact start
  | cons head _ ih => exact ih (keep _ _ _ start head)

/-- A relation that answers every step by a step answers every path by a path. -/
theorem simulates {step' : ρ → α → ρ → Prop} {R : σ → ρ → Prop}
    (answer : ∀ s a t q, R s q → step s a t → ∃ q', step' q a q' ∧ R t q') {s t : σ}
    {labels : List α} {q : ρ} (path : StepPath step s labels t) (start : R s q) :
    ∃ q', StepPath step' q labels q' ∧ R t q' := by
  induction path generalizing q with
  | nil => exact ⟨q, .nil q, start⟩
  | cons head _ ih =>
    obtain ⟨q₁, step₁, related⟩ := answer _ _ _ _ start head
    obtain ⟨q₂, rest, done⟩ := ih related
    exact ⟨q₂, .cons step₁ rest, done⟩

end StepPath
