/-!
# Interactions

A program that may ask before it ends: a question goes to its surroundings, and what the program
does next may depend on the answer. Every run is finite, though nothing bounds how often one asks.
What the surroundings keep up at each answer holds after every run (`run_invariant`), whatever the
program is.
-/

inductive Interaction (Q A α : Type) where
  | done (a : α)
  | ask (q : Q) (next : A → Interaction Q A α)

namespace Interaction

variable {Q A α σ : Type}

/-- A run in surroundings that have a state. -/
def run (answer : Q → σ → A × σ) : Interaction Q A α → σ → α × σ
  | .done a, s => (a, s)
  | .ask q next, s => (next (answer q s).1).run answer (answer q s).2

theorem run_invariant {answer : Q → σ → A × σ} {I : σ → Prop}
    (hAnswer : ∀ q s, I s → I (answer q s).2) (p : Interaction Q A α) {s : σ} (hs : I s) :
    I (p.run answer s).2 := by
  induction p generalizing s with
  | done a => exact hs
  | ask q next ih => exact ih _ (hAnswer q s hs)

end Interaction
