import Mathlib.Init

/-!
# Procedures that may fail

A computation on a state; what it did before it failed stays done. `Ensures` is a triple with a
condition for each of the two ends, and there is one rule for each way in which procedures are put
together.
-/

def Procedure (ε σ α : Type) : Type := σ → Except ε α × σ

namespace Procedure

variable {ε σ α β : Type}

instance : Monad (Procedure ε σ) where
  pure a := fun s => (.ok a, s)
  bind x f := fun s =>
    match x s with
    | (.ok a, s') => f a s'
    | (.error e, s') => (.error e, s')

/-- A step that does not touch the state. -/
def ofExcept (r : Except ε α) : Procedure ε σ α := fun s => (r, s)

def mapError {ε' : Type} (f : ε → ε') (x : Procedure ε σ α) : Procedure ε' σ α := fun s =>
  ((x s).1.mapError f, (x s).2)

/-- From a state with `P` the procedure ends in one with `Q`, or fails in one with `E`. -/
def Ensures (P : σ → Prop) (x : Procedure ε σ α) (Q : α → σ → Prop) (E : σ → Prop) : Prop :=
  ∀ s, P s → match x s with
    | (.ok a, s') => Q a s'
    | (.error _, s') => E s'

variable {P P' : σ → Prop} {x : Procedure ε σ α} {Q Q' : α → σ → Prop} {E E' : σ → Prop}

theorem Ensures.of_ok (h : Ensures P x Q E) {s s' : σ} {a : α} (hs : P s)
    (hRun : x s = (.ok a, s')) : Q a s' := by
  have hEnd := h s hs
  rw [hRun] at hEnd
  exact hEnd

theorem Ensures.of_error (h : Ensures P x Q E) {s s' : σ} {e : ε} (hs : P s)
    (hRun : x s = (.error e, s')) : E s' := by
  have hEnd := h s hs
  rw [hRun] at hEnd
  exact hEnd

theorem Ensures.intro (hOk : ∀ s a s', P s → x s = (.ok a, s') → Q a s')
    (hError : ∀ s e s', P s → x s = (.error e, s') → E s') : Ensures P x Q E := by
  intro s hs
  rcases hRun : x s with ⟨e | a, s'⟩
  · exact hError s e s' hs hRun
  · exact hOk s a s' hs hRun

/-- One condition for both ends is one on the state that is left. -/
theorem ensures_iff {R : σ → Prop} :
    Ensures P x (fun _ => R) R ↔ ∀ s, P s → R (x s).2 := by
  constructor
  · intro h s hs
    rcases hRun : x s with ⟨e | a, s'⟩
    · exact h.of_error hs hRun
    · exact h.of_ok hs hRun
  · intro h
    refine .intro (fun s a s' hs hRun => ?_) (fun s e s' hs hRun => ?_)
    · have hEnd := h s hs
      rwa [hRun] at hEnd
    · have hEnd := h s hs
      rwa [hRun] at hEnd

theorem Ensures.pure {Q : α → σ → Prop} (a : α) :
    Ensures (Q a) (Pure.pure a : Procedure ε σ α) Q E :=
  fun _ hs => hs

theorem Ensures.bind {f : α → Procedure ε σ β} {R : β → σ → Prop} (hx : Ensures P x Q E)
    (hf : ∀ a, Ensures (Q a) (f a) R E) : Ensures P (x >>= f) R E := by
  intro s hs
  have hFirst := hx s hs
  change match (match x s with
    | (.ok a, s') => f a s'
    | (.error e, s') => (.error e, s')) with
    | (.ok a, s') => R a s'
    | (.error _, s') => E s'
  rcases hRun : x s with ⟨e | a, s'⟩
  · rw [hRun] at hFirst
    exact hFirst
  · rw [hRun] at hFirst
    exact hf a s' hFirst

theorem Ensures.ofExcept {r : Except ε α} {Q : α → σ → Prop} (hOk : ∀ a s, r = .ok a → P s → Q a s)
    (hError : ∀ s, P s → E s) : Ensures P (Procedure.ofExcept r) Q E := by
  refine .intro (fun s a s' hs hRun => ?_) (fun s e s' hs hRun => ?_)
  · cases hRun
    exact hOk a s rfl hs
  · cases hRun
    exact hError s hs

theorem Ensures.imp (h : Ensures P x Q E) (hP : ∀ s, P' s → P s) (hQ : ∀ a s, Q a s → Q' a s)
    (hE : ∀ s, E s → E' s) : Ensures P' x Q' E' :=
  .intro (fun _ _ _ hs hRun => hQ _ _ (h.of_ok (hP _ hs) hRun))
    (fun _ _ _ hs hRun => hE _ (h.of_error (hP _ hs) hRun))

theorem Ensures.mapError {ε' : Type} {f : ε → ε'} (h : Ensures P x Q E) :
    Ensures P (x.mapError f) Q E := by
  refine .intro (fun s a s' hs hRun => ?_) (fun s e s' hs hRun => ?_)
  · rcases hx : x s with ⟨e | b, t⟩
    · rw [Procedure.mapError, hx] at hRun
      cases hRun
    · rw [Procedure.mapError, hx] at hRun
      cases hRun
      exact h.of_ok hs hx
  · rcases hx : x s with ⟨e | b, t⟩
    · rw [Procedure.mapError, hx] at hRun
      cases hRun
      exact h.of_error hs hx
    · rw [Procedure.mapError, hx] at hRun
      cases hRun

/-- What the state does not decide may be assumed. -/
theorem Ensures.of_condition {c : Prop} (h : c → Ensures P x Q E) :
    Ensures (fun s => c ∧ P s) x Q E :=
  fun s hs => h hs.1 s hs.2

theorem Ensures.of_exists {ι : Type} {P : ι → σ → Prop} (h : ∀ i, Ensures (P i) x Q E) :
    Ensures (fun s => ∃ i, P i s) x Q E := by
  rintro s ⟨i, hs⟩
  exact h i s hs

end Procedure
