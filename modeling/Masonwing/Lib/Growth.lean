import Masonwing.Lib.Table

/-!
# Tables that only grow

A table grows with respect to a measure of its rows if no row is lost and no row falls behind. The
usual writes are growth: an insertion, and an update of one row that does not fall behind.
-/

namespace Table

variable {κ ρ : Type} [DecidableEq κ] {measure : ρ → Int} {t t' t'' : Table κ ρ}

def Grows (measure : ρ → Int) (t t' : Table κ ρ) : Prop :=
  ∀ k r, t.get? k = some r → ∃ r', t'.get? k = some r' ∧ measure r ≤ measure r'

namespace Grows

theorem refl (measure : ρ → Int) (t : Table κ ρ) : Grows measure t t :=
  fun _ r hr => ⟨r, hr, le_refl _⟩

theorem of_eq (h : t' = t) : Grows measure t t' := by
  rw [h]
  exact refl measure t

theorem trans (h : Grows measure t t') (h' : Grows measure t' t'') : Grows measure t t'' := by
  intro k r hr
  obtain ⟨r', hr', hLe⟩ := h k r hr
  obtain ⟨r'', hr'', hLe'⟩ := h' k r' hr'
  exact ⟨r'', hr'', hLe.trans hLe'⟩

theorem insert {k : κ} {r : ρ} (h : t.insert? k r = some t') : Grows measure t t' :=
  fun _ q hq => ⟨q, insert?_get?_of_some h hq, le_refl _⟩

theorem set {k : κ} {r r' : ρ} (hFound : t.get? k = some r) (hLe : measure r ≤ measure r') :
    Grows measure t (t.set k r') := by
  intro j q hq
  by_cases hj : j = k
  · subst hj
    cases hFound.symm.trans hq
    exact ⟨r', get?_set_self hFound r', hLe⟩
  · exact ⟨q, (get?_set_ne _ hj r').trans hq, le_refl _⟩

end Grows

end Table
