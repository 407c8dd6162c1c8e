import Masonwing.Lib.Table

/-!
# Alternate keys

The rows of a table may have a name beside their key. A write keeps the names if every row stays
under the name it has, and if no two rows get one name. An insertion under a new name does so, and
so does an update that keeps the name.
-/

namespace Table

variable {κ ρ α : Type} [DecidableEq κ] {name : ρ → α} {t t' t'' : Table κ ρ} {k k' : κ} {a a' : α}

/-- The row under the key has the name. -/
def Names (name : ρ → α) (t : Table κ ρ) (k : κ) (a : α) : Prop :=
  ∃ r, t.get? k = some r ∧ name r = a

/-- No two rows have one name. -/
def NamedOnce (name : ρ → α) (t : Table κ ρ) : Prop :=
  ∀ k k' a, t.Names name k a → t.Names name k' a → k = k'

theorem Names.unique (h : t.Names name k a) (h' : t.Names name k a') : a = a' := by
  obtain ⟨r, hr, rfl⟩ := h
  obtain ⟨r', hr', rfl⟩ := h'
  cases hr.symm.trans hr'
  rfl

theorem NamedOnce.key_eq_iff (hOnce : t.NamedOnce name) (h : t.Names name k a)
    (h' : t.Names name k' a') : k = k' ↔ a = a' := by
  constructor
  · intro hKey
    subst hKey
    exact h.unique h'
  · intro hName
    subst hName
    exact hOnce k k' a h h'

/-- An update of a row that keeps its name changes no name. -/
theorem names_set_iff {r r' : ρ} (hFound : t.get? k = some r) (hSame : name r' = name r) (j : κ)
    (a : α) : (t.set k r').Names name j a ↔ t.Names name j a := by
  by_cases hj : j = k
  · subst hj
    have hAfter := get?_set_self hFound r'
    constructor
    · rintro ⟨q, hq, hName⟩
      cases hAfter.symm.trans hq
      exact ⟨r, hFound, hSame.symm.trans hName⟩
    · rintro ⟨q, hq, hName⟩
      cases hFound.symm.trans hq
      exact ⟨r', hAfter, hSame.trans hName⟩
  · rw [Names, get?_set_ne _ hj]
    exact Iff.rfl

structure KeepsNames (name : ρ → α) (t t' : Table κ ρ) : Prop where
  names : ∀ k a, t.Names name k a → t'.Names name k a
  once : t.NamedOnce name → t'.NamedOnce name

namespace KeepsNames

theorem refl (name : ρ → α) (t : Table κ ρ) : KeepsNames name t t := ⟨fun _ _ h => h, id⟩

theorem of_eq (h : t' = t) : KeepsNames name t t' := by
  rw [h]
  exact refl name t

theorem trans (h : KeepsNames name t t') (h' : KeepsNames name t' t'') : KeepsNames name t t'' :=
  ⟨fun k a hName => h'.names k a (h.names k a hName), fun hOnce => h'.once (h.once hOnce)⟩

theorem insert {r : ρ} (h : t.insert? k r = some t') (hNew : ∀ j, ¬ t.Names name j (name r)) :
    KeepsNames name t t' := by
  have hOld : ∀ j a, t'.Names name j a → (j = k ∧ a = name r) ∨ t.Names name j a := by
    intro j a hName
    obtain ⟨q, hq, hqName⟩ := hName
    rcases insert?_get?_cases h hq with ⟨hKey, hRow⟩ | ⟨-, hBefore⟩
    · rw [hRow] at hqName
      exact Or.inl ⟨hKey, hqName.symm⟩
    · exact Or.inr ⟨q, hBefore, hqName⟩
  refine ⟨fun j a hName => ?_, fun hOnce j j' a hj hj' => ?_⟩
  · obtain ⟨q, hq, hqName⟩ := hName
    exact ⟨q, insert?_get?_of_some h hq, hqName⟩
  · rcases hOld j a hj with ⟨hKey, hName⟩ | hBefore
    · rcases hOld j' a hj' with ⟨hKey', -⟩ | hBefore'
      · exact hKey.trans hKey'.symm
      · rw [hName] at hBefore'
        exact absurd hBefore' (hNew j')
    · rcases hOld j' a hj' with ⟨-, hName'⟩ | hBefore'
      · rw [hName'] at hBefore
        exact absurd hBefore (hNew j)
      · exact hOnce j j' a hBefore hBefore'

theorem set {r r' : ρ} (hFound : t.get? k = some r) (hSame : name r' = name r) :
    KeepsNames name t (t.set k r') := by
  have hIff := fun j a => names_set_iff hFound hSame j a
  refine ⟨fun j a hName => (hIff j a).mpr hName, fun hOnce j j' a hj hj' => ?_⟩
  exact hOnce j j' a ((hIff j a).mp hj) ((hIff j' a).mp hj')

end KeepsNames

end Table
