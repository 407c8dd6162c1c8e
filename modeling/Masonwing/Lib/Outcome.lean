import Mathlib.Algebra.GroupWithZero.Nat
import Mathlib.Tactic.Common

/-!
# Sequential computations that may fail

A transaction is a chain of steps in `Except`: it either runs to its end or stops at the
first failure and leaves nothing behind. This file gives the two guards such chains are
built from (`require` for a condition, `okOr` for a row that has to be there) and the
inversion lemmas that read a successful chain back as the conjunction of what each of its
steps established. Every later proof takes a successful run apart with these and never
unfolds `bind`.
-/

namespace Outcome

variable {ε δ α β : Type}

/-- Stop with `e` unless `p` holds. -/
def require (p : Prop) [Decidable p] (e : ε) : Except ε Unit := if p then .ok () else .error e

/-- The value of `o`, or stop with `e`. -/
def okOr (o : Option α) (e : ε) : Except ε α :=
  match o with
  | some a => .ok a
  | none => .error e

theorem bind_eq_ok {x : Except ε α} {f : α → Except ε β} {b : β} :
    (x >>= f) = .ok b ↔ ∃ a, x = .ok a ∧ f a = .ok b := by
  cases x with
  | error e =>
    constructor
    · intro h; cases h
    · rintro ⟨_, h, _⟩; cases h
  | ok a =>
    constructor
    · intro h; exact ⟨a, rfl, h⟩
    · rintro ⟨_, h, hf⟩
      cases h
      exact hf

theorem bind_eq_error {x : Except ε α} {f : α → Except ε β} {e : ε} :
    (x >>= f) = .error e ↔ x = .error e ∨ ∃ a, x = .ok a ∧ f a = .error e := by
  cases x with
  | error e' =>
    constructor
    · intro h
      cases h
      exact Or.inl rfl
    · rintro (h | ⟨_, h, _⟩)
      · cases h
        rfl
      · cases h
  | ok a =>
    constructor
    · intro h; exact Or.inr ⟨a, rfl, h⟩
    · rintro (h | ⟨_, h, hf⟩)
      · cases h
      · cases h
        exact hf

@[simp] theorem pure_eq_ok {a b : α} : (pure a : Except ε α) = .ok b ↔ a = b := by
  constructor
  · intro h; cases h; rfl
  · rintro rfl; rfl

@[simp] theorem require_eq_ok {p : Prop} [Decidable p] {e : ε} {u : Unit} :
    require p e = .ok u ↔ p := by
  unfold require
  split <;> simp_all

theorem require_eq_error {p : Prop} [Decidable p] {e e' : ε} :
    require p e = .error e' ↔ ¬ p ∧ e = e' := by
  unfold require
  split <;> simp_all

@[simp] theorem okOr_eq_ok {o : Option α} {e : ε} {a : α} : okOr o e = .ok a ↔ o = some a := by
  cases o <;> simp [okOr]

theorem okOr_eq_error {o : Option α} {e e' : ε} : okOr o e = .error e' ↔ o = none ∧ e = e' := by
  cases o <;> simp [okOr]

@[simp] theorem mapError_eq_ok {x : Except ε α} {f : ε → δ} {a : α} :
    x.mapError f = .ok a ↔ x = .ok a := by
  cases x <;> simp [Except.mapError]

theorem mapError_eq_error {x : Except ε α} {f : ε → δ} {d : δ} :
    x.mapError f = .error d ↔ ∃ e, x = .error e ∧ f e = d := by
  cases x <;> simp [Except.mapError]

/-- A fold that may fail keeps an invariant that each of its steps keeps. -/
theorem foldlM_invariant {I : β → Prop} {f : β → α → Except ε β} {xs : List α} {b b' : β}
    (hStep : ∀ x ∈ xs, ∀ c c', I c → f c x = .ok c' → I c') (hStart : I b)
    (h : xs.foldlM f b = .ok b') : I b' := by
  induction xs generalizing b with
  | nil =>
    cases h
    exact hStart
  | cons x xs ih =>
    rw [List.foldlM_cons, bind_eq_ok] at h
    obtain ⟨c, hc, hRest⟩ := h
    exact ih (fun y hy => hStep y (List.mem_cons_of_mem _ hy))
      (hStep x List.mem_cons_self b c hStart hc) hRest

/-- The results of a traversal are those of its steps. -/
theorem mapM_mem {f : α → Except ε β} {xs : List α} {ys : List β} (h : xs.mapM f = .ok ys) :
    (∀ x ∈ xs, ∃ y ∈ ys, f x = .ok y) ∧ ∀ y ∈ ys, ∃ x ∈ xs, f x = .ok y := by
  induction xs generalizing ys with
  | nil =>
    cases h
    exact ⟨fun _ hMem => (by cases hMem), fun _ hMem => (by cases hMem)⟩
  | cons x xs ih =>
    simp only [List.mapM_cons, bind_eq_ok, pure_eq_ok] at h
    obtain ⟨y, hy, rest, hRest, rfl⟩ := h
    obtain ⟨hForth, hBack⟩ := ih hRest
    constructor
    · intro x' hMem
      rcases List.mem_cons.mp hMem with rfl | hMem
      · exact ⟨y, List.mem_cons_self, hy⟩
      · obtain ⟨y', hy', hStep⟩ := hForth x' hMem
        exact ⟨y', List.mem_cons_of_mem _ hy', hStep⟩
    · intro y' hMem
      rcases List.mem_cons.mp hMem with rfl | hMem
      · exact ⟨x, List.mem_cons_self, hy⟩
      · obtain ⟨x', hx', hStep⟩ := hBack y' hMem
        exact ⟨x', List.mem_cons_of_mem _ hx', hStep⟩

/-- A traversal succeeds if each of its steps does. -/
theorem mapM_succeeds {f : α → Except ε β} {xs : List α} (h : ∀ x ∈ xs, ∃ y, f x = .ok y) :
    ∃ ys, xs.mapM f = .ok ys := by
  induction xs with
  | nil => exact ⟨[], rfl⟩
  | cons x xs ih =>
    obtain ⟨y, hy⟩ := h x List.mem_cons_self
    obtain ⟨ys, hys⟩ := ih fun x' hx' => h x' (List.mem_cons_of_mem _ hx')
    refine ⟨y :: ys, ?_⟩
    simp only [List.mapM_cons, bind_eq_ok, pure_eq_ok]
    exact ⟨y, hy, ys, hys, rfl⟩

/-- A fold succeeds if each of its steps does, whatever it starts from. -/
theorem foldlM_succeeds {f : β → α → Except ε β} {xs : List α} {b : β}
    (h : ∀ c, ∀ x ∈ xs, ∃ c', f c x = .ok c') : ∃ b', xs.foldlM f b = .ok b' := by
  induction xs generalizing b with
  | nil => exact ⟨b, rfl⟩
  | cons x xs ih =>
    obtain ⟨c, hc⟩ := h b x List.mem_cons_self
    obtain ⟨b', hb'⟩ := ih (fun c y hy => h c y (List.mem_cons_of_mem _ hy)) (b := c)
    refine ⟨b', ?_⟩
    rw [List.foldlM_cons, bind_eq_ok]
    exact ⟨c, hc, hb'⟩

/-- A fold whose steps succeed or fail by their element alone. -/
theorem foldlM_succeeds_iff {P : α → Prop} {f : β → α → Except ε β}
    (hStep : ∀ b x, (∃ b', f b x = .ok b') ↔ P x) {xs : List α} {b : β} :
    (∃ b', xs.foldlM f b = .ok b') ↔ ∀ x ∈ xs, P x := by
  induction xs generalizing b with
  | nil => exact ⟨fun _ _ hMem => (by cases hMem), fun _ => ⟨b, rfl⟩⟩
  | cons x xs ih =>
    simp only [List.foldlM_cons, bind_eq_ok, List.forall_mem_cons]
    constructor
    · rintro ⟨b', c, hc, hRest⟩
      exact ⟨(hStep b x).mp ⟨c, hc⟩, ih.mp ⟨b', hRest⟩⟩
    · rintro ⟨hx, hRest⟩
      obtain ⟨c, hc⟩ := (hStep b x).mpr hx
      obtain ⟨b', hb'⟩ := ih.mpr hRest
      exact ⟨b', c, hc, hb'⟩

/-- A fold that fails does so at one of its elements. -/
theorem foldlM_error {f : β → α → Except ε β} {xs : List α} {b : β} {e : ε}
    (h : xs.foldlM f b = .error e) : ∃ c, ∃ x ∈ xs, f c x = .error e := by
  induction xs generalizing b with
  | nil => cases h
  | cons x xs ih =>
    rw [List.foldlM_cons, bind_eq_error] at h
    rcases h with h | ⟨c, -, h⟩
    · exact ⟨b, x, List.mem_cons_self, h⟩
    · obtain ⟨c', y, hy, hError⟩ := ih h
      exact ⟨c', y, List.mem_cons_of_mem _ hy, hError⟩

/-- A fold whose step takes the size of the item from a counter takes their sum. -/
theorem foldlM_spends {f : Nat → α → Except ε Nat} {size : α → Nat} {P : α → Prop}
    {items : List α} (h : ∀ x ∈ items, ∀ n m, f n x = .ok m ↔ n = m + size x ∧ P x) (n m : Nat) :
    items.foldlM f n = .ok m ↔ n = m + (items.map size).sum ∧ ∀ x ∈ items, P x := by
  induction items generalizing n with
  | nil =>
    rw [List.foldlM_nil, pure_eq_ok]
    simp
  | cons x items ih =>
    have hHead := h x List.mem_cons_self
    have hTail := ih fun y hy => h y (List.mem_cons_of_mem _ hy)
    rw [List.foldlM_cons, bind_eq_ok, List.map_cons, List.sum_cons, List.forall_mem_cons]
    constructor
    · rintro ⟨left, hLeft, hRest⟩
      obtain ⟨hSpent, hx⟩ := (hHead n left).mp hLeft
      obtain ⟨hSum, hItems⟩ := (hTail left).mp hRest
      exact ⟨by omega, hx, hItems⟩
    · rintro ⟨hSum, hx, hItems⟩
      refine ⟨m + (items.map size).sum, (hHead n _).mpr ⟨by omega, hx⟩, ?_⟩
      exact (hTail _).mpr ⟨rfl, hItems⟩

theorem foldlM_congr {f g : β → α → Except ε β} {xs : List α} (h : ∀ c, ∀ x ∈ xs, f c x = g c x)
    (b : β) : xs.foldlM f b = xs.foldlM g b := by
  induction xs generalizing b with
  | nil => rfl
  | cons x xs ih =>
    rw [List.foldlM_cons, List.foldlM_cons, h b x List.mem_cons_self]
    congr 1
    funext c
    exact ih (fun c y hy => h c y (List.mem_cons_of_mem _ hy)) c

/-! ## Failures that cannot happen -/

/-- The failure a computation stopped with. -/
def failure? : Except ε α → Option ε
  | .ok _ => none
  | .error e => some e

theorem eq_error_of_failure? {x : Except ε α} {e : ε} (h : failure? x = some e) :
    x = .error e := by
  cases x with
  | ok a => cases h
  | error e' =>
    cases h
    rfl

theorem eq_ok_of_isOk {x : Except ε Unit} (h : x.isOk = true) : x = .ok () := by
  cases x with
  | ok u => rfl
  | error e => cases h

/-- The computation does not stop with `e`. -/
def Avoids (e : ε) (x : Except ε α) : Prop := x ≠ .error e

theorem avoids_ok (e : ε) (a : α) : Avoids e (.ok a : Except ε α) := fun h => by cases h

theorem avoids_error {e e' : ε} (h : e' ≠ e) : Avoids e (.error e' : Except ε α) :=
  fun hError => h (Except.error.inj hError)

theorem avoids_pure (e : ε) (a : α) : Avoids e (pure a : Except ε α) := fun h => by cases h

theorem Avoids.bind {e : ε} {x : Except ε α} {f : α → Except ε β} (hx : Avoids e x)
    (hf : ∀ a, x = .ok a → Avoids e (f a)) : Avoids e (x >>= f) := by
  intro h
  rcases bind_eq_error.mp h with h | ⟨a, ha, h⟩
  · exact hx h
  · exact hf a ha h

theorem avoids_require {p : Prop} [Decidable p] {e e' : ε} (h : e' ≠ e) :
    Avoids e (require p e') := fun hError => h (require_eq_error.mp hError).2

theorem avoids_okOr {o : Option α} {e e' : ε} (h : e' ≠ e) : Avoids e (okOr o e') :=
  fun hError => h (okOr_eq_error.mp hError).2

theorem avoids_mapError {x : Except ε α} {f : ε → δ} {e : δ} (h : ∀ d, f d ≠ e) :
    Avoids e (x.mapError f) := by
  intro hError
  obtain ⟨d, -, hd⟩ := mapError_eq_error.mp hError
  exact h d hd

theorem avoids_mapM {e : ε} {f : α → Except ε β} {xs : List α} (h : ∀ x, Avoids e (f x)) :
    Avoids e (xs.mapM f) := by
  induction xs with
  | nil => exact avoids_ok e []
  | cons x xs ih =>
    rw [List.mapM_cons]
    exact (h x).bind fun _ _ => ih.bind fun _ _ => avoids_pure e _

theorem avoids_foldlM {e : ε} {f : β → α → Except ε β} {xs : List α} {b : β}
    (h : ∀ b x, Avoids e (f b x)) : Avoids e (xs.foldlM f b) := by
  induction xs generalizing b with
  | nil => exact avoids_ok e b
  | cons x xs ih =>
    rw [List.foldlM_cons]
    exact (h b x).bind fun _ _ => ih

/-! ## Transactions -/

/-- Commit what a computation made of the state, or keep the state if it failed. -/
def transact {σ : Type} (s : σ) (x : Except ε (σ × α)) : σ × Except ε α :=
  match x with
  | .ok (s', a) => (s', .ok a)
  | .error e => (s, .error e)

/-- A transaction commits or changes nothing. -/
theorem transact_cases {σ : Type} (s : σ) (x : Except ε (σ × α)) :
    (∃ s' a, x = .ok (s', a) ∧ transact s x = (s', .ok a)) ∨
      ∃ e, x = .error e ∧ transact s x = (s, .error e) := by
  cases x with
  | ok p => exact Or.inl ⟨p.1, p.2, rfl, rfl⟩
  | error e => exact Or.inr ⟨e, rfl, rfl⟩

/-- A transaction keeps what its computation keeps. -/
theorem transact_invariant {σ : Type} {I : σ → Prop} {s : σ} {x : Except ε (σ × α)} (hs : I s)
    (h : ∀ s' a, x = .ok (s', a) → I s') : I (transact s x).1 := by
  rcases transact_cases s x with ⟨s', a, hx, ht⟩ | ⟨e, -, ht⟩
  · rw [ht]
    exact h s' a hx
  · rw [ht]
    exact hs

end Outcome
