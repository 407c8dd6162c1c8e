import Mathlib.Algebra.BigOperators.Group.List.Basic
import Mathlib.Data.List.Nodup
import Mathlib.Tactic.Ring
import Masonwing.Lib.Outcome

/-!
# Keyed tables

A table is a list of rows in insertion order whose keys are pairwise different. The
primary key is the index of the row, so two rows with one key cannot be written down and
`insert?` has to refuse a taken key. `set` replaces the row under a key, `updateWhere`
rewrites all rows that satisfy a condition, `upsert` and `erase` write a map, `any` and
`select` are the two kinds of queries, and `sum` aggregates a quantity over the rows.

The lemmas describe each operation through `get?` and through `sum`; a client never looks
at the list.
-/

/-- A list of rows with pairwise different keys. -/
structure Table (κ ρ : Type) where
  rows : List (κ × ρ)
  nodup : (rows.map Prod.fst).Nodup

namespace Table

variable {κ ρ : Type}

def empty : Table κ ρ := ⟨[], List.nodup_nil⟩

instance : Inhabited (Table κ ρ) := ⟨empty⟩

def keys (t : Table κ ρ) : List κ := t.rows.map Prod.fst

/-- Some row satisfies `p`. -/
def any (t : Table κ ρ) (p : κ → ρ → Bool) : Bool := t.rows.any fun r => p r.1 r.2

/-- The rows that satisfy `p`, in insertion order. -/
def select (t : Table κ ρ) (p : κ → ρ → Bool) : List (κ × ρ) := t.rows.filter fun r => p r.1 r.2

/-- The first row that satisfies `p`. -/
def find? (t : Table κ ρ) (p : κ → ρ → Bool) : Option (κ × ρ) :=
  t.rows.find? fun r => p r.1 r.2

/-- The total of `f` over all rows. -/
def sum (t : Table κ ρ) (f : κ → ρ → Int) : Int := (t.rows.map fun r => f r.1 r.2).sum

@[simp] theorem sum_empty (f : κ → ρ → Int) : (empty : Table κ ρ).sum f = 0 := rfl

theorem keys_map_rows (t : Table κ ρ) (g : κ → ρ → ρ) :
    (t.rows.map fun r => (r.1, g r.1 r.2)).map Prod.fst = t.rows.map Prod.fst := by
  simp [List.map_map, Function.comp_def]

/-- Rewrite every row that satisfies `p`; keys stay. -/
def updateWhere (t : Table κ ρ) (p : κ → ρ → Bool) (f : ρ → ρ) : Table κ ρ :=
  ⟨t.rows.map fun r => (r.1, if p r.1 r.2 then f r.2 else r.2), by
    rw [keys_map_rows t fun k r => if p k r then f r else r]
    exact t.nodup⟩

/-- Apply a step that may fail to a row that satisfies `p`. -/
def rewriteRow {ε : Type} (p : κ → ρ → Bool) (f : ρ → Except ε ρ) (k : κ) (r : ρ) : Except ε ρ :=
  if p k r then f r else .ok r

/-- `rewriteRow` on every row, up to the first failure. -/
def mapRowsM {ε : Type} (p : κ → ρ → Bool) (f : ρ → Except ε ρ) :
    List (κ × ρ) → Except ε (List (κ × ρ))
  | [] => .ok []
  | (k, r) :: rows => do
    let r' ← rewriteRow p f k r
    let rows' ← mapRowsM p f rows
    return (k, r') :: rows'

theorem mapRowsM_cons {ε : Type} {p : κ → ρ → Bool} {f : ρ → Except ε ρ} {k : κ} {r : ρ}
    {l l' : List (κ × ρ)} (h : mapRowsM p f ((k, r) :: l) = .ok l') :
    ∃ r' rows, rewriteRow p f k r = .ok r' ∧ mapRowsM p f l = .ok rows ∧
      l' = (k, r') :: rows := by
  rw [mapRowsM, Outcome.bind_eq_ok] at h
  obtain ⟨r', hr, h⟩ := h
  rw [Outcome.bind_eq_ok] at h
  obtain ⟨rows, hRows, h⟩ := h
  exact ⟨r', rows, hr, hRows, (Outcome.pure_eq_ok.mp h).symm⟩

theorem mapRowsM_keys {ε : Type} {p : κ → ρ → Bool} {f : ρ → Except ε ρ} {l l' : List (κ × ρ)}
    (h : mapRowsM p f l = .ok l') : l'.map Prod.fst = l.map Prod.fst := by
  induction l generalizing l' with
  | nil =>
    cases h
    rfl
  | cons a l ih =>
    obtain ⟨r', rows, -, hRows, rfl⟩ := mapRowsM_cons h
    rw [List.map_cons, List.map_cons, ih hRows]

/-- `updateWhere` with a step that may fail; the first failure fails the whole update. -/
def updateWhereM {ε : Type} (t : Table κ ρ) (p : κ → ρ → Bool) (f : ρ → Except ε ρ) :
    Except ε (Table κ ρ) :=
  match h : mapRowsM p f t.rows with
  | .ok rows => .ok ⟨rows, by rw [mapRowsM_keys h]; exact t.nodup⟩
  | .error e => .error e

theorem updateWhereM_rows {ε : Type} {t t' : Table κ ρ} {p : κ → ρ → Bool} {f : ρ → Except ε ρ}
    (h : t.updateWhereM p f = .ok t') : mapRowsM p f t.rows = .ok t'.rows := by
  unfold updateWhereM at h
  split at h
  · rename_i rows hRows
    cases h
    exact hRows
  · cases h

theorem mapRowsM_succeeds {ε : Type} {p : κ → ρ → Bool} {f : ρ → Except ε ρ}
    {l : List (κ × ρ)} (h : ∀ row ∈ l, p row.1 row.2 = true → ∃ r, f row.2 = .ok r) :
    ∃ l', mapRowsM p f l = .ok l' := by
  induction l with
  | nil => exact ⟨[], rfl⟩
  | cons row l ih =>
    obtain ⟨k, r⟩ := row
    obtain ⟨l', hRest⟩ := ih fun row hRow => h row (List.mem_cons_of_mem _ hRow)
    have hHead : ∃ r', rewriteRow p f k r = .ok r' := by
      unfold rewriteRow
      split
      · rename_i hRow
        exact h (k, r) List.mem_cons_self hRow
      · exact ⟨r, rfl⟩
    obtain ⟨r', hRow⟩ := hHead
    refine ⟨(k, r') :: l', ?_⟩
    simp only [mapRowsM, Outcome.bind_eq_ok, Outcome.pure_eq_ok]
    exact ⟨r', hRow, l', hRest, rfl⟩

theorem updateWhereM_succeeds {ε : Type} {t : Table κ ρ} {p : κ → ρ → Bool}
    {f : ρ → Except ε ρ} (h : ∀ row ∈ t.rows, p row.1 row.2 = true → ∃ r, f row.2 = .ok r) :
    ∃ t', t.updateWhereM p f = .ok t' := by
  obtain ⟨l, hl⟩ := mapRowsM_succeeds h
  unfold updateWhereM
  split
  · exact ⟨_, rfl⟩
  · rename_i e hError
    rw [hl] at hError
    cases hError

variable [DecidableEq κ]

/-- The row under the key `k`. -/
def get? (t : Table κ ρ) (k : κ) : Option ρ := t.rows.lookup k

def contains (t : Table κ ρ) (k : κ) : Bool := (t.get? k).isSome

/-- Replace the row under the key `k`, if there is one. -/
def set (t : Table κ ρ) (k : κ) (r : ρ) : Table κ ρ :=
  t.updateWhere (fun k' _ => decide (k' = k)) fun _ => r

/-- Add a row under a free key. -/
def insert? (t : Table κ ρ) (k : κ) (r : ρ) : Option (Table κ ρ) :=
  if h : k ∈ t.rows.map Prod.fst then none
  else some ⟨t.rows ++ [(k, r)], by
    rw [List.map_append, List.map_singleton]
    exact List.nodup_append.mpr ⟨t.nodup, List.nodup_singleton k, by
      intro a ha b hb
      rw [List.mem_singleton] at hb
      rintro rfl
      subst hb
      exact h ha⟩⟩

/-- Replace the row under the key `k`, or add one. -/
def upsert (t : Table κ ρ) (k : κ) (r : ρ) : Table κ ρ := (t.insert? k r).getD (t.set k r)

/-- Remove the row under the key `k`. -/
def erase (t : Table κ ρ) (k : κ) : Table κ ρ :=
  ⟨t.rows.filter fun r => decide (r.1 ≠ k), t.nodup.sublist (List.filter_sublist.map Prod.fst)⟩

/-- The rows that satisfy `p`. -/
def retain (t : Table κ ρ) (p : κ → ρ → Bool) : Table κ ρ :=
  ⟨t.rows.filter fun r => p r.1 r.2, t.nodup.sublist (List.filter_sublist.map Prod.fst)⟩

/-! ## Rows of a list with different keys -/

theorem lookup_eq_some_iff {l : List (κ × ρ)} (hl : (l.map Prod.fst).Nodup) {k : κ} {r : ρ} :
    l.lookup k = some r ↔ (k, r) ∈ l := by
  induction l with
  | nil => simp
  | cons a l ih =>
    obtain ⟨ka, ra⟩ := a
    rw [List.map_cons, List.nodup_cons] at hl
    by_cases hk : k = ka
    · subst hk
      have hNot : (k, r) ∉ l := fun hm => hl.1 (List.mem_map.mpr ⟨_, hm, rfl⟩)
      simp [hNot, eq_comm]
    · have hb : (k == ka) = false := by simpa using hk
      simp [List.lookup_cons, hb, hk, ih hl.2]

theorem lookup_eq_none_iff {l : List (κ × ρ)} {k : κ} :
    l.lookup k = none ↔ k ∉ l.map Prod.fst := by
  induction l with
  | nil => simp
  | cons a l ih =>
    obtain ⟨ka, ra⟩ := a
    by_cases hk : k = ka
    · subst hk
      simp
    · have hb : (k == ka) = false := by simpa using hk
      rw [List.map_cons, List.mem_cons, not_or, ← ih]
      simp [List.lookup_cons, hb, hk]

theorem lookup_map (l : List (κ × ρ)) (g : κ → ρ → ρ) (k : κ) :
    (l.map fun r => (r.1, g r.1 r.2)).lookup k = (l.lookup k).map (g k) := by
  induction l with
  | nil => rfl
  | cons a l ih =>
    obtain ⟨ka, ra⟩ := a
    by_cases hk : k = ka
    · subst hk
      simp
    · have hb : (k == ka) = false := by simpa using hk
      simp only [List.map_cons, List.lookup_cons, hb, ih]

/-! ## Reading -/

theorem get?_eq_some_iff {t : Table κ ρ} {k : κ} {r : ρ} :
    t.get? k = some r ↔ (k, r) ∈ t.rows := lookup_eq_some_iff t.nodup

theorem get?_eq_none_of_not_contains {t : Table κ ρ} {k : κ} (h : t.contains k = false) :
    t.get? k = none := by
  rw [contains] at h
  exact Option.not_isSome_iff_eq_none.mp (by rw [h]; decide)

theorem contains_iff {t : Table κ ρ} {k : κ} : t.contains k = true ↔ ∃ r, t.get? k = some r := by
  rw [contains, Option.isSome_iff_exists]

theorem any_iff {t : Table κ ρ} {p : κ → ρ → Bool} :
    t.any p = true ↔ ∃ k r, t.get? k = some r ∧ p k r = true := by
  simp only [any, List.any_eq_true, get?_eq_some_iff, Prod.exists]

theorem any_eq_false_iff {t : Table κ ρ} {p : κ → ρ → Bool} :
    t.any p = false ↔ ∀ k r, t.get? k = some r → p k r = false := by
  rw [← Bool.not_eq_true, any_iff]
  constructor
  · intro h k r hr
    by_contra hp
    exact h ⟨k, r, hr, by simpa using hp⟩
  · rintro h ⟨k, r, hr, hp⟩
    rw [h k r hr] at hp
    cases hp

theorem mem_select {t : Table κ ρ} {p : κ → ρ → Bool} {k : κ} {r : ρ} :
    (k, r) ∈ t.select p ↔ t.get? k = some r ∧ p k r = true := by
  rw [select, List.mem_filter, get?_eq_some_iff]

theorem find?_some {t : Table κ ρ} {p : κ → ρ → Bool} {k : κ} {r : ρ}
    (h : t.find? p = some (k, r)) : t.get? k = some r ∧ p k r = true := by
  refine ⟨get?_eq_some_iff.mpr (List.mem_of_find?_eq_some h), ?_⟩
  have := List.find?_some h
  exact this

theorem find?_eq_none_iff {t : Table κ ρ} {p : κ → ρ → Bool} :
    t.find? p = none ↔ ∀ k r, t.get? k = some r → p k r = false := by
  simp only [find?, List.find?_eq_none, Prod.forall, get?_eq_some_iff, Bool.not_eq_true]

@[simp] theorem get?_empty (k : κ) : (empty : Table κ ρ).get? k = none := rfl

/-! ## Writing -/

theorem get?_updateWhere (t : Table κ ρ) (p : κ → ρ → Bool) (f : ρ → ρ) (k : κ) :
    (t.updateWhere p f).get? k = (t.get? k).map fun r => if p k r then f r else r :=
  lookup_map t.rows (fun k r => if p k r then f r else r) k

theorem get?_set (t : Table κ ρ) (k j : κ) (r : ρ) :
    (t.set k r).get? j = if j = k then (t.get? j).map fun _ => r else t.get? j := by
  rw [set, get?_updateWhere]
  by_cases hj : j = k <;> simp [hj]

theorem get?_set_self {t : Table κ ρ} {k : κ} {old : ρ} (h : t.get? k = some old) (r : ρ) :
    (t.set k r).get? k = some r := by
  rw [get?_set, if_pos rfl, h]
  rfl

theorem get?_set_ne (t : Table κ ρ) {k j : κ} (h : j ≠ k) (r : ρ) :
    (t.set k r).get? j = t.get? j := by
  rw [get?_set, if_neg h]

/-- A row of `t.set k r` is the new one or an old one under another key. -/
theorem get?_set_cases {t : Table κ ρ} {k j : κ} {r x : ρ} (h : (t.set k r).get? j = some x) :
    (j = k ∧ x = r) ∨ (j ≠ k ∧ t.get? j = some x) := by
  by_cases hj : j = k
  · subst hj
    rw [get?_set, if_pos rfl] at h
    obtain ⟨_, _, rfl⟩ := Option.map_eq_some_iff.mp h
    exact Or.inl ⟨rfl, rfl⟩
  · rw [get?_set_ne t hj] at h
    exact Or.inr ⟨hj, h⟩

theorem mapRowsM_lookup {ε : Type} {p : κ → ρ → Bool} {f : ρ → Except ε ρ}
    {l l' : List (κ × ρ)} (h : mapRowsM p f l = .ok l') (k : κ) :
    (l.lookup k = none ∧ l'.lookup k = none) ∨
      ∃ r r', l.lookup k = some r ∧ l'.lookup k = some r' ∧
        rewriteRow p f k r = .ok r' := by
  induction l generalizing l' with
  | nil =>
    cases h
    exact Or.inl ⟨rfl, rfl⟩
  | cons a l ih =>
    obtain ⟨ka, ra⟩ := a
    obtain ⟨r', rows, hr, hRows, rfl⟩ := mapRowsM_cons h
    by_cases hk : k = ka
    · subst hk
      exact Or.inr ⟨ra, r', by simp, by simp, hr⟩
    · have hb : (k == ka) = false := by simpa using hk
      simpa only [List.lookup_cons, hb] using ih hRows

/-- What a monadic update does to the row under each key. -/
theorem updateWhereM_get? {ε : Type} {t t' : Table κ ρ} {p : κ → ρ → Bool} {f : ρ → Except ε ρ}
    (h : t.updateWhereM p f = .ok t') (k : κ) :
    (t.get? k = none ∧ t'.get? k = none) ∨
      ∃ r r', t.get? k = some r ∧ t'.get? k = some r' ∧
        rewriteRow p f k r = .ok r' :=
  mapRowsM_lookup (updateWhereM_rows h) k

theorem insert?_eq_some {t t' : Table κ ρ} {k : κ} {r : ρ} (h : t.insert? k r = some t') :
    t.get? k = none ∧ t'.rows = t.rows ++ [(k, r)] := by
  unfold insert? at h
  split at h
  · cases h
  · rename_i hk
    cases h
    exact ⟨lookup_eq_none_iff.mpr hk, rfl⟩

theorem insert?_isSome_iff {t : Table κ ρ} {k : κ} {r : ρ} :
    (∃ t', t.insert? k r = some t') ↔ t.get? k = none := by
  constructor
  · rintro ⟨t', h⟩
    exact (insert?_eq_some h).1
  · intro h
    have hk : k ∉ t.rows.map Prod.fst := lookup_eq_none_iff.mp h
    exact ⟨_, by rw [insert?, dif_neg hk]⟩

theorem insert?_get? {t t' : Table κ ρ} {k : κ} {r : ρ} (h : t.insert? k r = some t') (j : κ) :
    t'.get? j = if j = k then some r else t.get? j := by
  obtain ⟨hk, hRows⟩ := insert?_eq_some h
  rw [get?, hRows, List.lookup_append, ← get?]
  by_cases hj : j = k
  · subst hj
    simp [hk]
  · have hb : (j == k) = false := by simpa using hj
    simp [hj, hb, List.lookup_cons]

theorem insert?_get?_self {t t' : Table κ ρ} {k : κ} {r : ρ} (h : t.insert? k r = some t') :
    t'.get? k = some r := by
  rw [insert?_get? h, if_pos rfl]

/-- Every old row is still there. -/
theorem insert?_get?_of_some {t t' : Table κ ρ} {k j : κ} {r x : ρ}
    (h : t.insert? k r = some t') (hj : t.get? j = some x) : t'.get? j = some x := by
  rw [insert?_get? h, if_neg]
  · exact hj
  · rintro rfl
    rw [(insert?_eq_some h).1] at hj
    cases hj

theorem insert?_get?_cases {t t' : Table κ ρ} {k j : κ} {r x : ρ}
    (h : t.insert? k r = some t') (hj : t'.get? j = some x) :
    (j = k ∧ x = r) ∨ (j ≠ k ∧ t.get? j = some x) := by
  rw [insert?_get? h] at hj
  split at hj
  · rename_i hk
    cases hj
    exact Or.inl ⟨hk, rfl⟩
  · rename_i hk
    exact Or.inr ⟨hk, hj⟩

theorem get?_upsert (t : Table κ ρ) (k j : κ) (r : ρ) :
    (t.upsert k r).get? j = if j = k then some r else t.get? j := by
  rw [upsert]
  cases h : t.insert? k r with
  | some t' => exact insert?_get? h j
  | none =>
    have hOld : t.get? k ≠ none := by
      intro hNone
      obtain ⟨t', ht'⟩ := insert?_isSome_iff.mpr hNone
      rw [h] at ht'
      cases ht'
    obtain ⟨old, hOld⟩ := Option.ne_none_iff_exists'.mp hOld
    rw [Option.getD_none, get?_set]
    split
    · rename_i hj
      subst hj
      rw [hOld]
      rfl
    · rfl

theorem get?_erase (t : Table κ ρ) (k j : κ) :
    (t.erase k).get? j = if j = k then none else t.get? j := by
  ext r
  rw [get?_eq_some_iff, erase, List.mem_filter]
  by_cases hj : j = k
  · subst hj
    simp
  · simp [hj, get?_eq_some_iff]

theorem get?_retain {t : Table κ ρ} {p : κ → ρ → Bool} {k : κ} {r : ρ} :
    (t.retain p).get? k = some r ↔ t.get? k = some r ∧ p k r = true := by
  rw [get?_eq_some_iff, get?_eq_some_iff, retain, List.mem_filter]

/-! ## Sums -/

theorem sum_insert? {t t' : Table κ ρ} {k : κ} {r : ρ} (h : t.insert? k r = some t')
    (f : κ → ρ → Int) : t'.sum f = t.sum f + f k r := by
  simp [sum, (insert?_eq_some h).2]

/-- A list sum changes by the difference at the one key whose row changes. -/
theorem list_sum_set {l : List (κ × ρ)} (hl : (l.map Prod.fst).Nodup) {k : κ} {old r : ρ}
    (h : (k, old) ∈ l) (f : κ → ρ → Int) :
    ((l.map fun x => (x.1, if decide (x.1 = k) then r else x.2)).map fun x => f x.1 x.2).sum =
      (l.map fun x => f x.1 x.2).sum - f k old + f k r := by
  induction l with
  | nil => cases h
  | cons a l ih =>
    obtain ⟨ka, ra⟩ := a
    rw [List.map_cons, List.nodup_cons] at hl
    simp only [List.map_cons, List.sum_cons]
    rcases List.mem_cons.mp h with he | hm
    · cases he
      -- the rest of the list has no row under `k`
      have hRest : (l.map fun x => (x.1, if decide (x.1 = k) then r else x.2)) = l := by
        conv_rhs => rw [← List.map_id l]
        apply List.map_congr_left
        intro x hx
        have hne : x.1 ≠ k := fun he => hl.1 (he ▸ List.mem_map.mpr ⟨x, hx, rfl⟩)
        simp [hne]
      rw [hRest]
      simp only [decide_true, if_true]
      ring
    · have hne : ka ≠ k := by
        rintro rfl
        exact hl.1 (List.mem_map.mpr ⟨_, hm, rfl⟩)
      rw [ih hl.2 hm]
      simp only [hne, decide_false, Bool.false_eq_true, if_false]
      ring

theorem sum_set {t : Table κ ρ} {k : κ} {old : ρ} (h : t.get? k = some old) (r : ρ)
    (f : κ → ρ → Int) : (t.set k r).sum f = t.sum f - f k old + f k r :=
  list_sum_set t.nodup (get?_eq_some_iff.mp h) f

theorem sum_eq_zero {t : Table κ ρ} {f : κ → ρ → Int}
    (h : ∀ k r, t.get? k = some r → f k r = 0) : t.sum f = 0 := by
  apply List.sum_eq_zero
  intro x hx
  obtain ⟨⟨k, r⟩, hm, rfl⟩ := List.mem_map.mp hx
  exact h k r (get?_eq_some_iff.mpr hm)

end Table
