import Mathlib.Data.List.Infix

/-!
# Patterns of `ILIKE`

`%` matches any text, `_` any character, a backslash takes the next character as it is, and
characters are compared up to their case. A text in which these three are escaped, between two `%`,
matches exactly the texts that contain it (`matches_contains`).
-/

namespace Like

/-- `ILIKE` with the escape character `\`. -/
def Matches (fold : Char → Char) : List Char → List Char → Bool
  | [], [] => true
  | [], _ :: _ => false
  | '%' :: pattern, text => text.tails.any fun tail => Matches fold pattern tail
  | '_' :: pattern, text =>
    match text with
    | [] => false
    | _ :: text => Matches fold pattern text
  | '\\' :: c :: pattern, text =>
    match text with
    | [] => false
    | d :: text => decide (fold c = fold d) && Matches fold pattern text
  | c :: pattern, text =>
    match text with
    | [] => false
    | d :: text => decide (fold c = fold d) && Matches fold pattern text

/-- A backslash before each backslash, percent sign and underscore. -/
def escape (text : List Char) : List Char :=
  text.flatMap fun c => if c = '\\' ∨ c = '%' ∨ c = '_' then ['\\', c] else [c]

/-- The pattern of the texts that contain a text. -/
def containing (text : List Char) : List Char := '%' :: (escape text ++ ['%'])

/-- Every backslash that escapes has a character to escape, as `ILIKE` asks of a pattern. -/
def WellEscaped : List Char → Bool
  | [] => true
  | ['\\'] => false
  | '\\' :: _ :: pattern => WellEscaped pattern
  | _ :: pattern => WellEscaped pattern

variable {fold : Char → Char}

theorem matches_percent {pattern text : List Char} :
    Matches fold ('%' :: pattern) text = true ↔
      ∃ tail, tail <:+ text ∧ Matches fold pattern tail = true := by
  rw [Matches, List.any_eq_true]
  simp only [List.mem_tails]

theorem matches_rest (text : List Char) : Matches fold ['%'] text = true :=
  matches_percent.mpr ⟨[], List.nil_suffix, rfl⟩

theorem escape_cons (c : Char) (text : List Char) :
    escape (c :: text) =
      (if c = '\\' ∨ c = '%' ∨ c = '_' then ['\\', c] else [c]) ++ escape text := rfl

/-- An escaped character matches itself only. -/
theorem matches_escaped {c : Char} {pattern text : List Char} :
    Matches fold ((if c = '\\' ∨ c = '%' ∨ c = '_' then ['\\', c] else [c]) ++ pattern) text =
      true ↔
      ∃ d tail, text = d :: tail ∧ fold c = fold d ∧ Matches fold pattern tail = true := by
  have hOne : ∀ text : List Char, (match text with
      | [] => false
      | d :: text => decide (fold c = fold d) && Matches fold pattern text) = true ↔
      ∃ d tail, text = d :: tail ∧ fold c = fold d ∧ Matches fold pattern tail = true := by
    intro text
    cases text with
    | nil => simp
    | cons d text => simp
  by_cases hSpecial : c = '\\' ∨ c = '%' ∨ c = '_'
  · rw [if_pos hSpecial, ← hOne text]
    rfl
  · rw [if_neg hSpecial, ← hOne text]
    obtain ⟨hBackslash, hOthers⟩ := not_or.mp hSpecial
    obtain ⟨hPercent, hUnderscore⟩ := not_or.mp hOthers
    rw [List.singleton_append, Matches.eq_def fold (c :: pattern)]
    split
    · rename_i hNil
      cases hNil
    · rename_i hNil
      cases hNil
    · rename_i hCons
      exact absurd (List.cons.inj hCons).1 hPercent
    · rename_i hCons
      exact absurd (List.cons.inj hCons).1 hUnderscore
    · rename_i hCons
      exact absurd (List.cons.inj hCons).1 hBackslash
    · rename_i hCons
      obtain ⟨rfl, rfl⟩ := List.cons.inj hCons
      rfl

theorem wellEscaped_cons {c : Char} {pattern : List Char} (hc : c ≠ '\\') :
    WellEscaped (c :: pattern) = WellEscaped pattern := by
  rw [WellEscaped.eq_def (c :: pattern)]
  split
  · rename_i hNil
    cases hNil
  · rename_i hOne
    exact absurd (List.cons.inj hOne).1 hc
  · rename_i hTwo
    exact absurd (List.cons.inj hTwo).1 hc
  · rename_i hCons
    obtain ⟨-, rfl⟩ := List.cons.inj hCons
    rfl

theorem wellEscaped_escape (q pattern : List Char) :
    WellEscaped (escape q ++ pattern) = WellEscaped pattern := by
  induction q with
  | nil => rfl
  | cons c q ih =>
    rw [escape_cons, List.append_assoc]
    by_cases hSpecial : c = '\\' ∨ c = '%' ∨ c = '_'
    · rw [if_pos hSpecial]
      exact ih
    · rw [if_neg hSpecial, List.singleton_append,
        wellEscaped_cons (fun hc => hSpecial (Or.inl hc)), ih]

theorem wellEscaped_containing (q : List Char) : WellEscaped (containing q) = true := by
  rw [containing, wellEscaped_cons (by decide), wellEscaped_escape, wellEscaped_cons (by decide)]
  rfl

theorem matches_escape {q text : List Char} :
    Matches fold (escape q ++ ['%']) text = true ↔ q.map fold <+: text.map fold := by
  induction q generalizing text with
  | nil => simp [escape, matches_rest]
  | cons c q ih =>
    rw [escape_cons, List.append_assoc, matches_escaped, List.map_cons]
    cases text with
    | nil => simp
    | cons d text =>
      rw [List.map_cons, List.cons_prefix_cons, ← ih]
      simp

theorem matches_contains (q text : List Char) :
    Matches fold (containing q) text = true ↔ q.map fold <:+: text.map fold := by
  rw [containing, matches_percent, List.infix_iff_prefix_suffix]
  constructor
  · rintro ⟨tail, hTail, hMatches⟩
    exact ⟨tail.map fold, matches_escape.mp hMatches, hTail.map fold⟩
  · rintro ⟨tail, hStart, hTail⟩
    obtain ⟨before, hBefore⟩ := hTail
    obtain ⟨first, second, rfl, -, rfl⟩ := List.map_eq_append_iff.mp hBefore.symm
    exact ⟨second, List.suffix_append first second, matches_escape.mpr hStart⟩

end Like
