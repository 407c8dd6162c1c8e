import Masonwing.Store.Queries

/-!
# What a collection shows

* `searchPattern_eq`: the three replacements, one after the other, escape each character once;
* `search_literal`: so a search finds the labels that contain the query as it is.
-/

namespace Masonwing

open Outcome

/-! ## Search -/

/-- No later replacement touches what an earlier one produced. -/
theorem escapeLike_eq (value : List Char) : escapeLike value = Like.escape value := by
  unfold escapeLike replaceChar Like.escape
  rw [List.flatMap_assoc, List.flatMap_assoc]
  apply List.flatMap_congr
  intro c _
  by_cases hBackslash : c = '\\'
  · subst hBackslash
    rfl
  · by_cases hPercent : c = '%'
    · subst hPercent
      rfl
    · by_cases hUnderscore : c = '_'
      · subst hUnderscore
        rfl
      · simp [hBackslash, hPercent, hUnderscore]

theorem searchPattern_eq (query : String) :
    searchPattern query = Like.containing query.toList := by
  rw [searchPattern, escapeLike_eq, Like.containing]

/-- A search finds the labels that contain the query, up to case, and its pattern is one that
`ILIKE` accepts. -/
theorem search_literal (env : Env) (query label : String) (hQuery : query ≠ "") :
    Like.WellEscaped (searchPattern query) = true ∧
      (labelMatches env query label = true ↔
        query.toList.map env.foldCase <:+: label.toList.map env.foldCase) := by
  refine ⟨?_, ?_⟩
  · rw [searchPattern_eq]
    exact Like.wellEscaped_containing _
  · rw [labelMatches, decide_eq_false hQuery, Bool.false_or, searchPattern_eq]
    exact Like.matches_contains _ _

theorem search_percent_literal :
    Like.WellEscaped (searchPattern "50%_\\") = true ∧
      (labelMatches Sample.env "50%_\\" "up to 50%_\\ off" = true ↔
        "50%_\\".toList.map Sample.env.foldCase <:+:
          "up to 50%_\\ off".toList.map Sample.env.foldCase) :=
  search_literal Sample.env "50%_\\" "up to 50%_\\ off" (by decide)

end Masonwing
