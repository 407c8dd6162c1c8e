import Masonwing.Lib.Utf8
import Masonwing.Proofs.Interpreter

/-!
# The order of step keys

The number in a step key has four digits, or as many as it needs. The last step that a definition
may ask for has five, and its key stands between those of the thousandth step and the step before.

* `stepKey_lt_iff`: two keys are in the order of their steps unless the later one is this last step
  and the earlier one has four digits;
* `readRunCheckpoints_order`: so the rows of a run are read in the order of its traversal, up to the
  last step but one.
-/

namespace Masonwing

open Outcome Text

/-- The largest `max_total_steps` that the contract of a definition admits. -/
def totalStepsBound : Nat := 10000

theorem logicalStepKey_toList (seq : Nat) (nodeId : String) :
    (logicalStepKey seq nodeId).toList = (padded 4 seq).toList ++ ':' :: nodeId.toList := by
  simp [logicalStepKey, String.toList_append]

theorem logicalStepKey_precedes {s t : Nat} (hst : s < t) (ht : t < 10000) (m n : String) :
    Precedes (logicalStepKey s m).toList (logicalStepKey t n).toList := by
  rw [logicalStepKey_toList, logicalStepKey_toList]
  exact (padded_precedes hst (by omega)).append _ _

/-- The key of the last step begins with that of the thousandth one. -/
theorem lastKey_toList (nodeId : String) :
    (logicalStepKey totalStepsBound nodeId).toList =
      (padded 4 1000).toList ++ '0' :: ':' :: nodeId.toList := by
  have hDigits : (padded 4 totalStepsBound).toList = (padded 4 1000).toList ++ ['0'] := by
    simp only [padded, String.toList_ofList]
    decide
  rw [logicalStepKey_toList, hDigits, List.append_assoc]
  rfl

theorem lastKey_after {s : Nat} (hs : s < 1000) (m n : String) :
    Precedes (logicalStepKey s m).toList (logicalStepKey totalStepsBound n).toList := by
  rw [logicalStepKey_toList, lastKey_toList]
  exact (padded_precedes hs (by omega)).append _ _

theorem lastKey_before {s : Nat} (hThousand : 1000 ≤ s) (hs : s < totalStepsBound) (m n : String) :
    Precedes (logicalStepKey totalStepsBound n).toList (logicalStepKey s m).toList := by
  rw [logicalStepKey_toList s, lastKey_toList]
  rcases Nat.eq_or_lt_of_le hThousand with rfl | hLess
  · exact .append_left _ (.head (by decide) _ _)
  · exact (padded_precedes hLess hs).append _ _

/-- Among the steps that a definition may ask for, the keys are in the order of the steps exactly
if the later one is not the last of all or the earlier one is below a thousand. -/
theorem stepKey_lt_iff {s t : Nat} (hst : s < t) (ht : t ≤ totalStepsBound) (m n : String) :
    Utf8.encode (logicalStepKey s m).toList < Utf8.encode (logicalStepKey t n).toList ↔
      t < totalStepsBound ∨ s < 1000 := by
  rcases Nat.lt_or_eq_of_le ht with hBelow | rfl
  · exact iff_of_true (Utf8.encode_precedes (logicalStepKey_precedes hst hBelow m n)).lt
      (Or.inl hBelow)
  · rcases Nat.lt_or_ge s 1000 with hSmall | hLarge
    · exact iff_of_true (Utf8.encode_precedes (lastKey_after hSmall m n)).lt (Or.inr hSmall)
    · refine iff_of_false (fun hLess => ?_) (by omega)
      exact List.lt_asymm hLess (Utf8.encode_precedes (lastKey_before hLarge hst m n)).lt

theorem last_step_misplaced :
    ¬ ∀ (s t : Nat) (m n : String), 1 ≤ s → s < t → t ≤ totalStepsBound →
      Utf8.encode (logicalStepKey s m).toList < Utf8.encode (logicalStepKey t n).toList := by
  intro hAll
  have hLess := hAll 9999 totalStepsBound "loop" "loop" (by decide) (by decide) (by decide)
  exact List.lt_asymm hLess
    (Utf8.encode_precedes (lastKey_before (by decide) (by decide) "loop" "loop")).lt

theorem ninth_step_before_tenth :
    Utf8.encode (logicalStepKey 9 "draft").toList < Utf8.encode (logicalStepKey 10 "send").toList ↔
      10 < totalStepsBound ∨ 9 < 1000 :=
  stepKey_lt_iff (by decide) (by decide) "draft" "send"

/-- The rows of a run are in the order of its steps, as long as no number has five digits. -/
theorem readRunCheckpoints_order {t : Tables} {runId : Uuid} {rows : List DurableCheckpoint}
    (h : readRunCheckpoints t runId = .ok rows) :
    rows.Pairwise fun a b => ∀ {j k : Nat} {m n : String}, a.logicalStepId = logicalStepKey j m →
      b.logicalStepId = logicalStepKey k n → j < totalStepsBound → k < totalStepsBound → j ≤ k := by
  simp only [readRunCheckpoints, bind_eq_ok, okOr_eq_ok, pure_eq_ok] at h
  obtain ⟨-, -, r, -, rfl⟩ := h
  refine (List.pairwise_insertionSort _ _).imp ?_
  intro a b hOrder j k m n ha hb hj hk
  by_contra hLess
  have hKeys := (logicalStepKey_precedes (Nat.lt_of_not_le hLess) hj n m).lt
  rw [← ha, ← hb] at hKeys
  exact hOrder hKeys

end Masonwing
