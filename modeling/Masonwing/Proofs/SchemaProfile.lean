import Masonwing.Proofs.StrictDocuments

/-!
# The profile of artifact schemas

`checkSchemaProfile_exact`: the check accepts the documents of at most 8192 nodes, none deeper than
64, that refer to fragments only and whose patterns are short, and it needs no more than 66 frames.
The counter is threaded through the whole walk; `checkSchemaProfile_ok` says that a call takes from
it as many as its value has nodes.
-/

namespace Masonwing

open Outcome

variable {φ : Type}

/-! ## Nodes -/

namespace Value

theorem itemNodes_eq (items : List (Value φ)) : itemNodes items = (items.map nodes).sum := by
  induction items with
  | nil => rfl
  | cons v items ih => rw [itemNodes, ih, List.map_cons, List.sum_cons]

theorem memberNodes_eq (members : Members φ) :
    memberNodes members = (members.map fun member => member.2.nodes).sum := by
  induction members with
  | nil => rfl
  | cons member members ih => rw [memberNodes, ih, List.map_cons, List.sum_cons]

end Value

/-! ## What the check looks for -/

namespace Members

/-- References of an object are to fragments of the schema itself. -/
structure Fragments (members : Members φ) : Prop where
  fragment : ∀ key v, key = "$ref" ∨ key = "$id" → (key, v) ∈ members →
    ∃ s, v = .string s ∧ s.toList.head? = some '#'
  dynamicRef : "$dynamicRef" ∉ members.keys
  recursiveRef : "$recursiveRef" ∉ members.keys

/-- Its patterns have at most 512 bytes. -/
structure ShortPatterns (members : Members φ) : Prop where
  pattern : ∀ s, ("pattern", .string s) ∈ members → s.utf8ByteSize ≤ 512
  properties : ∀ patterns : Members φ, ("patternProperties", .object patterns) ∈ members →
    ∀ key ∈ patterns.keys, key.utf8ByteSize ≤ 512

theorem get?_eq_some {members : Members φ} (hNodup : members.keys.Nodup) {key : String}
    {v : Value φ} : members.get? key = some v ↔ (key, v) ∈ members := by
  unfold get?
  induction members with
  | nil => simp
  | cons member members ih =>
    obtain ⟨k, w⟩ := member
    obtain ⟨hOnce, hRest⟩ := List.nodup_cons.mp hNodup
    rw [List.lookup_cons, List.mem_cons, Prod.mk.injEq]
    by_cases hKey : key = k
    · subst hKey
      rw [beq_self_eq_true]
      constructor
      · intro hw
        exact Or.inl ⟨rfl, (Option.some.inj hw).symm⟩
      · rintro (⟨-, rfl⟩ | hLater)
        · rfl
        · exact absurd (List.mem_map_of_mem hLater) hOnce
    · rw [beq_eq_false_iff_ne.mpr hKey]
      constructor
      · exact fun hLater => Or.inr ((ih hRest).mp hLater)
      · rintro (⟨hEq, -⟩ | hLater)
        · exact absurd hEq hKey
        · exact (ih hRest).mpr hLater

theorem foreign_eq_false {v : Value φ} :
    foreign v = false ↔ ∃ s, v = .string s ∧ s.toList.head? = some '#' := by
  cases v with
  | string s => cases hHead : s.toList.head? <;> simp [foreign, Value.asStr?, hHead]
  | _ => simp [foreign, Value.asStr?]

/-- A reference under the key, if there is one, is to a fragment. -/
theorem any_foreign_eq_false {members : Members φ} (hNodup : members.keys.Nodup) {key : String} :
    (members.get? key).any foreign = false ↔
      ∀ v, (key, v) ∈ members → ∃ s, v = .string s ∧ s.toList.head? = some '#' := by
  cases hGet : members.get? key with
  | none =>
    refine iff_of_true rfl fun v hv => ?_
    rw [(get?_eq_some hNodup).mpr hv] at hGet
    cases hGet
  | some w =>
    rw [Option.any_some, foreign_eq_false]
    constructor
    · intro hw v hv
      rw [(get?_eq_some hNodup).mpr hv] at hGet
      rw [Option.some.inj hGet]
      exact hw
    · exact fun h => h w ((get?_eq_some hNodup).mp hGet)

theorem refersOutside_eq_false {members : Members φ} (hNodup : members.keys.Nodup) :
    refersOutside members = false ↔ members.Fragments := by
  unfold refersOutside
  rw [Bool.or_eq_false_iff, Bool.or_eq_false_iff, Bool.or_eq_false_iff, containsKey_eq_false,
    containsKey_eq_false, any_foreign_eq_false hNodup, any_foreign_eq_false hNodup]
  constructor
  · rintro ⟨⟨⟨hRef, hDynamic⟩, hRecursive⟩, hId⟩
    refine ⟨?_, hDynamic, hRecursive⟩
    rintro key v (rfl | rfl)
    · exact hRef v
    · exact hId v
  · intro h
    exact ⟨⟨⟨fun v => h.fragment _ v (Or.inl rfl), h.dynamicRef⟩, h.recursiveRef⟩,
      fun v => h.fragment _ v (Or.inr rfl)⟩

/-- No member under the key has a view with the property. -/
theorem any_view_eq_false {β : Type} {members : Members φ} (hNodup : members.keys.Nodup)
    {key : String} {view : Value φ → Option β} {p : β → Bool} :
    ((members.get? key).bind view).any p = false ↔
      ∀ v b, (key, v) ∈ members → view v = some b → p b = false := by
  cases hGet : members.get? key with
  | none =>
    refine iff_of_true rfl fun v b hv _ => ?_
    rw [(get?_eq_some hNodup).mpr hv] at hGet
    cases hGet
  | some w =>
    have hw := (get?_eq_some hNodup).mp hGet
    have hOnly : ∀ v, (key, v) ∈ members → v = w := by
      intro v hv
      rw [(get?_eq_some hNodup).mpr hv] at hGet
      exact Option.some.inj hGet
    rw [Option.bind_some]
    constructor
    · intro hAny v b hv hView
      rw [hOnly v hv] at hView
      rw [hView] at hAny
      exact hAny
    · intro h
      cases hView : view w with
      | none => rfl
      | some b => exact h w b hw hView

theorem patternTooLong_eq_false {members : Members φ} (hNodup : members.keys.Nodup) :
    patternTooLong members = false ↔ members.ShortPatterns := by
  unfold patternTooLong
  rw [Bool.or_eq_false_iff, any_view_eq_false hNodup, any_view_eq_false hNodup]
  constructor
  · rintro ⟨hPattern, hProperties⟩
    constructor
    · intro s hs
      exact Nat.le_of_not_lt (of_decide_eq_false (hPattern _ s hs rfl))
    · intro patterns hPatterns key hKey
      have hShort := List.any_eq_false.mp (hProperties _ patterns hPatterns rfl) key hKey
      exact Nat.le_of_not_lt fun hLong => hShort (decide_eq_true hLong)
  · intro h
    constructor
    · intro v s hv hView
      cases v with
      | string t =>
        cases hView
        exact decide_eq_false (Nat.not_lt_of_le (h.pattern s hv))
      | _ => cases hView
    · intro v patterns hv hView
      cases v with
      | object below =>
        cases hView
        refine List.any_eq_false.mpr fun key hKey hLong => ?_
        exact Nat.not_lt_of_le (h.properties patterns hv key hKey) (of_decide_eq_true hLong)
      | _ => cases hView

end Members

/-! ## The recursion -/

/-- What the check wants of a value at a depth, but for the number of its nodes. -/
structure InProfile (depth : Nat) (v : Value φ) : Prop where
  depth : ∀ d u, Value.Occurs u d v → depth + d ≤ 64
  fragments : ∀ d (members : Members φ), Value.Occurs (.object members) d v → members.Fragments
  patterns : ∀ d (members : Members φ), Value.Occurs (.object members) d v → members.ShortPatterns

namespace InProfile

open Value

theorem array {depth : Nat} {items : List (Value φ)} :
    InProfile depth (.array items) ↔ depth ≤ 64 ∧ ∀ v ∈ items, InProfile (depth + 1) v := by
  constructor
  · intro h
    refine ⟨h.depth 0 _ (.root _), fun v hv => ⟨fun d u hu => ?_, fun d members hu => ?_,
      fun d members hu => ?_⟩⟩
    · have hDepth := h.depth (d + 1) u (.item hv hu)
      omega
    · exact h.fragments (d + 1) members (.item hv hu)
    · exact h.patterns (d + 1) members (.item hv hu)
  · rintro ⟨hDepth, h⟩
    constructor
    · intro d u hu
      cases hu with
      | root => exact hDepth
      | item hv hBelow =>
        have hItem := (h _ hv).depth _ u hBelow
        omega
    · intro d members hu
      cases hu with
      | item hv hBelow => exact (h _ hv).fragments _ members hBelow
    · intro d members hu
      cases hu with
      | item hv hBelow => exact (h _ hv).patterns _ members hBelow

theorem object {depth : Nat} {members : Members φ} :
    InProfile depth (.object members) ↔ depth ≤ 64 ∧ members.Fragments ∧ members.ShortPatterns ∧
      ∀ member ∈ members, InProfile (depth + 1) member.2 := by
  constructor
  · intro h
    refine ⟨h.depth 0 _ (.root _), h.fragments 0 _ (.root _), h.patterns 0 _ (.root _),
      fun member hMember => ⟨fun d u hu => ?_, fun d below hu => ?_, fun d below hu => ?_⟩⟩
    · have hDepth := h.depth (d + 1) u (.member hMember hu)
      omega
    · exact h.fragments (d + 1) below (.member hMember hu)
    · exact h.patterns (d + 1) below (.member hMember hu)
  · rintro ⟨hDepth, hFragments, hPatterns, h⟩
    constructor
    · intro d u hu
      cases hu with
      | root => exact hDepth
      | member hMember hBelow =>
        have hBound := (h _ hMember).depth _ u hBelow
        omega
    · intro d below hu
      cases hu with
      | root => exact hFragments
      | member hMember hBelow => exact (h _ hMember).fragments _ below hBelow
    · intro d below hu
      cases hu with
      | root => exact hPatterns
      | member hMember hBelow => exact (h _ hMember).patterns _ below hBelow

/-- A value that holds no other. -/
theorem of_leaf {depth : Nat} {v : Value φ} (hObject : v.asObject? = none)
    (h : ∀ d u, Occurs u d v → d = 0 ∧ u = v) (hDepth : depth ≤ 64) : InProfile depth v := by
  have hNone : ∀ d members, ¬ Occurs (.object members) d v := by
    intro d members hu
    rw [← (h d _ hu).2] at hObject
    cases hObject
  refine ⟨fun d u hu => ?_, fun d members hu => ?_, fun d members hu => ?_⟩
  · obtain ⟨rfl, -⟩ := h d u hu
    exact hDepth
  · exact absurd hu (hNone d members)
  · exact absurd hu (hNone d members)

end InProfile

theorem decrement_eq_ok {n m : Nat} : decrement n = .ok m ↔ n = m + 1 := by
  cases n with
  | zero => simp [decrement]
  | succ n => simp [decrement]

theorem checkSchemaProfile_ok {frames depth : Nat} (hFrames : 66 ≤ frames + depth)
    (hStack : 0 < frames) {v : Value φ} (hKeyed : v.Keyed) (remaining left : Nat) :
    checkSchemaProfile frames v depth remaining = .ok left ↔
      remaining = left + v.nodes ∧ InProfile depth v := by
  induction frames generalizing v depth remaining left with
  | zero => exact absurd hStack (Nat.lt_irrefl 0)
  | succ frames ih =>
    -- a call below one of depth 64 at most has a frame
    have hBelow : depth ≤ 64 → 66 ≤ frames + (depth + 1) ∧ 0 < frames := by omega
    rw [checkSchemaProfile]
    simp only [bind_eq_ok, require_eq_ok, exists_const, decrement_eq_ok]
    cases v with
    | array items =>
      rw [InProfile.array, Value.nodes, Value.itemNodes_eq]
      have hFold := fun (hDepth : depth ≤ 64) n => foldlM_spends
        (fun item hItem n m => ih (hBelow hDepth).1 (hBelow hDepth).2
          (Value.keyed_array.mp hKeyed item hItem) n m) n left
      constructor
      · rintro ⟨⟨hDepth, -⟩, rest, rfl, hItems⟩
        obtain ⟨hSum, hAll⟩ := (hFold hDepth rest).mp hItems
        exact ⟨by omega, hDepth, hAll⟩
      · rintro ⟨rfl, hDepth, hAll⟩
        exact ⟨⟨hDepth, by omega⟩, _, rfl, (hFold hDepth _).mpr ⟨rfl, hAll⟩⟩
    | object members =>
      obtain ⟨hNodup, hMembers⟩ := Value.keyed_object.mp hKeyed
      rw [InProfile.object, Value.nodes, Value.memberNodes_eq]
      simp only [bind_eq_ok, require_eq_ok, exists_const, Members.refersOutside_eq_false hNodup,
        Members.patternTooLong_eq_false hNodup]
      have hFold := fun (hDepth : depth ≤ 64) n => foldlM_spends
        (fun member hMember n m => ih (hBelow hDepth).1 (hBelow hDepth).2
          (hMembers member hMember) n m) n left
      constructor
      · rintro ⟨⟨hDepth, -⟩, rest, rfl, hFragments, hPatterns, hItems⟩
        obtain ⟨hSum, hAll⟩ := (hFold hDepth rest).mp hItems
        exact ⟨by omega, hDepth, hFragments, hPatterns, hAll⟩
      · rintro ⟨rfl, hDepth, hFragments, hPatterns, hAll⟩
        exact ⟨⟨hDepth, by omega⟩, _, rfl, hFragments, hPatterns, (hFold hDepth _).mpr ⟨rfl, hAll⟩⟩
    | null | bool _ | number _ | string _ =>
      show _ ↔ remaining = left + 1 ∧ _
      simp only [pure_eq_ok]
      constructor
      · rintro ⟨⟨hDepth, -⟩, rest, rfl, rfl⟩
        exact ⟨rfl, .of_leaf rfl (fun d u hu => by cases hu; exact ⟨rfl, rfl⟩) hDepth⟩
      · rintro ⟨rfl, hProfile⟩
        exact ⟨⟨hProfile.depth 0 _ (.root _), by omega⟩, left, rfl, rfl⟩

/-- The counter is never decremented at zero, and no call is without a frame. -/
theorem checkSchemaProfile_avoids {frames depth : Nat} (hFrames : 66 ≤ frames + depth)
    (hStack : 0 < frames) (v : Value φ) (remaining : Nat) :
    Avoids .underflow (checkSchemaProfile frames v depth remaining) ∧
      Avoids .noFrame (checkSchemaProfile frames v depth remaining) := by
  suffices h : ∀ e : ProfileError, e = .underflow ∨ e = .noFrame →
      Avoids e (checkSchemaProfile frames v depth remaining) from
    ⟨h _ (Or.inl rfl), h _ (Or.inr rfl)⟩
  intro e he
  have hFailure : ∀ code, ProfileError.of code ≠ e := by
    rcases he with rfl | rfl <;> exact fun _ h => nomatch h
  induction frames generalizing v depth remaining with
  | zero => exact absurd hStack (Nat.lt_irrefl 0)
  | succ frames ih =>
    rw [checkSchemaProfile]
    refine (avoids_require (hFailure _)).bind fun _ hRequire => ?_
    obtain ⟨hDepth, hRemaining⟩ := require_eq_ok.mp hRequire
    have hCall : ∀ v n, Avoids e (checkSchemaProfile frames v (depth + 1) n) :=
      fun v n => ih (by omega) (by omega) v n
    obtain ⟨rest, rfl⟩ := Nat.exists_eq_succ_of_ne_zero hRemaining
    refine Avoids.bind (avoids_ok e rest) fun left _ => ?_
    cases v with
    | array items => exact avoids_foldlM fun n item => hCall item n
    | object members =>
      refine (avoids_require (hFailure _)).bind fun _ _ => ?_
      refine (avoids_require (hFailure _)).bind fun _ _ => ?_
      exact avoids_foldlM fun n member => hCall member.2 n
    | null | bool _ | number _ | string _ => exact avoids_pure e left

section Schemas

variable {V : Type} (finite : φ → Bool) (fromSlice : List UInt8 → Decoder φ)
  (build : Value φ → Option V)

theorem compileSchema_ok {finite : φ → Bool} {fromSlice : List UInt8 → Decoder φ}
    {build : Value φ → Option V} {frames : Nat} {bytes : List UInt8} {validator : V}
    (h : compileSchema finite fromSlice build frames bytes = .ok validator) :
    ∃ value left, strictJson finite fromSlice bytes = .ok value ∧
      checkSchemaProfile frames value 0 8192 = .ok left ∧ build value = some validator := by
  simp only [compileSchema, bind_eq_ok, require_eq_ok, mapError_eq_ok, okOr_eq_ok,
    exists_const] at h
  obtain ⟨-, value, hValue, -, left, hCheck, hBuild⟩ := h
  exact ⟨value, left, hValue, hCheck, hBuild⟩

theorem checkSchemaProfile_exact {frames : Nat} (hFrames : 66 ≤ frames) :
    (∀ document : Document φ,
      ((∃ left, checkSchemaProfile frames document.value 0 8192 = .ok left) ↔
        document.value.nodes ≤ 8192 ∧ (∀ d u, Value.Occurs u d document.value → d ≤ 64) ∧
          ∀ d (members : Members φ), Value.Occurs (.object members) d document.value →
            members.Fragments ∧ members.ShortPatterns) ∧
      checkSchemaProfile frames document.value 0 8192 ≠ .error .underflow ∧
        checkSchemaProfile frames document.value 0 8192 ≠ .error .noFrame) ∧
    ∀ bytes validator, compileSchema finite fromSlice build frames bytes = .ok validator →
      ∃ document : Document φ, strictJson finite fromSlice bytes = .ok document.value ∧
        ∀ d (members : Members φ), Value.Occurs (.object members) d document.value →
          members.Fragments := by
  have hStack : 0 < frames := by omega
  constructor
  · intro document
    refine ⟨?_, checkSchemaProfile_avoids hFrames hStack document.value 8192⟩
    constructor
    · rintro ⟨left, hLeft⟩
      obtain ⟨hNodes, hProfile⟩ :=
        (checkSchemaProfile_ok hFrames hStack document.keyed 8192 left).mp hLeft
      refine ⟨by omega, fun d u hu => ?_, fun d members hu => ?_⟩
      · have hDepth := hProfile.depth d u hu
        omega
      · exact ⟨hProfile.fragments d members hu, hProfile.patterns d members hu⟩
    · rintro ⟨hNodes, hDepth, hMembers⟩
      refine ⟨8192 - document.value.nodes,
        (checkSchemaProfile_ok hFrames hStack document.keyed 8192 _).mpr ⟨by omega, ?_⟩⟩
      refine ⟨fun d u hu => ?_, fun d members hu => (hMembers d members hu).1,
        fun d members hu => (hMembers d members hu).2⟩
      rw [Nat.zero_add]
      exact hDepth d u hu
  · intro bytes validator hCompile
    obtain ⟨value, left, hValue, hCheck, -⟩ := compileSchema_ok hCompile
    have hKeyed := strictJson_keyed hValue
    obtain ⟨-, hProfile⟩ := (checkSchemaProfile_ok hFrames hStack hKeyed 8192 left).mp hCheck
    exact ⟨⟨value, hKeyed⟩, hValue, hProfile.fragments⟩

end Schemas

theorem profile_smallest_stack :
    (∀ document : Document Empty,
      ((∃ left, checkSchemaProfile 66 document.value 0 8192 = .ok left) ↔
        document.value.nodes ≤ 8192 ∧ (∀ d u, Value.Occurs u d document.value → d ≤ 64) ∧
          ∀ d (members : Members Empty), Value.Occurs (.object members) d document.value →
            members.Fragments ∧ members.ShortPatterns) ∧
      checkSchemaProfile 66 document.value 0 8192 ≠ .error .underflow ∧
        checkSchemaProfile 66 document.value 0 8192 ≠ .error .noFrame) ∧
    ∀ bytes validator, compileSchema (fun _ => true) pairDecoder some 66 bytes = .ok validator →
      ∃ document : Document Empty,
        strictJson (fun _ => true) pairDecoder bytes = .ok document.value ∧
          ∀ d (members : Members Empty), Value.Occurs (.object members) d document.value →
            members.Fragments :=
  checkSchemaProfile_exact (fun _ => true) pairDecoder some (Nat.le_refl 66)

end Masonwing
