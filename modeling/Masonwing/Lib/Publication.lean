import Mathlib.Data.List.Basic

/-!
# Publishing the versions of a value

A value changes through versions, and some of the changes publish the version they make. A
`Page` is the value with what was published of it; a `Move` is what one event does to it. The
reader of the newest published version sees the current one exactly if every change that was
not published was followed by one that was (`Tracks.upToDate_iff`), over every history.
-/

namespace Publication

variable {σ ι : Type}

/-- The current version of a value, if there is one, and the versions of it that were published. -/
structure Page (σ : Type) where
  current : Option (Int × σ)
  published : Int → Option σ

namespace Page

/-- The newest published version is the current one, with its value. -/
def UpToDate (p : Page σ) : Prop :=
  ∃ v x, p.current = some (v, x) ∧ p.published v = some x ∧ ∀ w y, p.published w = some y → w ≤ v

/-- Nothing newer than the current version was published. -/
def Bounded (p : Page σ) : Prop :=
  ∀ w y, p.published w = some y → ∃ v x, p.current = some (v, x) ∧ w ≤ v

end Page

/-- What an event does to a page: nothing, a published change, or a change that is not published.
An event may publish the current version again. -/
inductive Move (p p' : Page σ) (publishes bypasses : Prop) : Prop
  | quiet (hPage : p' = p) (hQuiet : p.current ≠ none → ¬publishes ∧ ¬bypasses)
  | publish {v : Int} {x : σ} (hForward : ∀ w y, p.current = some (w, y) → w ≤ v)
      (hCurrent : p'.current = some (v, x)) (hNew : p'.published v = some x)
      (hOld : ∀ w, w ≠ v → p'.published w = p.published w) (hPublishes : publishes)
      (hNot : ¬bypasses)
  | bypass {v w : Int} {x y : σ} (hFrom : p.current = some (v, x))
      (hTo : p'.current = some (w, y)) (hForward : v < w) (hPublished : p'.published = p.published)
      (hBypasses : bypasses)

/-- Every event that bypasses is followed by one that publishes. -/
def Answered (bypasses publishes : ι → Prop) (events : List ι) : Prop :=
  ∀ past event future, events = past ++ event :: future → bypasses event →
    ∃ later ∈ future, publishes later

theorem answered_nil (bypasses publishes : ι → Prop) : Answered bypasses publishes [] := by
  intro past event future h
  cases past <;> cases h

theorem answered_concat {bypasses publishes : ι → Prop} {events : List ι} {e : ι} :
    Answered bypasses publishes (events ++ [e]) ↔
      ¬bypasses e ∧ (publishes e ∨ Answered bypasses publishes events) := by
  constructor
  · intro h
    refine ⟨fun hBypass => ?_, ?_⟩
    · obtain ⟨later, hMem, -⟩ := h events e [] rfl hBypass
      cases hMem
    · by_cases hPublish : publishes e
      · exact Or.inl hPublish
      · refine Or.inr fun past event future hEvents hBypass => ?_
        have hSplit : events ++ [e] = past ++ event :: (future ++ [e]) := by
          rw [hEvents, List.append_assoc, List.cons_append]
        obtain ⟨later, hMem, hLater⟩ := h past event (future ++ [e]) hSplit hBypass
        rcases List.mem_append.mp hMem with hMem | hMem
        · exact ⟨later, hMem, hLater⟩
        · rw [List.mem_singleton] at hMem
          subst hMem
          exact absurd hLater hPublish
  · rintro ⟨hNot, hLast⟩ past event future hEvents hBypass
    rcases List.eq_nil_or_concat future with rfl | ⟨front, last, rfl⟩
    · obtain ⟨-, hEvent⟩ := List.append_inj' hEvents rfl
      cases hEvent
      exact absurd hBypass hNot
    · rw [List.concat_eq_append] at hEvents ⊢
      have hSplit : events ++ [e] = (past ++ event :: front) ++ [last] := by
        rw [hEvents, List.append_assoc, List.cons_append]
      obtain ⟨hFront, hEnd⟩ := List.append_inj' hSplit rfl
      cases hEnd
      rcases hLast with hPublish | hAnswered
      · exact ⟨e, List.mem_append_right _ List.mem_cons_self, hPublish⟩
      · obtain ⟨later, hMem, hLater⟩ := hAnswered past event front hFront hBypass
        exact ⟨later, List.mem_append_left _ hMem, hLater⟩

/-- What every history keeps of a page. -/
structure Tracks (bypasses publishes : ι → Prop) (past : List ι) (p : Page σ) : Prop where
  bounded : p.Bounded
  upToDate_iff : p.current ≠ none → (p.UpToDate ↔ Answered bypasses publishes past)

theorem Tracks.start {bypasses publishes : ι → Prop} {p : Page σ} (hBounded : p.Bounded)
    (h : p.current ≠ none → p.UpToDate) : Tracks bypasses publishes [] p :=
  ⟨hBounded, fun hSome => ⟨fun _ => answered_nil _ _, fun _ => h hSome⟩⟩

theorem Tracks.move {bypasses publishes : ι → Prop} {past : List ι} {e : ι} {p p' : Page σ}
    (h : Tracks bypasses publishes past p) (hMove : Move p p' (publishes e) (bypasses e)) :
    Tracks bypasses publishes (past ++ [e]) p' := by
  cases hMove with
  | quiet hPage hQuiet =>
    subst hPage
    refine ⟨h.bounded, fun hSome => ?_⟩
    obtain ⟨hNoPublish, hNoBypass⟩ := hQuiet hSome
    rw [h.upToDate_iff hSome, answered_concat]
    exact ⟨fun hAnswered => ⟨hNoBypass, Or.inr hAnswered⟩,
      fun hBoth => hBoth.2.resolve_left hNoPublish⟩
  | @publish v x hForward hCurrent hNew hOld hPublishes hNot =>
    have hLe : ∀ w y, p'.published w = some y → w ≤ v := by
      intro w y hy
      by_cases hw : w = v
      · omega
      · rw [hOld w hw] at hy
        obtain ⟨u, z, hBefore, hle⟩ := h.bounded w y hy
        have := hForward u z hBefore
        omega
    refine ⟨fun w y hy => ⟨v, x, hCurrent, hLe w y hy⟩, fun _ => ?_⟩
    rw [answered_concat]
    exact ⟨fun _ => ⟨hNot, Or.inl hPublishes⟩, fun _ => ⟨v, x, hCurrent, hNew, hLe⟩⟩
  | @bypass v w x y hFrom hTo hForward hPublished hBypasses =>
    -- everything published is older than the new version
    have hOlder : ∀ u z, p'.published u = some z → u ≤ v := by
      intro u z hz
      rw [hPublished] at hz
      obtain ⟨v', x', hCurrent, hle⟩ := h.bounded u z hz
      cases hFrom.symm.trans hCurrent
      exact hle
    refine ⟨fun u z hz => ⟨w, y, hTo, by have := hOlder u z hz; omega⟩, fun _ => ?_⟩
    rw [answered_concat]
    constructor
    · rintro ⟨u, z, hCurrent, hShown, -⟩
      cases hTo.symm.trans hCurrent
      have := hOlder w y hShown
      omega
    · rintro ⟨hNot, -⟩
      exact absurd hBypasses hNot

end Publication
