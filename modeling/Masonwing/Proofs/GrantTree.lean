import Mathlib.Data.List.Chain
import Masonwing.Proofs.Ancestry
import Masonwing.Proofs.Evaluation
import Masonwing.Proofs.RunLifecycle

/-!
# The tree of grants

What `grant.create` and `grant.revoke` keep together: the parent links form a forest, a child stays
inside its parent, and an active grant hangs on active grants only.

* `mem_descendants_iff`, `descendants_end`: the walk down of a revocation visits exactly the
  subtree of its target, and on an acyclic tree it ends;
* `GrantTree`, `GrantTree.change`: the invariant and its step lemma;
* `delegation_attenuates`: the tree in every state of every run;
* `grant_check_exact`: the relay looks at one row and sees the whole ancestry.
-/

namespace Masonwing

open Outcome Relation

/-! ## The walk down -/

section Walk

variable {ds : Delegations}

/-- A grant below one of the frontier is visited. -/
theorem descendantsFrom_complete {fuel : Nat} {frontier ids : List Uuid}
    (h : descendantsFrom ds fuel frontier = some ids) {k f : Uuid} (hf : f ∈ frontier)
    (hBelow : Ancestor ds k f) : k ∈ ids := by
  induction fuel generalizing frontier ids f with
  | zero =>
    cases frontier with
    | nil => cases hf
    | cons g rest => cases h
  | succ fuel ih =>
    cases frontier with
    | nil => cases hf
    | cons g rest =>
      obtain ⟨below, hRest, hIds⟩ := Option.bind_eq_some_iff.mp h
      cases hIds
      rcases ReflTransGen.cases_tail hBelow with rfl | ⟨child, hChain, hLink⟩
      · exact List.mem_append_left _ hf
      · have hChild : child ∈ (g :: rest).flatMap (childrenOf ds) :=
          List.mem_flatMap.mpr ⟨f, hf, mem_childrenOf.mpr hLink⟩
        exact List.mem_append_right _ (ih hRest hChild hChain)

/-- The walk down from a grant visits exactly its subtree. -/
theorem mem_descendants_iff {fuel : Nat} {id : Uuid} {ids : List Uuid}
    (h : descendantsFrom ds fuel [id] = some ids) {k : Uuid} : k ∈ ids ↔ Ancestor ds k id := by
  constructor
  · intro hk
    obtain ⟨f, hf, hBelow⟩ := (mem_descendantsFrom h).2 k hk
    rw [List.mem_singleton] at hf
    rwa [hf] at hBelow
  · exact descendantsFrom_complete h List.mem_cons_self

/-- A walk that does not end has followed a chain of links as long as its fuel. -/
theorem chain_of_descendantsFrom_none {fuel : Nat} {frontier : List Uuid}
    (h : descendantsFrom ds fuel frontier = none) :
    ∃ f ∈ frontier, ∃ path, path.length = fuel ∧ List.IsChain (ParentOf ds) (path ++ [f]) := by
  induction fuel generalizing frontier with
  | zero =>
    cases frontier with
    | nil => cases h
    | cons f rest => exact ⟨f, List.mem_cons_self, [], rfl, List.isChain_singleton f⟩
  | succ fuel ih =>
    cases frontier with
    | nil => cases h
    | cons g rest =>
      have hRest : descendantsFrom ds fuel ((g :: rest).flatMap (childrenOf ds)) = none := by
        cases hBelow : descendantsFrom ds fuel ((g :: rest).flatMap (childrenOf ds)) with
        | none => rfl
        | some below =>
          rw [descendantsFrom, hBelow] at h
          · cases h
          · exact fun hNil => by cases hNil
      obtain ⟨child, hChild, path, hLength, hChain⟩ := ih hRest
      obtain ⟨f, hf, hLink⟩ := List.mem_flatMap.mp hChild
      refine ⟨f, hf, path ++ [child], by rw [List.length_append, hLength]; rfl, ?_⟩
      refine List.isChain_append.mpr ⟨hChain, List.isChain_singleton f, ?_⟩
      intro x hx y hy
      rw [List.getLast?_append, List.getLast?_singleton, Option.some_or] at hx
      cases hx
      cases hy
      exact mem_childrenOf.mp hLink

/-- On acyclic links a chain visits no grant twice. -/
theorem chain_nodup (hAcyclic : ∀ id, ¬TransGen (ParentOf ds) id id) {path : List Uuid}
    (h : List.IsChain (ParentOf ds) path) : path.Nodup := by
  have hPairwise : path.Pairwise (TransGen (ParentOf ds)) :=
    (h.imp fun _ _ hLink => TransGen.single hLink).pairwise
  refine hPairwise.imp ?_
  rintro a _ hPath rfl
  exact hAcyclic a hPath

/-- The recursive query of a revocation ends. -/
theorem descendants_end (hAcyclic : ∀ id, ¬TransGen (ParentOf ds) id id) {id : Uuid}
    {d : DelegationRow} (hd : ds.get? id = some d) :
    ∃ ids, descendantsFrom ds ds.rows.length [id] = some ids := by
  cases hWalk : descendantsFrom ds ds.rows.length [id] with
  | some ids => exact ⟨ids, rfl⟩
  | none =>
    exfalso
    obtain ⟨f, hf, path, hLength, hChain⟩ := chain_of_descendantsFrom_none hWalk
    rw [List.mem_singleton] at hf
    subst hf
    obtain ⟨hPath, -, hApart⟩ := List.nodup_append.mp (chain_nodup hAcyclic hChain)
    have hFresh : f ∉ path := fun hMem => hApart f hMem f List.mem_cons_self rfl
    -- every grant of the chain but the last has a parent, so it is stored
    have hStored : ∀ k ∈ path, ds.contains k = true := by
      intro k hk
      obtain ⟨before, after, rfl⟩ := List.append_of_mem hk
      rw [List.append_assoc, List.cons_append] at hChain
      have hTail := (List.isChain_append.mp hChain).2.1
      have hLink : ∃ p, ParentOf ds k p := by
        cases after with
        | nil => exact ⟨f, (List.isChain_cons_cons.mp hTail).1⟩
        | cons x xs => exact ⟨x, (List.isChain_cons_cons.mp hTail).1⟩
      obtain ⟨p, row, hRow, -⟩ := hLink
      exact Table.contains_iff.mpr ⟨row, hRow⟩
    have hLess := path_length_lt hPath hStored hFresh hd
    omega

end Walk

/-! ## The invariant -/

/-- A grant is active in its first version, or revoked in its second. -/
def DelegationRow.Staged (d : DelegationRow) : Prop :=
  (d.state = .active ∧ d.fence = 1 ∧ d.version.val = 1) ∨
    (d.state = .revoked ∧ d.fence = 2 ∧ d.version.val = 2)

/-- The grant grants no more than the other one, for no longer, and is active only with it. -/
structure DelegationRow.Within (d top : DelegationRow) : Prop where
  actions : d.actions ⊆ top.actions
  resources : d.resources ⊆ top.resources
  expiry : d.expiresAt ≤ top.expiresAt
  active : d.state = .active → top.state = .active

theorem DelegationRow.Within.refl (d : DelegationRow) : d.Within d :=
  ⟨List.Subset.refl _, List.Subset.refl _, le_refl _, fun h => h⟩

theorem DelegationRow.Within.trans {a b c : DelegationRow} (hab : a.Within b) (hbc : b.Within c) :
    a.Within c :=
  ⟨fun _ h => hbc.actions (hab.actions h), fun _ h => hbc.resources (hab.resources h),
    hab.expiry.trans hbc.expiry, fun h => hbc.active (hab.active h)⟩

/-- What holds of the grants of a tenant at every time. -/
structure GrantTree (ds : Delegations) : Prop where
  acyclic : ∀ id, ¬TransGen (ParentOf ds) id id
  within : ∀ id p d, ds.get? id = some d → d.parentGrantId = some p →
    ∃ parent, ds.get? p = some parent ∧ d.Within parent
  staged : ∀ id d, ds.get? id = some d → d.Staged

namespace GrantTree

variable {ds ds' : Delegations} {tick : Tick} {t t' : Tables}

theorem empty (h : ∀ id, ds.get? id = none) : GrantTree ds := by
  refine ⟨fun id hCycle => ?_, fun id p d hd => ?_, fun id d hd => ?_⟩
  · obtain ⟨y, ⟨d, hd, -⟩, -⟩ := TransGen.head'_iff.mp hCycle
    cases (h id).symm.trans hd
  · cases (h id).symm.trans hd
  · cases (h id).symm.trans hd

/-- Every ancestor of a stored grant is stored, and the grant is within it. -/
theorem ancestor (h : GrantTree ds) {id a : Uuid} {d : DelegationRow} (hd : ds.get? id = some d)
    (hAncestor : Ancestor ds id a) : ∃ top, ds.get? a = some top ∧ d.Within top := by
  induction hAncestor with
  | refl => exact ⟨d, hd, .refl d⟩
  | tail hChain hParent ih =>
    obtain ⟨g, hg, hWithin⟩ := ih
    obtain ⟨g', hg', hLink⟩ := hParent
    cases hg.symm.trans hg'
    obtain ⟨top, hTop, hAbove⟩ := h.within _ _ g hg hLink
    exact ⟨top, hTop, hWithin.trans hAbove⟩

/-- A new grant hangs on stored grants only, so it closes no cycle. -/
theorem create (h : GrantTree t.delegations) {id : Uuid} {d : DelegationRow}
    (hInsert : t.delegations.insert? id d = some ds') (hAdmitted : GrantAdmitted tick t d) :
    GrantTree ds' := by
  obtain ⟨hNone, -⟩ := Table.insert?_eq_some hInsert
  -- no link leads to the new grant, and those from others are old
  have hParents : ∀ {a b}, ParentOf ds' a b → b ≠ id ∧ (a ≠ id → ParentOf t.delegations a b) := by
    rintro a b ⟨row, hRow, hLink⟩
    rcases Table.insert?_get?_cases hInsert hRow with ⟨rfl, rfl⟩ | ⟨hOther, hOld⟩
    · obtain ⟨-, parent, hParent, -⟩ := hAdmitted.parent b hLink
      refine ⟨?_, fun hNe => absurd rfl hNe⟩
      rintro rfl
      cases hNone.symm.trans hParent
    · obtain ⟨parent, hParent, -⟩ := h.within a b row hOld hLink
      refine ⟨?_, fun _ => ⟨row, hOld, hLink⟩⟩
      rintro rfl
      cases hNone.symm.trans hParent
  have hPaths : ∀ {a b}, TransGen (ParentOf ds') a b →
      b ≠ id ∧ (a ≠ id → TransGen (ParentOf t.delegations) a b) := by
    intro a b hPath
    induction hPath with
    | single hLink => exact ⟨(hParents hLink).1, fun hNe => .single ((hParents hLink).2 hNe)⟩
    | tail hPath hLink ih =>
      exact ⟨(hParents hLink).1, fun hNe => (ih.2 hNe).tail ((hParents hLink).2 ih.1)⟩
  refine ⟨fun x hCycle => ?_, fun i q row hRow hLink => ?_, fun i row hRow => ?_⟩
  · exact h.acyclic x ((hPaths hCycle).2 (hPaths hCycle).1)
  · rcases Table.insert?_get?_cases hInsert hRow with ⟨rfl, rfl⟩ | ⟨-, hOld⟩
    · obtain ⟨hCurrent, parent, hParent, hExpiry, hActions, hResources⟩ :=
        hAdmitted.parent q hLink
      have hTop := hCurrent _ (mem_ancestry ReflTransGen.refl hParent)
      rw [DelegationRow.current, Bool.and_eq_true, decide_eq_true_eq] at hTop
      exact ⟨parent, Table.insert?_get?_of_some hInsert hParent,
        ⟨hActions, hResources, hExpiry, fun _ => hTop.1⟩⟩
    · obtain ⟨parent, hParent, hWithin⟩ := h.within i q row hOld hLink
      exact ⟨parent, Table.insert?_get?_of_some hInsert hParent, hWithin⟩
  · rcases Table.insert?_get?_cases hInsert hRow with ⟨rfl, rfl⟩ | ⟨-, hOld⟩
    · refine Or.inl ⟨hAdmitted.active, hAdmitted.first.2, ?_⟩
      rw [hAdmitted.first.1]
      rfl
    · exact h.staged i row hOld

/-- The rows after a revocation, in terms of the tree. -/
theorem revoked_rows {id : Uuid} {ids : List Uuid} {fuel : Nat}
    (hIds : descendantsFrom ds fuel [id] = some ids) (hRevoked : GrantsRevoked ds ds' ids)
    {k : Uuid} {d' : DelegationRow} (hd' : ds'.get? k = some d') :
    ∃ d, ds.get? k = some d ∧
      ((d.state = .active ∧ Ancestor ds k id ∧ revokeRow d = .ok d') ∨
        (¬(d.state = .active ∧ Ancestor ds k id) ∧ d' = d)) := by
  rcases hRevoked.rows k with ⟨-, hNone⟩ | ⟨d, d₁, hd, hd₁, hRow⟩
  · cases hNone.symm.trans hd'
  · cases hd₁.symm.trans hd'
    refine ⟨d, hd, ?_⟩
    by_cases hAffected : k ∈ ids ∧ d.state = .active
    · rw [if_pos hAffected] at hRow
      exact Or.inl ⟨hAffected.2, (mem_descendants_iff hIds).mp hAffected.1, hRow⟩
    · rw [if_neg hAffected] at hRow
      exact Or.inr ⟨fun h => hAffected ⟨(mem_descendants_iff hIds).mpr h.2, h.1⟩, hRow⟩

/-- A revocation takes whole subtrees: what stays active hangs on active grants. -/
theorem revoke (h : GrantTree ds) {id : Uuid} {ids : List Uuid} {fuel : Nat}
    (hIds : descendantsFrom ds fuel [id] = some ids) (hRevoked : GrantsRevoked ds ds' ids) :
    GrantTree ds' := by
  have hRows := fun {k : Uuid} {d' : DelegationRow} (hd' : ds'.get? k = some d') =>
    revoked_rows hIds hRevoked hd'
  have hLinks : ∀ {a b}, ParentOf ds' a b → ParentOf ds a b := by
    rintro a b ⟨row, hRow, hLink⟩
    obtain ⟨d, hd, ⟨-, -, hStep⟩ | ⟨-, rfl⟩⟩ := hRows hRow
    · obtain ⟨version, -, rfl⟩ := revokeRow_ok hStep
      exact ⟨d, hd, hLink⟩
    · exact ⟨row, hd, hLink⟩
  -- the row of a stored grant after the revocation differs in its stage only
  have hKept : ∀ {k d}, ds.get? k = some d → ∃ d', ds'.get? k = some d' ∧
      d'.actions = d.actions ∧ d'.resources = d.resources ∧ d'.expiresAt = d.expiresAt ∧
      (d.state = .active → ¬Ancestor ds k id → d'.state = .active) := by
    intro k d hd
    rcases hRevoked.rows k with ⟨hNone, -⟩ | ⟨d₀, d', hd₀, hd', -⟩
    · cases hNone.symm.trans hd
    · obtain ⟨d₁, hd₁, ⟨-, hBelow, hStep⟩ | ⟨-, rfl⟩⟩ := hRows hd'
      · cases hd₁.symm.trans hd
        obtain ⟨version, -, rfl⟩ := revokeRow_ok hStep
        exact ⟨_, hd', rfl, rfl, rfl, fun _ hNot => absurd hBelow hNot⟩
      · cases hd₁.symm.trans hd
        exact ⟨_, hd', rfl, rfl, rfl, fun hs _ => hs⟩
  refine ⟨fun x hCycle => h.acyclic x (TransGen.mono (fun _ _ => hLinks) x x hCycle), ?_, ?_⟩
  · intro i q row hRow hLink
    obtain ⟨d, hd, hStep⟩ := hRows hRow
    have hSame : row.parentGrantId = d.parentGrantId ∧ row.actions = d.actions ∧
        row.resources = d.resources ∧ row.expiresAt = d.expiresAt := by
      rcases hStep with ⟨-, -, hStep⟩ | ⟨-, rfl⟩
      · obtain ⟨version, -, rfl⟩ := revokeRow_ok hStep
        exact ⟨rfl, rfl, rfl, rfl⟩
      · exact ⟨rfl, rfl, rfl, rfl⟩
    obtain ⟨hParent, hActions, hResources, hExpiry⟩ := hSame
    rw [hParent] at hLink
    obtain ⟨parent, hFound, hWithin⟩ := h.within i q d hd hLink
    obtain ⟨parent', hFound', hActions', hResources', hExpiry', hActive'⟩ := hKept hFound
    refine ⟨parent', hFound', ⟨?_, ?_, ?_, fun hs => ?_⟩⟩
    · rw [hActions, hActions']
      exact hWithin.actions
    · rw [hResources, hResources']
      exact hWithin.resources
    · rw [hExpiry, hExpiry']
      exact hWithin.expiry
    · rcases hStep with ⟨-, -, hStep⟩ | ⟨hOutside, rfl⟩
      · obtain ⟨version, -, rfl⟩ := revokeRow_ok hStep
        cases hs
      · refine hActive' (hWithin.active hs) fun hAbove => hOutside ⟨hs, ?_⟩
        exact ReflTransGen.head ⟨row, hd, hLink⟩ hAbove
  · intro i row hRow
    obtain ⟨d, hd, ⟨hActive, -, hStep⟩ | ⟨-, rfl⟩⟩ := hRows hRow
    · obtain ⟨version, hVersion, rfl⟩ := revokeRow_ok hStep
      rcases h.staged i d hd with ⟨-, hFence, hFirst⟩ | ⟨hState, -⟩
      · refine Or.inr ⟨rfl, ?_, ?_⟩
        · change d.fence + 1 = 2
          omega
        · rw [Version.next?_eq_some hVersion]
          omega
      · cases hActive.symm.trans hState
    · exact h.staged i row hd

/-- The step lemma: only the two commands on grants touch them. -/
theorem change {env : Env} {a : PlatformAct} (h : GrantTree t.delegations)
    (hChange : PlatformChange env tick t a t') : GrantTree t'.delegations := by
  cases hChange with
  | core hCore =>
    cases hCore with
    | grantCreated j hInsert hAdmitted => exact h.create hInsert hAdmitted
    | grantRevoked j hFound hActive hIds hRevoked => exact h.revoke hIds hRevoked
    | _ => exact h
  | _ => exact h

end GrantTree

/-! ## Every run -/

/-- Delegation attenuates: the links end, every grant is within each of its ancestors, and its
fence and its version tell whether it was revoked. -/
structure Attenuates (ds : Delegations) : Prop where
  acyclic : ∀ id, ¬TransGen (ParentOf ds) id id
  ends : ∀ id d, ds.get? id = some d → ∃ ids, descendantsFrom ds ds.rows.length [id] = some ids
  within : ∀ id a d, ds.get? id = some d → Ancestor ds id a →
    ∃ top, ds.get? a = some top ∧ d.Within top
  staged : ∀ id d, ds.get? id = some d → d.Staged

theorem GrantTree.attenuates {ds : Delegations} (h : GrantTree ds) : Attenuates ds :=
  { acyclic := h.acyclic
    ends := fun _ _ hd => descendants_end h.acyclic hd
    within := fun _ _ _ hd hAncestor => h.ancestor hd hAncestor
    staged := h.staged }

section Runs

variable {ι : Type} {p : Platform ι} {s : Store}

/-- A revoked grant stays revoked. -/
theorem PlatformChange.revoked_kept {env : Env} {tick : Tick} {t t' : Tables} {a : PlatformAct}
    {id : Uuid} (hChange : PlatformChange env tick t a t')
    (h : ∃ d, t.delegations.get? id = some d ∧ d.state = .revoked) :
    ∃ d, t'.delegations.get? id = some d ∧ d.state = .revoked := by
  obtain ⟨d, hd, hState⟩ := h
  cases hChange with
  | core hCore =>
    obtain ⟨d', hd', -, -, hKept⟩ := hCore.grant_kept hd
    exact ⟨d', hd', hKept hState⟩
  | _ => exact ⟨d, hd, hState⟩

/-- A revocation changes exactly the active grants of the subtree. -/
theorem PlatformChange.revokes_subtree {env : Env} {tick : Tick} {t t' : Tables} {g : Uuid}
    (hChange : PlatformChange env tick t (.core (.revokeGrant g)) t') (id : Uuid) :
    t'.delegations.get? id ≠ t.delegations.get? id ↔
      ∃ d, t.delegations.get? id = some d ∧ d.state = .active ∧ Ancestor t.delegations id g := by
  cases hChange with
  | core hCore =>
    cases hCore with
    | grantRevoked j hFound hActive hIds hRevoked =>
      rcases hRevoked.rows id with ⟨hNone, hNone'⟩ | ⟨d, d', hd, hd', -⟩
      · constructor
        · exact fun hNe => absurd (hNone'.trans hNone.symm) hNe
        · rintro ⟨d, hd, -⟩
          cases hNone.symm.trans hd
      · obtain ⟨d₁, hd₁, hRow⟩ := GrantTree.revoked_rows hIds hRevoked hd'
        cases hd₁.symm.trans hd
        rcases hRow with ⟨hState, hBelow, hStep⟩ | ⟨hOutside, rfl⟩
        · obtain ⟨version, -, rfl⟩ := revokeRow_ok hStep
          refine ⟨fun _ => ⟨d, hd, hState, hBelow⟩, fun _ hEq => ?_⟩
          have hSame := Option.some.inj (hd'.symm.trans (hEq.trans hd))
          rw [← hSame] at hState
          cases hState
        · constructor
          · exact fun hNe => absurd (hd'.trans hd.symm) hNe
          · rintro ⟨row, hRow, hState, hBelow⟩
            cases hRow.symm.trans hd
            exact absurd ⟨hState, hBelow⟩ hOutside

/-- The tree of grants in every run that starts without grants. -/
theorem delegation_attenuates (p : Platform ι) (s : Store) (calls : List (PlatformCall ι))
    (hStart : ∀ id, s.tables.delegations.get? id = none) :
    Attenuates (Machine.run (platformStep p) s calls).tables.delegations ∧
    (∀ later id, (∃ d, (Machine.run (platformStep p) s calls).tables.delegations.get? id = some d ∧
        d.state = .revoked) →
      ∃ d, (Machine.run (platformStep p) s (calls ++ later)).tables.delegations.get? id = some d ∧
        d.state = .revoked) ∧
    ∀ event ∈ Machine.trace (platformStep p) s calls, ∀ g,
      PlatformEvent.did event (.core (.revokeGrant g)) → ∀ id,
        event.after.tables.delegations.get? id ≠ event.before.tables.delegations.get? id ↔
          ∃ d, event.before.tables.delegations.get? id = some d ∧ d.state = .active ∧
            Ancestor event.before.tables.delegations id g := by
  refine ⟨?_, fun later id hRevoked => ?_, fun event hMem g hDid id => ?_⟩
  · have hTree : GrantTree (Machine.run (platformStep p) s calls).tables.delegations :=
      platform_invariant (I := fun t => GrantTree t.delegations)
        (fun _ _ _ _ h hChange => h.change hChange) (GrantTree.empty hStart) calls
    exact hTree.attenuates
  · rw [Machine.run_append]
    exact platform_invariant (fun _ _ _ _ h hChange => hChange.revoked_kept h) hRevoked later
  · obtain ⟨before, after, -, hAt⟩ := Machine.mem_trace (platformStep p) hMem
    rw [hAt] at hDid ⊢
    exact (platformChange_of_did hDid).revokes_subtree id

end Runs

/-- A grant, a grant under it, and the revocation of the first. -/
def Sample.cascade : List (PlatformCall Empty) :=
  [delegate 1 none, delegate 2 (some (grantOf 1)), revoke 3 (grantOf 1)]

theorem Sample.workshop_ungranted (id : Uuid) : workshop.tables.delegations.get? id = none := rfl

theorem Sample.cascade_revoked :
    ((fromWorkshop cascade).tables.delegations.get? (grantOf 2)).map
      (fun d => (d.parentGrantId, d.state)) = some (some (grantOf 1), .revoked) := by
  simp only [Sample.fromWorkshop, platformStep_bytewise, Sample.platform_bytewise]
  decide +kernel

theorem delegation_attenuates_cascade :
    ((Sample.fromWorkshop Sample.cascade).tables.delegations.get? (Sample.grantOf 2)).map
      (fun d => (d.parentGrantId, d.state)) = some (some (Sample.grantOf 1), .revoked) ∧
    Attenuates (Machine.run (platformStep Sample.platform) Sample.workshop
      Sample.cascade).tables.delegations :=
  ⟨Sample.cascade_revoked,
    (delegation_attenuates Sample.platform Sample.workshop Sample.cascade
      Sample.workshop_ungranted).1⟩

/-! ## The check of the relay -/

/-- Every run is bound to the first fence of a stored grant. -/
def RunsBound (t : Tables) : Prop :=
  ∀ id r, t.runs.get? id = some r →
    r.grantFence = 1 ∧ ∃ d, t.delegations.get? r.grantId = some d

section Relay

variable {ι : Type} {env : Env} {tick : Tick} {t t' : Tables} {a : PlatformAct}

/-- No step removes a grant. -/
theorem PlatformChange.grant_stored (hChange : PlatformChange env tick t a t') {id : Uuid}
    (h : ∃ d, t.delegations.get? id = some d) : ∃ d, t'.delegations.get? id = some d := by
  obtain ⟨d, hd⟩ := h
  cases hChange with
  | core hCore =>
    obtain ⟨d', hd', -⟩ := hCore.grant_kept hd
    exact ⟨d', hd'⟩
  | _ => exact ⟨d, hd⟩

/-- A run is admitted under an active grant, and its terms never change. -/
theorem RunsBound.change (h : RunsBound t) (hTree : GrantTree t.delegations)
    (hChange : PlatformChange env tick t a t') : RunsBound t' := by
  intro id r hr
  cases hChange.run id with
  | same hSame =>
    rw [hSame] at hr
    obtain ⟨hFence, hGrant⟩ := h id r hr
    exact ⟨hFence, hChange.grant_stored hGrant⟩
  | created hNone hNew hAdmitted hId hAct =>
    cases hNew.symm.trans hr
    obtain ⟨g, hActive, hFence⟩ := hAdmitted.grant
    obtain ⟨hCurrent, d, hd, rfl⟩ := requireActiveGrant_ok hActive
    have hOwn := hCurrent _ (mem_ancestry ReflTransGen.refl hd)
    rw [DelegationRow.current, Bool.and_eq_true, decide_eq_true_eq] at hOwn
    refine ⟨?_, hChange.grant_stored ⟨d, hd⟩⟩
    rcases hTree.staged _ d hd with ⟨-, hFirst, -⟩ | ⟨hRevoked, -⟩
    · exact hFence.trans hFirst
    · cases hOwn.1.symm.trans hRevoked
  | @moved q _ hFound hNew hStep =>
    cases hNew.symm.trans hr
    obtain ⟨hFence, hGrant⟩ := h id q hFound
    have hTerms := hStep.moved.terms
    have hSameFence : r.grantFence = q.grantFence := congrArg RunTerms.grantFence hTerms
    have hSameGrant : r.grantId = q.grantId := congrArg RunTerms.grantId hTerms
    rw [hSameFence, hSameGrant]
    exact ⟨hFence, hChange.grant_stored hGrant⟩

/-- On a tree of grants, one row tells whether the whole ancestry is current. -/
theorem GrantTree.current_iff {ds : Delegations} (h : GrantTree ds) {id : Uuid} {d : DelegationRow}
    (hd : ds.get? id = some d) (now : Int) :
    d.current now = true ↔
      ancestry ds id ≠ [] ∧ ∀ g ∈ ancestry ds id, g.2.current now = true := by
  have hOwn : (id, d) ∈ ancestry ds id := mem_ancestry ReflTransGen.refl hd
  constructor
  · intro hCurrent
    refine ⟨List.ne_nil_of_mem hOwn, fun g hg => ?_⟩
    obtain ⟨hAbove, hStored⟩ := ancestor_of_mem_ancestryFrom hg
    obtain ⟨top, hTop, hWithin⟩ := h.ancestor hd hAbove
    cases hTop.symm.trans hStored
    simp only [DelegationRow.current, Bool.and_eq_true, decide_eq_true_eq] at hCurrent ⊢
    exact ⟨hWithin.active hCurrent.1, lt_of_lt_of_le hCurrent.2 hWithin.expiry⟩
  · rintro ⟨-, hAll⟩
    exact hAll _ hOwn

/-- While its grant is active, the fence that a run is bound to is the grant's. -/
theorem grantRefusal_eq_none_iff (hTree : GrantTree t.delegations) {r : RunRow}
    {d : DelegationRow} (hd : t.delegations.get? r.grantId = some d) (hFence : r.grantFence = 1) :
    grantRefusal tick t r = none ↔ d.current tick.now = true := by
  have hFirst : d.current tick.now = true → d.fence = r.grantFence := by
    intro hCurrent
    rw [DelegationRow.current, Bool.and_eq_true, decide_eq_true_eq] at hCurrent
    rcases hTree.staged _ d hd with ⟨-, hOne, -⟩ | ⟨hRevoked, -⟩
    · exact hOne.trans hFence.symm
    · cases hCurrent.1.symm.trans hRevoked
  rw [grantRefusal, hd]
  dsimp only
  split
  · rename_i hBoth
    rw [Bool.and_eq_true] at hBoth
    exact ⟨fun _ => hBoth.1, fun _ => rfl⟩
  · rename_i hNot
    refine ⟨fun h => (by cases h), fun hCurrent => absurd ?_ hNot⟩
    rw [hCurrent, hFirst hCurrent, decide_eq_true rfl]
    rfl

/-- The relay's check of one row finds exactly what the walk over the whole ancestry finds. -/
theorem grant_check_exact (p : Platform ι) (s : Store) (calls : List (PlatformCall ι))
    (hRuns : ∀ id, s.tables.runs.get? id = none)
    (hGrants : ∀ id, s.tables.delegations.get? id = none) (id : Uuid) (r : RunRow)
    (hr : (Machine.run (platformStep p) s calls).tables.runs.get? id = some r) (tick : Tick) :
    grantRefusal tick (Machine.run (platformStep p) s calls).tables r = none ↔
      ancestry (Machine.run (platformStep p) s calls).tables.delegations r.grantId ≠ [] ∧
        ∀ g ∈ ancestry (Machine.run (platformStep p) s calls).tables.delegations r.grantId,
          g.2.current tick.now = true := by
  have hStart : GrantTree s.tables.delegations ∧ RunsBound s.tables := by
    refine ⟨.empty hGrants, fun k q hq => ?_⟩
    cases (hRuns k).symm.trans hq
  obtain ⟨hTree, hBound⟩ := platform_invariant (p := p)
    (I := fun t => GrantTree t.delegations ∧ RunsBound t)
    (fun _ _ _ _ h hChange => ⟨h.1.change hChange, h.2.change h.1 hChange⟩) hStart calls
  obtain ⟨hFence, d, hd⟩ := hBound id r hr
  rw [grantRefusal_eq_none_iff hTree hd hFence, hTree.current_iff hd]

end Relay

/-- A run is admitted under the lower grant, and then the upper grant is revoked. -/
def Sample.undercut : List (PlatformCall Empty) :=
  [delegate 1 none, delegate 2 (some (grantOf 1)), start 3 (grantOf 2), revoke 4 (grantOf 1)]

theorem Sample.undercut_run : ∃ r,
    (Machine.run (platformStep platform) workshop undercut).tables.runs.get? (runOf 3) = some r ∧
      grantRefusal (tick 5) (Machine.run (platformStep platform) workshop undercut).tables r =
        some "GRANT_REVOKED_OR_EXPIRED" := by
  have hRun : ((Machine.run (platformStep platform) workshop undercut).tables.runs.get?
        (runOf 3)).map (grantRefusal (tick 5)
          (Machine.run (platformStep platform) workshop undercut).tables) =
      some (some "GRANT_REVOKED_OR_EXPIRED") := by
    rw [platformStep_bytewise, Sample.platform_bytewise]
    decide +kernel
  exact Option.map_eq_some_iff.mp hRun

theorem grant_check_undercut : ∃ r,
    (Machine.run (platformStep Sample.platform) Sample.workshop
      Sample.undercut).tables.runs.get? (Sample.runOf 3) = some r ∧
    ¬(ancestry (Machine.run (platformStep Sample.platform) Sample.workshop
        Sample.undercut).tables.delegations r.grantId ≠ [] ∧
      ∀ g ∈ ancestry (Machine.run (platformStep Sample.platform) Sample.workshop
        Sample.undercut).tables.delegations r.grantId,
          g.2.current (Sample.tick 5).now = true) := by
  obtain ⟨r, hr, hRefused⟩ := Sample.undercut_run
  have hExact := grant_check_exact Sample.platform Sample.workshop Sample.undercut
    Sample.workshop_idle Sample.workshop_ungranted (Sample.runOf 3) r hr (Sample.tick 5)
  refine ⟨r, hr, fun hAll => ?_⟩
  cases hRefused.symm.trans (hExact.mpr hAll)

end Masonwing
