import Mathlib.Data.List.Perm.Subperm
import Mathlib.Logic.Relation
import Masonwing.Proofs.Changes

/-!
# The ancestry of grants

The relation that the two recursive queries of `delegation.rs` compute, and what the steps of the
system do to it.

* `mem_ancestry`: the walk up from a grant visits every stored ancestor of it, also where the
  links lead back;
* `mem_descendantsFrom`: what the walk down from a grant visits has that grant as an ancestor;
* `GrantView`, `Change.grant`: every act, seen from one grant;
* `Attenuated.change`, `ancestor_change`: children stay inside their parents, and no step changes
  the ancestors of a stored grant.
-/

namespace Masonwing

open Outcome Relation

/-! ## The two walks -/

/-- `parent` is the parent of the stored grant `id`. -/
def ParentOf (ds : Delegations) (id parent : Uuid) : Prop :=
  ∃ d, ds.get? id = some d ∧ d.parentGrantId = some parent

/-- A grant itself, its parent, the parent of that one, and so on. -/
def Ancestor (ds : Delegations) : Uuid → Uuid → Prop := ReflTransGen (ParentOf ds)

section Walks

variable {ds : Delegations}

/-- A path through stored grants that does not yet hold `id` has room for it. -/
theorem path_length_lt {path : List Uuid} {id : Uuid} {d : DelegationRow} (hNodup : path.Nodup)
    (hStored : ∀ k ∈ path, ds.contains k = true) (hId : id ∉ path) (hd : ds.get? id = some d) :
    path.length < ds.rows.length := by
  have hKeys : id :: path ⊆ ds.rows.map Prod.fst := by
    intro k hk
    have hContains : ds.contains k = true := by
      rcases List.mem_cons.mp hk with rfl | hk
      · exact Table.contains_iff.mpr ⟨d, hd⟩
      · exact hStored k hk
    obtain ⟨r, hr⟩ := Table.contains_iff.mp hContains
    exact List.mem_map.mpr ⟨_, Table.get?_eq_some_iff.mp hr, rfl⟩
  have hLength := (List.Nodup.subperm (List.nodup_cons.mpr ⟨hId, hNodup⟩) hKeys).length_le
  rw [List.length_cons, List.length_map] at hLength
  omega

theorem mem_ancestryFrom_self {fuel : Nat} {path : List Uuid} {id : Uuid} {d : DelegationRow}
    (hFuel : 0 < fuel) (hd : ds.get? id = some d) : (id, d) ∈ ancestryFrom ds fuel path id := by
  cases fuel with
  | zero => omega
  | succ fuel =>
    rw [ancestryFrom, hd]
    exact List.mem_cons_self

/-- With fuel for all rows outside the path, the walk misses no parent of what it visits. -/
theorem ancestryFrom_closed {fuel : Nat} {path : List Uuid} {id : Uuid} (hNodup : path.Nodup)
    (hStored : ∀ k ∈ path, ds.contains k = true) (hId : id ∉ path)
    (hFuel : ds.rows.length ≤ fuel + path.length) :
    ∀ r ∈ ancestryFrom ds fuel path id, ∀ p ∈ r.2.parentGrantId, ∀ d, ds.get? p = some d →
      p ∈ path ∨ (p, d) ∈ ancestryFrom ds fuel path id := by
  induction fuel generalizing path id with
  | zero =>
    intro r hr
    cases hr
  | succ fuel ih =>
    intro r hr p hp d hd
    rw [ancestryFrom] at hr ⊢
    cases hRow : ds.get? id with
    | none =>
      rw [hRow] at hr
      cases hr
    | some g =>
      rw [hRow] at hr
      dsimp only at hr ⊢
      have hPath : (id :: path).Nodup := List.nodup_cons.mpr ⟨hId, hNodup⟩
      have hPathStored : ∀ k ∈ id :: path, ds.contains k = true := by
        intro k hk
        rcases List.mem_cons.mp hk with rfl | hk
        · exact Table.contains_iff.mpr ⟨g, hRow⟩
        · exact hStored k hk
      have hRoom : ds.rows.length ≤ fuel + (id :: path).length := by
        rw [List.length_cons]
        omega
      -- a parent on the path of the walk is on the old path or is `id`, the head of the list
      have hBack : ∀ rest, p ∈ id :: path → p ∈ path ∨ (p, d) ∈ (id, g) :: rest := by
        intro rest hMem
        rcases List.mem_cons.mp hMem with rfl | hMem
        · cases hRow.symm.trans hd
          exact Or.inr List.mem_cons_self
        · exact Or.inl hMem
      rcases List.mem_cons.mp hr with rfl | hr
      · -- the parent of `id` itself
        dsimp only at hp
        rw [Option.mem_def.mp hp]
        dsimp only
        by_cases hMem : p ∈ id :: path
        · exact hBack _ hMem
        · rw [if_neg hMem]
          have hLt := path_length_lt hPath hPathStored hMem hd
          exact Or.inr (List.mem_cons_of_mem _ (mem_ancestryFrom_self (by omega) hd))
      · cases hParent : g.parentGrantId with
        | none =>
          rw [hParent] at hr
          cases hr
        | some q =>
          rw [hParent] at hr
          dsimp only at hr ⊢
          by_cases hMem : q ∈ id :: path
          · rw [if_pos hMem] at hr
            cases hr
          · rw [if_neg hMem] at hr ⊢
            rcases ih hPath hPathStored hMem hRoom r hr p hp d hd with hOn | hVisited
            · exact hBack _ hOn
            · exact Or.inr (List.mem_cons_of_mem _ hVisited)

/-- What the walk up visits is stored and an ancestor. -/
theorem ancestor_of_mem_ancestryFrom {fuel : Nat} {path : List Uuid} {id : Uuid}
    {r : Uuid × DelegationRow} (h : r ∈ ancestryFrom ds fuel path id) :
    Ancestor ds id r.1 ∧ ds.get? r.1 = some r.2 := by
  induction fuel generalizing path id with
  | zero => cases h
  | succ fuel ih =>
    rw [ancestryFrom] at h
    cases hRow : ds.get? id with
    | none =>
      rw [hRow] at h
      cases h
    | some g =>
      rw [hRow] at h
      rcases List.mem_cons.mp h with rfl | h
      · exact ⟨ReflTransGen.refl, hRow⟩
      · cases hParent : g.parentGrantId with
        | none =>
          rw [hParent] at h
          cases h
        | some q =>
          rw [hParent] at h
          dsimp only at h
          split at h
          · cases h
          · obtain ⟨hAbove, hStored⟩ := ih h
            exact ⟨ReflTransGen.head ⟨g, hRow, hParent⟩ hAbove, hStored⟩

/-- The walk up from a grant visits every stored ancestor. -/
theorem mem_ancestry {id a : Uuid} {d : DelegationRow} (h : Ancestor ds id a)
    (hd : ds.get? a = some d) : (a, d) ∈ ancestry ds id := by
  induction h generalizing d with
  | refl =>
    have hLt := path_length_lt List.nodup_nil (fun k hk => by cases hk) List.not_mem_nil hd
    exact mem_ancestryFrom_self hLt hd
  | tail hChain hParent ih =>
    obtain ⟨g, hg, hLink⟩ := hParent
    have hVisited := ih hg
    rcases ancestryFrom_closed List.nodup_nil (fun k hk => by cases hk) List.not_mem_nil (by simp)
      _ hVisited _ hLink d hd with hMem | hMem
    · cases hMem
    · exact hMem

theorem mem_childrenOf {id k : Uuid} : k ∈ childrenOf ds id ↔ ParentOf ds k id := by
  unfold childrenOf ParentOf
  rw [List.mem_map]
  constructor
  · rintro ⟨⟨j, d⟩, hMem, rfl⟩
    obtain ⟨hd, hLink⟩ := Table.mem_select.mp hMem
    exact ⟨d, hd, of_decide_eq_true hLink⟩
  · rintro ⟨d, hd, hLink⟩
    exact ⟨(k, d), Table.mem_select.mpr ⟨hd, decide_eq_true hLink⟩, rfl⟩

/-- The walk down visits grants below the ones it starts from, these included. -/
theorem mem_descendantsFrom {fuel : Nat} {frontier ids : List Uuid}
    (h : descendantsFrom ds fuel frontier = some ids) :
    frontier ⊆ ids ∧ ∀ k ∈ ids, ∃ f ∈ frontier, Ancestor ds k f := by
  induction fuel generalizing frontier ids with
  | zero =>
    cases frontier with
    | nil =>
      cases h
      exact ⟨List.Subset.refl _, fun k hk => by cases hk⟩
    | cons f rest => cases h
  | succ fuel ih =>
    cases frontier with
    | nil =>
      cases h
      exact ⟨List.Subset.refl _, fun k hk => by cases hk⟩
    | cons f rest =>
      obtain ⟨below, hBelow, hIds⟩ := Option.bind_eq_some_iff.mp h
      cases hIds
      refine ⟨List.subset_append_left _ _, fun k hk => ?_⟩
      rcases List.mem_append.mp hk with hk | hk
      · exact ⟨k, hk, ReflTransGen.refl⟩
      · obtain ⟨child, hChild, hChain⟩ := (ih hBelow).2 k hk
        obtain ⟨top, hTop, hLink⟩ := List.mem_flatMap.mp hChild
        exact ⟨top, hTop, ReflTransGen.tail hChain (mem_childrenOf.mp hLink)⟩

end Walks

/-! ## One grant in one step -/

/-- How an act changes the row of one grant. -/
inductive GrantView (tick : Tick) (id : Uuid) (a : Act) (t t' : Tables) : Prop
  | same (hRow : t'.delegations.get? id = t.delegations.get? id) (hAct : a ≠ .revokeGrant id)
  | created {d : DelegationRow} (hNone : t.delegations.get? id = none)
      (hRow : t'.delegations.get? id = some d) (hAdmitted : GrantAdmitted tick t d)
      (hAct : a = .createGrant)
  | revoked {d d' : DelegationRow} {g : Uuid} (hFound : t.delegations.get? id = some d)
      (hRow : t'.delegations.get? id = some d') (hActive : d.state = .active)
      (hRevoke : revokeRow d = .ok d') (hAct : a = .revokeGrant g)
      (hAncestor : Ancestor t.delegations id g)

section View

variable {env : Env} {tick : Tick} {t t' : Tables} {a : Act}

/-- Every act, seen from one grant. -/
theorem Change.grant (h : Change env tick t a t') (id : Uuid) : GrantView tick id a t t' := by
  cases h with
  | grantCreated j hInsert hAdmitted =>
    by_cases hId : id = tick.draw .grant
    · subst hId
      exact .created (Table.insert?_eq_some hInsert).1 (Table.insert?_get?_self hInsert) hAdmitted
        rfl
    · exact .same (by rw [Table.insert?_get? hInsert, if_neg hId]) (fun h => by cases h)
  | @grantRevoked g root ids ds j hFound hActive hIds hRevoked =>
    obtain ⟨hFrontier, hBelow⟩ := mem_descendantsFrom hIds
    have hRoot : g ∈ ids := hFrontier List.mem_cons_self
    rcases hRevoked.rows id with ⟨hNone, hNone'⟩ | ⟨d, d', hd, hd', hRevoke⟩
    · refine .same (hNone'.trans hNone.symm) fun hAct => ?_
      cases hAct
      cases hFound.symm.trans hNone
    · by_cases hAffected : id ∈ ids ∧ d.state = .active
      · rw [if_pos hAffected] at hRevoke
        obtain ⟨f, hf, hChain⟩ := hBelow id hAffected.1
        rw [List.mem_singleton] at hf
        subst hf
        exact .revoked hd hd' hAffected.2 hRevoke rfl hChain
      · rw [if_neg hAffected] at hRevoke
        subst hRevoke
        refine .same (hd'.trans hd.symm) fun hAct => ?_
        cases hAct
        cases hFound.symm.trans hd
        exact hAffected ⟨hRoot, hActive⟩
  | _ => exact .same rfl (fun h => by cases h)

/-- A stored grant stays, with its parent and its expiry, and a revoked one stays revoked. -/
theorem Change.grant_kept (h : Change env tick t a t') {id : Uuid} {d : DelegationRow}
    (hd : t.delegations.get? id = some d) :
    ∃ d', t'.delegations.get? id = some d' ∧ d'.parentGrantId = d.parentGrantId ∧
      d'.expiresAt = d.expiresAt ∧ (d.state = .revoked → d'.state = .revoked) := by
  cases h.grant id with
  | same hRow hAct => exact ⟨d, hRow.trans hd, rfl, rfl, fun hs => hs⟩
  | created hNone hRow hAdmitted hAct => cases hNone.symm.trans hd
  | revoked hFound hRow hActive hRevoke hAct hAncestor =>
    cases hFound.symm.trans hd
    obtain ⟨version, -, rfl⟩ := revokeRow_ok hRevoke
    exact ⟨_, hRow, rfl, rfl, fun _ => rfl⟩

/-! ## Attenuation -/

/-- The parent of a stored grant is stored, and the grant does not outlive it. -/
def Attenuated (ds : Delegations) : Prop :=
  ∀ id p d, ds.get? id = some d → d.parentGrantId = some p →
    ∃ parent, ds.get? p = some parent ∧ d.expiresAt ≤ parent.expiresAt

theorem Attenuated.ancestor {ds : Delegations} (h : Attenuated ds) {id a : Uuid}
    {d : DelegationRow} (hd : ds.get? id = some d) (hAncestor : Ancestor ds id a) :
    ∃ top, ds.get? a = some top ∧ d.expiresAt ≤ top.expiresAt := by
  induction hAncestor with
  | refl => exact ⟨d, hd, le_refl _⟩
  | tail hChain hParent ih =>
    obtain ⟨g, hg, hLe⟩ := ih
    obtain ⟨g', hg', hLink⟩ := hParent
    cases hg.symm.trans hg'
    obtain ⟨top, hTop, hTopLe⟩ := h _ _ g hg hLink
    exact ⟨top, hTop, hLe.trans hTopLe⟩

theorem Attenuated.change (h : Attenuated t.delegations) (hChange : Change env tick t a t') :
    Attenuated t'.delegations := by
  -- the parent that was found before the step is there after it
  have hKept : ∀ p d, (∃ parent, t.delegations.get? p = some parent ∧
      d ≤ parent.expiresAt) → ∃ parent, t'.delegations.get? p = some parent ∧
      d ≤ parent.expiresAt := by
    rintro p d ⟨parent, hParent, hLe⟩
    obtain ⟨parent', hRow, -, hExpiry, -⟩ := hChange.grant_kept hParent
    exact ⟨parent', hRow, hExpiry ▸ hLe⟩
  intro id p d hd hLink
  cases hChange.grant id with
  | same hRow hAct => exact hKept p _ (h id p d (hRow ▸ hd) hLink)
  | created hNone hRow hAdmitted hAct =>
    cases hRow.symm.trans hd
    obtain ⟨-, parent, hParent, hLe, -⟩ := hAdmitted.parent p hLink
    exact hKept p _ ⟨parent, hParent, hLe⟩
  | revoked hFound hRow hActive hRevoke hAct hAncestor =>
    cases hRow.symm.trans hd
    obtain ⟨version, -, rfl⟩ := revokeRow_ok hRevoke
    have hBefore := h id p _ hFound hLink
    exact hKept p _ hBefore

/-- The ancestors of a stored grant are the same after a step. -/
theorem ancestor_change (h : Attenuated t.delegations) (hChange : Change env tick t a t')
    {id x : Uuid} {d : DelegationRow} (hd : t.delegations.get? id = some d) :
    Ancestor t'.delegations id x ↔ Ancestor t.delegations id x := by
  constructor
  · intro hAncestor
    induction hAncestor with
    | refl => exact ReflTransGen.refl
    | tail hChain hParent ih =>
      obtain ⟨g, hg, -⟩ := h.ancestor hd ih
      obtain ⟨g', hg', hSame, -, -⟩ := hChange.grant_kept hg
      obtain ⟨row, hRow, hLink⟩ := hParent
      cases hg'.symm.trans hRow
      exact ReflTransGen.tail ih ⟨g, hg, hSame ▸ hLink⟩
  · intro hAncestor
    induction hAncestor with
    | refl => exact ReflTransGen.refl
    | tail hChain hParent ih =>
      obtain ⟨g, hg, hLink⟩ := hParent
      obtain ⟨g', hg', hSame, -, -⟩ := hChange.grant_kept hg
      exact ReflTransGen.tail ih ⟨g', hg', hSame.trans hLink⟩

end View

end Masonwing
