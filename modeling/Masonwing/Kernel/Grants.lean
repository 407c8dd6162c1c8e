import Mathlib.Data.Finset.Basic
import Masonwing.Lib.Outcome

/-!
# The kernel's grants

`crates/kernel/src/grants.rs`: a grant, the grants that are derived from it, and what they
authorize. The kernel only compares the names of actions and resources, so the type of the latter is a
parameter; identifiers are kept as their texts.
-/

namespace Masonwing

open Outcome

inductive GrantError where
  | delegationDenied
  | delegationExpired
  deriving DecidableEq

structure RunGrant (ρ : Type) where
  id : String
  tenantId : String
  principalId : String
  parentId : Option String
  actions : Finset String
  resources : Finset ρ
  expiresAt : Int

structure ChildGrantRequest (ρ : Type) where
  id : String
  tenantId : String
  principalId : String
  actions : Finset String
  resources : Finset ρ
  expiresAt : Int

namespace RunGrant

variable {ρ : Type} [DecidableEq ρ]

def newRoot (id tenantId principalId : String) (actions : List String) (resources : List ρ)
    (expiresAt : Int) : RunGrant ρ :=
  { id, tenantId, principalId, parentId := none, actions := actions.toFinset
    resources := resources.toFinset, expiresAt }

def deriveChild (g : RunGrant ρ) (request : ChildGrantRequest ρ) :
    Except GrantError (RunGrant ρ) := do
  require (request.tenantId = g.tenantId ∧ request.expiresAt ≤ g.expiresAt ∧
    request.actions ⊆ g.actions ∧ request.resources ⊆ g.resources) .delegationDenied
  return { id := request.id, tenantId := request.tenantId, principalId := request.principalId
           parentId := some g.id, actions := request.actions, resources := request.resources
           expiresAt := request.expiresAt }

def authorize (g : RunGrant ρ) (action : String) (resource : ρ) (now : Int) :
    Except GrantError Unit := do
  require (now < g.expiresAt) .delegationExpired
  require (action ∈ g.actions ∧ resource ∈ g.resources) .delegationDenied

/-- A grant that was derived from `top`, in any number of steps. -/
inductive DerivedFrom (top : RunGrant ρ) : RunGrant ρ → Prop
  | refl : DerivedFrom top top
  | child {g g' : RunGrant ρ} {request : ChildGrantRequest ρ} (hAbove : DerivedFrom top g)
      (hDerived : g.deriveChild request = .ok g') : DerivedFrom top g'

theorem deriveChild_eq_ok {g g' : RunGrant ρ} {request : ChildGrantRequest ρ} :
    g.deriveChild request = .ok g' ↔ (request.tenantId = g.tenantId ∧
      request.expiresAt ≤ g.expiresAt ∧ request.actions ⊆ g.actions ∧
      request.resources ⊆ g.resources) ∧
      { id := request.id, tenantId := request.tenantId, principalId := request.principalId
        parentId := some g.id, actions := request.actions, resources := request.resources
        expiresAt := request.expiresAt } = g' := by
  simp only [deriveChild, bind_eq_ok, require_eq_ok, pure_eq_ok, exists_const]

theorem authorize_eq_ok {g : RunGrant ρ} {action : String} {resource : ρ} {now : Int} :
    g.authorize action resource now = .ok () ↔
      now < g.expiresAt ∧ action ∈ g.actions ∧ resource ∈ g.resources := by
  simp only [authorize, bind_eq_ok, require_eq_ok, exists_const]

/-- What a derived grant authorizes, the grant it comes from authorizes too. -/
theorem DerivedFrom.authorize {top g : RunGrant ρ} (h : DerivedFrom top g) {action : String}
    {resource : ρ} {now : Int} (hAuthorized : g.authorize action resource now = .ok ()) :
    top.authorize action resource now = .ok () := by
  induction h with
  | refl => exact hAuthorized
  | child hAbove hDerived ih =>
    apply ih
    obtain ⟨⟨-, hExpiry, hActions, hResources⟩, rfl⟩ := deriveChild_eq_ok.mp hDerived
    obtain ⟨hLive, hAction, hResource⟩ := authorize_eq_ok.mp hAuthorized
    exact authorize_eq_ok.mpr ⟨lt_of_lt_of_le hLive hExpiry, hActions hAction,
      hResources hResource⟩

end RunGrant

end Masonwing
