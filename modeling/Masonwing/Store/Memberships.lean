import Mathlib.Data.List.Dedup
import Mathlib.Data.List.Sort
import Mathlib.Data.String.Basic
import Masonwing.Store.Authority

/-!
# Memberships

`membership.change` and `membership.revoke` of `identity_commands.rs`. A membership is named by its
own identifier, which is not the one of its principal; changing its roles or its status advances
both of its epochs.
-/

namespace Masonwing

open Outcome

def allowedRoles : List String :=
  ["OWNER", "EDITOR", "REVIEWER", "PUBLISHER", "VIEWER", "SERVICE", "SUPPORT"]

/-- `normalize_roles`: sorted, and refused where one occurs twice. -/
def normalizeRoles (roles : List String) : Result (List String) := do
  require (1 ≤ roles.length ∧ roles.length ≤ 10) (.invalid "MEMBERSHIP_ROLES_INVALID")
  require (∀ role ∈ roles, role ∈ allowedRoles) (.invalid "MEMBERSHIP_ROLES_INVALID")
  let distinct := (roles.insertionSort fun a b => a ≤ b).dedup
  require (distinct.length = roles.length) (.invalid "MEMBERSHIP_ROLES_INVALID")
  return distinct

/-- `actor_membership_roles`. -/
def actorMembershipRoles (t : Tables) (actor : CommandActor) : Result (List String) := do
  let principal ← parseUuid actor.principalId.text
  let membership := (t.identity.memberships.get? principal).filter fun m =>
    decide (m.status = .active)
  let roles := (membership.map (·.roles)).getD []
  require (roles ≠ []) (.denied "AUTHORITY_CHANGED")
  return roles

/-- Only an owner assigns roles that it does not hold itself. -/
def requireAssignableRoles (t : Tables) (actor : CommandActor) (requested : List String) :
    Result Unit := do
  let own ← actorMembershipRoles t actor
  require ("OWNER" ∈ own ∨ ("OWNER" ∉ requested ∧ ∀ role ∈ requested, role ∈ own))
    (.denied "MEMBERSHIP_ROLE_ESCALATION")

def requireActorCanManageOwner (t : Tables) (actor : CommandActor) (targetIsOwner : Bool) :
    Result Unit :=
  if targetIsOwner then do
    let own ← actorMembershipRoles t actor
    require ("OWNER" ∈ own) (.denied "MEMBERSHIP_OWNER_MANAGEMENT_DENIED")
  else .ok ()

/-- The active memberships that hold `OWNER`. -/
def activeOwners (t : Tables) : List (Uuid × MembershipRow) :=
  t.identity.memberships.select fun _ m => decide (m.status = .active) && m.roles.contains "OWNER"

def ensureNotLastOwner (t : Tables) : Result Unit :=
  require (1 < (activeOwners t).length) (.conflict "LAST_OWNER")

/-- The membership of an identifier, with its principal. -/
def membershipOf (t : Tables) (id : Uuid) : Option (Uuid × MembershipRow) :=
  t.identity.memberships.find? fun _ m => decide (m.membershipId = id)

/-- `membership_projection_value`. -/
def membershipValue (tenant principal : Uuid) (m : MembershipRow) : Json :=
  .obj [("membership_id", .str m.membershipId.toText), ("tenant_id", .str tenant.toText),
    ("principal_id", .str principal.toText), ("roles", .arr (m.roles.map .str)),
    ("state", .str m.status.toText), ("version", .num m.version.val)]

/-- Store a membership that was changed; its epochs advance with it. -/
def writeMembership (t : Tables) (principal : Uuid) (m : MembershipRow) (label : String) :
    Result (Tables × Mutation) := do
  let membershipEpoch ← sql (bigint (m.membershipEpoch + 1))
  let permissionEpoch ← sql (bigint (m.permissionEpoch + 1))
  let m' : MembershipRow := { m with membershipEpoch, permissionEpoch }
  return ({ t with identity := { t.identity with
      memberships := t.identity.memberships.set principal m' } },
    .one "Membership" m.membershipId m.version (membershipValue t.identity.tenantId principal m')
      label)

def changeMembership (t : Tables) (actor : CommandActor) (membershipId : String)
    (expectedVersion : Int) (roles : List String) : Result (Tables × Mutation) := do
  let id ← parseUuid membershipId
  let roles ← normalizeRoles roles
  requireAssignableRoles t actor roles
  let (principal, m) ← okOr (membershipOf t id) .notFound
  require (m.status = .active) (.conflict "ILLEGAL_TRANSITION")
  let version ← requireExpectedVersion m.version expectedVersion
  let hadOwner := m.roles.contains "OWNER"
  requireActorCanManageOwner t actor hadOwner
  if hadOwner && !roles.contains "OWNER" then ensureNotLastOwner t
  let role ← okOr roles.head? (.invalid "MEMBERSHIP_ROLES_INVALID")
  writeMembership t principal { m with role, roles, version } "Membership"

def revokeMembership (t : Tables) (actor : CommandActor) (membershipId : String)
    (expectedVersion : Int) : Result (Tables × Mutation) := do
  let id ← parseUuid membershipId
  let (principal, m) ← okOr (membershipOf t id) .notFound
  require (m.status = .active) (.conflict "ILLEGAL_TRANSITION")
  let version ← requireExpectedVersion m.version expectedVersion
  let isOwner := m.roles.contains "OWNER"
  requireActorCanManageOwner t actor isOwner
  if isOwner then ensureNotLastOwner t
  require (m.roles ≠ []) (.unavailable "MEMBERSHIP_ROLE_INTEGRITY")
  writeMembership t principal { m with status := .revoked, version } "Revoked membership"

end Masonwing
