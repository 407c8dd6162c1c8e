import Mathlib.Data.List.Sort
import Masonwing.Store.Authority

/-!
# Deletion

`request_deletion` of `artifact_commands.rs`: an artifact is tombstoned together with everything
derived from it. The recursive query collects the artifacts reached by lineage, each once, so it
ends on every lineage; here it is a bounded number of rounds, as many as there are edges.
-/

namespace Masonwing

open Outcome

/-! ## The affected artifacts -/

/-- One round of the query: the artifacts so far and those derived from them. -/
def deriveOnce (lineage : List (Uuid × Uuid)) (ids : List Uuid) : List Uuid :=
  (ids ++ (lineage.filter fun e => ids.contains e.1).map Prod.snd).dedup

def deriveFrom (lineage : List (Uuid × Uuid)) : Nat → List Uuid → List Uuid
  | 0, ids => ids
  | rounds + 1, ids => deriveFrom lineage rounds (deriveOnce lineage ids)

/-- An artifact and everything derived from it, in the order of the identifiers. -/
def affectedArtifacts (lineage : List (Uuid × Uuid)) (id : Uuid) : List Uuid :=
  (deriveFrom lineage lineage.length [id]).insertionSort fun a b => a.bits ≤ b.bits

/-! ## The request -/

/-- `SET state='TOMBSTONED',version=version+1`. -/
def tombstoneRow (a : ArtifactRow) : Except SqlError ArtifactRow := do
  let version ← okOr a.version.next? .numericOutOfRange
  return { a with state := .tombstoned, version }

/-- `SET state='REVOKED',version=version+1` on the rights of an artifact. -/
def revokeRights (r : RightsRow) : Except SqlError RightsRow := do
  let version ← okOr r.version.next? .numericOutOfRange
  return { r with state := .revoked, version }

/-- `INSERT INTO deletion_tombstones ... ON CONFLICT DO NOTHING`. -/
def addTombstone (tombstones : List (String × String)) (id : Uuid) : List (String × String) :=
  if ("Artifact", id.toText) ∈ tombstones then tombstones
  else tombstones ++ [("Artifact", id.toText)]

/-- An effect may have left the tenant with one of the artifacts as its content. -/
def externalCopy (t : Tables) (ids : List Uuid) : Bool :=
  t.effects.any fun _ e => (ids.map (·.toText)).contains e.contentRef.artifactId.text &&
    (e.state.unresolved || decide (e.state = .succeeded))

def deletionValue (request : Uuid) (target : ResourceRef) (state : DeletionState)
    (ids : List Uuid) : Json :=
  .obj [("request_id", .str request.toText), ("resource", target.toJson),
    ("state", .str state.toText),
    ("affected_artifact_ids", .arr (ids.map fun id => .str id.toText)),
    ("physical_purge_complete", .bool false), ("external_copy_removal_complete", .bool false),
    ("version", .num 1)]

def requestDeletion (env : Env) (tick : Tick) (t : Tables) (actor : CommandActor)
    (target : ResourceRef) (reason confirmation : String) : Result (Tables × Mutation) := do
  require (blank reason = false ∧ confirmation = "DELETE " ++ target.resourceId.text)
    (.precondition "DELETION_CONFIRMATION_REQUIRED")
  require (target.resourceType = "Artifact") (.precondition "DELETION_RESOURCE_UNSUPPORTED")
  let id ← parseUuid target.resourceId.text
  let a ← okOr (t.journal.artifacts.get? id) .notFound
  require (a.version.val = target.version) (.conflict "STALE_VERSION")
  require (a.legalHold = false) (.precondition "LEGAL_HOLD_ACTIVE")
  let ids := affectedArtifacts t.journal.lineage id
  require (t.journal.artifacts.any (fun k a => ids.contains k && a.legalHold) = false)
    (.precondition "LEGAL_HOLD_ACTIVE")
  let policy ← readPolicy env t actor
  require (policy.permits env "deletion.request" "Artifact" target.resourceId.text
    [("version", .num target.version)] = true) (.denied "DELETION_DENIED")
  let state : DeletionState := if externalCopy t ids then .pendingExternal else .purgePending
  let requestedBy ← parseUuid actor.principalId.text
  let artifacts ← sql (t.journal.artifacts.updateWhereM
    (fun k a => ids.contains k && decide (a.state ≠ .purged)) tombstoneRow)
  let rights ← sql (t.rights.updateWhereM
    (fun k r => ids.contains k && decide (r.state = .active)) revokeRights)
  let request := tick.draw .deletionRequest
  let deletionRequests ← sql (insertRow t.deletionRequests request
    { resourceType := "Artifact", resourceId := id.toText, state, affectedArtifactIds := ids
      requestedBy, reason })
  let tombstones := ids.foldl addTombstone t.journal.tombstones
  return ({ t with journal := { t.journal with artifacts, tombstones }, rights, deletionRequests },
    .one "DeletionRequest" request .one (deletionValue request target state ids)
      "File deletion request")

end Masonwing
