import Masonwing.Store.Deletion
import Masonwing.Store.Registry
import Masonwing.Store.System

/-!
# The whole platform

The operations of `Store/System.lean` together with the commands on plugins and on stored
artifacts and the checkpoints of workers, over the same store. A call of the first kind does here
what it does there (`platformStep_core`).
-/

namespace Masonwing

open Outcome

variable {ι : Type}

/-- The further commands, with their inputs after the fields were read. -/
inductive PlatformInput (ι : Type) where
  | pluginRevoke (pluginId artifactDigest reason : String)
  | deletionRequest (resource : ResourceRef) (reason confirmation : String)
  | lifecycle (input : ι)

/-- The catalogue of all commands. -/
structure PlatformCatalogue (ι : Type) where
  core : Catalogue
  inputValid : PlatformInput ι → Bool
  fingerprint : PlatformInput ι → Option Digest

/-- What is there besides the modelled code: the environment, the catalogue, and the commands that
only write the registry. -/
structure Platform (ι : Type) where
  env : Env
  catalogue : PlatformCatalogue ι
  lifecycle : Lifecycle ι

namespace Platform

def operation (p : Platform ι) : PlatformInput ι → String
  | .pluginRevoke .. => "plugin.revoke"
  | .deletionRequest .. => "deletion.request"
  | .lifecycle input => (p.lifecycle.operation input).toText

/-- `authorize_command`: a revocation is authorized against the installation, a deletion against
the tenant. -/
def authorize (p : Platform ι) (t : Tables) (c : Command (PlatformInput ι)) : Result Unit := do
  let policy ← readPolicy p.env t c.actor
  match c.input with
  | .pluginRevoke pluginId _ _ => do
    let i ← okOr (t.registry.installations.get? pluginId) .notFound
    require (policy.permits p.env "plugin.revoke" "PluginInstallation" i.id.toText
      [("plugin_id", .str pluginId), ("version", .num i.version.val),
        ("state", .str i.state.toText)] = true) (.denied "AUTHZ_DENIED")
  | .deletionRequest .. =>
    require (policy.permits p.env "deletion.request" "Tenant" t.identity.tenantId.toText [] = true)
      (.denied "AUTHZ_DENIED")
  | .lifecycle input => p.lifecycle.authorize t c.actor input

def dispatch (p : Platform ι) (tick : Tick) (t : Tables) (c : Command (PlatformInput ι)) :
    Result (Tables × Mutation) :=
  match c.input with
  | .pluginRevoke pluginId artifactDigest reason =>
    revokePlugin p.env tick t c.actor pluginId artifactDigest reason
  | .deletionRequest resource reason confirmation =>
    requestDeletion p.env tick t c.actor resource reason confirmation
  | .lifecycle input => p.lifecycle.run tick t c.actor input

def service (p : Platform ι) : Service (PlatformInput ι) :=
  { operation := p.operation
    inputValid := p.catalogue.inputValid
    fingerprint := p.catalogue.fingerprint
    authorize := p.authorize
    handle := p.dispatch }

end Platform

inductive PlatformOperation (ι : Type) where
  | core (operation : Operation)
  | command (c : Command (PlatformInput ι))
  | quarantine (c : Command (PlatformInput ι)) (reference : ArtifactRef)
  | checkpoint (runId : Uuid) (record : CheckpointWrite)

structure PlatformCall (ι : Type) where
  tick : Tick
  operation : PlatformOperation ι

inductive PlatformReply where
  | core (reply : Reply)
  | recorded (written : Bool)

def runPlatformOperation (p : Platform ι) (tick : Tick) (s : Store) :
    PlatformOperation ι → Result (Store × PlatformReply)
  | .core operation => do
    let (s', reply) ← runOperation p.env p.catalogue.core tick s operation
    return (s', .core reply)
  | .command c => do
    let (s', a) ← execute p.env p.service tick s c
    return (s', .core (.answer a))
  | .quarantine c reference => do
    let s' ← quarantineCorruptArtifact p.env p.service tick s c reference
    return (s', .core .done)
  | .checkpoint runId record => do
    let (tables, written) ← recordRunCheckpoint s.tables runId record
    return ({ s with tables }, .recorded written)

/-- One step of the platform. -/
def platformStep (p : Platform ι) (s : Store) (c : PlatformCall ι) :
    Store × Result PlatformReply :=
  transact s (runPlatformOperation p c.tick s c.operation)

theorem platformStep_core (p : Platform ι) (s : Store) (tick : Tick) (operation : Operation) :
    platformStep p s ⟨tick, .core operation⟩ =
      ((step p.env p.catalogue.core s ⟨tick, operation⟩).1,
        (step p.env p.catalogue.core s ⟨tick, operation⟩).2.map .core) := by
  rw [platformStep, step, runPlatformOperation]
  cases runOperation p.env p.catalogue.core tick s operation with
  | ok result => rfl
  | error failure => rfl

/-! ## The small tenant -/

namespace Sample

/-- The platform of the small tenant, on which no plugin is installed or upgraded. -/
def platform : Platform Empty :=
  { env
    catalogue :=
      { core := catalogue
        inputValid := fun _ => true
        fingerprint := fun _ => some (digest []) }
    lifecycle :=
      { operation := Empty.elim
        authorize := fun _ _ => Empty.elim
        handle := fun _ _ _ => Empty.elim } }

def coreCall (c : Call) : PlatformCall Empty := ⟨c.tick, .core c.operation⟩

/-- The further command of the `n`-th second, under a key of its own. -/
def platformCommand (n : Nat) (input : PlatformInput Empty) : PlatformCall Empty :=
  { tick := tick n
    operation := .command
      { actor, input, idempotencyKey := (uuid n).toId, fingerprint := digest [] } }

/-- A transaction of the `n`-th second that reads the content from the object store. -/
def reading (n : Nat) : Tick := { tick n with object := fun _ _ => .ok [1] }

def coreCommand (n : Nat) (input : CommandInput) : PlatformCall Empty :=
  { tick := reading n, operation := .core (command n input).operation }

def coreSystem (n : Nat) (c : SystemCall) : PlatformCall Empty :=
  { tick := reading n, operation := .core (.system c) }

def installation : InstallationRow :=
  { id := uuid 31, state := .enabled, artifactDigest := digest [2], grantedCapabilities := []
    revocationEpoch := 1, version := .one }

def workflow : WorkflowDefinitionRow :=
  { pluginId := "mailer", inputSchema := some contentRef, createdAt := 0 }

/-- The small tenant before anything was delegated or started, with its plugin enabled. -/
def workshop : Store :=
  { tables := { tables with
      registry := { tables.registry with
        installations := ⟨[("mailer", installation)], by decide⟩
        workflowDefinitions := ⟨[(("mailer", "1.0.0", digest [2]), workflow)], by decide⟩ }
      delegations := .empty
      runs := .empty }
    receipts := .empty }

/-- The grant and the run that the command of the `n`-th second creates. -/
def grantOf (n : Nat) : Uuid := (tick n).draw .grant

def runOf (n : Nat) : Uuid := (tick n).draw .run

def delegate (n : Nat) (parent : Option Uuid) : PlatformCall Empty :=
  coreCommand n (.grantCreate ⟨.user, principalId.toId, "local"⟩ ["mail.send", "run.start"]
    [resourceRef "Connection" connectionId .one] 1000000000000 (parent.map (·.toText)))

def revoke (n : Nat) (grant : Uuid) : PlatformCall Empty :=
  coreCommand n (.grantRevoke grant.toText 1 "not needed any more")

def start (n : Nat) (grant : Uuid) : PlatformCall Empty :=
  coreCommand n (.runStart "mailer" "1.0.0" contentRef grant.toText)

def cancel (n : Nat) (run : Uuid) (version : Int) : PlatformCall Empty :=
  coreCommand n (.runCancel run.toText version "not needed any more")

/-- The store after a run of the platform that begins in the workshop. -/
abbrev fromWorkshop (calls : List (PlatformCall Empty)) : Store :=
  Machine.run (platformStep platform) workshop calls

/-- The events of such a run. -/
abbrev workshopEvents (calls : List (PlatformCall Empty)) :
    List (Machine.Event Store (PlatformCall Empty) (Result PlatformReply)) :=
  Machine.trace (platformStep platform) workshop calls

/-- The event of one more call. -/
def workshopNext (calls : List (PlatformCall Empty)) (c : PlatformCall Empty) :
    Machine.Event Store (PlatformCall Empty) (Result PlatformReply) :=
  Machine.eventAt (platformStep platform) (fromWorkshop calls) c

theorem workshopEvents_concat (calls : List (PlatformCall Empty)) (c : PlatformCall Empty) :
    workshopEvents (calls ++ [c]) = workshopEvents calls ++ workshopNext calls c :: [] :=
  Machine.trace_concat _ _ _ _

/-- The store after a run of the platform on the small tenant. -/
abbrev afterPlatform (calls : List (PlatformCall Empty)) : Store :=
  Machine.run (platformStep platform) store calls

end Sample

end Masonwing
