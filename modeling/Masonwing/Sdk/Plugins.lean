import Masonwing.Contracts.Manifests
import Masonwing.Store.Base
import Masonwing.Lib.Interaction
import Masonwing.Lib.Procedure

/-!
# The plugin SDK

Packages, invocations and the broker of `crates/sdk/src/lib.rs`. The hash of a package is a
parameter; a plugin is a program whose only way out is a proposal to the broker.
-/

namespace Masonwing

open Outcome

/-! ## Failures -/

def supportedContractRange : String := ">=1.0.0,<2.0.0"

inductive SdkError where
  | unsupportedOperation (operation : String)
  | contractIncompatible (required supported : String)
  | pluginIdentityMismatch
  | inputSchemaMismatch
  | outputSchemaMismatch
  | capabilityDenied (capability : String)
  | invalidInvocation (field : String)
  | invalidPackage (part : String)
  deriving DecidableEq

/-- `str::parse::<u64>`. -/
def parseU64 (text : List Char) : Option Nat :=
  let digits :=
    match text with
    | '+' :: digits => digits
    | digits => digits
  if digits ≠ [] ∧ digits.all Char.isDigit = true ∧ Nat.ofDigitChars 10 digits 0 < 2 ^ 64 then
    some (Nat.ofDigitChars 10 digits 0)
  else none

def ensureContractCompatible (required : String) : Except SdkError Unit := do
  let parts := required.toList.splitOn '.'
  let number := fun i => (parts[i]?).bind parseU64
  require (parts[3]? = none ∧ (number 1).isSome = true ∧ (number 2).isSome = true)
    (.contractIncompatible required supportedContractRange)
  require (number 0 = some 1) (.contractIncompatible required supportedContractRange)

/-! ## Packages -/

structure PackagedArtifact where
  reference : ArtifactRef
  bytes : Bytes
  deriving DecidableEq

structure PackagedPluginFixture where
  pluginId : PluginId
  version : String
  contractVersion : String
  publisherId : String
  executionClass : ExecutionClass
  artifactBytes : Bytes
  artifactDigest : Digest
  handlers : List HandlerContract
  workflows : List ArtifactRef
  supportingArtifacts : List PackagedArtifact
  deriving DecidableEq

section Packages

variable (sha256Digest : Bytes → Digest)

def PackagedArtifact.validate (a : PackagedArtifact) : Except SdkError Unit :=
  require (sha256Digest a.bytes = a.reference.digest) (.invalidPackage "supporting_artifact_digest")

/-- What is checked of a handler after those with these ids. -/
def HandlerContract.packaged (seen : List String) (h : HandlerContract) : Prop :=
  blank h.id = false ∧ h.id ∉ seen ∧ h.maxExecutionSeconds ≠ 0 ∧
    h.inputSchemaRef.tenantId = h.outputSchemaRef.tenantId ∧
    h.effects ∈ ["READ_ONLY", "PROPOSES_EFFECT", "DETERMINISTIC"]

instance (seen : List String) (h : HandlerContract) : Decidable (h.packaged seen) :=
  inferInstanceAs (Decidable (_ ∧ _))

def validateHandlers : List String → List HandlerContract → Except SdkError Unit
  | _, [] => .ok ()
  | seen, h :: rest => do
    require (h.packaged seen) (.invalidPackage "handler_contract")
    validateHandlers (seen ++ [h.id]) rest

def PackagedPluginFixture.validate (f : PackagedPluginFixture) : Except SdkError Unit := do
  ensureContractCompatible f.contractVersion
  require (blank f.publisherId = false ∧ blank f.version = false) (.invalidPackage "metadata")
  require (sha256Digest f.artifactBytes = f.artifactDigest) (.invalidPackage "artifact_digest")
  require (f.handlers ≠ []) (.invalidPackage "handlers")
  validateHandlers [] f.handlers
  f.supportingArtifacts.forM (PackagedArtifact.validate sha256Digest)
  f.workflows.forM fun workflow =>
    require ((f.supportingArtifacts.any fun a => a.reference == workflow) = true)
      (.invalidPackage "workflow_payload")

end Packages

/-! ## Invocations -/

/-- The granted capabilities are a set; only whether one is among them is ever asked. -/
structure InvocationContext where
  invocationId : OpaqueId
  tenantId : OpaqueId
  pluginId : PluginId
  handlerId : String
  grantId : OpaqueId
  contractVersion : String
  inputSchemaRef : ArtifactRef
  outputSchemaRef : ArtifactRef
  grantedCapabilities : List Action

namespace InvocationContext

def allows (c : InvocationContext) (action : Action) : Bool :=
  decide (action ∈ c.grantedCapabilities)

/-- The checks that a context passes when it is made. -/
def validated (c : InvocationContext) : Except SdkError InvocationContext := do
  require (c.handlerId ≠ "" ∧ c.handlerId.utf8ByteSize ≤ 128) (.invalidInvocation "handler_id")
  ensureContractCompatible c.contractVersion
  require (c.inputSchemaRef.tenantId = c.tenantId ∧ c.outputSchemaRef.tenantId = c.tenantId)
    (.invalidInvocation "schema_tenant")
  return c

end InvocationContext

structure InvocationInput where
  schemaRef : ArtifactRef
  bytes : Bytes

structure InvocationOutput where
  schemaRef : ArtifactRef
  bytes : Bytes

def InvocationOutput.forContext (context : InvocationContext) (bytes : Bytes) : InvocationOutput :=
  { schemaRef := context.outputSchemaRef, bytes }

structure EffectProposal where
  tenantId : OpaqueId
  action : Action
  target : OpaqueId
  contentDigest : Digest

/-- The proposed effects by their identifiers. -/
structure InvocationResult where
  output : InvocationOutput
  proposedEffects : List OpaqueId

def InvocationResult.validateOutput (r : InvocationResult) (context : InvocationContext) :
    Except SdkError Unit :=
  require (r.output.schemaRef = context.outputSchemaRef) .outputSchemaMismatch

/-! ## The broker -/

/-- What the broker answers, with a state of its own. -/
abbrev HostEffectBroker (σ : Type) := EffectProposal → σ → Except SdkError OpaqueId × σ

/-- The broker at work, and every proposal that has reached it. -/
structure Brokerage (σ : Type) where
  state : σ
  reached : List EffectProposal

def Brokerage.proposeEffect {σ : Type} (broker : HostEffectBroker σ) (proposal : EffectProposal) :
    Procedure SdkError (Brokerage σ) OpaqueId := fun b =>
  ((broker proposal b.state).1,
    { state := (broker proposal b.state).2, reached := b.reached ++ [proposal] })

/-- `DenyEffects`. -/
def denyEffects : HostEffectBroker Unit := fun _ s =>
  (.error (.capabilityDenied "effect.propose"), s)

/-! ## Plugins -/

structure PluginDescriptor where
  id : String
  contractVersion : String
  operations : List String

/-- A compiled plugin. -/
structure DomainPlugin where
  descriptor : PluginDescriptor
  invoke : InvocationContext → InvocationInput →
    Interaction EffectProposal (Except SdkError OpaqueId) (Except SdkError InvocationResult)

/-- The checks that a plugin makes of an invocation, by default the first thing it does. -/
def DomainPlugin.validateInvocation (p : DomainPlugin) (context : InvocationContext)
    (input : InvocationInput) : Except SdkError Unit := do
  ensureContractCompatible p.descriptor.contractVersion
  require (p.descriptor.id = context.pluginId.text) .pluginIdentityMismatch
  require (context.handlerId ∈ p.descriptor.operations) (.unsupportedOperation context.handlerId)
  require (input.schemaRef = context.inputSchemaRef) .inputSchemaMismatch

end Masonwing
