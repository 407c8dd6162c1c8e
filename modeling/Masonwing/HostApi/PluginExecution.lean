import Masonwing.Runner.Components

/-!
# Plugin execution

`crates/host-api/src/plugin_execution.rs`: the native plugins that are compiled into the host, and
the choice of the code that an invocation runs. The code that is called is written down beside what
it does.
-/

namespace Masonwing

open Outcome

inductive PluginExecutionError where
  | trustClassDenied
  | pluginIdentityMismatch
  | contractBindingMismatch
  | handlerContractMismatch
  | artifactRequired
  | artifactDigestMismatch
  | remoteWorkerUnavailable
  | duplicateNativeRegistration
  | sandboxLimit
  | sandboxInputLimit
  | sandboxOutputLimit
  | forbiddenImport
  | resourceDenied
  | wasmExecutionFailed (code : String)
  | sdk (e : SdkError)
  deriving DecidableEq

namespace PluginExecutionError

def ofComponent : ComponentExecutionError → PluginExecutionError
  | .sandboxLimit => .sandboxLimit
  | .inputLimit => .sandboxInputLimit
  | .outputLimit => .sandboxOutputLimit
  | .forbiddenImport => .forbiddenImport
  | .resourceDenied => .resourceDenied
  | .contractIncompatible => .wasmExecutionFailed "COMPONENT_CONTRACT_INCOMPATIBLE"
  | _ => .wasmExecutionFailed "SANDBOX_EXECUTION_FAILED"

end PluginExecutionError

/-! ## Native plugins -/

structure NativePluginRegistration where
  pluginId : String
  artifactDigest : String
  pluginVersion : String
  contractVersion : String
  publisherId : String
  handlers : Table String HandlerContract
  plugin : DomainPlugin

def sameSchemaContent (a b : ArtifactRef) : Prop :=
  a.digest = b.digest ∧ a.schemaVersion = b.schemaVersion ∧ a.classification = b.classification

instance (a b : ArtifactRef) : Decidable (sameSchemaContent a b) :=
  inferInstanceAs (Decidable (_ ∧ _))

/-- Of the schemas only the content has to be that of the compiled handler. -/
def HandlerContract.sameContent (compiled handler : HandlerContract) : Prop :=
  sameSchemaContent compiled.inputSchemaRef handler.inputSchemaRef ∧
    sameSchemaContent compiled.outputSchemaRef handler.outputSchemaRef ∧
    compiled.effects = handler.effects ∧
    compiled.requiredCapabilities = handler.requiredCapabilities ∧
    compiled.maxExecutionSeconds = handler.maxExecutionSeconds

instance (compiled handler : HandlerContract) : Decidable (compiled.sameContent handler) :=
  inferInstanceAs (Decidable (_ ∧ _))

/-- The map of the handlers by their identifiers. -/
def handlerMap (handlers : List HandlerContract) : Table String HandlerContract :=
  handlers.foldl (fun map handler => map.upsert handler.id handler) .empty

namespace NativePluginRegistration

def fromFixture (sha256Digest : Bytes → Digest) (fixture : PackagedPluginFixture)
    (plugin : DomainPlugin) : Except PluginExecutionError NativePluginRegistration := do
  (fixture.validate sha256Digest).mapError .sdk
  require (fixture.executionClass = .trustedNative) .trustClassDenied
  let descriptor := plugin.descriptor
  require (descriptor.id = fixture.pluginId.text) .pluginIdentityMismatch
  require (descriptor.contractVersion = fixture.contractVersion) .contractBindingMismatch
  require (descriptor.operations.length = fixture.handlers.length ∧
    ∀ handler ∈ fixture.handlers, handler.id ∈ descriptor.operations) .handlerContractMismatch
  return { pluginId := fixture.pluginId.text
           artifactDigest := fixture.artifactDigest.toText
           pluginVersion := fixture.version
           contractVersion := fixture.contractVersion
           publisherId := fixture.publisherId
           handlers := handlerMap fixture.handlers
           plugin }

def key (r : NativePluginRegistration) : String × String := (r.pluginId, r.artifactDigest)

def validatesManifest (r : NativePluginRegistration) (manifest : PluginManifest) : Bool :=
  let submitted := (manifest.handlers.map (·.id)).dedup
  decide (manifest.version = r.pluginVersion) &&
    decide (manifest.contractVersion = r.contractVersion) &&
    decide (manifest.publisherId = r.publisherId) &&
    decide (submitted.length = manifest.handlers.length) &&
    decide (r.handlers.rows.length = submitted.length) &&
    manifest.handlers.all fun handler =>
      (r.handlers.get? handler.id).any fun compiled => compiled.sameContent handler

end NativePluginRegistration

/-! ## The executor -/

/-- The port of the component runner. -/
abbrev WasmExecutor (σ : Type) :=
  Bytes → InvocationContext → HandlerContract → InvocationInput → HostEffectBroker σ →
    Procedure PluginExecutionError (Brokerage σ) InvocationResult

def WasmtimeComponentRunner.executor {σ : Type} (runner : WasmtimeComponentRunner)
    (engine : Engine) : WasmExecutor σ := fun bytes context handler input broker =>
  (runner.invoke engine broker bytes context handler input).mapError .ofComponent

structure PluginExecutor (σ : Type) where
  native : Table (String × String) NativePluginRegistration
  wasm : WasmExecutor σ

/-- A call of code, with what it is given. -/
inductive CodeCall where
  | native (plugin : DomainPlugin) (context : InvocationContext) (input : InvocationInput)
  | wasm (bytes : Bytes) (context : InvocationContext) (handler : HandlerContract)
      (input : InvocationInput)

/-- What an execution works on: the broker, and the calls so far. -/
structure Execution (σ : Type) where
  brokerage : Brokerage σ
  calls : List CodeCall

/-- Code works on the broker only; that it was called is written down. -/
def Execution.call {ε σ α : Type} (c : CodeCall) (x : Procedure ε (Brokerage σ) α) :
    Procedure ε (Execution σ) α := fun s =>
  ((x s.brokerage).1, { brokerage := (x s.brokerage).2, calls := s.calls ++ [c] })

def validateBinding (manifest : PluginManifest) (context : InvocationContext)
    (handler : HandlerContract) (input : InvocationInput) : Except PluginExecutionError Unit := do
  (ensureContractCompatible manifest.contractVersion).mapError .sdk
  require (manifest.id = context.pluginId) .pluginIdentityMismatch
  require (manifest.contractVersion = context.contractVersion) .contractBindingMismatch
  require (handler.id = context.handlerId ∧
    handler.inputSchemaRef.tenantId = context.tenantId ∧
    handler.outputSchemaRef.tenantId = context.tenantId ∧
    handler.inputSchemaRef = context.inputSchemaRef ∧
    handler.outputSchemaRef = context.outputSchemaRef ∧
    input.schemaRef = handler.inputSchemaRef ∧ handler ∈ manifest.handlers)
    .handlerContractMismatch
  require (∀ action ∈ handler.requiredCapabilities,
    context.allows action = true ∧ action ∈ manifest.requestedCapabilities) .resourceDenied

namespace DomainPlugin

/-- A call of the plugin; what it asks goes to the broker. -/
def call {σ : Type} (p : DomainPlugin) (broker : HostEffectBroker σ) (context : InvocationContext)
    (input : InvocationInput) : Procedure SdkError (Brokerage σ) InvocationResult :=
  (p.invoke context input).run (Brokerage.proposeEffect broker)

end DomainPlugin

namespace PluginExecutor

variable {σ : Type}

def new (wasm : WasmExecutor σ) : PluginExecutor σ := { native := .empty, wasm }

def registerNative (e : PluginExecutor σ) (r : NativePluginRegistration) :
    Except PluginExecutionError (PluginExecutor σ) :=
  match e.native.insert? r.key r with
  | none => .error .duplicateNativeRegistration
  | some native => .ok { e with native }

def execute (e : PluginExecutor σ) (sha256Digest : Bytes → Digest) (manifest : PluginManifest)
    (artifactBytes : Option Bytes) (context : InvocationContext) (handler : HandlerContract)
    (input : InvocationInput) (broker : HostEffectBroker σ) :
    Procedure PluginExecutionError (Execution σ) InvocationResult := do
  .ofExcept (validateBinding manifest context handler input)
  match manifest.executionClass with
  | .trustedNative => do
    let key := (manifest.id.text, manifest.artifactDigest.toText)
    let registration ← .ofExcept (okOr (e.native.get? key) .trustClassDenied)
    .ofExcept (require (registration.validatesManifest manifest = true) .handlerContractMismatch)
    let result ← Execution.call (.native registration.plugin context input)
      ((registration.plugin.call broker context input).mapError .sdk)
    .ofExcept ((result.validateOutput context).mapError .sdk)
    return result
  | .wasmComponent => do
    let bytes ← .ofExcept (okOr artifactBytes .artifactRequired)
    .ofExcept (require (sha256Digest bytes = manifest.artifactDigest) .artifactDigestMismatch)
    let result ← Execution.call (.wasm bytes context handler input)
      (e.wasm bytes context handler input broker)
    .ofExcept ((result.validateOutput context).mapError .sdk)
    return result
  | .remoteWorker => .ofExcept (.error .remoteWorkerUnavailable)

end PluginExecutor

end Masonwing
