import Masonwing.Sdk.Plugins

/-!
# The component runner

`crates/component-runner/src/lib.rs`. The engine is a parameter: what it makes of the bytes of a
component, and how a guest behaves under its allowance of memory, fuel and time. A guest reaches
its host through one import, which it may call as often and with whatever texts it likes.
-/

namespace Masonwing

open Outcome

inductive ComponentExecutionError where
  | componentInvalid
  | contractIncompatible
  | forbiddenImport
  | hostLinkInvalid
  | handlerMismatch
  | inputSchemaMismatch
  | outputSchemaMismatch
  | resourceDenied
  | sandboxLimit
  | inputLimit
  | outputLimit
  | guestTrap
  | guestRejected
  | runtimeUnavailable
  | invalidLimits
  deriving DecidableEq

/-! ## Limits -/

/-- The deadline is in nanoseconds. -/
structure RunnerLimits where
  memoryBytes : Nat
  guestDeadline : Nat
  fuel : Nat
  maxInputBytes : Nat
  maxOutputBytes : Nat

def wasmMemoryBytes : Nat := 128 * 1024 * 1024

def nanoseconds (seconds : Nat) : Nat := seconds * 1000000000

def wasmGuestDeadline : Nat := nanoseconds 5

def defaultIoBytes : Nat := 4 * 1024 * 1024

namespace RunnerLimits

def standard : RunnerLimits :=
  { memoryBytes := wasmMemoryBytes, guestDeadline := wasmGuestDeadline, fuel := 10000000
    maxInputBytes := defaultIoBytes, maxOutputBytes := defaultIoBytes }

/-- What `validate` admits. -/
def Valid (l : RunnerLimits) : Prop :=
  (0 < l.memoryBytes ∧ l.memoryBytes ≤ wasmMemoryBytes) ∧
    (0 < l.guestDeadline ∧ l.guestDeadline ≤ wasmGuestDeadline) ∧ 0 < l.fuel ∧
    0 < l.maxInputBytes ∧ 0 < l.maxOutputBytes

instance (l : RunnerLimits) : Decidable l.Valid := inferInstanceAs (Decidable (_ ∧ _))

end RunnerLimits

structure WasmtimeComponentRunner where
  limits : RunnerLimits
  valid : limits.Valid

namespace WasmtimeComponentRunner

def standard : WasmtimeComponentRunner := { limits := .standard, valid := by decide }

def new (limits : RunnerLimits) : Except ComponentExecutionError WasmtimeComponentRunner :=
  if h : limits.Valid then .ok ⟨limits, h⟩ else .error .invalidLimits

end WasmtimeComponentRunner

/-! ## The engine -/

/-- How a call into a guest ends without a result. -/
inductive Trap where
  | outOfFuel
  | interrupt
  | memoryOutOfBounds
  | other
  deriving DecidableEq

def mapRuntimeError : Trap → ComponentExecutionError
  | .outOfFuel | .interrupt | .memoryOutOfBounds => .sandboxLimit
  | .other => .guestTrap

/-- What the code of a guest does: it calls the import with an action, a target and a digest. -/
abbrev Guest (α : Type) :=
  Interaction (String × String × String) (Except String String) (Except Trap α)

/-- What a guest may use. -/
structure Allowance where
  memoryBytes : Nat
  fuel : Nat
  deadline : Nat

/-- The exported function of an instance. -/
abbrev GuestFunction := String → Bytes → Guest (Except String Bytes)

structure Component where
  imports : List String
  instantiate : Allowance → Guest (Option GuestFunction)

structure Engine where
  builds : Bool
  component : Bytes → Option Component
  links : Bool
  fuels : Bool

/-! ## The import -/

def proposeAction : Action := ⟨"effect.propose", by decide⟩

namespace ComponentRunner

variable {σ : Type} (broker : HostEffectBroker σ) (context : InvocationContext)

def proposeEffect (action target contentDigest : String) :
    Procedure String (Brokerage σ) OpaqueId := do
  .ofExcept (require (context.allows proposeAction = true) "CAPABILITY_DENIED")
  let action ← .ofExcept (okOr (OpaqueId.ofText? action) "INVALID_PROPOSAL")
  .ofExcept (require (context.allows action = true) "RESOURCE_DENIED")
  let target ← .ofExcept (okOr (OpaqueId.ofText? target) "INVALID_PROPOSAL")
  let contentDigest ← .ofExcept (okOr (Digest.parse contentDigest) "INVALID_PROPOSAL")
  (Brokerage.proposeEffect broker
    { tenantId := context.tenantId, action, target, contentDigest }).mapError
      fun _ => "EFFECT_PROPOSAL_DENIED"

/-- What the host keeps while a guest runs. -/
structure HostState (σ : Type) where
  brokerage : Brokerage σ
  proposedEffects : List OpaqueId

/-- The function that is linked under the name of the import. -/
def hostImport (call : String × String × String) (s : HostState σ) :
    Except String String × HostState σ :=
  match proposeEffect broker context call.1 call.2.1 call.2.2 s.brokerage with
  | (.ok handle, brokerage) =>
    (.ok handle.text, { brokerage, proposedEffects := s.proposedEffects ++ [handle] })
  | (.error code, brokerage) => (.error code, { s with brokerage })

def runGuest {α : Type} (guest : Guest α) :
    Procedure ComponentExecutionError (HostState σ) α := fun s =>
  ((guest.run (hostImport broker context) s).1.mapError mapRuntimeError,
    (guest.run (hostImport broker context) s).2)

end ComponentRunner

/-! ## A call -/

open ComponentRunner

namespace WasmtimeComponentRunner

def validateInvocation (context : InvocationContext) (handler : HandlerContract)
    (input : InvocationInput) : Except ComponentExecutionError Unit := do
  require (handler.id = context.handlerId) .handlerMismatch
  require (handler.maxExecutionSeconds ≠ 0) .invalidLimits
  require (handler.inputSchemaRef = context.inputSchemaRef ∧
    input.schemaRef = handler.inputSchemaRef) .inputSchemaMismatch
  require (handler.outputSchemaRef = context.outputSchemaRef) .outputSchemaMismatch
  handler.requiredCapabilities.forM fun capability =>
    require (context.allows capability = true) .resourceDenied

variable {σ : Type} (runner : WasmtimeComponentRunner) (engine : Engine)
  (broker : HostEffectBroker σ)

def allowance (handler : HandlerContract) : Allowance :=
  { memoryBytes := runner.limits.memoryBytes, fuel := runner.limits.fuel
    deadline := min runner.limits.guestDeadline (nanoseconds handler.maxExecutionSeconds) }

/-- The instance and the call of its function. -/
def execution (component : Component) (context : InvocationContext) (handler : HandlerContract)
    (input : InvocationInput) : Procedure ComponentExecutionError (HostState σ) Bytes := do
  let exported ← runGuest broker context (component.instantiate (runner.allowance handler))
  let invoke ← .ofExcept (okOr exported .contractIncompatible)
  let result ← runGuest broker context (invoke context.handlerId input.bytes)
  .ofExcept (result.mapError fun _ => .guestRejected)

def invoke (componentBytes : Bytes) (context : InvocationContext) (handler : HandlerContract)
    (input : InvocationInput) :
    Procedure ComponentExecutionError (Brokerage σ) InvocationResult := do
  .ofExcept (validateInvocation context handler input)
  .ofExcept (require (input.bytes.length ≤ runner.limits.maxInputBytes) .inputLimit)
  .ofExcept (require (engine.builds = true) .runtimeUnavailable)
  let component ← .ofExcept (okOr (engine.component componentBytes) .componentInvalid)
  .ofExcept (require (component.imports.all (· == "propose-effect") = true) .forbiddenImport)
  .ofExcept (require (engine.links = true) .hostLinkInvalid)
  .ofExcept (require (engine.fuels = true) .runtimeUnavailable)
  fun brokerage =>
    let (result, s) := runner.execution broker component context handler input
      { brokerage, proposedEffects := [] }
    let answer := do
      let output ← result
      require (output.length ≤ runner.limits.maxOutputBytes) .outputLimit
      return { output := .forContext context output, proposedEffects := s.proposedEffects }
    (answer, s.brokerage)

end WasmtimeComponentRunner

end Masonwing
