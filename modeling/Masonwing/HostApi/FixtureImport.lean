import Masonwing.Sdk.Plugins

/-!
# Import of fixtures

`crates/host-api/src/fixture_import.rs`: the artifacts of a compiled fixture get identifiers of
their own, and every reference to them is rewritten. A workflow that contains references changes
its bytes, and with them its digest.
-/

namespace Masonwing

open Outcome

/-- What the validation of contracts offers: canonical bytes, their digest, and the definition that
some bytes are strictly read as. -/
structure ContractCodec where
  canonicalBytes : Json → Option Bytes
  digestBytes : Bytes → Digest
  readWorkflow : Bytes → Option WorkflowDocument

def importInvalid : CommandFailure := .precondition "FIXTURE_IMPORT_INVALID"

/-- Each reference by its artifact, with the local one that takes its place. -/
abbrev References := Table OpaqueId (ArtifactRef × ArtifactRef)

def remap (references : References) (r : ArtifactRef) : Result ArtifactRef := do
  let (original, localRef) ← okOr (references.get? r.artifactId) importInvalid
  require (r = original) importInvalid
  return localRef

/-- The local references, `draws` being the identifiers that are generated. -/
def localReferences (draws : Nat → Uuid) :
    Nat → List PackagedArtifact → References → Result References
  | _, [], references => .ok references
  | n, a :: rest, references => do
    let localRef := { a.reference with artifactId := (draws n).toId }
    let references ←
      okOr (references.insert? a.reference.artifactId (a.reference, localRef)) importInvalid
    localReferences draws (n + 1) rest references

def remapNode (references : References) (n : DocumentNode) : Result DocumentNode := do
  let inputSchemaRef ← remap references n.inputSchemaRef
  let outputSchemaRef ← remap references n.outputSchemaRef
  return { n with inputSchemaRef, outputSchemaRef }

def remapHandler (references : References) (h : HandlerContract) : Result HandlerContract := do
  let inputSchemaRef ← remap references h.inputSchemaRef
  let outputSchemaRef ← remap references h.outputSchemaRef
  return { h with inputSchemaRef, outputSchemaRef }

def remapArtifact (references : References) (a : PackagedArtifact) : Result PackagedArtifact := do
  let reference ← remap references a.reference
  return { a with reference }

def remapDefinition (references : References) (w : WorkflowDocument) : Result WorkflowDocument := do
  let inputSchemaRef ← remap references w.inputSchemaRef
  let outputSchemaRef ← remap references w.outputSchemaRef
  let nodes ← w.nodes.mapM (remapNode references)
  return { w with inputSchemaRef, outputSchemaRef, nodes }

section Materialize

variable (codec : ContractCodec)

/-- The digest of the definition is that of its content. -/
def sealDefinition (w : WorkflowDocument) : Result WorkflowDocument := do
  let content ← okOr (codec.canonicalBytes w.contentJson) importInvalid
  return { w with digest := codec.digestBytes content }

def rewriteWorkflow (references : References) (bytes : Bytes) : Result Bytes := do
  let definition ← okOr (codec.readWorkflow bytes) importInvalid
  let definition ← remapDefinition references definition
  let definition ← sealDefinition codec definition
  okOr (codec.canonicalBytes definition.toJson) importInvalid

/-- The artifacts from one on: the bytes of a workflow are rewritten with the references as they
are by then, and its own local reference gets the new digest. -/
def rewriteArtifacts (workflowIds : List OpaqueId) :
    List PackagedArtifact → References → Result (List PackagedArtifact × References)
  | [], references => .ok ([], references)
  | a :: rest, references =>
    if a.reference.artifactId ∈ workflowIds then do
      let bytes ← rewriteWorkflow codec references a.bytes
      let (original, localRef) ← okOr (references.get? a.reference.artifactId) importInvalid
      let references := references.set a.reference.artifactId
        (original, { localRef with digest := codec.digestBytes bytes })
      let (rest, references) ← rewriteArtifacts workflowIds rest references
      return ({ a with bytes } :: rest, references)
    else do
      let (rest, references) ← rewriteArtifacts workflowIds rest references
      return (a :: rest, references)

def materializeFixture (draws : Nat → Uuid) (fixture : PackagedPluginFixture) :
    Result PackagedPluginFixture := do
  (fixture.validate codec.digestBytes).mapError fun _ => importInvalid
  let references ← localReferences draws 0 fixture.supportingArtifacts .empty
  let workflowIds := fixture.workflows.map (·.artifactId)
  let (artifacts, references) ←
    rewriteArtifacts codec workflowIds fixture.supportingArtifacts references
  let handlers ← fixture.handlers.mapM (remapHandler references)
  let workflows ← fixture.workflows.mapM (remap references)
  let supportingArtifacts ← artifacts.mapM (remapArtifact references)
  let result := { fixture with handlers, workflows, supportingArtifacts }
  (result.validate codec.digestBytes).mapError fun _ => importInvalid
  return result

end Materialize

end Masonwing
