import Mathlib.Data.List.Infix
import Mathlib.Data.List.Sort
import Mathlib.Data.List.SplitOn
import Masonwing.Kernel.DependencyGraph
import Masonwing.Store.Tables

/-!
# Installation checks

`registry_validation.rs`: what a manifest and its workflows have to satisfy before anything of a
plugin is stored. Versions and ranges of versions, signatures and the reading of a workflow
document belong to other packages and come as a `PluginEnv`.
-/

namespace Masonwing

open Outcome

/-- A row of `artifact_signatures` with the key it names, if that key was not revoked. -/
structure SignatureRow where
  publisherId : String
  artifactDigest : Digest
  manifestDigest : Digest
  signature : Bytes
  publicKey : Bytes

/-- Semantic versions over `ν`, Ed25519, the operator's own records (capabilities, native packages
and, as a transaction reads them, signatures) and the reader of workflow documents. -/
structure PluginEnv (ν : Type) where
  parseVersion : String → Option ν
  parseRange : String → Option (ν → Bool)
  keyParses : Bytes → Bool
  signatureParses : Bytes → Bool
  verifies : Bytes → Bytes → Bytes → Bool
  knownCapabilities : List String
  nativePackages : List (String × String)
  signature : Tick → String → Option SignatureRow
  readWorkflow : Bytes → Option WorkflowDocument

variable {ν : Type}

def manifestInvalid : CommandFailure := .invalid "MANIFEST_INVALID"
def signatureInvalid : CommandFailure := .precondition "SIGNATURE_INVALID"
def workflowInvalid : CommandFailure := .precondition "WORKFLOW_INVALID"
def scopeDenied : CommandFailure := .precondition "EXTENSION_SCOPE_DENIED"

/-! ## Signatures -/

def manifestDigest (env : Env) (m : PluginManifest) : Result Digest := do
  let bytes ← okOr (env.canonicalBytes m.signedJson) manifestInvalid
  return env.digestBytes bytes

/-- The signed envelope has a fixed purpose and both digests. -/
def manifestSigningMessage (env : Env) (m : PluginManifest) : Result Bytes := do
  let digest ← manifestDigest env m
  okOr (env.canonicalBytes (.obj [("purpose", .str "masonwing.plugin-manifest.v1"),
    ("publisher_id", .str m.publisherId), ("artifact_digest", .str m.artifactDigest.toText),
    ("manifest_digest", .str digest.toText)])) manifestInvalid

def verifySignature (env : Env) (packages : PluginEnv ν) (m : PluginManifest)
    (key signature : Bytes) : Result Unit := do
  require (packages.keyParses key = true) signatureInvalid
  require (packages.signatureParses signature = true) signatureInvalid
  let message ← manifestSigningMessage env m
  require (packages.verifies key message signature = true) signatureInvalid

/-! ## The manifest -/

/-- One handler after the handlers `seen`. -/
def checkHandler (requested : List Action) (tenant : OpaqueId) (seen : List String)
    (h : HandlerContract) : Result (List String) := do
  require (h.id ∉ seen ∧ ∀ a ∈ h.requiredCapabilities, a ∈ requested) scopeDenied
  require (h.inputSchemaRef.tenantId = tenant ∧ h.outputSchemaRef.tenantId = tenant) .notFound
  return seen ++ [h.id]

def checkTool (requested : List Action) (tenant : OpaqueId) (seen : List String)
    (t : ToolDescriptor) : Result (List String) := do
  require (t.id ∉ seen ∧ t.action ∈ requested) scopeDenied
  require (t.inputSchemaRef.tenantId = tenant ∧ t.outputSchemaRef.tenantId = tenant) .notFound
  return seen ++ [t.id]

/-- A page of a plugin stays below its own path and cannot leave it. -/
def ownPath (plugin : PluginId) (path : String) : Bool :=
  let cs := path.toList
  ("/plugins/" ++ plugin.text ++ "/").toList.isPrefixOf cs && decide (path.utf8ByteSize ≤ 1024) &&
    cs.all (fun c => decide (32 < c.toNat) && c != '%' && c != '\\' && c != '?' && c != '#') &&
    (cs.splitOn '/').all (fun part => part != ['.'] && part != ['.', '.']) &&
    decide (¬ ['/', '/'] <:+: cs)

def checkContribution (known : List String) (plugin : PluginId)
    (seen : List String × List (String × String)) (u : UiContribution) :
    Result (List String × List (String × String)) := do
  require (u.id ∉ seen.1 ∧ (u.path, u.slot) ∉ seen.2 ∧ ownPath plugin u.path = true ∧
    u.requiredAction.text ∈ known ∧ u.uiContractVersion = "1.0.0") scopeDenied
  return (seen.1 ++ [u.id], seen.2 ++ [(u.path, u.slot)])

def validateManifest (env : Env) (known : List String) (tenant : OpaqueId)
    (m : PluginManifest) : Result Unit := do
  require (env.schemaValid "PluginManifest" m.toJson = true) manifestInvalid
  require (m.contractVersion = "1.0.0") (.precondition "CONTRACT_UNSUPPORTED")
  require m.requestedCapabilities.Nodup manifestInvalid
  require (∀ a ∈ m.requestedCapabilities, a.text ∈ known) (.precondition "CONFIG_UNSUPPORTED")
  let _ ← m.handlers.foldlM (checkHandler m.requestedCapabilities tenant) []
  let _ ← m.tools.foldlM (checkTool m.requestedCapabilities tenant) []
  require (∀ r ∈ m.workflows ++ m.dataContracts, r.tenantId = tenant) .notFound
  let _ ← m.ui.foldlM (checkContribution known m.id) ([], [])
  return ()

/-! ## Dependencies -/

/-- `BTreeMap<PluginId, PluginManifest>`: the selected version of each plugin. -/
abbrev Manifests := Table PluginId PluginManifest

/-- The entries in the order of their keys. -/
def Manifests.sorted (manifests : Manifests) : List (PluginId × PluginManifest) :=
  manifests.rows.insertionSort fun a b => a.1.text ≤ b.1.text

/-- One dependency: the edge to a selected plugin whose contract is in the range, or no edge if it
is optional and its plugin is not selected. -/
def dependencyEdge (packages : PluginEnv ν) (manifests : Manifests) (d : PluginDependency) :
    Result (List PluginId) := do
  let range ← okOr (packages.parseRange d.contractRange) manifestInvalid
  match manifests.get? d.pluginId with
  | none => do
    require (d.optional = true) (.precondition "DEPENDENCY_UNSATISFIED")
    return []
  | some target => do
    let version ← okOr (packages.parseVersion target.contractVersion) manifestInvalid
    require (range version = true) (.precondition "DEPENDENCY_UNSATISFIED")
    return [d.pluginId]

/-- The edges so far and the plugins that were named so far. -/
def addDependency (packages : PluginEnv ν) (manifests : Manifests)
    (acc : List PluginId × List PluginId) (d : PluginDependency) :
    Result (List PluginId × List PluginId) := do
  require (d.pluginId ∉ acc.2) manifestInvalid
  let edge ← dependencyEdge packages manifests d
  return (acc.1 ++ edge, acc.2 ++ [d.pluginId])

def manifestEdges (packages : PluginEnv ν) (manifests : Manifests) (m : PluginManifest) :
    Result (List PluginId) := do
  let (edges, _) ← m.dependencies.foldlM (addDependency packages manifests) ([], [])
  return edges

def addManifest (packages : PluginEnv ν) (manifests : Manifests) (graph : DependencyGraph)
    (entry : PluginId × PluginManifest) : Result DependencyGraph := do
  let edges ← manifestEdges packages manifests entry.2
  return graph.insert entry.1 edges

def registryFailure : RegistryError → CommandFailure
  | .dependencyCycle _ => .precondition "DEPENDENCY_CYCLE"
  | .dependencyUnsatisfied _ => .precondition "DEPENDENCY_UNSATISFIED"

def addResolved (graph : DependencyGraph) (ordered : List PluginId)
    (entry : PluginId × PluginManifest) : Result (List PluginId) := do
  let resolved ← (graph.resolve entry.1).mapError registryFailure
  return Topological.extend ordered resolved

/-- `resolve_manifests`: the selected plugins in an order in which each comes after what it
depends on. -/
def resolveManifests (packages : PluginEnv ν) (manifests : Manifests) :
    Result (List PluginId) := do
  require (manifests.rows.length ≤ 512) (.precondition "REGISTRY_CAPACITY")
  let graph ← manifests.sorted.foldlM (addManifest packages manifests) .empty
  manifests.sorted.foldlM (addResolved graph) []

/-! ## Workflows -/

/-- A node names a handler that fits it, or is of a kind that needs none. -/
def nodeValid (m : PluginManifest) (w : WorkflowDocument) (n : DocumentNode) : Bool :=
  match n.handlerId with
  | some handlerId =>
    (m.handlers.find? fun h => h.id == handlerId).any fun h =>
      decide (n.inputSchemaRef = h.inputSchemaRef ∧ n.outputSchemaRef = h.outputSchemaRef ∧
        n.timeoutSeconds ≤ h.maxExecutionSeconds ∧
        ∀ a ∈ h.requiredCapabilities, a ∈ w.requiredActions)
  | none => n.kind != "DETERMINISTIC" && n.kind != "ACTIVITY"

def DocumentNode.bounded (n : DocumentNode) : Bool := n.kind == "BOUNDED_LOOP"

/-- The nodes that an edge leads to, without bounded loops. -/
def unboundedNext (w : WorkflowDocument) (n : DocumentNode) : Result (List OpaqueId) :=
  ((((w.edges.filter fun e => e.source == n.id).filterMap fun e =>
    w.nodes.find? fun n' => n'.id == e.target).filter fun n' => !n'.bounded).mapM fun n' =>
      okOr (OpaqueId.ofText? n'.id) workflowInvalid)

/-- The graph that is left without the bounded loops. -/
def addUnbounded (w : WorkflowDocument) (graph : DependencyGraph) (n : DocumentNode) :
    Result DependencyGraph := do
  let next ← unboundedNext w n
  let id ← okOr (OpaqueId.ofText? n.id) workflowInvalid
  return graph.insert id next

/-- An edge joins two nodes, and a node has one edge for each condition. -/
def checkEdge (w : WorkflowDocument) (seen : List (String × String)) (e : DocumentEdge) :
    Result (List (String × String)) := do
  require (e.source ∈ w.nodes.map (·.id) ∧ e.target ∈ w.nodes.map (·.id) ∧
    (e.source, e.condition) ∉ seen) workflowInvalid
  return seen ++ [(e.source, e.condition)]

def checkUnbounded (graph : DependencyGraph) (n : DocumentNode) : Result Unit := do
  let id ← okOr (OpaqueId.ofText? n.id) workflowInvalid
  let _ ← (graph.resolve id).mapError fun _ => workflowInvalid
  return ()

def validateWorkflow (env : Env) (w : WorkflowDocument) (m : PluginManifest) : Result Unit := do
  require (env.schemaValid "WorkflowDefinition" w.toJson = true) workflowInvalid
  let content ← okOr (env.canonicalBytes w.contentJson) workflowInvalid
  require (env.digestBytes content = w.digest) workflowInvalid
  require ((w.nodes.map (·.id)).Nodup ∧ w.entryNode ∈ w.nodes.map (·.id)) workflowInvalid
  require (∀ a ∈ w.requiredActions, a ∈ m.requestedCapabilities) workflowInvalid
  require (∀ n ∈ w.nodes, nodeValid m w n = true) workflowInvalid
  let unbounded := w.nodes.filter fun n => !n.bounded
  let graph ← unbounded.foldlM (addUnbounded w) .empty
  let _ ← w.edges.foldlM (checkEdge w) []
  let _ ← unbounded.mapM (checkUnbounded graph)
  return ()

end Masonwing
