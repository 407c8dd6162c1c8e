import Masonwing.Contracts.Wire

/-!
# Manifests and workflow documents

The records of `crates/contracts/src/wire.rs` that a plugin is installed from: its manifest, with
the JSON document that is signed, stored and shown, and the documents of its workflows.
-/

namespace Masonwing

/-- `PluginId`, the validated text of an identifier. -/
abbrev PluginId := OpaqueId

/-- `Action`, likewise. -/
abbrev Action := OpaqueId

structure PluginDependency where
  pluginId : PluginId
  contractRange : String
  optional : Bool
  deriving DecidableEq

def PluginDependency.toJson (d : PluginDependency) : Json :=
  .obj [("plugin_id", .str d.pluginId.text), ("contract_range", .str d.contractRange),
    ("optional", .bool d.optional)]

structure UiContribution where
  id : String
  slot : String
  path : String
  uiContractVersion : String
  trust : String
  requiredAction : Action
  deriving DecidableEq

def UiContribution.toJson (u : UiContribution) : Json :=
  .obj [("id", .str u.id), ("slot", .str u.slot), ("path", .str u.path),
    ("ui_contract_version", .str u.uiContractVersion), ("trust", .str u.trust),
    ("required_action", .str u.requiredAction.text)]

structure PluginMigration where
  id : String
  digest : Digest
  compatibility : String
  reversible : Bool
  deriving DecidableEq

def PluginMigration.toJson (m : PluginMigration) : Json :=
  .obj [("id", .str m.id), ("digest", .str m.digest.toText),
    ("compatibility", .str m.compatibility), ("reversible", .bool m.reversible)]

structure HandlerContract where
  id : String
  inputSchemaRef : ArtifactRef
  outputSchemaRef : ArtifactRef
  effects : String
  requiredCapabilities : List Action
  maxExecutionSeconds : Nat
  deriving DecidableEq

def HandlerContract.toJson (h : HandlerContract) : Json :=
  .obj [("id", .str h.id), ("input_schema_ref", h.inputSchemaRef.toJson),
    ("output_schema_ref", h.outputSchemaRef.toJson), ("effects", .str h.effects),
    ("required_capabilities", .arr (h.requiredCapabilities.map fun a => .str a.text)),
    ("max_execution_seconds", .num h.maxExecutionSeconds)]

structure ToolDescriptor where
  id : String
  version : String
  inputSchemaRef : ArtifactRef
  outputSchemaRef : ArtifactRef
  action : Action
  effectClass : String
  connectionProvider : Option String
  trust : String
  deriving DecidableEq

def ToolDescriptor.toJson (t : ToolDescriptor) : Json :=
  .obj [("id", .str t.id), ("version", .str t.version),
    ("input_schema_ref", t.inputSchemaRef.toJson), ("output_schema_ref", t.outputSchemaRef.toJson),
    ("action", .str t.action.text), ("effect_class", .str t.effectClass),
    ("connection_provider", .ofOption .str t.connectionProvider), ("trust", .str t.trust)]

inductive ExecutionClass where
  | trustedNative
  | wasmComponent
  | remoteWorker
  deriving DecidableEq

def ExecutionClass.toText : ExecutionClass → String
  | .trustedNative => "TRUSTED_NATIVE"
  | .wasmComponent => "WASM_COMPONENT"
  | .remoteWorker => "REMOTE_WORKER"

structure PluginManifest where
  id : PluginId
  version : String
  contractVersion : String
  artifactDigest : Digest
  publisherId : String
  executionClass : ExecutionClass
  requestedCapabilities : List Action
  dependencies : List PluginDependency
  ui : List UiContribution
  migrations : List PluginMigration
  licenseExpression : String
  sbomDigest : Digest
  signatureRef : String
  handlers : List HandlerContract
  workflows : List ArtifactRef
  dataContracts : List ArtifactRef
  tools : List ToolDescriptor
  deriving DecidableEq

namespace PluginManifest

/-- The fields of the document, the signature reference being the only one that is not signed. -/
def fields (m : PluginManifest) : List (String × Json) :=
  [("id", .str m.id.text), ("version", .str m.version),
    ("contract_version", .str m.contractVersion),
    ("artifact_digest", .str m.artifactDigest.toText), ("publisher_id", .str m.publisherId),
    ("execution_class", .str m.executionClass.toText),
    ("requested_capabilities", .arr (m.requestedCapabilities.map fun a => .str a.text)),
    ("dependencies", .arr (m.dependencies.map PluginDependency.toJson)),
    ("ui", .arr (m.ui.map UiContribution.toJson)),
    ("migrations", .arr (m.migrations.map PluginMigration.toJson)),
    ("license_expression", .str m.licenseExpression), ("sbom_digest", .str m.sbomDigest.toText),
    ("signature_ref", .str m.signatureRef),
    ("handlers", .arr (m.handlers.map HandlerContract.toJson)),
    ("workflows", .arr (m.workflows.map ArtifactRef.toJson)),
    ("data_contracts", .arr (m.dataContracts.map ArtifactRef.toJson)),
    ("tools", .arr (m.tools.map ToolDescriptor.toJson))]

def toJson (m : PluginManifest) : Json := .obj m.fields

/-- The document without its signature reference. -/
def signedJson (m : PluginManifest) : Json :=
  .obj (m.fields.filter fun f => f.1 != "signature_ref")

end PluginManifest

/-! ## Workflows

The stored form of a definition, as a plugin ships it. -/

structure DocumentNode where
  id : String
  kind : String
  handlerId : Option String
  inputSchemaRef : ArtifactRef
  outputSchemaRef : ArtifactRef
  maxAttempts : Nat
  timeoutSeconds : Nat
  maxIterations : Nat
  onFailure : String
  deriving DecidableEq

def DocumentNode.toJson (n : DocumentNode) : Json :=
  .obj [("id", .str n.id), ("kind", .str n.kind), ("handler_id", .ofOption .str n.handlerId),
    ("input_schema_ref", n.inputSchemaRef.toJson), ("output_schema_ref", n.outputSchemaRef.toJson),
    ("max_attempts", .num n.maxAttempts), ("timeout_seconds", .num n.timeoutSeconds),
    ("max_iterations", .num n.maxIterations), ("on_failure", .str n.onFailure)]

structure DocumentEdge where
  source : String
  target : String
  condition : String
  deriving DecidableEq

def DocumentEdge.toJson (e : DocumentEdge) : Json :=
  .obj [("from", .str e.source), ("to", .str e.target), ("condition", .str e.condition)]

structure WorkflowDocument where
  id : String
  version : String
  inputSchemaRef : ArtifactRef
  outputSchemaRef : ArtifactRef
  entryNode : String
  nodes : List DocumentNode
  edges : List DocumentEdge
  maxTotalSteps : Nat
  maxModelTurns : Nat
  requiredActions : List Action
  digest : Digest
  deriving DecidableEq

namespace WorkflowDocument

def fields (w : WorkflowDocument) : List (String × Json) :=
  [("id", .str w.id), ("version", .str w.version), ("input_schema_ref", w.inputSchemaRef.toJson),
    ("output_schema_ref", w.outputSchemaRef.toJson), ("entry_node", .str w.entryNode),
    ("nodes", .arr (w.nodes.map DocumentNode.toJson)),
    ("edges", .arr (w.edges.map DocumentEdge.toJson)), ("max_total_steps", .num w.maxTotalSteps),
    ("max_model_turns", .num w.maxModelTurns),
    ("required_actions", .arr (w.requiredActions.map fun a => .str a.text)),
    ("digest", .str w.digest.toText)]

def toJson (w : WorkflowDocument) : Json := .obj w.fields

/-- The content that the digest of the document is taken of. -/
def contentJson (w : WorkflowDocument) : Json := .obj (w.fields.filter fun f => f.1 != "digest")

end WorkflowDocument

end Masonwing
