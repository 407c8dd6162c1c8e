import Masonwing.Contracts.IdentifierBytes
import Masonwing.Store.Invitations
import Masonwing.Store.Plugins

/-!
# Evaluating runs

The steps of the platform with the texts of identifiers and digests written and read as bytes.
`Bytewise.hostStep`, say, is the unfolded `hostStep` in which those functions are exchanged, and
it carries the proof that it is `hostStep`. A statement about a run on fixed inputs is rewritten
with such an equation (`hostStep_bytewise`) before it is decided.

A definition here has no body of its own: it is what unfolding the functions named after `delta`
and rewriting leave of the model. A function of the model that is not named there is still
evaluated, at the price of its identifiers.
-/

namespace Masonwing

theorem Digest.hex_bytewise : hex = byteHex := funext fun d => (byteHex_eq d).symm

/-! ## The store -/

noncomputable def Bytewise.parseUuid : { f // @parseUuid = f } :=
  ⟨_, by
    delta parseUuid
    rw [Uuid.parseBytes.2]⟩

noncomputable def Bytewise.resourceRef : { f // @resourceRef = f } :=
  ⟨_, by
    delta resourceRef
    rw [Uuid.toId_bytewise]⟩

noncomputable def Bytewise.ArtifactRef.toJson : { f // @ArtifactRef.toJson = f } :=
  ⟨_, by
    delta ArtifactRef.toJson
    rw [Digest.toText_bytewise]⟩

noncomputable def Bytewise.ArtifactRef.fromJson? : { f // @ArtifactRef.fromJson? = f } :=
  ⟨_, by
    delta ArtifactRef.fromJson?
    rw [Digest.parseBytes.2, OpaqueId.ofText?_bytewise]⟩

noncomputable def Bytewise.WorkflowDocument.fields : { f // @WorkflowDocument.fields = f } :=
  ⟨_, by
    delta WorkflowDocument.fields DocumentNode.toJson
    rw [Bytewise.ArtifactRef.toJson.2, Digest.toText_bytewise]⟩

noncomputable def Bytewise.WorkflowDocument.toJson : { f // @WorkflowDocument.toJson = f } :=
  ⟨_, by
    delta WorkflowDocument.toJson
    rw [Bytewise.WorkflowDocument.fields.2]⟩

noncomputable def Bytewise.WorkflowDocument.contentJson :
    { f // @WorkflowDocument.contentJson = f } :=
  ⟨_, by
    delta WorkflowDocument.contentJson
    rw [Bytewise.WorkflowDocument.fields.2]⟩

noncomputable def Bytewise.PluginManifest.signedJson : { f // @PluginManifest.signedJson = f } :=
  ⟨_, by
    delta PluginManifest.signedJson PluginManifest.fields ToolDescriptor.toJson
      PluginMigration.toJson HandlerContract.toJson
    rw [Bytewise.ArtifactRef.toJson.2, Digest.toText_bytewise]⟩

noncomputable def Bytewise.Mutation.one : { f // @Mutation.one = f } :=
  ⟨_, by
    delta Mutation.one
    rw [Bytewise.resourceRef.2]⟩

noncomputable def Bytewise.loadArtifactRef : { f // @loadArtifactRef = f } :=
  ⟨_, by
    delta loadArtifactRef
    rw [Bytewise.parseUuid.2, Uuid.toText_bytewise, Digest.decEq_bytewise]⟩

noncomputable def Bytewise.beginActor : { f // @beginActor = f } :=
  ⟨_, by
    delta beginActor
    rw [Bytewise.parseUuid.2]⟩

noncomputable def Bytewise.readPolicy : { f // @readPolicy = f } :=
  ⟨_, by
    delta readPolicy
    rw [Bytewise.parseUuid.2]⟩

noncomputable def Bytewise.recordChange : { f // @recordChange = f } :=
  ⟨_, by
    delta recordChange writeProjection sourceId projectionSources projectionSources._f
      persistArtifact storageKey
    rw [Bytewise.ArtifactRef.fromJson?.2, Bytewise.parseUuid.2, Uuid.toText_bytewise,
      Uuid.toId_bytewise, Digest.hex_bytewise]⟩

noncomputable def Bytewise.recordChanges : { f // @recordChanges = f } :=
  ⟨_, by
    delta recordChanges recordChanges._f
    rw [Bytewise.recordChange.2]⟩

noncomputable def Bytewise.commitCommand : { f // @commitCommand = f } :=
  ⟨_, by
    delta commitCommand commandReceipt
    rw [Bytewise.recordChanges.2, Uuid.toId_bytewise]⟩

noncomputable def Bytewise.admitCommand : { f // @admitCommand = f } :=
  ⟨_, by
    delta admitCommand
    rw [Bytewise.beginActor.2, Bytewise.parseUuid.2, Digest.decEq_bytewise]⟩

noncomputable def Bytewise.execute : { f // @execute = f } :=
  ⟨_, by
    delta execute
    rw [Bytewise.admitCommand.2, Bytewise.commitCommand.2]⟩

noncomputable def Bytewise.quarantineCorruptArtifact : { f // @quarantineCorruptArtifact = f } :=
  ⟨_, by
    delta quarantineCorruptArtifact containArtifact quarantineArtifact
    rw [Bytewise.beginActor.2, Bytewise.parseUuid.2, Digest.decEq_bytewise]⟩

noncomputable def Bytewise.effectProjectionValue : { f // @effectProjectionValue = f } :=
  ⟨_, by
    delta effectProjectionValue
    rw [Bytewise.ArtifactRef.toJson.2, Uuid.toText_bytewise, Digest.toText_bytewise]⟩

noncomputable def Bytewise.admitProposal : { f // @admitProposal = f } :=
  ⟨_, by
    delta admitProposal requireDispatchEnabled stoppedBy requireActiveGrant effectFingerprint
      fingerprintValue
    rw [Bytewise.parseUuid.2, Uuid.toText_bytewise, Digest.toText_bytewise]⟩

noncomputable def Bytewise.runOperation : { f // @runOperation = f } :=
  ⟨_, by
    delta runOperation service dispatchCommand startRun checkRunInput setKillSwitch killSwitchScope
      revokeGrant revocationChange revokeConnection connectionValue reconcileEffect proposeEffect
      proposeNew proposeAgain dispatchEffect requireDispatchEnabled decideApproval approvalValue
      createGrant grantJson checkParentGrant requireActiveGrant checkGrantResource grantResource
      artifactMetadata configureBudgetCommand configureBudget compensateEffect effectFingerprint
      fingerprintValue compensationRequest cancelRun authorizeCommand authorizationResource
      runSystemCall verifyAndClaimRun claimRun dispatchRefusal stoppedBy readPolicyForPrincipal
      reserveBudget recordEffectUnknown markRunStarted runMutation runProjectionValue
      markCostUnknown applyReconciliationEvidence resolveEffect releaseIf releaseBudget
      recordEffectSucceeded settleBudget settleOpen closeReservation settleAgain reservationValue
      effectMutation
    rw [Bytewise.admitProposal.2, Bytewise.effectProjectionValue.2,
      Bytewise.quarantineCorruptArtifact.2, Bytewise.execute.2, Bytewise.readPolicy.2,
      Bytewise.loadArtifactRef.2, Bytewise.Mutation.one.2, Bytewise.resourceRef.2,
      Bytewise.parseUuid.2, Uuid.toText_bytewise, Uuid.toId_bytewise, Digest.toText_bytewise,
      Digest.decEq_bytewise]⟩

noncomputable def Bytewise.step : { f // @step = f } :=
  ⟨_, by
    delta step
    rw [Bytewise.runOperation.2]⟩

theorem step_bytewise : @step = @Bytewise.step.val := Bytewise.step.2

noncomputable def Bytewise.runPlatformOperation : { f // @runPlatformOperation = f } :=
  ⟨_, by
    delta runPlatformOperation Platform.service Platform.dispatch revokePlugin storedManifest
      stoppedChange runProjectionValue installationProjection installationValue requestDeletion
      externalCopy deletionValue addTombstone Lifecycle.run RegistryChange.projection
      Platform.authorize
    rw [Bytewise.runOperation.2, Bytewise.quarantineCorruptArtifact.2, Bytewise.execute.2,
      Bytewise.readPolicy.2, Bytewise.Mutation.one.2, Bytewise.resourceRef.2, Bytewise.parseUuid.2,
      Uuid.toText_bytewise, Digest.toText_bytewise, Digest.decEq_bytewise]⟩

noncomputable def Bytewise.platformStep : { f // @platformStep = f } :=
  ⟨_, by
    delta platformStep
    rw [Bytewise.runPlatformOperation.2]⟩

theorem platformStep_bytewise : @platformStep = @Bytewise.platformStep.val :=
  Bytewise.platformStep.2

noncomputable def Bytewise.runHostOperation : { f // @runHostOperation = f } :=
  ⟨_, by
    delta runHostOperation completeUpload settleAttempt uploadKey claimUpload Host.service
      Host.dispatch submitCatalog revokeMembership reviewCatalog replayDeadletter invokePlugin
      storeOutput persistArtifact storageKey invocationValue admitInvocation
      verifyPublisherAndPackage verifySignature manifestSigningMessage manifestDigest storedManifest
      requireDispatchEnabled stoppedBy requireActiveGrant packageArtifact invocationSchema
      invocationInput artifactMetadata installationRef effectiveCapabilities finalizeArtifact
      configureProvider compactProvider changeMembership writeMembership membershipValue
      requireAssignableRoles requireActorCanManageOwner actorMembershipRoles beginArtifact
      uploadValue authorizeConnection seedConnection Host.runExtension Host.authorize Host.resource
      tenantResource membershipResource installationResource artifactResource
    rw [Bytewise.runPlatformOperation.2, Bytewise.quarantineCorruptArtifact.2, Bytewise.execute.2,
      Bytewise.recordChange.2, Bytewise.readPolicy.2, Bytewise.beginActor.2,
      Bytewise.loadArtifactRef.2, Bytewise.Mutation.one.2, Bytewise.PluginManifest.signedJson.2,
      Bytewise.ArtifactRef.toJson.2, Bytewise.resourceRef.2, Bytewise.parseUuid.2,
      Uuid.toText_bytewise, Uuid.toId_bytewise, Digest.toText_bytewise, Digest.hex_bytewise,
      OpaqueId.ofText?_bytewise, Digest.decEq_bytewise]⟩

noncomputable def Bytewise.hostStep : { f // @hostStep = f } :=
  ⟨_, by
    delta hostStep
    rw [Bytewise.runHostOperation.2]⟩

theorem hostStep_bytewise : @hostStep = @Bytewise.hostStep.val := Bytewise.hostStep.2

noncomputable def Bytewise.enrollmentStep : { f // @enrollmentStep = f } :=
  ⟨_, by
    delta enrollmentStep runEnrollmentOperation Enrollment.runInvite Enrollment.inviteService
      tenantResource inviteMembership requireAssignableRoles
      Enrollment.retrieveMembershipInviteSecret InviteTokenKey.deriveToken
      Enrollment.requireRetriever actorMembershipRoles Enrollment.executeMembershipAccept
      InviteTokenKey.verifyToken InviteTokenKey.readToken Enrollment.admitMember commandReceipt
      Enrollment.acceptMutation membershipValue inviteValue Enrollment.acceptActor
    rw [Bytewise.runHostOperation.2, Bytewise.execute.2, Bytewise.recordChanges.2,
      Bytewise.readPolicy.2, Bytewise.beginActor.2, Bytewise.Mutation.one.2, Bytewise.resourceRef.2,
      Bytewise.parseUuid.2, Uuid.toText_bytewise, Uuid.toId_bytewise, Uuid.parseBytes.2,
      Digest.decEq_bytewise, Ascii.ofList_eq, Ascii.toList_eq]⟩

theorem enrollmentStep_bytewise : @enrollmentStep = @Bytewise.enrollmentStep.val :=
  Bytewise.enrollmentStep.2

noncomputable def Bytewise.validateWorkflow : { f // @validateWorkflow = f } :=
  ⟨_, by
    delta validateWorkflow nodeValid checkUnbounded DependencyGraph.resolve DependencyGraph.visit
      DependencyGraph.visit._f addUnbounded unboundedNext DependencyGraph.insert
    rw [Bytewise.WorkflowDocument.contentJson.2, Bytewise.WorkflowDocument.toJson.2,
      OpaqueId.ofText?_bytewise, Digest.decEq_bytewise]⟩

theorem validateWorkflow_bytewise : @validateWorkflow = @Bytewise.validateWorkflow.val :=
  Bytewise.validateWorkflow.2

noncomputable def Bytewise.pluginPlatform : { f // @pluginPlatform = f } :=
  ⟨_, by
    delta pluginPlatform pluginLifecycle handlePlugin upgradePlugin uninstallPlugin installPlugin
      verifyInstallation validateManifest checkTool checkHandler selectedManifests resolveManifests
      addResolved DependencyGraph.resolve DependencyGraph.visit DependencyGraph.visit._f addManifest
      manifestEdges addDependency dependencyEdge DependencyGraph.insert addWorkflow checkSchema
      addReference manifestChange PluginManifest.toJson PluginManifest.fields ToolDescriptor.toJson
      PluginMigration.toJson HandlerContract.toJson enablePlugin verifyPublisherAndPackage
      verifySignature manifestSigningMessage packageArtifact manifestDigest storedManifest
      requireDispatchEnabled stoppedBy checkGrants disablePlugin setInstallation installationRef
      installationChange installationValue authorizePlugin
    rw [Bytewise.validateWorkflow.2, Bytewise.readPolicy.2, Bytewise.loadArtifactRef.2,
      Bytewise.PluginManifest.signedJson.2, Bytewise.ArtifactRef.toJson.2, Bytewise.resourceRef.2,
      Uuid.toText_bytewise, Uuid.toId_bytewise, Digest.toText_bytewise, OpaqueId.ofText?_bytewise,
      Digest.decEq_bytewise]⟩

theorem pluginPlatform_bytewise : @pluginPlatform = @Bytewise.pluginPlatform.val :=
  Bytewise.pluginPlatform.2

/-! ## Documents -/

namespace Sample

/-- The bytes of a text before the given ones. -/
def onto (s : String) (bytes : List UInt8) : List UInt8 := s.toByteArray.data.toList ++ bytes

theorem onto_append (s t : String) (bytes : List UInt8) :
    onto (s ++ t) bytes = onto s (onto t bytes) := by
  simp [onto, String.toByteArray_append]

mutual

/-- The bytes of `render` before the given ones. -/
def renderOnto : Json → List UInt8 → List UInt8
  | .null, bytes => onto "null" bytes
  | .bool b, bytes => onto (if b then "true" else "false") bytes
  | .num n, bytes => onto (toString n) bytes
  | .str s, bytes => onto "\"" (onto s (onto "\"" bytes))
  | .arr items, bytes => onto "[" (renderItemsOnto items (onto "]" bytes))
  | .obj fields, bytes => onto "\x7b" (renderFieldsOnto fields (onto "\x7d" bytes))

def renderItemsOnto : List Json → List UInt8 → List UInt8
  | [], bytes => bytes
  | [v], bytes => renderOnto v bytes
  | v :: rest, bytes => renderOnto v (onto "," (renderItemsOnto rest bytes))

def renderFieldsOnto : List (String × Json) → List UInt8 → List UInt8
  | [], bytes => bytes
  | [(k, v)], bytes => onto "\"" (onto k (onto "\":" (renderOnto v bytes)))
  | (k, v) :: rest, bytes =>
    onto "\"" (onto k (onto "\":" (renderOnto v (onto "," (renderFieldsOnto rest bytes)))))

end

mutual

theorem renderOnto_eq : ∀ (v : Json) (bytes : List UInt8),
    renderOnto v bytes = onto (render v) bytes
  | .null, _ => rfl
  | .bool _, _ => rfl
  | .num _, _ => rfl
  | .str _, _ => by simp only [renderOnto, render, onto_append]
  | .arr items, _ => by simp only [renderOnto, render, onto_append, renderItemsOnto_eq items]
  | .obj fields, _ => by simp only [renderOnto, render, onto_append, renderFieldsOnto_eq fields]

theorem renderItemsOnto_eq : ∀ (items : List Json) (bytes : List UInt8),
    renderItemsOnto items bytes = onto (renderItems items) bytes
  | [], _ => rfl
  | [v], bytes => renderOnto_eq v bytes
  | v :: w :: rest, _ => by
    simp only [renderItemsOnto, renderItems, onto_append, renderOnto_eq v,
      renderItemsOnto_eq (w :: rest)]

theorem renderFieldsOnto_eq : ∀ (fields : List (String × Json)) (bytes : List UInt8),
    renderFieldsOnto fields bytes = onto (renderFields fields) bytes
  | [], _ => rfl
  | [(k, v)], _ => by simp only [renderFieldsOnto, renderFields, onto_append, renderOnto_eq v]
  | (k, v) :: field :: rest, _ => by
    simp only [renderFieldsOnto, renderFields, onto_append, renderOnto_eq v,
      renderFieldsOnto_eq (field :: rest)]

end

theorem renderOnto_nil (v : Json) : (⟨⟨renderOnto v []⟩⟩ : ByteArray) = (render v).toByteArray := by
  rw [renderOnto_eq, onto, List.append_nil]

def byteRender (v : Json) : String :=
  ⟨⟨⟨renderOnto v []⟩⟩, renderOnto_nil v ▸ (render v).isValidUTF8⟩

theorem render_bytewise : render = byteRender :=
  funext fun v => String.toByteArray_inj.mp (renderOnto_nil v).symm

/-! ## Digests -/

/-- The function at a number that is computed first. -/
def forced (n : Nat) (f : Nat → Nat) : Nat := n.casesOn (f 0) fun m => f (m + 1)

theorem forced_eq (n : Nat) (f : Nat → Nat) : forced n f = f n := by
  cases n <;> rfl

def foldBytes : List UInt8 → Nat → Nat
  | [], acc => acc
  | b :: bytes, acc => forced (acc * 257 + b.toNat + 1) (foldBytes bytes)

theorem foldBytes_eq (bytes : List UInt8) (acc : Nat) :
    foldBytes bytes acc = bytes.foldl (fun acc b => acc * 257 + b.toNat + 1) acc := by
  induction bytes generalizing acc with
  | nil => rfl
  | cons b bytes ih => rw [foldBytes, forced_eq, ih, List.foldl_cons]

def byteDigest (bytes : Bytes) : Digest := ⟨BitVec.ofNat 256 (foldBytes bytes 0)⟩

theorem digest_bytewise : digest = byteDigest := by
  funext bytes
  rw [digest, byteDigest, foldBytes_eq]

/-! ## The platforms of the small tenant -/

noncomputable def byteEnv : { f // env = f } :=
  ⟨_, by
    delta env
    rw [render_bytewise, digest_bytewise]⟩

theorem env_bytewise : env = byteEnv.val := byteEnv.2

noncomputable def bytePlatform : { f // platform = f } :=
  ⟨_, by
    delta platform
    rw [env_bytewise]⟩

theorem platform_bytewise : platform = bytePlatform.val := bytePlatform.2

noncomputable def byteStoredRef : { f // storedRef = f } :=
  ⟨_, by
    delta storedRef bytesOf
    rw [Uuid.toId_bytewise, Ascii.toList_eq, digest_bytewise]⟩

noncomputable def byteDocument : { f // document = f } :=
  ⟨_, by
    delta document unsealed
    rw [digest_bytewise, render_bytewise, byteStoredRef.2, Bytewise.WorkflowDocument.contentJson.2]⟩

noncomputable def bytePackages : { f // packages = f } :=
  ⟨_, by
    delta packages reports printing bytesOf parseVersion parseRange
    rw [digest_bytewise, render_bytewise, byteDocument.2, byteStoredRef.2,
      Bytewise.PluginManifest.signedJson.2, Ascii.toList_eq]⟩

theorem packages_bytewise : packages = bytePackages.val := bytePackages.2

noncomputable def byteHost : { f // host = f } :=
  ⟨_, by
    delta host
    rw [platform_bytewise, packages_bytewise]⟩

theorem host_bytewise : host = byteHost.val := byteHost.2

noncomputable def bytePlugins : { f // plugins = f } :=
  ⟨_, by
    delta plugins
    rw [pluginPlatform_bytewise, env_bytewise, packages_bytewise]⟩

theorem plugins_bytewise : plugins = bytePlugins.val := bytePlugins.2

noncomputable def byteInviteKey : { f // inviteKey = f } :=
  ⟨_, by
    delta inviteKey readHex
    rw [Ascii.ofList_eq, Ascii.toList_eq, hexValue?_bytewise]⟩

noncomputable def byteEnrollment : { f // enrollment = f } :=
  ⟨_, by
    delta enrollment
    rw [host_bytewise, byteInviteKey.2, digest_bytewise]⟩

theorem enrollment_bytewise : enrollment = byteEnrollment.val := byteEnrollment.2

noncomputable def byteToken : { f // tokenOf = f } :=
  ⟨_, by
    delta tokenOf InviteTokenKey.deriveToken
    rw [byteInviteKey.2, Uuid.toText_bytewise]⟩

end Sample

end Masonwing
