import Masonwing.Lib.Outcome
import Masonwing.Lib.Table
import Masonwing.Lib.Machine
import Masonwing.Lib.Publication
import Masonwing.Lib.Topological
import Masonwing.Lib.Derivation
import Masonwing.Lib.Growth
import Masonwing.Lib.Reachability
import Masonwing.Contracts.Identifiers
import Masonwing.Contracts.Wire
import Masonwing.Contracts.Manifests
import Masonwing.Kernel.State
import Masonwing.Kernel.Runtime
import Masonwing.Kernel.Effects
import Masonwing.Kernel.DependencyGraph
import Masonwing.Kernel.InstallRegistry
import Masonwing.Proofs.DependencyResolution
import Masonwing.Store.Base
import Masonwing.Store.Budget
import Masonwing.Proofs.BudgetSteps
import Masonwing.Proofs.BudgetConservation
import Masonwing.Store.Tables
import Masonwing.Store.Journal
import Masonwing.Store.Authority
import Masonwing.Store.Delegation
import Masonwing.Store.EffectCommands
import Masonwing.Store.RunCommands
import Masonwing.Store.Administration
import Masonwing.Store.Execute
import Masonwing.Store.System
import Masonwing.Store.Deletion
import Masonwing.Store.Artifacts
import Masonwing.Store.Registry
import Masonwing.Store.Platform
import Masonwing.Store.Manifests
import Masonwing.Store.Plugins
import Masonwing.Store.Invocation
import Masonwing.Store.Memberships
import Masonwing.Store.Provisioning
import Masonwing.Store.Host
import Masonwing.Store.Transfer
import Masonwing.Lib.Like
import Masonwing.Lib.Paging
import Masonwing.Store.Queries
import Masonwing.Store.Invitations
import Masonwing.Lib.Text
import Masonwing.Lib.Utf8
import Masonwing.Lib.Ascii
import Masonwing.Contracts.IdentifierBytes
import Masonwing.Proofs.Evaluation
import Masonwing.Proofs.WorkflowValidation
import Masonwing.Proofs.Completion
import Masonwing.Worker.Interpreter
import Masonwing.Worker.Loop
import Masonwing.Worker.Relay
import Masonwing.Proofs.EffectSteps
import Masonwing.Proofs.RowSteps
import Masonwing.Proofs.Execution
import Masonwing.Proofs.Recording
import Masonwing.Proofs.Changes
import Masonwing.Proofs.PlatformChanges
import Masonwing.Proofs.RunLifecycle
import Masonwing.Proofs.Decisions
import Masonwing.Proofs.EffectLifecycle
import Masonwing.Proofs.EffectCoupling
import Masonwing.Proofs.AmbiguousOutcome
import Masonwing.Proofs.Cancellation
import Masonwing.Proofs.ApprovalBinding
import Masonwing.Proofs.Ancestry
import Masonwing.Proofs.GrantTree
import Masonwing.Proofs.JournalSteps
import Masonwing.Proofs.HostChanges
import Masonwing.Proofs.HostSteps
import Masonwing.Proofs.ArtifactRows
import Masonwing.Proofs.HostShows
import Masonwing.Proofs.BudgetLimits
import Masonwing.Proofs.Allowances
import Masonwing.Proofs.Lineage
import Masonwing.Proofs.RunLineage
import Masonwing.Proofs.Deletions
import Masonwing.Proofs.ConnectionRevocation
import Masonwing.Proofs.Announcements
import Masonwing.Proofs.Sources
import Masonwing.Proofs.EffectContent
import Masonwing.Proofs.Acceptance
import Masonwing.Proofs.Reconciliation
import Masonwing.Proofs.Delivery
import Masonwing.Proofs.DeadLetters
import Masonwing.Proofs.RelayAdmission
import Masonwing.Proofs.RelayRows
import Masonwing.Proofs.RelayWorkers
import Masonwing.Proofs.Interpreter
import Masonwing.Proofs.StepOrder
import Masonwing.Proofs.CrashResume
import Masonwing.Proofs.WorkflowWalk
import Masonwing.Proofs.CurrentAuthority
import Masonwing.Proofs.Projections
import Masonwing.Proofs.Idempotency
import Masonwing.Proofs.Proposals
import Masonwing.Proofs.Resolution
import Masonwing.Proofs.RegistryResolution
import Masonwing.Proofs.PluginSteps
import Masonwing.Proofs.DeletionClosure
import Masonwing.Proofs.ExternalCopies
import Masonwing.Proofs.PluginLifecycle
import Masonwing.Proofs.Versions
import Masonwing.Proofs.VersionGrowth
import Masonwing.Proofs.InvocationAuthority
import Masonwing.Proofs.MembershipSteps
import Masonwing.Proofs.MembershipInvariants
import Masonwing.Proofs.InviteUse
import Masonwing.Lib.Numerals
import Masonwing.Lib.Base64
import Masonwing.Proofs.InviteTokens
import Masonwing.Proofs.RoleAuthority
import Masonwing.Proofs.UploadSteps
import Masonwing.Proofs.Transfers
import Masonwing.Proofs.Uploads
import Masonwing.Lib.Procedure
import Masonwing.Store.Streaming
import Masonwing.Proofs.Streaming
import Masonwing.Proofs.Utf8Streams
import Masonwing.HostApi.Sessions
import Masonwing.Proofs.SessionFreshness
import Masonwing.Lib.Percent
import Masonwing.HostApi.ReturnTo
import Masonwing.Proofs.ReturnTargets
import Masonwing.Contracts.Documents
import Masonwing.Proofs.StrictDocuments
import Masonwing.Proofs.SchemaProfile
import Masonwing.Proofs.InstalledSet
import Masonwing.Proofs.OptionalDependencies
import Masonwing.Proofs.ConnectionSwitches
import Masonwing.Proofs.WorkflowResolution
import Masonwing.Proofs.KernelMachines
import Masonwing.Proofs.KillSwitches
import Masonwing.Proofs.Collections
import Masonwing.Lib.Interaction
import Masonwing.Sdk.Plugins
import Masonwing.Runner.Components
import Masonwing.HostApi.PluginExecution
import Masonwing.Proofs.PluginCode
import Masonwing.HostApi.FixtureImport
import Masonwing.Proofs.FixtureImport
import Masonwing.Proofs.Pages
import Masonwing.Lib.AlternateKey
import Masonwing.HostApi.SignIn
import Masonwing.Proofs.SignIn
import Masonwing.Proofs.Subjects
import Masonwing.Kernel.CostReservation
import Masonwing.Kernel.Grants
import Masonwing.HostApi.Commands
import Masonwing.Proofs.KernelGrants
import Masonwing.Proofs.KernelReservations
import Masonwing.HostApi.Downloads
import Masonwing.Proofs.Commands
import Masonwing.Proofs.Downloads
import Masonwing.Proofs.Compensations
