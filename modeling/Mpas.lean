import Mpas.Library.OrderedMap
import Mpas.Library.Machine
import Mpas.Library.Verdict
import Mpas.Library.Program
import Mpas.Library.Faults
import Mpas.Library.Quorum
import Mpas.Library.Heap
import Mpas.Library.Checks
import Mpas.Library.Pages
import Mpas.Library.Patterns
import Mpas.Library.Pointers
import Mpas.Library.JsonText
import Mpas.Library.JsonWriting
import Mpas.Library.Unfoldings
import Mpas.Library.Replacing
import Mpas.Library.Base64url
import Mpas.Library.Utf8
import Mpas.Json
import Mpas.StrictJson
import Mpas.StrictJsonTokens
import Mpas.StrictJsonParsing
import Mpas.JsonStructure
import Mpas.JsonSchema
import Mpas.SchemaDefaults
import Mpas.SchemaReferences
import Mpas.Artifacts
import Mpas.PolicyEngine
import Mpas.PolicyPointers
import Mpas.ApprovalRequirements
import Mpas.PolicyMeaning
import Mpas.PolicyValidation
import Mpas.RequirementMeaning
import Mpas.DefaultRequirement
import Mpas.ApprovalReachability
import Mpas.PolicyApprovals
import Mpas.PolicyConditions
import Mpas.PolicyTotality
import Mpas.PolicyOrder
import Mpas.InstallerUpdate
import Mpas.InstallerAtomicity
import Mpas.InstallerHome
import Mpas.InstallerCommands
import Mpas.InstallerDocuments
import Mpas.InstallerCoherence
import Mpas.InstallerReads
import Mpas.InstallerRewrites
import Mpas.InstallerAdditions
import Mpas.InstallerTexts
import Mpas.InstallerRuns
import Mpas.InstallerSigners
import Mpas.HomeLock
import Mpas.Builders
import Mpas.CoordinationReadiness
import Mpas.DispatchLedger
import Mpas.DispatchReplay
import Mpas.DispatchFile
import Mpas.PackageVerification
import Mpas.PackageSoundness
import Mpas.PackageVerdict
import Mpas.Timestamps
import Mpas.AdapterServer
import Mpas.AdapterSafety
import Mpas.AdapterDecision
import Mpas.AdapterMediation
import Mpas.CredentialInjection
import Mpas.NonceStore
import Mpas.Routing
import Mpas.RequestEquivalence
import Mpas.WorkflowStore
import Mpas.WorkflowEngine
import Mpas.WorkflowMoves
import Mpas.WorkflowSteps
import Mpas.WorkflowRuns
import Mpas.WorkflowReplacement
import Mpas.WorkflowCancellation
import Mpas.StoreContract
import Mpas.StoreInvariants
import Mpas.SqliteStore
import Mpas.SqliteRefinement
import Mpas.CoordinationStore
import Mpas.CoordinationRuns
import Mpas.CoordinationEvidence
import Mpas.CoordinationIdempotency
import Mpas.CoordinationOffers
import Mpas.SignatureSuites
import Mpas.KeyIdentities
import Mpas.SignerAgreement
import Mpas.HonestPackages
import Mpas.HonestDispatch
import Mpas.RelayDelivery
import Mpas.RelayReliability
import Mpas.RelayPages
import Mpas.BridgeGenerator
import Mpas.PluginCodegen
import Mpas.RegenerationMerge
import Mpas.SessionBinding
import Mpas.SessionAgreement
import Mpas.OAuthSessions
import Mpas.OAuthLogin
import Mpas.OAuthRefresh
import Mpas.OAuthRefreshRuns
import Mpas.OAuthResends
import Mpas.CoordinationAttribution
import Mpas.CoordinationAuthority
import Mpas.CoordinationGrants
import Mpas.CoordinationHints
