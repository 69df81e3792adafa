import Capmesh.CapGuard.Release
import Capmesh.Governance.NormalizationRun
import Capmesh.Governance.Shadow
import Capmesh.Index.Lookup
import Capmesh.Lifecycle.SuperadminCreate
import Capmesh.Lifecycle.Verification
import Capmesh.Registry.Transactions
import Capmesh.Registry.Dependencies
import Capmesh.Access.Expiry
import Capmesh.Access.Deactivation
import Capmesh.Directory.Mirror
import Capmesh.Governance.Matching
import Capmesh.Governance.Composers
import Capmesh.Governance.DraftFiles
import Capmesh.Registry.Tampering
import Capmesh.Index.Freshness
import Capmesh.Router.Listing
import Capmesh.Router.SearchContract
import Capmesh.Delegation.WriteSets
import Capmesh.Authority.Bootstrap
import Capmesh.Directory.GroupSources
import Capmesh.Access.ShareFlag
import Capmesh.Access.NamespaceOwners
import Capmesh.Directory.StoreAuthority
import Capmesh.Directory.ProvisioningOrder
import Capmesh.Lifecycle.ReviewScope
import Capmesh.CapGuard.PolicyFields
import Capmesh.Router.Bindings
import Capmesh.Lifecycle.Verified
import Capmesh.Index.UpsertSpec
import Capmesh.Registry.Constraints
import Capmesh.Registry.DeploymentOrder
import Capmesh.Registry.BreakGlass
import Capmesh.Directory.GroupNames
import Capmesh.Server.McpHeaders
import Capmesh.CapGuard.ScanDocuments
import Capmesh.Delegation.ScopeFiles
import Capmesh.Router.Metadata
import Capmesh.Registry.VersionConflicts
import Capmesh.CapGuard.Padding
import Capmesh.Index.ParityDigest
import Capmesh.Index.GenerationText
import Capmesh.Governance.FrontmatterReaders
import Capmesh.Authority.LoginBinding
import Capmesh.Authority.ReportReceipts
import Capmesh.Index.EmbedBreaker
import Capmesh.Lifecycle.Walks
