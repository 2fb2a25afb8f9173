import GovernedAutonomy.Python.RoundTrip
import GovernedAutonomy.Quorum
import GovernedAutonomy.Barrier
import GovernedAutonomy.Outcome
import GovernedAutonomy.Reload
import GovernedAutonomy.PolicyUpdate
import GovernedAutonomy.Forgery
import GovernedAutonomy.Atomicity
import GovernedAutonomy.Truncation
import GovernedAutonomy.Binding
import GovernedAutonomy.Identity
import GovernedAutonomy.Python.Same
import GovernedAutonomy.History
import GovernedAutonomy.Lifetime
import GovernedAutonomy.SharedFile
import GovernedAutonomy.SharedConnection
import GovernedAutonomy.Reconstruction
import GovernedAutonomy.Executable
import GovernedAutonomy.Denial
import GovernedAutonomy.Preflight
import GovernedAutonomy.Bootstrap
import GovernedAutonomy.Sources
import GovernedAutonomy.KeyTrust
import GovernedAutonomy.PolicyRoundTrip
import GovernedAutonomy.PolicyLoad
import GovernedAutonomy.Loaders
import GovernedAutonomy.Coherence
import GovernedAutonomy.VersionedRegistry
import GovernedAutonomy.LifecycleMoves
import GovernedAutonomy.LifecycleOrder
import GovernedAutonomy.ActivationHistory
import GovernedAutonomy.Protocol.WorkQueue
import GovernedAutonomy.Jobs
import GovernedAutonomy.PostgresJobs
import GovernedAutonomy.JobDelivery
import GovernedAutonomy.PostgresDelivery
import GovernedAutonomy.SQLiteDelivery
import GovernedAutonomy.JobOutcomes
import GovernedAutonomy.JobSubmission
import GovernedAutonomy.PrincipalLimits
import GovernedAutonomy.Delegation
import GovernedAutonomy.ToolRuns
import GovernedAutonomy.Compensation
import GovernedAutonomy.AdminRoutes
import GovernedAutonomy.EvidenceBundle
import GovernedAutonomy.GovernanceLog
import GovernedAutonomy.OneTimeTokens
import GovernedAutonomy.ClaimsMapper
import GovernedAutonomy.RateIsolation
import GovernedAutonomy.WorkerFleet
import GovernedAutonomy.OidcOutcomes
import GovernedAutonomy.RunOnce
import GovernedAutonomy.Constraints
import GovernedAutonomy.AuthorizeOutcomes
import GovernedAutonomy.PolicyDigest
import GovernedAutonomy.PolicyReload
import GovernedAutonomy.RawPolicy
import GovernedAutonomy.PolicyGrammar
import GovernedAutonomy.BoundedRateLimiter
import GovernedAutonomy.VersionListing
import GovernedAutonomy.Governance
import GovernedAutonomy.Python.Merging
import GovernedAutonomy.SignedContent
import GovernedAutonomy.TrustFile
import GovernedAutonomy.ToolPolicy
import GovernedAutonomy.Redaction
import GovernedAutonomy.Python.Wording
import GovernedAutonomy.PreflightOutcomes
import GovernedAutonomy.MeshAuthorization
import GovernedAutonomy.OperatorKeys
import GovernedAutonomy.BrowserSessions
import GovernedAutonomy.PolicyStateFile
import GovernedAutonomy.PolicyRestarts
import GovernedAutonomy.PolicyRecordFiles
import GovernedAutonomy.RuleMeaning
import GovernedAutonomy.Protocol.Tables
import GovernedAutonomy.Protocol.Delegation
import GovernedAutonomy.IdentityStore
import GovernedAutonomy.RoleGrants
import GovernedAutonomy.JwksProvider
import GovernedAutonomy.KeyRotation
import GovernedAutonomy.Discovery
