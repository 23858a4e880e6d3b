import C3RSpec.Base.JsonParse
import C3RSpec.Authority.CommitGateway
import C3RSpec.Authority.AttestationSoundness
import C3RSpec.Access.Admit
import C3RSpec.Access.QuotaSafety
import C3RSpec.Authority.ApprovalSingleUse
import C3RSpec.Base.DateTime
import C3RSpec.Base.JsonScalar
import C3RSpec.Base.Loop
import C3RSpec.Base.PrunedLog
import C3RSpec.Candidates.Compiler
import C3RSpec.Candidates.Origin
import C3RSpec.Runtime.AuthorityBoundary
import C3RSpec.Telemetry.Admissible
import C3RSpec.Telemetry.AppendOrder
import C3RSpec.Telemetry.LedgerAnchor
import C3RSpec.Telemetry.PurgeAnchoring
import C3RSpec.Telemetry.TornHead
import C3RSpec.Access.PgPool
import C3RSpec.Access.PoolAccounting
import C3RSpec.Access.PoolSafety
import C3RSpec.Access.PoolWaiters
import C3RSpec.ApiAccess.AccessStore
import C3RSpec.ApiAccess.CredentialHistory
import C3RSpec.Base.Bytes
import C3RSpec.Base.Stateful
import C3RSpec.Ingress.Capacity
import C3RSpec.Ingress.Mediation
import C3RSpec.Ingress.StoreOutage
import C3RSpec.Ingress.UsageAccounting
import C3RSpec.Service.Frames
import C3RSpec.Service.Handler
import C3RSpec.Service.SlotPhase
import C3RSpec.Service.SlotRelease
import C3RSpec.Adapters.FailClosed
import C3RSpec.ApiAccess.CredentialRecovery
import C3RSpec.ApiAccess.PgAccess
import C3RSpec.ApiAccess.RecoveredKeys
import C3RSpec.ApiAccess.StoreParity
import C3RSpec.Base.JsonLine
import C3RSpec.Runtime.NonInterference
import C3RSpec.SystemOne.ClmAdapter
import C3RSpec.SystemOne.DecisionMargin
import C3RSpec.SystemOne.ResponseFallback
import C3RSpec.Telemetry.LedgerParity
import C3RSpec.Telemetry.TamperEvidence
import C3RSpec.Authority.CommitAttested
import C3RSpec.Base.JsonIndent
import C3RSpec.Candidates.CandidateIds
import C3RSpec.Candidates.CatalogOrder
import C3RSpec.DecisionMix.Accepted
import C3RSpec.DecisionMix.Lossless
import C3RSpec.Runtime.HostCalls
import C3RSpec.Runtime.RequestedText
import C3RSpec.Runtime.StateBounds
import C3RSpec.SystemOne.Rankable
import C3RSpec.Adapters.TextStream
import C3RSpec.ApiAccess.FailedCopy
import C3RSpec.ApiAccess.MetadataPurge
import C3RSpec.ApiAccess.QuotaExactness
import C3RSpec.Base.FirstMax
import C3RSpec.Runtime.Selection
import C3RSpec.Service.EventGrammar
import C3RSpec.Service.TokenBucket
import C3RSpec.SystemOne.Alignment
import C3RSpec.SystemOne.CalibrationFit
import C3RSpec.SystemOne.CandidateRanking
import C3RSpec.SystemOne.FittedSlices
import C3RSpec.SystemOne.RefusedRequest
import C3RSpec.Adapters.ProviderLines
import C3RSpec.Service.ResponseAgreement
import C3RSpec.Authority.ActionIdentity
import C3RSpec.Base.Lines
import C3RSpec.Base.Repr
import C3RSpec.Base.Truncation
import C3RSpec.Base.UrlQuote
import C3RSpec.Base.WhileLoop
import C3RSpec.Candidates.CutOff
import C3RSpec.CostTwin
import C3RSpec.Retention.Inventory
import C3RSpec.Retention.Paging
import C3RSpec.Retention.Purge
import C3RSpec.SystemOne.RowOrder
import C3RSpec.Telemetry.LedgerExport
import C3RSpec.Runtime.ControllerTraces
import C3RSpec.Runtime.GenerationReached
import C3RSpec.Readiness.CachedReadiness
import C3RSpec.Ingress.BilledStream
import C3RSpec.ApiAccess.ProjectIsolation
import C3RSpec.Ingress.SharedGateway
