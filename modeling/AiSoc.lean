import AiSoc.ResponseActions.AtMostOnce
import AiSoc.ResponseActions.Separation
import AiSoc.Response.Policy
import AiSoc.Response.Executor
import AiSoc.Investigation.Schema
import AiSoc.Investigation.Gate
import AiSoc.Investigation.AutoResponse
import AiSoc.Response.Protection
import AiSoc.Investigation.Context
import AiSoc.Investigation.Bounded
import AiSoc.Investigation.NetworkAssessment
import AiSoc.Investigation.Validation
import AiSoc.Investigation.Workflow
import AiSoc.Investigation.Grounding
import AiSoc.Library.JsonCode
import AiSoc.Library.JsonNesting
import AiSoc.Response.AuditChain
import AiSoc.Response.TamperEvidence
import AiSoc.Auth.Service
import AiSoc.Auth.Phases
import AiSoc.Auth.Soundness
import AiSoc.Auth.Revocation
import AiSoc.Auth.Administrators
import AiSoc.Auth.LastAdmin
import AiSoc.Jobs.Service
import AiSoc.Jobs.Phases
import AiSoc.Jobs.Frame
import AiSoc.Jobs.Soundness
import AiSoc.Jobs.Commit
import AiSoc.Jobs.Idempotence
import AiSoc.Jobs.Finished
import AiSoc.Jobs.Stranded
import AiSoc.Correlation.Timeline
import AiSoc.Library.JsonShape
import AiSoc.Investigation.Sanitized
import AiSoc.Correlation.Identity
import AiSoc.Library.Query
import AiSoc.Correlation.Store
import AiSoc.Correlation.Detection
import AiSoc.Correlation.Service
import AiSoc.Correlation.Ingestion
import AiSoc.Correlation.Merging
import AiSoc.Correlation.Raised
import AiSoc.Correlation.Reachable
import AiSoc.Correlation.OneIncident
import AiSoc.Correlation.TimelineEntries
import AiSoc.Correlation.Summary
import AiSoc.Correlation.Findings
import AiSoc.Correlation.Locks
import AiSoc.Correlation.Manual
import AiSoc.Investigation.ActionPlan
import AiSoc.Response.Rollback
import AiSoc.Investigation.Containment
import AiSoc.Investigation.TargetAgreement
import AiSoc.Auth.Families
import AiSoc.Response.BreakerRefinement
import AiSoc.Auth.Linear
import AiSoc.Library.Varchar
import AiSoc.Security.Audit
import AiSoc.Security.Audited
import AiSoc.Library.Counters
import AiSoc.Security.RateLimit
import AiSoc.Security.Throttling
import AiSoc.Correlation.Restamp
import AiSoc.Correlation.Bulk
import AiSoc.Library.Deadlock
import AiSoc.Correlation.Deadlock
import AiSoc.Library.ReadCommitted
import AiSoc.Correlation.Statements
import AiSoc.Correlation.Concurrency
import AiSoc.Jobs.Queue
import AiSoc.Jobs.Conservation
import AiSoc.Correlation.Severity
import AiSoc.Investigation.Truncation
import AiSoc.Evidence.Redaction
import AiSoc.Evidence.Storage
import AiSoc.Library.RegexItems
import AiSoc.Library.Replacement
import AiSoc.Library.Rewriting
import AiSoc.Evidence.Patterns
import AiSoc.Evidence.Hiding
import AiSoc.Library.SlidingWindow
import AiSoc.Ml.Dataset
import AiSoc.Events.Normalizer
import AiSoc.Events.Overflow
import AiSoc.Events.InRange
import AiSoc.Console.SignIn
import AiSoc.Console.Client
import AiSoc.Console.Logouts
import AiSoc.Library.Suppression
import AiSoc.Realtime.Provider
import AiSoc.Realtime.Publishers
import AiSoc.Realtime.Updates
import AiSoc.Realtime.Deliveries
import AiSoc.Realtime.Attention
import AiSoc.Realtime.Announced
import AiSoc.Realtime.Clocks
import AiSoc.Library.FloatOfNat
import AiSoc.Library.Joins
import AiSoc.Ml.IncidentFeatures
import AiSoc.Ml.ClassificationPaths
import AiSoc.Correlation.RiskScore
import AiSoc.Correlation.KeyNames
import AiSoc.Correlation.TimelineOrder
import AiSoc.Investigation.Exposure
import AiSoc.ResponseActions.Idempotency
import AiSoc.Library.JsonSchema
import AiSoc.Investigation.SchemaReduction
import AiSoc.Investigation.SchemaCleaning
import AiSoc.Investigation.SchemaRelaxed
import AiSoc.Library.UrlSplit
import AiSoc.Ml.AwsDataset
import AiSoc.Jobs.LifeCycle
import AiSoc.Library.JsonTree
import AiSoc.Security.Sanitizer
import AiSoc.Library.PyFields
import AiSoc.Security.Tokens
import AiSoc.Realtime.Tickets
import AiSoc.Library.BoundedQueue
import AiSoc.Realtime.FanOut
import AiSoc.Ml.OneActive
import AiSoc.Library.IsoFormat
import AiSoc.Events.FindingAdapter
import AiSoc.Events.FindingIngestion
import AiSoc.Events.FindingStorage
import AiSoc.Events.ExactlyOnce
import AiSoc.Investigation.Automation
import AiSoc.Security.ApiKeys
import AiSoc.Correlation.Attacks
import AiSoc.Correlation.Compromises
import AiSoc.Correlation.Totality
import AiSoc.Realtime.Admission
import AiSoc.Realtime.Capacity
import AiSoc.Realtime.Revocation
import AiSoc.Library.Paging
import AiSoc.Api.Listings
import AiSoc.Library.Passes
import AiSoc.Evidence.Overlaps
