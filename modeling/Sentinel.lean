import Sentinel.Py.Text
import Sentinel.Py.Labels
import Sentinel.Py.Dict
import Sentinel.Py.Regex
import Sentinel.Py.UrlSplit
import Sentinel.Py.Utf8
import Sentinel.Trace.Ledger
import Sentinel.Trace.Run
import Sentinel.Orm.UnitOfWork
import Sentinel.Redis.Store
import Sentinel.TokenBucket.Window
import Sentinel.Durable.Program
import Sentinel.Durable.Logic
import Sentinel.Core.ScopeGuard
import Sentinel.Core.ScopeGuardTheorems
import Sentinel.Core.Destructive
import Sentinel.Core.HttpClient
import Sentinel.Core.HttpEngine
import Sentinel.Core.HttpEngineTheorems
import Sentinel.Core.PersonaIsolation
import Sentinel.Core.RateLimiter
import Sentinel.Core.RateLimiterTheorems
import Sentinel.Core.StateMachine
import Sentinel.Auth.Oracle
import Sentinel.Auth.OracleTheorems
import Sentinel.Crawler.SurfaceMap
import Sentinel.Crawler.Crawler
import Sentinel.Crawler.CrawlerTheorems
import Sentinel.Db.Target
import Sentinel.Db.Finding
import Sentinel.Db.FindingTheorems
import Sentinel.Db.Scan
import Sentinel.Worker.Substrate
import Sentinel.Worker.SurfaceAdapter
import Sentinel.Worker.ScanRunner
import Sentinel.Worker.ScanRunnerTheorems
import Sentinel.Search.Worklist
import Sentinel.Crawler.Reachability
import Sentinel.Crawler.Observations
import Sentinel.Db.Surface
import Sentinel.Durable.Returns
import Sentinel.Worker.SurfaceMerge
import Sentinel.Worker.ScanPhases
import Sentinel.Redaction.Splice
import Sentinel.Core.Transcript
import Sentinel.Core.TranscriptTheorems
import Sentinel.Auth.LoginReplay
import Sentinel.Auth.LoginReplayTheorems
import Sentinel.Core.Crypto
import Sentinel.Core.RequestOutcome
import Sentinel.Loop.Stopping
import Sentinel.Worker.AuthAdapter
import Sentinel.Worker.AuthAdapterTheorems
import Sentinel.Worker.AuthEstablishing
import Sentinel.Worker.CredentialEcho
import Sentinel.Uri.PathNormal
import Sentinel.Core.EquivalentPaths
import Sentinel.Api.Schemas
import Sentinel.Tenancy.Isolation
import Sentinel.Api.Routes
import Sentinel.Api.TenantIsolation
import Sentinel.Core.ScanHistory
import Sentinel.Core.TranscriptStore
import Sentinel.Py.Json
import Sentinel.Core.TranscriptBodies
import Sentinel.Recon.HttpProbe
import Sentinel.Recon.Containment
import Sentinel.Api.Ownership
import Sentinel.Api.OwnershipRaces
import Sentinel.Durable.Task
import Sentinel.Worker.SharedScan
import Sentinel.Worker.SharedScanTheorems
import Sentinel.Worker.ScanOnce
import Sentinel.Core.BackpressureRaces
import Sentinel.Ai.Client
import Sentinel.Ai.BudgetCap
import Sentinel.Worker.HostSpelling
import Sentinel.Recon.CandidateCap
import Sentinel.Core.RetryLoop
import Sentinel.Db.Fingerprint
import Sentinel.Api.RecipeAgreement
import Sentinel.Worker.CookieScope
import Sentinel.Worker.PersonaColumns
import Sentinel.Core.SkewedClocks
import Sentinel.Core.MasterKeys
import Sentinel.Api.KeyRotation
import Sentinel.Core.ScopeRuleSets
import Sentinel.Core.ScrubTheorems
import Sentinel.Crawler.CrawlBounds
import Sentinel.Py.RegexSearch
import Sentinel.Core.DestructiveWords
import Sentinel.Py.UrlFragment
import Sentinel.Crawler.SurfaceScope
import Sentinel.Worker.SurfaceAssets
import Sentinel.Trace.Fairness
import Sentinel.Core.AcquireLoop
import Sentinel.Infra.LicenceCheck
import Sentinel.Core.SecretOverlaps
import Sentinel.Recon.OutputLines
import Sentinel.Crawler.PathTemplates
import Sentinel.Api.Changes
import Sentinel.Api.Handover
import Sentinel.Api.Organizations
import Sentinel.Api.StoredSecrets
import Sentinel.Core.TargetIndependence
import Sentinel.Core.WaitTimes
import Sentinel.Crawler.NearestPages
import Sentinel.Worker.Degradation
import Sentinel.Worker.ScanSurface
import Sentinel.Ai.Overlap
import Sentinel.Crawler.PageBudget
import Sentinel.Durable.Ascent
import Sentinel.Platform.Gate
