import Disburse.Library.Machine
import Disburse.Library.RunRules
import Disburse.Library.AtomicMax
import Disburse.Library.Unwinding
import Disburse.Library.Bisimulation
import Disburse.Library.Counter
import Disburse.Library.TimedLog
import Disburse.Library.Rank
import Disburse.Library.Rounding
import Disburse.Library.Binary64
import Disburse.Library.Smoothing
import Disburse.Library.Lru
import Disburse.Library.Recency
import Disburse.Library.Base58
import Disburse.Library.Json
import Disburse.Library.JsonText
import Disburse.Library.KeyScan
import Disburse.Library.Exposition
import Disburse.Library.RawLabels
import Disburse.Library.Replace
import Disburse.Library.FormUrlencoded
import Disburse.External
import Disburse.Config
import Disburse.Error
import Disburse.Upstream.Client
import Disburse.Upstream.Refusal
import Disburse.Upstream.Probes
import Disburse.Upstream.Sections
import Disburse.Routing.Stats
import Disburse.Routing.SendWindow
import Disburse.Routing.ErrorWindow
import Disburse.Routing.Pool
import Disburse.Routing.Router
import Disburse.Routing.Hysteresis
import Disburse.Routing.Runs
import Disburse.Routing.Steadiness
import Disburse.Routing.Select
import Disburse.Routing.Admission
import Disburse.Routing.Leader
import Disburse.Routing.LeaderTable
import Disburse.Routing.Replacement
import Disburse.Routing.Optimal
import Disburse.Routing.Availability
import Disburse.Routing.Failure
import Disburse.Routing.Laggard
import Disburse.Routing.Averages
import Disburse.Upstream.Health
import Disburse.Upstream.Tip
import Disburse.Solana.Transaction
import Disburse.Solana.Truncation
import Disburse.Solana.Canonical
import Disburse.Solana.Cache
import Disburse.Solana.MaxMap
import Disburse.Proxy.Metrics
import Disburse.Proxy.Server
import Disburse.Proxy.Freshness
import Disburse.Proxy.LaggingVote
import Disburse.Proxy.BlockhashAge
import Disburse.Proxy.Guardrail
import Disburse.Proxy.Attempt
import Disburse.Proxy.Body
import Disburse.Proxy.Redaction
import Disburse.Proxy.RedactedUrl
import Disburse.Proxy.ErrorScan
import Disburse.Proxy.Forward
import Disburse.Proxy.Reply
import Disburse.Proxy.Retry
import Disburse.Proxy.Batch
import Disburse.Proxy.System
import Disburse.Proxy.Startup
import Disburse.Proxy.Replay
import Disburse.Proxy.ProbeSlot
import Disburse.Proxy.Verification
import Disburse.Proxy.Traffic
import Disburse.Proxy.Interleaving
import Disburse.Proxy.CacheCalls
import Disburse.Proxy.Accounting
import Disburse.Proxy.Page
import Disburse.Proxy.Histogram
import Disburse.Proxy.Scrape
import Disburse.Proxy.Progress
import Disburse.Proxy.Front
import Disburse.Proxy.Calls
import Disburse.Proxy.Answers
import Disburse.Proxy.AccessLog
import Disburse.Proxy.Provenance
import Disburse.Proxy.Targets
import Disburse.Proxy.Spread
import Disburse.Proxy.Status
import Disburse.Proxy.HealthPage
import Disburse.Proxy.Series
import Disburse.Proxy.OrphanedProbe
import Disburse.Proxy.Recovery
import Disburse.Proxy.Settled
import Disburse.Proxy.Retrip
import Disburse.Proxy.Cooldown
import Disburse.Proxy.Agreement
import Disburse.Proxy.Rejection
import Disburse.Proxy.Remembered
