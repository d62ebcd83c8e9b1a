import SentinelFlow.Lib.Machine
import SentinelFlow.Lib.Dict
import SentinelFlow.Lib.Timed
import SentinelFlow.Lib.Separator
import SentinelFlow.AlertPolicy
import SentinelFlow.PolicyRuns
import SentinelFlow.Retry
import SentinelFlow.Core.Evaluators
import SentinelFlow.Config.Parser
import SentinelFlow.Config.Dump
import SentinelFlow.Config.Settings
import SentinelFlow.Core.LiveRules
import SentinelFlow.Data.HttpApi
import SentinelFlow.Runtime.Resilience
import SentinelFlow.Runtime.BreakerCalls
import SentinelFlow.Runtime.Opening
import SentinelFlow.Runtime.Probes
import SentinelFlow.Engine.Records
import SentinelFlow.Engine.Registry
import SentinelFlow.Engine.Reports
import SentinelFlow.Engine.BreakerRuns
import SentinelFlow.Engine.Tripping
import SentinelFlow.Engine.Counters
import SentinelFlow.Engine.CheckObjects
import SentinelFlow.Engine.OwnResilience
import SentinelFlow.Engine.Delivery
import SentinelFlow.Engine.Dispatching
import SentinelFlow.Engine.Deployment
import SentinelFlow.Engine.Rules
import SentinelFlow.Engine.Handlers
import SentinelFlow.Engine.Isolation
import SentinelFlow.Resilience.CircuitBreaker
import SentinelFlow.Resilience.SameRule
import SentinelFlow.Handlers.Slack
import SentinelFlow.Handlers.SlackRuns
import SentinelFlow.Handlers.Webhook
import SentinelFlow.PolicyPurges
import SentinelFlow.Engine.Scheduler
import SentinelFlow.Engine.Failures
import SentinelFlow.Engine.RegistryRuns
import SentinelFlow.Engine.Permits
import SentinelFlow.Handlers.SlackAttempts
import SentinelFlow.Data.Fetching
import SentinelFlow.Config.Schema
import SentinelFlow.Config.Loader
import SentinelFlow.Engine.EnforcedTimeouts
import SentinelFlow.PolicyMaps
import SentinelFlow.Analytics.Anomalies
import SentinelFlow.Data.Positions
import SentinelFlow.Lib.Ordered
import SentinelFlow.Utils.Logger
import SentinelFlow.Engine.Progress
import SentinelFlow.Engine.Service
import SentinelFlow.Engine.Stopping
import SentinelFlow.Engine.DaemonBreakers
import SentinelFlow.Main
import SentinelFlow.Engine.Capacity
import SentinelFlow.Engine.Provenance
import SentinelFlow.Engine.History
import SentinelFlow.Engine.Bounds
import SentinelFlow.Engine.Alerting
import SentinelFlow.Engine.Posting
import SentinelFlow.Engine.Reminders
import SentinelFlow.Config.Reload
