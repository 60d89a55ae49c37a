import BreadMind.Agent.Cooldowns
import BreadMind.Agent.CoreAgent
import BreadMind.Agent.SafetyRules
import BreadMind.Agent.ToolGates
import BreadMind.AgentLoop.BlockedPatterns
import BreadMind.AgentLoop.CompactRuns
import BreadMind.AgentLoop.Streaming
import BreadMind.AgentLoop.ToolBatches
import BreadMind.Auth.Invites
import BreadMind.Auth.Sessions
import BreadMind.Backfill.Citations
import BreadMind.Backfill.NotionTexts
import BreadMind.Backfill.Redaction
import BreadMind.Coding.JobExecutor
import BreadMind.Coding.LogDelivery
import BreadMind.Core.CircuitBreaker
import BreadMind.Core.TaskTracker
import BreadMind.Flow.Completion
import BreadMind.Flow.EventBus
import BreadMind.Flow.Mutations
import BreadMind.Flow.Retries
import BreadMind.Flow.TopologicalOrder
import BreadMind.Knowledge.Confluence
import BreadMind.Knowledge.PageBudget
import BreadMind.Knowledge.QueryPipeline
import BreadMind.Mcp.Client
import BreadMind.Memory.Collector
import BreadMind.Memory.SessionBounds
import BreadMind.Memory.Shrinking
import BreadMind.Memory.Trimming
import BreadMind.Messenger.Deduplication
import BreadMind.Messenger.DirectMessages
import BreadMind.Messenger.Dispatching
import BreadMind.Messenger.DueMessages
import BreadMind.Messenger.EditHistory
import BreadMind.Messenger.IdempotentPosting
import BreadMind.Messenger.Isolation
import BreadMind.Messenger.Pagination
import BreadMind.Messenger.RateLimit
import BreadMind.Messenger.StreamDeltas
import BreadMind.Messenger.VisibleCache
import BreadMind.Messenger.WakeUps
import BreadMind.Network.Replay
import BreadMind.Network.Results
import BreadMind.Network.TokenManager
import BreadMind.Orchestration.Blocking
import BreadMind.Orchestration.Fallback
import BreadMind.Relay.ClientMessages
import BreadMind.Relay.Convergence
import BreadMind.Relay.Lifetimes
import BreadMind.Relay.Revocation
import BreadMind.Relay.Subscriptions
import BreadMind.Sdui.SettingsSchema
import BreadMind.Settings.Approvals
import BreadMind.Settings.Confidentiality
import BreadMind.Settings.Serialization
import BreadMind.Storage.CredentialVault
import BreadMind.Tasks.Resumption
import BreadMind.Plugins.LoadOrder
import BreadMind.Tools.DependencyPlans
import BreadMind.Tools.FileEditSafety
import BreadMind.Tools.RegistryRuns
import BreadMind.Tools.ServerNames
import BreadMind.Web.Idempotency
import BreadMind.Webhook.PipelineExecutor
