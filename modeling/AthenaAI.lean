import AthenaAI.Agents.MalformedCalls
import AthenaAI.Agents.MockRun
import AthenaAI.Context.Turns
import AthenaAI.Core.Lifecycle
import AthenaAI.Gateway.AgentNetwork
import AthenaAI.Gateway.MockChat
import AthenaAI.Gateway.Progress
import AthenaAI.Gateway.Startup
import AthenaAI.Memory.Acceptance
import AthenaAI.Memory.ConcurrentSessions
import AthenaAI.Memory.Facts
import AthenaAI.Memory.Forgetting
import AthenaAI.Memory.Metadata
import AthenaAI.Memory.Recency
import AthenaAI.Memory.RecentWindow
import AthenaAI.Memory.Snapshots
import AthenaAI.Memory.SummaryConcurrent
import AthenaAI.Models.Registry
import AthenaAI.Rag.Concurrent
import AthenaAI.Rag.Edges
import AthenaAI.Rag.IngestConcurrent
import AthenaAI.Rag.MockEmbedder
import AthenaAI.Rag.Search
import AthenaAI.Resilience.CircuitBreaker.Cooldown
import AthenaAI.Resilience.CircuitBreaker.Probes
import AthenaAI.Resilience.CircuitBreaker.Trips
import AthenaAI.Resilience.RateLimiter
import AthenaAI.Resilience.RetryBreaker
import AthenaAI.Resilience.Timeout
import AthenaAI.Routing.Failover
import AthenaAI.Tools.Validator
