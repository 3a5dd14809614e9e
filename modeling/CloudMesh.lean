import CloudMesh.CircuitBreaker.HalfOpen
import CloudMesh.CircuitBreaker.Lifetime
import CloudMesh.CircuitBreaker.CoolDown
import CloudMesh.CircuitBreaker.Evidence
import CloudMesh.Auth.ApiKeys
import CloudMesh.Auth.Refresh
import CloudMesh.Auth.Dashboard
import CloudMesh.Auth.Passwords
import CloudMesh.Auth.SessionCrypto
import CloudMesh.Auth.Session
import CloudMesh.Gateway.Tenants
import CloudMesh.Gateway.Idempotency
import CloudMesh.Gateway.Billing
import CloudMesh.Gateway.Admission
import CloudMesh.Gateway.Reuse
import CloudMesh.Gateway.Conversations
import CloudMesh.Gateway.Followers
import CloudMesh.Gateway.Claims
import CloudMesh.Gateway.StreamOptions
import CloudMesh.Gateway.FeatureFlags
import CloudMesh.Gateway.AbSplit
import CloudMesh.Gateway.Resolution
import CloudMesh.Gateway.ProviderStats
import CloudMesh.Gateway.Costs
import CloudMesh.Gateway.Lock
import CloudMesh.Gateway.Samples
import CloudMesh.Gateway.PlatformEvents
import CloudMesh.Sdk.Arrival
import CloudMesh.Sdk.ChatStream
import CloudMesh.Sdk.RetryAfter
import CloudMesh.Webhooks.Deliver
import CloudMesh.Webhooks.Signatures
import CloudMesh.Webhooks.Fanout
import CloudMesh.Webhooks.Schedule
import CloudMesh.Webhooks.Addresses
import CloudMesh.Jobs.Completed
import CloudMesh.Jobs.Recovery
import CloudMesh.Jobs.Watch
import CloudMesh.Jobs.Subscriber
import CloudMesh.Outbox.Poller
import CloudMesh.Outbox.Progress
import CloudMesh.Billing.Invoices
import CloudMesh.Billing.Analytics
import CloudMesh.Billing.Stripe
import CloudMesh.RateLimiter.Windows
import CloudMesh.RateLimiter.Expiry
import CloudMesh.RateLimiter.Histories
import CloudMesh.RateLimiter.FixedWindow
import CloudMesh.Events.Audit
import CloudMesh.Events.Classification
import CloudMesh.Events.Pipeline
