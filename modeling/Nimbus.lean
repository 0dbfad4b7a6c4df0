import Nimbus.Lib.Machine
import Nimbus.Lib.Prog
import Nimbus.Lib.Table
import Nimbus.Lib.TxStore
import Nimbus.Lib.Pool
import Nimbus.Core.Uuid
import Nimbus.Core.Exceptions
import Nimbus.Core.Messaging
import Nimbus.Core.Database
import Nimbus.Core.DatabaseLaws
import Nimbus.Core.Statements
import Nimbus.Modules.Inventory
import Nimbus.Modules.Orders
import Nimbus.Modules.Payments
import Nimbus.Saga.Shop
import Nimbus.Saga.Stock
import Nimbus.Saga.Orders
import Nimbus.Saga.Conservation
import Nimbus.Saga.PaymentEvents
import Nimbus.Saga.IdempotencyLock
import Nimbus.Saga.Closure
import Nimbus.Workers.OutboxRelay
import Nimbus.Workers.RelayRuns
import Nimbus.Workers.RelayLifecycle
import Nimbus.Workers.RelayMarking
import Nimbus.Core.Consumer
import Nimbus.Core.Offsets
import Nimbus.Core.Cache
import Nimbus.Core.Dedupe
import Nimbus.Core.Redelivery
import Nimbus.Core.Groups
import Nimbus.Modules.Abuse
import Nimbus.Modules.CacheOutage
import Nimbus.Core.ErrorResponses
import Nimbus.Modules.Security
import Nimbus.Saga.OptimisticLock
import Nimbus.Saga.Placement
import Nimbus.Saga.Compensation
import Nimbus.Saga.PaymentPayload
import Nimbus.Workers.RelayOrder
import Nimbus.Core.ContentHash
import Nimbus.Core.CanonicalForm
import Nimbus.Core.Breaker
import Nimbus.Core.BreakerRuns
import Nimbus.Lib.Expiring
import Nimbus.Modules.LockOwnership
import Nimbus.Modules.SlidingWindow
import Nimbus.Saga.PaymentTruth
import Nimbus.Core.Steps
import Nimbus.Saga.PaymentFailure
import Nimbus.Saga.Retries
import Nimbus.Saga.StatusChecks
import Nimbus.Modules.Fingerprint
import Nimbus.Saga.PayloadShapes
import Nimbus.Workers.RelayCounts
import Nimbus.Saga.OrderTotals
import Nimbus.Core.DriverErrors
import Nimbus.Lib.Generators
import Nimbus.Core.Sessions
import Nimbus.Lib.Tasks
import Nimbus.Workers.WorkerLoops
import Nimbus.Workers.Shutdown
import Nimbus.Core.Urls
import Nimbus.Core.TestIsolation
import Nimbus.Modules.Users
import Nimbus.Hooks.CommitMessages
import Nimbus.Core.RedisUrls
import Nimbus.Lib.Potential
import Nimbus.Workers.RelayProgress
import Nimbus.Workers.RelayStats
import Nimbus.Lib.Noninterference
import Nimbus.Modules.SharedRedis
import Nimbus.Modules.Gateway
import Nimbus.Modules.FakeRedis
import Nimbus.Saga.Pipeline
import Nimbus.Saga.Books
import Nimbus.Modules.Accounts
