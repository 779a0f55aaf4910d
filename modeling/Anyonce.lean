import Anyonce.Core.Program
import Anyonce.Core.Bisimulation
import Anyonce.Core.Interleaving
import Anyonce.Core.Fencing
import Anyonce.Core.Table
import Anyonce.Core.Decimal
import Anyonce.Core.Json
import Anyonce.Core.Base64
import Anyonce.Redis.Server
import Anyonce.Types
import Anyonce.Key
import Anyonce.Claim.Model
import Anyonce.Claim.Store
import Anyonce.Claim.Runs
import Anyonce.Claim.MutualExclusion
import Anyonce.Claim.Stability
import Anyonce.Claim.Provenance
import Anyonce.Store.Memory
import Anyonce.Go.Types
import Anyonce.Go.Memory
import Anyonce.Store.MemoryRuns
import Anyonce.Store.Codec
import Anyonce.Sql.Statements
import Anyonce.Sql.Programs
import Anyonce.Sql.DurableObject
import Anyonce.Sql.Concurrency
import Anyonce.Sql.Linearizability
import Anyonce.Sql.Truthfulness
import Anyonce.Engine.Execute
import Anyonce.Engine.Settlement
import Anyonce.Go.Engine
import Anyonce.Go.Door
import Anyonce.Go.SqlStore
import Anyonce.Go.Settlement
import Anyonce.Engine.UserFailures
import Anyonce.Engine.Parity
import Anyonce.Engine.System
import Anyonce.Engine.Provenance
import Anyonce.Sql.Takeover
import Anyonce.Sql.Refinement
import Anyonce.Store.Mirror
import Anyonce.Redis.Store
import Anyonce.Redis.Refinement
import Anyonce.DynamoDb.Table
import Anyonce.Core.Served
import Anyonce.DynamoDb.Contract
import Anyonce.DynamoDb.Store
import Anyonce.DynamoDb.Refinement
import Anyonce.Core.Unicode
import Anyonce.KeyParser
import Anyonce.Go.Key
import Anyonce.Core.Isolation
import Anyonce.Store.Isolation
import Anyonce.Store.RoundTrip
import Anyonce.Core.JsonText
import Anyonce.Core.NumberText
import Anyonce.Core.Utf8
import Anyonce.Jcs
import Anyonce.Go.Json
import Anyonce.Go.Jcs
import Anyonce.Go.NumberLayout
import Anyonce.Core.Separator
import Anyonce.Core.FirstMatch
import Anyonce.DynamoDb.ItemKeys
import Anyonce.Http.Scope
import Anyonce.Go.Url
import Anyonce.Go.Scope
import Anyonce.Queue.Options
import Anyonce.Go.QueueOptions
import Anyonce.Webhook.Scope
import Anyonce.Queue.Namespaces
import Anyonce.Queue.KeyParity
import Anyonce.Fingerprint
import Anyonce.Claim.Evidence
import Anyonce.Core.Contract
import Anyonce.Queue.Door
import Anyonce.Go.Queue
import Anyonce.Queue.Acknowledgement
import Anyonce.Queue.Warning
import Anyonce.Go.DynamoDb
import Anyonce.Go.DynamoDbContract
import Anyonce.Sql.Sweep
import Anyonce.Store.NativeExpiry
import Anyonce.Go.Header
import Anyonce.Http.RepeatedKey
import Anyonce.Go.StandardWebhooks
import Anyonce.Webhook.SignedContent
import Anyonce.Go.RowCodec
import Anyonce.Store.MetadataParity
import Anyonce.Go.ByteLimits
import Anyonce.Go.Capture
import Anyonce.Go.Hijack
import Anyonce.Go.ResponseWriter
import Anyonce.Go.Replay
import Anyonce.Conformance.Schedule
import Anyonce.Conformance.Verdict
import Anyonce.Core.FloatText
import Anyonce.Webhook.Agreement
import Anyonce.Http.Streaming
import Anyonce.Http.Discipline
import Anyonce.Core.Guarded
import Anyonce.Http.Order
import Anyonce.Webhook.Gate
import Anyonce.Core.Gate
import Anyonce.Go.Receiver
import Anyonce.Webhook.Verification
