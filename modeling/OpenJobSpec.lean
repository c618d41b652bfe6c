import OpenJobSpec.Attest.HostileReceipts
import OpenJobSpec.Attest.NoneAttestor
import OpenJobSpec.Attest.Receipt
import OpenJobSpec.Attest.ReceiptBinding
import OpenJobSpec.Attest.ReceiptVerifier
import OpenJobSpec.Client.AtomicBatch
import OpenJobSpec.Client.BatchBarrier
import OpenJobSpec.Client.BatchEnqueue
import OpenJobSpec.Client.BatchItemSteps
import OpenJobSpec.Client.EnqueueAgreement
import OpenJobSpec.Client.EnqueueMiddleware
import OpenJobSpec.Client.RequestGrammar
import OpenJobSpec.Client.RequestValidation
import OpenJobSpec.Client.SingleBatch
import OpenJobSpec.Client.SingleEnqueue
import OpenJobSpec.Client.SyncRunner
import OpenJobSpec.Client.SyncRunnerInvariant
import OpenJobSpec.Client.SyncRunnerProgress
import OpenJobSpec.Client.SyncRunnerRuns
import OpenJobSpec.Client.SyncRunnerShutdown
import OpenJobSpec.Client.SyncRunnerThreads
import OpenJobSpec.Client.TerminalReinvocation
import OpenJobSpec.Crypto.Encryption
import OpenJobSpec.Crypto.EnqueueRetry
import OpenJobSpec.Crypto.KeyRotation
import OpenJobSpec.Crypto.LocalRetry
import OpenJobSpec.Crypto.RoundTrip
import OpenJobSpec.Durable.Context
import OpenJobSpec.Durable.FailClosed
import OpenJobSpec.Durable.HandledFailure
import OpenJobSpec.Durable.LoadedLog
import OpenJobSpec.Durable.Overlap
import OpenJobSpec.Durable.OverlapReplay
import OpenJobSpec.Durable.Paths
import OpenJobSpec.Durable.Program
import OpenJobSpec.Durable.Replay
import OpenJobSpec.Durable.ReplayLog
import OpenJobSpec.Durable.Rounds
import OpenJobSpec.Errors.Catalog
import OpenJobSpec.Errors.Hierarchy
import OpenJobSpec.Errors.RateLimitHeaders
import OpenJobSpec.Errors.ResponseMapper
import OpenJobSpec.Foundation.ContextVariables
import OpenJobSpec.Foundation.CursorPaging
import OpenJobSpec.Foundation.ExceptRules
import OpenJobSpec.Foundation.HalfEven
import OpenJobSpec.Foundation.IndexedUpdates
import OpenJobSpec.Foundation.ListedGraph
import OpenJobSpec.Foundation.Observers
import OpenJobSpec.Foundation.PrefixCode
import OpenJobSpec.Foundation.Progress
import OpenJobSpec.Foundation.RetryLoop
import OpenJobSpec.Foundation.Runs
import OpenJobSpec.Foundation.Serving
import OpenJobSpec.Foundation.Simulation
import OpenJobSpec.Foundation.SpacedGrants
import OpenJobSpec.Foundation.UrlPath
import OpenJobSpec.Foundation.WordLanguages
import OpenJobSpec.Grpc.ArgumentsRoundTrip
import OpenJobSpec.Grpc.CursorPages
import OpenJobSpec.Grpc.DurationMapping
import OpenJobSpec.Grpc.EnqueueAgreement
import OpenJobSpec.Grpc.EnqueueFields
import OpenJobSpec.Grpc.EnqueueProjection
import OpenJobSpec.Grpc.ErrorParity
import OpenJobSpec.Grpc.Heartbeat
import OpenJobSpec.Grpc.IntegerFields
import OpenJobSpec.Grpc.JobDecoding
import OpenJobSpec.Grpc.JobMessage
import OpenJobSpec.Grpc.JobProjection
import OpenJobSpec.Grpc.Paging
import OpenJobSpec.Grpc.ProjectedJob
import OpenJobSpec.Grpc.ProtobufTime
import OpenJobSpec.Grpc.ProtobufValue
import OpenJobSpec.Grpc.QueueStats
import OpenJobSpec.Grpc.ResultDelivery
import OpenJobSpec.Grpc.RpcErrors
import OpenJobSpec.Grpc.SignedDurations
import OpenJobSpec.Grpc.Transport
import OpenJobSpec.Http.ContentNegotiation
import OpenJobSpec.Http.EnqueueIdempotency
import OpenJobSpec.Http.ErrorTaxonomy
import OpenJobSpec.Http.IdentifierSegments
import OpenJobSpec.Http.RateLimiter
import OpenJobSpec.Http.ReplaySafety
import OpenJobSpec.Http.ResourcePaths
import OpenJobSpec.Http.RetryPolicy
import OpenJobSpec.Http.SingleEffect
import OpenJobSpec.Http.Transport
import OpenJobSpec.Python.Access
import OpenJobSpec.Python.Base64
import OpenJobSpec.Python.Decimal
import OpenJobSpec.Python.DecimalRounding
import OpenJobSpec.Python.DecimalText
import OpenJobSpec.Python.Equality
import OpenJobSpec.Python.Json
import OpenJobSpec.Python.JsonText
import OpenJobSpec.Python.JsonValue
import OpenJobSpec.Python.Number
import OpenJobSpec.Python.PyText
import OpenJobSpec.Python.Text
import OpenJobSpec.Python.TextReader
import OpenJobSpec.Python.ZonedDateTime
import OpenJobSpec.Retry.Backoff
import OpenJobSpec.Retry.CappedDelays
import OpenJobSpec.Retry.DurationGrammar
import OpenJobSpec.Retry.DurationParsers
import OpenJobSpec.Serverless.AwsLambda
import OpenJobSpec.Serverless.AzureFunctions
import OpenJobSpec.Serverless.InvocationBridge
import OpenJobSpec.Serverless.JobEvents
import OpenJobSpec.Serverless.MalformedEvents
import OpenJobSpec.Serverless.SqsBatch
import OpenJobSpec.Sse.BoundedSession
import OpenJobSpec.Sse.EventStream
import OpenJobSpec.Sse.FrameParser
import OpenJobSpec.Sse.Reconnection
import OpenJobSpec.Sse.Resumption
import OpenJobSpec.Sse.StreamEvents
import OpenJobSpec.Sse.SubscriptionSession
import OpenJobSpec.Testing.Assertions
import OpenJobSpec.Testing.Drain
import OpenJobSpec.Testing.DrainLaw
import OpenJobSpec.Testing.FakeMode
import OpenJobSpec.Testing.FakeStore
import OpenJobSpec.Testing.FakeTransport
import OpenJobSpec.Testing.Ledger
import OpenJobSpec.Testing.TerminalStates
import OpenJobSpec.Wire.DecoderClosure
import OpenJobSpec.Wire.Job
import OpenJobSpec.Wire.JobAcceptance
import OpenJobSpec.Wire.JobRequest
import OpenJobSpec.Wire.OptionalFields
import OpenJobSpec.Wire.PolicyCodecs
import OpenJobSpec.Wire.Queue
import OpenJobSpec.Wire.WireValidation
import OpenJobSpec.Wire.Workflow
import OpenJobSpec.Worker.CompletionReporter
import OpenJobSpec.Worker.DeferredSignals
import OpenJobSpec.Worker.ExecutionLease
import OpenJobSpec.Worker.ExecutionRegistry
import OpenJobSpec.Worker.ExecutionRetry
import OpenJobSpec.Worker.LeaseAdmission
import OpenJobSpec.Worker.LeaseSafety
import OpenJobSpec.Worker.LeasedRun
import OpenJobSpec.Worker.Lifecycle
import OpenJobSpec.Worker.MetricsMiddleware
import OpenJobSpec.Worker.PermitConservation
import OpenJobSpec.Worker.ProcessJob
import OpenJobSpec.Worker.RetrySleep
import OpenJobSpec.Worker.Runtime
import OpenJobSpec.Worker.SignalCustodian
import OpenJobSpec.Worker.SignalOwnership
import OpenJobSpec.Worker.SurplusLeases
import OpenJobSpec.Worker.Termination
import OpenJobSpec.Worker.WorkerFleet
import OpenJobSpec.Workflow.Builders
import OpenJobSpec.Workflow.ProjectedSteps
import OpenJobSpec.Workflow.Submission
import OpenJobSpec.Workflow.WellFormed
