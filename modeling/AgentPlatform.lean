import AgentPlatform.Store.ExactlyOnce
import AgentPlatform.Store.WaitsFinish
import AgentPlatform.Store.Hints
import AgentPlatform.Store.Replay
import AgentPlatform.Server.UpdateStream
import AgentPlatform.Runtime.OneJob
import AgentPlatform.Runtime.FailureRecords
import AgentPlatform.Harness.Conversation
import AgentPlatform.Harness.PatchChunks
import AgentPlatform.Harness.PatchCalls
import AgentPlatform.Harness.PatchContexts
import AgentPlatform.Harness.PromptPrefix
import AgentPlatform.Store.ReceiptRuns
import AgentPlatform.Contracts.MessageWire
import AgentPlatform.Contracts.OperationWire
import AgentPlatform.Harness.OutputPaging
import AgentPlatform.Harness.RetainedMessages
import AgentPlatform.Harness.CompactionBoundary
import AgentPlatform.Harness.ContextEstimate
import AgentPlatform.Harness.UnknownRetries
import AgentPlatform.Harness.ActionIds
import AgentPlatform.Harness.ActionRuns
import AgentPlatform.Harness.ShellSessions
import AgentPlatform.Harness.HeldSessions
import AgentPlatform.Harness.OutputReach
import AgentPlatform.Runtime.CountedFailures
import AgentPlatform.Runtime.RetryBudget
import AgentPlatform.Runtime.CommitFaults
import AgentPlatform.Store.Idempotence
import AgentPlatform.Runtime.ExecutionIdentity
import AgentPlatform.Harness.ToolArguments
import AgentPlatform.Lib.Base64Url
import AgentPlatform.Lib.KeysetPaging
import AgentPlatform.Lib.Rfc3339
import AgentPlatform.Server.Cursors
import AgentPlatform.Server.Listings
import AgentPlatform.Contracts.EventWire
import AgentPlatform.Harness.CancellationOrders
import AgentPlatform.Lib.Sweep
import AgentPlatform.Runtime.EndedOperations
import AgentPlatform.Runtime.Sweeping
import AgentPlatform.Runtime.WaitExpiration
import AgentPlatform.Store.HandedOut
import AgentPlatform.Runtime.Preparation
import AgentPlatform.Runtime.BasicCodex
import AgentPlatform.Harness.Contexts
import AgentPlatform.Runtime.DeployedSessions
