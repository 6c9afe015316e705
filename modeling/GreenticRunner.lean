import GreenticRunner.FinMap
import GreenticRunner.Worklist
import GreenticRunner.CountedPath
import GreenticRunner.Resumption
import GreenticRunner.ResumptionLogic
import GreenticRunner.Json
import GreenticRunner.GraphModel
import GreenticRunner.GraphState
import GreenticRunner.GraphExecutor
import GreenticRunner.GraphValidProofs
import GreenticRunner.GraphPath
import GreenticRunner.GraphTrack
import GreenticRunner.GraphTrackRules
import GreenticRunner.GraphVisitProofs
import GreenticRunner.GraphRegionModel
import GreenticRunner.GraphBranchProofs
import GreenticRunner.GraphRegionProofs
import GreenticRunner.GraphTrunkProofs
import GreenticRunner.GraphSystemProofs
import GreenticRunner.GraphSafetyProofs
import GreenticRunner.GraphJoinProofs
import GreenticRunner.GraphApprovalProofs
import GreenticRunner.GraphDuplicateProofs
import GreenticRunner.GraphTerminalProofs
import GreenticRunner.GraphCrashProofs
import GreenticRunner.GraphWalkProofs
import GreenticRunner.GraphCapProofs
import GreenticRunner.StepModel
import GreenticRunner.StepProofs
import GreenticRunner.StepOutboxProofs
import GreenticRunner.StepRaceProofs
import GreenticRunner.StepStateProofs
import GreenticRunner.IngressModel
import GreenticRunner.IngressProofs
import GreenticRunner.Segments
import GreenticRunner.KeyModel
import GreenticRunner.KeyProofs
import GreenticRunner.ResumptionTrace
import GreenticRunner.ConversationModel
import GreenticRunner.ConversationProofs
import GreenticRunner.AgentModel
import GreenticRunner.AgentTrace
import GreenticRunner.AgentTurnProofs
import GreenticRunner.AgentSession
import GreenticRunner.AgentSessionProofs
import GreenticRunner.AgentLockProofs
import GreenticRunner.Transition
import GreenticRunner.KeyedSlots
import GreenticRunner.TurnLock
import GreenticRunner.ResponseListener
import GreenticRunner.TextCodec
import GreenticRunner.Markers
import GreenticRunner.IngressKeys
import GreenticRunner.Correlation
import GreenticRunner.ApprovalGate
import GreenticRunner.AgentNode
import GreenticRunner.FlowState
import GreenticRunner.Watchdog
import GreenticRunner.VersionedMap
import GreenticRunner.SessionHost
import GreenticRunner.SessionHostProofs
import GreenticRunner.FlowEngine
import GreenticRunner.FlowEffects
import GreenticRunner.TtlMap
import GreenticRunner.KvModel
import GreenticRunner.KvProofs
import GreenticRunner.AgentErrors
import GreenticRunner.PlaybookSource
import GreenticRunner.RecencyTable
import GreenticRunner.DispatchBridge
import GreenticRunner.DeliveryProofs
import GreenticRunner.DispatchServe
import GreenticRunner.DispatchLedgerProofs
import GreenticRunner.StorePull
import GreenticRunner.StorePullProofs
import GreenticRunner.ApprovalRail
import GreenticRunner.ApprovalShutdown
import GreenticRunner.PackResolve
import GreenticRunner.PackWatch
import GreenticRunner.PackPruneProofs
import GreenticRunner.ParkedCallProofs
import GreenticRunner.TruncationProofs
import GreenticRunner.ParkedAnswerProofs
import GreenticRunner.ToolListing
import GreenticRunner.ToolNames
import GreenticRunner.GraphSettleProofs
import GreenticRunner.RunAudit
import GreenticRunner.AwaitMarkers
import GreenticRunner.CardSubmit
import GreenticRunner.Templating
import GreenticRunner.LlmStream
import GreenticRunner.AssocMap
import GreenticRunner.MemoryProvider
import GreenticRunner.RunTrace
import GreenticRunner.UserLedger
import GreenticRunner.StateKeys
import GreenticRunner.GateOutcome
import GreenticRunner.KeyedSerializer
import GreenticRunner.ErrorRoutes
import GreenticRunner.FailureLift
import GreenticRunner.EntryDelivery
import GreenticRunner.MemoryCache
import GreenticRunner.DiskCache
import GreenticRunner.DiskPrune
import GreenticRunner.CacheRace
import GreenticRunner.ReplyEgress
import GreenticRunner.SerdeFields
import GreenticRunner.ParkRecord
import GreenticRunner.TextScan
import GreenticRunner.Redaction
import GreenticRunner.UrlRedaction
import GreenticRunner.ErrorAttempts
import GreenticRunner.StepPath
import GreenticRunner.AddressGuard
import GreenticRunner.CardNav
import GreenticRunner.AttachmentText
import GreenticRunner.Attachments
import GreenticRunner.FlowLoad
import GreenticRunner.Memo
import GreenticRunner.ToolSession
import GreenticRunner.PackLock
import GreenticRunner.DecimalDigits
import GreenticRunner.PgNumeric
import GreenticRunner.TelemetryScan
import GreenticRunner.History
import GreenticRunner.OAuthTokens
import GreenticRunner.A2aContinuation
import GreenticRunner.SqlGate
import GreenticRunner.WorkerUsage
import GreenticRunner.Singleflight
