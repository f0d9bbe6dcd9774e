import AgentDesk.OriginIdentity
import AgentDesk.RosterRevocation
import AgentDesk.DeliveryAttempts
import AgentDesk.OutboundConfinement
import AgentDesk.Containers
import AgentDesk.PersistBeforeRoute
import AgentDesk.TurnOutcomes
import AgentDesk.GatewayKey
import AgentDesk.Sequence
import AgentDesk.SessionIsolation
import AgentDesk.ApprovalAuthority
import AgentDesk.StickyEngage
import AgentDesk.OptInCards
import AgentDesk.InboundRetries
import AgentDesk.WokenContainers
import AgentDesk.TaskSeries
import AgentDesk.RecurringSeries
import AgentDesk.Senders
import AgentDesk.TurnIdentity
import AgentDesk.Organizations
import AgentDesk.Approvers
import AgentDesk.RosterInvites
import AgentDesk.ProxyTokens
import AgentDesk.Binary64
import AgentDesk.ContainerTokens
import AgentDesk.JsonNumbers
import AgentDesk.JsonRoundTrip
import AgentDesk.SigningProxy
import AgentDesk.DueTriggers
import AgentDesk.DueWork
import AgentDesk.QueuedTurns
import AgentDesk.StrandedClaims
import AgentDesk.EnforcedRouting
import AgentDesk.JsonObjects
import AgentDesk.OpenAITurn
import AgentDesk.PushedPrompts
import AgentDesk.ReplayedTools
import AgentDesk.ResumedTurns
import AgentDesk.EventRows
import AgentDesk.FeishuInbound
import AgentDesk.AdmissionQueue
import AgentDesk.RosterAccounts
import AgentDesk.RosterRetries
import AgentDesk.DeliveredRows
import AgentDesk.DelegationDepth
import AgentDesk.DistinctKeys
import AgentDesk.QuestionClicks
import AgentDesk.SessionArchive
import AgentDesk.MessageEdits
import AgentDesk.TurnRouting
import AgentDesk.OrgAdoption
import AgentDesk.CommandGate
import AgentDesk.GrantTable
import AgentDesk.ProgressStatus
import AgentDesk.OriginGroup
import AgentDesk.ScopeRetention
import AgentDesk.PosixPath
import AgentDesk.LlmConfig
import AgentDesk.LlmAgreement
import AgentDesk.SelfModCards
import AgentDesk.RateLedger
import AgentDesk.Membership
import AgentDesk.SessionStability
import AgentDesk.JsonCoercion
import AgentDesk.Formatter
import AgentDesk.UntypedContent
import AgentDesk.Markup
import AgentDesk.JsonMarkup
import AgentDesk.PromptMarkup
import AgentDesk.FinalText
import AgentDesk.FileTree
import AgentDesk.SessionFiles
import AgentDesk.AttachmentScope
import AgentDesk.FileForwarding
import AgentDesk.GrantSlots
import AgentDesk.CompactionBoundary
import AgentDesk.ContinuationCycles
import AgentDesk.ChatMessages
import AgentDesk.StreamedResponses
import AgentDesk.RoutingBounds
import AgentDesk.RoutingAttempts
import AgentDesk.RosterWindows
import AgentDesk.ContainerArgs
import AgentDesk.MountSecurity
import AgentDesk.StateAdapter
import AgentDesk.OutboundLanguage
import AgentDesk.MemoryFence
import AgentDesk.FairAdmission
import AgentDesk.RateLimiter
import AgentDesk.ToolNames
import AgentDesk.DelegationStaging
import AgentDesk.ClassificationOutcomes
import AgentDesk.BridgeClicks
import AgentDesk.Chunks
import AgentDesk.MessageChunks
import AgentDesk.Calendar
import AgentDesk.ZonedTimes
import AgentDesk.CanonicalJson
import AgentDesk.Admissions
import AgentDesk.CredentialRequests
import AgentDesk.CircuitBreaker
