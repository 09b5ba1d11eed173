import WittyService.AccessPolicy
import WittyService.AgentStatusTruth
import WittyService.AnswerOrigin
import WittyService.ArchiveReads
import WittyService.BackportAccounts
import WittyService.BackportAttribution
import WittyService.BackportBudget
import WittyService.BackportRecovery
import WittyService.CacheExclusion
import WittyService.CallPairing
import WittyService.CommitRoundTrip
import WittyService.ConnectionLiveness
import WittyService.CvekitLogs
import WittyService.DockerTruth
import WittyService.DshAborts
import WittyService.FrozenReports
import WittyService.GroupStops
import WittyService.HarnessLifetime
import WittyService.HonestSends
import WittyService.InboundDedup
import WittyService.InstancePersistence
import WittyService.LegacyDatabases
import WittyService.MessageEventOrder
import WittyService.MessagePages
import WittyService.MessageRendering
import WittyService.MessageSpelling
import WittyService.MigrationPreservation
import WittyService.OpenClawFrames
import WittyService.OpenClawThinking
import WittyService.OpenCodeConfig
import WittyService.OpenCodeSkills
import WittyService.PlaceholderOwner
import WittyService.PromptBlock
import WittyService.QqTurns
import WittyService.ReplyQuota
import WittyService.RowActions
import WittyService.RuntimeSessions
import WittyService.SandboxOwnership
import WittyService.ScheduledExclusion
import WittyService.ScheduledJobs
import WittyService.ScheduledRecords
import WittyService.SegmentDecoding
import WittyService.SessionOwnership
import WittyService.SessionSocket
import WittyService.SingleAttempt
import WittyService.SingleConnection
import WittyService.SseEvents
import WittyService.StartupRecovery
import WittyService.StateEventEnds
import WittyService.StreamActivity
import WittyService.StreamErrorAgreement
import WittyService.StreamReconnect
import WittyService.TemplateMcp
import WittyService.TitleResolution
import WittyService.TurnConnections
import WittyService.TurnOrder
import WittyService.TurnReplies
