import Fctf.Lib.Prog
import Fctf.Lib.Pool
import Fctf.Lib.RedisDb
import Fctf.Keys
import Fctf.RedisHelper
import Fctf.SlotLimit
import Fctf.Deployment
import Fctf.Lib.Protocol
import Fctf.DeployService
import Fctf.Listener
import Fctf.Platform
import Fctf.LiveSlot
import Fctf.DeployQuota
import Fctf.StaleEvent
import Fctf.LostUpdate
import Fctf.Deadline
import Fctf.Decay
import Fctf.ExpirationReport
import Fctf.FlagCompare
import Fctf.Submissions
import Fctf.Attempt
import Fctf.AttemptProtocol
import Fctf.AttemptService
import Fctf.AttemptCount
import Fctf.AttemptCap
import Fctf.AttemptsGivenBack
import Fctf.BoundedGuessing
import Fctf.AnswerAgrees
import Fctf.ClientAddress
import Fctf.CreditedSolve
import Fctf.RateLimit
import Fctf.Lib.Ranking
import Fctf.Scores
import Fctf.Scoreboard
import Fctf.FrozenBoard
import Fctf.FrozenSolves
import Fctf.TeamImport
import Fctf.MultiCriteria
import Fctf.RewardBinding
import Fctf.TeamScore
import Fctf.TicketSimilarity
import Fctf.ContestBoard
import Fctf.TeamPlace
import Fctf.SqlStandings
import Fctf.ProfileScore
import Fctf.Lib.Md5
import Fctf.SecretKey
import Fctf.SignedRequest
import Fctf.SignatureBinding
import Fctf.AuthWorld
import Fctf.Lib.History
import Fctf.TokenAuthentication
import Fctf.AuthReasons
import Fctf.Revocation
import Fctf.CacheFills
import Fctf.ContestTokens
import Fctf.Lib.Glob
import Fctf.StopAll
import Fctf.AdminKeys
import Fctf.ChallengeToken
import Fctf.TokenSpelling
import Fctf.TokenRoundTrip
import Fctf.DeploymentNames
import Fctf.RouteNames
import Fctf.TokenBucket
import Fctf.ConnLimit
import Fctf.Rollback
import Fctf.DynamicValue
import Fctf.ChallengeColumns
import Fctf.Lib.Lease
import Fctf.ValueConverges
import Fctf.Lib.Custody
import Fctf.QueueService
import Fctf.QueueSettlement
import Fctf.Reconcile
import Fctf.RedisLock
import Fctf.Accounts
import Fctf.Registration
import Fctf.LoginNames
import Fctf.RegistrationCap
import Fctf.PullChallenges
import Fctf.ImportedRows
import Fctf.Cooldown
import Fctf.ChallengeUpload
import Fctf.DeployResult
import Fctf.ChallengeVersions
import Fctf.ImportCount
import Fctf.DynamicPrice
import Fctf.FlagOrder
import Fctf.StaticFlags
import Fctf.Lib.Backtrack
import Fctf.RegexFlags
import Fctf.ProxyCopy
import Fctf.ProxyRequest
import Fctf.SignedValue
import Fctf.Lib.Segments
import Fctf.TcpSession
import Fctf.SeriesScore
import Fctf.Topics
import Fctf.ClearedTopics
import Fctf.Analytics
import Fctf.Lib.FileTree
import Fctf.Lib.Path
import Fctf.FileStore
import Fctf.Lib.BindText
import Fctf.RewardQuery
import Fctf.ParticipantImport
import Fctf.AccessStaleness
import Fctf.Hints
import Fctf.HintReasons
import Fctf.HintUnlocks
import Fctf.HintDebt
import Fctf.HintViews
import Fctf.Lib.Upsert
import Fctf.Migrator
import Fctf.MigrationBatches
import Fctf.MappingFiles
