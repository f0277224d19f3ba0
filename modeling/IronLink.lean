import IronLink.Lib.Run
import IronLink.Lib.Ttl
import IronLink.Lib.Calls
import IronLink.Lib.Table
import IronLink.Lib.Words
import IronLink.Lib.Substring
import IronLink.Lib.Offsets
import IronLink.Lib.Regex
import IronLink.Lib.Memo
import IronLink.Lib.Slices
import IronLink.Lib.Replica
import IronLink.Lib.Heap
import IronLink.Lib.WriteBack
import IronLink.Common.Uuid
import IronLink.Common.Json
import IronLink.Auth.Otp
import IronLink.Auth.OtpLifecycle
import IronLink.Auth.Account
import IronLink.Auth.TokenVersion
import IronLink.Messages.Service
import IronLink.Messages.Sweep
import IronLink.Ws.Manager
import IronLink.Ws.Presence
import IronLink.Ws.Frame
import IronLink.Messages.System
import IronLink.Messages.Transactions
import IronLink.Messages.Evidence
import IronLink.Messages.Media
import IronLink.Messages.Burn
import IronLink.Ws.Traffic
import IronLink.Ws.ReadReceipts
import IronLink.Ws.Access
import IronLink.Ws.Delivery
import IronLink.Client.Signal
import IronLink.Client.WsService
import IronLink.Client.ChatBloc
import IronLink.Client.Bubbles
import IronLink.Client.FrameProtocol
import IronLink.Client.Secrecy
import IronLink.Client.Ratchet
import IronLink.Media.Upload
import IronLink.Media.Fresh
import IronLink.Client.MediaService
import IronLink.Media.Record
import IronLink.Media.Complete
import IronLink.Jobs.Step
import IronLink.Jobs.Audit
import IronLink.Jobs.Journal
import IronLink.Jobs.Announce
import IronLink.Messages.History
import IronLink.Messages.Overlap
import IronLink.Client.Line
import IronLink.Client.Stored
import IronLink.Client.Ticks
import IronLink.Client.Opening.Model
import IronLink.Client.Opening.Turn
import IronLink.Client.Opening.Runs
import IronLink.Client.Acks
import IronLink.Client.Tombstones
import IronLink.Client.Converge.Model
import IronLink.Client.Converge.Turn
import IronLink.Client.Converge.Runs
import IronLink.Ws.Receive
import IronLink.Lib.Unwinding
import IronLink.Ws.Chats
import IronLink.Ws.Confidential
import IronLink.Client.Equality.Model
import IronLink.Client.Equality.View
import IronLink.Client.Equality.Runs
import IronLink.Auth.RateLimit
import IronLink.Auth.Login
import IronLink.Broadcasts.Server
import IronLink.Broadcasts.Banner
import IronLink.Broadcasts.Audience
import IronLink.Keys.PreKeys
import IronLink.Keys.OneTime
import IronLink.Client.PreKeys
import IronLink.Client.Identity
import IronLink.Lib.Program
import IronLink.Lib.Observed
import IronLink.Lib.Isolation
import IronLink.Media.Routes
import IronLink.Media.Isolation
import IronLink.Groups.Routes
import IronLink.Groups.Membership
import IronLink.Groups.Size
import IronLink.Groups.Audit
import IronLink.Groups.Decisions
import IronLink.Groups.Concurrent
import IronLink.Messages.ChatList
import IronLink.Messages.Paging
import IronLink.Ws.PushTokens
import IronLink.Ws.OcrAlerts
import IronLink.Client.OcrSettings
import IronLink.Common.Text
import IronLink.Media.Outage
import IronLink.Messages.SweepReport
import IronLink.Ocr.Matcher
import IronLink.Ocr.Words
import IronLink.Ocr.Saving
import IronLink.Core.Pools
import IronLink.Auth.Phone
import IronLink.Media.Formats
import IronLink.Lib.Serial
import IronLink.Common.Orm
import IronLink.Common.Decimal
import IronLink.Channels.Routes
import IronLink.Channels.Counts
import IronLink.Channels.Subscribers
import IronLink.Channels.Private
import IronLink.Communities.Routes
import IronLink.Communities.Members
import IronLink.Communities.Commits
import IronLink.Communities.Overlap
import IronLink.Communities.Charter
import IronLink.Backend.Deletion
import IronLink.Backend.AiService
import IronLink.Backend.AiCaches
import IronLink.Backend.OcrSnippet
import IronLink.Auth.Sessions
import IronLink.Ws.Tickets
import IronLink.Broadcasts.Acks
import IronLink.Broadcasts.Push
import IronLink.Lib.CappedLog
import IronLink.Backend.AlertHistory
import IronLink.Groups.Listing
import IronLink.Groups.Outsiders
import IronLink.Lib.Like
import IronLink.Lib.OffsetPages
import IronLink.Messages.Backlog
import IronLink.Admin.Routes
import IronLink.Admin.Listing
import IronLink.Admin.Status
import IronLink.Client.AuthBloc
import IronLink.Client.LoginFlow
import IronLink.Lib.Lease
import IronLink.Client.Heartbeat
