import NestGateway.Core.Base64
import NestGateway.Core.CivilText
import NestGateway.Core.Contexts
import NestGateway.Core.CountByKey
import NestGateway.Core.CursorPaging
import NestGateway.Core.FirstOfKey
import NestGateway.Core.FixedWidth
import NestGateway.Core.GoBytes
import NestGateway.Core.GoJson
import NestGateway.Core.GoJsonText
import NestGateway.Core.GoTime
import NestGateway.Core.Heap
import NestGateway.Core.JsDate
import NestGateway.Core.JsMap
import NestGateway.Core.JsRegExp
import NestGateway.Core.JsString
import NestGateway.Core.JsonText
import NestGateway.Core.Prog
import NestGateway.Core.Regex
import NestGateway.Core.Runs
import NestGateway.Core.Scans
import NestGateway.Core.StableSort
import NestGateway.Core.Text
import NestGateway.Core.Utf8
import NestGateway.LogReader.Confinement
import NestGateway.LogReader.DateRange
import NestGateway.LogReader.Files
import NestGateway.LogReader.Filter
import NestGateway.LogReader.MatchList
import NestGateway.LogReader.Parser
import NestGateway.LogReader.Paths
import NestGateway.LogReader.Positions
import NestGateway.LogReader.ReadErrors
import NestGateway.LogReader.Recognition
import NestGateway.LogReader.Rotation
import NestGateway.LogReader.RoundTrip
import NestGateway.LogReader.Search
import NestGateway.LogReader.Stats
import NestGateway.LogReader.TimeWindow
import NestGateway.LogStreamer.Cancellation
import NestGateway.LogStreamer.Closing
import NestGateway.LogStreamer.ContainerStats
import NestGateway.LogStreamer.CpuPercent
import NestGateway.LogStreamer.Frames
import NestGateway.LogStreamer.Goroutines
import NestGateway.LogStreamer.LastLines
import NestGateway.LogStreamer.Listing
import NestGateway.LogStreamer.Locks
import NestGateway.LogStreamer.Ownership
import NestGateway.LogStreamer.ServiceWatch
import NestGateway.LogStreamer.Streaming
import NestGateway.LogStreamer.Subscription
import NestGateway.LogStreamer.TtyLines
import NestGateway.LogHistory.Apps
import NestGateway.LogHistory.Breaker
import NestGateway.LogHistory.Isolation
import NestGateway.LogHistory.Logged
import NestGateway.LogHistory.Merge
import NestGateway.LogHistory.Pagination
import NestGateway.LogHistory.Service
import NestGateway.LogHistory.Streamer
import NestGateway.LogHistory.Summary
import NestGateway.LogHistory.Trace
import NestGateway.LogProxy.Attended
import NestGateway.LogProxy.Backoff
import NestGateway.LogProxy.Connections
import NestGateway.LogProxy.Containers
import NestGateway.LogProxy.Contract
import NestGateway.LogProxy.Lifecycle
import NestGateway.LogProxy.Messages
import NestGateway.LogProxy.PublishFailures
import NestGateway.LogProxy.Refcount
import NestGateway.LogProxy.Service
import NestGateway.LogProxy.Topics
import NestGateway.LogProxy.Upstream
import NestGateway.Logger.EcsFormat
import NestGateway.Logger.ReadBack
import NestGateway.Gateway.AccessChannelHop
import NestGateway.Gateway.AuthBreaker
import NestGateway.Gateway.AuthProxy
import NestGateway.Gateway.Correlation
import NestGateway.Gateway.DownstreamError
import NestGateway.Gateway.Traces
import NestGateway.Auth.Accounts
import NestGateway.Auth.Asks
import NestGateway.Auth.Blocked
import NestGateway.Auth.Compact
import NestGateway.Auth.Effects
import NestGateway.Auth.Enrolment
import NestGateway.Auth.FailedLogin
import NestGateway.Auth.Headers
import NestGateway.Auth.Identity
import NestGateway.Auth.ImpossibleDatetimes
import NestGateway.Auth.Jwt
import NestGateway.Auth.KstDatetime
import NestGateway.Auth.Lockout
import NestGateway.Auth.Outcomes
import NestGateway.Auth.PasswordPolicy
import NestGateway.Auth.Purpose
import NestGateway.Auth.Requests
import NestGateway.Auth.Rows
import NestGateway.Auth.Service
import NestGateway.Auth.TwoFactor
import NestGateway.Auth.WrongPasswords
import NestGateway.DailyReport.MissedErrors
import NestGateway.DailyReport.Report
import NestGateway.DailyReport.SlackMessage
import NestGateway.DailyReport.Yesterday
import NestGateway.Ui.AuthContext
import NestGateway.Ui.AuthErrors
import NestGateway.Ui.ContainerList
import NestGateway.Ui.FindCount
import NestGateway.Ui.Highlight
import NestGateway.Ui.HighlightMarks
import NestGateway.Ui.HighlightText
import NestGateway.Ui.HtmlTags
import NestGateway.Ui.LiveView
import NestGateway.Ui.LogBuffer
import NestGateway.Ui.LogSearch
import NestGateway.Ui.ServiceViewer
import NestGateway.Ui.SignIn
import NestGateway.Ui.Tabs
import NestGateway.Ui.TokenPayload
