import TelemtPanel.Library.Table
import TelemtPanel.Library.Run
import TelemtPanel.Library.Int64
import TelemtPanel.Library.Calendar
import TelemtPanel.Store.Policy
import TelemtPanel.Store.Traffic.Basic
import TelemtPanel.Library.Loop
import TelemtPanel.Store.Traffic.Ledger
import TelemtPanel.Library.Sorter
import TelemtPanel.Store.Traffic.Memory
import TelemtPanel.Store.Traffic.MemoryLedger
import TelemtPanel.Store.Traffic.SQLite
import TelemtPanel.Store.Traffic.SQLiteLedger
import TelemtPanel.Store.Traffic.Agreement
import TelemtPanel.Library.Meter
import TelemtPanel.Store.Traffic.Truth
import TelemtPanel.Store.Metric.Basic
import TelemtPanel.Store.Traffic.WindowPlan
import TelemtPanel.Store.Traffic.Read
import TelemtPanel.Library.Like
import TelemtPanel.Library.NetIP
import TelemtPanel.Library.Newest
import TelemtPanel.Store.UserIP.Basic
import TelemtPanel.Store.UserIP.Memory
import TelemtPanel.Store.UserIP.SQLite
import TelemtPanel.Store.UserIP.Cap
import TelemtPanel.Store.UserIP.Agreement
import TelemtPanel.Store.UserIP.Answers
import TelemtPanel.Web.Config.Rebase
import TelemtPanel.Store.UserIP.Snapshot
import TelemtPanel.HTTPAPI.ConfigTOML.Preview
import TelemtPanel.HTTPAPI.ConfigTOML.AllowList
import TelemtPanel.Events.Resume
import TelemtPanel.QuotaReset.BulkReset
import TelemtPanel.QuotaReset.OncePerSlot
import TelemtPanel.QuotaReset.Reload
import TelemtPanel.QuotaReset.Interval
import TelemtPanel.Library.Recent
import TelemtPanel.Store.Metric.Live
import TelemtPanel.Store.Metric.FlushRuns
import TelemtPanel.Store.Composite
import TelemtPanel.Library.Disjoint
import TelemtPanel.Store.Metric.Resolution
import TelemtPanel.Store.Traffic.WindowCover
import TelemtPanel.Store.Traffic.Portable
import TelemtPanel.Store.Traffic.Restart
import TelemtPanel.Library.History
import TelemtPanel.Subpage.Token
import TelemtPanel.Subpage.Index
import TelemtPanel.Subpage.Handler
import TelemtPanel.Subpage.Revocation
import TelemtPanel.Auth.SessionGuard
import TelemtPanel.Auth.StreamMoves
import TelemtPanel.Auth.SessionStreams
import TelemtPanel.Auth.GuardRuns
import TelemtPanel.Auth.Revocation
import TelemtPanel.HTTPAPI.WebAuthn.Ceremony
import TelemtPanel.HTTPAPI.WebAuthn.Handlers
import TelemtPanel.HTTPAPI.WebAuthn.Steps
import TelemtPanel.HTTPAPI.WebAuthn.Runs
import TelemtPanel.HTTPAPI.WebAuthn.History
import TelemtPanel.HTTPAPI.WebAuthn.Counters
import TelemtPanel.HTTPAPI.WebAuthn.Replay
import TelemtPanel.Polling.Topics
import TelemtPanel.Polling.Threads
import TelemtPanel.Polling.Steps
import TelemtPanel.Polling.Gate
import TelemtPanel.Polling.Subscribers
import TelemtPanel.Polling.Lifecycle
import TelemtPanel.Polling.Alive
import TelemtPanel.Polling.Payloads
import TelemtPanel.Polling.Asking
import TelemtPanel.Polling.Runs
import TelemtPanel.Library.Ranking
import TelemtPanel.Update.Semver
import TelemtPanel.Update.Precedence
import TelemtPanel.Update.Releases
import TelemtPanel.Update.LatestVersion
import TelemtPanel.Library.NetText
import TelemtPanel.Auth.ClientIP
import TelemtPanel.Library.Canonical
import TelemtPanel.Library.WallClock
import TelemtPanel.Events.PushOnChange
import TelemtPanel.Library.Keyset
import TelemtPanel.Store.UserIP.Keyset
import TelemtPanel.Store.Traffic.Ranking
import TelemtPanel.Store.Pagination
import TelemtPanel.Library.NetRead
import TelemtPanel.Polling.UserIPCollector
import TelemtPanel.Polling.UserIPBatches
import TelemtPanel.Polling.UserIPLimits
import TelemtPanel.Library.Utf8
import TelemtPanel.Library.Lines
import TelemtPanel.Host.FollowRuns
import TelemtPanel.Web.DraftSession
import TelemtPanel.RateLimit.Exact
import TelemtPanel.Telemt.Capabilities
import TelemtPanel.Telemt.Generations
import TelemtPanel.HTTPAPI.Logs.StripControls
import TelemtPanel.Web.History.CountOnce
import TelemtPanel.Library.Tally
import TelemtPanel.Geography.Paging
import TelemtPanel.Web.LogStream.Runs
import TelemtPanel.Geography.Cursor
import TelemtPanel.Geography.Pages
