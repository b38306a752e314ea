import PoolControl.Alarm
import PoolControl.Bind
import PoolControl.Channel
import PoolControl.Configuration.Basic
import PoolControl.Configuration.EnvironmentFile
import PoolControl.Configuration.Example
import PoolControl.Configuration.Load
import PoolControl.ControlPlane
import PoolControl.Datum
import PoolControl.Duration
import PoolControl.Error
import PoolControl.FileTree
import PoolControl.Http.Status
import PoolControl.Http.Url
import PoolControl.Json.Reader
import PoolControl.Json.Writer
import PoolControl.Limiter
import PoolControl.Log
import PoolControl.Main
import PoolControl.Notice
import PoolControl.Outbox
import PoolControl.Pool.Admission
import PoolControl.Pool.Basic
import PoolControl.Pool.Shutdown
import PoolControl.Pool.Tuning
import PoolControl.Pool.Work
import PoolControl.Proofs.Alarm.Due
import PoolControl.Proofs.Alarm.Rejections
import PoolControl.Proofs.Alarm.Rounds
import PoolControl.Proofs.Configuration.Loading
import PoolControl.Proofs.Configuration.Overrides
import PoolControl.Proofs.Json.RoundTrip
import PoolControl.Proofs.Outbox.Delivery
import PoolControl.Proofs.Outbox.Sessions
import PoolControl.Proofs.Pool.Conservation
import PoolControl.Proofs.Pool.Course
import PoolControl.Proofs.Pool.Finality
import PoolControl.Proofs.Pool.Rest
import PoolControl.Proofs.Pool.Retuning
import PoolControl.Proofs.Pool.Saturation
import PoolControl.Proofs.Pool.Setting
import PoolControl.Proofs.Pool.Shrinking
import PoolControl.Proofs.Pool.Slots
import PoolControl.Proofs.Pool.Sound
import PoolControl.Proofs.Pool.Staffing
import PoolControl.Proofs.Queue.Bounds
import PoolControl.Proofs.Queue.Order
import PoolControl.Proofs.Queue.Takers
import PoolControl.Proofs.Queue.Wakeups
import PoolControl.Proofs.Refresh.Accounting
import PoolControl.Proofs.Refresh.Agreement
import PoolControl.Proofs.Refresh.Alertable
import PoolControl.Proofs.Refresh.Binding
import PoolControl.Proofs.Refresh.Clipping
import PoolControl.Proofs.Refresh.Differences
import PoolControl.Proofs.Refresh.Fresh
import PoolControl.Proofs.Refresh.Gauges
import PoolControl.Proofs.Refresh.InForce
import PoolControl.Proofs.Refresh.Isolation
import PoolControl.Proofs.Refresh.KeepAlive
import PoolControl.Proofs.Refresh.Outcomes
import PoolControl.Proofs.Refresh.Repeated
import PoolControl.Proofs.Refresh.Requests
import PoolControl.Proofs.Refresh.Settling
import PoolControl.Proofs.Refresh.Setups
import PoolControl.Proofs.Refresh.Sizes
import PoolControl.Proofs.Refresh.Throttling
import PoolControl.Proofs.Server.Startup
import PoolControl.Proofs.Session.Shutdown
import PoolControl.Proofs.Settings.Encoding
import PoolControl.Proofs.Watch.Polls
import PoolControl.Proofs.Watch.Startup
import PoolControl.Refresh
import PoolControl.Refresh.Apply
import PoolControl.Registry
import PoolControl.SaturationPolicy
import PoolControl.Server
import PoolControl.Server.Entries
import PoolControl.Session.Basic
import PoolControl.Session.Perform
import PoolControl.Session.Settle
import PoolControl.Settings.Decoding
import PoolControl.Settings.KeepAliveUnit
import PoolControl.Settings.NoticeKind
import PoolControl.Settings.NotifyRule
import PoolControl.Settings.Platform
import PoolControl.Settings.QueueKind
import PoolControl.Settings.Record
import PoolControl.Snapshot
import PoolControl.Tally
import PoolControl.TaskQueue
import PoolControl.Text.AsciiCase
import PoolControl.Text.Blank
import PoolControl.Text.Digits
import PoolControl.Text.Quoted
import PoolControl.Text.Visible
import PoolControl.Throttle
import PoolControl.Timestamp
import PoolControl.Toml.Numbers
import PoolControl.Toml.Reader
import PoolControl.Toml.Strings
import PoolControl.Toml.Tree
import PoolControl.Watch
import PoolControl.Webhook
