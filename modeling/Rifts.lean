import Rifts.Bytes.BigEndian
import Rifts.Bytes.Codec
import Rifts.Bytes.Keys
import Rifts.Session.Auth
import Rifts.Core.FrameCodec
import Rifts.Connection.Publishers
import Rifts.Client.Receive
import Rifts.Connection.Outbound
import Rifts.Connection.Slot
import Rifts.Connection.Resumption
import Rifts.Connection.Control
import Rifts.Connection.Exclusive
import Rifts.Connection.Replay
import Rifts.Broker.FanoutIndex
import Rifts.Broker.FanoutSteps
import Rifts.Broker.FanoutRace
import Rifts.Broker.SubscribeSteps
import Rifts.Broker.SubscriberCount
import Rifts.Broker.IdWrap
import Rifts.Broker.PublishSteps
import Rifts.Broker.PublishAtomicity
import Rifts.Broker.DeliveryOrder
import Rifts.Data.Suffix
import Rifts.Data.ScoredSet
import Rifts.Data.SortedMap
import Rifts.Storage.Sled
import Rifts.Transition.Service
import Rifts.Storage.Dedupe
import Rifts.Storage.DedupeRace
import Rifts.Storage.SweepRace
import Rifts.Storage.Retention
import Rifts.Storage.SledLog
import Rifts.Storage.RetentionBound
import Rifts.Storage.Snapshot
import Rifts.Storage.SledOffset
import Rifts.Broker.LogOrder
import Rifts.Broker.Restart
import Rifts.Broker.ReplayHistory
import Rifts.Broker.SnapshotHistory
import Rifts.Broker.Delivery
import Rifts.Broker.Slots
import Rifts.Connection.Teardown
import Rifts.Broker.LoneTopic
import Rifts.Broker.Isolation
import Rifts.Connection.Aftermath
import Rifts.Redis.Cluster
import Rifts.Redis.Dedupe
import Rifts.Redis.Copies
import Rifts.Redis.Offset
import Rifts.Redis.ExactlyOnce
import Rifts.Bytes.Text
import Rifts.Redis.Snapshot
import Rifts.Client.Lifecycle
import Rifts.Client.Epochs
import Rifts.Client.Watch
import Rifts.Client.Subscriptions
import Rifts.Core.WireLanguage
import Rifts.Client.Limits
import Rifts.Session.Precedence
import Rifts.Connection.Labels
import Rifts.Client.Heartbeat
import Rifts.Connection.Census
import Rifts.Connection.Capacity
import Rifts.Client.Ledger
import Rifts.Client.DeadConnection
import Rifts.Client.Finality
import Rifts.Connection.Expiry
import Rifts.Connection.ControlFailure
import Rifts.Connection.Acknowledgement
import Rifts.Client.MissedPongs
import Rifts.Data.ClockWindow
import Rifts.Storage.TopicWindow
import Rifts.Storage.PolicyChange
import Rifts.Storage.Durations
import Rifts.Broker.TtlRetention
import Rifts.Broker.RetentionOverflow
import Rifts.Broker.TopicRemoval
import Rifts.Core.Ack
import Rifts.Core.AckLedger
import Rifts.Flow.Backpressure
import Rifts.Flow.Tally
import Rifts.Flow.Watermark
import Rifts.Client.Replies
import Rifts.Client.Correlation
import Rifts.Connection.Narrowing
import Rifts.Redis.Validation
import Rifts.Broker.Backends
import Rifts.Redis.Log
import Rifts.Redis.Replay
import Rifts.Transport.Bridge
import Rifts.Broker.Maintenance
import Rifts.Client.Socket
import Rifts.Connection.Overtaking
import Rifts.Connection.WindDown
import Rifts.Client.Requests
import Rifts.Redis.Listener
import Rifts.Connection.Hub
