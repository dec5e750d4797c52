import VeilidTransport.Foundation.Runs
import VeilidTransport.Foundation.Channel
import VeilidTransport.Foundation.KeyedMap
import VeilidTransport.Foundation.Framing
import VeilidTransport.Foundation.Chunks
import VeilidTransport.Foundation.Utf8
import VeilidTransport.Basic
import VeilidTransport.Address
import VeilidTransport.Inbound
import VeilidTransport.Outbound
import VeilidTransport.Stream
import VeilidTransport.Connection
import VeilidTransport.Delivery
import VeilidTransport.Foundation.TwoParty
import VeilidTransport.Transport
import VeilidTransport.Session
import VeilidTransport.Foundation.Base64Url
import VeilidTransport.Sample
import VeilidTransport.Fidelity
import VeilidTransport.Classification
import VeilidTransport.Foundation.Pool
import VeilidTransport.ReceiveTasks
import VeilidTransport.DialCopies
import VeilidTransport.Connections
import VeilidTransport.Displacement
import VeilidTransport.Handshake
import VeilidTransport.Agreement
import VeilidTransport.Signatures
import VeilidTransport.Redial
import VeilidTransport.Reader
import VeilidTransport.Events
import VeilidTransport.UpdateTasks
import VeilidTransport.Online
import VeilidTransport.Beating
import VeilidTransport.HeartbeatGap
import VeilidTransport.Orphans
import VeilidTransport.Foundation.Panics
import VeilidTransport.Receive
import VeilidTransport.KeepAlive
import VeilidTransport.Incarnations
import VeilidTransport.Pieces
import VeilidTransport.Window
import VeilidTransport.Ignored
import VeilidTransport.Expiry
import VeilidTransport.Keys
import VeilidTransport.Acknowledgement
import VeilidTransport.SendTasks
import VeilidTransport.Pacing
import VeilidTransport.Foundation.Protobuf
import VeilidTransport.Packet
import VeilidTransport.ReorderQueue
import VeilidTransport.Sequence
import VeilidTransport.Foundation.Toml
import VeilidTransport.KeyFile
import VeilidTransport.Settings
import VeilidTransport.Lookups
import VeilidTransport.StartUp
import VeilidTransport.ActiveTarget
import VeilidTransport.Republish
import VeilidTransport.SelfPing
import VeilidTransport.Overlap
import VeilidTransport.Draining
import VeilidTransport.Recovery
import VeilidTransport.Surface
import VeilidTransport.EventLedger
import VeilidTransport.Foundation.Selected
import VeilidTransport.Peers
import VeilidTransport.Projection
import VeilidTransport.Reconnect
import VeilidTransport.Reroute
