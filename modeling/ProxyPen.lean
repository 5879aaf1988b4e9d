import ProxyPen.Lib.Bytes
import ProxyPen.Lib.Calls
import ProxyPen.Lib.Conformance
import ProxyPen.Lib.Contract
import ProxyPen.Lib.Cursor
import ProxyPen.Lib.Exchange
import ProxyPen.Lib.History
import ProxyPen.Lib.Ledger
import ProxyPen.Lib.Lockstep
import ProxyPen.Lib.Machine
import ProxyPen.Lib.Network
import ProxyPen.Lib.Outcome
import ProxyPen.Lib.Percent
import ProxyPen.Lib.Proc
import ProxyPen.Lib.Ranks
import ProxyPen.Lib.Rate
import ProxyPen.Lib.Rendezvous
import ProxyPen.Lib.Rounding
import ProxyPen.Lib.Split
import ProxyPen.Lib.Stream
import ProxyPen.Core.Bandwidth
import ProxyPen.Core.Command
import ProxyPen.Core.Dns
import ProxyPen.Core.Handshake
import ProxyPen.Core.Http
import ProxyPen.Core.HttpLink
import ProxyPen.Core.Net
import ProxyPen.Core.Pacer
import ProxyPen.Core.Plan
import ProxyPen.Core.Press
import ProxyPen.Core.PressRun
import ProxyPen.Core.Protocol
import ProxyPen.Core.Receiver
import ProxyPen.Core.Relay
import ProxyPen.Core.Sender
import ProxyPen.Core.Session
import ProxyPen.Core.Socks
import ProxyPen.Core.Stats
import ProxyPen.Core.Target
import ProxyPen.Core.TcpPhase
import ProxyPen.Core.Tunnel
import ProxyPen.Core.UdpPhase
import ProxyPen.Theory.Address
import ProxyPen.Theory.Authority
import ProxyPen.Theory.Bandwidth
import ProxyPen.Theory.ClientProtocol
import ProxyPen.Theory.Codec
import ProxyPen.Theory.Confinement
import ProxyPen.Theory.Control
import ProxyPen.Theory.Conversation
import ProxyPen.Theory.Delivery
import ProxyPen.Theory.Dns
import ProxyPen.Theory.DnsName
import ProxyPen.Theory.DnsWire
import ProxyPen.Theory.DownLoop
import ProxyPen.Theory.Evidence
import ProxyPen.Theory.Framing
import ProxyPen.Theory.Grace
import ProxyPen.Theory.Handshake
import ProxyPen.Theory.HttpExchange
import ProxyPen.Theory.HttpLink
import ProxyPen.Theory.HttpStatus
import ProxyPen.Theory.Interference
import ProxyPen.Theory.Jitter
import ProxyPen.Theory.KeepUp
import ProxyPen.Theory.Latency
import ProxyPen.Theory.Loss
import ProxyPen.Theory.Lossy
import ProxyPen.Theory.Messages
import ProxyPen.Theory.Overflow
import ProxyPen.Theory.PacerBounds
import ProxyPen.Theory.Pacing
import ProxyPen.Theory.Parameters
import ProxyPen.Theory.Percentile
import ProxyPen.Theory.Policy
import ProxyPen.Theory.Press
import ProxyPen.Theory.PressProgress
import ProxyPen.Theory.PressReport
import ProxyPen.Theory.PressRun
import ProxyPen.Theory.ProxyUrl
import ProxyPen.Theory.Readers
import ProxyPen.Theory.Relay
import ProxyPen.Theory.ResponseSize
import ProxyPen.Theory.Samples
import ProxyPen.Theory.ServerProtocol
import ProxyPen.Theory.SocksHeader
import ProxyPen.Theory.Stats
import ProxyPen.Theory.Tally
import ProxyPen.Theory.TcpBytes
import ProxyPen.Theory.TcpGrace
import ProxyPen.Theory.TcpPhase
import ProxyPen.Theory.Text
import ProxyPen.Theory.Traffic
import ProxyPen.Theory.Tunnel
import ProxyPen.Theory.UdpPhase
import ProxyPen.Theory.UpLoop
import ProxyPen.Theory.Wakeup
