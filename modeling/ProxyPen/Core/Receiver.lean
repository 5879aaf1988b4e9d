import ProxyPen.Core.Sender

/-!
# UDP Receive Loops

The receiving halves of the UDP tests: `run_udp_up` of `bench/server.rs` and
`run_udp_down` of `bench/client.rs`. Both hand every datagram whose header
decodes to the statistics and leave the loop at a deadline. Around that they
differ in every respect.

The server waits for a first datagram without a deadline. Whoever sent it is
the peer from then on, and datagrams of other sources are read and skipped. A
socket error fails the test.

The client sends a hello, starts its deadline, and reads through its
transport, which strips the relay header. An error of the transport ends the
loop as the deadline does, with the report of what has been recorded so far.

As for the send loops, a machine has one program point per operation that
observes the outside world. `received` is history: the datagrams a loop took
from its socket, as they arrived there.

## Main definitions

* `straggleGrace`: How long a receiver outlives the sender's deadline.
* `processPacket`: One datagram into the statistics.
* `processPacketChecked`: The same in a debug build.
* `UpReceiver`, `UpState`, `UpReceiver.step`: The server's loop.
* `DownReceiver`, `DownState`, `DownReceiver.step`: The client's loop.
* `Server.runUdpUp`, `Client.runUdpDown`: The two loops of the source.
* `Client.lost`: The lost packets the client prints.
* `Client.avgLatNs`: The average latency the client prints.
-/

namespace ProxyPen

open Protocol Socks

/-- `STRAGGLE_GRACE`, in nanoseconds. -/
def straggleGrace : Nat := 500 * 1000000

section

variable {F : Type} [JitterFilter F]

/-- `process_packet`, and the same lines of the client's loop. A datagram
    without a whole header is skipped. -/
def processPacket (stats : UdpStats F) (buf : Bytes) (recvTsNs : Nat) : UdpStats F :=
  match decodeUdpHeader buf with
  | some (seq, sendTsNs) => stats.record seq sendTsNs recvTsNs buf.length
  | none => stats

/-- `process_packet` in a debug build. -/
def processPacketChecked (stats : UdpStats F) (buf : Bytes) (recvTsNs : Nat) :
    Option (UdpStats F) :=
  match decodeUdpHeader buf with
  | some (seq, sendTsNs) => stats.recordChecked seq sendTsNs recvTsNs buf.length
  | none => some stats

end

/-! ## The server's loop -/

/-- The parameters of the server's receive loop. -/
structure UpReceiver where
  bufLen : Nat
  windowNs : Nat

/-- `run_udp_up`, the server's receive loop. -/
def Server.runUdpUp (req : TestRequest) : UpReceiver :=
  { bufLen := max req.payloadSize.toNat udpHeaderLen + 64
    windowNs := req.durationMs.toNat * 1000000 + straggleGrace }

/-- Where the server's receive loop stands. -/
inductive UpPc where
  /-- the first `recv_from` -/
  | hello
  /-- `let session_start = Instant::now()` -/
  | anchor (buf : Bytes)
  /-- `select!` of `recv_from` and the deadline -/
  | select
  /-- `session_start.elapsed()` of `process_packet` -/
  | process (buf : Bytes)
  /-- the loop has been left; the report is next -/
  | done
  /-- `recv_from` failed and the function returned its error -/
  | failed
  deriving DecidableEq, Repr

/-- A state of the server's receive loop, with sources of type `A`. -/
structure UpState (A F : Type) where
  pc : UpPc
  now : Nat
  sessionStart : Nat
  peer : Option A
  stats : UdpStats F
  received : List (A × Bytes)

/-- What the server's receive loop observes. -/
inductive UpEvent (A : Type) where
  | datagram (src : A) (d : Bytes)
  | reading (t : Nat)
  /-- the deadline has passed, at clock reading `t` -/
  | expired (t : Nat)
  | error

namespace UpReceiver

variable {A F : Type} [DecidableEq A] [JitterFilter F]

/-- Before the first operation. -/
def init : UpState A F :=
  { pc := .hello, now := 0, sessionStart := 0, peer := none, stats := UdpStats.init,
    received := [] }

/-- `session_start + duration + STRAGGLE_GRACE`. -/
def deadline (c : UpReceiver) (s : UpState A F) : Nat := s.sessionStart + c.windowNs

/-- A datagram at each program point that waits for one. -/
def onDatagram (c : UpReceiver) (s : UpState A F) (src : A) (d : Bytes) : Option (UpState A F) :=
  match s.pc with
  | .hello =>
      some { s with
        -- Whoever sends first is the peer; the datagram is processed like the later ones.
        pc := .anchor (osRecv c.bufLen d)
        peer := some src
        received := s.received ++ [(src, d)] }
  | .select =>
      some { s with
        -- `if src != peer { continue; }`
        pc := if some src ≠ s.peer then .select else .process (osRecv c.bufLen d)
        received := s.received ++ [(src, d)] }
  | _ => none

/-- A clock reading at each program point that asks for one. -/
def onReading (s : UpState A F) (t : Nat) : Option (UpState A F) :=
  match s.pc with
  | .anchor buf => some { s with pc := .process buf, now := t, sessionStart := t }
  | .process buf =>
      some { s with
        pc := .select
        now := t
        stats := processPacket s.stats buf ((t - s.sessionStart) % 2 ^ 64) }
  | _ => none

/-- One observation. The select may take a datagram even after the deadline:
    when both are ready it picks either. -/
def step (c : UpReceiver) (s : UpState A F) : UpEvent A → Option (UpState A F)
  | .datagram src d => c.onDatagram s src d
  | .reading t => if s.now ≤ t ∧ t ≤ clockMax then onReading s t else none
  | .expired t =>
      if s.pc = .select ∧ s.now ≤ t ∧ t ≤ clockMax ∧ min (c.deadline s) clockMax ≤ t then
        some { s with pc := .done, now := t }
      else none
  | .error => if s.pc = .hello ∨ s.pc = .select then some { s with pc := .failed } else none

/-- The reachable states of the server's receive loop. -/
def Reachable (c : UpReceiver) (s : UpState A F) : Prop := Machine.Reachable c.step init s

end UpReceiver

/-- The report of a loop that has ended. -/
def UpState.report {A F : Type} [JitterFilter F] (s : UpState A F) (durationActualNs : Nat) :
    TestReport :=
  s.stats.intoReport durationActualNs

/-! ## The client's loop -/

/-- The parameters of the client's receive loop. `size` is the length of its
    hello. -/
structure DownReceiver where
  sock : TransportUdpSocket
  udpMax : UdpMax
  size : Nat
  windowNs : Nat

/-- `run_udp_down`, the client's receive loop. -/
def Client.runUdpDown (sock : TransportUdpSocket) (udpMax : UdpMax) (duration : Nat)
    (datagramSize : UInt64) : DownReceiver :=
  { sock
    udpMax
    size := max datagramSize.toNat udpHeaderLen
    windowNs := duration + straggleGrace }

/-- Why the client's receive loop ended. -/
inductive StopCause where
  | deadline
  /-- the transport rejected a datagram -/
  | rejected (e : IoError)
  /-- the socket reported an error -/
  | os
  deriving DecidableEq, Repr

/-- Where the client's receive loop stands. -/
inductive DownPc where
  /-- `socket.send(&hello)` -/
  | hello
  /-- `let test_start = Instant::now()` -/
  | start
  /-- `select!` of `socket.recv` and the deadline -/
  | select
  /-- `session_start = Some(Instant::now())` -/
  | anchor (buf : Bytes)
  /-- `s.elapsed()` and the statistics -/
  | process (buf : Bytes)
  /-- the loop has been left; the report is next -/
  | stopped (cause : StopCause)
  /-- the hello could not be sent and the function returned its error -/
  | failed
  /-- the transport panicked, or the hello was too long to be built -/
  | panicked
  deriving DecidableEq, Repr

structure DownState (F : Type) where
  pc : DownPc
  now : Nat
  testStart : Nat
  sessionStart : Option Nat
  stats : UdpStats F
  received : List Bytes

/-- What the client's receive loop observes. -/
inductive DownEvent where
  | accepted
  | refused
  | datagram (d : Bytes)
  | reading (t : Nat)
  /-- the deadline has passed, at clock reading `t` -/
  | expired (t : Nat)
  | error
  deriving DecidableEq, Repr

namespace DownReceiver

variable {F : Type} [JitterFilter F]

/-- Before the first operation. -/
def init : DownState F :=
  { pc := .hello, now := 0, testStart := 0, sessionStart := none, stats := UdpStats.init,
    received := [] }

/-- The hello: sequence number zero, timestamp zero. -/
def hello (c : DownReceiver) : Bytes := encodeUdpHeader (List.replicate c.size 0) 0 0

/-- What becomes of the hello. -/
def takes (c : DownReceiver) : Option Bool := c.sock.takes c.udpMax c.size

/-- The length of the receive buffer. -/
def bufLen (c : DownReceiver) : Nat := c.size + 64

/-- `test_start + duration + STRAGGLE_GRACE`. -/
def deadline (c : DownReceiver) (s : DownState F) : Nat := s.testStart + c.windowNs

/-- Where `socket.recv` leads: the loop body, or out of the loop. The session
    starts with the first datagram. -/
def onRecv (c : DownReceiver) (s : DownState F) (d : Bytes) : DownPc :=
  match c.sock.recv c.bufLen d with
  | .ok buf => if s.sessionStart.isNone then .anchor buf else .process buf
  -- `Err(_) => break`, whether the socket or the header decoder failed.
  | .err e => .stopped (.rejected e)
  | .panic => .panicked

/-- A clock reading at each program point that asks for one. -/
def onReading (s : DownState F) (t : Nat) : Option (DownState F) :=
  match s.pc with
  | .start => some { s with pc := .select, now := t, testStart := t }
  | .anchor buf => some { s with pc := .process buf, now := t, sessionStart := some t }
  | .process buf =>
      match s.sessionStart with
      | some start =>
          some { s with
            pc := .select
            now := t
            stats := processPacket s.stats buf ((t - start) % 2 ^ 64) }
      -- `session_start.unwrap()`
      | none => some { s with pc := .panicked }
  | _ => none

/-- One observation. -/
def step (c : DownReceiver) (s : DownState F) : DownEvent → Option (DownState F)
  | .accepted =>
      if s.pc = .hello ∧ c.takes = some true then some { s with pc := .start } else none
  -- `socket.send(&hello).await?`
  | .refused =>
      if s.pc = .hello then
        some { s with pc := if c.takes = none then .panicked else .failed }
      else none
  | .datagram d =>
      if s.pc = .select then
        some { s with pc := c.onRecv s d, received := s.received ++ [d] }
      else none
  | .reading t => if s.now ≤ t ∧ t ≤ clockMax then onReading s t else none
  | .expired t =>
      if s.pc = .select ∧ s.now ≤ t ∧ t ≤ clockMax ∧ min (c.deadline s) clockMax ≤ t then
        some { s with pc := .stopped .deadline, now := t }
      else none
  | .error => if s.pc = .select then some { s with pc := .stopped .os } else none

/-- The reachable states of the client's receive loop. -/
def Reachable (c : DownReceiver) (s : DownState F) : Prop := Machine.Reachable c.step init s

end DownReceiver

/-- The report of a loop that has ended. -/
def DownState.report {F : Type} [JitterFilter F] (s : DownState F) (durationActualNs : Nat) :
    TestReport :=
  s.stats.intoReport durationActualNs

/-- `sender.packets.saturating_sub(receiver.packets)` of `print_udp`. -/
def Client.lost (sender receiver : TestReport) : Nat := sender.packets - receiver.packets

/-- `avg_lat_ns` of `print_udp`. -/
def Client.avgLatNs (receiver : TestReport) : Nat :=
  if receiver.packets > 0 then receiver.latencySumNs / receiver.packets else 0

end ProxyPen
