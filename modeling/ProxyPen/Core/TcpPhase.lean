import ProxyPen.Core.Plan
import ProxyPen.Core.Receiver
import ProxyPen.Lib.Exchange

/-!
# The TCP Tests as a Whole

A TCP test between the connection of its data stream and the exchange of
reports: `run_tcp_data` of `bench/client.rs` against `run_tcp_up` and
`run_tcp_down` of `bench/server.rs`. One side writes chunks until its deadline
and half-closes; the other reads until it sees the end of the stream or until
a deadline of its own.

The connection is a FIFO of bytes with a finite capacity, and since every byte
is the same only their number matters. A write moves some bytes while there
is room, waits while there is none, and fails once the peer has dropped the
stream. A read waits while there is nothing, unless the writer has
half-closed. Reading into an empty buffer and writing an empty one return zero
at once.

The two receivers differ in one thing. The client's stream is local to
`run_tcp_data` and is dropped when that function returns, before the reports
are exchanged. The server's lives until the end of `run_tcp_up`, after them.

Errors of a socket other than a write to a dropped stream are faults.

## Main definitions

* `TcpSender`, `TcpReceiver`: The parameters of the two loops.
* `Client.tcpSender`, `Client.tcpReceiver`, `Server.runTcpUp`,
  `Server.runTcpDown`: The loops of the source.
* `TcpLink`: Both loops and the connection.
* `TcpLink.step`: One step of the data phase.
* `tcpUp`, `tcpDown`: The two tests with their exchange of reports.
-/

namespace ProxyPen

open Protocol

/-- A loop that writes chunks until a deadline. -/
structure TcpSender where
  chunk : Nat
  durationNs : Nat

/-- A loop that reads until the end of the stream or a deadline. `drops` tells
    whether the stream is dropped when the loop has been left. -/
structure TcpReceiver where
  chunk : Nat
  windowNs : Nat
  drops : Bool

/-- `run_tcp_data` for an upload. -/
def Client.tcpSender (duration : Nat) (chunk : UInt64) : TcpSender :=
  { chunk := chunk.toNat, durationNs := duration }

/-- `run_tcp_data` for a download. -/
def Client.tcpReceiver (duration : Nat) (chunk : UInt64) : TcpReceiver :=
  { chunk := chunk.toNat, windowNs := duration + straggleGrace, drops := true }

/-- `run_tcp_up`, the server's receive loop. -/
def Server.runTcpUp (req : TestRequest) : TcpReceiver :=
  { chunk := max req.payloadSize.toNat 1
    windowNs := req.durationMs.toNat * 1000000 + straggleGrace
    drops := false }

/-- `run_tcp_down`, the server's send loop. -/
def Server.runTcpDown (req : TestRequest) : TcpSender :=
  { chunk := max req.payloadSize.toNat 1, durationNs := req.durationMs.toNat * 1000000 }

inductive TcpSendPc where
  /-- `let start = Instant::now()` -/
  | start
  /-- `while Instant::now() < deadline` -/
  | check
  /-- `write(&buf)` -/
  | write
  /-- `shutdown()` -/
  | shutdown
  /-- the report is next -/
  | done
  deriving DecidableEq, Repr

inductive TcpRecvPc where
  /-- `let start = Instant::now()` -/
  | start
  /-- `select!` of `read` and the deadline -/
  | select
  /-- the report is next -/
  | done
  /-- `read` failed and the function returned its error -/
  | failed
  deriving DecidableEq, Repr

/-- Both loops and the connection: `fill` bytes are in it, `shut` tells that
    the sender has half-closed, and `dropped` that the receiver has dropped
    its stream. -/
structure TcpLink where
  sendPc : TcpSendPc
  sendNow : Nat
  sendStart : Nat
  sent : Nat
  recvPc : TcpRecvPc
  recvNow : Nat
  recvStart : Nat
  received : Nat
  fill : Nat
  shut : Bool
  dropped : Bool
  deriving DecidableEq, Repr

inductive TcpEvent where
  /-- the sender reads its clock -/
  | sendReading (t : Nat)
  /-- a write returns `n` -/
  | wrote (n : Nat)
  /-- a write fails because the peer has dropped the stream -/
  | broken
  /-- a write fails for any other reason -/
  | writeFault
  | shutdown
  /-- the receiver reads its clock -/
  | recvReading (t : Nat)
  /-- a read returns `n` -/
  | took (n : Nat)
  /-- the receiver's deadline has passed, at clock reading `t` -/
  | expired (t : Nat)
  | readFault
  deriving DecidableEq, Repr

namespace TcpLink

/-- A connection that has just been made. -/
def init : TcpLink :=
  { sendPc := .start, sendNow := 0, sendStart := 0, sent := 0, recvPc := .start, recvNow := 0,
    recvStart := 0, received := 0, fill := 0, shut := false, dropped := false }

/-- A write of `n` bytes can return: nothing of an empty buffer, else some
    bytes that fit the buffer and the connection. -/
def CanWrite (w : TcpSender) (capacity : Nat) (b : TcpLink) (n : Nat) : Prop :=
  -- `Ok(0)` of an empty buffer ends the loop, whatever the connection does.
  if w.chunk = 0 then n = 0
  else b.dropped = false ∧ 0 < n ∧ n ≤ w.chunk ∧ b.fill + n ≤ capacity

instance (w : TcpSender) (capacity : Nat) (b : TcpLink) (n : Nat) :
    Decidable (b.CanWrite w capacity n) :=
  inferInstanceAs (Decidable (if w.chunk = 0 then _ else _))

/-- A read of `n` bytes can return: nothing into an empty buffer or at the end
    of the stream, else some bytes that are there and fit the buffer. -/
def CanRead (r : TcpReceiver) (b : TcpLink) (n : Nat) : Prop :=
  if r.chunk = 0 then n = 0
  else (0 < n ∧ n ≤ r.chunk ∧ n ≤ b.fill) ∨ (n = 0 ∧ b.fill = 0 ∧ b.shut = true)

instance (r : TcpReceiver) (b : TcpLink) (n : Nat) : Decidable (b.CanRead r n) :=
  inferInstanceAs (Decidable (if r.chunk = 0 then _ else _))

/-- The clock of the sender. -/
def onSendReading (w : TcpSender) (b : TcpLink) (t : Nat) : Option TcpLink :=
  match b.sendPc with
  | .start => some { b with sendPc := .check, sendNow := t, sendStart := t }
  | .check =>
      some { b with
        -- The deadline is tested between writes only, never inside one.
        sendPc := if t < b.sendStart + w.durationNs then .write else .shutdown
        sendNow := t }
  | _ => none

/-- One step of the data phase. A loop that reads or writes zero bytes is
    left. -/
def step (w : TcpSender) (r : TcpReceiver) (capacity : Nat) (b : TcpLink) :
    TcpEvent → Option TcpLink
  | .sendReading t =>
      if b.sendNow ≤ t ∧ t ≤ clockMax then onSendReading w b t else none
  | .wrote n =>
      if b.sendPc = .write ∧ b.CanWrite w capacity n then
        some { b with
          sendPc := if n = 0 then .shutdown else .check
          sent := b.sent + n
          fill := b.fill + n }
      else none
  | .broken =>
      if b.sendPc = .write ∧ b.dropped = true then some { b with sendPc := .shutdown } else none
  | .writeFault => if b.sendPc = .write then some { b with sendPc := .shutdown } else none
  | .shutdown =>
      if b.sendPc = .shutdown then some { b with sendPc := .done, shut := true } else none
  | .recvReading t =>
      if b.recvPc = .start ∧ b.recvNow ≤ t ∧ t ≤ clockMax then
        some { b with recvPc := .select, recvNow := t, recvStart := t }
      else none
  -- A read of zero bytes is the end of the stream.
  | .took n =>
      if b.recvPc = .select ∧ b.CanRead r n then
        if n = 0 then some { b with recvPc := .done, dropped := r.drops }
        else some { b with received := b.received + n, fill := b.fill - n }
      else none
  | .expired t =>
      if b.recvPc = .select ∧ b.recvNow ≤ t ∧ t ≤ clockMax ∧
          min (b.recvStart + r.windowNs) clockMax ≤ t then
        some { b with recvPc := .done, recvNow := t, dropped := r.drops }
      else none
  -- `r?` returns from the function and drops the stream on either side.
  | .readFault =>
      if b.recvPc = .select then some { b with recvPc := .failed, dropped := true } else none

/-- The report of the sending side. -/
def sendReport (b : TcpLink) (durationActualNs : Nat) : TestReport :=
  { bytes := b.sent, durationActualNs }

/-- The report of the receiving side. -/
def recvReport (b : TcpLink) (durationActualNs : Nat) : TestReport :=
  { bytes := b.received, durationActualNs }

end TcpLink

/-- The events that are a step of one of the parties. -/
def TcpEvent.isMove : TcpEvent → Bool
  | .writeFault => false
  | .readFault => false
  | _ => true

/-- The TCP upload of a plan over a connection of the given capacity, with its
    exchange of reports. -/
def tcpUp (opts : BenchOptions) (plan : Plan) (capacity : Nat) :
    Body TcpLink TcpEvent TestReport :=
  { init := TcpLink.init
    step := TcpLink.step (Client.tcpSender opts.duration opts.tcpChunk)
      (Server.runTcpUp (opts.request plan)) capacity
    moves := TcpEvent.isMove
    clientDone := fun b => b.sendPc = .done
    clientFailed := fun _ => false
    clientReport := TcpLink.sendReport
    serverDone := fun b => b.recvPc = .done
    serverFailed := fun b => b.recvPc = .failed
    serverReport := TcpLink.recvReport }

/-- The TCP download of a plan over a connection of the given capacity, with
    its exchange of reports. -/
def tcpDown (opts : BenchOptions) (plan : Plan) (capacity : Nat) :
    Body TcpLink TcpEvent TestReport :=
  { init := TcpLink.init
    step := TcpLink.step (Server.runTcpDown (opts.request plan))
      (Client.tcpReceiver opts.duration opts.tcpChunk) capacity
    moves := TcpEvent.isMove
    clientDone := fun b => b.recvPc = .done
    clientFailed := fun b => b.recvPc = .failed
    clientReport := TcpLink.recvReport
    serverDone := fun b => b.sendPc = .done
    serverFailed := fun _ => false
    serverReport := TcpLink.sendReport }

end ProxyPen
