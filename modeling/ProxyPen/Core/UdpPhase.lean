import ProxyPen.Core.Plan
import ProxyPen.Core.Receiver
import ProxyPen.Lib.Exchange

/-!
# The UDP Tests as a Whole

A UDP test between the server's response and the exchange of reports: the two
loops and the datagrams between them. Datagrams in flight are a list from which
the network delivers any element, in any order, and which it may shorten or
copy from. Everything else a test does is the exchange of reports around it.

Besides its send loop, the server of a download has the wait for the hello in
front of it.

A socket that reports an error on receiving is a fault, and losing and copying
datagrams is the network's doing; all other events are steps of a party. That
a send is refused is one of its two answers, so it is a step as well.

## Main definitions

* `Sender.emits`: The datagrams a step of a send loop puts on the network.
* `UpLink`, `udpUp`: The upload.
* `ServeState`, `serveStep`: The server of a download.
* `DownLink`, `udpDown`: The download.
-/

namespace ProxyPen

open Protocol Socks

/-- The datagrams a step of a send loop puts on the network. -/
def Sender.emits (s : SendState) (e : SendEvent) : List Bytes :=
  match s.pc, e with
  | .hello, .accepted => [encodeUdpHeader s.buf 0 0]
  | .send _, .accepted => [s.buf]
  | _, _ => []

/-! ## Upload -/

/-- The data phase of an upload: both loops and the datagrams on their way to
    the server. All of them come from one source. -/
structure UpLink (F : Type) where
  client : SendState
  server : UpState Unit F
  net : List Bytes

inductive UpLinkEvent where
  | client (e : SendEvent)
  | server (e : UpEvent Unit)
  | deliver (i : Nat)
  | lose (i : Nat)
  | duplicate (i : Nat)

namespace UpEvent

/-- The events that bring a datagram. -/
def isDatagram : UpEvent Unit → Bool
  | .datagram _ _ => true
  | _ => false

/-- The events that are a fault of the socket. -/
def isFault : UpEvent Unit → Bool
  | .error => true
  | _ => false

end UpEvent

section

variable {F : Type} [JitterFilter F]

/-- One step of the data phase of an upload. A datagram reaches the server
    only from the network. -/
def UpLink.step (c : Sender) (r : UpReceiver) (b : UpLink F) : UpLinkEvent → Option (UpLink F)
  | .client e => match c.step b.client e with
    -- What the socket accepts is in flight from then on.
    | some s => some { b with client := s, net := b.net ++ Sender.emits b.client e }
    | none => none
  | .server e =>
      if e.isDatagram then none
      else match r.step b.server e with
        | some s => some { b with server := s }
        | none => none
  -- Any datagram in flight may be the next to arrive: reordering.
  | .deliver i => match b.net[i]? with
    | some d => match r.step b.server (.datagram () d) with
      | some s => some { b with server := s, net := b.net.eraseIdx i }
      | none => none
    | none => none
  -- Loss and duplication are the network's doing and not a step of a party.
  | .lose i => if i < b.net.length then some { b with net := b.net.eraseIdx i } else none
  | .duplicate i => match b.net[i]? with
    | some d => some { b with net := b.net ++ [d] }
    | none => none

end

/-- The upload of a plan, with its exchange of reports. -/
def udpUp (F : Type) [JitterFilter F] (opts : BenchOptions) (plan : Plan)
    (sock : TransportUdpSocket) (udpMax : UdpMax) : Body (UpLink F) UpLinkEvent TestReport :=
  let c := Client.runUdpUp sock udpMax opts.duration opts.udpSize plan.bandwidthBps
  let r := Server.runUdpUp (opts.request plan)
  { init := { client := c.init, server := UpReceiver.init, net := [] }
    step := UpLink.step c r
    -- A delivery counts as a step: a datagram in flight can still arrive.
    moves := fun
      | .client _ => true
      | .server e => !e.isFault
      | .deliver _ => true
      | .lose _ => false
      | .duplicate _ => false
    clientDone := fun b => b.client.pc = .done
    clientFailed := fun b => b.client.pc = .failed ∨ b.client.pc = .panicked
    clientReport := fun b dur => b.client.report dur
    serverDone := fun b => b.server.pc = .done
    serverFailed := fun b => b.server.pc = .failed
    serverReport := fun b dur => b.server.report dur }

/-! ## Download -/

/-- The server of a download: waiting for the hello, or in its send loop. -/
inductive ServeState where
  /-- `socket.recv_from(&mut tmp)` -/
  | hello
  | sending (s : SendState)
  /-- `recv_from` failed and the function returned its error -/
  | failed

inductive ServeEvent where
  | datagram (d : Bytes)
  | error
  | send (e : SendEvent)

/-- One step of the server of a download. Whatever arrives first is the
    hello. -/
def serveStep (c : Sender) : ServeState → ServeEvent → Option ServeState
  | .hello, .datagram _ => some (.sending c.init)
  | .hello, .error => some .failed
  | .sending s, .send e => match c.step s e with
    | some s' => some (.sending s')
    | none => none
  | _, _ => none

namespace ServeState

def done : ServeState → Bool
  | .sending s => s.pc = .done
  | _ => false

def isFailed : ServeState → Bool
  | .failed => true
  | .sending s => s.pc = .failed ∨ s.pc = .panicked
  | .hello => false

def report (durationActualNs : Nat) : ServeState → TestReport
  | .sending s => s.report durationActualNs
  | _ => {}

/-- The datagrams a step puts on the network. -/
def emits : ServeState → ServeEvent → List Bytes
  | .sending s, .send e => Sender.emits s e
  | _, _ => []

end ServeState

/-- The data phase of a download: both parties and the datagrams on their way
    in either direction. -/
structure DownLink (F : Type) where
  client : DownState F
  server : ServeState
  up : List Bytes
  down : List Bytes

inductive DownLinkEvent where
  | client (e : DownEvent)
  | server (e : ServeEvent)
  | deliverUp (i : Nat)
  | deliverDown (i : Nat)
  | loseUp (i : Nat)
  | loseDown (i : Nat)
  | duplicateUp (i : Nat)
  | duplicateDown (i : Nat)

namespace DownEvent

/-- The events that bring a datagram. -/
def isDatagram : DownEvent → Bool
  | .datagram _ => true
  | _ => false

end DownEvent

section

variable {F : Type} [JitterFilter F]

/-- One step of the data phase of a download. `carry` is what the path from
    the server makes of a datagram: a relay puts its header in front. -/
def DownLink.step (c : DownReceiver) (r : Sender) (carry : Bytes → Bytes) (b : DownLink F) :
    DownLinkEvent → Option (DownLink F)
  | .client e =>
      if e.isDatagram then none
      else match c.step b.client e with
        | some s =>
            some { b with
              client := s
              up := b.up ++ if e = .accepted then [c.hello] else [] }
        | none => none
  | .server e => match e with
    | .datagram _ => none
    | e => match serveStep r b.server e with
      | some s => some { b with server := s, down := b.down ++ b.server.emits e }
      | none => none
  | .deliverUp i => match b.up[i]? with
    | some d => match serveStep r b.server (.datagram d) with
      | some s => some { b with server := s, up := b.up.eraseIdx i }
      | none => none
    | none => none
  | .deliverDown i => match b.down[i]? with
    | some d => match c.step b.client (.datagram (carry d)) with
      | some s => some { b with client := s, down := b.down.eraseIdx i }
      | none => none
    | none => none
  | .loseUp i => if i < b.up.length then some { b with up := b.up.eraseIdx i } else none
  | .loseDown i => if i < b.down.length then some { b with down := b.down.eraseIdx i } else none
  | .duplicateUp i => match b.up[i]? with
    | some d => some { b with up := b.up ++ [d] }
    | none => none
  | .duplicateDown i => match b.down[i]? with
    | some d => some { b with down := b.down ++ [d] }
    | none => none

end

/-- The download of a plan, with its exchange of reports. Client and server
    have operating systems of their own. -/
def udpDown (F : Type) [JitterFilter F] (opts : BenchOptions) (plan : Plan)
    (sock : TransportUdpSocket) (udpMax serverMax : UdpMax) (carry : Bytes → Bytes) :
    Body (DownLink F) DownLinkEvent TestReport :=
  let c := Client.runUdpDown sock udpMax opts.duration opts.udpSize
  let r := Server.runUdpDown serverMax (opts.request plan)
  { init := { client := DownReceiver.init, server := .hello, up := [], down := [] }
    step := DownLink.step c r carry
    moves := fun
      | .client e => e ≠ .error
      | .server e => match e with
        | .error => false
        | _ => true
      | .deliverUp _ => true
      | .deliverDown _ => true
      | .loseUp _ => false
      | .loseDown _ => false
      | .duplicateUp _ => false
      | .duplicateDown _ => false
    clientDone := fun b => match b.client.pc with
      | .stopped _ => true
      | _ => false
    clientFailed := fun b => b.client.pc = .failed ∨ b.client.pc = .panicked
    clientReport := fun b dur => b.client.report dur
    serverDone := fun b => b.server.done
    serverFailed := fun b => b.server.isFailed
    serverReport := fun b dur => b.server.report dur }

end ProxyPen
