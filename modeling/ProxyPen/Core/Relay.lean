import ProxyPen.Core.UdpPhase

/-!
# The UDP Tests Through a Proxy

The data phases of the UDP tests with what lies between the two loops spelled
out: the socket of `transport.rs`, which puts a header in front of a payload
if there is a proxy, and the relay of that proxy. The relay is not part of the
repository, so what it makes of a datagram in either direction is given.

A datagram in flight is what the socket hands to the operating system. Whether
that takes it, header included, is up to the loop. On the way back the
datagrams are in flight between server and relay, and the relay's header is
put in front on arrival, as in `DownLink.step`.

## Main definitions

* `UdpPath`: A client's socket and the relay behind it.
* `TransportUdpSocket.wire`: The datagram a payload leaves the socket as.
* `UpLink.stepVia`, `DownLink.stepVia`: The data phases over a path.
-/

namespace ProxyPen

open Protocol Socks

/-- A client's socket and the relay behind it: what it passes on to the
    server, and what it puts in front of a datagram for the client. -/
structure UdpPath where
  sock : TransportUdpSocket
  forward : Bytes → Option Bytes
  carry : Bytes → Bytes

/-- The datagram a payload leaves the socket as, if it has a header. -/
def Socks.TransportUdpSocket.wire (sock : TransportUdpSocket) (payload : Bytes) : Option Bytes :=
  match sock.send payload with
  | .ok d => some d
  | _ => none

section

variable {F : Type} [JitterFilter F]

/-- One step of the data phase of an upload over a path. -/
def UpLink.stepVia (p : UdpPath) (c : Sender) (r : UpReceiver) (b : UpLink F) :
    UpLinkEvent → Option (UpLink F)
  | .client e => match (Sender.emits b.client e).mapM p.sock.wire with
    | some ds => match c.step b.client e with
      | some s => some { b with client := s, net := b.net ++ ds }
      | none => none
    | none => none
  | .deliver i => match b.net[i]? with
    | some d => match p.forward d with
      | some payload => match r.step b.server (.datagram () payload) with
        | some s => some { b with server := s, net := b.net.eraseIdx i }
        | none => none
      -- The relay drops what it cannot read.
      | none => some { b with net := b.net.eraseIdx i }
    | none => none
  | e => UpLink.step c r b e

/-- One step of the data phase of a download over a path. -/
def DownLink.stepVia (p : UdpPath) (c : DownReceiver) (r : Sender) (b : DownLink F) :
    DownLinkEvent → Option (DownLink F)
  | .client .accepted => match p.sock.wire c.hello with
    | some d => match c.step b.client .accepted with
      | some s => some { b with client := s, up := b.up ++ [d] }
      | none => none
    | none => none
  | .deliverUp i => match b.up[i]? with
    | some d => match p.forward d with
      | some payload => match serveStep r b.server (.datagram payload) with
        | some v => some { b with server := v, up := b.up.eraseIdx i }
        | none => none
      | none => some { b with up := b.up.eraseIdx i }
    | none => none
  | e => DownLink.step c r p.carry b e

end

end ProxyPen
