import ProxyPen.Core.Http
import ProxyPen.Lib.Machine

/-!
# The HTTP/1.1 Test Against the Test Server

`do_test` of `http1.rs` on a target without TLS, and `serve_http1` of
`http_server.rs` at the other end of the connection. Connecting succeeds or
fails, with any error. After that either side moves any number of bytes in a
turn, up to the buffer of a read and to the room of the connection: a
`write_all` waits while what it has written is unread and fills that room. What
the client observes is recorded as an `Http1.Exchange`, so the result of a run
is `Http1.doTest` of what was recorded.

The server reads once. If bytes of the client are unread when it drops the
stream, or arrive afterwards, the connection is reset, and a write or a read of
the client may then fail. It need not, since what was on its way to the client
may still be read. Nothing else breaks the connection.

## Main definitions

* `HttpCapacity`: The room of a connection.
* `HttpClientPc`, `HttpServerPc`: Program points.
* `HttpLink`: Both sides and the connection.
* `HttpLink.step`: One turn of either side.
-/

namespace ProxyPen

open Outcome Protocol Socks

/-- The room of a connection: how many bytes can be on their way to the server
    and to the client. -/
structure HttpCapacity where
  up : Nat
  down : Nat
  up_pos : 0 < up
  down_pos : 0 < down

inductive HttpClientPc where
  /-- `transport.connect_tcp` -/
  | connecting
  /-- `write_all` of the request -/
  | writing
  /-- the first `read` -/
  | first
  /-- the `read` of the loop -/
  | rest
  | done
  deriving DecidableEq, Repr

inductive HttpServerPc where
  /-- `stream.read` -/
  | reading
  /-- `write_all`, with what is left of header and body -/
  | writing (left : Bytes)
  /-- after `shutdown`, with the stream dropped -/
  | closed
  deriving DecidableEq, Repr

/-- Both sides and the connection. `unsent` is what the client has left to
    write, and `taken` is what the server has read. -/
structure HttpLink where
  pc : HttpClientPc
  connect : Outcome ProxyPenError Unit
  unsent : Bytes
  wrote : Outcome IoError Unit
  reads : List (Outcome IoError Bytes)
  server : HttpServerPc
  taken : Bytes
  toServer : Bytes
  toClient : Bytes
  deriving DecidableEq, Repr

inductive HttpEvent where
  | connected
  | connectFails (e : ProxyPenError)
  | clientWrite (k : Nat)
  | clientRead (k : Nat)
  /-- the client reads the end of the stream -/
  | clientEof
  /-- an operation of the client fails with the reset of the connection -/
  | clientFails (code : Nat)
  | serverRead (k : Nat)
  | serverWrite (k : Nat)
  | serverClose
  deriving DecidableEq, Repr

namespace HttpLink

/-- Before the connection, with nothing sent. -/
def init (target : TestTarget) : HttpLink :=
  { pc := .connecting
    connect := ok ()
    unsent := strBytes (Http1.request target)
    wrote := ok ()
    reads := []
    server := .reading
    taken := []
    toServer := []
    toClient := [] }

/-- The server has dropped a stream on which there is something unread. -/
def reset (s : HttpLink) : Prop := s.server = .closed ∧ s.toServer ≠ []

instance (s : HttpLink) : Decidable s.reset := inferInstanceAs (Decidable (_ ∧ _))

def step (cap : HttpCapacity) (body : Bytes) (s : HttpLink) : HttpEvent → Option HttpLink
  | .connected => if s.pc = .connecting then some { s with pc := .writing } else none
  | .connectFails e =>
      if s.pc = .connecting then some { s with pc := .done, connect := err e } else none
  | .clientWrite k =>
      if s.pc = .writing ∧ 0 < k ∧ k ≤ s.unsent.length ∧ s.toServer.length + k ≤ cap.up then
        some { s with
          pc := if s.unsent.length ≤ k then .first else .writing
          unsent := s.unsent.drop k
          toServer := s.toServer ++ s.unsent.take k }
      else none
  | .clientRead k =>
      -- `[0u8; 4096]`
      if (s.pc = .first ∨ s.pc = .rest) ∧ 0 < k ∧ k ≤ 4096 ∧ k ≤ s.toClient.length then
        some { s with
          pc := .rest
          reads := s.reads ++ [ok (s.toClient.take k)]
          toClient := s.toClient.drop k }
      else none
  | .clientEof =>
      if s.server = .closed ∧ s.toClient = [] then
        match s.pc with
        -- The first read takes the end for an empty chunk, and the loop reads again.
        | .first => some { s with pc := .rest }
        | .rest => some { s with pc := .done }
        | _ => none
      else none
  | .clientFails code =>
      if s.reset then
        match s.pc with
        | .writing => some { s with pc := .done, wrote := err (.os code) }
        | .first => some { s with pc := .done, reads := s.reads ++ [err (.os code)] }
        | .rest => some { s with pc := .done, reads := s.reads ++ [err (.os code)] }
        | _ => none
      else none
  | .serverRead k =>
      -- `vec![0u8; 8192]`
      if s.server = .reading ∧ 0 < k ∧ k ≤ 8192 ∧ k ≤ s.toServer.length then
        some { s with
          server := .writing (Server.serveHttp1 (s.toServer.take k) body)
          taken := s.toServer.take k
          toServer := s.toServer.drop k }
      else none
  | .serverWrite k => match s.server with
    | .writing left =>
        if 0 < k ∧ k ≤ left.length ∧ s.toClient.length + k ≤ cap.down then
          some { s with server := .writing (left.drop k), toClient := s.toClient ++ left.take k }
        else none
    | _ => none
  | .serverClose => if s.server = .writing [] then some { s with server := .closed } else none

/-- What the client has observed. -/
def exchange (s : HttpLink) : Http1.Exchange :=
  { connect := s.connect
    serverName := ok ()
    tlsConnect := ok ()
    write := fun _ => s.wrote
    reads := s.reads }

end HttpLink

end ProxyPen
