import ProxyPen.Core.Press
import ProxyPen.Core.Target
import ProxyPen.Lib.Split

/-!
# HTTP Tests

`http1.rs`, `http2.rs` and `http3.rs` with the result they report, and the
responses of the test server in `http_server.rs`. HTTP/1.1 is read off the
stream by the code itself, so the stream of bytes and its reads are modelled
here. The HTTP/2 and HTTP/3 libraries hand out a status and the data frames of
the body.

What the network and the libraries answer during one test is an `Exchange`, a
record with one answer per operation. An operation that fails ends the test,
so the answers behind it go unused. Durations are left out.

## Main definitions

* `Http.TestResult`: What a test reports.
* `Http1.parseStatusLine`: The status of a raw response.
* `Http1.doTest`, `Http2.doTest`, `Http3.doTest`: One test each.
* `Http1.test`, `Http2.test`, `Http3.test`: The same under a timeout.
* `Server.serveHttp1`, `Server.serveHttp2`, `Server.serveHttp3Conn`: The
  responses of the test server.
-/

namespace ProxyPen

open Outcome Protocol Socks
open Press (TestStatus)

/-- The text of an error. An `io::Error` prints its own. -/
def ProxyPenError.text (ioText : IoError → String) : ProxyPenError → String
  | socks msg => "SOCKS5 error: " ++ msg
  | io e => "IO error: " ++ ioText e
  | http msg => "HTTP error: " ++ msg
  | tls msg => "TLS error: " ++ msg
  | quic msg => "QUIC error: " ++ msg
  | timeout => "timeout"
  | invalidConfig msg => "invalid config: " ++ msg

namespace Http

inductive Protocol where
  | http1
  | http2
  | http3
  deriving DecidableEq, Repr

structure TestResult where
  protocol : Protocol
  status : TestStatus
  httpStatus : Option UInt16
  responseSize : Option Nat
  deriving DecidableEq, Repr

namespace TestResult

def success (protocol : Protocol) (httpStatus : UInt16) (responseSize : Nat) : TestResult :=
  { protocol, status := .success, httpStatus := some httpStatus,
    responseSize := some responseSize }

def failure (protocol : Protocol) (msg : String) : TestResult :=
  { protocol, status := .failed msg, httpStatus := none, responseSize := none }

end TestResult

/-- `test` of all three modules: what becomes of a test, or of its timeout. -/
def settle (ioText : IoError → String) (protocol : Protocol) :
    Option (Outcome ProxyPenError TestResult) → Outcome ProxyPenError TestResult
  | none => ok (.failure protocol "timeout")
  | some (.ok result) => ok result
  | some (.err e) => ok (.failure protocol (e.text ioText))
  | some .panic => panic

end Http

/-! ## HTTP/1.1 -/

namespace Http1

open Http

/-- The digits of a number below `bound`, behind those that make up `v`. -/
def readDigits (bound : Nat) : Nat → List Char → Option Nat
  | v, [] => some v
  | v, c :: cs =>
      if c.isDigit then
        let v' := v * 10 + (c.toNat - 48)
        if v' < bound then readDigits bound v' cs else none
      else none

/-- `u16::from_str`: a plus sign may stand in front of the digits. -/
def parseU16 (text : List Char) : Option UInt16 :=
  let digits := if text.head? = some '+' then text.tail else text
  if digits = [] then none else (readDigits (2 ^ 16) 0 digits).map UInt16.ofNat

/-- `str::find`, in bytes. -/
def find (pattern : Bytes) : Bytes → Option Nat
  | [] => if pattern = [] then some 0 else none
  | b :: bs =>
      if pattern.isPrefixOf (b :: bs) then some 0 else (find pattern bs).map (fun i => i + 1)

/-- The offset behind the first empty line, or the end of the buffer. -/
def headerEnd (response : String) (buf : Bytes) : Nat :=
  match find (strBytes "\r\n\r\n") (strBytes response) with
  | some i => i + 4
  | none => buf.length

/-- The status code, and the offset behind the header. -/
def parseStatusLine (buf : Bytes) : Outcome ProxyPenError (UInt16 × Nat) :=
  let response := fromUtf8Lossy buf
  -- `lines().next()`: only an empty text has no line.
  if response.toList = [] then err (.http "empty response")
  else
    let firstLine := Split.firstLine '\n' '\r' response.toList
    match Split.splitn ' ' 3 firstLine with
    | _ :: code :: _ => match parseU16 code with
        | none => err (.http ("invalid status code: " ++ String.ofList code))
        | some status => ok (status, headerEnd response buf)
    | _ => err (.http ("malformed status line: " ++ String.ofList firstLine))

/-- What the network answers during a test. A stream whose reads have all been
    given is at its end. -/
structure Exchange where
  /-- `transport.connect_tcp` -/
  connect : Outcome ProxyPenError Unit
  /-- `ServerName::try_from` -/
  serverName : Outcome String Unit
  /-- `connector.connect` -/
  tlsConnect : Outcome String Unit
  /-- `write_all` of the request -/
  write : Bytes → Outcome IoError Unit
  /-- `read`, one answer after the other -/
  reads : List (Outcome IoError Bytes)

/-- The loop that reads the rest of a response. `tls` is whether an unexpected
    end counts as an end. -/
def readRest (tls : Bool) (buf : Bytes) : List (Outcome IoError Bytes) → Outcome ProxyPenError Bytes
  | [] => ok buf
  | .ok chunk :: reads => if chunk = [] then ok buf else readRest tls (buf ++ chunk) reads
  | .err (.unexpectedEof msg) :: _ => if tls then ok buf else err (.io (.unexpectedEof msg))
  | .err e :: _ => err (.io e)
  | .panic :: _ => panic

/-- The first read is one of its own: none of its errors is an end. -/
def readResponse (tls : Bool) : List (Outcome IoError Bytes) → Outcome ProxyPenError Bytes
  | [] => ok []
  | first :: reads => do
      let chunk ← Dns.io first
      readRest tls chunk reads

def doTest (target : TestTarget) (x : Exchange) : Outcome ProxyPenError TestResult := do
  x.connect
  if target.useTls then
    -- `make_tls_config` has no error path.
    x.serverName.mapErr (fun e => .tls ("invalid server name: " ++ e))
    x.tlsConnect.mapErr .tls
  Dns.io (x.write (strBytes (request target)))
  let buf ← readResponse target.useTls x.reads
  let (status, _) ← parseStatusLine buf
  -- The size is that of everything that was read.
  ok (.success .http1 status buf.length)

def test (ioText : IoError → String) (timedOut : Bool) (target : TestTarget) (x : Exchange) :
    Outcome ProxyPenError TestResult :=
  settle ioText .http1 (if timedOut then none else some (doTest target x))

end Http1

/-! ## HTTP/2 -/

namespace Http2

open Http

/-- What the network and the HTTP/2 library answer during a test. -/
structure Exchange where
  /-- `transport.connect_tcp` -/
  connect : Outcome ProxyPenError Unit
  /-- `ServerName::try_from` -/
  serverName : Outcome String Unit
  /-- `connector.connect` -/
  tlsConnect : Outcome String Unit
  /-- `client::handshake` -/
  handshake : Outcome String Unit
  /-- the request builder, given the URI -/
  build : String → Outcome String Unit
  /-- `sender.send_request` -/
  send : Outcome String Unit
  /-- the status of the response -/
  response : Outcome String UInt16
  /-- `body.data()`, and `release_capacity` of each chunk -/
  chunks : List (Outcome String (Bytes × Outcome String Unit))

/-- `From<h2::Error>` -/
def h2Error (e : String) : ProxyPenError := .http ("h2: " ++ e)

/-- The loop over the chunks of the body, `total` bytes of which are behind it. -/
def readBody : Nat → List (Outcome String (Bytes × Outcome String Unit)) →
    Outcome ProxyPenError Nat
  | total, [] => ok total
  | total, next :: chunks => do
      let (chunk, release) ← next.mapErr h2Error
      release.mapErr h2Error
      readBody (total + chunk.length) chunks

def doTest (target : TestTarget) (x : Exchange) : Outcome ProxyPenError TestResult := do
  -- A target without TLS is refused before anything else.
  let uri ← uri target
  x.connect
  x.serverName.mapErr (fun e => .tls ("invalid server name: " ++ e))
  x.tlsConnect.mapErr .tls
  x.handshake.mapErr h2Error
  (x.build uri).mapErr (fun e => .http ("request build: " ++ e))
  x.send.mapErr h2Error
  let httpStatus ← x.response.mapErr h2Error
  let totalSize ← readBody 0 x.chunks
  ok (.success .http2 httpStatus totalSize)

def test (ioText : IoError → String) (timedOut : Bool) (target : TestTarget) (x : Exchange) :
    Outcome ProxyPenError TestResult :=
  settle ioText .http2 (if timedOut then none else some (doTest target x))

end Http2

/-! ## HTTP/3 -/

namespace Http3

open Http

/-- What the network and the QUIC and HTTP/3 libraries answer during a test. -/
structure Exchange where
  /-- `build_socks_endpoint` or `build_direct_endpoint` -/
  endpoint : Outcome ProxyPenError Unit
  /-- `make_quic_client_config` -/
  config : Outcome ProxyPenError Unit
  /-- `endpoint.connect_with` -/
  connect : Outcome String Unit
  /-- the QUIC handshake -/
  connection : Outcome String Unit
  /-- `h3::client::new` -/
  handshake : Outcome String Unit
  /-- the request builder, given the URI -/
  build : String → Outcome String Unit
  /-- whether the driver of the connection ends before the request does -/
  closed : Bool
  /-- `sender.send_request` -/
  send : Outcome String Unit
  /-- `stream.finish` -/
  finish : Outcome String Unit
  /-- the status of the response -/
  response : Outcome String UInt16
  /-- `stream.recv_data` -/
  chunks : List (Outcome String Bytes)

def readBody : Nat → List (Outcome String Bytes) → Outcome ProxyPenError Nat
  | total, [] => ok total
  | total, next :: chunks => do
      let chunk ← next.mapErr (fun e => .http ("recv data: " ++ e))
      readBody (total + chunk.length) chunks

/-- `request_fut` -/
def requestFut (x : Exchange) : Outcome ProxyPenError (UInt16 × Nat) := do
  x.send.mapErr (fun e => .http ("send request: " ++ e))
  x.finish.mapErr (fun e => .http ("finish request: " ++ e))
  let httpStatus ← x.response.mapErr (fun e => .http ("recv response: " ++ e))
  let totalSize ← readBody 0 x.chunks
  ok (httpStatus, totalSize)

def doTest (target : TestTarget) (x : Exchange) : Outcome ProxyPenError TestResult := do
  x.endpoint
  x.config
  x.connect.mapErr (fun e => .quic ("connect: " ++ e))
  x.connection.mapErr .quic
  x.handshake.mapErr (fun e => .http ("h3 handshake: " ++ e))
  (x.build (uri target)).mapErr (fun e => .http ("request build: " ++ e))
  let (httpStatus, totalSize) ←
    if x.closed then err (.http "connection closed unexpectedly") else requestFut x
  ok (.success .http3 httpStatus totalSize)

def test (ioText : IoError → String) (timedOut : Bool) (target : TestTarget) (x : Exchange) :
    Outcome ProxyPenError TestResult :=
  settle ioText .http3 (if timedOut then none else some (doTest target x))

end Http3

/-! ## Test server -/

namespace Server

/-- The header in front of a body of `n` bytes. -/
def httpHeader (n : Nat) : String :=
  "HTTP/1.1 200 OK\r\n" ++
  "Content-Type: text/plain\r\n" ++
  "Content-Length: " ++ toString n ++ "\r\n" ++
  "Connection: close\r\n" ++
  "Server: proxypen-http-server\r\n" ++
  "\r\n"

/-- What is written to a client from which `request` was read. -/
def serveHttp1 (request body : Bytes) : Bytes :=
  -- A client that has closed its side gets nothing.
  if request = [] then [] else strBytes (httpHeader body.length) ++ body

/-- The same over TLS. -/
def serveHttp1OverTls (request body : Bytes) : Bytes := serveHttp1 request body

/-- A response handed to one of the libraries. -/
structure Response where
  status : UInt16
  headers : List (String × String)
  data : Bytes
  deriving DecidableEq, Repr

def serveHttp2 (body : Bytes) : Response :=
  { status := 200
    headers := [("content-type", "text/plain"), ("server", "proxypen-http-server")]
    data := body }

def serveHttp3Conn (body : Bytes) : Response :=
  { status := 200
    headers := [("content-type", "text/plain"), ("server", "proxypen-http-server")]
    data := body }

end Server

end ProxyPen
