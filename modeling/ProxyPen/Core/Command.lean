import ProxyPen.Core.Bandwidth
import ProxyPen.Core.PressRun
import ProxyPen.Core.Session
import ProxyPen.Core.Tunnel
import ProxyPen.Lib.Calls

/-!
# Commands and Their Connections

The commands `test`, `press` and `benchmark` of `main.rs` from the command
line to the last connection they open: how the transport is built, how a
target is resolved, and which addresses `transport.rs`, `direct.rs`, the
SOCKS5 client, the DNS client and the tests connect to.

A command is a program whose calls are the operations that name someone
outside: a lookup by the system's resolver, a connection, an address that
datagrams are sent to, a login at the proxy, a command to it, an interface a
socket is bound to. What happens on an open connection is one operation with
everything the other side answers as its result, since it names nobody new.

Binding a socket to a wildcard address, its options and `nodelay` have no
operation of their own. Their failure is that of the connection.

## Main definitions

* `Act`, `Answer`: The operations of a command, and what they return.
* `Transport.connectTcp`, `Transport.openUdp`: Connections over a transport.
* `prepare`: Resolving a target before its test.
* `Http1.testOver`, `Http2.testOver`, `Http3.testOver`: The tests with their
  connections.
* `runTest`, `Press.setUp`, `Press.commandTrial`, `Bench.runBenchmark`: The
  commands.
-/

namespace ProxyPen

open Outcome Protocol Net Socks

inductive InterfaceSpec where
  | name (n : String)
  | address (ip : IpAddr)
  deriving DecidableEq

/-- How to reach a target. A direct transport may be bound to an interface. -/
inductive Transport where
  | socks5 (config : ProxyConfig)
  | direct (interface : Option InterfaceSpec)
  deriving DecidableEq

/-! ## Operations -/

/-- An operation that names someone outside. -/
inductive Act where
  /-- `lookup_host`, and `to_socket_addrs` of a text -/
  | lookup (name : String)
  /-- `to_socket_addrs` of the address in a reply -/
  | resolve (a : SocksAddr)
  /-- `TcpStream::connect` to a text, which resolves a host name by itself -/
  | dialName (addr : String)
  /-- a TCP connection to an address -/
  | dial (addr : SocketAddr)
  /-- `apply_interface` or `bind_by_name` on a new socket -/
  | bindTo (iface : InterfaceSpec) (ipv6 : Bool)
  /-- a UDP socket connected to an address, or the address given to quinn -/
  | udp (addr : SocketAddr)
  | authenticate (auth : Option ProxyAuth)
  /-- a SOCKS5 command, answered with the address in its reply -/
  | command (cmd : UInt8) (dst : SocksAddr)
  /-- the address in the headers of all datagrams to the relay -/
  | relayed (dst : SocksAddr)
  | randomId
  /-- a datagram, and the next one to come before the timeout -/
  | query (datagram : Bytes)
  | http1
  | http2
  | http3
  /-- `spawn_local_server` -/
  | serve (port : UInt16)
  /-- the handshake of a bench session -/
  | handshake
  | request (req : TestRequest)
  /-- a data phase with its exchange of reports -/
  | transfer (plan : Plan)
  deriving DecidableEq

/-- What an operation returns. -/
abbrev Answer : Act → Type
  | .lookup _ => Except IoError (List SocketAddr)
  | .resolve _ => Except IoError (List SocketAddr)
  | .dialName _ => Except IoError Unit
  | .dial _ => Except IoError Unit
  | .bindTo _ _ => Except ProxyPenError Unit
  | .udp _ => Except IoError Unit
  | .authenticate _ => Except ProxyPenError Unit
  | .command _ _ => Except ProxyPenError SocksAddr
  | .relayed _ => Unit
  | .randomId => UInt16
  | .query _ => Except IoError (Option Bytes)
  | .http1 => Http1.Exchange
  | .http2 => Http2.Exchange
  | .http3 => Http3.Exchange
  | .serve _ => Except String SocketAddr
  | .handshake => Except String Unit
  | .request _ => Except String TestResponse
  | .transfer _ => Except String BenchOutcome

/-- A program of these operations. -/
abbrev Cmd := Calls Act Answer

namespace Cmd

variable {ε α : Type}

/-- Perform an operation. -/
def act (op : Act) : Cmd ε (Answer op) := Calls.ask op

/-- The `?` operator. -/
def raise (r : Except ε α) : Cmd ε α :=
  match r with
  | .ok a => Calls.ret a
  | .error e => Calls.fail e

/-- The `?` operator on a socket operation. -/
def io (r : Except IoError α) : Cmd ProxyPenError α :=
  match r with
  | .ok a => Calls.ret a
  | .error e => Calls.fail (.io e)

end Cmd

/-- What the commands use of the standard library and the URL parser. -/
structure Outside where
  parseUrl : String → Outcome String Url
  ioText : IoError → String
  showIp : IpAddr → String
  showAddr : SocketAddr → String

open Calls Cmd

/-! ## Transports -/

def parseInterface (s : String) : InterfaceSpec :=
  match parseIpAddr s with
  | some ip => .address ip
  | none => .name s

/-- A new socket, bound to the interface if there is one. -/
def Direct.bound (iface : Option InterfaceSpec) (ipv6 : Bool) : Cmd ProxyPenError Unit :=
  match iface with
  | none => ret ()
  | some spec => do
      let bound ← act (.bindTo spec ipv6)
      raise bound

/-- `resolve_target`, which asks the system's resolver last. -/
def Direct.locate (target : TestTarget) : Cmd ProxyPenError SocketAddr :=
  if target.resolvedAddr.isNone ∧ (parseIpAddr target.host).isNone then do
    let addrs ← act (.lookup target.hostPort)
    let addrs ← io addrs
    lift (Direct.resolveTarget (fun _ => ok addrs) target)
  else lift (Direct.resolveTarget (fun _ => ok []) target)

def Direct.connectTcp (target : TestTarget) (iface : Option InterfaceSpec) :
    Cmd ProxyPenError Unit := do
  let addr ← Direct.locate target
  Direct.bound iface (!addr.isIpv4)
  let dialled ← act (.dial addr)
  io dialled

/-- The connection of a SOCKS5 client, up to the granted login. -/
def Socks.logIn (config : ProxyConfig) : Cmd ProxyPenError Unit := do
  let dialled ← act (.dialName config.addr)
  io dialled
  let granted ← act (.authenticate config.auth)
  raise granted

/-- `connector::connect` with the connection it opens. -/
def Socks.Connector.dial (config : ProxyConfig) (target : TestTarget) : Cmd ProxyPenError Unit := do
  logIn config
  let reply ← act (.command cmdTcpConnect target.toSocksAddr)
  let _ ← raise reply
  return ()

/-- The relay is unspecified and the proxy's address is a name. -/
def Socks.Associate.looksUp (found : Except IoError (List SocketAddr)) (addr : String) : Bool :=
  match found with
  | .ok (relay :: _) => relay.ip.isUnspecified && (parseSocketAddr addr).isNone
  | _ => false

/-- The lookup of the proxy's own name, if there is one. -/
def Socks.Associate.lookUpProxy (found : Except IoError (List SocketAddr)) (addr : String) :
    Cmd ProxyPenError (Except IoError (List SocketAddr)) :=
  if looksUp found addr then act (.lookup addr) else ret (.ok [])

/-- `associate::associate` with its connection and its socket. -/
def Socks.Associate.dial (out : Outside) (config : ProxyConfig) : Cmd ProxyPenError SocketAddr := do
  logIn config
  let reply ← act (.command cmdUdpAssociate bindHint)
  let bindAddr ← raise reply
  let found ← act (.resolve bindAddr)
  let proxy ← lookUpProxy found config.addr
  let relay ← lift ((relayAddr ⟨fun _ => found, fun _ => proxy, out.ioText⟩ config.addr
    bindAddr).mapErr .socks)
  let connected ← act (.udp relay)
  io connected
  return relay

namespace Transport

def connectTcp (transport : Transport) (target : TestTarget) : Cmd ProxyPenError Unit :=
  match transport with
  | .socks5 config => Connector.dial config target
  | .direct iface => Direct.connectTcp target iface

def openUdp (out : Outside) (transport : Transport) (target : SocketAddr) :
    Cmd ProxyPenError TransportUdpSocket :=
  match transport with
  | .direct iface => do
      Direct.bound iface (!target.isIpv4)
      let connected ← act (.udp target)
      io connected
      return .direct
  | .socks5 config => do
      let _ ← Associate.dial out config
      let _ ← act (.relayed (SocksAddr.ofSocketAddr target))
      return .socks5 (SocksAddr.ofSocketAddr target)

end Transport

/-! ## Names -/

/-- `parse_server`: an address, or an IP address at `DEFAULT_DNS_PORT`. -/
def Dns.parseServer (raw : String) : Outcome ProxyPenError SocketAddr :=
  match parseSocketAddr raw with
  | some addr => ok addr
  | none => match parseIpAddr raw with
    | some ip => ok { ip, port := 53 }
    | none => err (.invalidConfig ("DNS server must be an IP or IP:PORT, got '" ++ raw ++ "'"))

/-- `resolve_a` with the socket it opens. -/
def Dns.resolveOver (out : Outside) (transport : Transport) (server : SocketAddr)
    (hostname : String) : Cmd ProxyPenError Ipv4Addr :=
  if (strBytes hostname).length > maxNameLen then
    fail (.invalidConfig ("DNS hostname too long: " ++ hostname))
  else do
    let socket ← transport.openUdp out server
    let id ← act .randomId
    let query ← lift (encodeQuery id hostname)
    let datagram ← lift (Dns.io (socket.send query))
    let reply ← act (.query datagram)
    let reply ← Cmd.io reply
    lift (Dns.resolveA socket (out.showAddr server) id hostname reply)

/-- The lines of `run_test` and `run_press` in front of the test. -/
def prepare (out : Outside) (transport : Transport) (dns : Option SocketAddr) (resolve : Bool)
    (target : TestTarget) : Cmd ProxyPenError TestTarget :=
  match dns with
  | some server =>
      if (parseIpAddr target.host).isNone then do
        let ip ← Dns.resolveOver out transport server target.host
        return { target with resolvedAddr := some (.v4 ip) }
      else return target
  | none =>
      if resolve then
        -- `resolve_local`: an address needs no lookup.
        if (parseIpAddr target.host).isSome then return target
        else do
          let addrs ← act (.lookup target.hostPort)
          let addrs ← io addrs
          lift (Dns.io (target.resolveLocal (fun _ => ok addrs)))
      else return target

/-! ## Tests -/

/-- `http1::do_test` -/
def Http1.testOver (transport : Transport) (target : TestTarget) :
    Cmd ProxyPenError Http.TestResult := do
  transport.connectTcp target
  let x : Http1.Exchange ← act .http1
  lift (Http1.doTest target { x with connect := ok () })

/-- `http2::do_test` -/
def Http2.testOver (transport : Transport) (target : TestTarget) :
    Cmd ProxyPenError Http.TestResult := do
  let _ ← lift (Http2.uri target)
  transport.connectTcp target
  let x : Http2.Exchange ← act .http2
  lift (Http2.doTest target { x with connect := ok () })

/-- `build_socks_endpoint` and `build_direct_endpoint`, with the address that
    quinn is then told to connect to. -/
def Http3.endpoint (out : Outside) (transport : Transport) (target : TestTarget) :
    Cmd ProxyPenError Unit :=
  match transport with
  | .socks5 config => do
      let relay ← Associate.dial out config
      let _ ← lift (Http3.resolveTargetForSocks target relay)
      -- Whatever quinn takes for the target, the datagrams go to the relay.
      let _ ← act (.relayed target.toSocksAddr)
      return ()
  | .direct iface => do
      let addr ← Direct.locate target
      Direct.bound iface (!addr.isIpv4)
      let connected ← act (.udp addr)
      io connected

/-- `http3::do_test` -/
def Http3.testOver (out : Outside) (transport : Transport) (target : TestTarget) :
    Cmd ProxyPenError Http.TestResult := do
  Http3.endpoint out transport target
  let x : Http3.Exchange ← act .http3
  lift (Http3.doTest target { x with endpoint := ok () })

/-- `do_test` of the module of a protocol. -/
def Http.testOver (out : Outside) (transport : Transport) (target : TestTarget) :
    Http.Protocol → Cmd ProxyPenError Http.TestResult
  | .http1 => Http1.testOver transport target
  | .http2 => Http2.testOver transport target
  | .http3 => Http3.testOver out transport target

/-- `test` of the module of a protocol. -/
def Http.timedTest (out : Outside) (transport : Transport) (target : TestTarget)
    (protocol : Http.Protocol) : Cmd ProxyPenError Http.TestResult := do
  let ended ← within (Http.testOver out transport target protocol)
  lift (Http.settle out.ioText protocol ended)

/-! ## Commands -/

structure TransportArgs where
  proxy : Option String
  interface : Option String
  dnsServer : Option String

namespace TransportArgs

def build (out : Outside) (args : TransportArgs) : Outcome String Transport :=
  match args.proxy, args.interface with
  | some _, some _ => err "--interface is only valid in direct mode (omit --proxy)"
  | some proxy, none => do
      let config ← parseProxyUrl out.parseUrl proxy
      ok (.socks5 config)
  | none, iface => ok (.direct (iface.map parseInterface))

def buildDns (out : Outside) (args : TransportArgs) : Outcome String (Option SocketAddr) :=
  match args.dnsServer with
  | none => ok none
  | some raw => do
      let server ← (Dns.parseServer raw).mapErr (fun e => e.text out.ioText)
      ok (some server)

end TransportArgs

structure TestArgs where
  transport : TransportArgs
  target : Option String
  /-- `none` is `all` -/
  protocol : Option Http.Protocol
  resolve : Bool

/-- The protocols `run_test` tests, in order. -/
def TestArgs.protocols (args : TestArgs) : List Http.Protocol :=
  match args.protocol with
  | some protocol => [protocol]
  | none => [.http1, .http2, .http3]

/-- One test after the other. -/
def testEach (out : Outside) (transport : Transport) (target : TestTarget) :
    List Http.Protocol → Cmd ProxyPenError (List Http.TestResult)
  | [] => return []
  | protocol :: rest => do
      let result ← Http.timedTest out transport target protocol
      let results ← testEach out transport target rest
      return result :: results

/-- `run_test`, with the exit status of the program. -/
def runTest (out : Outside) (args : TestArgs) : Cmd String Nat := do
  let transport ← lift (args.transport.build out)
  let dns ← lift (args.transport.buildDns out)
  match args.target with
  | none => fail "--target is required"
  | some url => do
      let target ← lift (parseTargetUrl out.parseUrl url false)
      let results ← mapErr (fun e => e.text out.ioText) do
        let target ← prepare out transport dns args.resolve target
        testEach out transport target args.protocols
      return if results.all (fun r => r.status = .success) then 0 else 1

namespace Press

structure PressArgs where
  transport : TransportArgs
  target : String
  insecure : Bool
  resolve : Bool

/-- `run_press` up to its call of `press`: the transport and the target of all
    requests. -/
def setUp (out : Outside) (args : PressArgs) : Cmd String (Transport × TestTarget) := do
  let transport ← lift (args.transport.build out)
  let dns ← lift (args.transport.buildDns out)
  let target ← lift (parseTargetUrl out.parseUrl args.target args.insecure)
  let target ← mapErr (fun e => e.text out.ioText) (prepare out transport dns args.resolve target)
  return (transport, target)

/-- The test of one request, whose command has the past `before`. -/
def commandTrial (out : Outside) (transport : Transport) (target : TestTarget)
    (protocol : Http.Protocol) (before : Past Answer) :
    Trial (Running Act Answer ProxyPenError Http.TestResult) (World Answer) :=
  { init := { prog := Http.testOver out transport target protocol, past := before }
    step := Calls.step
    ended := fun s => match s.prog with
      | .ret result => some (some result.status)
      | .fail e => some (some (.failed (e.text out.ioText)))
      | .panic => some none
      | _ => none }

end Press

namespace Bench

/-- `rsplit_once(':')`, and the port. -/
def splitHostPort (raw : String) : Outcome String (String × UInt16) :=
  let (port, host) := raw.toList.reverse.span (fun c => c ≠ ':')
  match host with
  | [] => err ("expected HOST:PORT, got '" ++ raw ++ "'")
  | _ :: host => match Http1.parseU16 port.reverse with
    | none => err ("invalid port in '" ++ raw ++ "'")
    | some port => ok (String.ofList host.reverse, port)

def parseBenchTarget (out : Outside) (raw : String) (dns : Option SocketAddr)
    (transport : Transport) : Cmd String SocketAddr :=
  match parseSocketAddr raw with
  | some addr => return addr
  | none => match dns with
    | some server => do
        let (host, port) ← lift (splitHostPort raw)
        let ip ← mapErr (fun e => e.text out.ioText) (Dns.resolveOver out transport server host)
        return { ip := .v4 ip, port }
    | none => do
        let addrs ← act (.lookup raw)
        let addrs ← mapErr (fun e => e.text out.ioText) (io addrs)
        match addrs with
        | addr :: _ => return addr
        | [] => fail ("could not resolve " ++ raw)

def syntheticTarget (out : Outside) (addr : SocketAddr) : TestTarget :=
  { host := out.showIp addr.ip, port := addr.port, path := "", useTls := false,
    resolvedAddr := some addr.ip, dangerAcceptInvalidCerts := false }

/-- The connection of a data phase. -/
def openData (out : Outside) (transport : Transport) (server : SocketAddr) (kind : UInt8) :
    Cmd ProxyPenError Unit :=
  if kind = kindTcpUp ∨ kind = kindTcpDown then transport.connectTcp (syntheticTarget out server)
  else do
    let _ ← transport.openUdp out server
    return ()

/-- The loop of `run_inner` over its plans. -/
def runTests (out : Outside) (transport : Transport) (opts : BenchOptions) (target : SocketAddr) :
    List Plan → Cmd String (List BenchOutcome)
  | [] => return []
  | plan :: plans => do
      let resp ← act (.request (opts.request plan))
      let resp ← raise resp
      if resp.status ≠ statusOk then
        fail ("server rejected test " ++ plan.label ++ ": " ++ resp.error)
      else do
        mapErr (fun e => e.text out.ioText)
          (openData out transport { ip := target.ip, port := resp.dataPort } plan.kind)
        let outcome ← act (.transfer plan)
        let outcome ← raise outcome
        let outcomes ← runTests out transport opts target plans
        return outcome :: outcomes

structure Args where
  transport : TransportArgs
  target : Option String
  serve : Bool
  servePort : Option UInt16
  mode : BenchMode
  direction : BenchDirection
  duration : UInt64
  udpBandwidth : String
  udpSize : UInt64
  tcpChunk : UInt64

/-- The in-process server of `--serve`. -/
def localServer (serve : Bool) (servePort : Option UInt16) : Cmd String (Option SocketAddr) :=
  if serve then do
    let addr ← act (.serve (servePort.getD 0))
    let addr ← raise addr
    return some addr
  else return none

/-- `run_inner`, whose conversation with the server is that of
    `Client.runInner`. -/
def runInner (out : Outside) (formatRateBps : UInt64 → String) (transport : Transport)
    (target : Option SocketAddr) (serve : Bool) (servePort : Option UInt16)
    (opts : BenchOptions) : Cmd String (List BenchOutcome) := do
  let guard ← localServer serve servePort
  match target.or guard with
  | none => fail "--target is required when --serve is not set"
  | some target => do
      let plans := buildPlans formatRateBps opts
      if plans.isEmpty then
        fail "no tests selected (check --mode/--direction/--udp-bandwidth)"
      else do
        mapErr (fun e => e.text out.ioText) (transport.connectTcp (syntheticTarget out target))
        let shaken ← act .handshake
        raise shaken
        runTests out transport opts target plans

/-- The target of `--target`, if there is one. -/
def givenTarget (out : Outside) (target : Option String) (dns : Option SocketAddr)
    (transport : Transport) : Cmd String (Option SocketAddr) :=
  match target with
  | some raw => do
      let addr ← parseBenchTarget out raw dns transport
      return some addr
  | none => return none

def runBenchmark (out : Outside) (formatRateBps : UInt64 → String) (args : Args) :
    Cmd String (List BenchOutcome) := do
  let transport ← lift (args.transport.build out)
  let dns ← lift (args.transport.buildDns out)
  let bandwidths ← lift (Bandwidth.parseBandwidthList args.udpBandwidth)
  let target ← givenTarget out args.target dns transport
  let opts := BenchArgs.options
    { mode := args.mode, direction := args.direction, duration := args.duration,
      udpBandwidth := bandwidths, udpSize := args.udpSize, tcpChunk := args.tcpChunk }
  runInner out formatRateBps transport target args.serve args.servePort opts

end Bench

end ProxyPen
