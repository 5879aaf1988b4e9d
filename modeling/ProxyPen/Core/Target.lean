import ProxyPen.Core.Dns
import ProxyPen.Core.Net

/-!
# Targets and Proxies

`config.rs` and what the command line makes of its two URLs: the target of a
test with the functions that turn it into an address, and the proxy with its
credentials. The four places that look at a target are here in one file. They
are `to_socks_addr` for a SOCKS5 connection, `resolve_target` of `direct.rs`
for a direct one, `resolve_target_for_socks` of `http3.rs` for QUIC through a
proxy, and the step of `run_test` and `run_press` that asks a DNS server.

The URL parser and the resolver of the operating system are outside the
repository. A parsed URL is the record of what the code reads of it, and the
parser and the lookup are arguments.

## Main definitions

* `TestTarget`, `ProxyConfig`: What a run is told.
* `TestTarget.toSocksAddr`, `Direct.resolveTarget`,
  `Http3.resolveTargetForSocks`: Where a target is.
* `prepareTarget`: Resolving a target before its test.
* `TestTarget.authority`: The name of a target in a request.
* `Url`: A parsed URL.
* `parseTargetUrl`, `parseProxyUrl`: The two URLs of the command line.
-/

namespace ProxyPen

open Outcome Protocol Net Socks

structure ProxyAuth where
  username : String
  password : String
  deriving DecidableEq, Repr

structure ProxyConfig where
  addr : String
  auth : Option ProxyAuth
  deriving DecidableEq, Repr

structure TestTarget where
  host : String
  port : UInt16
  path : String
  useTls : Bool
  resolvedAddr : Option IpAddr
  dangerAcceptInvalidCerts : Bool
  deriving DecidableEq

/-! ## Addresses -/

/-- `SocksAddr::from(SocketAddr)` -/
def Socks.SocksAddr.ofSocketAddr (a : SocketAddr) : SocksAddr :=
  match a.ip with
  | .v4 octets => { addr := .v4 octets, port := a.port }
  | .v6 octets => { addr := .v6 octets, port := a.port }

/-- `SocksAddr::from_domain`: the length of the name is cast to a byte. -/
def Socks.SocksAddr.fromDomain (name : String) (port : UInt16) : SocksAddr :=
  { addr := .domain { len := UInt8.ofNat (strBytes name).length, contents := strBytes name }, port }

namespace TestTarget

def toSocksAddr (target : TestTarget) : SocksAddr :=
  match target.resolvedAddr with
  | some ip => SocksAddr.ofSocketAddr { ip, port := target.port }
  | none => match parseIpAddr target.host with
    | some ip => SocksAddr.ofSocketAddr { ip, port := target.port }
    | none => SocksAddr.fromDomain target.host target.port

/-- `format!("{}:{}", host, port)` -/
def hostPort (target : TestTarget) : String := target.host ++ ":" ++ toString target.port.toNat

/-- Resolve the host with the system's DNS. -/
def resolveLocal (lookupHost : String → Outcome IoError (List SocketAddr)) (target : TestTarget) :
    Outcome IoError TestTarget :=
  if (parseIpAddr target.host).isSome then ok target
  else do
    let addrs ← lookupHost target.hostPort
    ok { target with resolvedAddr := addrs.head?.map SocketAddr.ip }

def authority (target : TestTarget) : String :=
  if target.port = 80 ∨ target.port = 443 then target.host else target.hostPort

end TestTarget

/-- The address a direct connection is made to. -/
def Direct.resolveTarget (lookupHost : String → Outcome IoError (List SocketAddr))
    (target : TestTarget) : Outcome ProxyPenError SocketAddr :=
  match target.resolvedAddr with
  | some ip => ok { ip, port := target.port }
  | none => match parseIpAddr target.host with
    | some ip => ok { ip, port := target.port }
    | none => do
        let addrs ← Dns.io (lookupHost target.hostPort)
        match addrs.head? with
        | some addr => ok addr
        | none =>
            err (.invalidConfig ("DNS lookup returned no addresses for " ++ target.host))

/-- The address quinn is told to connect to behind a proxy. -/
def Http3.resolveTargetForSocks (target : TestTarget) (relayAddr : SocketAddr) :
    Outcome ProxyPenError SocketAddr :=
  match target.resolvedAddr with
  | some ip => ok { ip, port := target.port }
  | none => match parseIpAddr target.host with
    | some ip => ok { ip, port := target.port }
    -- The proxy is taken to route a domain.
    | none => ok relayAddr

/-- What a query to the DNS server of `--dns-server` depends on besides the
    hostname. -/
structure DnsExchange where
  socket : TransportUdpSocket
  server : String
  id : UInt16
  reply : Option Bytes

/-- The step of `run_test` and `run_press` before the test: `--dns-server`
    first, else `--resolve`. -/
def prepareTarget (dns : Option DnsExchange) (resolve : Bool)
    (lookupHost : String → Outcome IoError (List SocketAddr)) (target : TestTarget) :
    Outcome ProxyPenError TestTarget :=
  match dns with
  | some dns =>
      if (parseIpAddr target.host).isNone then do
        let ip ← Dns.resolveA dns.socket dns.server dns.id target.host dns.reply
        ok { target with resolvedAddr := some (.v4 ip) }
      else ok target
  | none => if resolve then Dns.io (target.resolveLocal lookupHost) else ok target

/-! ## Requests -/

/-- The path of a request. -/
def TestTarget.requestPath (target : TestTarget) : String :=
  if target.path.isEmpty then "/" else target.path

/-- The request of `http1::do_test`. -/
def Http1.request (target : TestTarget) : String :=
  "GET " ++ target.requestPath ++ " HTTP/1.1\r\nHost: " ++ target.authority ++
    "\r\nConnection: close\r\nUser-Agent: proxypen/0.1\r\n\r\n"

/-- The URI of `http2::do_test`, which refuses a target without TLS. -/
def Http2.uri (target : TestTarget) : Outcome ProxyPenError String :=
  if !target.useTls then err (.invalidConfig "HTTP/2 requires TLS (use https:// target)")
  else ok ("https://" ++ target.authority ++ target.requestPath)

/-- The URI of `http3::do_test`. -/
def Http3.uri (target : TestTarget) : String :=
  "https://" ++ target.authority ++ target.requestPath

/-! ## Command line -/

/-- What the code reads of a parsed URL. -/
structure Url where
  scheme : String
  username : String
  password : Option String
  hostStr : Option String
  port : Option UInt16
  path : String
  deriving DecidableEq, Repr

def parseTargetUrl (parse : String → Outcome String Url) (raw : String) (insecure : Bool) :
    Outcome String TestTarget := do
  let url ← parse raw
  let useTls := decide (url.scheme = "https")
  match url.hostStr with
  | none => err "target URL missing host"
  | some host =>
      ok { host, port := url.port.getD (if useTls then 443 else 80), path := url.path, useTls,
           resolvedAddr := none, dangerAcceptInvalidCerts := insecure }

/-- `str::contains` of a text. -/
def strContains (s pattern : String) : Bool :=
  s.toList.tails.any (fun rest => pattern.toList.isPrefixOf rest)

def parseProxyUrl (parse : String → Outcome String Url) (raw : String) :
    Outcome String ProxyConfig := do
  let urlStr := if strContains raw "://" then raw else "socks5://" ++ raw
  let url ← parse urlStr
  match url.hostStr with
  | none => err "proxy URL missing host"
  | some host =>
      let port := url.port.getD 1080
      let auth :=
        if url.username.isEmpty then none
        else some { username := url.username, password := url.password.getD "" }
      ok { addr := host ++ ":" ++ toString port.toNat, auth }

end ProxyPen
