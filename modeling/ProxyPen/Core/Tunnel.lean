import ProxyPen.Core.Handshake

/-!
# SOCKS5 Sessions

What follows the handshake of a SOCKS5 session: `send_connect` and
`send_udp_associate` of `socks/handshake.rs`, and the two sessions built on
them, `connect` of `socks/connector.rs` and `associate` of
`socks/associate.rs`. Each is a program on the stream to the proxy, which is
connected already. The relay of an association is worked out from the reply
behind the stream.

The layout of a message is that of the SOCKS5 library, whose writers and whose
reader of addresses are arguments. So are the answers of the operating system:
to lookups, and to opening the socket of an association.

## Main definitions

* `Library`: What the SOCKS5 library writes and reads.
* `CmdReq`, `CmdReply`: A command and its reply.
* `sendConnect`, `sendUdpAssociate`: The two commands.
* `Connector.connect`: The session of a tunnel.
* `Associate.Resolver`, `Associate.System`: What the operating system answers.
* `Associate.relayAddr`: The relay of an association.
* `Associate.openSocket`: The socket that is connected to it.
* `Associate.associate`: The session of an association.
-/

namespace ProxyPen

namespace Net

/-- `is_unspecified` -/
def IpAddr.isUnspecified : IpAddr → Bool
  | .v4 octets => octets.toList.all (fun b => b = 0)
  | .v6 octets => octets.toList.all (fun b => b = 0)

/-- `is_ipv4` -/
def SocketAddr.isIpv4 (a : SocketAddr) : Bool :=
  match a.ip with
  | .v4 _ => true
  | .v6 _ => false

/-- `read_port`: a number of any length, if its value is that of a port. -/
def readPort (input : Bytes) : Option (UInt16 × Bytes) := do
  let input ← readGiven 58 input
  let (n, rest) ← readNumber 10 input.length 65536 true input
  some (UInt16.ofNat n, rest)

/-- `read_scope_id`, of which nothing is kept. -/
def skipScopeId (input : Bytes) : Bytes :=
  match readGiven 37 input with
  | none => input
  | some digits => match readNumber 10 digits.length (2 ^ 32) true digits with
    | none => input
    | some (_, rest) => rest

def readSocketAddrV4 (input : Bytes) : Option (SocketAddr × Bytes) := do
  let (ip, input) ← readIpv4Addr input
  let (port, input) ← readPort input
  some ({ ip := .v4 ip, port }, input)

def readSocketAddrV6 (input : Bytes) : Option (SocketAddr × Bytes) := do
  let input ← readGiven 91 input
  let (ip, input) ← readIpv6Addr input
  let input ← readGiven 93 (skipScopeId input)
  let (port, input) ← readPort input
  some ({ ip := .v6 ip, port }, input)

/-- `parse::<SocketAddr>()`: the whole text is one address with its port. -/
def parseSocketAddr (text : String) : Option SocketAddr :=
  let input := Protocol.strBytes text
  match (readSocketAddrV4 input).orElse (fun _ => readSocketAddrV6 input) with
  | some (addr, []) => some addr
  | _ => none

end Net

namespace Socks

open Protocol Net

/-- `SOCKS5_CMD_TCP_CONNECT` -/
def cmdTcpConnect : UInt8 := 0x01

/-- `SOCKS5_CMD_UDP_ASSOCIATE` -/
def cmdUdpAssociate : UInt8 := 0x03

/-- `SOCKS5_RESERVE` -/
def reserve : UInt8 := 0x00

/-- What the SOCKS5 library writes and reads. -/
structure Library (κ ε : Type) where
  writeVec : VarVec → Bytes
  writeAddr : SocksAddr → Bytes
  readAddr : Proc κ ε SocksAddr

structure CmdReq where
  version : UInt8
  cmd : UInt8
  rsv : UInt8
  dst : SocksAddr

def CmdReq.encode (writeAddr : SocksAddr → Bytes) (r : CmdReq) : Bytes :=
  r.version :: r.cmd :: r.rsv :: writeAddr r.dst

structure CmdReply where
  version : UInt8
  rep : UInt8
  rsv : UInt8
  bindAddr : SocksAddr
  deriving DecidableEq

section

variable {κ ε : Type}

def CmdReply.decode (lib : Library κ ε) : Proc κ ε CmdReply := do
  let version ← readU8
  let rep ← readU8
  let rsv ← readU8
  let bindAddr ← lib.readAddr
  return { version, rep, rsv, bindAddr }

/-- A command of the given number, named in the error if it is refused. The
    version and the reserved byte of the reply are not looked at. -/
def sendCommand (lib : Library κ ε) (cmd : UInt8) (name : String) (dst : SocksAddr) :
    Proc κ ε CmdReply := do
  let req : CmdReq := { version := socks5Version, cmd, rsv := reserve, dst }
  Proc.write (req.encode lib.writeAddr)
  let reply ← CmdReply.decode lib
  if reply.rep ≠ replySucceeded then
    Proc.fail (name ++ " failed with reply code " ++ hexByte reply.rep)
  else return reply

def sendConnect (lib : Library κ ε) (dst : SocksAddr) : Proc κ ε CmdReply :=
  sendCommand lib cmdTcpConnect "CONNECT" dst

def sendUdpAssociate (lib : Library κ ε) (bindHint : SocksAddr) : Proc κ ε CmdReply :=
  sendCommand lib cmdUdpAssociate "UDP ASSOCIATE" bindHint

/-- `connector::connect` on the connected stream, which is the tunnel once the
    program has returned. -/
def Connector.connect (lib : Library κ ε) (config : ProxyConfig) (target : TestTarget) :
    Proc κ ε Unit := do
  authenticate lib.writeVec config.auth
  let _ ← sendConnect lib target.toSocksAddr
  return ()

namespace Associate

/-- What an address resolves to, and how an error is printed. -/
structure Resolver where
  toSocketAddrs : SocksAddr → Except IoError (List SocketAddr)
  lookup : String → Except IoError (List SocketAddr)
  display : IoError → String

/-- Besides, whether a UDP socket can be bound to an address, and then be
    connected to another one. -/
structure System extends Resolver where
  bind : String → Except IoError Unit
  connect : String → SocketAddr → Except IoError Unit

open Outcome

/-- The address of the proxy: the text itself, or else the first address it
    resolves to. -/
def proxyAddr (os : Resolver) (addr : String) : Outcome String SocketAddr :=
  match parseSocketAddr addr with
  | some proxy => ok proxy
  | none => match os.lookup addr with
    | .error e => err ("cannot parse proxy addr: " ++ os.display e)
    | .ok (proxy :: _) => ok proxy
    -- `it.next().unwrap()`
    | .ok [] => panic

/-- The relay that the reply names. An unspecified address is that of the proxy. -/
def relayAddr (os : Resolver) (addr : String) (bindAddr : SocksAddr) :
    Outcome String SocketAddr :=
  match os.toSocketAddrs bindAddr with
  | .error e => err ("cannot resolve relay addr: " ++ os.display e)
  | .ok [] => err "relay addr resolved to nothing"
  | .ok (relay :: _) =>
      if relay.ip.isUnspecified then do
        let proxy ← proxyAddr os addr
        ok { relay with ip := proxy.ip }
      else ok relay

/-- `0.0.0.0:0`, as the client does not know its own address yet. -/
def bindHint : SocksAddr :=
  SocksAddr.ofSocketAddr { ip := .v4 (List.Vector.replicate 4 0), port := 0 }

end Associate

/-- An association: the text of the address its socket is bound to, and the
    relay the socket is connected to. -/
structure UdpAssociation where
  bindAddr : String
  relayAddr : SocketAddr
  deriving DecidableEq

/-- Bind a local socket of the relay's family and connect it to the relay. An
    error of the socket is passed on. -/
def Associate.openSocket (os : System) (relay : SocketAddr) : Outcome String UdpAssociation :=
  let bindAddr := if relay.isIpv4 then "0.0.0.0:0" else "[::]:0"
  match os.bind bindAddr with
  | .error e => .err ("IO error: " ++ os.display e)
  | .ok () => match os.connect bindAddr relay with
    | .error e => .err ("IO error: " ++ os.display e)
    | .ok () => .ok { bindAddr, relayAddr := relay }

/-- `associate::associate` on the connected stream. -/
def Associate.associate (lib : Library κ ε) (os : System) (config : ProxyConfig) :
    Proc κ ε UdpAssociation := do
  authenticate lib.writeVec config.auth
  let reply ← sendUdpAssociate lib bindHint
  match relayAddr os.toResolver config.addr reply.bindAddr >>= openSocket os with
  | .ok a => return a
  | .err e => Proc.fail e
  | .panic => Proc.panic

end

end Socks

end ProxyPen
