import ProxyPen.Lib.Bytes
import ProxyPen.Lib.Outcome

/-!
# SOCKS5 UDP Framing

`udp_socket.rs` and the datagram half of `transport.rs`: the header in front
of every relayed datagram, and the two sockets that hide it. The address type
comes from the SOCKS5 library the repository depends on; a domain is a length
byte together with the bytes it counts.

A datagram received into a buffer is cut at the buffer's capacity, and the
rest of it is lost. The receiving functions return the bytes they put at the
front of the caller's buffer. A datagram that is sent has to be built in
memory first, and then the operating system has a longest one that it takes.

## Main definitions

* `SocksAddr`: An address with a port.
* `SocksAddr.WellFormed`: The length byte of a domain counts its bytes.
* `encodeSocks5UdpHeader`, `decodeSocks5UdpHeader`: The header codec.
* `osRecv`: An operating-system datagram receive.
* `TransportUdpSocket`: The socket of the bench and DNS code.
* `TransportUdpSocket.takes`: What becomes of a payload of a given size.
* `SocksUdpSocket.pollRecv`: The receive path of the QUIC socket.
-/

namespace ProxyPen

namespace Socks

open Outcome

/-- A length byte and the bytes it is meant to count. -/
structure VarVec where
  len : UInt8
  contents : Bytes
  deriving DecidableEq, Repr

inductive AddrOrDomain where
  | v4 (ip : List.Vector UInt8 4)
  | v6 (ip : List.Vector UInt8 16)
  | domain (d : VarVec)
  deriving DecidableEq

structure SocksAddr where
  addr : AddrOrDomain
  port : UInt16
  deriving DecidableEq

/-- The length byte of a domain counts its bytes. -/
def SocksAddr.WellFormed (a : SocksAddr) : Prop :=
  match a.addr with
  | .v4 _ => True
  | .v6 _ => True
  | .domain d => d.len.toNat = d.contents.length

instance : (a : SocksAddr) → Decidable a.WellFormed
  | ⟨.v4 _, _⟩ => inferInstanceAs (Decidable True)
  | ⟨.v6 _, _⟩ => inferInstanceAs (Decidable True)
  | ⟨.domain d, _⟩ => inferInstanceAs (Decidable (d.len.toNat = d.contents.length))

/-- The errors of a socket operation: malformed data, a stream cut off before
    its end, or the operating system's own. -/
inductive IoError where
  | invalidData (msg : String)
  | unexpectedEof (msg : String)
  | os (code : Nat)
  deriving DecidableEq, Repr

/-- A byte as the `#x` format prints it. -/
def hexByte (b : UInt8) : String := "0x" ++ String.ofList (Nat.toDigits 16 b.toNat)

/-- Address type and address bytes. -/
def encodeAddr : AddrOrDomain → Outcome IoError Bytes
  | .v4 ip => ok (0x01 :: ip.toList)
  | .v6 ip => ok (0x04 :: ip.toList)
  | .domain d => do
      -- The length byte decides how much of the contents is taken.
      let name ← slice d.contents 0 d.len.toNat
      ok (0x03 :: d.len :: name)

/-- RSV, FRAG, address, port. -/
def encodeSocks5UdpHeader (dst : SocksAddr) : Outcome IoError Bytes := do
  let addr ← encodeAddr dst.addr
  ok (([0x00, 0x00, 0x00] : Bytes) ++ addr ++
    [(dst.port >>> 8).toUInt8, (dst.port &&& 0xff).toUInt8])

/-- The address a header names, and the offset behind it. -/
def decodeAddr (buf : Bytes) (atyp : UInt8) : Outcome IoError (AddrOrDomain × Nat) :=
  if atyp = 0x01 then
    if buf.length < 4 + 4 + 2 then err (.invalidData "IPv4 addr too short")
    else do
      let bytes ← slice buf 4 8
      let ip ← copyInto 4 bytes
      ok (.v4 ip, 8)
  else if atyp = 0x04 then
    if buf.length < 4 + 16 + 2 then err (.invalidData "IPv6 addr too short")
    else do
      let bytes ← slice buf 4 20
      let ip ← copyInto 16 bytes
      ok (.v6 ip, 20)
  else if atyp = 0x03 then
    if buf.length < 5 then err (.invalidData "domain header too short")
    else do
      let len ← index buf 4
      let domainLen := len.toNat
      if buf.length < 5 + domainLen + 2 then err (.invalidData "domain addr too short")
      else do
        let name ← slice buf 5 (5 + domainLen)
        ok (.domain { len := UInt8.ofNat domainLen, contents := name }, 5 + domainLen)
  else err (.invalidData ("unknown address type: " ++ hexByte atyp))

/-- The address a datagram names and the length of its header. -/
def decodeSocks5UdpHeader (buf : Bytes) : Outcome IoError (SocksAddr × Nat) :=
  if buf.length < 4 then err (.invalidData "UDP header too short")
  else do
    let frag ← index buf 2
    -- RSV is not looked at.
    if frag ≠ 0 then err (.invalidData "fragmented UDP not supported")
    else do
      let atyp ← index buf 3
      let (addr, offset) ← decodeAddr buf atyp
      -- The address checks have made room for the port.
      let hi ← index buf offset
      let lo ← index buf (offset + 1)
      ok ({ addr, port := UInt16.ofNat (beNat [hi, lo]) }, offset + 2)

/-- Receiving a datagram into a buffer: the buffer's capacity bounds what is
    kept, and the rest of the datagram is lost. -/
def osRecv (capacity : Nat) (datagram : Bytes) : Bytes := datagram.take capacity

/-- `isize::MAX` -/
def isizeMax : Nat := 2 ^ 63 - 1

/-- The longest datagram that an operating system takes from a socket. It
    depends on the system and the family of the socket. The length field of
    UDP has 16 bits and counts eight bytes of its own. -/
structure UdpMax where
  bytes : Nat
  bytes_le : bytes ≤ 65527

/-- What an IPv4 datagram leaves behind its own header and that of UDP. -/
def ipv4Max : UdpMax := ⟨65507, by decide⟩

/-- A UDP socket with a fixed destination. -/
inductive TransportUdpSocket where
  | direct
  | socks5 (target : SocksAddr)

namespace TransportUdpSocket

/-- The datagram a payload leaves the socket as. -/
def send : TransportUdpSocket → Bytes → Outcome IoError Bytes
  | .direct, payload => ok payload
  | .socks5 target, payload => do
      let header ← encodeSocks5UdpHeader target
      ok (header ++ payload)

/-- The payload of a received datagram, cut to the caller's buffer. -/
def recv (sock : TransportUdpSocket) (bufLen : Nat) (datagram : Bytes) : Outcome IoError Bytes :=
  match sock with
  | .direct => ok (osRecv bufLen datagram)
  | .socks5 _ => do
      -- `vec![0u8; buf.len() + 256]`, the allowance for the header.
      let tmp := osRecv (bufLen + 256) datagram
      let (_, hlen) ← decodeSocks5UdpHeader tmp
      let payload ← slice tmp hlen tmp.length
      slice payload 0 (min payload.length bufLen)

/-- The header in front of every datagram. -/
def header : TransportUdpSocket → Outcome IoError Bytes
  | .direct => ok []
  | .socks5 target => encodeSocks5UdpHeader target

/-- Whether the operating system takes the datagram that a payload of `size`
    bytes leaves the socket as, header included. `none` is a panic: `vec!` and
    `Vec::with_capacity` do so beyond `isize::MAX` bytes. -/
def takes (sock : TransportUdpSocket) (udpMax : UdpMax) (size : Nat) : Option Bool :=
  match sock.header with
  | .ok header =>
      let len := header.length + size
      if len ≤ isizeMax then some (decide (len ≤ udpMax.bytes)) else none
  | _ => none

end TransportUdpSocket

/-- What quinn is told about a datagram. -/
structure RecvMeta (A : Type) where
  addr : A
  len : Nat
  stride : Nat
  deriving DecidableEq, Repr

/-- `poll_recv` of the QUIC socket on a datagram that is ready: `none` is
    `Ok(0)`, and `some` is `Ok(1)` with the bytes put into the first buffer
    and their metadata. -/
def SocksUdpSocket.pollRecv {A : Type} (remoteAddr : A) (bufLen : Nat) (datagram : Bytes) :
    Outcome IoError (Option (Bytes × RecvMeta A)) :=
  -- This path has a buffer of its own, large enough for any datagram.
  let filled := osRecv 65535 datagram
  if filled.isEmpty then ok none
  else do
    let (_, headerLen) ← decodeSocks5UdpHeader filled
    let payload ← slice filled headerLen filled.length
    if payload.isEmpty then ok none
    else do
      let copyLen := min payload.length bufLen
      let bytes ← slice payload 0 copyLen
      ok (some (bytes, { addr := remoteAddr, len := copyLen, stride := copyLen }))

end Socks

end ProxyPen
