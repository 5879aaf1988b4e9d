import ProxyPen.Core.Protocol
import ProxyPen.Core.Socks
import ProxyPen.Lib.Cursor

/-!
# DNS Resolver

`dns.rs`: one A query over a transport socket, and the parser of the answer.
Every index expression of the source is a checked access here, so an access
out of range shows as a panic. The name skipper is an unbounded loop in the
source; it is given more rounds than a buffer has positions, and a loop that
needed more would show as a panic too.

The clock picks the query identifier, and the operating system decides whether
and which datagram comes back, so both are arguments of `resolveA`.

## Main definitions

* `ProxyPenError`: The errors of the library.
* `encodeQuery`: The query of a hostname.
* `skipName`: Passing over a name.
* `decodeAResponse`: The first A record of a response.
* `resolveA`: Query, wait, decode.
-/

namespace ProxyPen

/-- `error.rs` -/
inductive ProxyPenError where
  | socks (msg : String)
  | io (e : Socks.IoError)
  | http (msg : String)
  | tls (msg : String)
  | quic (msg : String)
  | timeout
  | invalidConfig (msg : String)
  deriving DecidableEq, Repr

namespace Dns

open Outcome Cursor Protocol

abbrev Ipv4Addr := List.Vector UInt8 4

/-- `MAX_LABEL_LEN`. -/
def maxLabelLen : Nat := 63

/-- `MAX_NAME_LEN`. -/
def maxNameLen : Nat := 255

/-- Every error of the codec is `ProxyPenError::InvalidConfig`. -/
def invalid {α : Type} (msg : String) : Outcome ProxyPenError α := err (.invalidConfig msg)

/-! ## Query -/

/-- `hostname.split('.')` -/
def splitDots (hostname : String) : List String :=
  (hostname.toList.splitOn '.').map String.ofList

/-- Push a length byte and the bytes of every label that is not empty. -/
def pushLabels (buf : Bytes) : List String → Outcome ProxyPenError Bytes
  | [] => ok buf
  | label :: labels =>
      if label.isEmpty then pushLabels buf labels
      else
        let bytes := strBytes label
        if bytes.length > maxLabelLen then invalid ("DNS label too long: " ++ label)
        else pushLabels (buf ++ UInt8.ofNat bytes.length :: bytes) labels

/-- RD = 1, QDCOUNT = 1, and no records of any kind. -/
def queryHeader (id : UInt16) : Bytes :=
  beBytes 2 id.toNat ++ beBytes 2 0x0100 ++ beBytes 2 1 ++ beBytes 2 0 ++ beBytes 2 0 ++ beBytes 2 0

def encodeQuery (id : UInt16) (hostname : String) : Outcome ProxyPenError Bytes := do
  let buf ← pushLabels (queryHeader id) (splitDots hostname)
  -- The root label, QTYPE = A, QCLASS = IN.
  ok (buf ++ [0] ++ beBytes 2 1 ++ beBytes 2 1)

/-! ## Response -/

/-- `u16::from_be_bytes([buf[i], buf[i + 1]])` -/
def u16At (buf : Bytes) (i : Nat) : Outcome ProxyPenError UInt16 := do
  let hi ← index buf i
  let lo ← index buf (i + 1)
  ok (UInt16.ofNat (beNat [hi, lo]))

/-- One round of the loop in `skip_name`. -/
def skipNameRound (buf : Bytes) (pos : Nat) : Outcome ProxyPenError (Round Nat Nat) :=
  if pos ≥ buf.length then invalid "DNS name truncated"
  else do
    let len ← index buf pos
    if len = 0 then ok (.done (pos + 1))
    else if len &&& 0xC0 = 0xC0 then
      -- A pointer ends the name wherever it points to.
      if pos + 1 ≥ buf.length then invalid "DNS name pointer truncated"
      else ok (.done (pos + 2))
    -- Anything else is taken for the length of a label.
    else ok (.again (pos + (1 + len.toNat)))

def skipName (buf : Bytes) (pos : Nat) : Outcome ProxyPenError Nat :=
  (loopFor (skipNameRound buf) (buf.length + 1) pos).getD panic

/-- One question: a name, QTYPE and QCLASS. -/
def skipQuestion (buf : Bytes) (pos : Nat) : Outcome ProxyPenError Nat := do
  let pos ← skipName buf pos
  if pos + 4 > buf.length then invalid "DNS question truncated"
  else ok (pos + 4)

/-- `for _ in 0..qd` -/
def skipQuestions (buf : Bytes) : Nat → Nat → Outcome ProxyPenError Nat
  | 0, pos => ok pos
  | qd + 1, pos => do
      let pos ← skipQuestion buf pos
      skipQuestions buf qd pos

/-- One answer record: leave with its address, or go on behind it. -/
def readAnswer (buf : Bytes) (pos : Nat) : Outcome ProxyPenError (Round Nat Ipv4Addr) := do
  let pos ← skipName buf pos
  if pos + 10 > buf.length then invalid "DNS answer header truncated"
  else do
    let rtype ← u16At buf pos
    -- CLASS and TTL lie between the two fields that are read.
    let rdlength ← u16At buf (pos + 8)
    let pos := pos + 10
    if pos + rdlength.toNat > buf.length then invalid "DNS rdata truncated"
    else if rtype = 1 ∧ rdlength = 4 then do
      let a ← index buf pos
      let b ← index buf (pos + 1)
      let c ← index buf (pos + 2)
      let d ← index buf (pos + 3)
      ok (.done ⟨[a, b, c, d], rfl⟩)
    else ok (.again (pos + rdlength.toNat))

/-- `for _ in 0..an` -/
def scanAnswers (buf : Bytes) : Nat → Nat → Outcome ProxyPenError Ipv4Addr
  | 0, _ => invalid "DNS response had no A record"
  | an + 1, pos => do
      match ← readAnswer buf pos with
      | .done ip => ok ip
      | .again pos => scanAnswers buf an pos

def decodeAResponse (expectedId : UInt16) (buf : Bytes) : Outcome ProxyPenError Ipv4Addr :=
  if buf.length < 12 then invalid "DNS response too short"
  else do
    let id ← u16At buf 0
    if id ≠ expectedId then
      invalid ("DNS response ID mismatch (got " ++ toString id.toNat ++ ", expected " ++
        toString expectedId.toNat ++ ")")
    else do
      let flags ← u16At buf 2
      let rcode := flags &&& 0x000F
      if rcode ≠ 0 then invalid ("DNS server returned RCODE " ++ toString rcode.toNat)
      else do
        let qd ← u16At buf 4
        let an ← u16At buf 6
        if an = 0 then invalid "DNS response contains no answers"
        else do
          let pos ← skipQuestions buf qd.toNat 12
          scanAnswers buf an.toNat pos

/-! ## Resolver -/

/-- The `?` operator on a socket operation. -/
def io {α : Type} : Outcome Socks.IoError α → Outcome ProxyPenError α
  | .ok a => .ok a
  | .err e => .err (.io e)
  | .panic => .panic

/-- Resolve over an open socket. `reply` is the datagram that arrives before
    the timeout, if one does. -/
def resolveA (socket : Socks.TransportUdpSocket) (server : String) (id : UInt16)
    (hostname : String) (reply : Option Bytes) : Outcome ProxyPenError Ipv4Addr :=
  if (strBytes hostname).length > maxNameLen then invalid ("DNS hostname too long: " ++ hostname)
  else do
    let query ← encodeQuery id hostname
    let _ ← io (socket.send query)
    match reply with
    | none => invalid ("DNS query to " ++ server ++ " timed out")
    | some datagram => do
        let received ← io (socket.recv 1500 datagram)
        decodeAResponse id received

end Dns

end ProxyPen
