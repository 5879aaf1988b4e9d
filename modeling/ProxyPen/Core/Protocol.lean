import ProxyPen.Lib.Proc

/-!
# Bench Wire Protocol

The messages of the bench control channel and the header of a bench datagram,
as `bench/protocol.rs` lays them out. The readers and writers are programs on
a duplex stream, one stream operation per `write_*`, `read_*`, `write_all` or
`read_exact` of the source, so the same definitions serve a reader handed a
complete byte string and a session whose bytes arrive piecemeal.

`TestReport` keeps its counters as naturals. They are `u64` in the source, and
`TestReport.InRange` is that bound; the writer reduces each to its low 64 bits.

## Main definitions

* `writeHandshake`, `readHandshake`: The nine bytes that open a session.
* `TestRequest`, `TestResponse`, `TestReport`: The control messages.
* `fromUtf8Lossy`: Decoding text with replacement of malformed bytes.
* `encodeUdpHeader`, `decodeUdpHeader`: Sequence number and send timestamp of
  a datagram.
-/

namespace ProxyPen

namespace Protocol

variable {κ ε : Type}

/-- `MAGIC`, the ASCII text `PROXYBEN`. -/
def magic : Bytes := [80, 82, 79, 88, 89, 66, 69, 78]

def version : UInt8 := 1

def kindTcpUp : UInt8 := 0
def kindTcpDown : UInt8 := 1
def kindUdpUp : UInt8 := 2
def kindUdpDown : UInt8 := 3
def kindClose : UInt8 := 4

def statusOk : UInt8 := 0
def statusErr : UInt8 := 1

/-! The fixed-width integers of the stream, all big-endian. -/

def writeU8 (v : UInt8) : Proc κ ε Unit := Proc.write (beBytes 1 v.toNat)
def writeU16 (v : UInt16) : Proc κ ε Unit := Proc.write (beBytes 2 v.toNat)
def writeU32 (v : UInt32) : Proc κ ε Unit := Proc.write (beBytes 4 v.toNat)
def writeU64 (v : UInt64) : Proc κ ε Unit := Proc.write (beBytes 8 v.toNat)

def readU8 : Proc κ ε UInt8 := do return UInt8.ofNat (beNat (← Proc.read 1))
def readU16 : Proc κ ε UInt16 := do return UInt16.ofNat (beNat (← Proc.read 2))
def readU32 : Proc κ ε UInt32 := do return UInt32.ofNat (beNat (← Proc.read 4))
def readU64 : Proc κ ε UInt64 := do return UInt64.ofNat (beNat (← Proc.read 8))

def writeHandshake : Proc κ ε Unit := do
  Proc.write magic
  writeU8 version

def readHandshake : Proc κ ε Unit := do
  let m ← Proc.read 8
  if m ≠ magic then
    Proc.fail "bench handshake: bad magic"
  else
    -- The version byte is read only after the magic has been accepted.
    let v ← readU8
    if v ≠ version then
      Proc.fail ("bench handshake: unsupported version " ++ toString v.toNat)
    else
      return ()

structure TestRequest where
  kind : UInt8
  durationMs : UInt32
  payloadSize : UInt32
  bandwidthBps : UInt64
  expectedPackets : UInt64
  deriving DecidableEq, Repr

namespace TestRequest

def close : TestRequest :=
  { kind := kindClose, durationMs := 0, payloadSize := 0, bandwidthBps := 0,
    expectedPackets := 0 }

def write (r : TestRequest) : Proc κ ε Unit := do
  writeU8 r.kind
  writeU32 r.durationMs
  writeU32 r.payloadSize
  writeU64 r.bandwidthBps
  writeU64 r.expectedPackets

def read : Proc κ ε TestRequest := do
  let kind ← readU8
  let durationMs ← readU32
  let payloadSize ← readU32
  let bandwidthBps ← readU64
  let expectedPackets ← readU64
  return { kind, durationMs, payloadSize, bandwidthBps, expectedPackets }

end TestRequest

/-! ## Text -/

/-- The UTF-8 bytes of a string. -/
def strBytes (s : String) : Bytes := s.toList.flatMap String.utf8EncodeChar

/-- A continuation byte, `10xxxxxx`. -/
def isCont (b : UInt8) : Bool := 0x80 ≤ b && b ≤ 0xBF

/-- The second bytes a three- or four-byte lead admits: the ranges exclude
    overlong forms, surrogates and values past the last code point. -/
def secondOk (lead b : UInt8) : Bool :=
  if lead = 0xE0 then 0xA0 ≤ b && b ≤ 0xBF
  else if lead = 0xED then 0x80 ≤ b && b ≤ 0x9F
  else if lead = 0xF0 then 0x90 ≤ b && b ≤ 0xBF
  else if lead = 0xF4 then 0x80 ≤ b && b ≤ 0x8F
  else isCont b

/-- The replacement character. -/
def replacement : Char := Char.ofNat 0xFFFD

/-- Decode the character a byte string starts with, given its lead byte. A
    malformed sequence is replaced as a whole: the lead byte together with
    the continuation bytes that could still have belonged to it. -/
def lossyHead (lead : UInt8) (rest : Bytes) : Char × Bytes :=
  if lead < 0x80 then (Char.ofNat lead.toNat, rest)
  -- Two bytes. The leads `0xC0` and `0xC1` would be overlong and do not occur.
  else if 0xC2 ≤ lead ∧ lead ≤ 0xDF then
    match rest with
    | b :: rest' =>
        if isCont b then (Char.ofNat ((lead.toNat % 32) * 64 + b.toNat % 64), rest')
        else (replacement, rest)
    | [] => (replacement, rest)
  -- Three bytes.
  else if 0xE0 ≤ lead ∧ lead ≤ 0xEF then
    match rest with
    | b :: rest' =>
        if secondOk lead b then
          match rest' with
          | c :: rest'' =>
              if isCont c then
                (Char.ofNat ((lead.toNat % 16) * 4096 + (b.toNat % 64) * 64 + c.toNat % 64),
                  rest'')
              else (replacement, rest')
          | [] => (replacement, rest')
        else (replacement, rest)
    | [] => (replacement, rest)
  -- Four bytes. Nothing past `F4` is a code point.
  else if 0xF0 ≤ lead ∧ lead ≤ 0xF4 then
    match rest with
    | b :: rest' =>
        if secondOk lead b then
          match rest' with
          | c :: rest'' =>
              if isCont c then
                match rest'' with
                | d :: rest''' =>
                    if isCont d then
                      (Char.ofNat ((lead.toNat % 8) * 262144 + (b.toNat % 64) * 4096 +
                        (c.toNat % 64) * 64 + d.toNat % 64), rest''')
                    else (replacement, rest'')
                | [] => (replacement, rest'')
              else (replacement, rest')
          | [] => (replacement, rest')
        else (replacement, rest)
    | [] => (replacement, rest)
  -- A continuation byte without a lead, or a byte that no sequence contains.
  else (replacement, rest)

/-- Decode at most `fuel` characters. -/
def lossyChars : Nat → Bytes → List Char
  | 0, _ => []
  | _, [] => []
  | fuel + 1, b :: bs => (lossyHead b bs).1 :: lossyChars fuel (lossyHead b bs).2

/-- `String::from_utf8_lossy`: every character consumes at least one byte, so
    the length of the input is fuel enough. -/
def fromUtf8Lossy (bs : Bytes) : String := String.ofList (lossyChars bs.length bs)

structure TestResponse where
  status : UInt8
  dataPort : UInt16
  error : String
  deriving DecidableEq, Repr

namespace TestResponse

def ok (dataPort : UInt16) : TestResponse := { status := statusOk, dataPort, error := "" }

def err (msg : String) : TestResponse := { status := statusErr, dataPort := 0, error := msg }

def write (r : TestResponse) : Proc κ ε Unit := do
  writeU8 r.status
  writeU16 r.dataPort
  let bytes := strBytes r.error
  -- `try_into().unwrap_or(u16::MAX)`: a longer text is cut at 65535 bytes.
  let len := min bytes.length 65535
  writeU16 (UInt16.ofNat len)
  Proc.write (bytes.take len)

def read : Proc κ ε TestResponse := do
  let status ← readU8
  let dataPort ← readU16
  let errLen ← readU16
  -- The text carries its length; a cut may have split its last character.
  let errBuf ← Proc.read errLen.toNat
  return { status, dataPort, error := fromUtf8Lossy errBuf }

end TestResponse

structure TestReport where
  bytes : Nat := 0
  packets : Nat := 0
  maxSeq : Nat := 0
  ooo : Nat := 0
  dup : Nat := 0
  jitterNs : Nat := 0
  latencyMinNs : Nat := 0
  latencyMaxNs : Nat := 0
  latencySumNs : Nat := 0
  durationActualNs : Nat := 0
  deriving DecidableEq, Repr

namespace TestReport

/-- The fields in wire order. -/
def fields (r : TestReport) : List Nat :=
  [r.bytes, r.packets, r.maxSeq, r.ooo, r.dup, r.jitterNs, r.latencyMinNs, r.latencyMaxNs,
    r.latencySumNs, r.durationActualNs]

/-- Every counter is a `u64`. -/
def InRange (r : TestReport) : Prop := ∀ n ∈ r.fields, n < 2 ^ 64

instance (r : TestReport) : Decidable r.InRange := inferInstanceAs (Decidable (∀ n ∈ r.fields, _))

def write (r : TestReport) : Proc κ ε Unit := do
  writeU64 (UInt64.ofNat r.bytes)
  writeU64 (UInt64.ofNat r.packets)
  writeU64 (UInt64.ofNat r.maxSeq)
  writeU64 (UInt64.ofNat r.ooo)
  writeU64 (UInt64.ofNat r.dup)
  writeU64 (UInt64.ofNat r.jitterNs)
  writeU64 (UInt64.ofNat r.latencyMinNs)
  writeU64 (UInt64.ofNat r.latencyMaxNs)
  writeU64 (UInt64.ofNat r.latencySumNs)
  writeU64 (UInt64.ofNat r.durationActualNs)

def read : Proc κ ε TestReport := do
  let bytes ← readU64
  let packets ← readU64
  let maxSeq ← readU64
  let ooo ← readU64
  let dup ← readU64
  let jitterNs ← readU64
  let latencyMinNs ← readU64
  let latencyMaxNs ← readU64
  let latencySumNs ← readU64
  let durationActualNs ← readU64
  return {
    bytes := bytes.toNat, packets := packets.toNat, maxSeq := maxSeq.toNat, ooo := ooo.toNat,
    dup := dup.toNat, jitterNs := jitterNs.toNat, latencyMinNs := latencyMinNs.toNat,
    latencyMaxNs := latencyMaxNs.toNat, latencySumNs := latencySumNs.toNat,
    durationActualNs := durationActualNs.toNat }

end TestReport

/-! ## Datagram header -/

/-- `UDP_HEADER_LEN`. -/
def udpHeaderLen : Nat := 16

/-- Write the header into the front of a datagram buffer. -/
def encodeUdpHeader (buf : Bytes) (seq sendTsNs : Nat) : Bytes :=
  beBytes 8 seq ++ beBytes 8 sendTsNs ++ buf.drop udpHeaderLen

def decodeUdpHeader (buf : Bytes) : Option (Nat × Nat) :=
  if buf.length < udpHeaderLen then none
  else some (beNat (buf.take 8), beNat ((buf.drop 8).take 8))

theorem encodeUdpHeader_length (buf : Bytes) (seq ts : Nat) (h : udpHeaderLen ≤ buf.length) :
    (encodeUdpHeader buf seq ts).length = buf.length := by
  simp only [udpHeaderLen] at h
  simp only [encodeUdpHeader, List.length_append, beBytes_length, List.length_drop, udpHeaderLen]
  omega

/-- What the receiver reads back is what the sender wrote, both numbers being
    `u64`. -/
theorem decodeUdpHeader_encode (buf : Bytes) (seq ts : Nat) (hseq : seq < 2 ^ 64)
    (hts : ts < 2 ^ 64) : decodeUdpHeader (encodeUdpHeader buf seq ts) = some (seq, ts) := by
  have hlen : ¬ (encodeUdpHeader buf seq ts).length < udpHeaderLen := by
    simp only [encodeUdpHeader, List.length_append, beBytes_length, udpHeaderLen]
    omega
  -- The two numbers occupy the first and the second eight bytes.
  have htake : (encodeUdpHeader buf seq ts).take 8 = beBytes 8 seq := by
    rw [encodeUdpHeader, List.append_assoc]
    exact List.take_left' (beBytes_length 8 seq)
  have hdrop : ((encodeUdpHeader buf seq ts).drop 8).take 8 = beBytes 8 ts := by
    rw [encodeUdpHeader, List.append_assoc, List.drop_left' (beBytes_length 8 seq)]
    exact List.take_left' (beBytes_length 8 ts)
  rw [decodeUdpHeader, if_neg hlen, htake, hdrop, beNat_beBytes_of_lt 8 seq (by omega),
    beNat_beBytes_of_lt 8 ts (by omega)]

end Protocol

end ProxyPen
