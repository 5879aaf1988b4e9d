import Mathlib.Data.Finset.Insert
import ProxyPen.Core.Protocol

/-!
# Receive-Side Statistics

The accumulator of `bench/stats.rs`. A receiver hands every decoded datagram
to `record` and turns the final state into a report.

The jitter estimate is a floating-point filter, and nothing else depends on
it, so the filter is a parameter: `JitterFilter` names the three things the
code does with the estimate. The instance at `Float` is the code's own.

Counters are naturals. The accumulator only ever adds to them, so reducing
them to 64 bits at the end, as the report writer does, gives what `u64`
arithmetic would have given throughout. Casts to `i64` and `i64` subtraction
are reduced explicitly, since there the intermediate value matters.

A debug build checks every subtraction of `i64` and panics where a release
build wraps around. `recordChecked` is `record` as a debug build runs it, with
`none` for a panic.

## Main definitions

* `JitterFilter`: The operations on a jitter estimate.
* `asI64`: Reading a `u64` as an `i64`.
* `UdpStats`: The accumulator.
* `UdpStats.record`: Taking one datagram into account.
* `UdpStats.recordChecked`: The same in a debug build.
* `UdpStats.intoReport`: The final report.
-/

namespace ProxyPen

open Protocol

/-- What the code does with a jitter estimate: start at zero, move it a
    sixteenth of the way towards a transit difference, and cast it to `u64`. -/
class JitterFilter (F : Type) where
  zero : F
  update : F → Nat → F
  toU64 : F → Nat

/-- The filter of the source: `jitter_ns += (d as f64 - jitter_ns) / 16.0`. -/
instance : JitterFilter Float where
  zero := 0.0
  -- The difference is an `unsigned_abs`, hence a `u64`, before it is cast to `f64`.
  update j d := j + ((UInt64.ofNat d).toFloat - j) / 16.0
  toU64 j := j.toUInt64.toNat

/-- `n as i64` for a `u64`. -/
def asI64 (n : Nat) : Int := (n : Int).bmod (2 ^ 64)

/-- Subtraction of `i64`, wrapping as a release build does. -/
def i64Sub (a b : Int) : Int := (a - b).bmod (2 ^ 64)

/-- Subtraction of `i64` in a debug build, where an overflow panics. -/
def i64CheckedSub (a b : Int) : Option Int :=
  if -2 ^ 63 ≤ a - b ∧ a - b < 2 ^ 63 then some (a - b) else none

/-- `u128::MAX`. -/
def u128Max : Nat := 2 ^ 128 - 1

/-- `u64::MAX`. -/
def u64Max : Nat := 2 ^ 64 - 1

structure UdpStats (F : Type) where
  bytes : Nat
  packets : Nat
  maxSeq : Nat
  ooo : Nat
  dup : Nat
  jitterNs : F
  lastTransitNs : Option Int
  latencyMinNs : Nat
  latencyMaxNs : Nat
  latencySumNs : Nat
  seen : Finset Nat
  haveMax : Bool

namespace UdpStats

variable {F : Type} [JitterFilter F]

/-- `UdpStats::default()`. -/
def init : UdpStats F :=
  { bytes := 0, packets := 0, maxSeq := 0, ooo := 0, dup := 0, jitterNs := JitterFilter.zero,
    lastTransitNs := none, latencyMinNs := 0, latencyMaxNs := 0, latencySumNs := 0, seen := ∅,
    haveMax := false }

/-- The first datagram sets the maximum; a later one raises it or arrives out
    of order. -/
def trackMax (st : UdpStats F) (seq : Nat) : UdpStats F :=
  -- Without the flag a first packet with number zero would count as late.
  if !st.haveMax then { st with maxSeq := seq, haveMax := true }
  else if seq > st.maxSeq then { st with maxSeq := seq }
  else { st with ooo := st.ooo + 1 }

/-- A minimum of zero counts as not yet set. -/
def trackLatency (st : UdpStats F) (latency : Nat) : UdpStats F :=
  { st with
    -- A true minimum of zero is overwritten by the next latency.
    latencyMinNs :=
      if st.latencyMinNs = 0 ∨ latency < st.latencyMinNs then latency else st.latencyMinNs
    latencyMaxNs := if latency > st.latencyMaxNs then latency else st.latencyMaxNs
    latencySumNs := min (st.latencySumNs + latency) u128Max }

/-- RFC 3550 jitter on the difference of consecutive transit times. -/
def trackJitter (st : UdpStats F) (transitNs : Int) : UdpStats F :=
  { st with
    -- The first datagram has no predecessor to differ from.
    jitterNs := match st.lastTransitNs with
      | some last => JitterFilter.update st.jitterNs (i64Sub transitNs last).natAbs
      | none => st.jitterNs
    lastTransitNs := some transitNs }

def record (st : UdpStats F) (seq sendTsNs recvTsNs payloadLen : Nat) : UdpStats F :=
  -- `seen.insert` answers whether the number is new. A duplicate changes `dup` alone.
  if seq ∈ st.seen then { st with dup := st.dup + 1 }
  else
    let st := { st with
      seen := insert seq st.seen
      bytes := st.bytes + payloadLen
      packets := st.packets + 1 }
    let st := st.trackMax seq
    let st := st.trackLatency (recvTsNs - sendTsNs)
    st.trackJitter (i64Sub (asI64 recvTsNs) (asI64 sendTsNs))

/-- The jitter of a debug build: the difference of transit times is checked. -/
def trackJitterChecked (st : UdpStats F) (transitNs : Int) : Option (UdpStats F) :=
  match st.lastTransitNs with
  | some last => (i64CheckedSub transitNs last).map fun d =>
      { st with
        jitterNs := JitterFilter.update st.jitterNs d.natAbs
        lastTransitNs := some transitNs }
  | none => some { st with lastTransitNs := some transitNs }

/-- `record` in a debug build. -/
def recordChecked (st : UdpStats F) (seq sendTsNs recvTsNs payloadLen : Nat) :
    Option (UdpStats F) :=
  if seq ∈ st.seen then some { st with dup := st.dup + 1 }
  else
    let st := { st with
      seen := insert seq st.seen
      bytes := st.bytes + payloadLen
      packets := st.packets + 1 }
    let st := st.trackMax seq
    let st := st.trackLatency (recvTsNs - sendTsNs)
    (i64CheckedSub (asI64 recvTsNs) (asI64 sendTsNs)).bind st.trackJitterChecked

def intoReport (st : UdpStats F) (durationActualNs : Nat) : TestReport :=
  { bytes := st.bytes
    packets := st.packets
    maxSeq := st.maxSeq
    ooo := st.ooo
    dup := st.dup
    jitterNs := JitterFilter.toU64 st.jitterNs
    latencyMinNs := st.latencyMinNs
    latencyMaxNs := st.latencyMaxNs
    -- `try_into().unwrap_or(u64::MAX)`
    latencySumNs := min st.latencySumNs u64Max
    durationActualNs }

end UdpStats

/-- The arguments of one `record` call. -/
structure Call where
  seq : Nat
  sendTsNs : Nat
  recvTsNs : Nat
  payloadLen : Nat
  deriving DecidableEq, Repr

namespace Call

/-- `recv_ts_ns.saturating_sub(send_ts_ns)`. -/
def latency (c : Call) : Nat := c.recvTsNs - c.sendTsNs

end Call

/-- The accumulator after a sequence of `record` calls. -/
def UdpStats.ofCalls {F : Type} [JitterFilter F] (calls : List Call) : UdpStats F :=
  calls.foldl (fun st c => st.record c.seq c.sendTsNs c.recvTsNs c.payloadLen) UdpStats.init

end ProxyPen
