import ProxyPen.Core.Stats

/-!
# Send-Rate Pacer

`bench/pacer.rs`: how many packets should have been sent by now, and when the
next one is due. Time is a clock reading in nanoseconds. The products are
`u128` in the source and are reduced modulo `2 ^ 128` here; the conversions
back to `u64` saturate.

## Main definitions

* `Pacer`: A rate, a packet size and a start instant.
* `Pacer.targetPacketsNow`: The cumulative number of packets due at a reading.
* `Pacer.dueNs`: The offset `sleep_until_packet` waits for.
* `Pacer.targetPacketsChecked`, `Pacer.sleepTargetChecked`: Both functions as a
  debug build runs them.
-/

namespace ProxyPen

/-- Multiplication of `u128`, wrapping as a release build does. -/
def u128Mul (a b : Nat) : Nat := a * b % 2 ^ 128

/-- `bandwidthBps = 0` is an unlimited rate. -/
structure Pacer where
  bandwidthBps : UInt64
  packetBytes : Nat
  start : Nat

namespace Pacer

/-- `target_packets_now` at an elapsed time. -/
def targetPackets (bandwidthBps : UInt64) (packetBytes elapsedNs : Nat) : Nat :=
  if bandwidthBps = 0 then u64Max
  -- A packet of no bits is always due.
  else if u128Mul packetBytes 8 = 0 then u64Max
  else
    -- Rounded down, and `unwrap_or(u64::MAX)` where it does not fit.
    min (u128Mul elapsedNs bandwidthBps.toNat
      / u128Mul (u128Mul packetBytes 8) 1000000000) u64Max

/-- How many packets should have been sent by `now`. -/
def targetPacketsNow (p : Pacer) (now : Nat) : Nat :=
  targetPackets p.bandwidthBps p.packetBytes (now - p.start)

/-- The offset from the start at which packet `nth` is due. -/
def dueNs (p : Pacer) (nth : Nat) : Nat :=
  min (u128Mul (u128Mul nth (u128Mul p.packetBytes 8)) 1000000000 / p.bandwidthBps.toNat) u64Max

/-! ## Checked arithmetic

A debug build panics where a product leaves `u128`, and any build panics where
it divides by zero. Both are `none` here. -/

def u128CheckedMul (a b : Nat) : Option Nat := if a * b < 2 ^ 128 then some (a * b) else none

def u128CheckedDiv (a b : Nat) : Option Nat := if b = 0 then none else some (a / b)

/-- `target_packets_now` at an elapsed time. -/
def targetPacketsChecked (bandwidthBps : UInt64) (packetBytes elapsedNs : Nat) : Option Nat :=
  if bandwidthBps = 0 then some u64Max
  else do
    let bitsPerPkt ← u128CheckedMul packetBytes 8
    if bitsPerPkt = 0 then some u64Max
    else
      let bits ← u128CheckedMul elapsedNs bandwidthBps.toNat
      let cost ← u128CheckedMul bitsPerPkt 1000000000
      let total ← u128CheckedDiv bits cost
      some (min total u64Max)

/-- What `sleep_until_packet` waits for: nothing, or an offset from the start. -/
def sleepTargetChecked (p : Pacer) (nth : Nat) : Option (Option Nat) :=
  if p.bandwidthBps = 0 then some none
  else do
    let bitsPerPkt ← u128CheckedMul p.packetBytes 8
    let bits ← u128CheckedMul nth bitsPerPkt
    let scaled ← u128CheckedMul bits 1000000000
    let targetNs ← u128CheckedDiv scaled p.bandwidthBps.toNat
    some (some (min targetNs u64Max))

end Pacer

end ProxyPen
