import ProxyPen.Theory.Pacing

/-!
# Pacer Arithmetic

The pacer multiplies before it divides, in 128 bits. The product of two 64-bit
numbers fits, and so does the cost of a packet, but the product under the due
time of a packet has three factors and leaves 128 bits for large packet
numbers. A send loop never asks for such a packet: its next number is at most
what the pacer itself has counted, so the product is bounded by the one that
was counted with.

Where nothing overflows, the packets due and the due time of a packet are a
`count` and a `due` at the same rate.

## Main definitions

* `costNs`: What a packet costs, in bits times nanoseconds per second.
* `PacerSafe`: No call to the pacer panics.
* `Pacer.Inverse`: Packets due and due times agree.

## Theorems

* `targetPackets_eq_count`, `dueNs_eq_due`: The two functions without overflow.
* `seq_mul_cost_lt`: The next packet of a send loop.
* `pacer_never_overflows`: Every reachable state of a send loop.
* `due_target_inverse`: Packets due and due times at every rate.
-/

namespace ProxyPen

open Protocol Socks

namespace Pacer

/-- The cost of a packet: its bits, each for a second at one bit a second. -/
def costNs (packetBytes : Nat) : Nat := packetBytes * 8 * 1000000000

theorem costNs_lt {packetBytes : Nat} (h : packetBytes < 2 ^ 64) : costNs packetBytes < 2 ^ 128 := by
  unfold costNs
  omega

theorem toNat_pos {bandwidthBps : UInt64} (h : bandwidthBps ≠ 0) : 0 < bandwidthBps.toNat := by
  by_contra hzero
  exact h (UInt64.toNat_inj.mp (by rw [UInt64.toNat_zero]; omega))

theorem targetPackets_eq_count {bandwidthBps : UInt64} {packetBytes t : Nat}
    (hbw : bandwidthBps ≠ 0) (hpos : 0 < packetBytes) (hsize : packetBytes < 2 ^ 64)
    (ht : t < 2 ^ 64) :
    targetPackets bandwidthBps packetBytes t
      = Rate.count (costNs packetBytes) bandwidthBps.toNat u64Max t :=
  targetPackets_eq hbw hpos hsize t ht

/-- The packets due at an offset from the start. -/
theorem targetPacketsNow_eq_count (p : Pacer) (hbw : p.bandwidthBps ≠ 0) (hpos : 0 < p.packetBytes)
    (hsize : p.packetBytes < 2 ^ 64) {t : Nat} (ht : t < 2 ^ 64) :
    p.targetPacketsNow (p.start + t)
      = Rate.count (costNs p.packetBytes) p.bandwidthBps.toNat u64Max t := by
  rw [targetPacketsNow, Nat.add_sub_cancel_left]
  exact targetPackets_eq_count hbw hpos hsize ht

/-- The products under a due time, from the inside out. -/
theorem scaled_eq {packetBytes n : Nat} (hsize : packetBytes < 2 ^ 64)
    (h : n * costNs packetBytes < 2 ^ 128) :
    packetBytes * 8 < 2 ^ 128 ∧ n * (packetBytes * 8) < 2 ^ 128 ∧
      n * (packetBytes * 8) * 1000000000 = n * costNs packetBytes := by
  have hassoc : n * (packetBytes * 8) * 1000000000 = n * costNs packetBytes :=
    Nat.mul_assoc _ _ _
  refine ⟨by omega, ?_, hassoc⟩
  calc n * (packetBytes * 8) ≤ n * (packetBytes * 8) * 1000000000 :=
        Nat.le_mul_of_pos_right _ (by omega)
    _ = n * costNs packetBytes := hassoc
    _ < 2 ^ 128 := h

theorem dueNs_eq_due (p : Pacer) {n : Nat} (hsize : p.packetBytes < 2 ^ 64)
    (h : n * costNs p.packetBytes < 2 ^ 128) :
    p.dueNs n = Rate.due (costNs p.packetBytes) p.bandwidthBps.toNat u64Max n := by
  rcases scaled_eq hsize h with ⟨hbits, hinner, hassoc⟩
  unfold dueNs Rate.due
  rw [u128Mul_of_lt _ _ hbits, u128Mul_of_lt _ _ hinner, u128Mul_of_lt _ _ (hassoc ▸ h), hassoc]

/-! ## Checked arithmetic -/

theorem bind_u128CheckedMul {a b : Nat} (h : a * b < 2 ^ 128) {α : Type} (f : Nat → Option α) :
    (u128CheckedMul a b >>= f) = f (a * b) := by
  unfold u128CheckedMul
  rw [if_pos h]
  rfl

theorem bind_u128CheckedDiv {a b : Nat} (h : 0 < b) {α : Type} (f : Nat → Option α) :
    (u128CheckedDiv a b >>= f) = f (a / b) := by
  unfold u128CheckedDiv
  rw [if_neg (Nat.pos_iff_ne_zero.mp h)]
  rfl

/-- On a 64-bit clock `target_packets_now` does not panic. -/
theorem targetPacketsChecked_eq (bandwidthBps : UInt64) {packetBytes t : Nat}
    (hpos : 0 < packetBytes) (hsize : packetBytes < 2 ^ 64) (ht : t < 2 ^ 64) :
    targetPacketsChecked bandwidthBps packetBytes t
      = some (targetPackets bandwidthBps packetBytes t) := by
  unfold targetPacketsChecked
  by_cases hbw : bandwidthBps = 0
  · rw [if_pos hbw, targetPackets, if_pos hbw]
  · have hbits : packetBytes * 8 < 2 ^ 128 := by omega
    have hcost : packetBytes * 8 * 1000000000 < 2 ^ 128 := costNs_lt hsize
    have hne : ¬ packetBytes * 8 = 0 := by omega
    have hdiv : 0 < packetBytes * 8 * 1000000000 := by omega
    rw [if_neg hbw, targetPackets_eq hbw hpos hsize t ht, bind_u128CheckedMul hbits, if_neg hne,
      bind_u128CheckedMul (elapsed_mul_lt ht bandwidthBps), bind_u128CheckedMul hcost,
      bind_u128CheckedDiv hdiv]

/-- `sleep_until_packet` does not panic for a packet whose cost fits 128 bits. -/
theorem sleepTargetChecked_eq (p : Pacer) {n : Nat} (hsize : p.packetBytes < 2 ^ 64)
    (h : p.bandwidthBps ≠ 0 → n * costNs p.packetBytes < 2 ^ 128) :
    p.sleepTargetChecked n = some (if p.bandwidthBps = 0 then none else some (p.dueNs n)) := by
  unfold sleepTargetChecked
  by_cases hbw : p.bandwidthBps = 0
  · rw [if_pos hbw, if_pos hbw]
  · rcases scaled_eq hsize (h hbw) with ⟨hbits, hinner, hassoc⟩
    rw [if_neg hbw, if_neg hbw, bind_u128CheckedMul hbits, bind_u128CheckedMul hinner,
      bind_u128CheckedMul (hassoc ▸ h hbw), bind_u128CheckedDiv (toNat_pos hbw), hassoc,
      dueNs_eq_due p hsize (h hbw), Rate.due]

end Pacer

/-! ## Send loops -/

open Pacer

/-- The next packet of a send loop costs no more than the pacer has counted
    with, the client's hello apart. -/
theorem seq_mul_cost_lt (c : Sender) (s : SendState) (h : SendInv c s)
    (hbw : c.bandwidthBps ≠ 0) : s.seq * costNs c.size < 2 ^ 128 := by
  have hpaced : s.paced < 2 ^ 64 := by
    have hle := h.paced_le
    have hnow := h.now_le
    unfold clockMax at hnow
    omega
  by_cases hallowed : s.seq ≤ c.allowed s
  · rw [Sender.allowed, targetPackets_eq_count hbw c.size_pos c.size_lt hpaced] at hallowed
    exact Nat.lt_of_le_of_lt (Rate.mul_le_of_le_count hallowed) (elapsed_mul_lt hpaced _)
  · -- Only the hello was sent without asking.
    have hfree : c.free ≤ 1 := by
      unfold Sender.free
      split <;> omega
    have hone : s.seq ≤ 1 := by
      have hle := h.seq_le
      omega
    have hcost := costNs_lt c.size_lt
    calc s.seq * costNs c.size ≤ 1 * costNs c.size := Nat.mul_le_mul_right _ hone
      _ < 2 ^ 128 := by omega

/-- Neither function of the pacer panics when it is called next: at any later
    reading of the clock, and for the next packet. -/
structure PacerSafe (c : Sender) (s : SendState) : Prop where
  target : ∀ t, s.now ≤ t → t ≤ clockMax →
    targetPacketsChecked c.bandwidthBps c.size (t - s.pacerStart)
      = some ((c.pacer s).targetPacketsNow t)
  sleep : (c.pacer s).sleepTargetChecked s.seq
    = some (if c.bandwidthBps = 0 then none else some ((c.pacer s).dueNs s.seq))

theorem pacerSafe_of_reachable (c : Sender) (s : SendState) (hs : c.Reachable s) :
    PacerSafe c s where
  target t _ hmax := by
    have ht : t - s.pacerStart < 2 ^ 64 := by
      unfold clockMax at hmax
      omega
    exact targetPacketsChecked_eq c.bandwidthBps c.size_pos c.size_lt ht
  sleep := sleepTargetChecked_eq (c.pacer s) c.size_lt
    (seq_mul_cost_lt c s (sendInv_of_reachable c s hs))

/-- No product of the pacer leaves 128 bits and no division is by zero, in any
    reachable state of either send loop. -/
theorem pacer_never_overflows :
    (∀ (sock : TransportUdpSocket) (udpMax : UdpMax) (durationNs : Nat)
        (datagramSize bandwidthBps : UInt64) (s : SendState),
      (Client.runUdpUp sock udpMax durationNs datagramSize bandwidthBps).Reachable s →
      PacerSafe (Client.runUdpUp sock udpMax durationNs datagramSize bandwidthBps) s) ∧
    (∀ (udpMax : UdpMax) (req : TestRequest) (s : SendState),
      (Server.runUdpDown udpMax req).Reachable s → PacerSafe (Server.runUdpDown udpMax req) s) :=
  ⟨fun _ _ _ _ _ s hs => pacerSafe_of_reachable _ s hs,
    fun _ _ s hs => pacerSafe_of_reachable _ s hs⟩

/-- Both loops after their first packets. -/
theorem pacer_never_overflows_two_packets :
    (∃ s, (Client.runUdpUp .direct ipv4Max 100 16 128000000000).Reachable s ∧ s.seq = 2 ∧
      PacerSafe (Client.runUdpUp .direct ipv4Max 100 16 128000000000) s) ∧
    (∃ s, (Server.runUdpDown ipv4Max ⟨3, 1, 16, 128000000000, 0⟩).Reachable s ∧ s.seq = 1 ∧
      PacerSafe (Server.runUdpDown ipv4Max ⟨3, 1, 16, 128000000000, 0⟩) s) := by
  constructor
  · have hr : (Client.runUdpUp .direct ipv4Max 100 16 128000000000).Reachable _ :=
      ⟨[.reading 0, .accepted, .reading 0, .reading 0, .reading 3, .reading 3, .reading 4,
        .accepted], rfl⟩
    exact ⟨_, hr, rfl, pacer_never_overflows.1 .direct ipv4Max 100 16 128000000000 _ hr⟩
  · have hr : (Server.runUdpDown ipv4Max ⟨3, 1, 16, 128000000000, 0⟩).Reachable _ :=
      ⟨[.reading 0, .reading 0, .reading 0, .reading 3, .reading 3, .reading 4, .accepted], rfl⟩
    exact ⟨_, hr, rfl, pacer_never_overflows.2 ipv4Max ⟨3, 1, 16, 128000000000, 0⟩ _ hr⟩

/-! ## Packets due and due times -/

/-- The packets due by a time and the due time of a packet are inverse up to
    rounding: for every packet number whose cost fits 128 bits, on a 64-bit
    clock. -/
structure Pacer.Inverse (p : Pacer) : Prop where
  target_mono : ∀ t t', t ≤ t' → t' < 2 ^ 64 →
    p.targetPacketsNow (p.start + t) ≤ p.targetPacketsNow (p.start + t')
  due_mono : ∀ n n' : UInt64, n ≤ n' → n'.toNat * p.packetBytes * 8 * 1000000000 < 2 ^ 128 →
    p.dueNs n.toNat ≤ p.dueNs n'.toNat
  due_le : ∀ (n : UInt64) t, t < 2 ^ 64 → n.toNat * p.packetBytes * 8 * 1000000000 < 2 ^ 128 →
    n.toNat ≤ p.targetPacketsNow (p.start + t) → p.dueNs n.toNat ≤ t
  le_target : ∀ (n : UInt64) t, t < 2 ^ 64 →
    n.toNat * p.packetBytes * 8 * 1000000000 < 2 ^ 128 →
    p.dueNs n.toNat < t → n.toNat ≤ p.targetPacketsNow (p.start + t)

theorem mul_costNs (n packetBytes : Nat) :
    n * packetBytes * 8 * 1000000000 = n * costNs packetBytes := by
  unfold costNs
  ring

/-- For every rate and every packet size. -/
theorem due_target_inverse (bandwidthBps packetBytes : UInt64) (start : Nat)
    (hbw : 0 < bandwidthBps) (hpos : 0 < packetBytes) :
    Pacer.Inverse ⟨bandwidthBps, packetBytes.toNat, start⟩ := by
  have hne : bandwidthBps ≠ 0 := UInt64.pos_iff_ne_zero.mp hbw
  have hbytes : 0 < packetBytes.toNat := UInt64.lt_iff_toNat_lt.mp hpos
  have hsize : packetBytes.toNat < 2 ^ 64 := packetBytes.toNat_lt
  have hcost : 0 < costNs packetBytes.toNat := by
    unfold costNs
    omega
  have hdue : ∀ n : UInt64, n.toNat * packetBytes.toNat * 8 * 1000000000 < 2 ^ 128 →
      Pacer.dueNs ⟨bandwidthBps, packetBytes.toNat, start⟩ n.toNat
        = Rate.due (costNs packetBytes.toNat) bandwidthBps.toNat u64Max n.toNat := by
    intro n hn
    rw [mul_costNs] at hn
    exact dueNs_eq_due _ hsize hn
  constructor
  case target_mono =>
    intro t t' hle ht
    rw [targetPacketsNow_eq_count _ hne hbytes hsize (Nat.lt_of_le_of_lt hle ht),
      targetPacketsNow_eq_count _ hne hbytes hsize ht]
    exact Rate.count_mono hle
  case due_mono =>
    intro n n' hle hn
    have hnat : n.toNat ≤ n'.toNat := UInt64.le_iff_toNat_le.mp hle
    have hn₀ : n.toNat * packetBytes.toNat * 8 * 1000000000 < 2 ^ 128 := by
      rw [mul_costNs] at hn ⊢
      exact Nat.lt_of_le_of_lt (Nat.mul_le_mul_right _ hnat) hn
    rw [hdue n hn₀, hdue n' hn]
    exact Rate.due_mono hnat
  case due_le =>
    intro n t ht hn hle
    rw [targetPacketsNow_eq_count _ hne hbytes hsize ht] at hle
    rw [hdue n hn]
    exact Rate.due_le_of_le_count hle
  case le_target =>
    intro n t ht hn hlt
    rw [hdue n hn] at hlt
    rw [targetPacketsNow_eq_count _ hne hbytes hsize ht]
    have hmax : u64Max = 2 ^ 64 - 1 := rfl
    have hnmax : n.toNat ≤ u64Max := by
      have hlt' := n.toNat_lt
      omega
    exact Rate.le_count_of_due_lt hcost (toNat_pos hne) hnmax (by omega) hlt

/-- 80 Mbit/s in packets of 1000 bytes, ten of them a millisecond. -/
theorem due_target_inverse_fast :
    let p : Pacer := ⟨80000000, 1000, 0⟩
    p.targetPacketsNow 50000000 = 500 ∧ p.dueNs 500 = 50000000 ∧ p.Inverse := by
  intro p
  exact ⟨by decide, by decide, due_target_inverse 80000000 1000 0 (by decide) (by decide)⟩

end ProxyPen
