import ProxyPen.Theory.Stats

/-!
# What the Timings Mean

The fields of the accumulator that `Tallies` leaves out: the minimum latency,
the last transit time and the jitter estimate. Each of them is a fold over the
calls whose sequence number is new, in the order they arrived. `Measured` says
which fold, and `measured_ofCalls` that any sequence of calls is measured so.

The folds follow the code, sentinel and wrap-around included. What they have
to do with minima and differences is the subject of the modules that use them.

## Main definitions

* `Call.transitNs`: The transit time the code computes for a call.
* `jump`: The difference the code feeds to the jitter filter.
* `lowest`: The running minimum, with zero for not yet set.
* `UdpStats.counted`: A new call up to its transit time.
* `Measured`: The timings measure exactly the calls made so far.

## Theorems

* `asI64_of_lt`, `asI64_of_le`: Casts of the two halves of `u64`.
* `i64Sub_of_range`: A difference in range does not wrap around.
* `record_eq_counted`: A new call is counted before the jitter is updated.
* `record_measures`: What a new sequence number does to the timings.
* `measured_record`: One call keeps the measure.
* `measured_ofCalls`: Any sequence of calls is measured.
-/

namespace ProxyPen

open History

/-! ## Signed arithmetic -/

theorem asI64_of_lt (n : Nat) (h : n < 2 ^ 63) : asI64 n = n := by
  unfold asI64
  rw [Int.bmod_def]
  split <;> omega

/-- A timestamp in the upper half of `u64` is read as a negative number. -/
theorem asI64_of_le (n : Nat) (h : 2 ^ 63 ≤ n) (hlt : n < 2 ^ 64) : asI64 n = n - 2 ^ 64 := by
  unfold asI64
  rw [Int.bmod_def]
  split <;> omega

/-- A difference in range does not wrap around. -/
theorem i64Sub_of_range (a b : Int) (hlo : -2 ^ 63 ≤ a - b) (hhi : a - b < 2 ^ 63) :
    i64Sub a b = a - b := by
  unfold i64Sub
  rw [Int.bmod_def]
  split <;> omega

/-! ## The timings -/

/-- `recv_ts_ns as i64 - send_ts_ns as i64`. -/
def Call.transitNs (c : Call) : Int := i64Sub (asI64 c.recvTsNs) (asI64 c.sendTsNs)

/-- The distance of two transit times, as the jitter filter gets it. -/
def jump (p : Call × Call) : Nat := (i64Sub p.2.transitNs p.1.transitNs).natAbs

/-- The running minimum. Zero counts as not yet set. -/
def lowest (m latency : Nat) : Nat := if m = 0 ∨ latency < m then latency else m

namespace UdpStats

variable {F : Type} [JitterFilter F]

/-- The timings a call with a new sequence number sets. -/
structure Measures (st st' : UdpStats F) (c : Call) : Prop where
  latencyMin : st'.latencyMinNs = lowest st.latencyMinNs c.latency
  lastTransit : st'.lastTransitNs = some c.transitNs
  jitter : st'.jitterNs = st.lastTransitNs.elim st.jitterNs
    (fun last => JitterFilter.update st.jitterNs (i64Sub c.transitNs last).natAbs)

/-- What `record` does to a new call before it looks at the transit time. -/
def counted (st : UdpStats F) (c : Call) : UdpStats F :=
  ({ st with
    seen := insert c.seq st.seen
    bytes := st.bytes + c.payloadLen
    packets := st.packets + 1 }.trackMax c.seq).trackLatency c.latency

theorem record_eq_counted (st : UdpStats F) (c : Call) (h : c.seq ∉ st.seen) :
    st.record c.seq c.sendTsNs c.recvTsNs c.payloadLen
      = (st.counted c).trackJitter c.transitNs := by
  rw [record, if_neg h]
  rfl

omit [JitterFilter F] in
/-- Counting a call takes its latency into account and leaves the jitter
    alone. -/
theorem counted_timings (st : UdpStats F) (c : Call) :
    (st.counted c).latencyMinNs = lowest st.latencyMinNs c.latency ∧
      (st.counted c).lastTransitNs = st.lastTransitNs ∧ (st.counted c).jitterNs = st.jitterNs := by
  unfold counted trackLatency trackMax
  split
  · exact ⟨rfl, rfl, rfl⟩
  · split
    · exact ⟨rfl, rfl, rfl⟩
    · exact ⟨rfl, rfl, rfl⟩

theorem record_measures (st : UdpStats F) (c : Call) (h : c.seq ∉ st.seen) :
    Measures st (st.record c.seq c.sendTsNs c.recvTsNs c.payloadLen) c := by
  rw [record_eq_counted st c h]
  rcases counted_timings st c with ⟨hmin, hlast, hjitter⟩
  refine ⟨hmin, rfl, ?_⟩
  simp only [trackJitter, hlast, hjitter]
  cases st.lastTransitNs with
  | none => rfl
  | some last => rfl

end UdpStats

open UdpStats

variable {F : Type} [JitterFilter F]

/-- The timings measure exactly the calls made so far. -/
structure Measured (calls : List Call) (st : UdpStats F) : Prop where
  latencyMin : st.latencyMinNs = ((firsts Call.seq calls).map Call.latency).foldl lowest 0
  lastTransit : st.lastTransitNs = (firsts Call.seq calls).getLast?.map Call.transitNs
  jitter : st.jitterNs
    = ((consecutive (firsts Call.seq calls)).map jump).foldl JitterFilter.update JitterFilter.zero

/-- One call keeps the measure. -/
theorem measured_record (calls : List Call) (st : UdpStats F) (c : Call) (ht : Tallies calls st)
    (h : Measured calls st) :
    Measured (calls ++ [c]) (st.record c.seq c.sendTsNs c.recvTsNs c.payloadLen) := by
  by_cases hc : c.seq ∈ st.seen
  · -- A repetition is not looked at again.
    have hmem : c.seq ∈ calls.map Call.seq := (ht.seen _).mp hc
    have hfirsts := firsts_snoc_of_mem Call.seq calls c hmem
    rw [record_of_seen st c hc]
    refine ⟨?_, ?_, ?_⟩
    · rw [hfirsts]; exact h.latencyMin
    · rw [hfirsts]; exact h.lastTransit
    · rw [hfirsts]; exact h.jitter
  · have hmem : c.seq ∉ calls.map Call.seq := fun hn => hc ((ht.seen _).mpr hn)
    have hfirsts := firsts_snoc_of_notMem Call.seq calls c hmem
    have hm := record_measures st c hc
    refine ⟨?_, ?_, ?_⟩
    · rw [hm.latencyMin, hfirsts, List.map_append, List.foldl_append, ← h.latencyMin]
      rfl
    · rw [hm.lastTransit, hfirsts, List.getLast?_concat, Option.map_some]
    · rw [hm.jitter, hfirsts, consecutive_snoc, List.map_append, List.foldl_append, ← h.jitter,
        h.lastTransit]
      -- The new pair consists of the last new call before and this one.
      cases (firsts Call.seq calls).getLast? with
      | none => rfl
      | some last => rfl

/-- Any sequence of calls is measured. -/
theorem measured_ofCalls (calls : List Call) :
    Measured calls (UdpStats.ofCalls calls : UdpStats F) := by
  induction calls using List.reverseRecOn with
  | nil => exact ⟨rfl, rfl, rfl⟩
  | append_singleton calls c ih =>
      rw [ofCalls_snoc]
      exact measured_record calls _ c (tallies_ofCalls calls) ih

end ProxyPen
