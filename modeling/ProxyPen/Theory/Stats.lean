import Mathlib.Data.Finset.Dedup
import ProxyPen.Core.Stats
import ProxyPen.Lib.History

/-!
# What the Statistics Mean

The accumulator against its reference meaning. Every counter is a function of
the calls whose sequence number is new, and of nothing the accumulator
remembers: `record_meaning` states each of them over `History.firsts`, the
subsequence of those calls.

`Tallies` is the invariant that carries this. It relates the state after a
list of calls to that list, and it has to be joint: whether a call counts as
out of order is decided by `max_seq`, whose meaning depends on `have_max`,
which holds exactly when some call was new. The minimum latency and the jitter
estimate are not part of it.

## Main definitions

* `Tallies`: The state tallies exactly the calls made so far.

## Theorems

* `record_of_seen`: A repeated sequence number only counts as a duplicate.
* `record_of_new`: What a new sequence number changes.
* `tallies_record`: One call keeps the tally.
* `ofCalls_snoc`: Peeling the last call off a sequence.
* `tallies_ofCalls`: Any sequence of calls is tallied.
* `record_meaning`: The counters of a report, as functions of the calls.
-/

namespace ProxyPen

open History

namespace UdpStats

variable {F : Type} [JitterFilter F]

theorem record_of_seen (st : UdpStats F) (c : Call) (h : c.seq ∈ st.seen) :
    st.record c.seq c.sendTsNs c.recvTsNs c.payloadLen = { st with dup := st.dup + 1 } := by
  rw [record, if_pos h]

/-- The fields a call with a new sequence number sets. The minimum latency
    and the jitter estimate are left out. -/
structure Advances (st st' : UdpStats F) (c : Call) : Prop where
  bytes : st'.bytes = st.bytes + c.payloadLen
  packets : st'.packets = st.packets + 1
  dup : st'.dup = st.dup
  seen : st'.seen = insert c.seq st.seen
  haveMax : st'.haveMax = true
  maxSeq : st'.maxSeq = if st.haveMax then max st.maxSeq c.seq else c.seq
  ooo : st'.ooo = st.ooo + if st.haveMax ∧ ¬ c.seq > st.maxSeq then 1 else 0
  latencyMax : st'.latencyMaxNs = max st.latencyMaxNs c.latency
  latencySum : st'.latencySumNs = min (st.latencySumNs + c.latency) u128Max

theorem record_of_new (st : UdpStats F) (c : Call) (h : c.seq ∉ st.seen) :
    Advances st (st.record c.seq c.sendTsNs c.recvTsNs c.payloadLen) c := by
  rw [record, if_neg h]
  -- The comparison the code makes is a maximum.
  have hlat : (if c.recvTsNs - c.sendTsNs > st.latencyMaxNs then c.recvTsNs - c.sendTsNs
      else st.latencyMaxNs) = max st.latencyMaxNs c.latency := by
    unfold Call.latency
    split <;> omega
  -- The three ways `max_seq` is updated are the three shapes of the state.
  cases hmax : st.haveMax with
  | false =>
      constructor <;>
        simp only [trackMax, trackLatency, trackJitter, hmax, Bool.not_false, if_true, hlat,
          Call.latency, Bool.false_eq_true, if_false, false_and, Nat.add_zero]
  | true =>
      by_cases hgt : c.seq > st.maxSeq
      · have hle : max st.maxSeq c.seq = c.seq := Nat.max_eq_right (Nat.le_of_lt hgt)
        constructor <;>
          simp only [trackMax, trackLatency, trackJitter, hmax, Bool.not_true, Bool.false_eq_true,
            if_false, if_true, hgt, hlat, Call.latency, hle, not_true, and_false, Nat.add_zero]
      · have hle : max st.maxSeq c.seq = st.maxSeq := Nat.max_eq_left (Nat.le_of_not_gt hgt)
        constructor <;>
          simp only [trackMax, trackLatency, trackJitter, hmax, Bool.not_true, Bool.false_eq_true,
            if_false, if_true, hgt, hlat, Call.latency, hle, not_false_iff, and_self]

end UdpStats

open UdpStats

variable {F : Type} [JitterFilter F]

/-- The state tallies exactly the calls made so far. -/
structure Tallies (calls : List Call) (st : UdpStats F) : Prop where
  seen : ∀ n, n ∈ st.seen ↔ n ∈ calls.map Call.seq
  packets : st.packets = (firsts Call.seq calls).length
  dup : st.dup + (firsts Call.seq calls).length = calls.length
  bytes : st.bytes = ((firsts Call.seq calls).map Call.payloadLen).sum
  haveMax : st.haveMax = true ↔ firsts Call.seq calls ≠ []
  maxSeq : st.maxSeq = ((firsts Call.seq calls).map Call.seq).foldl max 0
  ooo : st.ooo = (late Call.seq (firsts Call.seq calls)).length
  latencyMax : st.latencyMaxNs = ((firsts Call.seq calls).map Call.latency).foldl max 0
  latencySum : st.latencySumNs = min ((firsts Call.seq calls).map Call.latency).sum u128Max

theorem tallies_init : Tallies [] (UdpStats.init : UdpStats F) where
  seen n := by simp only [UdpStats.init, Finset.notMem_empty, List.map_nil, List.not_mem_nil]
  packets := rfl
  dup := rfl
  bytes := rfl
  haveMax := by
    simp only [UdpStats.init, Bool.false_eq_true, false_iff, not_not]
    rfl
  maxSeq := rfl
  ooo := rfl
  latencyMax := rfl
  latencySum := rfl

/-- The running maximum bounds every element it has seen. -/
theorem le_foldl_max (l : List Nat) (n : Nat) (h : n ∈ l) : n ≤ l.foldl max 0 := by
  induction l using List.reverseRecOn with
  | nil => exact absurd h List.not_mem_nil
  | append_singleton l x ih =>
      rw [List.foldl_append, List.foldl_cons, List.foldl_nil]
      rcases List.mem_append.mp h with hl | hx
      · exact le_max_of_le_left (ih hl)
      · rw [List.mem_singleton.mp hx]
        exact le_max_right _ _

/-- The running maximum of a non-empty list is one of its elements. -/
theorem foldl_max_mem (l : List Nat) (h : l ≠ []) : l.foldl max 0 ∈ l := by
  induction l using List.reverseRecOn with
  | nil => exact absurd rfl h
  | append_singleton l x ih =>
      rw [List.foldl_append, List.foldl_cons, List.foldl_nil, List.mem_append,
        List.mem_singleton]
      rcases Nat.le_total (l.foldl max 0) x with hle | hle
      · exact Or.inr (Nat.max_eq_right hle)
      · rw [Nat.max_eq_left hle]
        -- An empty front has maximum zero, which the new element then equals.
        by_cases hl : l = []
        · subst hl
          exact Or.inr (Nat.le_antisymm (Nat.zero_le x) hle)
        · exact Or.inl (ih hl)

omit [JitterFilter F] in
/-- Being overtaken by some earlier call is being overtaken by the maximum. -/
theorem Tallies.overtaken_iff {calls : List Call} {st : UdpStats F} (h : Tallies calls st)
    (c : Call) (hnew : c.seq ∉ calls.map Call.seq) :
    (st.haveMax = true ∧ ¬ c.seq > st.maxSeq) ↔
      ∃ y ∈ firsts Call.seq calls, c.seq < y.seq := by
  constructor
  · rintro ⟨hm, hle⟩
    have hne : (firsts Call.seq calls).map Call.seq ≠ [] := by
      rw [ne_eq, List.map_eq_nil_iff]
      exact h.haveMax.mp hm
    have hmax := foldl_max_mem _ hne
    rw [← h.maxSeq] at hmax
    rcases List.mem_map.mp hmax with ⟨y, hy, hyeq⟩
    refine ⟨y, hy, ?_⟩
    -- The maximum is a number already seen, so a new number differs from it.
    have hneq : c.seq ≠ st.maxSeq := fun heq =>
      hnew (heq ▸ (mem_map_firsts Call.seq calls _).mp hmax)
    omega
  · rintro ⟨y, hy, hlt⟩
    refine ⟨h.haveMax.mpr (List.ne_nil_of_mem hy), ?_⟩
    have hle := le_foldl_max ((firsts Call.seq calls).map Call.seq) y.seq
      (List.mem_map_of_mem hy)
    rw [← h.maxSeq] at hle
    omega

/-- One call keeps the tally. -/
theorem tallies_record (calls : List Call) (st : UdpStats F) (c : Call) (h : Tallies calls st) :
    Tallies (calls ++ [c]) (st.record c.seq c.sendTsNs c.recvTsNs c.payloadLen) := by
  by_cases hc : c.seq ∈ st.seen
  · -- A repetition: the first occurrences do not change.
    have hmem : c.seq ∈ calls.map Call.seq := (h.seen _).mp hc
    have hfirsts := firsts_snoc_of_mem Call.seq calls c hmem
    rw [record_of_seen st c hc]
    refine ⟨?_, ?_, ?_, ?_, ?_, ?_, ?_, ?_, ?_⟩
    · intro n
      rw [List.map_append, List.map_singleton, List.mem_append, List.mem_singleton]
      constructor
      · exact fun hn => Or.inl ((h.seen n).mp hn)
      · rintro (hn | rfl)
        · exact (h.seen n).mpr hn
        · exact hc
    · rw [hfirsts]; exact h.packets
    · have := h.dup
      simp only [hfirsts, List.length_append, List.length_singleton]
      omega
    · rw [hfirsts]; exact h.bytes
    · rw [hfirsts]; exact h.haveMax
    · rw [hfirsts]; exact h.maxSeq
    · rw [hfirsts]; exact h.ooo
    · rw [hfirsts]; exact h.latencyMax
    · rw [hfirsts]; exact h.latencySum
  -- A new number: the call joins the first occurrences.
  · have hmem : c.seq ∉ calls.map Call.seq := fun hn => hc ((h.seen _).mpr hn)
    have hfirsts := firsts_snoc_of_notMem Call.seq calls c hmem
    have ha := record_of_new st c hc
    refine ⟨?_, ?_, ?_, ?_, ?_, ?_, ?_, ?_, ?_⟩
    · intro n
      rw [ha.seen, Finset.mem_insert, h.seen, List.map_append, List.map_singleton,
        List.mem_append, List.mem_singleton, Or.comm]
    · rw [ha.packets, hfirsts, List.length_append, List.length_singleton, h.packets]
    · have := h.dup
      rw [ha.dup, hfirsts, List.length_append, List.length_append, List.length_singleton]
      omega
    · rw [ha.bytes, hfirsts, List.map_append, List.sum_append, List.map_singleton,
        List.sum_singleton, h.bytes]
    · rw [hfirsts, ha.haveMax]
      simp only [ne_eq, List.append_eq_nil_iff, List.cons_ne_self, and_false,
        not_false_eq_true]
    · rw [ha.maxSeq, hfirsts, List.map_append, List.foldl_append, ← h.maxSeq]
      by_cases hm : st.haveMax = true
      · rw [if_pos hm]
        rfl
      · -- Nothing was recorded before, so the old maximum is zero.
        have hnil : firsts Call.seq calls = [] := by
          by_contra hne
          exact hm (h.haveMax.mpr hne)
        have hzero : st.maxSeq = 0 := by rw [h.maxSeq, hnil]; rfl
        rw [if_neg hm, hzero, List.map_singleton, List.foldl_cons, List.foldl_nil, Nat.zero_max]
    · rw [ha.ooo, hfirsts, late, keep_snoc, List.length_append, ← late, ← h.ooo]
      congr 1
      have hiff := h.overtaken_iff c hmem
      by_cases hover : ∃ y ∈ firsts Call.seq calls, c.seq < y.seq
      · rw [if_pos (hiff.mpr hover), if_pos hover, List.length_singleton]
      · rw [if_neg (fun hn => hover (hiff.mp hn)), if_neg hover, List.length_nil]
    · rw [ha.latencyMax, hfirsts, List.map_append, List.foldl_append, ← h.latencyMax]
      rfl
    · rw [ha.latencySum, hfirsts, List.map_append, List.sum_append, List.map_singleton,
        List.sum_singleton, h.latencySum]
      omega

/-- The last call meets the state all earlier ones have led to. -/
theorem ofCalls_snoc (calls : List Call) (c : Call) :
    (UdpStats.ofCalls (calls ++ [c]) : UdpStats F)
      = (UdpStats.ofCalls calls).record c.seq c.sendTsNs c.recvTsNs c.payloadLen := by
  rw [UdpStats.ofCalls, List.foldl_append, List.foldl_cons, List.foldl_nil, ← UdpStats.ofCalls]

/-- Any sequence of calls is tallied. -/
theorem tallies_ofCalls (calls : List Call) :
    Tallies calls (UdpStats.ofCalls calls : UdpStats F) := by
  induction calls using List.reverseRecOn with
  | nil => exact tallies_init
  | append_singleton calls c ih =>
      rw [ofCalls_snoc]
      exact tallies_record calls _ c ih

/-- The counters of a report as functions of the calls that led to it, with
    `firsts` the calls whose sequence number is new. -/
theorem record_meaning (calls : List Call) (durationActualNs : Nat) :
    let firstCalls := firsts Call.seq calls
    let st : UdpStats F := UdpStats.ofCalls calls
    st.packets = firstCalls.length ∧
      firstCalls.length = (calls.map Call.seq).toFinset.card ∧
      st.dup = calls.length - firstCalls.length ∧
      st.bytes = (firstCalls.map Call.payloadLen).sum ∧
      st.maxSeq = (firstCalls.map Call.seq).foldl max 0 ∧
      st.ooo = (late Call.seq firstCalls).length ∧
      st.ooo + (records Call.seq firstCalls).length = st.packets ∧
      (st.ooo = 0 ↔ (firstCalls.map Call.seq).Pairwise (· < ·)) ∧
      st.latencyMaxNs = (firstCalls.map Call.latency).foldl max 0 ∧
      (st.intoReport durationActualNs).latencySumNs
        = min (firstCalls.map Call.latency).sum (2 ^ 64 - 1) := by
  intro firstCalls st
  have h : Tallies calls st := tallies_ofCalls calls
  have hdup : st.dup + firstCalls.length = calls.length := h.dup
  refine ⟨h.packets, firsts_length Call.seq calls, by omega, h.bytes, h.maxSeq, h.ooo, ?_, ?_,
    h.latencyMax, ?_⟩
  · rw [h.ooo, h.packets]
    exact late_add_records Call.seq _ (firsts_nodup Call.seq calls)
  · rw [h.ooo]
    exact late_length_eq_zero_iff Call.seq _ (firsts_nodup Call.seq calls)
  -- Saturating at `u128::MAX` first makes no difference to saturating at `u64::MAX`.
  · have hsum : st.latencySumNs = min (firstCalls.map Call.latency).sum u128Max := h.latencySum
    rw [u128Max] at hsum
    simp only [UdpStats.intoReport, u64Max]
    omega

end ProxyPen
