import ProxyPen.Core.Receiver
import ProxyPen.Theory.Samples

/-!
# Overflow in the Jitter

When recording datagrams overflows `i64`. The send timestamp is whatever the
datagram says, and the code casts it to `i64`. Two subtractions follow: the
transit time of the datagram, and its difference to the transit time of the
datagram before it. The latency of the same two timestamps saturates instead.

A debug build stops at an overflow, so the subtractions of a run stay in range
exactly when the debug build gets through it. `recordChecked_eq_some_iff` says
when one call gets through, `checked_calls_iff` when a sequence of calls does,
and what is left is to read the two ranges as conditions on timestamps.

## Main definitions

* `InI64`: The range of `i64`.
* `Contained`: All differences of a sequence of calls are in range.
* `Call.Stamped`, `Steady`: The two conditions on timestamps.
* `receive`, `receiveChecked`: A sequence of datagrams, in a release and in a
  debug build.

## Theorems

* `recordChecked_eq_some_iff`: When one call gets through.
* `checked_calls_iff`: When a sequence of calls gets through.
* `contained_iff`: The two ranges as conditions on timestamps.
* `no_overflow_iff`: When a sequence of datagrams gets through.
-/

namespace ProxyPen

open Protocol History

/-- The range of `i64`. -/
def InI64 (x : Int) : Prop := -2 ^ 63 ≤ x ∧ x < 2 ^ 63

instance (x : Int) : Decidable (InI64 x) := inferInstanceAs (Decidable (_ ∧ _))

theorem i64CheckedSub_eq_some_iff (a b d : Int) :
    i64CheckedSub a b = some d ↔ InI64 (a - b) ∧ d = a - b := by
  rw [i64CheckedSub, Option.ite_none_right_eq_some, Option.some.injEq, InI64, eq_comm]

/-- The transit time as an integer. -/
def Call.exactTransit (c : Call) : Int := asI64 c.recvTsNs - asI64 c.sendTsNs

theorem Call.transitNs_of_in (c : Call) (h : InI64 c.exactTransit) :
    c.transitNs = c.exactTransit := i64Sub_of_range _ _ h.1 h.2

namespace UdpStats

variable {F : Type} [JitterFilter F]

theorem trackJitterChecked_eq_some_iff (st st' : UdpStats F) (t : Int) :
    st.trackJitterChecked t = some st' ↔
      (∀ last, st.lastTransitNs = some last → InI64 (t - last)) ∧ st' = st.trackJitter t := by
  unfold trackJitterChecked trackJitter
  cases st.lastTransitNs with
  | none => simp only [reduceCtorEq, false_implies, implies_true, true_and, Option.some.injEq,
      eq_comm]
  | some last =>
      simp only [Option.map_eq_some_iff, i64CheckedSub_eq_some_iff, Option.some.injEq,
        forall_eq']
      constructor
      · rintro ⟨d, ⟨hin, rfl⟩, rfl⟩
        rw [i64Sub_of_range t last hin.1 hin.2]
        exact ⟨hin, rfl⟩
      · rintro ⟨hin, rfl⟩
        rw [i64Sub_of_range t last hin.1 hin.2]
        exact ⟨_, ⟨hin, rfl⟩, rfl⟩

theorem recordChecked_eq_counted (st : UdpStats F) (c : Call) (h : c.seq ∉ st.seen) :
    st.recordChecked c.seq c.sendTsNs c.recvTsNs c.payloadLen
      = (i64CheckedSub (asI64 c.recvTsNs) (asI64 c.sendTsNs)).bind
        (st.counted c).trackJitterChecked := by
  rw [recordChecked, if_neg h]
  rfl

/-- A call gets through the checks if it is a repetition or both differences
    are in range, and then it does what it does without them. -/
theorem recordChecked_eq_some_iff (st st' : UdpStats F) (c : Call) :
    st.recordChecked c.seq c.sendTsNs c.recvTsNs c.payloadLen = some st' ↔
      (c.seq ∈ st.seen ∨ InI64 c.exactTransit ∧
        ∀ last, st.lastTransitNs = some last → InI64 (c.exactTransit - last)) ∧
      st' = st.record c.seq c.sendTsNs c.recvTsNs c.payloadLen := by
  by_cases hc : c.seq ∈ st.seen
  · rw [recordChecked, record, if_pos hc, if_pos hc, Option.some.injEq, eq_comm]
    exact ⟨fun h => ⟨Or.inl hc, h⟩, fun h => h.2⟩
  · rw [recordChecked_eq_counted st c hc, record_eq_counted st c hc, Option.bind_eq_some_iff]
    simp only [i64CheckedSub_eq_some_iff, trackJitterChecked_eq_some_iff,
      (counted_timings st c).2.1, hc, false_or]
    constructor
    · intro h
      rcases h with ⟨d, ⟨hin, hd⟩, hlasts, hst⟩
      rw [hd] at hlasts hst
      rw [c.transitNs_of_in hin]
      exact ⟨⟨hin, hlasts⟩, hst⟩
    · intro h
      rcases h with ⟨⟨hin, hlasts⟩, hst⟩
      rw [c.transitNs_of_in hin] at hst
      exact ⟨_, ⟨hin, rfl⟩, hlasts, hst⟩

end UdpStats

/-! ## Sequences of calls -/

/-- All differences of a sequence of calls are in range. -/
structure Contained (l : List Call) : Prop where
  transits : ∀ c ∈ l, InI64 c.exactTransit
  steps : ∀ p ∈ consecutive l, InI64 (p.2.exactTransit - p.1.exactTransit)

theorem contained_snoc (l : List Call) (c : Call) :
    Contained (l ++ [c]) ↔ Contained l ∧ InI64 c.exactTransit ∧
      ∀ a, l.getLast? = some a → InI64 (c.exactTransit - a.exactTransit) := by
  have hpairs : ∀ p, p ∈ consecutive (l ++ [c]) ↔
      p ∈ consecutive l ∨ ∃ a, l.getLast? = some a ∧ (a, c) = p := by
    intro p
    rw [consecutive_snoc, List.mem_append, Option.mem_toList, Option.map_eq_some_iff]
  constructor
  · intro h
    refine ⟨⟨?_, ?_⟩, ?_, ?_⟩
    · exact fun d hd => h.transits d (List.mem_append_left _ hd)
    · exact fun p hp => h.steps p ((hpairs p).mpr (Or.inl hp))
    · exact h.transits c (List.mem_append_right _ (List.mem_singleton_self c))
    · exact fun a ha => h.steps (a, c) ((hpairs (a, c)).mpr (Or.inr ⟨a, ha, rfl⟩))
  · intro h
    rcases h with ⟨h, hc, hlast⟩
    refine ⟨?_, ?_⟩
    · intro d hd
      rcases List.mem_append.mp hd with hd | hd
      · exact h.transits d hd
      · rw [List.mem_singleton.mp hd]
        exact hc
    · intro p hp
      rcases (hpairs p).mp hp with hp | ⟨a, ha, hp⟩
      · exact h.steps p hp
      · rw [← hp]
        exact hlast a ha

section

variable {F : Type} [JitterFilter F]

/-- While all differences are in range, the last transit time is exact. -/
theorem lastTransit_of_contained (calls : List Call) (h : Contained (firsts Call.seq calls)) :
    (UdpStats.ofCalls calls : UdpStats F).lastTransitNs
      = (firsts Call.seq calls).getLast?.map Call.exactTransit := by
  rw [(measured_ofCalls calls).lastTransit]
  cases hlast : (firsts Call.seq calls).getLast? with
  | none => simp only [Option.map_none]
  | some a =>
      have hin := h.transits a (List.mem_of_getLast? hlast)
      simp only [Option.map_some, a.transitNs_of_in hin]

/-- A sequence of calls gets through the checks when all differences between
    its new calls are in range. -/
theorem checked_calls_iff (calls : List Call) (st : UdpStats F) :
    calls.foldlM (fun st c => st.recordChecked c.seq c.sendTsNs c.recvTsNs c.payloadLen)
      UdpStats.init = some st ↔
    Contained (firsts Call.seq calls) ∧ st = UdpStats.ofCalls calls := by
  induction calls using List.reverseRecOn generalizing st with
  | nil =>
      have hnil : Contained (firsts Call.seq []) :=
        ⟨fun _ hc => absurd hc List.not_mem_nil, fun _ hp => absurd hp List.not_mem_nil⟩
      rw [List.foldlM_nil, Option.pure_def, Option.some.injEq, eq_comm]
      exact ⟨fun h => ⟨hnil, h⟩, fun h => h.2⟩
  | append_singleton calls c ih =>
      have ht : Tallies calls (UdpStats.ofCalls calls : UdpStats F) := tallies_ofCalls calls
      rw [List.foldlM_append, Option.bind_eq_bind, Option.bind_eq_some_iff]
      simp only [List.foldlM_cons, List.foldlM_nil, bind_pure, ih,
        UdpStats.recordChecked_eq_some_iff, ofCalls_snoc]
      -- The earlier calls have led to one state, if they got through at all.
      have hone : ∀ P : UdpStats F → Prop,
          (∃ u, (Contained (firsts Call.seq calls) ∧ u = UdpStats.ofCalls calls) ∧ P u) ↔
            Contained (firsts Call.seq calls) ∧ P (UdpStats.ofCalls calls) := by
        intro P
        constructor
        · rintro ⟨u, ⟨hu, rfl⟩, hP⟩
          exact ⟨hu, hP⟩
        · rintro ⟨hu, hP⟩
          exact ⟨_, ⟨hu, rfl⟩, hP⟩
      rw [hone, ← and_assoc]
      refine and_congr_left (fun _ => ?_)
      rw [ht.seen]
      by_cases hmem : c.seq ∈ calls.map Call.seq
      · rw [firsts_snoc_of_mem Call.seq calls c hmem]
        exact ⟨fun h => h.1, fun h => ⟨h, Or.inl hmem⟩⟩
      · rw [firsts_snoc_of_notMem Call.seq calls c hmem, contained_snoc, or_iff_right hmem]
        refine and_congr_right (fun h => and_congr_right (fun _ => ?_))
        rw [lastTransit_of_contained calls h]
        simp only [Option.map_eq_some_iff, forall_exists_index, and_imp, forall_apply_eq_imp_iff₂]

/-! ## Sequences of datagrams -/

/-- The `record` call a datagram leads to, with the time it is received. -/
def arrivalCall (a : Bytes × Nat) : Option Call :=
  (decodeUdpHeader a.1).map fun h => ⟨h.1, h.2, a.2, a.1.length⟩

/-- The statistics of a sequence of datagrams with their receive times. -/
def receive (arrivals : List (Bytes × Nat)) : UdpStats F :=
  arrivals.foldl (fun st a => processPacket st a.1 a.2) UdpStats.init

/-- The same in a debug build. -/
def receiveChecked (arrivals : List (Bytes × Nat)) : Option (UdpStats F) :=
  arrivals.foldlM (fun st a => processPacketChecked st a.1 a.2) UdpStats.init

theorem receive_eq_ofCalls (arrivals : List (Bytes × Nat)) :
    (receive arrivals : UdpStats F) = UdpStats.ofCalls (arrivals.filterMap arrivalCall) := by
  rw [UdpStats.ofCalls, List.foldl_filterMap, receive]
  congr 1
  funext st a
  rw [processPacket, arrivalCall]
  cases decodeUdpHeader a.1 with
  | none => rfl
  | some h => rfl

theorem receiveChecked_eq_calls (arrivals : List (Bytes × Nat)) :
    (receiveChecked arrivals : Option (UdpStats F)) = (arrivals.filterMap arrivalCall).foldlM
      (fun st c => st.recordChecked c.seq c.sendTsNs c.recvTsNs c.payloadLen) UdpStats.init := by
  rw [List.foldlM_filterMap, receiveChecked]
  congr 1
  funext st a
  rw [processPacketChecked, arrivalCall]
  cases decodeUdpHeader a.1 with
  | none => rfl
  | some h => rfl

theorem receiveChecked_eq_some_iff (arrivals : List (Bytes × Nat)) (st : UdpStats F) :
    receiveChecked arrivals = some st ↔
      Contained (firsts Call.seq (arrivals.filterMap arrivalCall)) ∧ st = receive arrivals := by
  rw [receive_eq_ofCalls, ← checked_calls_iff, receiveChecked_eq_calls]

end

/-- The send timestamp is none of the `recvTsNs + 1` numbers from `2 ^ 63` on. -/
def Call.Stamped (c : Call) : Prop :=
  ¬ (2 ^ 63 ≤ c.sendTsNs ∧ c.sendTsNs ≤ c.recvTsNs + 2 ^ 63)

instance (c : Call) : Decidable c.Stamped := inferInstanceAs (Decidable (¬ _))

/-- From one call to the next the send timestamp, read as an `i64`, gets at most
    `2 ^ 63` ahead of the time that passed at the receiver, and less than that
    behind it. -/
def Steady (a b : Call) : Prop :=
  asI64 b.sendTsNs ≤ asI64 a.sendTsNs + (b.recvTsNs - a.recvTsNs) + 2 ^ 63 ∧
    asI64 a.sendTsNs + (b.recvTsNs - a.recvTsNs) < asI64 b.sendTsNs + 2 ^ 63

instance (a b : Call) : Decidable (Steady a b) := inferInstanceAs (Decidable (_ ∧ _))

theorem inI64_exactTransit_iff (c : Call) (hrecv : c.recvTsNs < 2 ^ 63)
    (hsend : c.sendTsNs < 2 ^ 64) : InI64 c.exactTransit ↔ c.Stamped := by
  unfold InI64 Call.exactTransit Call.Stamped
  rw [asI64_of_lt _ hrecv]
  by_cases h : c.sendTsNs < 2 ^ 63
  · rw [asI64_of_lt _ h]
    omega
  · rw [asI64_of_le _ (Nat.le_of_not_lt h) hsend]
    omega

theorem inI64_step_iff (a b : Call) (ha : a.recvTsNs < 2 ^ 63) (hb : b.recvTsNs < 2 ^ 63) :
    InI64 (b.exactTransit - a.exactTransit) ↔ Steady a b := by
  unfold InI64 Call.exactTransit Steady
  rw [asI64_of_lt _ ha, asI64_of_lt _ hb]
  omega

/-- The timestamps of a decoded datagram. -/
theorem arrivalCall_bounds (arrivals : List (Bytes × Nat))
    (hclock : ∀ a ∈ arrivals, a.2 < 2 ^ 63) (c : Call)
    (hc : c ∈ firsts Call.seq (arrivals.filterMap arrivalCall)) :
    c.recvTsNs < 2 ^ 63 ∧ c.sendTsNs < 2 ^ 64 := by
  have hmem := (keep_sublist _ _).subset hc
  rcases List.mem_filterMap.mp hmem with ⟨a, ha, hcall⟩
  rw [arrivalCall, Option.map_eq_some_iff] at hcall
  rcases hcall with ⟨h, hdecode, rfl⟩
  refine ⟨hclock a ha, ?_⟩
  rw [decodeUdpHeader, Option.ite_none_left_eq_some, Option.some.injEq] at hdecode
  have hlt := beNat_lt ((a.1.drop 8).take 8)
  have hlen : ((a.1.drop 8).take 8).length ≤ 8 := List.length_take_le _ _
  rw [← hdecode.2]
  exact Nat.lt_of_lt_of_le hlt (Nat.le_trans (Nat.pow_le_pow_right (by omega) hlen) (by omega))

/-- The two ranges as conditions on timestamps. -/
theorem contained_iff (l : List Call)
    (hbounds : ∀ c ∈ l, c.recvTsNs < 2 ^ 63 ∧ c.sendTsNs < 2 ^ 64) :
    Contained l ↔ (∀ c ∈ l, c.Stamped) ∧ ∀ p ∈ consecutive l, Steady p.1 p.2 := by
  have htransit : ∀ c ∈ l, InI64 c.exactTransit ↔ c.Stamped := by
    intro c hc
    exact inI64_exactTransit_iff c (hbounds c hc).1 (hbounds c hc).2
  have hstep : ∀ p ∈ consecutive l, InI64 (p.2.exactTransit - p.1.exactTransit) ↔
      Steady p.1 p.2 := by
    intro p hp
    rcases mem_of_mem_consecutive l p hp with ⟨h₁, h₂⟩
    exact inI64_step_iff p.1 p.2 (hbounds _ h₁).1 (hbounds _ h₂).1
  constructor
  · intro h
    exact ⟨fun c hc => (htransit c hc).mp (h.transits c hc),
      fun p hp => (hstep p hp).mp (h.steps p hp)⟩
  · intro h
    exact ⟨fun c hc => (htransit c hc).mpr (h.1 c hc), fun p hp => (hstep p hp).mpr (h.2 p hp)⟩

/-- When no subtraction overflows, whatever the datagrams hold, and that a debug
    build then computes what a release build does. -/
theorem no_overflow_iff (F : Type) [JitterFilter F] (arrivals : List (Bytes × Nat))
    (hclock : ∀ a ∈ arrivals, a.2 < 2 ^ 63) :
    let news := firsts Call.seq (arrivals.filterMap arrivalCall)
    ((receiveChecked arrivals : Option (UdpStats F)) ≠ none ↔
      (∀ c ∈ news, c.Stamped) ∧ ∀ p ∈ consecutive news, Steady p.1 p.2) ∧
    ∀ st : UdpStats F, receiveChecked arrivals = some st → st = receive arrivals := by
  intro news
  refine ⟨?_, fun st h => ((receiveChecked_eq_some_iff arrivals st).mp h).2⟩
  rw [← contained_iff news (arrivalCall_bounds arrivals hclock), Option.ne_none_iff_exists']
  -- The debug build has at most one state to end in.
  constructor
  · intro h
    rcases h with ⟨st, hst⟩
    exact ((receiveChecked_eq_some_iff arrivals st).mp hst).1
  · intro h
    exact ⟨receive arrivals, (receiveChecked_eq_some_iff arrivals _).mpr ⟨h, rfl⟩⟩

/-- Two datagrams of an ordinary test. -/
theorem no_overflow_iff_ordinary :
    let datagram (seq ts : Nat) : Bytes := encodeUdpHeader (List.replicate 16 0) seq ts
    (receiveChecked [(datagram 0 100, 150), (datagram 1 200, 260)] : Option (UdpStats Float))
      ≠ none :=
  (no_overflow_iff Float _ (by decide)).1.mpr (by decide +kernel)

/-- A timestamp of `2 ^ 63` overflows the transit time of the first datagram.
    One less does not, but a timestamp of zero a nanosecond later overflows the
    difference. -/
theorem overflowing_stamps :
    let datagram (seq ts : Nat) : Bytes := encodeUdpHeader (List.replicate 16 0) seq ts
    (receiveChecked [(datagram 0 (2 ^ 63), 0)] : Option (UdpStats Float)) = none ∧
    (receiveChecked [(datagram 0 (2 ^ 63 - 1), 0)] : Option (UdpStats Float)) ≠ none ∧
    (receiveChecked [(datagram 0 (2 ^ 63 - 1), 0), (datagram 1 0, 1)] : Option (UdpStats Float))
      = none := by
  refine ⟨Option.isNone_iff_eq_none.mp ?_, Option.isSome_iff_ne_none.mp ?_,
    Option.isNone_iff_eq_none.mp ?_⟩
  · decide +kernel
  · decide +kernel
  · decide +kernel

end ProxyPen
