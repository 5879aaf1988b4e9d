import Mathlib.Algebra.Group.Action.Defs
import Mathlib.Algebra.Order.BigOperators.Group.List
import ProxyPen.Core.Receiver
import ProxyPen.Theory.Samples

/-!
# The Minimum Latency

When the minimum latency of a report is a minimum. The accumulator takes a
minimum of zero for one that is not yet set. A latency of zero is legal all the
same: it is what the subtraction saturates to when the two clocks disagree. So
a zero survives until the next new call and is forgotten then, and what is
reported at the end is the minimum over the calls after the last zero.

This is the true minimum when there was no zero, and also when the last new
call brought one. The order of arrival decides which calls come after a zero,
so it decides the report, unless all latencies are zero or none is.

## Main definitions

* `Call.Flat`: A call whose latency is zero.
* `Unforgotten`: No zero is forgotten.

## Theorems

* `foldl_lowest_eq_zero_iff`: The running minimum is zero after a zero.
* `min_of_ne_zero`: Without zeros it is the minimum.
* `min_iff`: When it is the minimum.
* `average_bounds`: The average lies between bounds of the latencies.
* `min_latency_iff`: When the reported minimum is the minimum, and when it does
  not depend on the order of arrival.
-/

namespace ProxyPen

open History

/-- Received no later than it was sent, by the clocks of the two sides. -/
def Call.Flat (c : Call) : Prop := c.recvTsNs ≤ c.sendTsNs

instance (c : Call) : Decidable c.Flat := inferInstanceAs (Decidable (_ ≤ _))

theorem Call.latency_eq_zero_iff (c : Call) : c.latency = 0 ↔ c.Flat := by
  rw [Call.latency, Call.Flat, Nat.sub_eq_zero_iff_le]

/-! ## The running minimum -/

/-- A new latency of zero gives zero, and nothing else does. -/
theorem lowest_eq_zero_iff (m x : Nat) : lowest m x = 0 ↔ x = 0 := by
  unfold lowest
  by_cases h : m = 0 ∨ x < m
  · rw [if_pos h]
  · rw [if_neg h]
    omega

/-- Once set, it is a minimum. -/
theorem lowest_of_ne_zero (m x : Nat) (h : m ≠ 0) : lowest m x = min m x := by
  unfold lowest
  by_cases hx : x < m
  · rw [if_pos (Or.inr hx)]
    omega
  · rw [if_neg (fun hor => hor.elim h hx)]
    omega

theorem foldl_lowest_eq_zero_iff (l : List Nat) (hne : l ≠ []) :
    l.foldl lowest 0 = 0 ↔ l.getLast? = some 0 := by
  induction l using List.reverseRecOn with
  | nil => exact absurd rfl hne
  | append_singleton l x _ =>
      rw [List.foldl_append, List.foldl_cons, List.foldl_nil, lowest_eq_zero_iff,
        List.getLast?_concat, Option.some.injEq]

/-- As long as no latency is zero, the sentinel is only met at the start. -/
theorem min_of_ne_zero (l : List Nat) (hne : l ≠ []) (h : ∀ x ∈ l, x ≠ 0) :
    l.min? = some (l.foldl lowest 0) := by
  induction l using List.reverseRecOn with
  | nil => exact absurd rfl hne
  | append_singleton l x ih =>
      rw [List.foldl_append, List.foldl_cons, List.foldl_nil]
      by_cases hl : l = []
      · rw [hl]
        rfl
      have hmin := ih hl (fun y hy => h y (List.mem_append_left _ hy))
      rw [List.min?_eq_some_iff] at hmin ⊢
      rcases hmin with ⟨hmem, hle⟩
      rw [lowest_of_ne_zero _ x (h _ (List.mem_append_left _ hmem))]
      refine ⟨?_, ?_⟩
      · rcases Nat.le_total (l.foldl lowest 0) x with hx | hx
        · rw [Nat.min_eq_left hx]
          exact List.mem_append_left _ hmem
        · rw [Nat.min_eq_right hx]
          exact List.mem_append_right _ (List.mem_singleton_self x)
      · intro y hy
        rcases List.mem_append.mp hy with hy | hy
        · exact Nat.le_trans (Nat.min_le_left _ _) (hle y hy)
        · rw [List.mem_singleton.mp hy]
          exact Nat.min_le_right _ _

/-- The running minimum is the minimum unless a zero is forgotten. -/
theorem min_iff (l : List Nat) (hne : l ≠ []) :
    l.min? = some (l.foldl lowest 0) ↔ (∀ x ∈ l, x ≠ 0) ∨ l.getLast? = some 0 := by
  constructor
  · intro hmin
    rw [List.min?_eq_some_iff] at hmin
    rcases hmin with ⟨_, hle⟩
    by_cases hzero : l.foldl lowest 0 = 0
    · exact Or.inr ((foldl_lowest_eq_zero_iff l hne).mp hzero)
    · refine Or.inl ?_
      intro x hx
      have := hle x hx
      omega
  · intro h
    rcases h with h | h
    · exact min_of_ne_zero l hne h
    · rw [List.min?_eq_some_iff, (foldl_lowest_eq_zero_iff l hne).mpr h]
      exact ⟨List.mem_of_getLast? h, fun x _ => Nat.zero_le x⟩

/-- An average, rounded down, lies between any two bounds of the values. -/
theorem average_bounds (l : List Nat) (hne : l ≠ []) (lo hi : Nat) (hlo : ∀ x ∈ l, lo ≤ x)
    (hhi : ∀ x ∈ l, x ≤ hi) : lo ≤ l.sum / l.length ∧ l.sum / l.length ≤ hi := by
  have hpos : 0 < l.length := List.length_pos_iff.mpr hne
  have hle := List.card_nsmul_le_sum l lo hlo
  have hge := List.sum_le_card_nsmul l hi hhi
  rw [smul_eq_mul] at hle hge
  constructor
  · rw [Nat.le_div_iff_mul_le hpos, Nat.mul_comm]
    exact hle
  · exact Nat.div_le_of_le_mul hge

/-! ## The report -/

/-- No latency of zero is forgotten: there is none, or the last new call
    brought one. -/
def Unforgotten (calls : List Call) : Prop :=
  (∀ c ∈ firsts Call.seq calls, ¬ c.Flat) ∨
    ∃ c, (firsts Call.seq calls).getLast? = some c ∧ c.Flat

theorem latencies_ne_zero_iff (l : List Call) :
    (∀ x ∈ l.map Call.latency, x ≠ 0) ↔ ∀ c ∈ l, ¬ c.Flat := by
  simp only [List.forall_mem_map, ne_eq, Call.latency_eq_zero_iff]

theorem latencies_ne_nil (l : List Call) (h : l ≠ []) : l.map Call.latency ≠ [] := by
  rw [ne_eq, List.map_eq_nil_iff]
  exact h

theorem latencies_getLast_iff (l : List Call) :
    (l.map Call.latency).getLast? = some 0 ↔ ∃ c, l.getLast? = some c ∧ c.Flat := by
  rw [List.getLast?_map, Option.map_eq_some_iff]
  simp only [Call.latency_eq_zero_iff]

section

variable {F : Type} [JitterFilter F]

theorem latencyMin_ofCalls_iff (calls : List Call) (hne : calls ≠ []) :
    ((firsts Call.seq calls).map Call.latency).min?
      = some (UdpStats.ofCalls calls : UdpStats F).latencyMinNs ↔ Unforgotten calls := by
  have hsamples := latencies_ne_nil _ (firsts_ne_nil Call.seq calls hne)
  rw [(measured_ofCalls calls).latencyMin, min_iff _ hsamples, latencies_ne_zero_iff,
    latencies_getLast_iff, Unforgotten]

/-- The reported minimum is zero exactly when the last call brought a zero. -/
theorem latencyMin_eq_zero_iff (calls : List Call) (hnodup : (calls.map Call.seq).Nodup)
    (hne : calls ≠ []) :
    (UdpStats.ofCalls calls : UdpStats F).latencyMinNs = 0
      ↔ ∃ c, calls.getLast? = some c ∧ c.Flat := by
  rw [(measured_ofCalls calls).latencyMin, firsts_of_nodup _ _ hnodup,
    foldl_lowest_eq_zero_iff _ (latencies_ne_nil calls hne), latencies_getLast_iff]

theorem latencyMin_of_flat (calls : List Call) (hnodup : (calls.map Call.seq).Nodup)
    (hne : calls ≠ []) (h : ∀ c ∈ calls, c.Flat) :
    (UdpStats.ofCalls calls : UdpStats F).latencyMinNs = 0 := by
  rw [latencyMin_eq_zero_iff calls hnodup hne]
  exact ⟨_, List.getLast?_eq_some_getLast hne, h _ (List.getLast_mem hne)⟩

theorem latencyMin_of_steep (calls : List Call) (hnodup : (calls.map Call.seq).Nodup)
    (hne : calls ≠ []) (h : ∀ c ∈ calls, ¬ c.Flat) :
    (UdpStats.ofCalls calls : UdpStats F).latencyMinNs ∈ calls.map Call.latency ∧
      ∀ x ∈ calls.map Call.latency, (UdpStats.ofCalls calls : UdpStats F).latencyMinNs ≤ x := by
  have hfirsts := firsts_of_nodup Call.seq calls hnodup
  have hmin := (latencyMin_ofCalls_iff (F := F) calls hne).mpr (Or.inl (by rw [hfirsts]; exact h))
  rw [hfirsts, List.min?_eq_some_iff] at hmin
  exact hmin

/-- Any call of a list can be the one that arrives last. -/
theorem latencyMin_last (calls : List Call) (hnodup : (calls.map Call.seq).Nodup) (c : Call)
    (hc : c ∈ calls) :
    ∃ calls', calls'.Perm calls ∧
      ((UdpStats.ofCalls calls' : UdpStats F).latencyMinNs = 0 ↔ c.Flat) := by
  have hperm : (calls.erase c ++ [c]).Perm calls :=
    (List.perm_append_singleton c _).trans (List.perm_cons_erase hc).symm
  refine ⟨_, hperm, ?_⟩
  rw [latencyMin_eq_zero_iff _ ((hperm.map Call.seq).nodup_iff.mpr hnodup)
    (List.concat_ne_nil _ _), List.getLast?_concat]
  simp only [Option.some.injEq, exists_eq_left']

/-- Without duplicates the order of arrival does not matter exactly when all
    latencies are zero or none is. -/
theorem latencyMin_perm_iff (calls : List Call) (hnodup : (calls.map Call.seq).Nodup)
    (hne : calls ≠ []) :
    (∀ calls', calls'.Perm calls → (UdpStats.ofCalls calls' : UdpStats F).latencyMinNs
      = (UdpStats.ofCalls calls : UdpStats F).latencyMinNs) ↔
    (∀ c ∈ calls, ¬ c.Flat) ∨ ∀ c ∈ calls, c.Flat := by
  constructor
  · -- A flat call and one that is not could each be the last.
    intro hsame
    by_contra hnot
    rw [not_or] at hnot
    rcases hnot with ⟨hflat, hsteep⟩
    simp only [not_forall, not_not] at hflat hsteep
    rcases hflat with ⟨c, hc, hflat⟩
    rcases hsteep with ⟨d, hd, hsteep⟩
    rcases latencyMin_last (F := F) calls hnodup c hc with ⟨calls₁, hperm₁, hzero₁⟩
    rcases latencyMin_last (F := F) calls hnodup d hd with ⟨calls₂, hperm₂, hzero₂⟩
    have heq := (hsame calls₁ hperm₁).trans (hsame calls₂ hperm₂).symm
    exact hsteep (hzero₂.mp (heq ▸ hzero₁.mpr hflat))
  · intro h calls' hperm
    have hnodup' : (calls'.map Call.seq).Nodup := (hperm.map Call.seq).nodup_iff.mpr hnodup
    have hne' : calls' ≠ [] := by
      intro hnil
      rw [hnil] at hperm
      exact hne hperm.symm.eq_nil
    rcases h with h | h
    · -- Both are the minimum of the same latencies.
      have hmin := latencyMin_of_steep (F := F) calls hnodup hne h
      have hmin' := latencyMin_of_steep (F := F) calls' hnodup' hne'
        (fun c hc => h c (hperm.mem_iff.mp hc))
      have hmem : ∀ x, x ∈ calls'.map Call.latency ↔ x ∈ calls.map Call.latency :=
        fun x => (hperm.map Call.latency).mem_iff
      exact Nat.le_antisymm (hmin'.2 _ ((hmem _).mpr hmin.1)) (hmin.2 _ ((hmem _).mp hmin'.1))
    · rw [latencyMin_of_flat calls hnodup hne h, latencyMin_of_flat calls' hnodup' hne'
        (fun c hc => h c (hperm.mem_iff.mp hc))]

/-- The average the client prints, when the sum fits. -/
theorem avgLatNs_ofCalls (calls : List Call) (hne : calls ≠ []) (durationActualNs : Nat)
    (hsum : ((firsts Call.seq calls).map Call.latency).sum ≤ u64Max) :
    Client.avgLatNs ((UdpStats.ofCalls calls : UdpStats F).intoReport durationActualNs)
      = ((firsts Call.seq calls).map Call.latency).sum
        / ((firsts Call.seq calls).map Call.latency).length := by
  have ht : Tallies calls (UdpStats.ofCalls calls : UdpStats F) := tallies_ofCalls calls
  have hpos : 0 < (firsts Call.seq calls).length :=
    List.length_pos_iff.mpr (firsts_ne_nil Call.seq calls hne)
  have hlatency := ht.latencySum
  simp only [u128Max, u64Max] at hlatency hsum
  rw [Client.avgLatNs, List.length_map]
  simp only [UdpStats.intoReport, ht.packets, if_pos hpos, hlatency, u64Max]
  congr 1
  omega

end

/-- When the reported minimum is the minimum over the new calls, and the
    printed average lies between minimum and maximum. Without duplicates, also
    when the report does not depend on the order of arrival. -/
theorem min_latency_iff (F : Type) [JitterFilter F] (calls : List Call) (hne : calls ≠ [])
    (durationActualNs : Nat) :
    let samples := (firsts Call.seq calls).map Call.latency
    let report := (UdpStats.ofCalls calls : UdpStats F).intoReport durationActualNs
    ((samples.min? = some report.latencyMinNs ∧
        (samples.sum ≤ u64Max →
          report.latencyMinNs ≤ Client.avgLatNs report ∧
            Client.avgLatNs report ≤ report.latencyMaxNs)) ↔ Unforgotten calls) ∧
    ((calls.map Call.seq).Nodup →
      ((∀ calls', calls'.Perm calls →
          (UdpStats.ofCalls calls' : UdpStats F).latencyMinNs = report.latencyMinNs) ↔
        (∀ c ∈ calls, ¬ c.Flat) ∨ ∀ c ∈ calls, c.Flat)) := by
  intro samples report
  have hiff : samples.min? = some report.latencyMinNs ↔ Unforgotten calls :=
    latencyMin_ofCalls_iff calls hne
  refine ⟨⟨fun h => hiff.mp h.1, fun h => ⟨hiff.mpr h, ?_⟩⟩, ?_⟩
  · intro hsum
    rw [avgLatNs_ofCalls calls hne durationActualNs hsum]
    refine average_bounds samples ?_ _ _ ?_ ?_
    · exact latencies_ne_nil _ (firsts_ne_nil Call.seq calls hne)
    · exact (List.min?_eq_some_iff.mp (hiff.mpr h)).2
    · intro x hx
      have hmax : report.latencyMaxNs = samples.foldl max 0 :=
        (tallies_ofCalls (F := F) calls).latencyMax
      rw [hmax]
      exact le_foldl_max samples x hx
  · intro hnodup
    exact latencyMin_perm_iff calls hnodup hne

/-- Two packets that take 30 and 50 nanoseconds, the second overtaking the
    first. -/
theorem min_latency_iff_overtaking :
    let calls : List Call := [⟨1, 200, 230, 1200⟩, ⟨0, 100, 150, 1200⟩]
    let report := (UdpStats.ofCalls calls : UdpStats Float).intoReport 0
    ((firsts Call.seq calls).map Call.latency).min? = some report.latencyMinNs ∧
      (report.latencyMinNs ≤ Client.avgLatNs report ∧
        Client.avgLatNs report ≤ report.latencyMaxNs) ∧
      ∀ calls', calls'.Perm calls →
        (UdpStats.ofCalls calls' : UdpStats Float).latencyMinNs = report.latencyMinNs := by
  intro calls report
  have h := min_latency_iff Float calls (by decide) 0
  have htrue := h.1.mpr (Or.inl (by decide))
  exact ⟨htrue.1, htrue.2 (by decide), (h.2 (by decide)).mpr (Or.inl (by decide))⟩

/-- Two packets, the first of them received before it was sent. The report
    forgets its latency, and the printed minimum exceeds the average. In the
    other order the minimum is zero. -/
theorem forgotten_zero :
    let calls : List Call := [⟨0, 700, 500, 1200⟩, ⟨1, 1000, 1005, 1200⟩]
    let report := (UdpStats.ofCalls calls : UdpStats Float).intoReport 0
    ((firsts Call.seq calls).map Call.latency).min? = some 0 ∧ report.latencyMinNs = 5 ∧
      Client.avgLatNs report = 2 ∧
      (UdpStats.ofCalls calls.reverse : UdpStats Float).latencyMinNs = 0 := by
  intro calls report
  refine ⟨by decide, ?_, ?_, ?_⟩
  · exact (measured_ofCalls (F := Float) calls).latencyMin
  · exact (avgLatNs_ofCalls (F := Float) calls (by decide) 0 (by decide)).trans (by decide)
  · exact (measured_ofCalls (F := Float) calls.reverse).latencyMin

end ProxyPen
