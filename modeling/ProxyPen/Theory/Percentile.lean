import ProxyPen.Core.Press
import ProxyPen.Lib.Ranks
import ProxyPen.Theory.Press
import Mathlib.Algebra.Order.Floor.Semifield
import Mathlib.Data.Rat.Floor

/-!
# Latency Statistics

What the figures of a press run say about the samples, over exact arithmetic.
The index of a percentile is cut off below, so `p` percent of the gaps between
the sorted samples lie in front of it, and one sample more does not exceed its
value. Ties move samples between the two counts and change neither bound.

## Main definitions

* `AtRank`: The counts around a percentile.
* `Summarises`: The figures are ordered members of the sample.

## Theorems

* `percentileIndex_eq`: The index of a percentile is a truncation.
* `atRank_percentile`: A percentile stands at its rank.
* `latency_stats_bracket`: The figures of every sample, in any order.
-/

namespace ProxyPen

namespace Press

open Ranks

/-- The index is the truncated fraction of the last one, and it is in range,
    so the clamp of the source never acts. -/
theorem percentileIndex_eq {p n : Nat} (hp : p ≤ 100) :
    percentileIndex ℚ p n = p * (n - 1) / 100 := by
  have hle : p * (n - 1) / 100 ≤ n - 1 := by
    calc p * (n - 1) / 100 ≤ 100 * (n - 1) / 100 :=
          Nat.div_le_div_right (Nat.mul_le_mul_right _ hp)
      _ = n - 1 := Nat.mul_div_cancel_left _ (by omega)
  exact Nat.min_eq_left hle

theorem percentileIndex_lt {p n : Nat} (hn : 0 < n) : percentileIndex ℚ p n < n := by
  have h : percentileIndex ℚ p n ≤ n - 1 := Nat.min_le_right _ _
  omega

theorem percentileIndex_eq_floor {p n : Nat} (hp : p ≤ 100) :
    percentileIndex ℚ p n = ⌊(p : ℚ) / 100 * ((n - 1 : Nat) : ℚ)⌋₊ := by
  rw [percentileIndex_eq hp, div_mul_eq_mul_div, ← Nat.cast_mul, Nat.floor_div_ofNat,
    Nat.floor_natCast]

theorem percentileIndex_mono {p q n : Nat} (h : p ≤ q) :
    percentileIndex ℚ p n ≤ percentileIndex ℚ q n := by
  have hrank : p * (n - 1) / 100 ≤ q * (n - 1) / 100 :=
    Nat.div_le_div_right (Nat.mul_le_mul_right _ h)
  exact min_le_min_right _ hrank

/-- Around the value `v` of percentile `p`: a hundred times the samples below
    it stay within `p` gaps, and a hundred times those up to it exceed them. -/
structure AtRank (samples : List ℚ) (p : Nat) (v : ℚ) : Prop where
  below : samples.countP (fun x => x < v) * 100 ≤ p * (samples.length - 1)
  upTo : p * (samples.length - 1) < samples.countP (fun x => x ≤ v) * 100

theorem AtRank.perm {xs ys : List ℚ} {p : Nat} {v : ℚ} (h : AtRank xs p v) (hperm : xs.Perm ys) :
    AtRank ys p v := by
  rcases h with ⟨hbelow, hupTo⟩
  rw [hperm.countP_eq, hperm.length_eq] at hbelow hupTo
  exact ⟨hbelow, hupTo⟩

theorem atRank_percentile {xs : List ℚ} (hs : xs.Pairwise (· ≤ ·)) (hne : xs ≠ []) {p : Nat}
    (hp : p ≤ 100) : AtRank xs p (percentile xs p) := by
  have hlt := percentileIndex_lt (p := p) (List.length_pos_iff.mpr hne)
  have hbelow := countP_lt_getD_le hs Millis.zero (percentileIndex ℚ p xs.length)
  have hupTo := lt_countP_le_getD hs Millis.zero hlt
  rw [← percentile] at hbelow hupTo
  rw [percentileIndex_eq hp] at hbelow hupTo
  -- The truncated index lies within one of the exact fraction.
  have hfrac := Nat.div_add_mod (p * (xs.length - 1)) 100
  have hmod := Nat.mod_lt (p * (xs.length - 1)) (show 0 < 100 by omega)
  constructor <;> omega

theorem percentile_mem {xs : List ℚ} (hne : xs ≠ []) (p : Nat) : percentile xs p ∈ xs := by
  have hlt := percentileIndex_lt (p := p) (List.length_pos_iff.mpr hne)
  rw [percentile, List.getD_eq_getElem _ _ hlt]
  exact List.getElem_mem hlt

theorem percentile_mono {xs : List ℚ} (hs : xs.Pairwise (· ≤ ·)) (hne : xs ≠ []) {p q : Nat}
    (h : p ≤ q) : percentile xs p ≤ percentile xs q :=
  getD_mono hs Millis.zero (percentileIndex_mono h)
    (percentileIndex_lt (List.length_pos_iff.mpr hne))

/-- The figures are members of the sample in their order, the mean lies between
    the extremes, and each percentile stands at its rank. -/
structure Summarises (samples : List ℚ) (stats : LatencyStats ℚ) : Prop where
  members : ∀ v ∈ [stats.minMs, stats.p50Ms, stats.p90Ms, stats.p95Ms, stats.p99Ms, stats.maxMs],
    v ∈ samples
  order : [stats.minMs, stats.p50Ms, stats.p90Ms, stats.p95Ms, stats.p99Ms, stats.maxMs].IsChain
    (· ≤ ·)
  average : stats.minMs ≤ stats.avgMs ∧ stats.avgMs ≤ stats.maxMs
  p50 : AtRank samples 50 stats.p50Ms
  p90 : AtRank samples 90 stats.p90Ms
  p95 : AtRank samples 95 stats.p95Ms
  p99 : AtRank samples 99 stats.p99Ms

theorem Summarises.perm {xs ys : List ℚ} {stats : LatencyStats ℚ} (h : Summarises xs stats)
    (hperm : xs.Perm ys) : Summarises ys stats where
  members v hv := hperm.mem_iff.mp (h.members v hv)
  order := h.order
  average := h.average
  p50 := h.p50.perm hperm
  p90 := h.p90.perm hperm
  p95 := h.p95.perm hperm
  p99 := h.p99.perm hperm

/-- The mean of a sorted sample lies between its first and its last member. -/
theorem average_between {xs : List ℚ} (hs : xs.Pairwise (· ≤ ·)) (hne : xs ≠ []) :
    xs.getD 0 Millis.zero ≤ Millis.divCount (Millis.sum xs) xs.length ∧
      Millis.divCount (Millis.sum xs) xs.length ≤ xs.getD (xs.length - 1) Millis.zero := by
  have hpos := List.length_pos_iff.mpr hne
  have hcount : (0 : ℚ) < xs.length := by exact_mod_cast hpos
  have hlo : ∀ x ∈ xs, xs.getD 0 (Millis.zero : ℚ) ≤ x := by
    intro x hx
    exact getD_le_of_mem_drop hs _ (by rwa [List.drop_zero])
  have hhi : ∀ x ∈ xs, x ≤ xs.getD (xs.length - 1) (Millis.zero : ℚ) := by
    intro x hx
    apply le_getD_of_mem_take hs _ (by omega)
    rwa [Nat.sub_add_cancel hpos, List.take_length]
  have hsum := foldl_add_between xs hlo hhi 0
  rw [zero_add, zero_add] at hsum
  show _ ≤ xs.foldl (fun x y => x + y) 0 / (xs.length : ℚ) ∧
    xs.foldl (fun x y => x + y) 0 / (xs.length : ℚ) ≤ _
  constructor
  · rw [le_div_iff₀ hcount, mul_comm]
    exact hsum.1
  · rw [div_le_iff₀ hcount, mul_comm]
    exact hsum.2

theorem fromSortedMs_summarises {xs : List ℚ} (hs : xs.Pairwise (· ≤ ·)) (hne : xs ≠ []) :
    Summarises xs (LatencyStats.fromSortedMs xs) := by
  have hpos := List.length_pos_iff.mpr hne
  have hmem : ∀ i, i < xs.length → xs.getD i Millis.zero ∈ xs := by
    intro i hi
    rw [List.getD_eq_getElem _ _ hi]
    exact List.getElem_mem hi
  rw [LatencyStats.fromSortedMs, if_neg (by rw [List.isEmpty_iff]; exact hne)]
  constructor
  case members =>
    simp only [List.forall_mem_cons]
    exact ⟨hmem 0 hpos, percentile_mem hne 50, percentile_mem hne 90, percentile_mem hne 95,
      percentile_mem hne 99, hmem _ (by omega), fun v hv => absurd hv List.not_mem_nil⟩
  case order =>
    simp only [List.isChain_cons_cons, List.isChain_singleton, and_true]
    refine ⟨?_, percentile_mono hs hne (by omega), percentile_mono hs hne (by omega),
      percentile_mono hs hne (by omega), ?_⟩
    · exact getD_mono hs _ (Nat.zero_le _) (percentileIndex_lt hpos)
    · exact getD_mono hs _ (Nat.min_le_right _ _) (by omega)
  case average => exact average_between hs hne
  all_goals exact atRank_percentile hs hne (by omega)

/-- For every sample in any order: the indices are truncations in range, the
    figures are ordered members of it with the mean between the extremes, each
    percentile stands at its rank, and another order gives the same figures. -/
theorem latency_stats_bracket (samples : List ℚ) (hne : samples ≠ []) :
    (0 < samples.length ∧ samples.length - 1 < samples.length ∧
      ∀ p ∈ [50, 90, 95, 99],
        percentileIndex ℚ p samples.length
            = ⌊(p : ℚ) / 100 * ((samples.length - 1 : Nat) : ℚ)⌋₊ ∧
          percentileIndex ℚ p samples.length < samples.length) ∧
    Summarises samples (LatencyStats.fromSortedMs (sortMs samples)) ∧
    ∀ other, samples.Perm other →
      LatencyStats.fromSortedMs (sortMs other) = LatencyStats.fromSortedMs (sortMs samples) := by
  have hpos := List.length_pos_iff.mpr hne
  have hperm : (sortMs samples).Perm samples := List.mergeSort_perm samples _
  have hsorted : (sortMs samples).Pairwise (· ≤ ·) := List.pairwise_mergeSort' (· ≤ ·) samples
  have hne' : sortMs samples ≠ [] := by
    intro h
    rw [h] at hperm
    exact hne hperm.nil_eq.symm
  refine ⟨⟨hpos, by omega, ?_⟩, ?_, ?_⟩
  · intro p hp
    have hle : p ≤ 100 := by
      revert p
      decide
    exact ⟨percentileIndex_eq_floor hle, percentileIndex_lt hpos⟩
  · exact (fromSortedMs_summarises hsorted hne').perm hperm
  · intro other hother
    rw [sortMs_eq_of_perm hother]

/-- Two samples: every percentile below the last is the smaller one. -/
theorem latency_stats_bracket_two :
    ([20, 10] : List ℚ) ≠ [] ∧
      Summarises [20, 10] (LatencyStats.fromSortedMs (sortMs [20, 10])) :=
  ⟨by decide, (latency_stats_bracket [20, 10] (by decide)).2.1⟩

end Press

end ProxyPen
