import ProxyPen.Core.Bandwidth
import ProxyPen.Core.Pacer

/-!
# Rates That Come Out as Unlimited

The pacer takes a rate of zero for no limit at all. `parse_bandwidth` casts a
float to an integer, and the cast answers zero for everything below one: for
negative numbers, for what is no number, and for a rate of less than one bit a
second. A text is turned into no limit without saying so unless it stands for
zero.

Two roundings lie between the text and the cast, so the least rate that counts
is not one bit a second divided by the unit but the midpoint below the first
double whose product with the unit is rounded to one.

## Main definitions

* `numeral`, `unit`: What the two parts of a text stand for.
* `Unlimited`: A rate that the pacer does not limit.
* `Suffices`: The magnitudes that come to one bit a second.
* `BreakPoint`: The first double that does, for a unit.
* `LimitKept`: A text becomes no limit only where it says so.

## Theorems

* `unlimited_iff`: Only zero is unlimited.
* `one_le_product_iff`: The product of a break point.
* `rateOf_pos_iff`: The texts that are cast to a positive rate.
* `limit_kept_iff`: The texts that are not turned into no limit.
-/

namespace ProxyPen

namespace Bandwidth

open Outcome Format

/-! ## Unlimited rates -/

/-- The pacer asks for every packet at once, whatever their size and the time. -/
def Unlimited (rate : UInt64) : Prop :=
  ∀ packetBytes elapsedNs, Pacer.targetPackets rate packetBytes elapsedNs = u64Max

theorem unlimited_iff (rate : UInt64) : Unlimited rate ↔ rate = 0 := by
  constructor
  · intro h
    by_contra hrate
    -- Nothing is due at the start.
    have hdue := h 1 0
    unfold Pacer.targetPackets at hdue
    rw [if_neg hrate, if_neg (by decide)] at hdue
    simp only [u128Mul, Nat.zero_mul, Nat.zero_mod, Nat.zero_div, Nat.zero_min] at hdue
    exact absurd hdue (by decide)
  · intro h packetBytes elapsedNs
    unfold Pacer.targetPackets
    rw [if_pos h]

/-! ## Break points -/

/-- The magnitudes that come to at least one bit a second with a unit. -/
def Suffices (mult : Nat) (x : ℚ) : Prop :=
  if mult = 1000 then 9223372036854775 / 2 ^ 63 ≤ x
  else if mult = 1000000 then 9444732965739289 / 2 ^ 73 < x
  else if mult = 1000000000 then 9671406556917033 / 2 ^ 83 < x
  else 1 - 1 / 2 ^ 54 ≤ x

theorem reaches_one_iff (x : ℚ) : Reaches (2 ^ 53) (-53) x ↔ 1 - 1 / 2 ^ 54 ≤ x := by
  have hmid : (((2 ^ 53 : ℤ) : ℚ) - 1 / 2) * 2 ^ (-53 : ℤ) = 1 - 1 / 2 ^ 54 := by norm_num
  have heven : Even (2 ^ 53 : ℤ) := by decide
  unfold Reaches
  rw [hmid, le_iff_lt_or_eq, and_iff_left heven, eq_comm]

/-- What is rounded to one or more. -/
theorem one_le_nearest_iff {x : ℚ} (hx : 0 ≤ x) :
    1 ≤ binary64.nearest x ↔ 1 - 1 / 2 ^ 54 ≤ x := by
  have hone : (((2 ^ 53 : ℤ) : ℚ)) * 2 ^ (-53 : ℤ) = 1 := by norm_num
  rw [← reaches_one_iff]
  constructor
  · intro h
    by_contra hreach
    have hle : binary64.nearest x ≤ (((2 ^ 53 : ℤ) : ℚ) - 1) * 2 ^ (-53 : ℤ) :=
      nearest_le hx (by decide) (by decide) (by decide) hreach
    have hlt : (((2 ^ 53 : ℤ) : ℚ) - 1) * 2 ^ (-53 : ℤ) < 1 := by norm_num
    linarith
  · intro h
    rw [← hone]
    exact le_nearest (by decide) (by decide) (by decide) h

/-- `n * 2 ^ e` is the first double whose product with the unit is rounded to
    one, and the unit is a double. -/
structure BreakPoint (mult : Nat) (n e : ℤ) : Prop where
  lo : 2 ^ 52 < n
  hi : n ≤ 2 ^ 53
  exp : -1074 ≤ e
  up : 1 - 1 / 2 ^ 54 ≤ (n : ℚ) * 2 ^ e * mult
  down : ((n : ℚ) - 1) * 2 ^ e * mult < 1 - 1 / 2 ^ 54
  pos : 1 ≤ mult
  double : binary64.nearest mult = mult
  small : mult < 2 ^ 53

section

variable {mult : Nat} {n e : ℤ}

/-- The product that is rounded last is large enough from the break point on. -/
theorem one_le_product_iff (h : BreakPoint mult n e) {x : ℚ} (hx : 0 ≤ x) :
    1 - 1 / 2 ^ 54 ≤ binary64.nearest x * mult ↔ Reaches n e x := by
  have hmult : (0 : ℚ) ≤ mult := by positivity
  constructor
  · intro hprod
    by_contra hreach
    have hle : binary64.nearest x ≤ (n - 1) * 2 ^ e := nearest_le hx h.lo h.hi h.exp hreach
    have hmul := mul_le_mul_of_nonneg_right hle hmult
    linarith [h.down]
  · intro hreach
    have hge : n * 2 ^ e ≤ binary64.nearest x := le_nearest h.lo h.hi h.exp hreach
    calc 1 - 1 / 2 ^ 54 ≤ (n : ℚ) * 2 ^ e * mult := h.up
      _ ≤ binary64.nearest x * mult := mul_le_mul_of_nonneg_right hge hmult

/-- The unit as the code multiplies with it. -/
theorem unit_value (h : BreakPoint mult n e) :
    ∃ m : binary64.Magnitude, binary64.ofNat mult = .finite false m ∧ m.val = mult ∧ 1 ≤ m.val := by
  have hrange : (mult : ℚ) < 2 ^ binary64.maxExp := by
    calc (mult : ℚ) < 2 ^ (53 : ℤ) := by exact_mod_cast h.small
      _ ≤ 2 ^ binary64.maxExp := zpow_le_zpow_right₀ (by norm_num) (by decide)
  obtain ⟨m, hm, hval⟩ := ofNat_eq h.double hrange
  refine ⟨m, hm, hval, ?_⟩
  rw [hval]
  exact_mod_cast h.pos

/-- The rate of a number without a sign is positive from the break point on. -/
theorem product_pos_iff (h : BreakPoint mult n e) {x : ℚ} (hx : 0 ≤ x) :
    0 < ((binary64.round false x hx).mul (binary64.ofNat mult)).toNatSat u64Max ↔
      Reaches n e x := by
  obtain ⟨m, hm, hval, hone⟩ := unit_value h
  have hnearest : 0 ≤ binary64.nearest x := (binary64.onGrid_nearest hx).nonneg
  have hprod : 0 ≤ binary64.nearest x * m.val := mul_nonneg hnearest m.nonneg
  rw [hm, ← one_le_product_iff h hx, ← hval]
  by_cases hlt : binary64.nearest x < 2 ^ binary64.maxExp
  · rw [Value.round_mul false hx hlt hprod,
      Value.toNatSat_round_pos_iff (by decide) (by decide), one_le_nearest_iff hprod]
  · -- An infinity stays one, and so large a product is past every break point.
    have hlarge : (1 : ℚ) ≤ binary64.nearest x :=
      (one_le_zpow₀ (by norm_num) (by decide)).trans (not_lt.mp hlt)
    have hpast : 1 * 1 ≤ binary64.nearest x * m.val := mul_le_mul hlarge hone (by norm_num) hnearest
    rw [Value.round_mul_overflow false hx hlt (by linarith)]
    exact ⟨fun _ => le_trans (by norm_num) hpast, fun _ => by decide⟩

/-- The cast of a negative product. -/
theorem product_neg (h : BreakPoint mult n e) {x : ℚ} (hx : 0 ≤ x) :
    ((binary64.round true x hx).mul (binary64.ofNat mult)).toNatSat u64Max = 0 := by
  obtain ⟨m, hm, _, hone⟩ := unit_value h
  have hprod : 0 ≤ binary64.nearest x * m.val :=
    mul_nonneg (binary64.onGrid_nearest hx).nonneg m.nonneg
  rw [hm]
  by_cases hlt : binary64.nearest x < 2 ^ binary64.maxExp
  · rw [Value.round_mul true hx hlt hprod]
    exact Value.toNatSat_round_neg u64Max hprod
  · rw [Value.round_mul_overflow true hx hlt (by linarith)]
    rfl

/-- The cast of an infinite product. -/
theorem product_inf (h : BreakPoint mult n e) (neg : Bool) :
    ((Value.inf neg).mul (binary64.ofNat mult)).toNatSat u64Max = if neg then 0 else u64Max := by
  obtain ⟨m, hm, _, hone⟩ := unit_value h
  rw [hm, Value.inf_mul neg (by linarith)]
  rfl

end

/-- A unit is a double: its significand, filled up, and its last place. -/
theorem nearest_unit {mult : Nat} {n e : ℤ} (hval : (n : ℚ) * 2 ^ e = mult) (hlo : 2 ^ 52 ≤ n)
    (hhi : n < 2 ^ 53) (he : -1074 ≤ e) : binary64.nearest mult = mult := by
  rw [← hval]
  exact nearest_of_normal hlo hhi he

theorem breakPoint_one : BreakPoint 1 (2 ^ 53) (-53) where
  lo := by omega
  hi := by omega
  exp := by omega
  up := by norm_num
  down := by norm_num
  pos := by omega
  double := nearest_unit (n := 2 ^ 52) (e := -52) (by norm_num) (by omega) (by omega) (by omega)
  small := by omega

theorem breakPoint_kilo : BreakPoint 1000 4611686018427388 (-62) where
  lo := by omega
  hi := by omega
  exp := by omega
  up := by norm_num
  down := by norm_num
  pos := by omega
  double := nearest_unit (n := 1000 * 2 ^ 43) (e := -43) (by norm_num) (by omega) (by omega)
    (by omega)
  small := by omega

theorem breakPoint_mega : BreakPoint 1000000 4722366482869645 (-72) where
  lo := by omega
  hi := by omega
  exp := by omega
  up := by norm_num
  down := by norm_num
  pos := by omega
  double := nearest_unit (n := 1000000 * 2 ^ 33) (e := -33) (by norm_num) (by omega) (by omega)
    (by omega)
  small := by omega

theorem breakPoint_giga : BreakPoint 1000000000 4835703278458517 (-82) where
  lo := by omega
  hi := by omega
  exp := by omega
  up := by norm_num
  down := by norm_num
  pos := by omega
  double := nearest_unit (n := 1000000000 * 2 ^ 23) (e := -23) (by norm_num) (by omega)
    (by omega) (by omega)
  small := by omega

/-- The multipliers of `splitUnit`. -/
def IsMultiplier (mult : Nat) : Prop :=
  mult = 1 ∨ mult = 1000 ∨ mult = 1000000 ∨ mult = 1000000000

theorem isMultiplier_splitUnit (cs : List Char) : IsMultiplier (splitUnit cs).2 := by
  unfold IsMultiplier splitUnit
  split <;> simp

/-- Every unit has its break point, which is where `Suffices` has it. -/
theorem exists_breakPoint {mult : Nat} (h : IsMultiplier mult) :
    ∃ n e : ℤ, BreakPoint mult n e ∧ ∀ x : ℚ, Reaches n e x ↔ Suffices mult x := by
  rcases h with rfl | rfl | rfl | rfl
  · refine ⟨_, _, breakPoint_one, fun x => ?_⟩
    rw [reaches_one_iff]
    unfold Suffices
    rw [if_neg (by omega), if_neg (by omega), if_neg (by omega)]
  · refine ⟨_, _, breakPoint_kilo, fun x => ?_⟩
    have hmid : (((4611686018427388 : ℤ) : ℚ) - 1 / 2) * 2 ^ (-62 : ℤ)
        = 9223372036854775 / 2 ^ 63 := by norm_num
    have heven : Even (4611686018427388 : ℤ) := by decide
    unfold Reaches Suffices
    rw [if_pos rfl, hmid, le_iff_lt_or_eq, and_iff_left heven, eq_comm]
  · refine ⟨_, _, breakPoint_mega, fun x => ?_⟩
    have hmid : (((4722366482869645 : ℤ) : ℚ) - 1 / 2) * 2 ^ (-72 : ℤ)
        = 9444732965739289 / 2 ^ 73 := by norm_num
    have hodd : ¬ Even (4722366482869645 : ℤ) := by decide
    unfold Reaches Suffices
    rw [if_neg (by omega), if_pos rfl, hmid]
    exact or_iff_left (fun h => hodd h.2)
  · refine ⟨_, _, breakPoint_giga, fun x => ?_⟩
    have hmid : (((4835703278458517 : ℤ) : ℚ) - 1 / 2) * 2 ^ (-82 : ℤ)
        = 9671406556917033 / 2 ^ 83 := by norm_num
    have hodd : ¬ Even (4835703278458517 : ℤ) := by decide
    unfold Reaches Suffices
    rw [if_neg (by omega), if_neg (by omega), if_pos rfl, hmid]
    exact or_iff_left (fun h => hodd h.2)

/-! ## Rates -/

/-- A decimal that denotes exactly zero, with either sign. -/
def Numeral.IsZero : Numeral → Prop
  | num _ digits exponent => magnitude digits exponent = 0
  | _ => False

/-- What is positive and comes to at least one bit a second with a unit. -/
def Numeral.Counts (mult : Nat) : Numeral → Prop
  | nan => False
  | inf neg => neg = false
  | num neg digits exponent => neg = false ∧ Suffices mult (magnitude digits exponent)

theorem ofNat_pos_iff {n : Nat} (h : n ≤ u64Max) : 0 < UInt64.ofNat n ↔ 0 < n := by
  rw [UInt64.lt_iff_toNat_lt, UInt64.toNat_ofNat_of_lt' (by unfold u64Max at h; unfold UInt64.size; omega)]
  rfl

theorem toNatSat_le (v : binary64.Value) : v.toNatSat u64Max ≤ u64Max := by
  unfold Value.toNatSat
  rcases v with _ | neg | ⟨neg, m⟩
  · exact Nat.zero_le _
  · dsimp only
    split_ifs <;> omega
  · dsimp only
    split_ifs
    · omega
    · exact Nat.min_le_right _ _

/-- The numerals that are cast to a positive rate. -/
theorem rateOf_pos_iff {mult : Nat} (hunit : IsMultiplier mult) (d : Numeral) :
    0 < rateOf d mult ↔ d.Counts mult := by
  obtain ⟨n, e, hbreak, hreach⟩ := exists_breakPoint hunit
  unfold rateOf
  rw [ofNat_pos_iff (toNatSat_le _)]
  rcases d with _ | neg | ⟨neg, digits, exponent⟩
  · exact ⟨fun h => absurd h (Nat.lt_irrefl 0), False.elim⟩
  · change 0 < ((Value.inf neg).mul (binary64.ofNat mult)).toNatSat u64Max ↔ neg = false
    rw [product_inf hbreak]
    cases neg <;> decide
  · change 0 < ((binary64.round neg _ (magnitude_nonneg digits exponent)).mul
      (binary64.ofNat mult)).toNatSat u64Max ↔
        neg = false ∧ Suffices mult (magnitude digits exponent)
    cases neg with
    | false => rw [product_pos_iff hbreak, hreach, and_iff_right rfl]
    | true =>
      rw [product_neg hbreak]
      simp only [Nat.lt_irrefl, reduceCtorEq, false_and]

/-! ## Texts -/

/-- What the numeric part of a text stands for, where it is one. -/
def numeral (s : String) : Option Numeral := readF64 (splitUnit (trim s.toList)).1

/-- The unit of a text. -/
def unit (s : String) : Nat := (splitUnit (trim s.toList)).2

theorem isMultiplier_unit (s : String) : IsMultiplier (unit s) := isMultiplier_splitUnit _

theorem parseBandwidth_of_some {s : String} {d : Numeral} (h : numeral s = some d) :
    parseBandwidth s = ok (rateOf d (unit s)) := by
  have hne : trim s.toList ≠ [] := by
    intro hnil
    unfold numeral at h
    rw [hnil] at h
    exact absurd h (by decide +revert)
  unfold numeral at h
  unfold parseBandwidth unit
  dsimp only
  rw [if_neg hne, h]

theorem parseBandwidth_of_none {s : String} (h : numeral s = none) :
    ∃ e, parseBandwidth s = err e := by
  unfold numeral at h
  unfold parseBandwidth
  by_cases hnil : trim s.toList = []
  · exact ⟨_, if_pos hnil⟩
  · dsimp only
    rw [if_neg hnil, h]
    exact ⟨_, rfl⟩

/-- A text becomes no limit only where it says zero, and every other text is
    rejected or becomes a rate that the pacer keeps to. -/
structure LimitKept (s : String) : Prop where
  zero : parseBandwidth s = ok 0 → ∃ d, numeral s = some d ∧ d.IsZero
  limited : ∀ d, numeral s = some d → ¬ d.IsZero →
    (∃ e, parseBandwidth s = err e) ∨
      ∃ rate, parseBandwidth s = ok rate ∧ 0 < rate ∧ ¬ Unlimited rate

theorem not_counts {s : String} {d : Numeral} (hd : numeral s = some d)
    (hcounts : ¬ d.Counts (unit s)) : parseBandwidth s = ok 0 := by
  have hzero : ¬ 0 < rateOf d (unit s) := by
    rw [rateOf_pos_iff (isMultiplier_unit s)]
    exact hcounts
  rw [parseBandwidth_of_some hd, UInt64.le_zero_iff.mp (UInt64.not_lt.mp hzero)]

theorem not_limitKept {s : String} {d : Numeral} (hd : numeral s = some d) (hzero : ¬ d.IsZero)
    (hcounts : ¬ d.Counts (unit s)) : ¬ LimitKept s := by
  intro h
  obtain ⟨d', hd', hzero'⟩ := h.zero (not_counts hd hcounts)
  rw [hd, Option.some.injEq] at hd'
  exact hzero (hd' ▸ hzero')

/-- What becomes no limit is a numeral that does not count. -/
theorem exists_not_counts {s : String} (h : parseBandwidth s = ok 0) :
    ∃ d, numeral s = some d ∧ ¬ d.Counts (unit s) := by
  rcases hd : numeral s with _ | d
  · obtain ⟨e, he⟩ := parseBandwidth_of_none hd
    rw [he] at h
    exact absurd h (err_ne_ok e 0)
  · refine ⟨d, rfl, ?_⟩
    rw [parseBandwidth_of_some hd, ok.injEq] at h
    rw [← rateOf_pos_iff (isMultiplier_unit s), h]
    exact UInt64.lt_irrefl 0

/-- A text is not turned into no limit exactly where it is rejected, says zero,
    or stands for a rate that comes to one bit a second. -/
theorem limit_kept_iff (s : String) :
    LimitKept s ↔ ∀ d, numeral s = some d → d.IsZero ∨ d.Counts (unit s) := by
  constructor
  · intro h d hd
    by_contra hneither
    obtain ⟨hzero, hcounts⟩ := not_or.mp hneither
    exact not_limitKept hd hzero hcounts h
  · intro h
    refine ⟨fun hparse => ?_, fun d hd hzero => Or.inr ?_⟩
    · obtain ⟨d, hd, hcounts⟩ := exists_not_counts hparse
      exact ⟨d, hd, (h d hd).resolve_right hcounts⟩
    · have hpos : 0 < rateOf d (unit s) :=
        (rateOf_pos_iff (isMultiplier_unit s) d).mpr ((h d hd).resolve_left hzero)
      refine ⟨_, parseBandwidth_of_some hd, hpos, fun hunlimited => ?_⟩
      rw [(unlimited_iff _).mp hunlimited] at hpos
      exact UInt64.lt_irrefl 0 hpos

/-- Half a bit a second, a negative rate and no number all become no limit. -/
theorem half_bit_unlimited : ¬ LimitKept "0.5" ∧ ¬ LimitKept "-5M" ∧ ¬ LimitKept "nan" := by
  have hhalf : numeral "0.5" = some (.num false 5 (-1)) := by decide +kernel
  have hminus : numeral "-5M" = some (.num true 5 0) := by decide +kernel
  have hnan : numeral "nan" = some .nan := by decide +kernel
  have hunit : unit "0.5" = 1 := by decide +kernel
  refine ⟨not_limitKept hhalf ?_ ?_, not_limitKept hminus ?_ ?_, not_limitKept hnan ?_ ?_⟩
  · norm_num [Numeral.IsZero, magnitude]
  · norm_num [hunit, Numeral.Counts, Suffices, magnitude]
  · norm_num [Numeral.IsZero, magnitude]
  · norm_num [Numeral.Counts]
  · exact id
  · exact id

end Bandwidth

end ProxyPen
