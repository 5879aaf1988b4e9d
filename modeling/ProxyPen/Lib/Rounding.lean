import Mathlib.Data.Int.Log
import Mathlib.Data.Rat.Floor
import Mathlib.Tactic.FieldSimp
import Mathlib.Tactic.Linarith
import Mathlib.Tactic.Ring

/-!
# Binary Floating Point

Numbers of a binary floating-point format, over exact rationals. An operation
computes the exact result and then rounds it to the nearest number of the
format, ties to even. A magnitude carries the proof that it is a number of the
format, so a value that is off the grid cannot be built.

Rounding is reasoned about through its break points. Two neighbours on the
grid have one midpoint between them, and `Reaches` says on which side of it a
number lies. What is rounded up to the upper neighbour and what is rounded
down to the lower one is then decided by a comparison of rationals.

## Main definitions

* `roundEven`: The nearest integer, ties to even.
* `Format`: The parameters of a format.
* `Format.nearest`: The nearest number of a format, its range apart.
* `Format.Value`: The values of a format, with infinities and no number.
* `Format.round`, `Format.Value.mul`: Rounding and multiplication.
* `Format.Value.toNatSat`: The saturating cast to an unsigned integer.
* `Reaches`: Past the midpoint below a number of the grid.

## Theorems

* `roundEven_le`, `le_roundEven`: The integers around a rounded one.
* `Format.onGrid_nearest`: Rounding ends on the grid.
* `Format.le_nearest`, `Format.nearest_le`: The two sides of a break point.
* `Format.nearest_of_normal`: A normal number is its own nearest.
-/

namespace ProxyPen

/-! ## Integers -/

/-- The nearest integer, and the even one of two that are equally near. -/
def roundEven (q : ℚ) : ℤ :=
  let n := ⌊q⌋
  if q < n + 1 / 2 then n
  else if n + 1 / 2 < q then n + 1
  else if Even n then n
  else n + 1

theorem floor_le_roundEven (q : ℚ) : ⌊q⌋ ≤ roundEven q := by
  unfold roundEven
  dsimp only
  split_ifs <;> omega

theorem roundEven_le_succ (q : ℚ) : roundEven q ≤ ⌊q⌋ + 1 := by
  unfold roundEven
  dsimp only
  split_ifs <;> omega

/-- Below the midpoint above an integer, or on it where the integer is even,
    rounding does not go past that integer. -/
theorem roundEven_le {q : ℚ} {n : ℤ} (h : q < n + 1 / 2 ∨ q = n + 1 / 2 ∧ Even n) :
    roundEven q ≤ n := by
  have hlt : q < n + 1 := by
    rcases h with h | ⟨h, _⟩ <;> linarith
  by_cases hfloor : ⌊q⌋ = n
  · unfold roundEven
    dsimp only
    rw [hfloor]
    rcases h with h | ⟨h, heven⟩
    · rw [if_pos h]
    · rw [if_neg (not_lt.mpr h.ge), if_neg (not_lt.mpr h.le), if_pos heven]
  · have hbelow : ⌊q⌋ < n + 1 := Int.floor_lt.mpr (by push_cast; exact hlt)
    have := roundEven_le_succ q
    omega

/-- Past the midpoint below an integer, or on it where the integer is even,
    rounding gets at least to that integer. -/
theorem le_roundEven {q : ℚ} {n : ℤ} (h : n - 1 / 2 < q ∨ q = n - 1 / 2 ∧ Even n) :
    n ≤ roundEven q := by
  have hlt : (n : ℚ) - 1 < q := by
    rcases h with h | ⟨h, _⟩ <;> linarith
  by_cases hfloor : n ≤ ⌊q⌋
  · exact hfloor.trans (floor_le_roundEven q)
  · -- The floor is the integer before, so the fraction is at least one half.
    have hge : n - 1 ≤ ⌊q⌋ := Int.le_floor.mpr (by push_cast; exact hlt.le)
    have heq : ⌊q⌋ = n - 1 := by omega
    have hcast : ((⌊q⌋ : ℤ) : ℚ) = n - 1 := by rw [heq]; push_cast; rfl
    unfold roundEven
    dsimp only
    rw [hcast]
    rcases h with h | ⟨h, heven⟩
    · rw [if_neg (by linarith), if_pos (by linarith)]
      omega
    · have hodd : ¬ Even ⌊q⌋ := by
        rw [heq, Int.even_sub_one, not_not]
        exact heven
      rw [if_neg (by linarith), if_neg (by linarith), if_neg hodd]
      omega

theorem roundEven_intCast (n : ℤ) : roundEven n = n := by
  have hle : roundEven n ≤ n := roundEven_le (Or.inl (by linarith))
  have hge : n ≤ roundEven n := le_roundEven (Or.inl (by linarith))
  omega

/-! ## Formats -/

/-- The parameters of a format: the bits of the fraction, the exponent of the
    least number above zero, and the exponent at which the range ends. -/
structure Format where
  fraction : ℕ
  minExp : ℤ
  maxExp : ℤ

/-- IEEE 754 double precision. -/
def binary64 : Format where
  fraction := 52
  minExp := -1074
  maxExp := 1024

namespace Format

variable (F : Format)

/-- The exponent of the last place of a number of the size of `x`. -/
def lastPlace (x : ℚ) : ℤ := max (Int.log 2 x - F.fraction) F.minExp

/-- The nearest number of the format, if its exponents had no upper end. -/
def nearest (x : ℚ) : ℚ := roundEven (x / 2 ^ F.lastPlace x) * 2 ^ F.lastPlace x

/-- A significand that fits, at an exponent the format has. -/
def OnGrid (x : ℚ) : Prop :=
  ∃ n e : ℤ, 0 ≤ n ∧ n ≤ 2 ^ (F.fraction + 1) ∧ F.minExp ≤ e ∧ x = n * 2 ^ e

theorem two_zpow_pos (e : ℤ) : (0 : ℚ) < 2 ^ e := zpow_pos (by norm_num) e

theorem two_pow_mul_zpow (k : ℕ) (e : ℤ) : (2 : ℚ) ^ k * 2 ^ e = 2 ^ (k + e) := by
  rw [zpow_add₀ (by norm_num), zpow_natCast]

theorem lt_zpow_lastPlace (x : ℚ) : x < 2 ^ (F.fraction + 1) * 2 ^ F.lastPlace x := by
  have hlog : x < (2 : ℚ) ^ (Int.log 2 x + 1) := by
    exact_mod_cast Int.lt_zpow_succ_log_self (b := 2) (by norm_num) x
  have hexp : Int.log 2 x + 1 ≤ ((F.fraction + 1 : ℕ) : ℤ) + F.lastPlace x := by
    have := le_max_left (Int.log 2 x - F.fraction) F.minExp
    unfold lastPlace
    push_cast
    omega
  calc x < (2 : ℚ) ^ (Int.log 2 x + 1) := hlog
    _ ≤ 2 ^ (((F.fraction + 1 : ℕ) : ℤ) + F.lastPlace x) := zpow_le_zpow_right₀ (by norm_num) hexp
    _ = 2 ^ (F.fraction + 1) * 2 ^ F.lastPlace x := (two_pow_mul_zpow _ _).symm

/-- The significand of a rounded number fits. -/
theorem roundEven_le_pow (x : ℚ) :
    roundEven (x / 2 ^ F.lastPlace x) ≤ 2 ^ (F.fraction + 1) := by
  apply roundEven_le
  have h := F.lt_zpow_lastPlace x
  rw [← div_lt_iff₀ (two_zpow_pos _)] at h
  left
  push_cast
  linarith

/-- Rounding ends on the grid. -/
theorem onGrid_nearest {x : ℚ} (hx : 0 ≤ x) : F.OnGrid (F.nearest x) := by
  refine ⟨roundEven (x / 2 ^ F.lastPlace x), F.lastPlace x, ?_, F.roundEven_le_pow x,
    le_max_right _ _, rfl⟩
  have hfloor : 0 ≤ ⌊x / 2 ^ F.lastPlace x⌋ := 
    Int.floor_nonneg.mpr (div_nonneg hx (two_zpow_pos _).le)
  exact hfloor.trans (floor_le_roundEven _)

theorem OnGrid.nonneg {F : Format} {x : ℚ} (h : F.OnGrid x) : 0 ≤ x := by
  obtain ⟨n, e, hn, _, _, rfl⟩ := h
  exact mul_nonneg (by exact_mod_cast hn) (two_zpow_pos e).le

theorem nearest_zero : F.nearest 0 = 0 := by
  unfold nearest
  have h : roundEven ((0 : ℤ) : ℚ) = 0 := roundEven_intCast 0
  rw [zero_div, ← Int.cast_zero, h, Int.cast_zero, zero_mul]

/-! ## Break points -/

/-- `x` lies past the midpoint below `n * 2 ^ e`, or on it where ties go up. -/
def Reaches (n e : ℤ) (x : ℚ) : Prop :=
  (n - 1 / 2) * 2 ^ e < x ∨ x = (n - 1 / 2) * 2 ^ e ∧ Even n

theorem Reaches.le {n e : ℤ} {x : ℚ} (h : Reaches n e x) : (n - 1 / 2) * 2 ^ e ≤ x := by
  rcases h with h | ⟨h, _⟩
  · exact h.le
  · exact h.ge

theorem le_of_not_reaches {n e : ℤ} {x : ℚ} (h : ¬ Reaches n e x) :
    x ≤ (n - 1 / 2) * 2 ^ e := by
  by_contra hlt
  exact h (Or.inl (not_le.mp hlt))

theorem Reaches.div {n e : ℤ} {x : ℚ} (h : Reaches n e x) :
    n - 1 / 2 < x / 2 ^ e ∨ x / 2 ^ e = n - 1 / 2 ∧ Even n := by
  rcases h with h | ⟨h, heven⟩
  · exact Or.inl ((lt_div_iff₀ (two_zpow_pos e)).mpr h)
  · exact Or.inr ⟨(div_eq_iff (two_zpow_pos e).ne').mpr h, heven⟩

theorem div_of_not_reaches {n e : ℤ} {x : ℚ} (h : ¬ Reaches n e x) :
    x / 2 ^ e < ((n - 1 : ℤ) : ℚ) + 1 / 2 ∨
      x / 2 ^ e = ((n - 1 : ℤ) : ℚ) + 1 / 2 ∧ Even (n - 1) := by
  have hmid : ((n - 1 : ℤ) : ℚ) + 1 / 2 = n - 1 / 2 := by push_cast; ring
  rw [hmid, div_lt_iff₀ (two_zpow_pos e), div_eq_iff (two_zpow_pos e).ne', Int.even_sub_one]
  by_cases hx : x = (n - 1 / 2) * 2 ^ e
  · exact Or.inr ⟨hx, fun heven => h (Or.inr ⟨hx, heven⟩)⟩
  · exact Or.inl (lt_of_le_of_ne (le_of_not_reaches h) hx)

/-- The exponents of the last place and of the number itself, in the normal range. -/
theorem pow_le_nearest {x : ℚ} (hx : 0 < x) {k : ℤ} (hk : k ≤ Int.log 2 x)
    (hplace : F.lastPlace x = Int.log 2 x - F.fraction) : 2 ^ k ≤ F.nearest x := by
  have hlog : (2 : ℚ) ^ Int.log 2 x ≤ x := by
    exact_mod_cast Int.zpow_log_le_self (b := 2) (by norm_num) hx
  have hsplit : (2 : ℚ) ^ Int.log 2 x = 2 ^ F.fraction * 2 ^ F.lastPlace x := by
    rw [two_pow_mul_zpow, hplace]
    congr 1
    ring
  have hround : 2 ^ F.fraction ≤ roundEven (x / 2 ^ F.lastPlace x) := by
    apply le_roundEven
    have h := (le_div_iff₀ (two_zpow_pos (F.lastPlace x))).mpr (hsplit ▸ hlog)
    left
    push_cast
    linarith
  calc (2 : ℚ) ^ k ≤ 2 ^ Int.log 2 x := zpow_le_zpow_right₀ (by norm_num) hk
    _ = 2 ^ F.fraction * 2 ^ F.lastPlace x := hsplit
    _ ≤ F.nearest x :=
      mul_le_mul_of_nonneg_right (by exact_mod_cast hround) (two_zpow_pos _).le

variable {F}

/-- From the break point below a number on, rounding gets at least there. -/
theorem le_nearest {n e : ℤ} {x : ℚ} (hlo : 2 ^ F.fraction < n) (hhi : n ≤ 2 ^ (F.fraction + 1))
    (he : F.minExp ≤ e) (h : Reaches n e x) : n * 2 ^ e ≤ F.nearest x := by
  have hpow : (2 : ℚ) ^ (F.fraction + e) ≤ x := by
    have hn : ((2 ^ F.fraction : ℤ) : ℚ) + 1 ≤ n := by exact_mod_cast hlo
    calc (2 : ℚ) ^ (F.fraction + e) = 2 ^ F.fraction * 2 ^ e := (two_pow_mul_zpow _ _).symm
      _ ≤ (n - 1 / 2) * 2 ^ e := by
          apply mul_le_mul_of_nonneg_right _ (two_zpow_pos e).le
          push_cast at hn
          linarith
      _ ≤ x := h.le
  have hx : 0 < x := (two_zpow_pos _).trans_le hpow
  have hlog : F.fraction + e ≤ Int.log 2 x :=
    (Int.zpow_le_iff_le_log (by norm_num) hx).mp (by exact_mod_cast hpow)
  by_cases hplace : F.lastPlace x = e
  · have hround : n ≤ roundEven (x / 2 ^ e) := le_roundEven h.div
    unfold nearest
    rw [hplace]
    exact mul_le_mul_of_nonneg_right (by exact_mod_cast hround) (two_zpow_pos e).le
  · -- The number lies in a higher binade, and so does all it is rounded to.
    have hnormal : F.lastPlace x = Int.log 2 x - F.fraction := by
      unfold lastPlace at hplace ⊢
      omega
    have hk : F.fraction + 1 + e ≤ Int.log 2 x := by
      unfold lastPlace at hplace
      omega
    calc (n : ℚ) * 2 ^ e ≤ 2 ^ (F.fraction + 1) * 2 ^ e :=
          mul_le_mul_of_nonneg_right (by exact_mod_cast hhi) (two_zpow_pos e).le
      _ = 2 ^ (F.fraction + 1 + e : ℤ) := two_pow_mul_zpow _ _
      _ ≤ F.nearest x := F.pow_le_nearest hx hk hnormal

/-- Before the break point below a number, rounding ends at the number before it. -/
theorem nearest_le {n e : ℤ} {x : ℚ} (hx : 0 ≤ x) (hlo : 2 ^ F.fraction < n)
    (hhi : n ≤ 2 ^ (F.fraction + 1)) (he : F.minExp ≤ e) (h : ¬ Reaches n e x) :
    F.nearest x ≤ (n - 1) * 2 ^ e := by
  have hn : ((2 ^ F.fraction : ℤ) : ℚ) ≤ n - 1 := by
    have : (2 ^ F.fraction : ℤ) ≤ n - 1 := by omega
    exact_mod_cast this
  push_cast at hn
  rcases hx.eq_or_lt with hzero | hpos
  · rw [← hzero, nearest_zero]
    have : (0 : ℚ) < 2 ^ F.fraction := by positivity
    exact mul_nonneg (by linarith) (two_zpow_pos e).le
  have hpow : x < (2 : ℚ) ^ (F.fraction + 1 + e : ℤ) := by
    have hcast : (n : ℚ) ≤ 2 ^ (F.fraction + 1) := by exact_mod_cast hhi
    calc x ≤ (n - 1 / 2) * 2 ^ e := le_of_not_reaches h
      _ < 2 ^ (F.fraction + 1) * 2 ^ e := by
          apply mul_lt_mul_of_pos_right _ (two_zpow_pos e)
          linarith
      _ = 2 ^ (F.fraction + 1 + e : ℤ) := two_pow_mul_zpow _ _
  have hlog : Int.log 2 x < F.fraction + 1 + e :=
    (Int.lt_zpow_iff_log_lt (by norm_num) hpos).mp (by exact_mod_cast hpow)
  by_cases hplace : F.lastPlace x = e
  · have hround : roundEven (x / 2 ^ e) ≤ n - 1 := roundEven_le (div_of_not_reaches h)
    unfold nearest
    rw [hplace]
    exact mul_le_mul_of_nonneg_right (by exact_mod_cast hround) (two_zpow_pos e).le
  · -- The number lies in a lower binade, which ends below all of this one.
    have hlast : F.lastPlace x + 1 ≤ e := by
      unfold lastPlace at hplace ⊢
      omega
    have hround := F.roundEven_le_pow x
    calc F.nearest x ≤ 2 ^ (F.fraction + 1) * 2 ^ F.lastPlace x :=
          mul_le_mul_of_nonneg_right (by exact_mod_cast hround) (two_zpow_pos _).le
      _ = 2 ^ F.fraction * 2 ^ (F.lastPlace x + 1) := by
          rw [zpow_add₀ (by norm_num), pow_succ]
          ring
      _ ≤ 2 ^ F.fraction * 2 ^ e := by
          gcongr
          norm_num
      _ ≤ (n - 1) * 2 ^ e := mul_le_mul_of_nonneg_right hn (two_zpow_pos e).le

/-- A number of the format with a full significand is its own nearest. -/
theorem nearest_of_normal {n e : ℤ} (hlo : 2 ^ F.fraction ≤ n) (hhi : n < 2 ^ (F.fraction + 1))
    (he : F.minExp ≤ e) : F.nearest (n * 2 ^ e) = n * 2 ^ e := by
  have hn : ((2 ^ F.fraction : ℤ) : ℚ) ≤ n := by exact_mod_cast hlo
  have hn' : (n : ℚ) < ((2 ^ (F.fraction + 1) : ℤ) : ℚ) := by exact_mod_cast hhi
  push_cast at hn hn'
  have hpos : (0 : ℚ) < n * 2 ^ e :=
    mul_pos (lt_of_lt_of_le (by positivity) hn) (two_zpow_pos e)
  have hge : F.fraction + e ≤ Int.log 2 ((n : ℚ) * 2 ^ e) := by
    apply (Int.zpow_le_iff_le_log (by norm_num) hpos).mp
    push_cast
    rw [← two_pow_mul_zpow]
    exact mul_le_mul_of_nonneg_right hn (two_zpow_pos e).le
  have hlt : Int.log 2 ((n : ℚ) * 2 ^ e) < ((F.fraction + 1 : ℕ) : ℤ) + e := by
    apply (Int.lt_zpow_iff_log_lt (by norm_num) hpos).mp
    rw [Nat.cast_ofNat, ← two_pow_mul_zpow]
    exact mul_lt_mul_of_pos_right hn' (two_zpow_pos e)
  have hplace : F.lastPlace (n * 2 ^ e) = e := by
    unfold lastPlace
    push_cast at hlt
    omega
  unfold nearest
  rw [hplace, mul_div_cancel_right₀ _ (two_zpow_pos e).ne', roundEven_intCast]

/-! ## Values -/

variable (F)

/-- The magnitude of a finite number of the format. -/
structure Magnitude where
  val : ℚ
  onGrid : F.OnGrid val
  inRange : val < 2 ^ F.maxExp

theorem Magnitude.nonneg {F : Format} (m : F.Magnitude) : 0 ≤ m.val := m.onGrid.nonneg

/-- No number, an infinity, or a finite number. Both have a sign. -/
inductive Value where
  | nan
  | inf (neg : Bool)
  | finite (neg : Bool) (mag : F.Magnitude)

/-- The value nearest to a signed magnitude. What is rounded out of the range
    becomes an infinity. -/
def round (neg : Bool) (x : ℚ) (hx : 0 ≤ x) : F.Value :=
  if h : F.nearest x < 2 ^ F.maxExp then
    .finite neg { val := F.nearest x, onGrid := F.onGrid_nearest hx, inRange := h }
  else .inf neg

/-- `n as f64` -/
def ofNat (n : ℕ) : F.Value := F.round false n (by positivity)

variable {F}

namespace Value

def mul : F.Value → F.Value → F.Value
  | nan, _ => nan
  | _, nan => nan
  | inf s, inf t => inf (s ^^ t)
  -- An infinity has no product with zero.
  | inf s, finite t b => if b.val = 0 then nan else inf (s ^^ t)
  | finite s a, inf t => if a.val = 0 then nan else inf (s ^^ t)
  | finite s a, finite t b => F.round (s ^^ t) (a.val * b.val) (mul_nonneg a.nonneg b.nonneg)

/-- The cast to an unsigned integer: cut off below, saturating at both ends,
    and zero for what is no number. -/
def toNatSat (limit : ℕ) : F.Value → ℕ
  | nan => 0
  | inf neg => if neg then 0 else limit
  | finite neg m => if neg then 0 else min ⌊m.val⌋₊ limit

section

variable {m : F.Magnitude} (neg : Bool) {x : ℚ} (hx : 0 ≤ x)

theorem inf_mul (hm : 0 < m.val) : (inf neg).mul (finite false m) = inf neg := by
  change (if m.val = 0 then nan else inf (neg ^^ false)) = _
  rw [if_neg hm.ne', Bool.xor_false]

/-- A product with a rounded number rounds twice while that stays in range. -/
theorem round_mul (hlt : F.nearest x < 2 ^ F.maxExp) (hprod : 0 ≤ F.nearest x * m.val) :
    (F.round neg x hx).mul (finite false m) = F.round neg (F.nearest x * m.val) hprod := by
  have hxor : F.round (neg ^^ false) (F.nearest x * m.val) hprod
      = F.round neg (F.nearest x * m.val) hprod := by rw [Bool.xor_false]
  rw [show F.round neg x hx = _ from dif_pos hlt, ← hxor]
  rfl

theorem round_mul_overflow (hlt : ¬ F.nearest x < 2 ^ F.maxExp) (hm : 0 < m.val) :
    (F.round neg x hx).mul (finite false m) = inf neg := by
  rw [show F.round neg x hx = _ from dif_neg hlt]
  exact inf_mul neg hm

end

/-- A negative result is cast to zero. -/
theorem toNatSat_round_neg (limit : ℕ) {x : ℚ} (hx : 0 ≤ x) :
    (F.round true x hx).toNatSat limit = 0 := by
  unfold round
  by_cases h : F.nearest x < 2 ^ F.maxExp
  · rw [dif_pos h]
    rfl
  · rw [dif_neg h]
    rfl

/-- What is rounded to at least one is not cast to zero, in range or not. -/
theorem toNatSat_round_pos_iff (hrange : 0 ≤ F.maxExp) {limit : ℕ} (hlimit : 0 < limit) {x : ℚ}
    (hx : 0 ≤ x) : 0 < (F.round false x hx).toNatSat limit ↔ 1 ≤ F.nearest x := by
  unfold round
  by_cases h : F.nearest x < 2 ^ F.maxExp
  · rw [dif_pos h]
    change 0 < min ⌊F.nearest x⌋₊ limit ↔ _
    rw [lt_min_iff, Nat.floor_pos, and_iff_left hlimit]
  · rw [dif_neg h]
    have hone : (1 : ℚ) ≤ 2 ^ F.maxExp := one_le_zpow₀ (by norm_num) hrange
    exact ⟨fun _ => hone.trans (not_lt.mp h), fun _ => hlimit⟩

end Value

theorem ofNat_eq {n : ℕ} (hself : F.nearest n = n) (hrange : (n : ℚ) < 2 ^ F.maxExp) :
    ∃ m : F.Magnitude, F.ofNat n = .finite false m ∧ m.val = n := by
  have hlt : F.nearest n < 2 ^ F.maxExp := by rwa [hself]
  exact ⟨_, dif_pos hlt, hself⟩

end Format

end ProxyPen
