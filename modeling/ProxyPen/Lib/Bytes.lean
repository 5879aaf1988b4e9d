import Mathlib.Data.Nat.Basic
import Mathlib.Data.List.Basic
import Mathlib.Tactic.Ring

/-!
# Big-Endian Byte Strings

Fixed-width big-endian numerals over lists of bytes. Every width is handled
by one pair of functions, so a codec names the width it uses and inherits the
round trips from here.

## Main definitions

* `Bytes`: A string of bytes.
* `beBytes`: The low `w` bytes of a number, most significant first.
* `beNat`: The number a byte string denotes.

## Theorems

* `beBytes_length`: A numeral occupies exactly its width.
* `beNat_lt`: A byte string denotes less than its width allows.
* `beNat_beBytes`: Reading a numeral back gives the number it keeps.
* `beBytes_beNat`: Every byte string is the numeral of what it denotes.
-/

namespace ProxyPen

/-- A string of bytes. -/
abbrev Bytes := List UInt8

/-- The low `w` bytes of `v`, most significant first. -/
def beBytes : Nat → Nat → Bytes
  | 0, _ => []
  | w + 1, v => UInt8.ofNat (v / 256 ^ w) :: beBytes w v

/-- The number a byte string denotes, most significant byte first. -/
def beNat : Bytes → Nat
  | [] => 0
  | b :: bs => b.toNat * 256 ^ bs.length + beNat bs

@[simp] theorem beBytes_length (w v : Nat) : (beBytes w v).length = w := by
  induction w with
  | zero => rfl
  | succ w ih => rw [beBytes, List.length_cons, ih]

theorem beNat_lt (bs : Bytes) : beNat bs < 256 ^ bs.length := by
  induction bs with
  | nil => simp only [beNat, List.length_nil, pow_zero, Nat.lt_one_iff]
  | cons b bs ih =>
      have hb : b.toNat + 1 ≤ 256 := b.toNat_lt
      calc beNat (b :: bs) < b.toNat * 256 ^ bs.length + 256 ^ bs.length := by
            rw [beNat]
            omega
        _ = (b.toNat + 1) * 256 ^ bs.length := by ring
        _ ≤ 256 * 256 ^ bs.length := Nat.mul_le_mul_right _ hb
        _ = 256 ^ (b :: bs).length := by rw [List.length_cons, pow_succ, Nat.mul_comm]

/-- Reading a numeral back keeps the number modulo its width. -/
theorem beNat_beBytes (w v : Nat) : beNat (beBytes w v) = v % 256 ^ w := by
  induction w with
  | zero => rw [beBytes, beNat, pow_zero, Nat.mod_one]
  | succ w ih =>
      have hmod : v % 256 ^ (w + 1) = v % 256 ^ w + 256 ^ w * (v / 256 ^ w % 256) := by
        rw [pow_succ, Nat.mod_mul]
      -- The leading byte is the digit at position `w`; the tail keeps the rest.
      rw [beBytes, beNat, ih, beBytes_length, UInt8.toNat_ofNat', hmod, Nat.add_comm,
        Nat.mul_comm]

theorem beNat_beBytes_of_lt (w v : Nat) (h : v < 256 ^ w) : beNat (beBytes w v) = v := by
  rw [beNat_beBytes, Nat.mod_eq_of_lt h]

/-- Only the low bytes of a number enter its numeral. -/
theorem beBytes_add_mul (w v k : Nat) : beBytes w (k * 256 ^ w + v) = beBytes w v := by
  induction w generalizing k with
  | zero => rfl
  | succ w ih =>
      have hsplit : k * 256 ^ (w + 1) + v = (k * 256) * 256 ^ w + v := by ring
      have hdiv : (k * 256 ^ (w + 1) + v) / 256 ^ w = k * 256 + v / 256 ^ w := by
        rw [hsplit, Nat.add_comm, Nat.add_mul_div_right _ _ (Nat.pow_pos (by omega)),
          Nat.add_comm]
      rw [beBytes, beBytes, hdiv, hsplit, ih]
      congr 1
      -- The leading bytes agree modulo 256, which is all `UInt8.ofNat` keeps.
      apply UInt8.toNat_inj.mp
      rw [UInt8.toNat_ofNat', UInt8.toNat_ofNat']
      omega

/-- Every byte string is the numeral of the number it denotes. -/
theorem beBytes_beNat (bs : Bytes) : beBytes bs.length (beNat bs) = bs := by
  induction bs with
  | nil => rfl
  | cons b bs ih =>
      have hdiv : (b.toNat * 256 ^ bs.length + beNat bs) / 256 ^ bs.length = b.toNat := by
        rw [Nat.add_comm, Nat.add_mul_div_right _ _ (Nat.pow_pos (by omega)),
          Nat.div_eq_of_lt (beNat_lt bs), Nat.zero_add]
      rw [List.length_cons, beNat, beBytes, hdiv, beBytes_add_mul, ih, UInt8.ofNat_toNat]

end ProxyPen
