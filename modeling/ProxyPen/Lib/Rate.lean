import Mathlib.Order.Lattice
import Mathlib.Order.MinMax

/-!
# Counting at a Rate

Events that each cost the same, paid for at a fixed speed. `count` is how many
have been paid for by a time, `due` is when an event is paid for, and both are
rounded down and cut off at the same limit. The two are inverse to each other
up to rounding: what has been counted was due, and what was due before is
counted.

## Main definitions

* `count`: The events paid for by a time.
* `due`: The time an event is paid for.

## Theorems

* `count_mono`, `due_mono`: Both grow with their argument.
* `mul_le_of_le_count`: What is counted has been paid for.
* `due_le_of_le_count`: What is counted was due.
* `le_count_of_due_lt`: What was due before is counted.
* `count_le_add`: How many more are counted after some time.
-/

namespace ProxyPen

namespace Rate

variable (cost speed limit : Nat)

def count (t : Nat) : Nat := min (t * speed / cost) limit

def due (n : Nat) : Nat := min (n * cost / speed) limit

variable {cost speed limit}

theorem count_mono {t t' : Nat} (h : t ≤ t') :
    count cost speed limit t ≤ count cost speed limit t' :=
  min_le_min_right _ (Nat.div_le_div_right (Nat.mul_le_mul_right speed h))

theorem due_mono {n n' : Nat} (h : n ≤ n') :
    due cost speed limit n ≤ due cost speed limit n' :=
  min_le_min_right _ (Nat.div_le_div_right (Nat.mul_le_mul_right cost h))

/-- What is counted has been paid for. -/
theorem mul_le_of_le_count {n t : Nat} (h : n ≤ count cost speed limit t) :
    n * cost ≤ t * speed :=
  calc n * cost ≤ t * speed / cost * cost :=
        Nat.mul_le_mul_right cost (Nat.le_trans h (Nat.min_le_left _ _))
    _ ≤ t * speed := Nat.div_mul_le_self _ _

/-- What is counted was due. -/
theorem due_le_of_le_count {n t : Nat} (h : n ≤ count cost speed limit t) :
    due cost speed limit n ≤ t := by
  have hpaid : n * cost ≤ speed * t := by
    rw [Nat.mul_comm speed]
    exact mul_le_of_le_count h
  exact Nat.le_trans (Nat.min_le_left _ _) (Nat.div_le_of_le_mul hpaid)

/-- What was due before is counted, within the limit. -/
theorem le_count_of_due_lt (hcost : 0 < cost) (hspeed : 0 < speed) {n t : Nat} (hn : n ≤ limit)
    (ht : t ≤ limit) (h : due cost speed limit n < t) : n ≤ count cost speed limit t := by
  unfold due at h
  -- A time within the limit can only be past what was not cut off.
  have hlt : n * cost / speed < t := by omega
  have hpaid : n * cost < t * speed := (Nat.div_lt_iff_lt_mul hspeed).mp hlt
  have hcount : n ≤ t * speed / cost := (Nat.le_div_iff_mul_le hcost).mpr (Nat.le_of_lt hpaid)
  exact Nat.le_min.mpr ⟨hcount, hn⟩

/-- A time too short to pay for `n` events adds at most `n` of them, the one
    that was partly paid for included. -/
theorem count_le_add {n d t t' : Nat} (hd : d * speed < n * cost) (ht : t' ≤ t + d) :
    count cost speed limit t' ≤ count cost speed limit t + n := by
  have hcost : 0 < cost := Nat.pos_of_mul_pos_left (Nat.zero_lt_of_lt hd)
  -- What remains unpaid at `t` is less than one event.
  have hrest : t * speed < (t * speed / cost + 1) * cost := by
    rw [Nat.add_mul, Nat.one_mul]
    exact Nat.lt_div_mul_add hcost
  have hpaid : t' * speed < (t * speed / cost + 1 + n) * cost :=
    calc t' * speed ≤ (t + d) * speed := Nat.mul_le_mul_right speed ht
      _ = t * speed + d * speed := Nat.add_mul _ _ _
      _ < (t * speed / cost + 1) * cost + n * cost := Nat.add_lt_add hrest hd
      _ = (t * speed / cost + 1 + n) * cost := (Nat.add_mul _ _ _).symm
  have hdiv : t' * speed / cost < t * speed / cost + 1 + n := (Nat.div_lt_iff_lt_mul hcost).mpr hpaid
  unfold count
  omega

end Rate

end ProxyPen
