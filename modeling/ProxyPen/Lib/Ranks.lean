import Mathlib.Algebra.Order.Field.Basic
import Mathlib.Algebra.Order.Field.Rat
import Mathlib.Data.List.GetD
import Mathlib.Data.List.Sort
import Mathlib.Tactic.Linarith

/-!
# Ranks in a Sorted List

What a position in a sorted list says about the values around it: how many of
them lie below the value at the position and how many do not exceed it, with
ties counted on the right side. The mean of a list lies between any two bounds
of its members.

## Theorems

* `getD_mono`: A later position holds a value at least as large.
* `countP_lt_getD_le`: At most `i` members lie below the one at position `i`.
* `lt_countP_le_getD`: More than `i` members do not exceed it.
* `foldl_add_between`: A sum lies between the multiples of two bounds.
-/

namespace ProxyPen

namespace Ranks

section

variable {α : Type} [LinearOrder α] {xs : List α}

theorem getD_mono (hs : xs.Pairwise (· ≤ ·)) (d : α) {i j : Nat} (hij : i ≤ j)
    (hj : j < xs.length) : xs.getD i d ≤ xs.getD j d := by
  rw [List.getD_eq_getElem xs d (Nat.lt_of_le_of_lt hij hj), List.getD_eq_getElem xs d hj]
  by_cases heq : i = j
  · subst heq
    exact le_refl _
  · exact List.pairwise_iff_getElem.mp hs i j _ hj (by omega)

/-- Everything in front of a position is at most the value there. -/
theorem le_getD_of_mem_take (hs : xs.Pairwise (· ≤ ·)) (d : α) {i : Nat} (hi : i < xs.length)
    {x : α} (hx : x ∈ xs.take (i + 1)) : x ≤ xs.getD i d := by
  rcases List.mem_take_iff_getElem.mp hx with ⟨k, hk, rfl⟩
  rw [← List.getD_eq_getElem xs d]
  exact getD_mono hs d (by omega) hi

/-- Everything from a position on is at least the value there. -/
theorem getD_le_of_mem_drop (hs : xs.Pairwise (· ≤ ·)) (d : α) {i : Nat} {x : α}
    (hx : x ∈ xs.drop i) : xs.getD i d ≤ x := by
  rcases List.mem_drop_iff_getElem.mp hx with ⟨k, hk, rfl⟩
  rw [← List.getD_eq_getElem xs d]
  exact getD_mono hs d (by omega) (by omega)

/-- At most `i` members lie below the one at position `i`. -/
theorem countP_lt_getD_le (hs : xs.Pairwise (· ≤ ·)) (d : α) (i : Nat) :
    xs.countP (fun x => x < xs.getD i d) ≤ i := by
  -- None of them stands at the position or behind it.
  have hnone : (xs.drop i).countP (fun x => x < xs.getD i d) = 0 := by
    rw [List.countP_eq_zero]
    intro x hx hlt
    exact absurd (of_decide_eq_true hlt) (not_lt.mpr (getD_le_of_mem_drop hs d hx))
  calc xs.countP (fun x => x < xs.getD i d)
      = (xs.take i).countP (fun x => x < xs.getD i d) +
          (xs.drop i).countP (fun x => x < xs.getD i d) := by
        rw [← List.countP_append, List.take_append_drop]
    _ = (xs.take i).countP (fun x => x < xs.getD i d) := by rw [hnone, Nat.add_zero]
    _ ≤ (xs.take i).length := List.countP_le_length
    _ ≤ i := List.length_take_le i xs

/-- More than `i` members do not exceed the one at position `i`. -/
theorem lt_countP_le_getD (hs : xs.Pairwise (· ≤ ·)) (d : α) {i : Nat} (hi : i < xs.length) :
    i < xs.countP (fun x => x ≤ xs.getD i d) := by
  -- All up to the position are among them.
  have hall : (xs.take (i + 1)).countP (fun x => x ≤ xs.getD i d) = (xs.take (i + 1)).length := by
    rw [List.countP_eq_length]
    intro x hx
    exact decide_eq_true (le_getD_of_mem_take hs d hi hx)
  have hsub := (List.take_sublist (i + 1) xs).countP_le (p := fun x => x ≤ xs.getD i d)
  rw [hall, List.length_take] at hsub
  omega

end

section

variable {K : Type} [Field K] [LinearOrder K] [IsStrictOrderedRing K] {lo hi : K}

/-- A sum lies between the multiples of two bounds of its summands. -/
theorem foldl_add_between (xs : List K) (hlo : ∀ x ∈ xs, lo ≤ x) (hhi : ∀ x ∈ xs, x ≤ hi) (acc : K) :
    acc + xs.length * lo ≤ xs.foldl (fun x y => x + y) acc ∧
      xs.foldl (fun x y => x + y) acc ≤ acc + xs.length * hi := by
  induction xs generalizing acc with
  | nil => simp
  | cons x xs ih =>
      rcases List.forall_mem_cons.mp hlo with ⟨hx, hxs⟩
      rcases List.forall_mem_cons.mp hhi with ⟨hx', hxs'⟩
      have h := ih hxs hxs' (acc + x)
      rw [List.foldl_cons, List.length_cons]
      push_cast
      constructor <;> linarith

end

end Ranks

end ProxyPen
