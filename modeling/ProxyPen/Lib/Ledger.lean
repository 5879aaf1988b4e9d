import Mathlib.Algebra.BigOperators.Fin
import Mathlib.Algebra.BigOperators.Group.Finset.Basic
import Mathlib.Algebra.Order.Group.Multiset
import Mathlib.Tactic.Abel

/-!
# Ledgers of Concurrent Tasks

A finite family of tasks that post to shared cells, one operation at a time.
What a task has posted to a cell is a function of where the task stands, so
between any two operations a cell holds the sum of what all tasks have posted.
A cell may be a counter, or the multiset of the entries of a list.

The order of the posts does not enter, and neither does which tasks are in
the middle of their work: an operation of one task changes one summand.

## Main definitions

* `Capped`: A list that keeps what is posted until it is full.

## Theorems

* `sum_update`: One task moves, and one summand changes.
* `posted_update`: A cell keeps the sum when a task posts the difference.
* `Capped.keep`: Posting to a list with a bound.
-/

namespace ProxyPen

namespace Ledger

variable {ι σ M α : Type}

/-- When task `i` moves to `q`, the sum changes by what the task has posted. -/
theorem sum_update [Fintype ι] [DecidableEq ι] [AddCommMonoid M] (post : ι → σ → M) (pc : ι → σ)
    (i : ι) (q : σ) :
    ∑ j, post j (Function.update pc i q j) + post i (pc i) = ∑ j, post j (pc j) + post i q := by
  -- The summands of the other tasks are the same on both sides.
  have hothers : ∑ j ∈ Finset.univ.erase i, post j (Function.update pc i q j)
      = ∑ j ∈ Finset.univ.erase i, post j (pc j) := by
    apply Finset.sum_congr rfl
    intro j hj
    rw [Function.update_of_ne (Finset.ne_of_mem_erase hj)]
  rw [← Finset.add_sum_erase _ _ (Finset.mem_univ i),
    ← Finset.add_sum_erase _ (fun j => post j (pc j)) (Finset.mem_univ i), hothers,
    Function.update_self]
  abel

/-- A cell that holds the sum still holds it after a task has moved and
    posted the difference. -/
theorem posted_update [Fintype ι] [DecidableEq ι] [AddCancelCommMonoid M] (post : ι → σ → M)
    (pc : ι → σ) (i : ι) (q : σ) (cell cell' : M) (hcell : cell = ∑ j, post j (pc j))
    (hpost : cell' + post i (pc i) = cell + post i q) :
    cell' = ∑ j, post j (Function.update pc i q j) := by
  apply add_right_cancel (b := post i (pc i))
  rw [hpost, sum_update, hcell]

/-- The list has kept everything posted as long as it had room. -/
def Capped (cap : Nat) (kept : List α) (posts : Multiset α) : Prop :=
  kept.length = min posts.card cap ∧ (kept : Multiset α) ≤ posts

theorem Capped.keep {cap : Nat} {kept : List α} {posts : Multiset α} (h : Capped cap kept posts)
    (a : α) : Capped cap (if kept.length < cap then kept ++ [a] else kept) (posts + {a}) := by
  rcases h with ⟨hlen, hsub⟩
  by_cases hroom : kept.length < cap
  · rw [if_pos hroom]
    constructor
    · rw [List.length_append, List.length_singleton, Multiset.card_add, Multiset.card_singleton]
      omega
    · rw [← Multiset.coe_add, Multiset.coe_singleton]
      exact add_le_add hsub (le_refl _)
  · -- A full list stays as it is, and what is posted only grows.
    rw [if_neg hroom]
    constructor
    · rw [Multiset.card_add, Multiset.card_singleton]
      omega
    · exact le_trans hsub (Multiset.le_add_right _ _)

end Ledger

end ProxyPen
