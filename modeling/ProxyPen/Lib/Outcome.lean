import Mathlib.Data.Vector.Basic

/-!
# Outcomes That May Panic

The result of code that returns a value, returns an error, or panics. Slice
and index expressions panic out of range, so a program written with the
checked accessors below carries its own bounds obligations: it never indexes
out of range exactly when its outcome is never `panic`.

## Main definitions

* `Outcome`: A value, an error, or a panic.
* `Outcome.index`, `Outcome.slice`, `Outcome.copyInto`: Checked accessors.

## Theorems

* `bind_eq_ok`: When a sequence succeeds.
* `index_append_left`, `slice_append_left`: Accessors inside a front.
* `slice_self`: The part of a list from a position on.
-/

namespace ProxyPen

/-- A value, an error, or a panic. -/
inductive Outcome (ε α : Type) where
  | ok (a : α)
  | err (e : ε)
  | panic
  deriving DecidableEq, Repr

namespace Outcome

variable {ε α β γ : Type}

def bind : Outcome ε α → (α → Outcome ε β) → Outcome ε β
  | ok a, f => f a
  | err e, _ => err e
  | panic, _ => panic

instance : Monad (Outcome ε) where
  pure := ok
  bind := bind

@[simp] theorem ok_bind (a : α) (f : α → Outcome ε β) : (ok a >>= f) = f a := rfl

@[simp] theorem err_bind (e : ε) (f : α → Outcome ε β) : (err e >>= f) = err e := rfl

/-- `map_err` -/
def mapErr {ε' : Type} (f : ε → ε') : Outcome ε α → Outcome ε' α
  | ok a => ok a
  | err e => err (f e)
  | panic => panic

@[simp] theorem mapErr_ok {ε' : Type} (f : ε → ε') (a : α) : (ok a).mapErr f = ok a := rfl

theorem ok_of_mapErr {ε' : Type} {f : ε → ε'} {x : Outcome ε α} {a : α} (h : x.mapErr f = ok a) :
    x = ok a := by
  cases x with
  | ok b => exact congrArg ok (ok.inj h)
  | err e => cases h
  | panic => cases h

theorem err_ne_ok (e : ε) (a : α) : (err e : Outcome ε α) ≠ ok a := by
  simp only [ne_eq, reduceCtorEq, not_false_eq_true]

/-- A sequence succeeds when its first part does and the rest does after it. -/
theorem bind_eq_ok {x : Outcome ε α} {f : α → Outcome ε β} {b : β} :
    (x >>= f) = ok b ↔ ∃ a, x = ok a ∧ f a = ok b := by
  rcases x with a | e | _
  · rw [ok_bind]
    simp only [ok.injEq, exists_eq_left']
  · rw [err_bind]
    simp only [reduceCtorEq, false_and, exists_false]
  · simp only [reduceCtorEq, false_and, exists_false, iff_false]
    intro h
    exact absurd h (by simp only [Bind.bind, bind, reduceCtorEq, not_false_eq_true])

/-- `bs[i]` -/
def index (bs : List γ) (i : Nat) : Outcome ε γ :=
  match bs[i]? with
  | some b => ok b
  | none => panic

/-- `&bs[lo..hi]` -/
def slice (bs : List γ) (lo hi : Nat) : Outcome ε (List γ) :=
  if lo ≤ hi ∧ hi ≤ bs.length then ok ((bs.drop lo).take (hi - lo)) else panic

/-- `copy_from_slice` into an array of `n` elements. -/
def copyInto (n : Nat) (bs : List γ) : Outcome ε (List.Vector γ n) :=
  if h : bs.length = n then ok ⟨bs, h⟩ else panic

theorem index_append_left (front : List γ) (b : γ) (rest : List γ) (i : Nat)
    (hi : front.length = i) : (index (front ++ b :: rest) i : Outcome ε γ) = ok b := by
  rw [index, ← hi, List.getElem?_append_right (Nat.le_refl _), Nat.sub_self]
  rfl

theorem slice_append_left (front mid rest : List γ) (lo hi : Nat) (hlo : front.length = lo)
    (hhi : lo + mid.length = hi) :
    (slice (front ++ mid ++ rest) lo hi : Outcome ε (List γ)) = ok mid := by
  subst hlo hhi
  rw [slice, if_pos]
  · rw [List.append_assoc, List.drop_left, Nat.add_sub_cancel_left, List.take_left]
  · simp only [List.length_append]
    omega

/-- The rest of a list from a position on it. -/
theorem slice_self (bs : List γ) (lo : Nat) (h : lo ≤ bs.length) :
    (slice bs lo bs.length : Outcome ε (List γ)) = ok (bs.drop lo) := by
  rw [slice, if_pos ⟨h, Nat.le_refl _⟩, List.take_of_length_le]
  rw [List.length_drop]

theorem copyInto_toList {n : Nat} (v : List.Vector γ n) :
    (copyInto n v.toList : Outcome ε (List.Vector γ n)) = ok v :=
  dif_pos v.2

end Outcome

end ProxyPen
