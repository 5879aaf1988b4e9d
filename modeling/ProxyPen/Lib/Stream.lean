import ProxyPen.Lib.Proc

/-!
# Programs on Complete Byte Strings

A program of a duplex stream, run against all the bytes it will ever get. A
reader returns its value together with the bytes it has left, and a writer
returns the bytes it has written. A reader that fails, or that runs out of
bytes, returns nothing. A program that does both has its answers given
beforehand.

## Main definitions

* `Proc.readFrom`: Running a reader on a byte string.
* `Proc.written`: The bytes of a writer.
* `Proc.converse`: Running a program against the bytes of its peer.

## Theorems

* `readFrom_of_takes`: A reader leaves alone what it does not take.
* `converse_of_takes`: A complete run passes over what a reader takes.
* `written_of_puts`: A writer writes what it puts.
* `readFrom_bind`: A sequence of readers succeeds one after the other.
* `readFrom_int`: Reading an integer, in both directions.
-/

namespace ProxyPen

namespace Proc

variable {κ ε α β : Type}

/-- Run a reader on a complete byte string. -/
def readFrom : Proc κ ε α → Bytes → Option (α × Bytes)
  | ret a, inp => some (a, inp)
  | readExact n k, inp => if n ≤ inp.length then readFrom (k (inp.take n)) (inp.drop n) else none
  | fail _, _ => none
  | panic, _ => none
  | again _, _ => none
  | writeAll _ _, _ => none
  | mark _ _, _ => none

/-- The bytes a writer writes. -/
def written : Proc κ ε Unit → Bytes
  | writeAll bs k => bs ++ written k
  | ret _ => []
  | fail _ => []
  | panic => []
  | again _ => []
  | readExact _ _ => []
  | mark _ _ => []

/-- Run a program against all the bytes its peer will ever send: what it
    returns, where it does, and what it has written. -/
def converse : Proc κ ε α → Bytes → Option α × Bytes
  | ret a, _ => (some a, [])
  | readExact n k, inp =>
      if n ≤ inp.length then converse (k (inp.take n)) (inp.drop n) else (none, [])
  | writeAll bs k, inp => ((converse k inp).1, bs ++ (converse k inp).2)
  | mark _ k, inp => converse k inp
  | fail _, _ => (none, [])
  | panic, _ => (none, [])
  | again _, _ => (none, [])

theorem readFrom_of_takes {p : Proc κ ε α} {bs : Bytes} {a : α} (h : Takes p bs a) (rest : Bytes) :
    readFrom p (bs ++ rest) = some (a, rest) := by
  induction h with
  | ret a => rfl
  | read n k cs bs a hlen _ ih =>
      subst hlen
      have hle : cs.length ≤ (cs ++ bs ++ rest).length := by
        simp only [List.length_append]
        omega
      rw [readFrom, if_pos hle, List.append_assoc, List.take_left, List.drop_left]
      exact ih

/-- A complete run passes over what a reader takes. -/
theorem converse_of_takes {p : Proc κ ε α} {bs : Bytes} {a : α} (h : Takes p bs a)
    (f : α → Proc κ ε β) (rest : Bytes) : converse (p >>= f) (bs ++ rest) = converse (f a) rest := by
  induction h with
  | ret a => rfl
  | read n k cs bs a hlen _ ih =>
      subst hlen
      have hle : cs.length ≤ (cs ++ bs ++ rest).length := by
        simp only [List.length_append]
        omega
      rw [readExact_bind, converse, if_pos hle, List.append_assoc, List.take_left, List.drop_left]
      exact ih

theorem written_of_puts {p : Proc κ ε Unit} {bs : Bytes} (h : Puts p bs) : written p = bs := by
  induction h with
  | ret => rfl
  | write cs k bs _ ih => rw [written, ih]

theorem readFrom_bind (p : Proc κ ε α) (f : α → Proc κ ε β) (inp rest : Bytes) (b : β) :
    readFrom (p >>= f) inp = some (b, rest) ↔
      ∃ a mid, readFrom p inp = some (a, mid) ∧ readFrom (f a) mid = some (b, rest) := by
  induction p generalizing inp with
  | ret a =>
      simp only [readFrom, Option.some.injEq, Prod.mk.injEq]
      constructor
      · intro h
        exact ⟨a, inp, ⟨rfl, rfl⟩, h⟩
      · intro h
        rcases h with ⟨a', mid, ⟨rfl, rfl⟩, h⟩
        exact h
  | readExact n k ih =>
      rw [readExact_bind, readFrom, readFrom]
      by_cases hlen : n ≤ inp.length
      · rw [if_pos hlen, if_pos hlen]
        exact ih (inp.take n) (inp.drop n)
      · rw [if_neg hlen, if_neg hlen]
        simp only [reduceCtorEq, false_and, exists_false]
  -- What is not a reader returns nothing, with or without a continuation.
  | fail e => simp only [Bind.bind, bind, readFrom, reduceCtorEq, false_and, exists_false]
  | panic => simp only [Bind.bind, bind, readFrom, reduceCtorEq, false_and, exists_false]
  | again k => simp only [Bind.bind, bind, readFrom, reduceCtorEq, false_and, exists_false]
  | writeAll bs k _ => simp only [Bind.bind, bind, readFrom, reduceCtorEq, false_and, exists_false]
  | mark e k _ => simp only [Bind.bind, bind, readFrom, reduceCtorEq, false_and, exists_false]

theorem readFrom_pure (a b : α) (inp rest : Bytes) :
    readFrom (pure a : Proc κ ε α) inp = some (b, rest) ↔ a = b ∧ inp = rest := by
  show some (a, inp) = some (b, rest) ↔ _
  rw [Option.some.injEq, Prod.mk.injEq]

theorem readFrom_read (n : Nat) (bs inp rest : Bytes) :
    readFrom (read n : Proc κ ε Bytes) inp = some (bs, rest) ↔ bs.length = n ∧ inp = bs ++ rest := by
  rw [read, readFrom]
  constructor
  · intro h
    by_cases hlen : n ≤ inp.length
    · rw [if_pos hlen, readFrom, Option.some.injEq, Prod.mk.injEq] at h
      rw [← h.1, ← h.2, List.take_append_drop, List.length_take]
      exact ⟨by omega, rfl⟩
    · rw [if_neg hlen] at h
      exact absurd h (by simp only [reduceCtorEq, not_false_eq_true])
  · intro h
    rcases h with ⟨rfl, rfl⟩
    rw [if_pos (by rw [List.length_append]; omega), readFrom, List.take_left, List.drop_left]

/-- Reading an integer of `w` bytes succeeds exactly on its numeral. -/
theorem readFrom_int (w : Nat) (toNat : α → Nat) (ofNat : Nat → α)
    (hlt : ∀ v, toNat v < 256 ^ w) (hinv : ∀ v, ofNat (toNat v) = v)
    (hback : ∀ k, k < 256 ^ w → toNat (ofNat k) = k) (inp rest : Bytes) (v : α) :
    readFrom (read w >>= fun b => (pure (ofNat (beNat b)) : Proc κ ε α)) inp = some (v, rest) ↔
      inp = beBytes w (toNat v) ++ rest := by
  rw [readFrom_bind]
  simp only [readFrom_read, readFrom_pure]
  constructor
  · intro h
    rcases h with ⟨bs, mid, ⟨hlen, rfl⟩, rfl, rfl⟩
    have hbound := beNat_lt bs
    have hbytes := beBytes_beNat bs
    rw [hlen] at hbound hbytes
    rw [hback _ hbound, hbytes]
  · intro h
    refine ⟨beBytes w (toNat v), rest, ⟨beBytes_length _ _, h⟩, ?_, rfl⟩
    rw [beNat_beBytes_of_lt w _ (hlt v), hinv]

end Proc

end ProxyPen
