import ProxyPen.Lib.Bytes
import ProxyPen.Lib.Outcome

/-!
# Reading a Buffer by Position

A parser that keeps a position in a buffer moves it forward over one piece at
a time. `At` says which bytes stand at a position, and it is all a proof needs
to know about the buffer: pieces that follow each other are one piece, and a
checked access at the position of a piece reads that piece.

`loopFor` runs an unbounded loop for a given number of rounds. A loop that is
still running has no answer, so a loop terminates exactly when some number of
rounds gives it one.

## Main definitions

* `At`: The bytes at a position of a buffer.
* `Round`: What a round of a loop does next.
* `loopFor`: A loop cut off after a number of rounds.

## Theorems

* `at_append`: Neighbouring pieces form one piece.
* `at_of_le`: Inside the buffer there are bytes at every position.
* `at_beBytes`: Inside the buffer there is a numeral of every width.
* `index_of_at`, `at_of_index`: An access reads the byte at its position.
* `loopFor_isSome`: A loop with a decreasing measure ends.
* `loopFor_mono`: More rounds do not change the answer.
-/

namespace ProxyPen

namespace Cursor

variable {γ σ α ε : Type}

/-- The elements `bs` stand in `buf` from position `pos` on. -/
def At (buf : List γ) (pos : Nat) (bs : List γ) : Prop :=
  ∃ front rest, buf = front ++ bs ++ rest ∧ front.length = pos

theorem At.le {buf bs : List γ} {pos : Nat} (h : At buf pos bs) : pos + bs.length ≤ buf.length := by
  rcases h with ⟨front, rest, rfl, rfl⟩
  simp only [List.length_append]
  omega

theorem at_append (buf as bs : List γ) (pos : Nat) :
    At buf pos (as ++ bs) ↔ At buf pos as ∧ At buf (pos + as.length) bs := by
  constructor
  · intro h
    rcases h with ⟨front, rest, rfl, rfl⟩
    refine ⟨⟨front, bs ++ rest, ?_, rfl⟩, ⟨front ++ as, rest, ?_, List.length_append⟩⟩
    · simp only [List.append_assoc]
    · simp only [List.append_assoc]
  · intro h
    rcases h with ⟨⟨front, rest, hbuf, rfl⟩, ⟨front', rest', hbuf', hlen⟩⟩
    -- Both splits agree on the part up to the second piece.
    have hfront : front ++ as = front' := by
      apply (List.append_inj (hbuf.symm.trans (hbuf'.trans (List.append_assoc _ _ _))) ?_).1
      rw [List.length_append, hlen]
    refine ⟨front, rest', ?_, rfl⟩
    rw [hbuf', ← hfront]
    simp only [List.append_assoc]

/-- A whole buffer stands at its own start. -/
theorem at_zero (bs rest : List γ) : At (bs ++ rest) 0 bs := ⟨[], rest, rfl, rfl⟩

theorem at_of_le (buf : List γ) (pos n : Nat) (h : pos + n ≤ buf.length) :
    At buf pos ((buf.drop pos).take n) ∧ ((buf.drop pos).take n).length = n := by
  refine ⟨⟨buf.take pos, (buf.drop pos).drop n, ?_, ?_⟩, ?_⟩
  · rw [List.append_assoc, List.take_append_drop, List.take_append_drop]
  · rw [List.length_take]
    omega
  · rw [List.length_take, List.length_drop]
    omega

theorem index_of_at {buf bs : List γ} {pos : Nat} {b : γ} (h : At buf pos (b :: bs)) :
    (Outcome.index buf pos : Outcome ε γ) = .ok b := by
  rcases h with ⟨front, rest, rfl, hlen⟩
  rw [List.append_assoc]
  exact Outcome.index_append_left front b (bs ++ rest) pos hlen

/-- Inside the buffer an access succeeds, with the byte that stands there. -/
theorem at_of_index {buf : List γ} {pos : Nat} (h : pos < buf.length) :
    ∃ b, At buf pos [b] ∧ ∀ ε : Type, (Outcome.index buf pos : Outcome ε γ) = .ok b := by
  have hat := at_of_le buf pos 1 h
  rcases List.length_eq_one_iff.mp hat.2 with ⟨b, hb⟩
  rw [hb] at hat
  exact ⟨b, hat.1, fun ε => index_of_at hat.1⟩

/-- The bytes at a position inside the buffer are a numeral. -/
theorem at_beBytes (buf : Bytes) (pos w : Nat) (h : pos + w ≤ buf.length) :
    ∃ v, v < 256 ^ w ∧ At buf pos (beBytes w v) := by
  rcases at_of_le buf pos w h with ⟨hat, hlen⟩
  have hlt := beNat_lt ((buf.drop pos).take w)
  have hback := beBytes_beNat ((buf.drop pos).take w)
  rw [hlen] at hlt hback
  exact ⟨_, hlt, by rw [hback]; exact hat⟩

/-- What a round of a loop does next: go round again, or leave with a value. -/
inductive Round (σ α : Type) where
  | again (s : σ)
  | done (a : α)
  deriving DecidableEq, Repr

/-- A loop cut off after a number of rounds: `none` while it is still running. -/
def loopFor (body : σ → Outcome ε (Round σ α)) : Nat → σ → Option (Outcome ε α)
  | 0, _ => none
  | n + 1, s => match body s with
    | .ok (.again s') => loopFor body n s'
    | .ok (.done a) => some (.ok a)
    | .err e => some (.err e)
    | .panic => some .panic

variable {body : σ → Outcome ε (Round σ α)}

/-- Every round that goes on lowers the measure, so the loop ends within one
    round more than the measure allows. -/
theorem loopFor_isSome (μ : σ → Nat) (hdec : ∀ s s', body s = .ok (.again s') → μ s' < μ s)
    (n : Nat) (s : σ) (h : μ s < n) : ∃ r, loopFor body n s = some r := by
  induction n generalizing s with
  | zero => omega
  | succ n ih =>
      rw [loopFor]
      rcases hbody : body s with (s' | a) | e | _
      · have hlt := hdec s s' hbody
        exact ih s' (by omega)
      · exact ⟨_, rfl⟩
      · exact ⟨_, rfl⟩
      · exact ⟨_, rfl⟩

theorem loopFor_mono (n m : Nat) (s : σ) (r : Outcome ε α) (hle : n ≤ m)
    (h : loopFor body n s = some r) : loopFor body m s = some r := by
  induction n generalizing m s with
  | zero => exact absurd h (by simp only [loopFor, reduceCtorEq, not_false_eq_true])
  | succ n ih =>
      rcases m with _ | m
      · omega
      rw [loopFor] at h ⊢
      rcases hbody : body s with (s' | a) | e | _
      · rw [hbody] at h
        exact ih m s' (by omega) h
      · rw [hbody] at h
        exact h
      · rw [hbody] at h
        exact h
      · rw [hbody] at h
        exact h

end Cursor

end ProxyPen
