import Mathlib.Data.List.Basic

/-!
# Splitting at a Separator

Cutting a text at the first occurrence of a separator, over any alphabet. A
text that is held in two alphabets, as bytes and as the characters they decode
to, is cut in the same places in both when the decoding respects the
separator: it reads one as the other wherever it stands, and makes none up.

## Main definitions

* `splitOnce`: The text in front of a separator, and the text behind it.
* `splitn`: The first fields of a text.
* `firstLine`: The text in front of the first end of line.
* `Respects`: A decoding that keeps a separator.

## Theorems

* `splitOnce_eq_some`, `splitOnce_eq_none`: Where a text is cut.
* `splitn_eq_cons`: The first field of a text.
* `firstLine_append`: The first line of a text with a line in front.
* `Respects.splitOnce`, `Respects.splitn`, `Respects.firstLine`: Decoding and
  cutting commute.
-/

namespace ProxyPen

namespace Split

variable {α β : Type} [DecidableEq α] [DecidableEq β]

/-- Cut a text at its first separator. -/
def splitOnce (sep : α) : List α → Option (List α × List α)
  | [] => none
  | x :: xs =>
      if x = sep then some ([], xs) else (splitOnce sep xs).map (fun p => (x :: p.1, p.2))

/-- At most `n` fields, the last of which keeps its separators. -/
def splitn (sep : α) : Nat → List α → List (List α)
  | 0, _ => []
  | 1, xs => [xs]
  | n + 2, xs => match splitOnce sep xs with
    | none => [xs]
    | some (front, rest) => front :: splitn sep (n + 1) rest

/-- Strip an element off the end, if it stands there. -/
def stripLast (x : α) (xs : List α) : List α := if xs.getLast? = some x then xs.dropLast else xs

/-- The first line. A carriage return belongs to the end of a line only in
    front of the newline that ends it. -/
def firstLine (nl cr : α) (xs : List α) : List α :=
  match splitOnce nl xs with
  | none => xs
  | some (line, _) => stripLast cr line

theorem splitOnce_eq_none {sep : α} {xs : List α} : splitOnce sep xs = none ↔ sep ∉ xs := by
  induction xs with
  | nil => simp only [splitOnce, List.not_mem_nil, not_false_eq_true]
  | cons x xs ih =>
      rw [splitOnce, List.mem_cons, not_or]
      by_cases hx : x = sep
      · rw [if_pos hx]
        exact ⟨fun h => absurd h (by simp only [reduceCtorEq, not_false_eq_true]),
          fun h => absurd hx.symm h.1⟩
      · rw [if_neg hx, Option.map_eq_none_iff, ih]
        exact ⟨fun h => ⟨fun heq => hx heq.symm, h⟩, And.right⟩

/-- A text is cut at its first separator and nowhere else. -/
theorem splitOnce_eq_some {sep : α} {xs front rest : List α} :
    splitOnce sep xs = some (front, rest) ↔ xs = front ++ sep :: rest ∧ sep ∉ front := by
  induction xs generalizing front rest with
  | nil =>
      rw [splitOnce]
      refine ⟨fun h => absurd h (by simp only [reduceCtorEq, not_false_eq_true]), fun h => ?_⟩
      exact absurd h.1.symm (List.append_ne_nil_of_right_ne_nil _ (List.cons_ne_nil _ _))
  | cons x xs ih =>
      rw [splitOnce]
      by_cases hx : x = sep
      · subst hx
        rw [if_pos rfl, Option.some.injEq, Prod.mk.injEq]
        constructor
        · intro h
          rw [← h.1, ← h.2]
          exact ⟨rfl, List.not_mem_nil⟩
        · intro h
          rcases front with _ | ⟨y, front⟩
          · exact ⟨rfl, (List.cons.inj h.1).2⟩
          · rw [List.cons_append, List.cons.injEq] at h
            exact absurd (List.mem_cons.mpr (Or.inl h.1.1)) h.2
      · rw [if_neg hx, Option.map_eq_some_iff]
        constructor
        · intro ⟨p, hp, heq⟩
          rw [Prod.mk.injEq] at heq
          rcases ih.mp hp with ⟨hxs, hfree⟩
          rw [← heq.1, ← heq.2, hxs]
          refine ⟨rfl, ?_⟩
          rw [List.mem_cons, not_or]
          exact ⟨fun h => hx h.symm, hfree⟩
        · intro h
          rcases front with _ | ⟨y, front⟩
          · exact absurd (List.cons.inj h.1).1 hx
          · rw [List.cons_append, List.cons.injEq, List.mem_cons, not_or] at h
            exact ⟨(front, rest), ih.mpr ⟨h.1.2, h.2.2⟩, by rw [h.1.1]⟩

/-- What the first field of a text is, when more than one may be cut off. -/
theorem splitn_eq_cons {sep : α} {n : Nat} {xs field : List α} {more : List (List α)} :
    splitn sep (n + 2) xs = field :: more ↔
      sep ∉ field ∧
        (xs = field ∧ more = [] ∨
          ∃ rest, xs = field ++ sep :: rest ∧ splitn sep (n + 1) rest = more) := by
  rw [splitn]
  cases hsplit : splitOnce sep xs with
  | none =>
      have hfree := splitOnce_eq_none.mp hsplit
      simp only [List.cons.injEq]
      constructor
      · intro ⟨hxs, hmore⟩
        exact ⟨hxs ▸ hfree, Or.inl ⟨hxs, hmore.symm⟩⟩
      · intro ⟨_, h⟩
        rcases h with ⟨hxs, hmore⟩ | ⟨rest, hxs, _⟩
        · exact ⟨hxs, hmore.symm⟩
        · rw [hxs] at hfree
          exact absurd (List.mem_append_right _ List.mem_cons_self) hfree
  | some p =>
      rcases splitOnce_eq_some.mp (hsplit : _ = some (p.1, p.2)) with ⟨hxs, hfree⟩
      simp only [List.cons.injEq]
      constructor
      · intro ⟨hfield, hmore⟩
        exact ⟨hfield ▸ hfree, Or.inr ⟨p.2, hfield ▸ hxs, hmore⟩⟩
      · intro ⟨hfield, h⟩
        rcases h with ⟨heq, _⟩ | ⟨rest, heq, hmore⟩
        · rw [← heq, hxs] at hfield
          exact absurd (List.mem_append_right _ List.mem_cons_self) hfield
        · -- A text is cut in one place only.
          rw [splitOnce_eq_some.mpr ⟨heq, hfield⟩, Option.some.injEq] at hsplit
          rw [← hsplit]
          exact ⟨rfl, hmore⟩

/-- A line that ends in a carriage return and a newline. -/
theorem firstLine_append {nl cr : α} (hne : cr ≠ nl) {line : List α} (rest : List α)
    (h : nl ∉ line) : firstLine nl cr (line ++ cr :: nl :: rest) = line := by
  have hfree : nl ∉ line ++ [cr] := by
    rw [List.mem_append, List.mem_singleton, not_or]
    exact ⟨h, fun heq => hne heq.symm⟩
  have hsplit : splitOnce nl (line ++ cr :: nl :: rest) = some (line ++ [cr], rest) := by
    rw [splitOnce_eq_some, List.append_assoc, List.singleton_append]
    exact ⟨rfl, hfree⟩
  simp only [firstLine, hsplit, stripLast, List.getLast?_concat, if_true, List.dropLast_concat]

/-! ## Two alphabets -/

/-- A decoding that reads `a` as `b` wherever it stands, and reads nothing else
    so. -/
structure Respects (decode : List α → List β) (a : α) (b : β) : Prop where
  decode_nil : decode [] = []
  eq_nil : ∀ xs, decode xs = [] → xs = []
  decode_append : ∀ xs ys, decode (xs ++ a :: ys) = decode xs ++ b :: decode ys
  mem : ∀ xs, b ∈ decode xs → a ∈ xs

namespace Respects

variable {decode : List α → List β} {a : α} {b : β}

theorem splitOnce (h : Respects decode a b) (xs : List α) :
    splitOnce b (decode xs) = (splitOnce a xs).map (Prod.map decode decode) := by
  cases hsplit : Split.splitOnce a xs with
  | none =>
      rw [splitOnce_eq_none] at hsplit
      exact splitOnce_eq_none.mpr (fun hb => hsplit (h.mem xs hb))
  | some p =>
      rcases splitOnce_eq_some.mp (hsplit : _ = some (p.1, p.2)) with ⟨hxs, hfree⟩
      rw [hxs, h.decode_append]
      exact splitOnce_eq_some.mpr ⟨rfl, fun hb => hfree (h.mem p.1 hb)⟩

theorem splitn (h : Respects decode a b) (n : Nat) (xs : List α) :
    splitn b n (decode xs) = (splitn a n xs).map decode := by
  induction n generalizing xs with
  | zero => rfl
  | succ n ih =>
      rcases n with _ | n
      · rfl
      · rw [Split.splitn, Split.splitn, h.splitOnce]
        cases Split.splitOnce a xs with
        | none => rfl
        | some p =>
            simp only [Option.map_some, Prod.map, List.map_cons]
            rw [ih]

theorem stripLast (h : Respects decode a b) (xs : List α) :
    stripLast b (decode xs) = decode (stripLast a xs) := by
  unfold Split.stripLast
  by_cases hlast : xs.getLast? = some a
  · rcases List.getLast?_eq_some_iff.mp hlast with ⟨front, rfl⟩
    rw [if_pos hlast, h.decode_append, h.decode_nil, List.getLast?_concat, if_pos rfl,
      List.dropLast_concat, List.dropLast_concat]
  · rw [if_neg hlast, if_neg]
    intro hend
    -- The separator the characters end in is the last one of the bytes.
    have hmem : a ∈ xs.reverse := List.mem_reverse.mpr (h.mem xs (List.mem_of_getLast? hend))
    rcases List.eq_append_cons_of_mem hmem with ⟨back, front, hrev, hfree⟩
    have hxs : xs = front.reverse ++ a :: back.reverse := by
      rw [← List.reverse_reverse xs, hrev, List.reverse_append, List.reverse_cons,
        List.append_assoc, List.singleton_append]
    rw [hxs, h.decode_append, List.getLast?_append_of_ne_nil _ (List.cons_ne_nil _ _)] at hend
    by_cases hback : back = []
    · apply hlast
      rw [hxs, hback, List.reverse_nil, List.getLast?_concat]
    · have hne : decode back.reverse ≠ [] :=
        fun hnil => hback (List.reverse_eq_nil_iff.mp (h.eq_nil _ hnil))
      rw [List.getLast?_cons_of_ne_nil hne] at hend
      exact hfree (List.mem_reverse.mp (h.mem _ (List.mem_of_getLast? hend)))

/-- The first line of a decoded text, where both ends of line are respected. -/
theorem firstLine {nl cr : α} {nl' cr' : β} (hnl : Respects decode nl nl')
    (hcr : Respects decode cr cr') (xs : List α) :
    firstLine nl' cr' (decode xs) = decode (firstLine nl cr xs) := by
  unfold Split.firstLine
  rw [hnl.splitOnce]
  cases Split.splitOnce nl xs with
  | none => rfl
  | some p => exact hcr.stripLast p.1

end Respects

end Split

end ProxyPen
