import Mathlib.Data.Finset.Card
import Mathlib.Data.List.Nodup
import Mathlib.Order.Lattice

/-!
# Selecting by What Came Before

Subsequences of a list picked out by how each element compares with the
elements before it. An accumulator that looks at one element at a time and
remembers a summary of the past computes such a selection, so its counters can
be given a meaning that mentions no accumulator at all.

Everything is `keep` at a particular condition, and `keep_snoc` is the only
fact about it a left-to-right accumulator needs: appending one element either
keeps it or does not, depending on the whole list so far.

## Main definitions

* `keep`: The elements satisfying a condition on what precedes them.
* `firsts`: The elements whose key has not occurred before.
* `late`: The elements overtaken by an earlier, larger key.
* `records`: The elements whose key exceeds all earlier ones.
* `consecutive`: Each element with the one before it.

## Theorems

* `keep_snoc`: Appending one element.
* `keep_length_compl`: A condition and its complement split a list.
* `firsts_snoc_of_mem`, `firsts_snoc_of_notMem`: A repeated key and a new one.
* `mem_map_firsts`: The first occurrences carry every key.
* `firsts_nodup`: The first occurrences carry each key once.
* `firsts_length`: There are as many first occurrences as distinct keys.
* `firsts_of_nodup`: Distinct keys are all first occurrences.
* `firsts_map`: A map that keeps the keys keeps the first occurrences.
* `late_add_records`: Distinct keys are late or records.
* `late_length_eq_zero_iff`: Nothing is late iff the keys increase.
* `consecutive_snoc`: Appending one element adds at most one pair.
-/

namespace ProxyPen

namespace History

variable {α β : Type}

/-- The elements of a list satisfying `p` of the list before them, `pre`
    being what came before the whole list. -/
def keepFrom (p : List α → α → Prop) [∀ l x, Decidable (p l x)] : List α → List α → List α
  | _, [] => []
  | pre, x :: xs =>
      if p pre x then x :: keepFrom p (pre ++ [x]) xs else keepFrom p (pre ++ [x]) xs

/-- The elements satisfying `p` of what precedes them. -/
def keep (p : List α → α → Prop) [∀ l x, Decidable (p l x)] (l : List α) : List α :=
  keepFrom p [] l

section Keep

variable (p : List α → α → Prop) [∀ l x, Decidable (p l x)]

theorem keepFrom_snoc (pre l : List α) (x : α) :
    keepFrom p pre (l ++ [x]) = keepFrom p pre l ++ if p (pre ++ l) x then [x] else [] := by
  induction l generalizing pre with
  | nil =>
      rw [List.nil_append, keepFrom, keepFrom, List.append_nil]
      by_cases hp : p pre x
      · rw [if_pos hp, if_pos hp]
        rfl
      · rw [if_neg hp, if_neg hp]
        rfl
  | cons y l ih =>
      -- The head joins the history of what follows, whether it is kept or not.
      rw [List.cons_append, keepFrom, keepFrom, ih, List.append_assoc, List.singleton_append]
      by_cases hp : p pre y
      · rw [if_pos hp, if_pos hp, List.cons_append]
      · rw [if_neg hp, if_neg hp]

theorem keep_snoc (l : List α) (x : α) :
    keep p (l ++ [x]) = keep p l ++ if p l x then [x] else [] := by
  rw [keep, keepFrom_snoc, List.nil_append, keep]

theorem keep_sublist (l : List α) : (keep p l).Sublist l := by
  induction l using List.reverseRecOn with
  | nil => exact List.Sublist.slnil
  | append_singleton l x ih =>
      rw [keep_snoc]
      by_cases hp : p l x
      · rw [if_pos hp]
        exact List.Sublist.append ih (List.Sublist.refl _)
      · rw [if_neg hp]
        exact List.Sublist.append ih (List.nil_sublist _)

end Keep

/-- Two conditions that exclude each other on every prefix of a list split it. -/
theorem keep_length_compl (p q : List α → α → Prop) [∀ l x, Decidable (p l x)]
    [∀ l x, Decidable (q l x)] (l : List α)
    (hpq : ∀ pre x, pre ++ [x] <+: l → (q pre x ↔ ¬ p pre x)) :
    (keep p l).length + (keep q l).length = l.length := by
  induction l using List.reverseRecOn with
  | nil => rfl
  | append_singleton l x ih =>
      have hrec := ih (fun pre y h => hpq pre y (h.trans (List.prefix_append l [x])))
      have hx := hpq l x (List.prefix_refl _)
      rw [keep_snoc, keep_snoc, List.length_append, List.length_append, List.length_append,
        List.length_singleton]
      -- Exactly one of the two keeps the new element.
      by_cases hp : p l x
      · rw [if_pos hp, if_neg (fun hq => hx.mp hq hp), List.length_singleton, List.length_nil]
        omega
      · rw [if_neg hp, if_pos (hx.mpr hp), List.length_singleton, List.length_nil]
        omega

section Firsts

variable [DecidableEq β] (key : α → β)

/-- The elements whose key has not occurred before. -/
def firsts (l : List α) : List α := keep (fun pre x => key x ∉ pre.map key) l

theorem firsts_snoc (l : List α) (x : α) :
    firsts key (l ++ [x]) = firsts key l ++ if key x ∉ l.map key then [x] else [] :=
  keep_snoc _ l x

/-- A repeated key is dropped. -/
theorem firsts_snoc_of_mem (l : List α) (x : α) (h : key x ∈ l.map key) :
    firsts key (l ++ [x]) = firsts key l := by
  rw [firsts_snoc, if_neg (fun hn => hn h), List.append_nil]

/-- A new key is kept. -/
theorem firsts_snoc_of_notMem (l : List α) (x : α) (h : key x ∉ l.map key) :
    firsts key (l ++ [x]) = firsts key l ++ [x] := by
  rw [firsts_snoc, if_pos h]

theorem mem_map_firsts (l : List α) (k : β) : k ∈ (firsts key l).map key ↔ k ∈ l.map key := by
  induction l using List.reverseRecOn with
  | nil => exact Iff.rfl
  | append_singleton l x ih =>
      by_cases hx : key x ∈ l.map key
      · -- A repeated key adds nothing that the list did not already carry.
        rw [firsts_snoc_of_mem key l x hx, ih, List.map_append, List.map_singleton,
          List.mem_append, List.mem_singleton]
        constructor
        · exact Or.inl
        · rintro (h | rfl)
          · exact h
          · exact hx
      · rw [firsts_snoc_of_notMem key l x hx, List.map_append, List.map_append, List.mem_append,
          List.mem_append, ih]

theorem firsts_nodup (l : List α) : ((firsts key l).map key).Nodup := by
  induction l using List.reverseRecOn with
  | nil => exact List.nodup_nil
  | append_singleton l x ih =>
      by_cases hx : key x ∈ l.map key
      · rw [firsts_snoc_of_mem key l x hx]
        exact ih
      · rw [firsts_snoc_of_notMem key l x hx, List.map_append, List.map_singleton,
          ← List.concat_eq_append, List.nodup_concat]
        exact ⟨fun h => hx ((mem_map_firsts key l _).mp h), ih⟩

/-- There are as many first occurrences as distinct keys. -/
theorem firsts_length (l : List α) : (firsts key l).length = (l.map key).toFinset.card := by
  -- Counting distinct keys does not see the repetitions.
  have hset : ((firsts key l).map key).toFinset = (l.map key).toFinset := by
    ext k
    rw [List.mem_toFinset, List.mem_toFinset, mem_map_firsts]
  rw [← hset, List.toFinset_card_of_nodup (firsts_nodup key l), List.length_map]

theorem firsts_ne_nil (l : List α) (h : l ≠ []) : firsts key l ≠ [] := by
  rcases List.exists_mem_of_ne_nil l h with ⟨x, hx⟩
  intro hnil
  have hkey := (mem_map_firsts key l (key x)).mpr (List.mem_map_of_mem hx)
  rw [hnil] at hkey
  exact absurd hkey List.not_mem_nil

/-- Where no key repeats, nothing is dropped. -/
theorem firsts_of_nodup (l : List α) (h : (l.map key).Nodup) : firsts key l = l := by
  induction l using List.reverseRecOn with
  | nil => rfl
  | append_singleton l x ih =>
      rw [List.map_append, List.map_singleton, ← List.concat_eq_append, List.nodup_concat] at h
      rw [firsts_snoc_of_notMem key l x h.1, ih h.2]

/-- A map that keeps the keys keeps the first occurrences. -/
theorem firsts_map (f : α → α) (hf : ∀ x, key (f x) = key x) (l : List α) :
    firsts key (l.map f) = (firsts key l).map f := by
  induction l using List.reverseRecOn with
  | nil => rfl
  | append_singleton l x ih =>
      have hkeys : (l.map f).map key = l.map key := by
        rw [List.map_map]
        exact List.map_congr_left (fun y _ => hf y)
      rw [List.map_append, List.map_singleton]
      by_cases hx : key x ∈ l.map key
      · rw [firsts_snoc_of_mem key l x hx,
          firsts_snoc_of_mem key (l.map f) (f x) (by rw [hkeys, hf]; exact hx), ih]
      · rw [firsts_snoc_of_notMem key l x hx,
          firsts_snoc_of_notMem key (l.map f) (f x) (by rw [hkeys, hf]; exact hx), ih,
          List.map_append, List.map_singleton]

end Firsts

section Consecutive

/-- The pairs of an element and its successor, in order. -/
def consecutive (l : List α) : List (α × α) := l.zip l.tail

theorem consecutive_snoc (l : List α) (x : α) :
    consecutive (l ++ [x]) = consecutive l ++ (l.getLast?.map (·, x)).toList := by
  induction l with
  | nil => rfl
  | cons y l ih =>
      cases l with
      | nil => rfl
      | cons z l =>
          -- The first pair does not see the end of the list.
          have hhead : ∀ m : List α, consecutive (y :: z :: m) = (y, z) :: consecutive (z :: m) :=
            fun _ => rfl
          rw [List.cons_append, List.cons_append, hhead, hhead, ← List.cons_append, ih,
            List.getLast?_cons_cons, List.cons_append]

theorem consecutive_map (f : α → β) (l : List α) :
    consecutive (l.map f) = (consecutive l).map (Prod.map f f) := by
  rw [consecutive, ← List.map_tail, List.zip_map, consecutive]

theorem mem_of_mem_consecutive (l : List α) (p : α × α) (h : p ∈ consecutive l) :
    p.1 ∈ l ∧ p.2 ∈ l := by
  rcases p with ⟨x, y⟩
  rcases List.of_mem_zip h with ⟨hx, hy⟩
  exact ⟨hx, List.mem_of_mem_tail hy⟩

end Consecutive

section Order

variable (key : α → Nat)

/-- The elements overtaken by an earlier element with a larger key. -/
def late (l : List α) : List α := keep (fun pre x => ∃ y ∈ pre, key x < key y) l

/-- The elements whose key exceeds every earlier one: the running maxima. -/
def records (l : List α) : List α := keep (fun pre x => ∀ y ∈ pre, key y < key x) l

/-- Among distinct keys, an element is late or a running maximum. -/
theorem late_add_records (l : List α) (hnodup : (l.map key).Nodup) :
    (late key l).length + (records key l).length = l.length := by
  refine keep_length_compl _ _ l (fun pre x hpre => ?_)
  -- Distinct keys turn the failure of one strict comparison into the other.
  have hne : ∀ y ∈ pre, key y ≠ key x := by
    have hsub := hnodup.sublist (hpre.sublist.map key)
    rw [List.map_append, List.map_singleton, ← List.concat_eq_append, List.nodup_concat] at hsub
    intro y hy heq
    exact hsub.1 (heq ▸ List.mem_map_of_mem hy)
  constructor
  · rintro hall ⟨y, hy, hlt⟩
    have := hall y hy
    omega
  · intro hnot y hy
    rcases Nat.lt_trichotomy (key y) (key x) with h | h | h
    · exact h
    · exact absurd h (hne y hy)
    · exact absurd ⟨y, hy, h⟩ hnot

/-- Nothing is late exactly when the keys increase. -/
theorem late_length_eq_zero_iff (l : List α) (hnodup : (l.map key).Nodup) :
    (late key l).length = 0 ↔ (l.map key).Pairwise (· < ·) := by
  induction l using List.reverseRecOn with
  | nil => exact ⟨fun _ => List.Pairwise.nil, fun _ => rfl⟩
  | append_singleton l x ih =>
      rw [List.map_append, List.map_singleton, ← List.concat_eq_append, List.nodup_concat] at hnodup
      have hrec := ih hnodup.2
      rw [late, keep_snoc, List.length_append, Nat.add_eq_zero_iff, ← late, hrec, List.map_append,
        List.map_singleton, List.pairwise_append]
      constructor
      · rintro ⟨hpair, hx⟩
        refine ⟨hpair, List.pairwise_singleton _ _, ?_⟩
        intro k hk k' hk'
        rw [List.mem_singleton] at hk'
        rcases List.mem_map.mp hk with ⟨y, hy, rfl⟩
        rw [hk']
        -- The new key is neither overtaken nor a repetition.
        by_contra hlt
        have hne : key y ≠ key x := fun h => hnodup.1 (h ▸ hk)
        rw [if_pos ⟨y, hy, by omega⟩] at hx
        exact absurd hx (by simp only [List.length_singleton, one_ne_zero, not_false_eq_true])
      · rintro ⟨hpair, -, hlt⟩
        refine ⟨hpair, ?_⟩
        rw [if_neg, List.length_nil]
        rintro ⟨y, hy, hyx⟩
        have := hlt (key y) (List.mem_map_of_mem hy) (key x) (List.mem_singleton_self _)
        omega

end Order

end History

end ProxyPen
