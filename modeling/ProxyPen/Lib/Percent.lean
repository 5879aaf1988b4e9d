import Mathlib.Data.List.Basic

/-!
# Percent-Encoding

Text in which every character outside a set is replaced by the hexadecimal
values of its bytes, each behind a percent sign. The set is a parameter: what
may stay differs between the parts of a URL.

## Main definitions

* `percentByte`: A byte behind a percent sign.
* `percentEncode`: The encoding of a string.

## Theorems

* `percentEncode_eq_self_iff`: The strings that encode to themselves.
* `percentEncode_eq_empty_iff`: Only the empty string encodes to nothing.
-/

namespace ProxyPen

namespace Percent

/-- A byte as two hexadecimal digits behind a percent sign. -/
def percentByte (b : UInt8) : List Char :=
  ['%', (Nat.digitChar (b.toNat / 16)).toUpper, (Nat.digitChar (b.toNat % 16)).toUpper]

variable (keep : Char → Bool)

def percentChar (c : Char) : List Char :=
  if keep c then [c] else (String.utf8EncodeChar c).flatMap percentByte

/-- Replace the characters that may not stay. -/
def percentEncode (s : String) : String := String.ofList (s.toList.flatMap (percentChar keep))

/-- A character that is replaced takes at least three. -/
theorem length_percentChar (c : Char) :
    (keep c = true ∧ percentChar keep c = [c]) ∨
      (keep c = false ∧ 3 ≤ (percentChar keep c).length) := by
  unfold percentChar
  by_cases hkeep : keep c = true
  · left
    exact ⟨hkeep, if_pos hkeep⟩
  · right
    refine ⟨Bool.not_eq_true _ ▸ hkeep, ?_⟩
    rw [if_neg hkeep]
    rcases hbytes : String.utf8EncodeChar c with _ | ⟨b, bs⟩
    · exact absurd hbytes String.utf8EncodeChar_ne_nil
    · rw [List.flatMap_cons, List.length_append]
      exact Nat.le_add_right 3 _

theorem length_le_flatMap (cs : List Char) : cs.length ≤ (cs.flatMap (percentChar keep)).length := by
  induction cs with
  | nil => exact Nat.le_refl _
  | cons c cs ih =>
      rw [List.flatMap_cons, List.length_append, List.length_cons]
      rcases length_percentChar keep c with ⟨-, hc⟩ | ⟨-, hc⟩
      · rw [hc, List.length_singleton]
        omega
      · omega

variable {keep}

theorem flatMap_eq_self_iff (cs : List Char) :
    cs.flatMap (percentChar keep) = cs ↔ ∀ c ∈ cs, keep c = true := by
  induction cs with
  | nil => exact ⟨fun _ c hc => absurd hc List.not_mem_nil, fun _ => rfl⟩
  | cons c cs ih =>
      rw [List.flatMap_cons, List.forall_mem_cons]
      rcases length_percentChar keep c with ⟨hkeep, hc⟩ | ⟨hdrop, hc⟩
      · rw [hc, List.singleton_append, List.cons.injEq, ih]
        exact ⟨fun h => ⟨hkeep, h.2⟩, fun h => ⟨rfl, h.2⟩⟩
      · -- The encoding is longer than the text.
        constructor
        · intro h
          have hlen := congrArg List.length h
          have hrest := length_le_flatMap keep cs
          rw [List.length_append, List.length_cons] at hlen
          omega
        · intro h
          rw [hdrop] at h
          exact absurd h.1 (by decide)

/-- A string encodes to itself exactly where all of its characters may stay. -/
theorem percentEncode_eq_self_iff (s : String) :
    percentEncode keep s = s ↔ ∀ c ∈ s.toList, keep c = true := by
  rw [← flatMap_eq_self_iff, percentEncode]
  constructor
  · intro h
    have hlist := congrArg String.toList h
    rwa [String.toList_ofList] at hlist
  · intro h
    rw [h, String.ofList_toList]

theorem percentEncode_eq_empty_iff (s : String) : percentEncode keep s = "" ↔ s = "" := by
  constructor
  · intro h
    have hlen := length_le_flatMap keep s.toList
    rw [percentEncode, String.ofList_eq_empty_iff] at h
    rw [h, List.length_nil] at hlen
    exact String.toList_eq_nil_iff.mp (List.length_eq_zero_iff.mp (Nat.le_zero.mp hlen))
  · intro h
    rw [h]
    rfl

end Percent

end ProxyPen
