import ProxyPen.Theory.PressProgress

/-!
# Printed Errors of a Press Run

The error section of a printed result. Two bounds meet in it: a run keeps the
messages of its first fifty failures, and the printed result lists twenty of
those and announces the rest. The rest is counted among the messages that were
kept, not among the failures, so the section accounts for every failure only
while all of their messages are kept.

## Main definitions

* `listed`, `announced`: What an error section says.

## Theorems

* `errorLines_account`: A section accounts for the messages of its result.
* `printed_errors_account_iff`: When it accounts for all failures.
-/

namespace ProxyPen

namespace Press

open Machine

/-- The messages a section lists. -/
def listed : List ErrorLine → Nat
  | [] => 0
  | .error _ :: lines => listed lines + 1
  | .more _ :: lines => listed lines

/-- The messages a section announces without listing them. -/
def announced : List ErrorLine → Nat
  | [] => 0
  | .error _ :: lines => announced lines
  | .more k :: lines => announced lines + k

/-- From index `i` on, `total - i` messages are left to account for. -/
theorem errorLinesFrom_account (total i : Nat) (errors : List String) (hi : i ≤ maxPrinted)
    (htotal : i + errors.length = total) :
    listed (errorLinesFrom total i errors) + announced (errorLinesFrom total i errors)
      = total - i := by
  induction errors generalizing i with
  | nil =>
      rw [List.length_nil] at htotal
      rw [errorLinesFrom, listed, announced]
      omega
  | cons err rest ih =>
      rw [List.length_cons] at htotal
      unfold errorLinesFrom
      by_cases hfull : i ≥ maxPrinted
      · -- The rest is announced, this message included.
        have hi' : i = maxPrinted := Nat.le_antisymm hi hfull
        rw [if_pos hfull, listed, listed, announced, announced, hi', Nat.zero_add]
        omega
      · have hrest := ih (i + 1) (by omega) (by omega)
        rw [if_neg hfull, listed, announced]
        omega

section

variable {F : Type}

theorem errorLines_account (r : PressResult F) :
    listed r.errorLines + announced r.errorLines = r.errors.length := by
  have h := errorLinesFrom_account r.errors.length 0 r.errors (Nat.zero_le _) (Nat.zero_add _)
  rw [PressResult.errorLines, h, Nat.sub_zero]

variable [LinearOrder F] [Millis F]

/-- The failures of a run are those of its tests. -/
theorem errorCount_eq_failures {n : Nat} {results : Fin n → TestResult} {s : State F n}
    (h : Settled results s) : s.errorCount = (failures results).length := by
  have hcard : (failures results : Multiset String).card = s.errorCount := by
    rw [coe_failures, h.error]
    exact card_posts false 3 (by omega) _
  rw [← hcard, Multiset.coe_card]

/-- The error section of a finished run accounts for as many failures as
    messages are kept. -/
theorem errorLines_of_settled {n : Nat} {results : Fin n → TestResult} {s : State F n}
    (h : Settled results s) (protocol : PressProtocol) (elapsed : Nat) :
    listed (s.result protocol elapsed).errorLines + announced (s.result protocol elapsed).errorLines
      = min (failures results).length maxErrors := by
  rw [errorLines_account, (exact_of_settled h protocol elapsed).errors_length]
  show min s.errorCount 50 = _
  rw [errorCount_eq_failures h, maxErrors]

/-- For every finished run: the lines listed and the number announced add up to
    the failures, exactly where at most fifty tests have failed. -/
theorem printed_errors_account_iff (opts : PressOptions)
    (results : Fin opts.numRequests → TestResult) (s : State F opts.numRequests) (elapsed : Nat)
    (hr : Reachable (step results) (State.init F _ opts.concurrency) s) (hawaited : s.Awaited) :
    listed (s.result opts.protocol elapsed).errorLines
        + announced (s.result opts.protocol elapsed).errorLines
      = (s.result opts.protocol elapsed).errorCount ↔ (failures results).length ≤ 50 := by
  have h := settled_of_awaited (pressInv_of_reachable hr) hawaited
  rw [errorLines_of_settled h]
  show min _ maxErrors = s.errorCount ↔ _
  rw [errorCount_eq_failures h, maxErrors]
  omega

end

theorem printed_errors_account_two :
    ∃ s : State ℚ 2, Reachable (step twoResults) (State.init ℚ 2 1) s ∧ s.Awaited ∧
      listed (s.result .http1 0).errorLines + announced (s.result .http1 0).errorLines
        = (s.result .http1 0).errorCount := by
  rcases exists_awaited (F := ℚ) (c := 1) twoResults (by omega) with ⟨s, hr, hawaited⟩
  refine ⟨s, hr, hawaited, ?_⟩
  exact (printed_errors_account_iff ⟨.http1, 1, 2⟩ twoResults s 0 hr hawaited).mpr (by decide)

/-- Every one of 51 requests times out. -/
def allTimeOut : Fin 51 → TestResult := fun _ => ⟨.failed "timeout", 0, 0⟩

/-- The printed result lists 20 of the 51 failures and announces 30 more. -/
theorem fifty_one_failures_printed :
    ∃ s : State ℚ 51, Reachable (step allTimeOut) (State.init ℚ 51 10) s ∧ s.Awaited ∧
      (s.result .http1 0).errorCount = 51 ∧
      listed (s.result .http1 0).errorLines + announced (s.result .http1 0).errorLines
        ≠ (s.result .http1 0).errorCount := by
  rcases exists_awaited (F := ℚ) (c := 10) allTimeOut (by omega) with ⟨s, hr, hawaited⟩
  have h := settled_of_awaited (pressInv_of_reachable hr) hawaited
  have hlength : (failures allTimeOut).length = 51 := by decide
  have hcount : (s.result .http1 0).errorCount = 51 := (errorCount_eq_failures h).trans hlength
  refine ⟨s, hr, hawaited, hcount, ?_⟩
  rw [errorLines_of_settled h, hlength, hcount]
  decide

end Press

end ProxyPen
