import ProxyPen.Core.Press
import ProxyPen.Lib.Ledger
import ProxyPen.Lib.Machine

/-!
# Accounting of a Press Run

Six cells are written by all tasks, each under its own lock, so between two
operations they disagree with each other. They agree with the tasks all the
same: what a task has written to a cell is determined by where it stands, and
a cell is the sum over the tasks. When every task has finished, that sum no
longer depends on the schedule. A task whose test panics writes nothing.

## Main definitions

* `TaskPc.rank`: How far a task has come.
* `posted`, `written`: What a task has written to a cell.
* `PressInv`: The invariant of a press run.
* `failures`: The messages of the failed tests.

## Theorems

* `taskMove_of_step`: What an operation of a task does to every cell.
* `pressInv_of_reachable`: The invariant holds in every reachable state.
* `press_accounting`: Every run counts every request exactly once.
-/

namespace ProxyPen

namespace Press

open Ledger Machine

/-! ## What a task has written -/

/-- How far a task has come. The two branches share their ranks. -/
@[simp] def TaskPc.rank : TaskPc → Nat
  | .acquire => 0
  | .test => 1
  | .pushTtfb => 2
  | .pushTotal => 3
  | .countSuccess => 4
  | .countError => 2
  | .pushError => 3
  | .release => 5
  | .finished => 6

def TestResult.succeeded (r : TestResult) : Bool :=
  match r.status with
  | .success => true
  | .failed _ => false

/-- The text of a failure. -/
def TestResult.message (r : TestResult) : String :=
  match r.status with
  | .success => ""
  | .failed err => err

/-- A task is in the branch its result selects, and in neither after a panic. -/
@[simp] def Fits : Option TestResult → TaskPc → Prop
  | some r, .pushTtfb => r.succeeded = true
  | some r, .pushTotal => r.succeeded = true
  | some r, .countSuccess => r.succeeded = true
  | some r, .countError => r.succeeded = false
  | some r, .pushError => r.succeeded = false
  | _, .acquire => True
  | _, .test => True
  | _, .release => True
  | _, .finished => True
  | none, _ => False

/-- What a task has written to a cell: the value, once the task is past the
    operation of that rank in the right branch. -/
@[simp] def posted {M : Type} [Zero M] (branch : Bool) (rank : Nat) (value : M) (r : TestResult)
    (pc : TaskPc) : M :=
  if r.succeeded = branch ∧ rank < pc.rank then value else 0

/-- What a task has written to a cell, if its test has not panicked. -/
def written {M : Type} [Zero M] (cell : TestResult → TaskPc → M) :
    Option TestResult → TaskPc → M
  | some r, pc => cell r pc
  | none, _ => 0

section

variable {M : Type} [Zero M] (cell : TestResult → TaskPc → M)

@[simp] theorem written_some (r : TestResult) (pc : TaskPc) :
    written cell (some r) pc = cell r pc := rfl

@[simp] theorem written_none (pc : TaskPc) : written cell none pc = 0 := rfl

/-- A task that has not begun has written nothing. -/
theorem written_acquire (hcell : ∀ r, cell r .acquire = 0) (ending : Option TestResult) :
    written cell ending .acquire = 0 := by
  cases ending with
  | none => rfl
  | some r => exact hcell r

end

/-- The permits a task holds. -/
@[simp] def held (pc : TaskPc) : Nat := if pc.holdsPermit then 1 else 0

section

variable {F : Type} [LinearOrder F] [Millis F] {n : Nat}

/-- The five cells of a task, as functions of where it stands. -/
@[simp] def ttfbOf (r : TestResult) : TaskPc → Multiset F :=
  posted true 2 {Millis.ofDuration r.firstByte} r

@[simp] def totalOf (r : TestResult) : TaskPc → Multiset F :=
  posted true 3 {Millis.ofDuration r.total} r

@[simp] def successOf (r : TestResult) : TaskPc → Nat := posted true 4 1 r

@[simp] def errorOf (r : TestResult) : TaskPc → Nat := posted false 2 1 r

@[simp] def messageOf (r : TestResult) : TaskPc → Multiset String := posted false 3 {r.message} r

/-- What an operation of task `i` does: the task moves on, and every cell
    changes by what the task has written. -/
structure TaskMove (ending : Option TestResult) (s s' : State F n) (i : Fin n) (q : TaskPc) :
    Prop where
  pc : s'.pc = Function.update s.pc i q
  main : s'.spawned = s.spawned ∧ s'.awaited = s.awaited
  unfinished : s.pc i ≠ .finished
  fits : Fits ending q
  permits : s'.permits + held q = s.permits + held (s.pc i)
  ttfb : (s'.ttfbSamples : Multiset F) + written ttfbOf ending (s.pc i)
    = (s.ttfbSamples : Multiset F) + written ttfbOf ending q
  total : (s'.totalSamples : Multiset F) + written totalOf ending (s.pc i)
    = (s.totalSamples : Multiset F) + written totalOf ending q
  success : s'.successCount + written successOf ending (s.pc i)
    = s.successCount + written successOf ending q
  error : s'.errorCount + written errorOf ending (s.pc i)
    = s.errorCount + written errorOf ending q
  errors : (s'.errors = s.errors ∧
      written messageOf ending q = written messageOf ending (s.pc i)) ∨
    ∃ err, s'.errors = keepError s.errors err ∧
      written messageOf ending q = written messageOf ending (s.pc i) + {err}

/-- A panic takes a task from its test to the end, past every cell. -/
theorem taskMove_of_panic {s s' : State F n} {i : Fin n} (h : taskStep none s i = some s') :
    ∃ q, TaskMove none s s' i q := by
  unfold taskStep at h
  rcases hpc : s.pc i with _ | _ | _ | _ | _ | _ | _ | _ | _
  all_goals simp only [hpc] at h
  case acquire =>
    rw [Option.ite_none_right_eq_some, Option.some.injEq] at h
    rcases h with ⟨hfree, rfl⟩
    refine ⟨.test, ?_⟩
    constructor <;> simp [State.goto, TaskPc.holdsPermit, hpc]
    omega
  case test =>
    rw [Option.some.injEq] at h
    subst h
    refine ⟨.release, ?_⟩
    constructor <;> simp [State.goto, TaskPc.holdsPermit, hpc]
  case release =>
    rw [Option.some.injEq] at h
    subst h
    refine ⟨.finished, ?_⟩
    constructor <;> simp [State.goto, TaskPc.holdsPermit, hpc]
  all_goals cases h

theorem taskMove_of_returned {r : TestResult} {s s' : State F n} {i : Fin n}
    (hfits : Fits (some r) (s.pc i)) (h : taskStep (some r) s i = some s') :
    ∃ q, TaskMove (some r) s s' i q := by
  unfold taskStep at h
  -- One case per operation. Each writes to at most one cell, and moves the task past it.
  rcases hpc : s.pc i with _ | _ | _ | _ | _ | _ | _ | _ | _
  all_goals simp only [hpc] at h hfits
  case acquire =>
    by_cases hfree : 0 < s.permits
    · rw [if_pos hfree, Option.some.injEq] at h
      subst h
      refine ⟨.test, ?_⟩
      constructor <;> simp [State.goto, TaskPc.holdsPermit, hpc]
      omega
    · rw [if_neg hfree] at h
      exact absurd h (by simp only [reduceCtorEq, not_false_eq_true])
  case test =>
    rcases hstatus : r.status with _ | err
    · simp only [hstatus, Option.some.injEq] at h
      subst h
      refine ⟨.pushTtfb, ?_⟩
      constructor <;> simp [State.goto, TaskPc.holdsPermit, TestResult.succeeded, hpc, hstatus]
    · simp only [hstatus, Option.some.injEq] at h
      subst h
      refine ⟨.countError, ?_⟩
      constructor <;> simp [State.goto, TaskPc.holdsPermit, TestResult.succeeded, hpc, hstatus]
  case pushTtfb =>
    rw [Option.some.injEq] at h
    subst h
    refine ⟨.pushTotal, ?_⟩
    constructor <;>
      simp [State.goto, TaskPc.holdsPermit, hpc, show r.succeeded = true from hfits,
        ← Multiset.coe_add]
  case pushTotal =>
    rw [Option.some.injEq] at h
    subst h
    refine ⟨.countSuccess, ?_⟩
    constructor <;>
      simp [State.goto, TaskPc.holdsPermit, hpc, show r.succeeded = true from hfits,
        ← Multiset.coe_add]
  case countSuccess =>
    rw [Option.some.injEq] at h
    subst h
    refine ⟨.release, ?_⟩
    constructor <;>
      simp [State.goto, TaskPc.holdsPermit, hpc, show r.succeeded = true from hfits]
  case countError =>
    rw [Option.some.injEq] at h
    subst h
    refine ⟨.pushError, ?_⟩
    constructor <;>
      simp [State.goto, TaskPc.holdsPermit, hpc, show r.succeeded = false from hfits]
  case pushError =>
    rcases hstatus : r.status with _ | err
    · simp only [hstatus] at h
      exact absurd h (by simp only [reduceCtorEq, not_false_eq_true])
    · simp only [hstatus, Option.some.injEq] at h
      subst h
      have hfailed : r.succeeded = false := hfits
      have hmessage : r.message = err := by rw [TestResult.message, hstatus]
      refine ⟨.release, ?_⟩
      constructor
      case errors => exact Or.inr ⟨err, rfl, by simp [hpc, hfailed, hmessage]⟩
      all_goals simp [State.goto, TaskPc.holdsPermit, hpc, hfailed]
  case release =>
    rw [Option.some.injEq] at h
    subst h
    refine ⟨.finished, ?_⟩
    constructor <;> simp [State.goto, TaskPc.holdsPermit, hpc]
  case finished => exact absurd h (by simp only [reduceCtorEq, not_false_eq_true])

theorem taskMove_of_step {ending : Option TestResult} {s s' : State F n} {i : Fin n}
    (hfits : Fits ending (s.pc i)) (h : taskStep ending s i = some s') :
    ∃ q, TaskMove ending s s' i q := by
  cases ending with
  | none => exact taskMove_of_panic h
  | some r => exact taskMove_of_returned hfits h

/-! ## The invariant -/

/-- Every cell is the sum of what the tasks have written to it. -/
structure PressInv (endings : Fin n → Option TestResult) (c : Nat) (s : State F n) : Prop where
  fits : ∀ i, Fits (endings i) (s.pc i)
  permits : s.permits + ∑ i, held (s.pc i) = c
  ttfb : (s.ttfbSamples : Multiset F) = ∑ i, written ttfbOf (endings i) (s.pc i)
  total : (s.totalSamples : Multiset F) = ∑ i, written totalOf (endings i) (s.pc i)
  success : s.successCount = ∑ i, written successOf (endings i) (s.pc i)
  error : s.errorCount = ∑ i, written errorOf (endings i) (s.pc i)
  errors : Capped maxErrors s.errors (∑ i, written messageOf (endings i) (s.pc i))
  awaited : ∀ i : Fin n, i.val < s.awaited → s.pc i = .finished

variable {endings : Fin n → Option TestResult} {results : Fin n → TestResult} {c : Nat}

theorem pressInv_init : PressInv endings c (State.init F n c) := by
  constructor
  case fits =>
    intro i
    cases endings i <;> trivial
  case awaited =>
    intro i hi
    exact absurd hi (Nat.not_lt_zero _)
  case errors =>
    constructor <;> simp [State.init, written_acquire]
  all_goals simp [State.init, TaskPc.holdsPermit, written_acquire]

/-- One task moves: every sum changes in one place. -/
theorem pressInv_task {s s' : State F n} {i : Fin n} {q : TaskPc} (hinv : PressInv endings c s)
    (hmove : TaskMove (endings i) s s' i q) : PressInv endings c s' := by
  constructor
  case fits =>
    intro j
    rw [hmove.pc]
    by_cases hj : j = i
    · rw [hj, Function.update_self]
      exact hmove.fits
    · rw [Function.update_of_ne hj]
      exact hinv.fits j
  case permits =>
    have hsum := sum_update (fun _ => held) s.pc i q
    have hperm := hmove.permits
    have hc := hinv.permits
    rw [hmove.pc]
    omega
  case ttfb =>
    rw [hmove.pc]
    exact posted_update (fun j => written ttfbOf (endings j)) s.pc i q _ _ hinv.ttfb hmove.ttfb
  case total =>
    rw [hmove.pc]
    exact posted_update (fun j => written totalOf (endings j)) s.pc i q _ _ hinv.total hmove.total
  case success =>
    rw [hmove.pc]
    exact posted_update (fun j => written successOf (endings j)) s.pc i q _ _ hinv.success
      hmove.success
  case error =>
    rw [hmove.pc]
    exact posted_update (fun j => written errorOf (endings j)) s.pc i q _ _ hinv.error hmove.error
  case errors =>
    rw [hmove.pc]
    rcases hmove.errors with ⟨herrors, hmsg⟩ | ⟨err, herrors, hmsg⟩
    · rw [herrors, ← posted_update (fun j => written messageOf (endings j)) s.pc i q _ _ rfl
        (by rw [hmsg])]
      exact hinv.errors
    · rw [herrors, ← posted_update (fun j => written messageOf (endings j)) s.pc i q _
        (∑ j, written messageOf (endings j) (s.pc j) + {err}) rfl
        (by rw [hmsg, ← add_assoc, add_right_comm])]
      exact hinv.errors.keep err
  case awaited =>
    intro j hj
    rw [hmove.main.2] at hj
    have hfin := hinv.awaited j hj
    have hne : j ≠ i := by
      intro hc
      rw [hc] at hfin
      exact hmove.unfinished hfin
    rw [hmove.pc, Function.update_of_ne hne]
    exact hfin

theorem pressInv_step {s s' : State F n} {e : Event n} (h : stepEnding endings s e = some s')
    (hinv : PressInv endings c s) : PressInv endings c s' := by
  rcases e with _ | _ | i
  · rw [stepEnding] at h
    by_cases hmore : s.spawned < n
    · rw [if_pos hmore, Option.some.injEq] at h
      subst h
      exact ⟨hinv.fits, hinv.permits, hinv.ttfb, hinv.total, hinv.success, hinv.error, hinv.errors,
        hinv.awaited⟩
    · rw [if_neg hmore] at h
      exact absurd h (by simp only [reduceCtorEq, not_false_eq_true])
  · rw [stepEnding] at h
    split_ifs at h with hready hfin
    rw [Option.some.injEq] at h
    subst h
    refine ⟨hinv.fits, hinv.permits, hinv.ttfb, hinv.total, hinv.success, hinv.error, hinv.errors,
      ?_⟩
    intro i hi
    -- The handle that returned belongs to the task that has just been found finished.
    by_cases hlast : i.val = s.awaited
    · have hi' : i = ⟨s.awaited, hready.2⟩ := Fin.ext hlast
      rw [hi']
      exact hfin
    · exact hinv.awaited i (by simp only at hi; omega)
  · rw [stepEnding] at h
    by_cases hspawned : i.val < s.spawned
    · rw [if_pos hspawned] at h
      rcases taskMove_of_step (hinv.fits i) h with ⟨q, hmove⟩
      exact pressInv_task hinv hmove
    · rw [if_neg hspawned] at h
      exact absurd h (by simp only [reduceCtorEq, not_false_eq_true])

theorem pressInv_of_reachable {s : State F n}
    (h : Reachable (stepEnding endings) (State.init F n c) s) : PressInv endings c s :=
  reachable_invariant _ (fun _ _ _ hstep hinv => pressInv_step hstep hinv) _ s h pressInv_init

/-! ## Finished runs -/

theorem finished_of_awaited {s : State F n} (hinv : PressInv endings c s) (h : s.Awaited) :
    s.pc = fun _ => .finished := by
  funext i
  exact hinv.awaited i (by rw [h]; exact i.isLt)

/-- The requests whose test has ended with a result that takes a branch. -/
def counted (endings : Fin n → Option TestResult) (branch : Bool) : Finset (Fin n) :=
  Finset.univ.filter (fun i => (endings i).map TestResult.succeeded = some branch)

theorem counted_some (results : Fin n → TestResult) (branch : Bool) :
    counted (fun i => some (results i)) branch
      = Finset.univ.filter (fun i => (results i).succeeded = branch) := by
  simp [counted]

/-- A result takes one of the branches. -/
theorem eq_none_of_not_counted {i : Fin n} (htrue : i ∉ counted endings true)
    (hfalse : i ∉ counted endings false) : endings i = none := by
  cases hending : endings i with
  | none => rfl
  | some r =>
      cases hbranch : r.succeeded with
      | true => simp [counted, hending, hbranch] at htrue
      | false => simp [counted, hending, hbranch] at hfalse

/-- Once all tasks have finished, a counter has counted each that took its
    branch, and none whose test has panicked. -/
theorem sum_written (cell : TestResult → TaskPc → Nat) (branch : Bool) (rank : Nat)
    (hrank : rank < 6) (hcell : ∀ r pc, cell r pc = posted branch rank 1 r pc) :
    ∑ i, written cell (endings i) .finished = (counted endings branch).card := by
  rw [counted, Finset.card_filter]
  apply Finset.sum_congr rfl
  intro i _
  cases hending : endings i with
  | none => simp
  | some r => simp [hcell, hrank]

/-- A finished run has counted the requests by how their tests have ended. -/
theorem counts_of_awaited {s : State F n} (hinv : PressInv endings c s) (h : s.Awaited) :
    s.successCount = (counted endings true).card ∧
      s.errorCount = (counted endings false).card := by
  have hfin := finished_of_awaited hinv h
  have hsuccess := hinv.success
  have herror := hinv.error
  simp only [hfin] at hsuccess herror
  exact ⟨hsuccess.trans (sum_written _ true 4 (by omega) (fun _ _ => rfl)),
    herror.trans (sum_written _ false 2 (by omega) (fun _ _ => rfl))⟩

theorem fromSortedMs_sampleCount (samples : List F) :
    (LatencyStats.fromSortedMs samples).sampleCount = samples.length := by
  unfold LatencyStats.fromSortedMs
  by_cases hempty : samples.isEmpty = true
  · rw [if_pos hempty, List.isEmpty_iff.mp hempty]
    rfl
  · rw [if_neg hempty]

omit [Millis F] in
/-- Sorting forgets the order of the samples. -/
theorem sortMs_eq_of_perm {xs ys : List F} (h : xs.Perm ys) : sortMs xs = sortMs ys := by
  have hperm : (sortMs xs).Perm (sortMs ys) :=
    (List.mergeSort_perm xs _).trans (h.trans (List.mergeSort_perm ys _).symm)
  exact hperm.eq_of_pairwise' (List.pairwise_mergeSort' (· ≤ ·) xs)
    (List.pairwise_mergeSort' (· ≤ ·) ys)

/-- The messages of the failed tests. -/
def failures (results : Fin n → TestResult) : List String :=
  (List.finRange n).filterMap (fun i => match (results i).status with
    | .success => none
    | .failed err => some err)

theorem coe_failures (results : Fin n → TestResult) :
    (failures results : Multiset String) = ∑ i, messageOf (results i) .finished := by
  rw [Fin.sum_univ_def, failures]
  induction List.finRange n with
  | nil => rfl
  | cons i is ih =>
      rw [List.filterMap_cons, List.map_cons, List.sum_cons, ← ih]
      rcases hstatus : (results i).status with _ | err
      · simp [TestResult.succeeded, hstatus]
      · simp [TestResult.succeeded, TestResult.message, hstatus]

/-- The numbers of a result add up. -/
structure Exact (results : Fin n → TestResult) (r : PressResult F) : Prop where
  counts : r.successCount + r.errorCount = n
  ttfb : r.ttfb.sampleCount = r.successCount
  totalTime : r.totalTime.sampleCount = r.successCount
  errors_length : r.errors.length = min r.errorCount 50
  errors_le : (r.errors : Multiset String) ≤ failures results

/-- The tasks that took a branch. -/
def takers (results : Fin n → TestResult) (branch : Bool) : Nat :=
  ∑ i, posted branch 0 1 (results i) .finished

/-- Once all tasks have finished, a cell has one entry for each that took its
    branch, whichever operation of the branch writes to it. -/
theorem card_posts {α : Type} (branch : Bool) (rank : Nat) (hrank : rank < 6) (value : Fin n → α) :
    (∑ i, posted branch rank ({value i} : Multiset α) (results i) .finished).card
      = takers results branch := by
  rw [Multiset.card_sum, takers]
  apply Finset.sum_congr rfl
  intro i _
  by_cases hb : (results i).succeeded = branch
  · simp [hb, hrank]
  · simp [hb]

theorem takers_add (results : Fin n → TestResult) :
    takers results true + takers results false = n := by
  -- Every test has one of the two results.
  have hone : ∀ i, posted true 0 1 (results i) .finished + posted false 0 1 (results i) .finished
      = 1 := by
    intro i
    rcases hb : (results i).succeeded with _ | _ <;> simp [hb]
  rw [takers, takers, ← Finset.sum_add_distrib, Finset.sum_congr rfl (fun i _ => hone i),
    Finset.sum_const, Finset.card_univ, Fintype.card_fin, smul_eq_mul, Nat.mul_one]

/-- The cells of a finished run. -/
structure Settled (results : Fin n → TestResult) (s : State F n) : Prop where
  ttfb : (s.ttfbSamples : Multiset F) = ∑ i, ttfbOf (results i) .finished
  total : (s.totalSamples : Multiset F) = ∑ i, totalOf (results i) .finished
  success : s.successCount = takers results true
  error : s.errorCount = takers results false
  errors : Capped maxErrors s.errors (failures results)

theorem settled_of_awaited {s : State F n} (hinv : PressInv (fun i => some (results i)) c s)
    (h : s.Awaited) : Settled results s := by
  have hfin := finished_of_awaited hinv h
  rcases hinv with ⟨-, -, httfb, htotal, hsuccess, herror, herrors, -⟩
  simp only [hfin, written_some] at httfb htotal hsuccess herror herrors
  rw [← coe_failures] at herrors
  refine ⟨httfb, htotal, ?_, ?_, herrors⟩
  · rw [hsuccess, takers]
    simp
  · rw [herror, takers]
    simp

theorem exact_of_settled {s : State F n} (h : Settled results s) (protocol : PressProtocol)
    (elapsed : Nat) : Exact results (s.result protocol elapsed) := by
  have hlen : ∀ (samples : List F) (rank : Nat) (value : Fin n → F), rank < 6 →
      (samples : Multiset F) = ∑ i, posted true rank {value i} (results i) .finished →
        (LatencyStats.fromSortedMs (sortMs samples)).sampleCount = s.successCount := by
    intro samples rank value hrank hsamples
    have hcard := congrArg Multiset.card hsamples
    rw [card_posts true rank hrank value, Multiset.coe_card] at hcard
    rw [fromSortedMs_sampleCount, sortMs, List.length_mergeSort, hcard, h.success]
  constructor
  case counts =>
    show s.successCount + s.errorCount = n
    rw [h.success, h.error, takers_add]
  case ttfb => exact hlen s.ttfbSamples 2 _ (by omega) h.ttfb
  case totalTime => exact hlen s.totalSamples 3 _ (by omega) h.total
  case errors_length =>
    have hcard : (failures results : Multiset String).card = s.errorCount := by
      rw [coe_failures, h.error]
      exact card_posts false 3 (by omega) _
    have hkept := h.errors.1
    rw [hcard] at hkept
    exact hkept
  case errors_le => exact h.errors.2

/-- Every press run is exact, whatever the schedule. At most as many tasks as
    there are permits hold one at any time; a finished run has counted every
    request once, has one sample for each success, and has kept the messages
    of the first failures; and two finished runs over the same results agree
    on the counts and the statistics. -/
theorem press_accounting (F : Type) [LinearOrder F] [Millis F] (opts : PressOptions)
    (results : Fin opts.numRequests → TestResult) :
    (∀ s : State F _, Reachable (step results) (State.init F _ opts.concurrency) s →
      (Finset.univ.filter (fun i => (s.pc i).holdsPermit = true)).card ≤ opts.concurrency) ∧
    (∀ (s : State F _) (elapsed : Nat),
      Reachable (step results) (State.init F _ opts.concurrency) s → s.Awaited →
        Exact results (s.result opts.protocol elapsed)) ∧
    ∀ (s s' : State F _) (elapsed elapsed' : Nat),
      Reachable (step results) (State.init F _ opts.concurrency) s → s.Awaited →
      Reachable (step results) (State.init F _ opts.concurrency) s' → s'.Awaited →
        (s.result opts.protocol elapsed).successCount
            = (s'.result opts.protocol elapsed').successCount ∧
          (s.result opts.protocol elapsed).errorCount
            = (s'.result opts.protocol elapsed').errorCount ∧
          (s.result opts.protocol elapsed).ttfb = (s'.result opts.protocol elapsed').ttfb ∧
          (s.result opts.protocol elapsed).totalTime
            = (s'.result opts.protocol elapsed').totalTime := by
  refine ⟨?_, ?_, ?_⟩
  · intro s hr
    have hpermits := (pressInv_of_reachable hr).permits
    -- Each holder has one of the permits that are not available.
    have hcard : (Finset.univ.filter (fun i => (s.pc i).holdsPermit = true)).card
        = ∑ i, held (s.pc i) := by
      rw [Finset.card_filter]
      rfl
    omega
  · intro s elapsed hr hawaited
    exact exact_of_settled (settled_of_awaited (pressInv_of_reachable hr) hawaited) _ elapsed
  · intro s s' elapsed elapsed' hr hawaited hr' hawaited'
    have h := settled_of_awaited (pressInv_of_reachable hr) hawaited
    have h' := settled_of_awaited (pressInv_of_reachable hr') hawaited'
    have httfb : sortMs s.ttfbSamples = sortMs s'.ttfbSamples :=
      sortMs_eq_of_perm (Multiset.coe_eq_coe.mp (h.ttfb.trans h'.ttfb.symm))
    have htotal : sortMs s.totalSamples = sortMs s'.totalSamples :=
      sortMs_eq_of_perm (Multiset.coe_eq_coe.mp (h.total.trans h'.total.symm))
    refine ⟨h.success.trans h'.success.symm, h.error.trans h'.error.symm, ?_, ?_⟩
    · exact congrArg LatencyStats.fromSortedMs httfb
    · exact congrArg LatencyStats.fromSortedMs htotal

end

/-- A success and a failure that share one permit. -/
def twoResults : Fin 2 → TestResult := ![⟨.success, 1000000, 2000000⟩, ⟨.failed "timeout", 0, 0⟩]

/-- The second task runs first. -/
def twoSchedule : List (Event 2) :=
  [.spawn, .spawn, .task 1, .task 1, .task 1, .task 1, .task 1, .task 0, .task 0, .task 0, .task 0,
    .task 0, .task 0, .await, .await]

theorem press_accounting_two :
    ∃ s : State ℚ 2, Reachable (step twoResults) (State.init ℚ 2 1) s ∧ s.Awaited ∧
      s.successCount = 1 ∧ s.errors = ["timeout"] ∧ Exact twoResults (s.result .http1 0) := by
  have hrun : (runFrom (step twoResults) (State.init ℚ 2 1) twoSchedule).isSome = true := rfl
  have hr : Reachable (step twoResults) (State.init ℚ 2 1)
      ((runFrom (step twoResults) (State.init ℚ 2 1) twoSchedule).get hrun) :=
    ⟨twoSchedule, (Option.some_get hrun).symm⟩
  exact ⟨_, hr, rfl, rfl, rfl,
    (press_accounting ℚ ⟨.http1, 1, 2⟩ twoResults).2.1 _ 0 hr rfl⟩

end Press

end ProxyPen
