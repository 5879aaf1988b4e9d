import ProxyPen.Theory.Press

/-!
# Progress of a Press Run

When a press run can go on. A task that holds a permit can always take its
next operation, and where no task holds one all permits are there, so some
waiting task can take one, if there are any permits at all. Nothing in the
program requires that: a run with no permits and a request to make spawns its
tasks and waits for them without end.

With a permit a run ends: every operation brings some task closer to its end,
`exists_awaited`.

## Main definitions

* `Stuck`: A task is left and none can move.
* `State.remaining`: The operations left in a run.

## Theorems

* `taskStep_enabled`: When a task can move.
* `not_stuck_of_permits`: With a permit no state is stuck.
* `exists_awaited`: With a permit a run can be completed.
* `press_never_stuck_iff`: When no run gets stuck.
-/

namespace ProxyPen

namespace Press

open Ledger Machine

section

variable {F : Type} [LinearOrder F] [Millis F] {n : Nat}
  {endings : Fin n → Option TestResult} {results : Fin n → TestResult} {c : Nat}

/-- Some task has not finished, there is no task left to spawn, and no task can
    acquire a permit, run or finish. -/
def Stuck (results : Fin n → TestResult) (s : State F n) : Prop :=
  (∃ i, s.pc i ≠ .finished) ∧ step results s .spawn = none ∧
    ∀ i, step results s (.task i) = none

/-- A task can move unless it has finished, or waits for a permit that is not
    there. -/
theorem taskStep_enabled {ending : Option TestResult} {s : State F n} {i : Fin n}
    (hfits : Fits ending (s.pc i)) (hopen : s.pc i ≠ .finished)
    (hpermit : s.pc i = .acquire → 0 < s.permits) : ∃ s', taskStep ending s i = some s' := by
  unfold taskStep
  cases ending with
  | none =>
      rcases hpc : s.pc i with _ | _ | _ | _ | _ | _ | _ | _ | _
      all_goals rw [hpc] at hfits
      case acquire => exact ⟨_, if_pos (hpermit hpc)⟩
      case test => exact ⟨_, rfl⟩
      case release => exact ⟨_, rfl⟩
      case finished => exact absurd hpc hopen
      all_goals exact hfits.elim
  | some r =>
      rcases hpc : s.pc i with _ | _ | _ | _ | _ | _ | _ | _ | _
      case acquire => exact ⟨_, if_pos (hpermit hpc)⟩
      case test => rcases hstatus : r.status with _ | err <;> simp [hstatus]
      case pushError =>
        rw [hpc] at hfits
        -- Only a failed test leads here.
        rcases hstatus : r.status with _ | err
        · simp [TestResult.succeeded, hstatus] at hfits
        · simp [hstatus]
      case finished => exact absurd hpc hopen
      all_goals exact ⟨_, rfl⟩

/-- As long as a task is left, one of the tasks can move. -/
theorem exists_task_enabled {s : State F n} (hinv : PressInv endings c s) (hc : c ≠ 0)
    (hleft : ∃ i, s.pc i ≠ .finished) : ∃ i s', taskStep (endings i) s i = some s' := by
  by_cases hheld : ∃ i, s.pc i ≠ .acquire ∧ s.pc i ≠ .finished
  · rcases hheld with ⟨i, hacquire, hopen⟩
    exact ⟨i, taskStep_enabled (hinv.fits i) hopen (fun h => absurd h hacquire)⟩
  -- No task holds a permit, so all of them are there.
  have hnone : ∑ i, held (s.pc i) = 0 := by
    rw [Finset.sum_eq_zero_iff]
    intro i _
    by_cases hacquire : s.pc i = .acquire
    · rw [hacquire]
      rfl
    · have hfinished : s.pc i = .finished := by
        by_contra hopen
        exact hheld ⟨i, hacquire, hopen⟩
      rw [hfinished]
      rfl
  have hpermits := hinv.permits
  rcases hleft with ⟨i, hopen⟩
  exact ⟨i, taskStep_enabled (hinv.fits i) hopen (fun _ => by omega)⟩

theorem not_stuck_of_permits {s : State F n} (hinv : PressInv (fun i => some (results i)) c s)
    (hc : c ≠ 0) :
    ¬ Stuck results s := by
  intro h
  rcases h with ⟨hleft, hspawn, htasks⟩
  rcases exists_task_enabled hinv hc hleft with ⟨i, s', hstep⟩
  -- All tasks have been spawned, so nothing else keeps this one from moving.
  have hspawned : n ≤ s.spawned := by
    by_contra hmore
    rw [step, stepEnding, if_pos (by omega)] at hspawn
    exact absurd hspawn (by simp only [reduceCtorEq, not_false_eq_true])
  have hblocked := htasks i
  rw [step, stepEnding, if_pos (Nat.lt_of_lt_of_le i.isLt hspawned), hstep] at hblocked
  exact absurd hblocked (by simp only [reduceCtorEq, not_false_eq_true])

/-! ## Without permits -/

/-- All tasks are spawned one after the other. -/
theorem runFrom_spawns (k : Nat) (hk : k ≤ n) :
    runFrom (step results) (State.init F n c) (List.replicate k .spawn)
      = some { State.init F n c with spawned := k } := by
  induction k with
  | zero => rfl
  | succ k ih =>
      rw [List.replicate_succ', runFrom_snoc]
      refine ⟨_, ih (by omega), ?_⟩
      rw [step, stepEnding, if_pos (by simp only; omega)]

/-- Without a permit no task gets past the semaphore. -/
theorem stuck_of_no_permits (hn : n ≠ 0) :
    Stuck results { State.init F n 0 with spawned := n } := by
  refine ⟨⟨⟨0, Nat.pos_of_ne_zero hn⟩, ?_⟩, ?_, ?_⟩
  · simp only [State.init, ne_eq, reduceCtorEq, not_false_eq_true]
  · rw [step, stepEnding, if_neg (Nat.lt_irrefl n)]
  · intro i
    rw [step, stepEnding, if_pos i.isLt]
    rfl

/-- No state of any press run is stuck, exactly where there is a permit or no
    request to make. -/
theorem press_never_stuck_iff (F : Type) [LinearOrder F] [Millis F] (opts : PressOptions)
    (results : Fin opts.numRequests → TestResult) :
    (∀ s : State F _, Reachable (step results) (State.init F _ opts.concurrency) s →
      ¬ Stuck results s) ↔ (opts.concurrency ≠ 0 ∨ opts.numRequests = 0) := by
  constructor
  · intro h
    by_cases hc : opts.concurrency = 0
    · right
      by_contra hn
      refine h _ ⟨_, runFrom_spawns opts.numRequests (Nat.le_refl _)⟩ ?_
      rw [hc]
      exact stuck_of_no_permits hn
    · exact Or.inl hc
  · intro h s hr hstuck
    rcases h with hc | hn
    · exact not_stuck_of_permits (pressInv_of_reachable hr) hc hstuck
    · rcases hstuck.1 with ⟨i, -⟩
      exact absurd i.isLt (by omega)

/-- One request and no permit: the task is spawned and never runs. -/
theorem press_zero_concurrency_stuck :
    ∃ s : State ℚ 1,
      Reachable (step fun _ => ⟨.success, 0, 0⟩) (State.init ℚ 1 0) s ∧
        Stuck (fun _ => ⟨.success, 0, 0⟩) s :=
  ⟨_, ⟨_, runFrom_spawns 1 (Nat.le_refl 1)⟩, stuck_of_no_permits (by omega)⟩

/-! ## Completion -/

/-- The operations left in a run. -/
def State.remaining (s : State F n) : Nat :=
  ∑ i, (6 - (s.pc i).rank) + (n - s.spawned) + (n - s.awaited)

theorem TaskPc.rank_le (pc : TaskPc) : pc.rank ≤ 6 := by
  cases pc <;> simp

/-- An operation brings its task further. -/
theorem rank_lt_of_taskStep {ending : Option TestResult} {s s' : State F n} {i : Fin n}
    (h : taskStep ending s i = some s') :
    ∃ q, s'.pc = Function.update s.pc i q ∧ (s.pc i).rank < q.rank ∧ s'.spawned = s.spawned ∧
      s'.awaited = s.awaited := by
  cases ending with
  | none =>
      unfold taskStep at h
      rcases hpc : s.pc i with _ | _ | _ | _ | _ | _ | _ | _ | _
      all_goals simp only [hpc] at h
      case acquire =>
        rw [Option.ite_none_right_eq_some] at h
        rw [← Option.some.inj h.2]
        exact ⟨.test, rfl, by simp, rfl, rfl⟩
      case test =>
        rw [← Option.some.inj h]
        exact ⟨.release, rfl, by simp, rfl, rfl⟩
      case release =>
        rw [← Option.some.inj h]
        exact ⟨.finished, rfl, by simp, rfl, rfl⟩
      all_goals cases h
  | some r =>
      unfold taskStep at h
      rcases hpc : s.pc i with _ | _ | _ | _ | _ | _ | _ | _ | _
      all_goals simp only [hpc] at h
      case acquire =>
        rw [Option.ite_none_right_eq_some] at h
        rw [← Option.some.inj h.2]
        exact ⟨.test, rfl, by simp, rfl, rfl⟩
      case test =>
        rcases hstatus : r.status with _ | err
        · simp only [hstatus] at h
          rw [← Option.some.inj h]
          exact ⟨.pushTtfb, rfl, by simp, rfl, rfl⟩
        · simp only [hstatus] at h
          rw [← Option.some.inj h]
          exact ⟨.countError, rfl, by simp, rfl, rfl⟩
      case pushError =>
        rcases hstatus : r.status with _ | err
        · simp only [hstatus] at h
          exact absurd h (by simp only [reduceCtorEq, not_false_eq_true])
        · simp only [hstatus] at h
          rw [← Option.some.inj h]
          exact ⟨.release, rfl, by simp, rfl, rfl⟩
      case finished => exact absurd h (by simp only [reduceCtorEq, not_false_eq_true])
      all_goals
        rw [← Option.some.inj h]
        exact ⟨_, rfl, by simp, rfl, rfl⟩

theorem remaining_lt_of_taskStep {ending : Option TestResult} {s s' : State F n} {i : Fin n}
    (h : taskStep ending s i = some s') : s'.remaining < s.remaining := by
  rcases rank_lt_of_taskStep h with ⟨q, hpc, hrank, hspawned, hawaited⟩
  have hsum := sum_update (fun _ pc => 6 - pc.rank) s.pc i q
  have hq := TaskPc.rank_le q
  simp only [State.remaining, hpc, hspawned, hawaited]
  omega

/-- The counters of the spawning task stay in range. -/
structure MainInv (s : State F n) : Prop where
  spawned : s.spawned ≤ n
  awaited : s.awaited ≤ n

theorem mainInv_step {s s' : State F n} {e : Event n} (h : stepEnding endings s e = some s')
    (hinv : MainInv s) : MainInv s' := by
  rcases e with _ | _ | i
  · rw [stepEnding, Option.ite_none_right_eq_some] at h
    rw [← Option.some.inj h.2]
    exact ⟨h.1, hinv.awaited⟩
  · rw [stepEnding] at h
    split_ifs at h with hready hfin
    rw [← Option.some.inj h]
    exact ⟨hinv.spawned, hready.2⟩
  · rw [stepEnding, Option.ite_none_right_eq_some] at h
    rcases rank_lt_of_taskStep h.2 with ⟨q, -, -, hspawned, hawaited⟩
    exact ⟨hspawned ▸ hinv.spawned, hawaited ▸ hinv.awaited⟩

/-- A run that has not returned takes a step towards its end. -/
theorem exists_step_of_not_awaited {s : State F n} (hinv : PressInv endings c s) (hmain : MainInv s)
    (hc : c ≠ 0) (h : ¬ s.Awaited) :
    ∃ e s', stepEnding endings s e = some s' ∧ s'.remaining < s.remaining := by
  have hspawned := hmain.spawned
  have hawaited := hmain.awaited
  by_cases hmore : s.spawned < n
  · refine ⟨.spawn, _, if_pos hmore, ?_⟩
    simp only [State.remaining]
    omega
  by_cases hleft : ∃ i, s.pc i ≠ .finished
  · rcases exists_task_enabled hinv hc hleft with ⟨i, s', hstep⟩
    refine ⟨.task i, s', ?_, remaining_lt_of_taskStep hstep⟩
    rw [stepEnding, if_pos (by omega), hstep]
  · -- Every handle returns.
    have hnext : s.awaited < n := Nat.lt_of_le_of_ne hawaited h
    have hfinished : s.pc ⟨s.awaited, hnext⟩ = .finished := by
      by_contra hopen
      exact hleft ⟨_, hopen⟩
    refine ⟨.await, { s with awaited := s.awaited + 1 }, ?_, ?_⟩
    · rw [stepEnding, dif_pos ⟨by omega, hnext⟩, if_pos hfinished]
    · simp only [State.remaining]
      omega

/-- With a permit a press run can be completed. -/
theorem exists_awaited (results : Fin n → TestResult) (hc : c ≠ 0) :
    ∃ s : State F n, Reachable (step results) (State.init F n c) s ∧ s.Awaited := by
  refine reachable_final (fun s => PressInv (fun i => some (results i)) c s ∧ MainInv s)
    State.Awaited State.remaining ?_ ?_ _ ⟨pressInv_init, Nat.zero_le _, Nat.zero_le _⟩
  · intro s e s' hstep h
    exact ⟨pressInv_step hstep h.1, mainInv_step hstep h.2⟩
  · intro s h hopen
    exact exists_step_of_not_awaited h.1 h.2 hc hopen

end

end Press

end ProxyPen
