import ProxyPen.Core.PressRun
import ProxyPen.Theory.HttpLink
import ProxyPen.Theory.PressProgress

/-!
# Press Runs Against the Test Server

What is known of a press run whose results are given, and of a single test,
holds of both together. To the press run, a test is how it will have ended: a
run with its tests is a run of `press` over any endings that agree with those so
far (`LiveInv.follows`). To a test, the press run is only when it starts and
stops. So a run is never stuck unless there are no permits, it ends after a
bounded number of turns, and its numbers are those of its tests.

## Main definitions

* `EndedAs`: How a test has ended.
* `LiveInv`: The invariant of a press run with its tests.
* `LiveState.measure`: How much is left of a run.
* `Verdict`: How the test of one task has ended.

## Theorems

* `stepEnding_congr`: Which endings a step depends on.
* `liveInv_step`, `measure_step`, `live_progress`: A step of a run.
* `press_http1_run`: A press run against the HTTP/1.1 test server.
-/

namespace ProxyPen

namespace Press

open Ledger Machine

section

variable {σ ε F : Type} [LinearOrder F] [Millis F] {n c : Nat} {trial : Trial σ ε}

/-! ## Press runs and their results -/

theorem taskStep_congr {r r' : Option TestResult} {s : State F n} {i : Fin n}
    (h : s.pc i ≠ .acquire → r = r') : taskStep r s i = taskStep r' s i := by
  by_cases hpc : s.pc i = .acquire
  · unfold taskStep
    rw [hpc]
  · rw [h hpc]

/-- A step depends on the ending of one test at most, that of a task past its
    permit. -/
theorem stepEnding_congr {endings endings' : Fin n → Option TestResult} {s : State F n}
    {e : Event n} (h : ∀ i, e = .task i → s.pc i ≠ .acquire → endings i = endings' i) :
    stepEnding endings s e = stepEnding endings' s e := by
  cases e with
  | spawn => rfl
  | await => rfl
  | task i => rw [stepEnding, stepEnding, taskStep_congr (h i rfl)]

/-- A step moves one task at most, and from the semaphore only to its test. -/
theorem pc_of_step {endings : Fin n → Option TestResult} {s s' : State F n} {e : Event n}
    (h : stepEnding endings s e = some s') :
    s'.pc = s.pc ∨ ∃ i q, e = .task i ∧ s'.pc = Function.update s.pc i q ∧
      (s.pc i = .acquire → q = .test) := by
  cases e with
  | spawn =>
      rw [stepEnding, Option.ite_none_right_eq_some] at h
      rw [← Option.some.inj h.2]
      exact Or.inl rfl
  | await =>
      rw [stepEnding] at h
      split_ifs at h with hready hfinished
      rw [← Option.some.inj h]
      exact Or.inl rfl
  | task i =>
      rw [stepEnding, Option.ite_none_right_eq_some] at h
      right
      by_cases hpc : s.pc i = .acquire
      · have hmove := h.2
        unfold taskStep at hmove
        simp only [hpc, Option.ite_none_right_eq_some] at hmove
        rw [← Option.some.inj hmove.2]
        exact ⟨i, .test, rfl, rfl, fun _ => rfl⟩
      · rcases rank_lt_of_taskStep h.2 with ⟨q, hq, -, -, -⟩
        exact ⟨i, q, rfl, hq, fun hacquire => absurd hacquire hpc⟩

theorem remaining_lt_of_step {endings : Fin n → Option TestResult} {s s' : State F n}
    {e : Event n} (h : stepEnding endings s e = some s') : s'.remaining < s.remaining := by
  cases e with
  | spawn =>
      rw [stepEnding, Option.ite_none_right_eq_some] at h
      rw [← Option.some.inj h.2]
      simp only [State.remaining]
      omega
  | await =>
      rw [stepEnding] at h
      split_ifs at h with hready hfinished
      rw [← Option.some.inj h]
      simp only [State.remaining]
      omega
  | task i =>
      rw [stepEnding, Option.ite_none_right_eq_some] at h
      exact remaining_lt_of_taskStep h.2

/-! ## The invariant -/

/-- How a test in state `t` has ended: with its status, with its panic, or with
    its timeout, if that fired before it had one. -/
def EndedAs (trial : Trial σ ε) (t : σ) (ending : Option TestResult) : Prop :=
  (∃ status firstByte total, trial.ended t = some status ∧
      ending = status.map (resultOf firstByte total)) ∨
    trial.ended t = none ∧ ending = some (resultOf 0 0 (.failed "timeout"))

/-- How tests have ended so far is among the given endings. -/
def LiveState.Agrees (s : LiveState σ F n) (endings : Fin n → Option TestResult) : Prop :=
  ∀ i ending, s.endings i = some ending → endings i = ending

structure LiveInv (trial : Trial σ ε) (c : Nat) (s : LiveState σ F n) : Prop where
  follows : ∀ endings, s.Agrees endings →
    Machine.Reachable (stepEnding endings) (State.init F n c) s.press
  settled : ∀ i, 1 < (s.press.pc i).rank → s.endings i ≠ none
  trials : ∀ i, Machine.Reachable trial.step trial.init (s.trials i)
  returned : ∀ i ending, s.endings i = some ending → EndedAs trial (s.trials i) ending

theorem liveInv_init : LiveInv trial c (LiveState.init trial F n c) where
  follows _ _ := ⟨[], rfl⟩
  settled i h := by simp [LiveState.init, State.init] at h
  trials _ := ⟨[], rfl⟩
  returned i r h := by simp only [LiveState.init, reduceCtorEq] at h

omit [LinearOrder F] [Millis F] in
theorem known_of_agrees {s : LiveState σ F n} {endings : Fin n → Option TestResult}
    (h : s.Agrees endings) {i : Fin n} (hi : s.endings i ≠ none) : s.known i = endings i := by
  rcases Option.ne_none_iff_exists'.mp hi with ⟨ending, hending⟩
  rw [LiveState.known, hending, Option.join_some, h i ending hending]

/-- A task that moves on from its test knows the result. -/
theorem LiveInv.known_of_moves {s : LiveState σ F n} (h : LiveInv trial c s) {i : Fin n}
    (hwaits : s.waits (.task i) = false) (hpc : s.press.pc i ≠ .acquire) : s.endings i ≠ none := by
  by_cases htest : s.press.pc i = .test
  · intro hnone
    rw [LiveState.waits, decide_eq_false_iff_not] at hwaits
    exact hwaits ⟨htest, hnone⟩
  · apply h.settled
    cases hp : s.press.pc i <;> simp [hp] at hpc htest ⊢

theorem liveInv_press {s : LiveState σ F n} {e : Event n} {p : State F n}
    (h : LiveInv trial c s) (hwaits : s.waits e = false)
    (hstep : stepEnding s.known s.press e = some p) :
    LiveInv trial c { s with press := p } where
  follows endings hagrees := by
    -- The step looks at no ending but one that is known.
    have hsame : stepEnding endings s.press e = some p := by
      rw [← hstep]
      apply stepEnding_congr
      intro i hi hpc
      subst hi
      exact (known_of_agrees hagrees (h.known_of_moves hwaits hpc)).symm
    exact (h.follows endings hagrees).next hsame
  settled i hrank := by
    rcases pc_of_step hstep with hpc | ⟨j, q, rfl, hpc, hq⟩
    · exact h.settled i (hpc ▸ hrank)
    · simp only [hpc] at hrank
      by_cases hij : i = j
      · subst hij
        rw [Function.update_self] at hrank
        by_cases hacquire : s.press.pc i = .acquire
        · rw [hq hacquire] at hrank
          simp at hrank
        · exact h.known_of_moves hwaits hacquire
      · rw [Function.update_of_ne hij] at hrank
        exact h.settled i hrank
  trials := h.trials
  returned := h.returned

theorem liveInv_trial {s : LiveState σ F n} {i : Fin n} {e : ε} {t : σ} (h : LiveInv trial c s)
    (hrunning : s.Running i) (hstep : trial.step (s.trials i) e = some t) :
    LiveInv trial c { s with trials := Function.update s.trials i t } where
  follows := h.follows
  settled := h.settled
  trials j := by
    by_cases hij : j = i
    · subst hij
      simp only [Function.update_self]
      exact (h.trials j).next hstep
    · simp only [Function.update_of_ne hij]
      exact h.trials j
  returned j r hr := by
    have hij : j ≠ i := by
      intro heq
      rw [heq, hrunning.2] at hr
      cases hr
    simp only [Function.update_of_ne hij]
    exact h.returned j r hr

theorem liveInv_resolve {s : LiveState σ F n} {i : Fin n} {ending : Option TestResult}
    (h : LiveInv trial c s) (hrunning : s.Running i)
    (hreturned : EndedAs trial (s.trials i) ending) : LiveInv trial c (s.resolve i ending) where
  follows endings hagrees := by
    refine h.follows endings (fun j r' hr' => hagrees j r' ?_)
    have hij : j ≠ i := by
      intro heq
      rw [heq, hrunning.2] at hr'
      cases hr'
    simp only [LiveState.resolve, Function.update_of_ne hij]
    exact hr'
  settled j hrank := by
    by_cases hij : j = i
    · subst hij
      simp only [LiveState.resolve, Function.update_self, ne_eq, reduceCtorEq, not_false_eq_true]
    · simp only [LiveState.resolve, Function.update_of_ne hij]
      exact h.settled j hrank
  trials := h.trials
  returned j r' hr' := by
    by_cases hij : j = i
    · subst hij
      simp only [LiveState.resolve, Function.update_self, Option.some.injEq] at hr'
      exact hr' ▸ hreturned
    · simp only [LiveState.resolve, Function.update_of_ne hij] at hr'
      exact h.returned j r' hr'

theorem liveInv_step {s s' : LiveState σ F n} {e : LiveEvent ε n}
    (hstep : liveStep trial s e = some s') (h : LiveInv trial c s) : LiveInv trial c s' := by
  cases e with
  | press e =>
      rw [liveStep, Option.ite_none_left_eq_some, Option.map_eq_some_iff] at hstep
      rcases hstep with ⟨hwaits, p, hp, rfl⟩
      exact liveInv_press h (Bool.not_eq_true _ ▸ hwaits) hp
  | trial i e =>
      rw [liveStep, Option.ite_none_right_eq_some, Option.map_eq_some_iff] at hstep
      rcases hstep with ⟨hrunning, t, ht, rfl⟩
      exact liveInv_trial h hrunning ht
  | settle i firstByte total =>
      rw [liveStep, Option.ite_none_right_eq_some, Option.map_eq_some_iff] at hstep
      rcases hstep with ⟨hrunning, status, hstatus, rfl⟩
      exact liveInv_resolve h hrunning (Or.inl ⟨status, firstByte, total, hstatus, rfl⟩)
  | expire i =>
      rw [liveStep, Option.ite_none_right_eq_some, Option.some.injEq] at hstep
      rcases hstep with ⟨⟨hrunning, hstatus⟩, rfl⟩
      exact liveInv_resolve h hrunning (Or.inr ⟨hstatus, rfl⟩)

theorem liveInv_of_run {es : List (LiveEvent ε n)} {s : LiveState σ F n}
    (hrun : runFrom (liveStep trial) (LiveState.init trial F n c) es = some s) :
    LiveInv trial c s :=
  run_invariant (LiveInv trial c) (fun _ _ _ hstep h => liveInv_step hstep h) es _ s hrun
    liveInv_init

/-- The press run under the tests. -/
theorem LiveInv.reachable {s : LiveState σ F n} (h : LiveInv trial c s) :
    Machine.Reachable (stepEnding s.known) (State.init F n c) s.press :=
  h.follows s.known (fun i r hr => by rw [LiveState.known, hr, Option.join_some])

/-! ## Progress -/

/-- Every turn of a test lowers the measure. -/
def Trial.Runs (trial : Trial σ ε) (measure : σ → Nat) : Prop :=
  ∀ t e t', trial.step t e = some t' → measure t' < measure t

/-- Until a test has ended, a turn of it is possible. -/
def Trial.NeverStuck (trial : Trial σ ε) : Prop :=
  ∀ t, Machine.Reachable trial.step trial.init t → trial.ended t = none →
    ∃ e t', trial.step t e = some t'

/-- A test that has not ended. -/
def unsettled (ending : Option (Option TestResult)) : Nat := if ending.isNone then 1 else 0

/-- How much is left of a run: the operations of the tasks, the turns of the
    tests, and their ends. -/
def LiveState.measure (measure : σ → Nat) (s : LiveState σ F n) : Nat :=
  s.press.remaining + ∑ i, measure (s.trials i) + ∑ i, unsettled (s.endings i)

omit [LinearOrder F] [Millis F] in
theorem measure_resolve (measure : σ → Nat) {s : LiveState σ F n} {i : Fin n}
    (ending : Option TestResult) (hnone : s.endings i = none) :
    (s.resolve i ending).measure measure < s.measure measure := by
  have hsum := sum_update (fun _ => unsettled) s.endings i (some ending)
  have hbefore : unsettled (s.endings i) = 1 := by rw [hnone]; rfl
  have hafter : unsettled (some ending) = 0 := rfl
  simp only [LiveState.measure, LiveState.resolve]
  omega

theorem measure_step {measure : σ → Nat} (hruns : trial.Runs measure) {s s' : LiveState σ F n}
    {e : LiveEvent ε n} (hstep : liveStep trial s e = some s') :
    s'.measure measure < s.measure measure := by
  cases e with
  | press e =>
      rw [liveStep, Option.ite_none_left_eq_some, Option.map_eq_some_iff] at hstep
      rcases hstep with ⟨-, p, hp, rfl⟩
      have hless := remaining_lt_of_step hp
      simp only [LiveState.measure]
      omega
  | trial i e =>
      rw [liveStep, Option.ite_none_right_eq_some, Option.map_eq_some_iff] at hstep
      rcases hstep with ⟨-, t, ht, rfl⟩
      have hless := hruns _ _ _ ht
      have hsum := sum_update (fun _ => measure) s.trials i t
      simp only [LiveState.measure]
      omega
  | settle i firstByte total =>
      rw [liveStep, Option.ite_none_right_eq_some, Option.map_eq_some_iff] at hstep
      rcases hstep with ⟨hrunning, status, -, rfl⟩
      exact measure_resolve measure _ hrunning.2
  | expire i =>
      rw [liveStep, Option.ite_none_right_eq_some, Option.some.injEq] at hstep
      rcases hstep with ⟨⟨hrunning, -⟩, rfl⟩
      exact measure_resolve measure _ hrunning.2

omit [LinearOrder F] [Millis F] in
/-- Six operations a task, two of the spawning task for each, the turns of the
    test and its end. -/
theorem measure_init (measure : σ → Nat) :
    (LiveState.init trial F n c).measure measure = n * (9 + measure trial.init) := by
  simp only [LiveState.measure, LiveState.init, State.remaining, State.init, TaskPc.rank,
    unsettled, Option.isNone_none, if_true, Finset.sum_const, Finset.card_univ, Fintype.card_fin,
    smul_eq_mul, Nat.sub_zero]
  ring

/-- The timeout of a test. -/
def LiveEvent.expires : LiveEvent ε n → Bool
  | .expire _ => true
  | _ => false

/-- With a permit a run goes on until all handles are awaited. It needs the help
    of a timeout only for a test that is stuck. -/
theorem live_progress (hc : c ≠ 0) {s : LiveState σ F n} (h : LiveInv trial c s)
    (hopen : ¬ s.press.Awaited) :
    ∃ e s', liveStep trial s e = some s' ∧ (trial.NeverStuck → e.expires = false) := by
  have hmain : MainInv s.press :=
    reachable_invariant MainInv (fun _ _ _ hstep hinv => mainInv_step hstep hinv) _ _ h.reachable
      ⟨Nat.zero_le _, Nat.zero_le _⟩
  rcases exists_step_of_not_awaited (pressInv_of_reachable h.reachable) hmain hc hopen
    with ⟨e, p, hp, -⟩
  by_cases hwaits : s.waits e = true
  · -- The operation is that of a task whose test still runs.
    cases e with
    | spawn => cases hwaits
    | await => cases hwaits
    | task i =>
        have hrunning : s.Running i := of_decide_eq_true hwaits
        cases hended : trial.ended (s.trials i) with
        | some status =>
            refine ⟨.settle i 0 0, s.resolve i (status.map (resultOf 0 0)), ?_, fun _ => rfl⟩
            rw [liveStep, if_pos hrunning, hended, Option.map_some]
        | none =>
            by_cases hturn : ∃ e t, trial.step (s.trials i) e = some t
            · rcases hturn with ⟨e, t, ht⟩
              refine ⟨.trial i e, { s with trials := Function.update s.trials i t }, ?_,
                fun _ => rfl⟩
              rw [liveStep, if_pos hrunning, ht, Option.map_some]
            · exact ⟨.expire i, _, if_pos ⟨hrunning, hended⟩,
                fun hnever => absurd (hnever _ (h.trials i) hended) hturn⟩
  · refine ⟨.press e, { s with press := p }, ?_, fun _ => rfl⟩
    rw [liveStep, if_neg hwaits, hp, Option.map_some]

/-- A finished run has counted its tests by how they have ended. -/
theorem live_counts {s : LiveState σ F n} (h : LiveInv trial c s) (hawaited : s.press.Awaited) :
    s.press.successCount = (counted s.known true).card ∧
      s.press.errorCount = (counted s.known false).card ∧
      ∀ i, EndedAs trial (s.trials i) (s.known i) := by
  have hinv := pressInv_of_reachable h.reachable
  rcases counts_of_awaited hinv hawaited with ⟨hsuccess, herror⟩
  refine ⟨hsuccess, herror, fun i => ?_⟩
  have hfinished := congrFun (finished_of_awaited hinv hawaited) i
  rcases Option.ne_none_iff_exists'.mp (h.settled i (by rw [hfinished]; decide)) with ⟨r, hr⟩
  rw [LiveState.known, hr, Option.join_some]
  exact h.returned i r hr

/-- Where no test has panicked, it is exact over their results. -/
theorem live_exact {s : LiveState σ F n} (h : LiveInv trial c s) (hawaited : s.press.Awaited)
    {results : Fin n → TestResult} (hresults : s.known = fun i => some (results i))
    (protocol : PressProtocol) (elapsed : Nat) :
    Exact results (s.press.result protocol elapsed) := by
  have hreachable := h.reachable
  rw [hresults] at hreachable
  exact exact_of_settled (settled_of_awaited (pressInv_of_reachable hreachable) hawaited) protocol
    elapsed

omit [LinearOrder F] [Millis F] in
/-- `run_press` fails exactly if a failure was counted and no success. -/
theorem exitCode_eq_one_iff {r : PressResult F} {endings : Fin n → Option TestResult}
    (hsuccess : r.successCount = (counted endings true).card)
    (herror : r.errorCount = (counted endings false).card) :
    r.exitCode = 1 ↔ (counted endings false).Nonempty ∧ counted endings true = ∅ := by
  rw [← Finset.card_pos, ← Finset.card_eq_zero, ← hsuccess, ← herror, PressResult.exitCode]
  by_cases hfails : 0 < r.errorCount ∧ r.successCount = 0
  · rw [if_pos hfails]
    exact iff_of_true rfl hfails
  · rw [if_neg hfails]
    exact iff_of_false Nat.zero_ne_one hfails

/-- With results only, that is if there were requests and none succeeded. -/
theorem all_failed_iff (results : Fin n → TestResult) :
    (counted (fun i => some (results i)) false).Nonempty ∧
        counted (fun i => some (results i)) true = ∅ ↔
      n ≠ 0 ∧ ∀ i, (results i).succeeded = false := by
  rw [counted_some, counted_some, Finset.filter_eq_empty_iff]
  constructor
  · intro h
    rcases h with ⟨⟨i, -⟩, hnone⟩
    exact ⟨fun hn => absurd i.isLt (by omega),
      fun i => Bool.eq_false_iff.mpr (hnone (Finset.mem_univ i))⟩
  · intro h
    rcases h with ⟨hn, hall⟩
    refine ⟨⟨⟨0, Nat.pos_of_ne_zero hn⟩, ?_⟩, fun i _ => by rw [hall i]; decide⟩
    exact Finset.mem_filter.mpr ⟨Finset.mem_univ _, hall _⟩

end

/-! ## The HTTP/1.1 test -/

section

open Outcome Protocol

variable {ioText : Socks.IoError → String} {cap : HttpCapacity} {target : TestTarget} {body : Bytes}

/-- How the test of a task has ended: with the response, with the reset of a
    connection on which the server did not read the whole request, without a
    connection, or with its timeout. -/
inductive Verdict (ioText : Socks.IoError → String) (target : TestTarget) (body : Bytes)
    (s : HttpLink) (r : TestResult) : Prop where
  | answered (hdone : s.pc = .done)
      (hresult : Http1.doTest target s.exchange = ok (.success .http1 200
        ((strBytes (Server.httpHeader body.length)).length + body.length)))
      (hstatus : r.status = .success)
  | cut (hdone : s.pc = .done) (htaken : s.taken ≠ strBytes (Http1.request target)) (code : Nat)
      (hstatus : r.status = .failed ("IO error: " ++ ioText (.os code)))
  | unconnected (hdone : s.pc = .done) (e : ProxyPenError) (hconnect : s.connect = err e)
      (hstatus : r.status = .failed (e.text ioText))
  | late (hopen : s.pc ≠ .done) (hstatus : r.status = .failed "timeout")

/-- The status of a test that is done, as a verdict on every result with it. -/
theorem trial_ended_done (ioText : Socks.IoError → String) (cap : HttpCapacity) {s : HttpLink}
    (h : HttpLink.Sound target body s) (hdone : s.pc = .done) :
    ∃ status, (Http1.trial ioText cap target body).ended s = some (some status) ∧
      ∀ r : TestResult, r.status = status → Verdict ioText target body s r := by
  rcases HttpLink.result_of_done h hdone with hresult | ⟨htaken, code, hcode⟩ | ⟨e, hconnect, he⟩
  · refine ⟨.success, ?_, fun r hr => .answered hdone hresult hr⟩
    simp only [Http1.trial, hdone, if_true, Http1.test, Bool.false_eq_true, if_false, hresult]
    rfl
  · refine ⟨.failed ("IO error: " ++ ioText (.os code)), ?_,
      fun r hr => .cut hdone htaken code hr⟩
    simp only [Http1.trial, hdone, if_true, Http1.test, Bool.false_eq_true, if_false, hcode]
    rfl
  · refine ⟨.failed (e.text ioText), ?_, fun r hr => .unconnected hdone e hconnect hr⟩
    simp only [Http1.trial, hdone, if_true, Http1.test, Bool.false_eq_true, if_false, he]
    rfl

/-- The test ends as soon as it is done. -/
theorem trial_ended_eq_none_iff {s : HttpLink} (h : HttpLink.Sound target body s) :
    (Http1.trial ioText cap target body).ended s = none ↔ s.pc ≠ .done := by
  constructor
  · intro hnone hdone
    rcases trial_ended_done ioText cap h hdone with ⟨status, hended, -⟩
    rw [hnone] at hended
    cases hended
  · intro hopen
    simp only [Http1.trial, if_neg hopen]

theorem http1_runs (ioText : Socks.IoError → String) (cap : HttpCapacity) (target : TestTarget)
    (body : Bytes) : (Http1.trial ioText cap target body).Runs (HttpLink.measure body) :=
  fun _ e _ hstep => HttpLink.measure_step e hstep

theorem http1_neverStuck (hplain : target.useTls = false)
    (hfits : HttpLink.Fits cap target body) : (Http1.trial ioText cap target body).NeverStuck := by
  intro t ht hnone
  have hsound := HttpLink.sound_of_reachable hplain ht
  exact (HttpLink.never_jammed_iff hplain cap body).mpr hfits t ht
    ((trial_ended_eq_none_iff hsound).mp hnone)

theorem resultOf_status (firstByte total : Nat) (status : TestStatus) :
    (resultOf firstByte total status).status = status := by
  cases status <;> rfl

/-- An HTTP/1.1 test ends without a panic. -/
theorem verdict_of_endedAs (hplain : target.useTls = false) {s : HttpLink}
    {ending : Option TestResult}
    (hs : Machine.Reachable (HttpLink.step cap body) (HttpLink.init target) s)
    (h : EndedAs (Http1.trial ioText cap target body) s ending) :
    ∃ r, ending = some r ∧ Verdict ioText target body s r := by
  have hsound := HttpLink.sound_of_reachable hplain hs
  rcases h with ⟨status, firstByte, total, hended, rfl⟩ | ⟨hnone, rfl⟩
  · have hdone : s.pc = .done := by
      by_contra hopen
      rw [(trial_ended_eq_none_iff hsound).mpr hopen] at hended
      cases hended
    rcases trial_ended_done ioText cap hsound hdone with ⟨status', hended', hverdict⟩
    rw [hended, Option.some.injEq] at hended'
    subst hended'
    exact ⟨_, rfl, hverdict _ (resultOf_status _ _ _)⟩
  · exact ⟨_, rfl, .late ((trial_ended_eq_none_iff hsound).mp hnone) rfl⟩

/-- A press run against the HTTP/1.1 test server, over every order of the turns
    of all tasks and all connections. It ends after a bounded number of turns,
    and with a permit it goes on until then, without the help of a timeout if the
    request or the response fits into a connection. At its end the result is
    exact over what the tests have returned, each of them a response, the error
    of a cut request or of connecting, or a timeout, and the program fails
    exactly if there were requests and none of them succeeded. -/
theorem press_http1_run (F : Type) [LinearOrder F] [Millis F] (ioText : Socks.IoError → String)
    (cap : HttpCapacity) (target : TestTarget) (hplain : target.useTls = false) (body : Bytes)
    (opts : PressOptions) (es : List (LiveEvent HttpEvent opts.numRequests))
    (s : LiveState HttpLink F opts.numRequests)
    (hrun : runFrom (liveStep (Http1.trial ioText cap target body))
      (LiveState.init (Http1.trial ioText cap target body) F _ opts.concurrency) es = some s) :
    es.length ≤ opts.numRequests * (9 + (HttpLink.init target).measure body) ∧
    (opts.concurrency ≠ 0 → ¬ s.press.Awaited →
      ∃ e s', liveStep (Http1.trial ioText cap target body) s e = some s' ∧
        ((strBytes (Http1.request target)).length ≤ cap.up + 1 ∨
          (strBytes (Server.httpHeader body.length)).length + body.length ≤ cap.down →
            e.expires = false)) ∧
    (s.press.Awaited → ∀ elapsed,
      let r := s.press.result .http1 elapsed
      ∃ results : Fin opts.numRequests → TestResult,
        (∀ i, s.known i = some (results i)) ∧
        Exact results r ∧
        r.successCount = (Finset.univ.filter (fun i => (results i).succeeded = true)).card ∧
        (∀ i, Verdict ioText target body (s.trials i) (results i)) ∧
        (r.exitCode = 1 ↔ opts.numRequests ≠ 0 ∧ ∀ i, (results i).succeeded = false)) := by
  have hruns := http1_runs ioText cap target body
  have hinv := liveInv_of_run hrun
  refine ⟨?_, fun hc hopen => ?_, fun hawaited elapsed => ?_⟩
  · have hle := length_le_of_run _ (fun _ _ _ hstep => measure_step hruns hstep) es _ s hrun
    rw [measure_init] at hle
    exact Nat.le_trans (Nat.le_add_right _ _) hle
  · rcases live_progress hc hinv hopen with ⟨e, s', hstep, hexpires⟩
    exact ⟨e, s', hstep, fun hfits => hexpires (http1_neverStuck hplain hfits)⟩
  · rcases live_counts hinv hawaited with ⟨hsuccess, herror, hended⟩
    have hverdict := fun i => verdict_of_endedAs hplain (hinv.trials i) (hended i)
    choose results hresults hverdicts using hverdict
    have hknown : s.known = fun i => some (results i) := funext hresults
    rw [hknown] at hsuccess herror
    refine ⟨results, hresults, live_exact hinv hawaited hknown .http1 elapsed, ?_, hverdicts, ?_⟩
    · rw [← counted_some results true]
      exact hsuccess
    · exact (exitCode_eq_one_iff hsuccess herror).trans (all_failed_iff results)

end

/-- Two requests on one permit: the first is answered, the second times out. -/
def answeredAndLate : List (LiveEvent HttpEvent 2) :=
  let first : Fin 2 := ⟨0, by omega⟩
  let second : Fin 2 := ⟨1, by omega⟩
  [.press .spawn, .press .spawn, .press (.task first)] ++ segmentedRun.map (.trial first) ++
    [.settle first 5 9] ++ List.replicate 5 (.press (.task first)) ++
    [.press (.task second), .expire second] ++ List.replicate 4 (.press (.task second)) ++
    [.press .await, .press .await]

theorem press_http1_run_two :
    let trial := Http1.trial (fun _ => "reset") roomy (localTarget 8080 false) [120, 120]
    (runFrom (liveStep trial) (LiveState.init trial ℚ 2 1) answeredAndLate).map
      (fun s => (s.press.awaited, s.press.successCount, s.press.errors)) = some (2, 1, ["timeout"]) ∧
    ∀ s, runFrom (liveStep trial) (LiveState.init trial ℚ 2 1) answeredAndLate = some s →
      s.press.Awaited → ∃ results, (∀ i, s.known i = some (results i)) ∧
        Exact results (s.press.result .http1 20) ∧
        ((s.press.result .http1 20).exitCode = 1 ↔ 2 ≠ 0 ∧ ∀ i, (results i).succeeded = false) := by
  intro trial
  refine ⟨by decide +kernel, fun s hrun hawaited => ?_⟩
  rcases (press_http1_run ℚ (fun _ => "reset") roomy (localTarget 8080 false) rfl [120, 120]
    ⟨.http1, 1, 2⟩ answeredAndLate s hrun).2.2 hawaited 20
    with ⟨results, hresults, hexact, -, -, hexit⟩
  exact ⟨results, hresults, hexact, hexit⟩

end Press

end ProxyPen
