import ProxyPen.Theory.Confinement

/-!
# What the Results Stand For

The commands against every world, from what they report back to the
connections behind it. A success is never reported without an exchange that
the test of its protocol accepts. That exchange was had over a connection
opened for it right before: to the target as it was resolved, or through the
proxy with the target as its destination. Likewise an outcome of `benchmark`
was measured over a connection that was opened right before, to the port the
server had named when it accepted the request for that very test.

## Main definitions

* `TestRun`, `Ran`: The run of one test of a `test`.
* `Readied`: What a `test` does before its tests.

## Theorems

* `test_exit`: The exit status of `test`.
* `Press.heard_of_success`: The successes of a `press`.
* `Press.press_exit`: The count of successes and the exit status of `press`.
* `Bench.benchmark_outcomes`: The outcomes of `benchmark`.
-/

namespace ProxyPen

open Outcome Protocol Net Socks Calls Cmd

/-- A test at work: the worlds of its turns, the calls it made in them, and the
    result it returned. -/
structure TestRun where
  worlds : List (World Answer)
  calls : Past Answer
  result : Http.TestResult

/-- That is the run of a protocol's test, and a success was heard in it, over a
    connection to the target. -/
def Ran (out : Outside) (transport : Transport) (ready : TestTarget) (protocol : Http.Protocol)
    (test : TestRun) : Prop :=
  Machine.runFrom Calls.step (start (Http.timedTest out transport ready protocol)) test.worlds
      = some { prog := ret test.result, past := test.calls } ∧
    (test.result.status = .success → HeardOver transport ready protocol test.result test.calls)

/-- What a `test` does before its tests: the target of its command line is
    resolved. -/
def Readied (out : Outside) (args : TestArgs) (setup : List (World Answer)) (before : Past Answer)
    (transport : Transport) (ready : TestTarget) : Prop :=
  ∃ dns url target, args.transport.build out = ok transport ∧
    args.transport.buildDns out = ok dns ∧ args.target = some url ∧
    parseTargetUrl out.parseUrl url false = ok target ∧
    Machine.runFrom Calls.step (start (prepare out transport dns args.resolve target)) setup
      = some { prog := ret ready, past := before } ∧
    Prepared dns args.resolve target before ready

/-- The results are those of the tests, each of which goes on where the one
    before it has ended. -/
theorem comesTo_testEach {out : Outside} {transport : Transport} {target : TestTarget}
    {protocols : List Http.Protocol} {ws : List (World Answer)} {t : Past Answer}
    {results : List Http.TestResult}
    (h : ComesTo (testEach out transport target protocols) ws t (.ok results)) :
    ∃ tests : List TestRun, results = tests.map TestRun.result ∧
      ws = tests.flatMap TestRun.worlds ∧ t = tests.flatMap TestRun.calls ∧
      List.Forall₂ (Ran out transport target) protocols tests := by
  induction protocols generalizing ws t results with
  | nil =>
      cases h
      exact ⟨[], rfl, rfl, rfl, List.Forall₂.nil⟩
  | cons protocol protocols ih =>
      rcases comesTo_seq h with ⟨result, ws₁, ws₂, t₁, t₂, rfl, rfl, hfirst, h⟩
      rcases comesTo_seq h with ⟨rest, ws₃, ws₄, t₃, t₄, rfl, rfl, hrest, h⟩
      cases h
      rcases ih hrest with ⟨tests, rfl, rfl, rfl, htests⟩
      refine ⟨⟨ws₁, t₁, result⟩ :: tests, rfl, ?_, ?_, List.Forall₂.cons ⟨?_, ?_⟩ htests⟩
      · rw [List.append_nil, List.flatMap_cons]
      · rw [List.append_nil, List.flatMap_cons]
      · exact run_of_comesTo hfirst []
      · exact heard_of_timedTest hfirst

/-- A `test` that returns has resolved its target and tested its protocols. -/
theorem comesTo_runTest {out : Outside} {args : TestArgs} {ws : List (World Answer)}
    {t : Past Answer} {code : Nat} (h : ComesTo (runTest out args) ws t (.ok code)) :
    ∃ transport ready setup before ws' t' results,
      Readied out args setup before transport ready ∧
      ComesTo (testEach out transport ready args.protocols) ws' t' (.ok results) ∧
      ws = setup ++ ws' ∧ t = before ++ t' ∧
      code = if results.all (fun r => r.status = .success) then 0 else 1 := by
  rcases comesTo_seq_lift h with ⟨transport, htransport, hmore⟩
  rcases comesTo_seq_lift hmore with ⟨dns, hdns, hurl⟩
  cases harg : args.target with
  | none =>
      rw [harg] at hurl
      cases hurl
  | some url =>
      rw [harg] at hurl
      rcases comesTo_seq_lift hurl with ⟨target, htarget, htests⟩
      rcases comesTo_seq htests with ⟨results, ws₁, ws₂, t₁, t₂, rfl, rfl, hresults, hcode⟩
      cases hcode
      rcases comesTo_seq (comesTo_mapErr hresults)
        with ⟨ready, setup, ws', before, t', rfl, rfl, hprepare, heach⟩
      have hready := (prepare_keeps transport dns args.resolve target out
        (resolvedAddr_parseTargetUrl htarget) []).of_comesTo hprepare
      exact ⟨transport, ready, setup, before, ws', t', results,
        ⟨dns, url, target, htransport, hdns, harg, htarget, run_of_comesTo hprepare [], hready⟩,
        heach, List.append_nil _, List.append_nil _, rfl⟩

/-- In every world in which `test` returns, each of its protocols was tested, in
    order, and the exit status is that of what these tests returned in it: zero
    if all of them are successes, and one if not. A success was heard over a
    connection to the target that its test had opened. -/
theorem test_exit (out : Outside) (args : TestArgs) (ws : List (World Answer))
    (s : Running Act Answer String Nat)
    (hrun : Machine.runFrom Calls.step (start (runTest out args)) ws = some s) (code : Nat)
    (hret : s.prog = ret code) :
    ∃ (transport : Transport) (ready : TestTarget) (setup : List (World Answer))
      (before : Past Answer) (tests : List TestRun),
      Readied out args setup before transport ready ∧
      ws = setup ++ tests.flatMap TestRun.worlds ∧
      s.past = before ++ tests.flatMap TestRun.calls ∧
      List.Forall₂ (Ran out transport ready) args.protocols tests ∧
      (code = 0 ↔ ∀ test ∈ tests, test.result.status = .success) ∧ code ≤ 1 := by
  rcases comesTo_of_run hrun (o := .ok code) (hret ▸ ComesTo.ret code) with ⟨t, hpast, h⟩
  rcases comesTo_runTest h
    with ⟨transport, ready, setup, before, ws', t', results, hready, heach, rfl, rfl, rfl⟩
  rcases comesTo_testEach heach with ⟨tests, rfl, rfl, rfl, hran⟩
  refine ⟨transport, ready, setup, before, tests, hready, rfl, hpast, hran, ?_, ?_⟩
  · rw [ite_eq_left_iff]
    simp
  · split <;> omega

/-- The protocol that was asked for was heard through the proxy. -/
theorem test_exit_proxied :
    ∃ s, Machine.runFrom Calls.step (start (runTest fewOutside proxiedTest))
        (List.replicate 9 kindWorld) = some s ∧ s.prog = ret 0 ∧
      ∃ transport ready setup before test,
        Readied fewOutside proxiedTest setup before transport ready ∧
        s.past = before ++ test.calls ∧ Ran fewOutside transport ready .http1 test ∧
        HeardOver transport ready .http1 test.result test.calls := by
  have hsome : (Machine.runFrom Calls.step (start (runTest fewOutside proxiedTest))
      (List.replicate 9 kindWorld)).bind (fun s => s.prog.returned) = some 0 := by decide +kernel
  rcases Option.bind_eq_some_iff.mp hsome with ⟨s, hrun, hreturned⟩
  have hret := eq_ret_of_returned hreturned
  rcases test_exit fewOutside proxiedTest _ s hrun 0 hret
    with ⟨transport, ready, setup, before, tests, hready, -, hpast, hran, hzero, -⟩
  rcases List.forall₂_cons_left_iff.mp hran with ⟨test, rest, htest, hrest, rfl⟩
  rw [List.forall₂_nil_left_iff] at hrest
  subst hrest
  have hsuccess := hzero.mp rfl test List.mem_cons_self
  refine ⟨s, hrun, hret, transport, ready, setup, before, test, hready, ?_, htest,
    htest.2 hsuccess⟩
  rw [hpast, List.flatMap_cons, List.flatMap_nil, List.append_nil]

namespace Press

theorem success_of_succeeded {r : TestResult} (h : r.succeeded = true) : r.status = .success := by
  unfold TestResult.succeeded at h
  split at h
  · assumption
  · cases h

section

variable {out : Outside} {args : PressArgs} {transport : Transport} {ready : TestTarget}
  {before : Past Answer} {F : Type} [LinearOrder F] [Millis F] {protocol : Http.Protocol}
  {n concurrency : Nat}

/-- A request that has returned a success has heard it. -/
theorem heard_of_success (habides : Abides (PressMay out args) before)
    (hready : Ready out args before transport ready)
    {l : LiveState (Running Act Answer ProxyPenError Http.TestResult) F n}
    (hlive : LiveInv (commandTrial out transport ready protocol before) concurrency l) (i : Fin n)
    (r : TestResult)
    (hr : EndedAs (commandTrial out transport ready protocol before) (l.trials i) (some r))
    (hsuccess : r.status = .success) :
    ∃ result, result.status = .success ∧
      HeardOver transport ready protocol result (l.trials i).past := by
  rcases hlive.trials i with ⟨ws, hws⟩
  have hkeeps := (keeps_of_run (commandTrial out transport ready protocol before).init
    ⟨habides, commandTrial_keeps out args hready protocol⟩ ws _ hws).2
  rcases hr with ⟨status, firstByte, total, hended, hr⟩ | ⟨-, hr⟩
  · rcases Option.map_eq_some_iff.mp hr.symm with ⟨status, rfl, rfl⟩
    rw [resultOf_status] at hsuccess
    subst hsuccess
    simp only [commandTrial] at hended
    split at hended
    · rename_i result hprog
      rw [hprog] at hkeeps
      exact ⟨result, Option.some.inj (Option.some.inj hended), hkeeps⟩
    all_goals cases hended
  · rw [Option.some.injEq] at hr
    rw [hr] at hsuccess
    cases hsuccess

/-- Only a panic ends a request without a result. -/
theorem panic_of_endedAs
    {s : Running Act Answer ProxyPenError Http.TestResult}
    (h : EndedAs (commandTrial out transport ready protocol before) s none) :
    s.prog = Calls.panic := by
  rcases h with ⟨status, firstByte, total, hended, hnone⟩ | ⟨-, hnone⟩
  · rw [eq_comm, Option.map_eq_none_iff] at hnone
    subst hnone
    simp only [commandTrial] at hended
    split at hended
    case h_3 hprog => exact hprog
    all_goals cases hended
  · cases hnone

end

/-- Whatever the world answers, and in every order of the turns of all tasks,
    when `press` is over it has counted every request by how its test has ended:
    a success, a failure, or a panic, which is in neither count. Each success was
    heard over a connection to the target that had been opened for it. With at
    least one request, an exit status of zero means that some request was heard,
    or that all of them panicked. -/
theorem press_exit (out : Outside) (args : PressArgs) (ws : List (World Answer))
    (s : Running Act Answer String (Transport × TestTarget))
    (hrun : Machine.runFrom Calls.step (start (setUp out args)) ws = some s)
    (transport : Transport) (ready : TestTarget) (hret : s.prog = ret (transport, ready))
    (F : Type) [LinearOrder F] [Millis F] (protocol : Http.Protocol) (n concurrency : Nat)
    (es : List (LiveEvent (World Answer) n)) (l : LiveState _ F n)
    (hlive : Machine.runFrom (liveStep (commandTrial out transport ready protocol s.past))
      (LiveState.init (commandTrial out transport ready protocol s.past) F n concurrency) es
        = some l)
    (hawaited : l.press.Awaited) (printed : PressProtocol) (elapsed : Nat) :
    let heard : Fin n → Prop := fun i => ∃ result, result.status = .success ∧
      HeardOver transport ready protocol result (l.trials i).past
    let r := l.press.result printed elapsed
    (∃ endings : Fin n → Option TestResult,
      (∀ i, EndedAs (commandTrial out transport ready protocol s.past) (l.trials i) (endings i)) ∧
        r.successCount = (counted endings true).card ∧
        r.errorCount = (counted endings false).card ∧
        (∀ i ∈ counted endings true, heard i) ∧
        ∀ i, endings i = none → (l.trials i).prog = Calls.panic) ∧
      (r.exitCode = 0 → n ≠ 0 → (∃ i, heard i) ∨ ∀ i, (l.trials i).prog = Calls.panic) := by
  intro heard r
  have hkeeps := keeps_of_run _ ⟨abides_nil _, setUp_keeps out args⟩ ws s hrun
  rw [hret] at hkeeps
  have hinv := liveInv_of_run hlive
  rcases live_counts hinv hawaited with ⟨hsuccess, herror, hended⟩
  have hheard : ∀ i ∈ counted l.known true, heard i := by
    intro i hi
    rcases Option.map_eq_some_iff.mp (Finset.mem_filter.mp hi).2 with ⟨result, hresult, hsucceeded⟩
    exact heard_of_success hkeeps.1 hkeeps.2 hinv i result (hresult ▸ hended i)
      (success_of_succeeded hsucceeded)
  have hpanicked : ∀ i, l.known i = none → (l.trials i).prog = Calls.panic := fun i hnone =>
    panic_of_endedAs (hnone ▸ hended i)
  refine ⟨⟨l.known, hended, hsuccess, herror, hheard, hpanicked⟩, fun hzero hrequests => ?_⟩
  by_contra hneither
  rw [not_or] at hneither
  rcases hneither with ⟨hnone, hsome⟩
  -- Without a success, and with a request that has not panicked, it would be one.
  have hempty : counted l.known true = ∅ :=
    Finset.eq_empty_of_forall_notMem fun i hi => hnone ⟨i, hheard i hi⟩
  have hone : r.exitCode = 1 := by
    refine (exitCode_eq_one_iff hsuccess herror).mpr ⟨?_, hempty⟩
    by_contra hfailed
    rw [Finset.not_nonempty_iff_eq_empty] at hfailed
    exact hsome fun i => hpanicked i
      (eq_none_of_not_counted (by simp [hempty]) (by simp [hfailed]))
  omega

/-- The request of `oneRequest` to its end. -/
def oneRequestDone : List (LiveEvent (World Answer) 1) :=
  oneRequest ++ [.settle onlyTask 5 9] ++
    List.replicate 5 (.press (.task onlyTask)) ++ [.press .await]

theorem press_exit_one :
    let trial := commandTrial fewOutside (.socks5 ⟨"127.0.0.1:1080", none⟩) namedTarget .http1 []
    ∃ l, Machine.runFrom (liveStep trial) (LiveState.init trial ℚ 1 1) oneRequestDone = some l ∧
      l.press.Awaited ∧ (l.press.result .http1 0).exitCode = 0 ∧
      ∃ i result, result.status = .success ∧
        HeardOver (.socks5 ⟨"127.0.0.1:1080", none⟩) namedTarget .http1 result
          (l.trials i).past := by
  intro trial
  have hsome : (Machine.runFrom (liveStep trial) (LiveState.init trial ℚ 1 1) oneRequestDone).map
      (fun l => (l.press.awaited, (l.press.result .http1 0).exitCode,
        trial.ended (l.trials onlyTask))) = some (1, 0, some (some .success)) := by
    decide +kernel
  rcases Option.map_eq_some_iff.mp hsome with ⟨l, hlive, htriple⟩
  rw [Prod.mk.injEq, Prod.mk.injEq] at htriple
  rcases htriple with ⟨hawaited, hzero, hended⟩
  have hsetUp : start (setUp fewOutside proxiedPress)
      = ⟨ret (.socks5 ⟨"127.0.0.1:1080", none⟩, namedTarget), []⟩ := by rfl
  rcases (press_exit fewOutside proxiedPress [] _ rfl _ _ (congrArg Running.prog hsetUp) ℚ .http1 1
    1 oneRequestDone l hlive hawaited .http1 0).2 hzero Nat.one_ne_zero with hheard | hpanic
  · exact ⟨l, hlive, hawaited, hzero, hheard⟩
  · simp [trial, commandTrial, hpanic onlyTask] at hended

end Press

namespace Bench

/-- Whatever the world answers, where `benchmark` returns, there is one outcome
    for each of its plans, in order. A control connection to the server was
    opened and greeted first. Then, plan after plan, the server accepted the
    request, and the test was run over a connection that had just been opened to
    the port of its response, at the address of the control connection. -/
theorem benchmark_outcomes (out : Outside) (formatRateBps : UInt64 → String) (args : Args)
    (ws : List (World Answer)) (s : Running Act Answer String (List BenchOutcome))
    (hrun : Machine.runFrom Calls.step (start (runBenchmark out formatRateBps args)) ws = some s)
    (outcomes : List BenchOutcome) (hret : s.prog = ret outcomes) :
    ∃ host, OutcomesOf out formatRateBps args host outcomes s.past := by
  rcases keepsOne_of_run _ (fun _ => abides_nil _) (runBenchmark_keepsOne out formatRateBps args)
    ws s hrun with ⟨host, -, houtcomes⟩
  exact ⟨host, houtcomes outcomes hret⟩

/-- The upload of `boundBenchmark`. -/
theorem benchmark_outcomes_bound :
    ∃ s outcome, Machine.runFrom Calls.step
        (start (runBenchmark fewOutside (fun _ => "") boundBenchmark)) (List.replicate 7 kindWorld)
          = some s ∧ s.prog = ret [outcome] ∧
      ∃ host, OutcomesOf fewOutside (fun _ => "") boundBenchmark host [outcome] s.past := by
  have hsome : (Machine.runFrom Calls.step
      (start (runBenchmark fewOutside (fun _ => "") boundBenchmark))
      (List.replicate 7 kindWorld)).bind (fun s => s.prog.returned)
      = some [⟨⟨kindTcpUp, 0, "TCP upload"⟩, {}, {}⟩] := by decide +kernel
  rcases Option.bind_eq_some_iff.mp hsome with ⟨s, hrun, hreturned⟩
  have hret := eq_ret_of_returned hreturned
  exact ⟨s, _, hrun, hret, benchmark_outcomes fewOutside _ boundBenchmark _ s hrun _ hret⟩

end Bench

end ProxyPen
