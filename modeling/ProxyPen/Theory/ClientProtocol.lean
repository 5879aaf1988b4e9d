import ProxyPen.Theory.Control
import ProxyPen.Theory.ServerProtocol

/-!
# The Client Against Any Server

`run_inner` with a server that may send anything, in any portions. The client
follows the protocol below in every state: it waits for the greeting to be
returned, asks for its tests one by one and in order, says nothing more once a
test is refused, and reports its own figures only after it has the server's.
The arm of its match that is marked unreachable is never reached. What it
returns is one outcome for each of its plans, in their order, and the figures
in it are those the server has sent for that plan.

## Main definitions

* `Asking`: The phases of the client.
* `Asking.advance`: Its protocol.
* `ClientConforms`: What holds in every state.

## Theorems

* `runTests_keeps`: The contract of the loop over the plans.
* `asking_account`: The outcomes so far are those of the plans so far.
* `client_conforms`: Conformance against every server.
-/

namespace ProxyPen

open Protocol Proc Lockstep Conformance

/-- The phases of the client. From the first test on, a phase has the outcomes
    so far, the plan it is at, and the plans after it. -/
inductive Asking where
  | hello
  | greeting
  | next (os : List BenchOutcome) (plans : List Plan)
  | asked (os : List BenchOutcome) (plan : Plan) (plans : List Plan)
  | accepted (os : List BenchOutcome) (plan : Plan) (plans : List Plan)
  | rejected (os : List BenchOutcome)
  | measured (os : List BenchOutcome) (plan : Plan) (plans : List Plan) (serverReport : TestReport)
  | told (os : List BenchOutcome) (plan : Plan) (plans : List Plan) (serverReport : TestReport)
  | ended (os : List BenchOutcome)

section

variable (opts : BenchOptions) (data : DataPlane) (plans₀ : List Plan)

/-- The protocol of the client: the number of outcomes is the number of the
    test. -/
def Asking.advance : Asking → Entry Msg Note → Option Asking
  | hello, .sent .handshake => some greeting
  | greeting, .got .handshake => some (next [] plans₀)
  | next os (plan :: plans), .sent m =>
      if m = .request (opts.request plan) then some (asked os plan plans) else none
  | next os [], .sent m => if m = .request TestRequest.close then some (ended os) else none
  | asked os plan plans, .got (.response resp) =>
      if resp.status = statusOk then some (accepted os plan plans) else some (rejected os)
  | accepted os plan plans, .got (.report r) =>
      if r.InRange then some (measured os plan plans r) else none
  | measured os plan plans r, .sent m =>
      if m = .report (data.clientReport os.length).1 then some (told os plan plans r) else none
  | told os plan plans r, .note n =>
      if n = .outcome ⟨plan, (data.clientReport os.length).1, r⟩ then
        some (next (os ++ [⟨plan, (data.clientReport os.length).1, r⟩]) plans)
      else none
  | _, _ => none

/-- The bytes that are read as a message. -/
def Msg.ReadAs (m : Msg) (bs : Bytes) : Prop :=
  Takes (m.kind.read : Proc Empty (Entry Msg Note) Msg) bs m

/-- What a client owes at any moment. -/
abbrev ClientConforms : Trail (Entry Msg Note) → Prop :=
  Conforms Msg.ReadAs Msg.bytes (Asking.advance opts data plans₀) Asking.hello

/-- A client between two messages. -/
abbrev ClientAt : Asking → Trail (Entry Msg Note) → Prop :=
  AtPhase Msg.ReadAs Msg.bytes (Asking.advance opts data plans₀) Asking.hello

/-! ## Phases -/

variable {os : List BenchOutcome} {plan : Plan} {plans : List Plan} {r : TestReport}

theorem advance_ask :
    Asking.advance opts data plans₀ (.next os (plan :: plans)) (.sent (.request (opts.request plan)))
      = some (.asked os plan plans) :=
  if_pos rfl

theorem advance_end :
    Asking.advance opts data plans₀ (.next os []) (.sent (.request TestRequest.close))
      = some (.ended os) := by
  simp only [Asking.advance, if_true]

theorem advance_accept {resp : TestResponse} (h : resp.status = statusOk) :
    Asking.advance opts data plans₀ (.asked os plan plans) (.got (.response resp))
      = some (.accepted os plan plans) :=
  if_pos h

theorem advance_reject {resp : TestResponse} (h : resp.status ≠ statusOk) :
    Asking.advance opts data plans₀ (.asked os plan plans) (.got (.response resp))
      = some (.rejected os) :=
  if_neg h

theorem advance_measure (hr : r.InRange) :
    Asking.advance opts data plans₀ (.accepted os plan plans) (.got (.report r))
      = some (.measured os plan plans r) :=
  if_pos hr

theorem advance_tell :
    Asking.advance opts data plans₀ (.measured os plan plans r)
      (.sent (.report (data.clientReport os.length).1)) = some (.told os plan plans r) :=
  if_pos rfl

theorem advance_push :
    Asking.advance opts data plans₀ (.told os plan plans r)
        (.note (.outcome ⟨plan, (data.clientReport os.length).1, r⟩))
      = some (.next (os ++ [⟨plan, (data.clientReport os.length).1, r⟩]) plans) :=
  if_pos rfl

/-- What a step of the protocol can be. -/
inductive Asking.Move : Asking → Entry Msg Note → Asking → Prop where
  | greet : Move hello (.sent .handshake) greeting
  | greeted : Move greeting (.got .handshake) (next [] plans₀)
  | ask (os : List BenchOutcome) (plan : Plan) (plans : List Plan) :
      Move (next os (plan :: plans)) (.sent (.request (opts.request plan))) (asked os plan plans)
  | close (os : List BenchOutcome) :
      Move (next os []) (.sent (.request TestRequest.close)) (ended os)
  | accept (os : List BenchOutcome) (plan : Plan) (plans : List Plan) (resp : TestResponse) :
      Move (asked os plan plans) (.got (.response resp)) (accepted os plan plans)
  | reject (os : List BenchOutcome) (plan : Plan) (plans : List Plan) (resp : TestResponse) :
      Move (asked os plan plans) (.got (.response resp)) (rejected os)
  | measure (os : List BenchOutcome) (plan : Plan) (plans : List Plan) (r : TestReport)
      (hr : r.InRange) : Move (accepted os plan plans) (.got (.report r)) (measured os plan plans r)
  | tell (os : List BenchOutcome) (plan : Plan) (plans : List Plan) (r : TestReport) :
      Move (measured os plan plans r) (.sent (.report (data.clientReport os.length).1))
        (told os plan plans r)
  | push (os : List BenchOutcome) (plan : Plan) (plans : List Plan) (r : TestReport) (n : Note) :
      Move (told os plan plans r) (.note n)
        (next (os ++ [⟨plan, (data.clientReport os.length).1, r⟩]) plans)

theorem move_of_advance {phase phase' : Asking} {e : Entry Msg Note}
    (h : phase.advance opts data plans₀ e = some phase') :
    Asking.Move opts data plans₀ phase e phase' := by
  unfold Asking.advance at h
  split at h
  · cases h
    exact Asking.Move.greet
  · cases h
    exact Asking.Move.greeted
  · simp only [Option.ite_none_right_eq_some, Option.some.injEq] at h
    rcases h with ⟨rfl, rfl⟩
    exact Asking.Move.ask _ _ _
  · simp only [Option.ite_none_right_eq_some, Option.some.injEq] at h
    rcases h with ⟨rfl, rfl⟩
    exact Asking.Move.close _
  · split at h
    · cases h
      exact Asking.Move.accept _ _ _ _
    · cases h
      exact Asking.Move.reject _ _ _ _
  · simp only [Option.ite_none_right_eq_some, Option.some.injEq] at h
    rcases h with ⟨hr, rfl⟩
    exact Asking.Move.measure _ _ _ _ hr
  · simp only [Option.ite_none_right_eq_some, Option.some.injEq] at h
    rcases h with ⟨rfl, rfl⟩
    exact Asking.Move.tell _ _ _ _
  · simp only [Option.ite_none_right_eq_some, Option.some.injEq] at h
    rcases h with ⟨rfl, rfl⟩
    exact Asking.Move.push _ _ _ _ _
  · cases h

/-! ## Contracts -/

variable {J : Empty → Trail (Entry Msg Note) → Prop} {P : Trail (Entry Msg Note) → Prop}
  {t : Trail (Entry Msg Note)}

/-- A test that the server has agreed to gives an outcome for its plan. -/
theorem exchange_keeps (h : ClientAt opts data plans₀ (.accepted os plan plans) t) :
    (Client.exchange plan (data.clientReport os.length).1).Keeps J P
      (ClientConforms opts data plans₀)
      (fun o t => ∃ r, o = ⟨plan, (data.clientReport os.length).1, r⟩ ∧
        ClientAt opts data plans₀ (.told os plan plans r) t) t := by
  unfold Client.exchange
  refine keeps_recv onlyReads_report h (fun bs r htakes => ?_)
  have hrange := ((takes_report_iff bs r).mp htakes).1
  refine ⟨takes_map htakes Msg.report, _, advance_measure opts data plans₀ hrange, fun t h => ?_⟩
  refine keeps_send (puts_report _) h (advance_tell opts data plans₀) (fun t h => ?_)
  exact ⟨h.conforms, r, rfl, h⟩

/-- The loop over the plans, by induction on those that are left. -/
theorem runTests_keeps (hplans : ∀ plan ∈ plans, plan.IsTest)
    (h : ClientAt opts data plans₀ (.next os plans) t) :
    (Client.runTests opts data os.length plans os).Keeps J P (ClientConforms opts data plans₀)
      (fun os' => ClientAt opts data plans₀ (.next os' [])) t := by
  induction plans generalizing os t with
  | nil => exact ⟨h.conforms, h⟩
  | cons plan plans ih =>
      unfold Client.runTests
      refine keeps_send (puts_request _) h (advance_ask opts data plans₀) (fun t h => ?_)
      refine keeps_recv onlyReads_response h (fun bs resp htakes => ?_)
      have hread := takes_map htakes Msg.response
      by_cases hok : resp.status = statusOk
      · refine ⟨hread, _, advance_accept opts data plans₀ hok, fun t h => ?_⟩
        rw [if_neg (fun hne => hne hok),
          client_runTest_eq data os.length plan (hplans plan List.mem_cons_self)]
        refine keeps_bind ((exchange_keeps opts data plans₀ h).imp (fun o t ho => ?_))
        rcases ho with ⟨r, rfl, h⟩
        refine keeps_note h (advance_push opts data plans₀) (fun t h => ?_)
        have hrest := ih (fun p hp => hplans p (List.mem_cons_of_mem plan hp)) h
        rwa [List.length_append] at hrest
      · refine ⟨hread, _, advance_reject opts data plans₀ hok, fun t h => ?_⟩
        rw [if_pos hok]
        exact h.conforms

theorem runInner_keeps (formatRateBps : UInt64 → String) :
    (Client.runInner formatRateBps opts data).Keeps J (fun _ => False)
      (ClientConforms opts data (buildPlans formatRateBps opts))
      (fun os => ClientAt opts data (buildPlans formatRateBps opts) (.ended os)) Trail.start := by
  have hstart := atPhase_start Msg.ReadAs Msg.bytes
    (Asking.advance opts data (buildPlans formatRateBps opts)) Asking.hello
  unfold Client.runInner
  by_cases hnone : (buildPlans formatRateBps opts).isEmpty
  · simp only [hnone, if_true]
    exact hstart.conforms
  · simp only [hnone, Bool.false_eq_true, if_false]
    refine keeps_send puts_handshake hstart rfl (fun t h => ?_)
    refine keeps_recv onlyReads_handshake h (fun bs _ htakes => ?_)
    refine ⟨takes_map htakes (fun _ => Msg.handshake), .next [] _, rfl, fun t h => ?_⟩
    refine keeps_bind ((runTests_keeps opts data _
      (isTest_of_mem_buildPlans formatRateBps opts) h).imp (fun os t h => ?_))
    exact keeps_send (puts_request _) h (advance_end opts data _) (fun t h => ⟨h.conforms, h⟩)

/-! ## Outcomes -/

/-- The reports decoded, in order. -/
def heardReports (log : List (Entry Msg Note)) : List TestReport :=
  (gots log).filterMap (fun m => match m with
    | .report r => some r
    | _ => none)

namespace Asking

/-- The outcomes so far. -/
def outcomes : Asking → List BenchOutcome
  | hello => []
  | greeting => []
  | next os _ => os
  | asked os _ _ => os
  | accepted os _ _ => os
  | rejected os => os
  | measured os _ _ _ => os
  | told os _ _ _ => os
  | ended os => os

/-- The report of the server that is not in an outcome yet. -/
def current : Asking → List TestReport
  | measured _ _ _ r => [r]
  | told _ _ _ r => [r]
  | _ => []

/-- The plans without an outcome. -/
def left (plans₀ : List Plan) : Asking → List Plan
  | hello => plans₀
  | greeting => plans₀
  | next _ plans => plans
  | asked _ plan plans => plan :: plans
  | accepted _ plan plans => plan :: plans
  | rejected os => plans₀.drop os.length
  | measured _ plan plans _ => plan :: plans
  | told _ plan plans _ => plan :: plans
  | ended _ => []

/-- What the outcomes of a phase are worth: there is one for each of the first
    plans, with the client's own figures and readable ones of the server. -/
structure Accounts (phase : Asking) : Prop where
  plans : phase.outcomes.map BenchOutcome.plan ++ phase.left plans₀ = plans₀
  client : phase.outcomes.map BenchOutcome.client
    = (List.range phase.outcomes.length).map (fun i => (data.clientReport i).1)
  range : ∀ r ∈ phase.outcomes.map BenchOutcome.server ++ phase.current, r.InRange

end Asking

theorem accounts_advance {phase phase' : Asking} {e : Entry Msg Note}
    (h : phase.advance opts data plans₀ e = some phase') (hacc : phase.Accounts data plans₀) :
    phase'.Accounts data plans₀ := by
  rcases hacc with ⟨hplans, hclient, hrange⟩
  cases move_of_advance opts data plans₀ h with
  | greet => exact ⟨hplans, hclient, hrange⟩
  | greeted => exact ⟨hplans, hclient, hrange⟩
  | ask os plan plans => exact ⟨hplans, hclient, hrange⟩
  | close os => exact ⟨hplans, hclient, hrange⟩
  | accept os plan plans resp => exact ⟨hplans, hclient, hrange⟩
  | reject os plan plans resp =>
      refine ⟨?_, hclient, hrange⟩
      -- What is left is what comes behind as many plans as there are outcomes.
      have hleft : plans₀.drop os.length = plan :: plans := by
        rw [← hplans]
        exact List.drop_left' (List.length_map BenchOutcome.plan)
      show os.map BenchOutcome.plan ++ plans₀.drop os.length = plans₀
      rw [hleft]
      exact hplans
  | measure os plan plans r hr =>
      refine ⟨hplans, hclient, fun r' hr' => ?_⟩
      rcases List.mem_append.mp hr' with hold | hnew
      · exact hrange r' (List.mem_append_left _ hold)
      · rw [List.mem_singleton.mp hnew]
        exact hr
  | tell os plan plans r => exact ⟨hplans, hclient, hrange⟩
  | push os plan plans r n =>
      simp only [Asking.outcomes, Asking.left, Asking.current] at hplans hclient hrange
      refine ⟨?_, ?_, ?_⟩
      · simp only [Asking.outcomes, Asking.left, List.map_append, List.map_cons, List.map_nil,
          List.append_assoc, List.singleton_append]
        exact hplans
      · simp only [Asking.outcomes, List.map_append, List.map_cons, List.map_nil,
          List.length_append, List.length_cons, List.length_nil, List.range_succ, hclient]
      · simp only [Asking.outcomes, Asking.current, List.map_append, List.map_cons, List.map_nil,
          List.append_nil]
        exact hrange

/-- The server's figures in the outcomes are the reports that were decoded. -/
theorem reports_advance {phase phase' : Asking} {e : Entry Msg Note}
    (h : phase.advance opts data plans₀ e = some phase') :
    phase'.outcomes.map BenchOutcome.server ++ phase'.current
      = phase.outcomes.map BenchOutcome.server ++ phase.current ++ heardReports [e] := by
  cases move_of_advance opts data plans₀ h with
  | push os plan plans r n =>
      simp only [Asking.outcomes, Asking.current, List.map_append, List.map_cons, List.map_nil,
        List.append_nil]
      exact (List.append_nil _).symm
  | measure os plan plans r hr =>
      simp only [Asking.outcomes, Asking.current, List.append_nil]
      rfl
  | _ => exact (List.append_nil _).symm

theorem reports_run (log : List (Entry Msg Note)) {phase phase' : Asking}
    (h : Machine.runFrom (Asking.advance opts data plans₀) phase log = some phase') :
    phase'.outcomes.map BenchOutcome.server ++ phase'.current
      = phase.outcomes.map BenchOutcome.server ++ phase.current ++ heardReports log := by
  induction log generalizing phase with
  | nil =>
      cases h
      exact (List.append_nil _).symm
  | cons e log ih =>
      rcases (Machine.runFrom_cons _ _ _ _).mp h with ⟨next, hstep, hrest⟩
      rw [ih hrest, reports_advance opts data plans₀ hstep, List.append_assoc]
      congr 1
      simp only [heardReports, ← List.filterMap_append, ← gots_append, List.singleton_append]

end

/-- Whatever a server sends, and in whatever portions, the client follows its
    protocol. It has decoded only what it has read and written only what it has
    sent, and it never panics. Where it returns, the session is over with
    nothing half read or half written, and there is one outcome for each plan,
    in order, with the client's own figures and the very ones the server has
    sent. -/
theorem client_conforms (formatRateBps : UInt64 → String) (opts : BenchOptions) (data : DataPlane)
    (s : Exposed Empty (Entry Msg Note) (List BenchOutcome))
    (hs : Machine.Reachable (Exposed.step Exposed.noLoop)
      (Exposed.init (Client.runInner formatRateBps opts data)) s) :
    (∃ phase, Machine.runFrom (Asking.advance opts data (buildPlans formatRateBps opts)) .hello
        s.party.log = some phase) ∧
      (∃ bs, Carried Msg.ReadAs (gots s.party.log) bs ∧ bs <+: s.taken) ∧
      s.out <+: (sents s.party.log).flatMap Msg.bytes ∧
      s.party.proc ≠ .panic ∧
      (∀ os, s.party.proc = .ret os →
        Carried Msg.ReadAs (gots s.party.log) s.taken ∧
        s.out = (sents s.party.log).flatMap Msg.bytes ∧
        os.map BenchOutcome.plan = buildPlans formatRateBps opts ∧
        os.map BenchOutcome.client
          = (List.range os.length).map (fun i => (data.clientReport i).1) ∧
        os.map BenchOutcome.server = heardReports s.party.log ∧
        ∀ o ∈ os, o.server.InRange) := by
  have hkeeps := Exposed.exposed_keeps (J := fun k _ => k.elim) (fun k => k.elim)
    (runInner_keeps opts data formatRateBps) hs
  rcases hkeeps.now with ⟨hrun, htaken, hout⟩
  refine ⟨hrun, htaken, hout, fun hpanic => ?_, fun os hret => ?_⟩
  · rw [hpanic] at hkeeps
    exact hkeeps.2
  · rw [hret] at hkeeps
    rcases hkeeps.2 with ⟨hended, hwhole, hwritten⟩
    have hacc := Machine.run_invariant (Asking.Accounts data (buildPlans formatRateBps opts))
      (fun _ _ _ hstep hacc => accounts_advance opts data _ hstep hacc) _ _ _ hended
      ⟨rfl, rfl, fun r hr => absurd hr List.not_mem_nil⟩
    have hreports := reports_run opts data _ _ hended
    rcases hacc with ⟨hplans, hclient, hrange⟩
    refine ⟨hwhole, hwritten, ?_, hclient, ?_, fun o ho => ?_⟩
    · exact (List.append_nil _).symm.trans hplans
    · exact (List.append_nil _).symm.trans hreports
    · exact hrange _ (List.mem_append_left _ (List.mem_map_of_mem ho))

/-- One upload over TCP. -/
def uploadOptions : BenchOptions :=
  { mode := .tcp, direction := .up, duration := 1000000, udpBandwidth := [], udpSize := 16,
    tcpChunk := 16 }

/-- A server that greets, agrees to the test and reports. -/
def agreeingServer : List Exposure :=
  [.turn 0] ++ wholeTurns [8, 1] ++ [.arrive Msg.handshake.bytes] ++ wholeTurns [8, 1] ++
    [.turn 0, .turn 0] ++ wholeTurns [1, 4, 4, 8, 8] ++
    [.arrive (Msg.response (TestResponse.ok 9)).bytes] ++ wholeTurns [1, 2, 2] ++
    [.turn 0, .turn 0, .arrive (Msg.report { bytes := 7 }).bytes] ++
    wholeTurns (List.replicate 10 8) ++ [.turn 0, .turn 0] ++ wholeTurns (List.replicate 10 8) ++
    [.turn 0, .turn 0] ++ wholeTurns [1, 4, 4, 8, 8]

theorem client_conforms_upload :
    ∃ s os, Machine.runFrom (Exposed.step Exposed.noLoop)
        (Exposed.init (Client.runInner (fun _ => "") uploadOptions quietPlane)) agreeingServer
          = some s ∧ s.party.proc = .ret os ∧
      os.map BenchOutcome.plan = buildPlans (fun _ => "") uploadOptions ∧
      os.map BenchOutcome.server = [{ bytes := 7 }] :=
  ⟨_, _, rfl, rfl, ((client_conforms (fun _ => "") uploadOptions quietPlane _
    ⟨agreeingServer, rfl⟩).2.2.2.2 _ rfl).2.2.1, rfl⟩

end ProxyPen
