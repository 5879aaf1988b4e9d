import ProxyPen.Lib.Rendezvous
import ProxyPen.Theory.Codec

/-!
# Agreement on the Control Channel

Client and server stay in lockstep through a whole session, for any list of
plans, any reports and any way the two byte streams are cut into reads and
writes.

`clientLog` and `serverLog` are the conversation as each side sees it when it
is over. Each program is shown to speak its log, by walking the program once,
with an induction over the plans; that the logs mirror each other is a
computation. `Lockstep` turns this into a statement about every state of every
schedule, and `Rendezvous` supplies a run that reaches the end.

## Main definitions

* `clientTest`, `clientTests`, `clientLog`: The client's log.
* `serverTest`, `serverTests`, `serverLog`: The server's log.
* `outcomes`: What the client returns.
* `Agreement`: What holds in every state of a session.

## Theorems

* `speaks_runInner`, `speaks_session`: The programs speak their logs.
* `gots_clientLog`, `gots_serverLog`: The logs mirror each other.
* `reachable_end`: A session can be completed.
* `control_agreement`: Agreement in every state of every schedule.
-/

namespace ProxyPen

open Protocol Lockstep

variable (opts : BenchOptions) (data : DataPlane)

/-- What the client keeps of the `i`-th test. -/
def outcome (i : Nat) (plan : Plan) : BenchOutcome :=
  { plan, client := (data.clientReport i).1, server := (data.serverReport i).1 }

/-- What the client returns for the tests from the `i`-th on. -/
def outcomes : Nat → List Plan → List BenchOutcome
  | _, [] => []
  | i, plan :: plans => outcome data i plan :: outcomes (i + 1) plans

/-- One test in the client's log. -/
def clientTest (i : Nat) (plan : Plan) : List (Entry Msg Note) :=
  [.sent (.request (opts.request plan)), .got (.response (TestResponse.ok (data.port i))),
    .got (.report (data.serverReport i).1), .sent (.report (data.clientReport i).1),
    .note (.outcome (outcome data i plan))]

def clientTests : Nat → List Plan → List (Entry Msg Note)
  | _, [] => []
  | i, plan :: plans => clientTest opts data i plan ++ clientTests (i + 1) plans

def clientLog (plans : List Plan) : List (Entry Msg Note) :=
  [.sent .handshake, .got .handshake] ++ clientTests opts data 0 plans ++
    [.sent (.request TestRequest.close)]

/-- One test in the server's log. -/
def serverTest (i : Nat) (plan : Plan) : List (Entry Msg Note) :=
  [.got (.request (opts.request plan)), .sent (.response (TestResponse.ok (data.port i))),
    .sent (.report (data.serverReport i).1), .got (.report (data.clientReport i).1),
    .note (.served (opts.request plan) (data.serverReport i).1 (data.clientReport i).1)]

def serverTests : Nat → List Plan → List (Entry Msg Note)
  | _, [] => []
  | i, plan :: plans => serverTest opts data i plan ++ serverTests (i + 1) plans

def serverLog (plans : List Plan) : List (Entry Msg Note) :=
  [.got .handshake, .sent .handshake] ++ (serverTests opts data 0 plans ++
    [.got (.request TestRequest.close), .note .closed])

/-! ## The logs mirror each other -/

theorem gots_clientTests (i : Nat) (plans : List Plan) :
    gots (clientTests opts data i plans) = sents (serverTests opts data i plans) := by
  induction plans generalizing i with
  | nil => rfl
  | cons plan plans ih => rw [clientTests, serverTests, gots_append, sents_append, ih]; rfl

theorem gots_serverTests (i : Nat) (plans : List Plan) :
    gots (serverTests opts data i plans) = sents (clientTests opts data i plans) := by
  induction plans generalizing i with
  | nil => rfl
  | cons plan plans ih => rw [clientTests, serverTests, gots_append, sents_append, ih]; rfl

theorem gots_clientLog (plans : List Plan) :
    gots (clientLog opts data plans) = sents (serverLog opts data plans) := by
  simp only [clientLog, serverLog, gots_append, sents_append, gots_clientTests]
  simp only [gots, sents, List.append_nil]

theorem gots_serverLog (plans : List Plan) :
    gots (serverLog opts data plans) = sents (clientLog opts data plans) := by
  simp only [clientLog, serverLog, gots_append, sents_append, gots_serverTests]
  simp only [gots, sents, List.append_assoc]

/-! ## The programs speak their logs -/

/-- On a planned test every arm of the client is the same exchange. -/
theorem client_runTest_eq (i : Nat) (plan : Plan) (hplan : plan.IsTest) :
    Client.runTest data i plan = Client.exchange plan (data.clientReport i).1 := by
  unfold Client.runTest
  rcases hplan with h | h | h | h
  · rw [if_pos (Or.inl h)]
  · rw [if_pos (Or.inr h)]
  · rw [h]; rfl
  · rw [h]; rfl

/-- On a planned test every arm of the server is the same, and the server
    goes on. -/
theorem serve_eq (i : Nat) (plan : Plan) (hplan : plan.IsTest) :
    Server.serve data i (opts.request plan)
      = (Server.runTest data i (opts.request plan) >>= fun _ => Proc.again (i + 1)) := by
  -- The request carries the kind of its plan, so both sides take matching arms.
  have hkind : (opts.request plan).kind = plan.kind := rfl
  rw [Server.serve, hkind]
  rcases hplan with h | h | h | h <;> rw [h] <;> rfl

theorem speaks_exchange {β : Type} (i : Nat) (plan : Plan)
    (k : BenchOutcome → Client.Program β) {L : List (Entry Msg Note)} {b : β}
    {body : Empty → Client.Program β}
    (hk : Speaks Msg.bytes body (k (outcome data i plan)) L b) :
    Speaks Msg.bytes body (Client.exchange plan (data.clientReport i).1 >>= k)
      (.got (.report (data.serverReport i).1) :: .sent (.report (data.clientReport i).1) :: L)
      b := by
  rw [Client.exchange, Proc.bind_assoc]
  refine speaks_recv Msg.report (takes_report _ (data.serverReport i).2) _ ?_
  rw [Proc.bind_assoc]
  exact speaks_send _ (puts_report _) _ hk

theorem speaks_runTests {β : Type} (plans : List Plan) (hplans : ∀ plan ∈ plans, plan.IsTest)
    (i : Nat) (acc : List BenchOutcome) (k : List BenchOutcome → Client.Program β)
    {L : List (Entry Msg Note)} {b : β} {body : Empty → Client.Program β}
    (hk : Speaks Msg.bytes body (k (acc ++ outcomes data i plans)) L b) :
    Speaks Msg.bytes body (Client.runTests opts data i plans acc >>= k)
      (clientTests opts data i plans ++ L) b := by
  induction plans generalizing i acc with
  | nil =>
      rw [outcomes, List.append_nil] at hk
      exact hk
  | cons plan plans ih =>
      rcases List.forall_mem_cons.mp hplans with ⟨hplan, hrest⟩
      rw [Client.runTests, Proc.bind_assoc]
      refine speaks_send _ (puts_request _) _ ?_
      rw [Proc.bind_assoc]
      refine speaks_recv Msg.response (takes_response_ok (data.port i)) _ ?_
      -- The response is positive, so the client goes on to the exchange.
      rw [if_neg (fun h => h rfl), Proc.bind_assoc, client_runTest_eq data i plan hplan]
      refine speaks_exchange data i plan _ ?_
      rw [Proc.bind_assoc]
      -- The remaining tests start with this one's outcome in the accumulator.
      refine speaks_note _ _ (ih hrest (i + 1) _ ?_)
      rw [outcomes] at hk
      rw [List.append_assoc]
      exact hk

theorem speaks_runInner (formatRateBps : UInt64 → String)
    (hne : buildPlans formatRateBps opts ≠ []) {body : Empty → Client.Program (List BenchOutcome)} :
    Speaks Msg.bytes body (Client.runInner formatRateBps opts data)
      (clientLog opts data (buildPlans formatRateBps opts))
      (outcomes data 0 (buildPlans formatRateBps opts)) := by
  have hempty : ¬ (buildPlans formatRateBps opts).isEmpty = true := by
    rw [List.isEmpty_iff]
    exact hne
  unfold Client.runInner
  simp only [if_neg hempty]
  refine speaks_send _ puts_handshake _ (speaks_recv _ takes_handshake _ ?_)
  refine speaks_runTests opts data _ (isTest_of_mem_buildPlans formatRateBps opts) 0 [] _ ?_
  exact speaks_send _ (puts_request _) _ speaks_ret

theorem speaks_handleSession (plans : List Plan) (hplans : ∀ plan ∈ plans, plan.IsTest) (i : Nat) :
    Speaks Msg.bytes (Server.handleSession data) (Server.handleSession data i)
      (serverTests opts data i plans ++ [.got (.request TestRequest.close), .note .closed]) () := by
  induction plans generalizing i with
  | nil =>
      refine speaks_recv Msg.request (takes_request TestRequest.close) _ ?_
      exact Follows.note Note.closed _ _ _ _ _ speaks_ret
  | cons plan plans ih =>
      rcases List.forall_mem_cons.mp hplans with ⟨hplan, hrest⟩
      refine speaks_recv Msg.request (takes_request (opts.request plan)) _ ?_
      rw [serve_eq opts data i plan hplan, Server.runTest, Proc.bind_assoc]
      refine speaks_send _ (puts_response _) _ ?_
      rw [Proc.bind_assoc]
      refine speaks_send _ (puts_report _) _ ?_
      rw [Proc.bind_assoc]
      refine speaks_recv Msg.report (takes_report _ (data.clientReport i).2) _ ?_
      -- Back at the head of the loop the server speaks the remaining tests.
      exact speaks_note _ _ (speaks_again (i + 1) (ih hrest (i + 1)))

theorem speaks_session (plans : List Plan) (hplans : ∀ plan ∈ plans, plan.IsTest) :
    Speaks Msg.bytes (Server.handleSession data) Server.session (serverLog opts data plans) () := by
  refine speaks_recv (fun _ => Msg.handshake) takes_handshake _ ?_
  exact speaks_send _ puts_handshake _
    (speaks_again 0 (speaks_handleSession opts data plans hplans 0))

/-! ## A session can be completed -/

/-- From the head of both loops through all remaining tests. -/
theorem reachable_tests {body : Empty → Client.Program (List BenchOutcome)} (plans : List Plan)
    (hplans : ∀ plan ∈ plans, plan.IsTest) (i : Nat) (acc : List BenchOutcome)
    (k : List BenchOutcome → Client.Program (List BenchOutcome)) (l l' : List (Entry Msg Note)) :
    ∃ m m', Machine.Reachable (Duplex.step body (Server.handleSession data))
      ⟨⟨Client.runTests opts data i plans acc >>= k, l⟩, ⟨Server.handleSession data i, l'⟩, [], []⟩
      ⟨⟨k (acc ++ outcomes data i plans), m⟩, ⟨Server.handleSession data (i + plans.length), m'⟩,
        [], []⟩ := by
  induction plans generalizing i acc l l' with
  | nil =>
      rw [outcomes, List.append_nil]
      exact ⟨l, l', [], rfl⟩
  | cons plan plans ih =>
      rcases List.forall_mem_cons.mp hplans with ⟨hplan, hrest⟩
      rcases ih hrest (i + 1) (acc ++ [outcome data i plan]) _ _ with ⟨m, m', hend⟩
      refine ⟨m, m', ?_⟩
      rw [outcomes, List.length_cons, Nat.add_comm plans.length 1, ← Nat.add_assoc,
        ← List.singleton_append (l := outcomes data (i + 1) plans), ← List.append_assoc]
      refine Machine.Reachable.trans ?_ hend
      rw [Client.runTests, Proc.bind_assoc]
      -- Request, response, the server's report, the client's report.
      refine Machine.Reachable.trans (left_to_right _ Msg.request (puts_request (opts.request plan))
        (takes_request (opts.request plan)) _ _ l l') ?_
      rw [serve_eq opts data i plan hplan, Server.runTest, Proc.bind_assoc, Proc.bind_assoc]
      refine Machine.Reachable.trans (right_to_left _ Msg.response (puts_response _)
        (takes_response_ok (data.port i)) _ _ _ _) ?_
      rw [if_neg (fun h => h rfl), Proc.bind_assoc, client_runTest_eq data i plan hplan,
        Client.exchange, Proc.bind_assoc, Proc.bind_assoc]
      refine Machine.Reachable.trans (right_to_left _ Msg.report (puts_report _)
        (takes_report _ (data.serverReport i).2) _ _ _ _) ?_
      rw [Proc.bind_assoc, Proc.bind_assoc]
      refine Machine.Reachable.trans (left_to_right _ Msg.report (puts_report _)
        (takes_report _ (data.clientReport i).2) _ _ _ _) ?_
      -- Both parties note the test, and the server jumps back.
      refine Machine.Reachable.trans (left_reaches (reaches_mark _ _ _ []) _ []) ?_
      refine Machine.Reachable.trans (right_reaches (reaches_mark _ _ _ []) _ []) ?_
      exact right_reaches (reaches_again (i + 1) _ []) _ []

/-- A schedule that brings both parties to their end. -/
theorem reachable_end (formatRateBps : UInt64 → String)
    (hne : buildPlans formatRateBps opts ≠ []) :
    ∃ s, Session.Reachable formatRateBps opts data s ∧
      s.left.proc = .ret (outcomes data 0 (buildPlans formatRateBps opts)) ∧
      s.right.proc = .ret () := by
  have hempty : ¬ (buildPlans formatRateBps opts).isEmpty = true := by
    rw [List.isEmpty_iff]
    exact hne
  have hplans := isTest_of_mem_buildPlans formatRateBps opts
  rcases @reachable_tests opts data (fun k : Empty => k.elim) _ hplans 0 []
    (fun os => Proc.send (.request TestRequest.close) TestRequest.close.write >>= fun _ => pure os)
    _ _ with ⟨m, m', htests⟩
  refine ⟨⟨⟨.ret _, m ++ [.sent (.request TestRequest.close)]⟩,
    ⟨.ret (), m' ++ [.got (.request TestRequest.close)] ++ [.note .closed]⟩, [], []⟩, ?_, rfl, rfl⟩
  rw [Session.Reachable, Session.init, Client.runInner]
  simp only [if_neg hempty]
  -- The handshakes, then all tests, then the request to close.
  refine Machine.Reachable.trans (left_to_right _ (fun _ => Msg.handshake) puts_handshake
    takes_handshake _ _ [] []) ?_
  refine Machine.Reachable.trans (right_to_left _ (fun _ => Msg.handshake) puts_handshake
    takes_handshake _ _ _ _) ?_
  refine Machine.Reachable.trans (right_reaches (reaches_again 0 _ []) _ []) ?_
  refine Machine.Reachable.trans htests ?_
  refine Machine.Reachable.trans (left_to_right _ Msg.request (puts_request TestRequest.close)
    (takes_request TestRequest.close) _ _ _ _) ?_
  exact right_reaches (reaches_mark _ _ _ []) _ []

/-! ## Agreement -/

theorem outcomes_eq_mapIdx (i : Nat) (plans : List Plan) :
    outcomes data i plans = plans.mapIdx (fun j plan => outcome data (i + j) plan) := by
  induction plans generalizing i with
  | nil => rfl
  | cons plan plans ih =>
      rw [outcomes, List.mapIdx_cons, ih]
      simp only [Nat.add_zero, Nat.add_assoc, Nat.add_comm 1]

theorem notes_clientTests (i : Nat) (plans : List Plan) :
    notes (clientTests opts data i plans)
      = plans.mapIdx (fun j plan => Note.outcome (outcome data (i + j) plan)) := by
  induction plans generalizing i with
  | nil => rfl
  | cons plan plans ih =>
      rw [clientTests, notes_append, ih, List.mapIdx_cons]
      simp only [Nat.add_zero, Nat.add_assoc, Nat.add_comm 1]
      rfl

theorem notes_serverTests (i : Nat) (plans : List Plan) :
    notes (serverTests opts data i plans) = plans.mapIdx (fun j plan =>
      Note.served (opts.request plan) (data.serverReport (i + j)).1
        (data.clientReport (i + j)).1) := by
  induction plans generalizing i with
  | nil => rfl
  | cons plan plans ih =>
      rw [serverTests, notes_append, ih, List.mapIdx_cons]
      simp only [Nat.add_zero, Nat.add_assoc, Nat.add_comm 1]
      rfl

/-- What holds in every state of a session with these plans: each side has
    decoded a front of what the other side sent, neither has failed or
    panicked, and what it noted of each test is that test's own. When both
    have ended, the client returns every outcome in order, the server ended on
    the request to close, and nothing is left in flight. -/
structure Agreement (plans : List Plan) (s : Session) : Prop where
  clientReads : gots s.left.log <+: sents s.right.log
  serverReads : gots s.right.log <+: sents s.left.log
  clientRuns : s.left.proc ≠ .panic ∧ ∀ e, s.left.proc ≠ .fail e
  serverRuns : s.right.proc ≠ .panic ∧ ∀ e, s.right.proc ≠ .fail e
  knownKinds : ∀ kind, Note.unknownKind kind ∉ notes s.right.log
  clientNotes : notes s.left.log <+: plans.mapIdx (fun i plan =>
    Note.outcome ⟨plan, (data.clientReport i).1, (data.serverReport i).1⟩)
  serverNotes : notes s.right.log <+: plans.mapIdx (fun i plan =>
    Note.served (opts.request plan) (data.serverReport i).1 (data.clientReport i).1) ++ [.closed]
  ended : ∀ os u, s.left.proc = .ret os → s.right.proc = .ret u →
    os = plans.mapIdx (fun i plan => ⟨plan, (data.clientReport i).1, (data.serverReport i).1⟩) ∧
    (gots s.right.log).getLast? = some (.request TestRequest.close) ∧
    (notes s.right.log).getLast? = some .closed ∧ s.toLeft = [] ∧ s.toRight = []

/-- A future excludes a failure and a panic. -/
theorem running_of_follows {κ α : Type} {len : Msg → Nat}
    {body : κ → Proc κ (Entry Msg Note) α} {p : Proc κ (Entry Msg Note) α} {I O : Bytes}
    {L : List (Entry Msg Note)} {a : α} (h : Follows len body p I O L a) :
    p ≠ .panic ∧ ∀ e, p ≠ .fail e := by
  constructor
  · rintro rfl
    cases h
  · rintro e rfl
    cases h

theorem notes_clientLog (plans : List Plan) :
    notes (clientLog opts data plans) = plans.mapIdx (fun i plan =>
      Note.outcome ⟨plan, (data.clientReport i).1, (data.serverReport i).1⟩) := by
  rw [clientLog, notes_append, notes_append, notes_clientTests]
  simp only [notes, List.nil_append, List.append_nil, Nat.zero_add, outcome]

theorem notes_serverLog (plans : List Plan) :
    notes (serverLog opts data plans) = plans.mapIdx (fun i plan =>
      Note.served (opts.request plan) (data.serverReport i).1 (data.clientReport i).1)
        ++ [.closed] := by
  rw [serverLog, notes_append, notes_append, notes_serverTests]
  simp only [notes, List.nil_append, Nat.zero_add]

theorem agreement_of_inStep (plans : List Plan) (s : Session)
    (h : InStep (fun m => (Msg.bytes m).length) (fun k : Empty => k.elim)
      (Server.handleSession data) (clientLog opts data plans) (serverLog opts data plans)
      (outcomes data 0 plans) () s) : Agreement opts data plans s := by
  have hclient := left_gots_prefix bytes_pos (gots_clientLog opts data plans) h
  have hserver := right_gots_prefix bytes_pos (gots_serverLog opts data plans) h
  -- What holds at the end is taken from lockstep before it is opened up.
  have hended : ∀ os u, s.left.proc = .ret os → s.right.proc = .ret u → _ :=
    fun os u hl hr => inStep_finished h hl hr
  rcases h with ⟨OL, OR, ML, MR, hL, hR, hlogL, hlogR⟩
  have hnotesL : notes s.left.log <+: notes (clientLog opts data plans) := by
    rw [← hlogL, notes_append]
    exact List.prefix_append _ _
  have hnotesR : notes s.right.log <+: notes (serverLog opts data plans) := by
    rw [← hlogR, notes_append]
    exact List.prefix_append _ _
  rw [notes_clientLog] at hnotesL
  rw [notes_serverLog] at hnotesR
  refine ⟨hclient, hserver, running_of_follows hL, running_of_follows hR, ?_, hnotesL, hnotesR, ?_⟩
  -- All the server will ever note are its tests and the close.
  · intro kind hmem
    rcases List.mem_append.mp (hnotesR.subset hmem) with h | h
    · rcases List.mem_mapIdx.mp h with ⟨i, hi, heq⟩
      cases heq
    · cases List.mem_singleton.mp h
  · intro os u hl hr
    rcases hended os u hl hr with ⟨hos, -, htoL, htoR, -, hlog⟩
    refine ⟨?_, ?_, ?_, htoL, htoR⟩
    · rw [hos, outcomes_eq_mapIdx]
      simp only [Nat.zero_add, outcome]
    · rw [hlog, serverLog, gots_append, gots_append, ← List.append_assoc]
      exact List.getLast?_concat
    · rw [hlog, notes_serverLog]
      exact List.getLast?_concat

/-- Without a plan the client gives up before it connects, and no byte is ever
    exchanged. -/
theorem reachable_eq_init (formatRateBps : UInt64 → String)
    (hnil : buildPlans formatRateBps opts = []) (s : Session)
    (hs : Session.Reachable formatRateBps opts data s) :
    s = Session.init formatRateBps opts data := by
  have hclient : Client.runInner formatRateBps opts data
      = .fail "no tests selected (check --mode/--direction/--udp-bandwidth)" := by
    unfold Client.runInner
    simp only [hnil, List.isEmpty_nil, if_true]
  refine Machine.reachable_invariant (fun s => s = Session.init formatRateBps opts data) ?_ _ s hs rfl
  rintro s t s' hstep rfl
  -- The client has ended, and the server waits for a handshake.
  cases t with
  | left n =>
      simp only [Session.step, Duplex.step, Session.init, hclient, Party.advance,
        reduceCtorEq] at hstep
  | right n =>
      have hblocked : (Session.init formatRateBps opts data).right.advance
          (Server.handleSession data) [] n = none := by
        -- It waits for eight bytes that nobody writes.
        have hread : ∃ f, Server.session = .readExact (7 + 1) f := ⟨_, rfl⟩
        rcases hread with ⟨f, hf⟩
        simp only [Session.init, hf, Party.advance, List.length_nil]
        rw [if_neg (by omega)]
      simp only [Session.step, Duplex.step] at hstep
      rw [show (Session.init formatRateBps opts data).toRight = [] from rfl, hblocked] at hstep
      cases hstep

/-- Client and server agree in every state of every schedule, for every plan
    list the options select, and the session can be completed. When the
    options select nothing, the client gives up before it connects. -/
theorem control_agreement (formatRateBps : UInt64 → String) :
    (buildPlans formatRateBps opts ≠ [] →
      (∀ s, Session.Reachable formatRateBps opts data s →
        Agreement opts data (buildPlans formatRateBps opts) s) ∧
      ∃ s, Session.Reachable formatRateBps opts data s ∧
        ∃ os u, s.left.proc = .ret os ∧ s.right.proc = .ret u) ∧
    (buildPlans formatRateBps opts = [] → ∀ s, Session.Reachable formatRateBps opts data s →
      s.left.log = [] ∧ s.right.log = [] ∧ s.toLeft = [] ∧ s.toRight = [] ∧
        s.left.proc = .fail "no tests selected (check --mode/--direction/--udp-bandwidth)") := by
  have hplans := isTest_of_mem_buildPlans formatRateBps opts
  refine ⟨fun hne => ⟨fun s hs => ?_, ?_⟩, fun hnil s hs => ?_⟩
  · refine agreement_of_inStep opts data _ s (inStep_of_reachable hs ?_)
    exact inStep_of_speaks (speaks_runInner opts data formatRateBps hne)
      (speaks_session opts data _ hplans) (gots_clientLog opts data _) (gots_serverLog opts data _)
  · rcases reachable_end opts data formatRateBps hne with ⟨s, hs, hl, hr⟩
    exact ⟨s, hs, _, _, hl, hr⟩
  · rw [reachable_eq_init opts data formatRateBps hnil s hs]
    refine ⟨rfl, rfl, rfl, rfl, ?_⟩
    simp only [Session.init, Client.runInner, hnil, List.isEmpty_nil, if_true]

/-- A session of two tests. -/
theorem control_agreement_tcp :
    ∃ s, Session.Reachable (fun _ => "") ⟨.tcp, .both, 1000000, [], 16, 16⟩
        ⟨fun _ => 9, fun _ => ⟨{}, by decide⟩, fun _ => ⟨{}, by decide⟩⟩ s ∧
      Agreement ⟨.tcp, .both, 1000000, [], 16, 16⟩
        ⟨fun _ => 9, fun _ => ⟨{}, by decide⟩, fun _ => ⟨{}, by decide⟩⟩
        [⟨kindTcpUp, 0, "TCP upload"⟩, ⟨kindTcpDown, 0, "TCP download"⟩] s ∧
      ∃ os u, s.left.proc = .ret os ∧ s.right.proc = .ret u := by
  rcases (control_agreement ⟨.tcp, .both, 1000000, [], 16, 16⟩
    ⟨fun _ => 9, fun _ => ⟨{}, by decide⟩, fun _ => ⟨{}, by decide⟩⟩ (fun _ => "")).1 (by decide)
    with ⟨hagree, s, hs, hended⟩
  exact ⟨s, hs, hagree s hs, hended⟩

end ProxyPen
