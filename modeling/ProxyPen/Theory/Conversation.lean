import ProxyPen.Theory.Address
import ProxyPen.Theory.ClientProtocol
import ProxyPen.Theory.Confinement

/-!
# The Two Levels of a Benchmark

`run_inner` is modelled twice. The command opens connections, and has one
operation for each part of the conversation with the server. The client of a
session reads and writes the bytes of that conversation, and its connections
are open. Here the operations are answered from the bytes a server sends. Then
both return the same outcomes, for all bytes, plans and transports. With the
bytes of a session that the server has ended, the command returns the two
reports of every test.

## Main definitions

* `Bench.wired`: The operations over open connections, answered from bytes.

## Theorems

* `converse_recv`, `converse_send`: A message on a complete byte string.
* `Bench.openData_wired`: Over open connections every data connection opens.
* `Bench.runTests_wired`, `Bench.client_runTests_converse`: One test of each
  level.
* `Bench.runTests_converse`, `Bench.runInner_converse`: The two levels agree.
* `Bench.runInner_served`: A benchmark against the bytes of the server.
-/

namespace ProxyPen

open Protocol Proc Net Socks Calls Outcome Lockstep

section

variable {κ α β γ : Type}

theorem converse_recv {p : Proc κ (Entry Msg Note) γ} (hp : OnlyReads p) (wrap : γ → Msg)
    (f : γ → Proc κ (Entry Msg Note) β) (inp : Bytes) :
    (converse (Proc.recv wrap p >>= f) inp).1
      = (readFrom p inp).bind (fun r => (converse (f r.1) r.2).1) := by
  rw [Proc.recv, bind_assoc, converse_of_onlyReads hp]
  rfl

theorem converse_send {w : Proc κ (Entry Msg Note) Unit} {bs : Bytes} (hw : Puts w bs) (m : Msg)
    (f : Unit → Proc κ (Entry Msg Note) β) (inp : Bytes) :
    (converse (Proc.send m w >>= f) inp).1 = (converse (f ()) inp).1 := by
  rw [Proc.send, mark_bind, converse]
  exact converse_of_puts hw f inp

/-- A last message does not change what is returned. -/
theorem converse_send_ret {w : Proc κ (Entry Msg Note) Unit} {bs : Bytes} (hw : Puts w bs)
    (m : Msg) (p : Proc κ (Entry Msg Note) β) (inp : Bytes) :
    (converse (p >>= fun b => Proc.send m w >>= fun _ => Proc.ret b) inp).1
      = (converse p inp).1 := by
  induction p generalizing inp with
  | ret b => exact converse_send hw m (fun _ => Proc.ret b) inp
  | fail e => rfl
  | panic => rfl
  | again k => rfl
  | readExact n k ih =>
      rw [readExact_bind, converse, converse]
      by_cases hlen : n ≤ inp.length
      · rw [if_pos hlen, if_pos hlen]
        exact ih _ _
      · rw [if_neg hlen, if_neg hlen]
  | writeAll bs p ih => exact ih inp
  | mark e p ih => exact ih inp

end

namespace Bench

/-- Every connection is made, and the server has sent these bytes. The relay of
    an association is given, and so are the client's own figures. -/
def wired (data : DataPlane) (relay : SocketAddr) :
    (op : Act) → Bytes × Nat → Answer op × (Bytes × Nat)
  | .lookup _, s => (.ok [relay], s)
  | .resolve _, s => (.ok [relay], s)
  | .dialName _, s => (.ok (), s)
  | .dial _, s => (.ok (), s)
  | .bindTo _ _, s => (.ok (), s)
  | .udp _, s => (.ok (), s)
  | .authenticate _, s => (.ok (), s)
  | .command _ dst, s => (.ok dst, s)
  | .relayed _, s => ((), s)
  | .randomId, s => (0, s)
  | .query _, s => (.ok none, s)
  | .http1, s => (⟨ok (), ok (), ok (), fun _ => ok (), []⟩, s)
  | .http2, s => (⟨ok (), ok (), ok (), ok (), fun _ => ok (), ok (), ok 200, []⟩, s)
  | .http3, s =>
      (⟨ok (), ok (), ok (), ok (), ok (), fun _ => ok (), false, ok (), ok (), ok 200, []⟩, s)
  | .serve _, s => (.error "", s)
  | .handshake, (inp, i) =>
      match readFrom (readHandshake : Client.Program Unit) inp with
      | some (_, rest) => (.ok (), rest, i)
      | none => (.error "", inp, i)
  | .request _, (inp, i) =>
      match readFrom (TestResponse.read : Client.Program TestResponse) inp with
      | some (resp, rest) => (.ok resp, rest, i)
      | none => (.error "", inp, i)
  -- The client's report is that of its own data phase.
  | .transfer plan, (inp, i) =>
      match readFrom (TestReport.read : Client.Program TestReport) inp with
      | some (r, rest) => (.ok ⟨plan, (data.clientReport i).1, r⟩, rest, i + 1)
      | none => (.error "", inp, i)

section

variable (out : Outside) (transport : Transport) (data : DataPlane) {relay : SocketAddr}

theorem answeredBy_act {ε α σ : Type} (h : (op : Act) → σ → Answer op × σ) (op : Act)
    (f : Answer op → Cmd ε α) (s : σ) :
    answeredBy h (Cmd.act op >>= f) s = answeredBy h (f (h op s).1) (h op s).2 :=
  rfl

theorem connectTcp_wired (server : SocketAddr) (s : Bytes × Nat) :
    answeredBy (wired data relay) (transport.connectTcp (syntheticTarget out server)) s
      = some ((), s) := by
  cases transport with
  | socks5 config => rfl
  | direct iface => cases iface <;> rfl

theorem associate_wired (hrelay : relay.ip.isUnspecified = false) (config : ProxyConfig)
    (s : Bytes × Nat) :
    answeredBy (wired data relay) (Associate.dial out config) s = some (relay, s) := by
  have hlook : Associate.lookUpProxy (.ok [relay]) config.addr = Calls.ret (.ok []) := by
    rw [Associate.lookUpProxy, Associate.looksUp, hrelay, Bool.false_and]
    rfl
  have haddr : Associate.relayAddr ⟨fun _ => .ok [relay], fun _ => .ok [], out.ioText⟩ config.addr
      Associate.bindHint = ok relay := by
    rw [Associate.relayAddr]
    simp only [hrelay, Bool.false_eq_true, if_false]
  show answeredBy (wired data relay) (Associate.lookUpProxy (.ok [relay]) config.addr >>=
    fun proxy => lift ((Associate.relayAddr ⟨fun _ => .ok [relay], fun _ => proxy, out.ioText⟩
      config.addr Associate.bindHint).mapErr ProxyPenError.socks) >>= fun found =>
        Cmd.act (.udp found) >>= fun connected => Cmd.io connected >>= fun _ => Calls.ret found) s
    = _
  rw [hlook, answeredBy_bind]
  show answeredBy (wired data relay) (lift ((Associate.relayAddr ⟨fun _ => .ok [relay],
    fun _ => .ok [], out.ioText⟩ config.addr Associate.bindHint).mapErr ProxyPenError.socks) >>=
      fun found => Cmd.act (.udp found) >>= fun connected =>
        Cmd.io connected >>= fun _ => Calls.ret found) s = _
  rw [haddr]
  rfl

/-- An association needs a relay that is an address. -/
theorem openUdp_wired (hrelay : relay.ip.isUnspecified = false) (server : SocketAddr)
    (s : Bytes × Nat) :
    ∃ socket, answeredBy (wired data relay) (transport.openUdp out server) s
      = some (socket, s) := by
  cases transport with
  | direct iface => cases iface <;> exact ⟨_, rfl⟩
  | socks5 config =>
      refine ⟨.socks5 (SocksAddr.ofSocketAddr server), ?_⟩
      show answeredBy (wired data relay) (Associate.dial out config >>= fun _ =>
        Cmd.act (.relayed (SocksAddr.ofSocketAddr server)) >>= fun _ => Calls.ret _) s = _
      rw [answeredBy_bind, associate_wired out data hrelay]
      rfl

theorem openData_wired (hrelay : relay.ip.isUnspecified = false) (server : SocketAddr)
    (kind : UInt8) (s : Bytes × Nat) :
    answeredBy (wired data relay) (openData out transport server kind) s = some ((), s) := by
  unfold openData
  by_cases htcp : kind = kindTcpUp ∨ kind = kindTcpDown
  · rw [if_pos htcp]
    exact connectTcp_wired out transport data server s
  · rw [if_neg htcp, answeredBy_bind]
    rcases openUdp_wired out transport data hrelay server s with ⟨socket, hsocket⟩
    rw [hsocket]
    rfl

/-- One test of the command: the response, an open data connection, and the
    report. -/
theorem runTests_wired (hrelay : relay.ip.isUnspecified = false) (opts : BenchOptions)
    (target : SocketAddr) (plan : Plan) (plans : List Plan) (inp : Bytes) (i : Nat) :
    answeredBy (wired data relay) (runTests out transport opts target (plan :: plans)) (inp, i)
      = (readFrom (TestResponse.read : Client.Program TestResponse) inp).bind (fun resp =>
          if resp.1.status ≠ statusOk then none
          else (readFrom (TestReport.read : Client.Program TestReport) resp.2).bind (fun report =>
            (answeredBy (wired data relay) (runTests out transport opts target plans)
              (report.2, i + 1)).map (fun r =>
                (⟨plan, (data.clientReport i).1, report.1⟩ :: r.1, r.2)))) := by
  rw [runTests, answeredBy_act]
  cases hresp : readFrom (TestResponse.read : Client.Program TestResponse) inp with
  | none =>
      have hop : wired data relay (.request (opts.request plan)) (inp, i)
          = (.error "", inp, i) := by
        simp only [wired, hresp]
      rw [hop]
      rfl
  | some r =>
      rcases r with ⟨resp, rest⟩
      have hop : wired data relay (.request (opts.request plan)) (inp, i)
          = (.ok resp, rest, i) := by
        simp only [wired, hresp]
      rw [hop, Option.bind_some]
      show answeredBy (wired data relay) (if resp.status ≠ statusOk then _ else _) (rest, i)
        = if resp.status ≠ statusOk then none else _
      by_cases hok : resp.status ≠ statusOk
      · rw [if_pos hok, if_pos hok]
        rfl
      · rw [if_neg hok, if_neg hok, answeredBy_bind, answeredBy_mapErr,
          openData_wired out transport data hrelay, Option.bind_some, answeredBy_act]
        cases hreport : readFrom (TestReport.read : Client.Program TestReport) rest with
        | none =>
            have hend : wired data relay (.transfer plan) (rest, i) = (.error "", rest, i) := by
              simp only [wired, hreport]
            rw [hend]
            rfl
        | some r =>
            rcases r with ⟨report, rest'⟩
            have hend : wired data relay (.transfer plan) (rest, i)
                = (.ok ⟨plan, (data.clientReport i).1, report⟩, rest', i + 1) := by
              simp only [wired, hreport]
            rw [hend, Option.bind_some]
            show answeredBy (wired data relay) (runTests out transport opts target plans >>=
              fun outcomes => Calls.ret (⟨plan, (data.clientReport i).1, report⟩ :: outcomes))
                (rest', i + 1) = _
            rw [answeredBy_bind, Option.map_eq_bind]
            rfl

/-- One test of the client: it reads the same two messages. -/
theorem client_runTests_converse (opts : BenchOptions) (plan : Plan) (hplan : plan.IsTest)
    (plans : List Plan) (i : Nat) (os : List BenchOutcome) (inp : Bytes) :
    (converse (Client.runTests opts data i (plan :: plans) os) inp).1
      = (readFrom (TestResponse.read : Client.Program TestResponse) inp).bind (fun resp =>
          if resp.1.status ≠ statusOk then none
          else (readFrom (TestReport.read : Client.Program TestReport) resp.2).bind (fun report =>
            (converse (Client.runTests opts data (i + 1) plans
              (os ++ [⟨plan, (data.clientReport i).1, report.1⟩])) report.2).1)) := by
  rw [Client.runTests, converse_send (puts_request _), converse_recv onlyReads_response]
  refine Option.bind_congr (fun resp _ => ?_)
  show (converse (if resp.1.status ≠ statusOk then _ else _) resp.2).1
    = if resp.1.status ≠ statusOk then none else _
  by_cases hok : resp.1.status ≠ statusOk
  · rw [if_pos hok, if_pos hok]
    rfl
  · rw [if_neg hok, if_neg hok, client_runTest_eq data i plan hplan]
    unfold Client.exchange
    rw [bind_assoc, converse_recv onlyReads_report]
    refine Option.bind_congr (fun report _ => ?_)
    rw [bind_assoc, converse_send (puts_report _)]
    rfl

theorem runTests_converse (hrelay : relay.ip.isUnspecified = false) (opts : BenchOptions)
    (target : SocketAddr) (plans : List Plan) (hplans : ∀ plan ∈ plans, plan.IsTest) (i : Nat)
    (os : List BenchOutcome) (inp : Bytes) :
    (answeredBy (wired data relay) (runTests out transport opts target plans) (inp, i)).map
        (fun r => os ++ r.1)
      = (converse (Client.runTests opts data i plans os) inp).1 := by
  induction plans generalizing i os inp with
  | nil => exact congrArg some (List.append_nil os)
  | cons plan plans ih =>
      rw [runTests_wired out transport data hrelay,
        client_runTests_converse data opts plan (hplans plan List.mem_cons_self), Option.map_bind]
      refine Option.bind_congr (fun resp _ => ?_)
      by_cases hok : resp.1.status ≠ statusOk
      · simp only [Function.comp_apply, if_pos hok, Option.map_none]
      · simp only [Function.comp_apply, if_neg hok]
        rw [Option.map_bind]
        refine Option.bind_congr (fun report _ => ?_)
        rw [← ih (fun p hp => hplans p (List.mem_cons_of_mem plan hp)), Function.comp_apply,
          Option.map_map]
        refine congrArg (fun f => Option.map f _) (funext fun r => ?_)
        rw [Function.comp_apply, List.append_assoc, List.singleton_append]

/-- The two levels of `run_inner`: over open connections, the command returns
    the outcomes that the client of a session returns on the same bytes, and
    nothing where that one does not return. -/
theorem runInner_converse (hrelay : relay.ip.isUnspecified = false)
    (formatRateBps : UInt64 → String) (opts : BenchOptions) (target : SocketAddr) (inp : Bytes) :
    (answeredBy (wired data relay)
        (runInner out formatRateBps transport (some target) false none opts) (inp, 0)).map Prod.fst
      = (converse (Client.runInner formatRateBps opts data) inp).1 := by
  unfold runInner Client.runInner
  show (answeredBy (wired data relay) (if (buildPlans formatRateBps opts).isEmpty then _ else _)
    (inp, 0)).map _ = _
  by_cases hnone : (buildPlans formatRateBps opts).isEmpty
  · simp only [hnone, if_true]
    rfl
  · simp only [hnone, Bool.false_eq_true, if_false]
    rw [answeredBy_bind, answeredBy_mapErr, connectTcp_wired, Option.bind_some, answeredBy_act,
      converse_send puts_handshake, converse_recv onlyReads_handshake]
    cases hread : readFrom (readHandshake : Client.Program Unit) inp with
    | none =>
        have hop : wired data relay .handshake (inp, 0) = (.error "", inp, 0) := by
          simp only [wired, hread]
        rw [hop]
        rfl
    | some r =>
        rcases r with ⟨u, rest⟩
        have hop : wired data relay .handshake (inp, 0) = (.ok (), rest, 0) := by
          simp only [wired, hread]
        rw [hop]
        have htests := runTests_converse out transport data hrelay opts target _
          (isTest_of_mem_buildPlans formatRateBps opts) 0 [] rest
        rw [Option.bind_some]
        show (answeredBy (wired data relay) (runTests out transport opts target
            (buildPlans formatRateBps opts)) (rest, 0)).map Prod.fst
          = (converse (Client.runTests opts data 0 (buildPlans formatRateBps opts) [] >>=
              fun outcomes => Proc.send (.request TestRequest.close) TestRequest.close.write >>=
                fun _ => Proc.ret outcomes) rest).1
        rw [converse_send_ret (puts_request _), ← htests]
        rfl

/-- A server that has ended its session has sent and decoded everything. -/
theorem serverLog_of_ended (formatRateBps : UInt64 → String) (opts : BenchOptions)
    (hne : buildPlans formatRateBps opts ≠ []) (s : Session)
    (hs : Session.Reachable formatRateBps opts data s) (hend : s.right.proc = .ret ()) :
    s.right.log = serverLog opts data (buildPlans formatRateBps opts) := by
  have hplans := isTest_of_mem_buildPlans formatRateBps opts
  have hstep := inStep_of_reachable hs (inStep_of_speaks
    (speaks_runInner opts data formatRateBps hne) (speaks_session opts data _ hplans)
    (gots_clientLog opts data _) (gots_serverLog opts data _))
  rcases hstep with ⟨OL, OR, ML, MR, -, hR, -, hlogR⟩
  rw [hend] at hR
  rcases follows_of_ret hR with ⟨-, -, -, hMR⟩
  rwa [hMR, List.append_nil] at hlogR

/-- A benchmark over open connections, against what the server sends in a
    session that it ends, returns for each plan what the client and the server
    have counted in its test, in order. Any schedule may have led there. -/
theorem runInner_served (hrelay : relay.ip.isUnspecified = false)
    (formatRateBps : UInt64 → String) (opts : BenchOptions) (target : SocketAddr)
    (hne : buildPlans formatRateBps opts ≠ []) (s : Session)
    (hs : Session.Reachable formatRateBps opts data s) (hend : s.right.proc = .ret ()) :
    (answeredBy (wired data relay)
        (runInner out formatRateBps transport (some target) false none opts)
        (stream Msg.bytes (sents s.right.log), 0)).map Prod.fst
      = some ((buildPlans formatRateBps opts).mapIdx
          (fun i plan => ⟨plan, (data.clientReport i).1, (data.serverReport i).1⟩)) := by
  have hspeaks : Speaks Msg.bytes (fun k : Empty => k.elim)
      (Client.runInner formatRateBps opts data) _ _ := speaks_runInner opts data formatRateBps hne
  rw [runInner_converse out transport data hrelay, serverLog_of_ended data formatRateBps opts hne
    s hs hend, ← gots_clientLog, converse_of_follows hspeaks, outcomes_eq_mapIdx]
  simp only [Nat.zero_add, outcome]

end

/-- An upload through a proxy. -/
theorem runInner_served_upload :
    ∃ s, Session.Reachable (fun _ => "") uploadOptions quietPlane s ∧ s.right.proc = .ret () ∧
      (answeredBy (wired quietPlane ⟨loopback, 1080⟩)
          (runInner fewOutside (fun _ => "") (.socks5 ⟨"127.0.0.1:1080", none⟩)
            (some ⟨loopback, 9⟩) false none uploadOptions)
          (stream Msg.bytes (sents s.right.log), 0)).map Prod.fst
        = some [⟨⟨kindTcpUp, 0, "TCP upload"⟩, {}, {}⟩] := by
  have hne : buildPlans (fun _ => "") uploadOptions ≠ [] := by decide
  rcases reachable_end uploadOptions quietPlane (fun _ => "") hne with ⟨s, hs, -, hend⟩
  have hrelay : loopback.isUnspecified = false := by decide
  exact ⟨s, hs, hend,
    runInner_served fewOutside _ quietPlane hrelay _ uploadOptions _ hne s hs hend⟩

end Bench

end ProxyPen
