import ProxyPen.Core.Plan
import ProxyPen.Lib.Lockstep

/-!
# The Control Session

Both ends of the control channel: `run_inner` of `bench/client.rs` and
`handle_session` of `bench/server.rs`, as programs on a duplex byte stream.

What the data phase of a test does to the control channel is nothing, except
that it decides two reports and a port. `DataPlane` holds these per test, so a
session is quantified over every outcome its data phases can have. On the
control channel the three data arms of the client are the same, and so are the
four of the server.

The client's loop over its plans is a recursion on them. The server loops
forever; its program jumps back to `handleSession` at the next test.

Messages are logged as they are sent and decoded, and each party takes a note
at the end of a test.

## Main definitions

* `Msg`: A control message.
* `DataPlane`: What the data phases decide.
* `Client.runTest`, `Client.runTests`, `Client.runInner`: The client.
* `Server.runTest`, `Server.serve`, `Server.handleSession`, `Server.session`:
  The server.
* `Session`: The two of them at work.
-/

namespace ProxyPen

open Protocol

/-- A control message. -/
inductive Msg where
  | handshake
  | request (r : TestRequest)
  | response (r : TestResponse)
  | report (r : TestReport)
  deriving DecidableEq, Repr

/-- What the client keeps of a test. -/
structure BenchOutcome where
  plan : Plan
  client : TestReport
  server : TestReport
  deriving DecidableEq, Repr

/-- What a party notes at the end of a test. -/
inductive Note where
  /-- the client pushed an outcome -/
  | outcome (o : BenchOutcome)
  /-- the server ended a test, having sent its report and read the client's -/
  | served (req : TestRequest) (server clientReport : TestReport)
  /-- the server was asked for a kind of test it does not know -/
  | unknownKind (kind : UInt8)
  /-- the server was asked to close -/
  | closed
  deriving DecidableEq, Repr

/-- A report whose counters are `u64`. -/
abbrev WireReport := { r : TestReport // r.InRange }

/-- What the data phase of each test decides. -/
structure DataPlane where
  port : Nat → UInt16
  clientReport : Nat → WireReport
  serverReport : Nat → WireReport

namespace Client

/-- The client has no loop of its own to jump to. -/
abbrev Program := Proc Empty (Entry Msg Note)

/-- The end of a test: the server's report, then the client's. -/
def exchange (plan : Plan) (clientReport : TestReport) : Program BenchOutcome := do
  let serverReport ← Proc.recv .report TestReport.read
  Proc.send (.report clientReport) clientReport.write
  return { plan, client := clientReport, server := serverReport }

/-- The match on the kind of a test that the server has agreed to. -/
def runTest (data : DataPlane) (i : Nat) (plan : Plan) : Program BenchOutcome :=
  if plan.kind = kindTcpUp ∨ plan.kind = kindTcpDown then exchange plan (data.clientReport i).1
  else if plan.kind = kindUdpUp then exchange plan (data.clientReport i).1
  else if plan.kind = kindUdpDown then exchange plan (data.clientReport i).1
  -- `_ => unreachable!()`
  else Proc.panic

/-- The loop over the plans, from the `i`-th test on. -/
def runTests (opts : BenchOptions) (data : DataPlane) :
    Nat → List Plan → List BenchOutcome → Program (List BenchOutcome)
  | _, [], outcomes => return outcomes
  | i, plan :: plans, outcomes => do
      let req := opts.request plan
      Proc.send (.request req) req.write
      let resp ← Proc.recv .response TestResponse.read
      if resp.status ≠ statusOk then
        Proc.fail ("server rejected test " ++ plan.label ++ ": " ++ resp.error)
      else
        let outcome ← runTest data i plan
        -- `outcomes.push`
        Proc.note (.note (.outcome outcome))
        runTests opts data (i + 1) plans (outcomes ++ [outcome])

def runInner (formatRateBps : UInt64 → String) (opts : BenchOptions) (data : DataPlane) :
    Program (List BenchOutcome) :=
  let plans := buildPlans formatRateBps opts
  if plans.isEmpty then
    Proc.fail "no tests selected (check --mode/--direction/--udp-bandwidth)"
  else do
    Proc.send .handshake writeHandshake
    Proc.recv (fun _ => .handshake) readHandshake
    let outcomes ← runTests opts data 0 plans []
    -- The loop is over; the close request has no response.
    Proc.send (.request TestRequest.close) TestRequest.close.write
    return outcomes

end Client

namespace Server

/-- The server jumps back to the head of its loop with the number of the next
    test. -/
abbrev Program := Proc Nat (Entry Msg Note)

/-- The control side of `run_tcp_up`, `run_tcp_down`, `run_udp_up` and
    `run_udp_down`: the response, and after the data phase both reports. -/
def runTest (data : DataPlane) (i : Nat) (req : TestRequest) : Program Unit := do
  let resp := TestResponse.ok (data.port i)
  Proc.send (.response resp) resp.write
  -- The data phase lies here, between the response and the reports.
  let report := (data.serverReport i).1
  Proc.send (.report report) report.write
  let clientReport ← Proc.recv .report TestReport.read
  Proc.note (.note (.served req report clientReport))

/-- The match on the kind of the `i`-th request. -/
def serve (data : DataPlane) (i : Nat) (req : TestRequest) : Program Unit :=
  if req.kind = kindClose then Proc.note (.note .closed)
  else if req.kind = kindTcpUp then do
    runTest data i req
    Proc.again (i + 1)
  else if req.kind = kindTcpDown then do
    runTest data i req
    Proc.again (i + 1)
  else if req.kind = kindUdpUp then do
    runTest data i req
    Proc.again (i + 1)
  else if req.kind = kindUdpDown then do
    runTest data i req
    Proc.again (i + 1)
  -- The `other` arm answers and returns, without going back to the loop.
  else do
    let resp := TestResponse.err ("unknown test kind " ++ toString req.kind.toNat)
    Proc.send (.response resp) resp.write
    Proc.note (.note (.unknownKind req.kind))

/-- One turn of the loop of `handle_session`, at the `i`-th test. -/
def handleSession (data : DataPlane) (i : Nat) : Program Unit := do
  let req ← Proc.recv .request TestRequest.read
  serve data i req

/-- `handle_session` from its start. -/
def session : Program Unit := do
  Proc.recv (fun _ => .handshake) readHandshake
  Proc.send .handshake writeHandshake
  Proc.again 0

end Server

/-- Client and server with the control bytes in flight between them. -/
abbrev Session := Duplex Empty Nat (Entry Msg Note) (List BenchOutcome) Unit

namespace Session

/-- Both parties before their first byte. -/
def init (formatRateBps : UInt64 → String) (opts : BenchOptions) (data : DataPlane) : Session :=
  { left := { proc := Client.runInner formatRateBps opts data, log := [] }
    right := { proc := Server.session, log := [] }
    toLeft := []
    toRight := [] }

def step (data : DataPlane) (s : Session) (t : Turn) : Option Session :=
  Duplex.step (fun k : Empty => k.elim) (Server.handleSession data) s t

/-- The states of a session that any schedule reaches. -/
def Reachable (formatRateBps : UInt64 → String) (opts : BenchOptions) (data : DataPlane)
    (s : Session) : Prop :=
  Machine.Reachable (step data) (init formatRateBps opts data) s

end Session

end ProxyPen
