import ProxyPen.Core.Session
import ProxyPen.Lib.Conformance
import ProxyPen.Theory.Readers

/-!
# The Server Against Any Client

`handle_session` with a client that may send anything, in any portions, and
that need not be the client of this repository. The server follows the
protocol below in every state: it greets nobody who has not greeted first, it
answers every request it knows with a response and one report, it expects one
report in return before it takes the next request, and it ends on a request to
close or on one of a kind it does not know. It never panics.

## Main definitions

* `Serving`: The phases of the server.
* `Serving.advance`: Its protocol.
* `ServerConforms`: What holds in every state.

## Theorems

* `handleSession_keeps`: The contract of a turn of the loop.
* `server_conforms`: Conformance against every client.
-/

namespace ProxyPen

open Protocol Proc Lockstep Conformance

/-- The phases of the server. -/
inductive Serving where
  | greeting
  | greeted
  | idle (i : Nat)
  | asked (i : Nat) (req : TestRequest)
  | answered (i : Nat) (req : TestRequest)
  | reported (i : Nat) (req : TestRequest)
  | settled (i : Nat) (req : TestRequest) (clientReport : TestReport)
  | refused (req : TestRequest)
  | ended

/-- A request for a test that the server knows. -/
def Protocol.TestRequest.IsTest (req : TestRequest) : Prop :=
  req.kind = kindTcpUp ∨ req.kind = kindTcpDown ∨ req.kind = kindUdpUp ∨ req.kind = kindUdpDown

instance (req : TestRequest) : Decidable req.IsTest := inferInstanceAs (Decidable (_ ∨ _))

/-- The refusal of a request of an unknown kind. -/
def refusalOf (req : TestRequest) : TestResponse :=
  TestResponse.err ("unknown test kind " ++ toString req.kind.toNat)

namespace Serving

/-- The protocol of the server: one request, one response and a report each
    way, over and over. -/
def advance (data : DataPlane) : Serving → Entry Msg Note → Option Serving
  | greeting, .got .handshake => some greeted
  | greeted, .sent .handshake => some (idle 0)
  | idle i, .got (.request req) => some (asked i req)
  | asked i req, .sent (.response resp) =>
      if req.IsTest ∧ resp = TestResponse.ok (data.port i) then some (answered i req)
      else if ¬ req.IsTest ∧ req.kind ≠ kindClose ∧ resp = refusalOf req then some (refused req)
      else none
  | asked _ req, .note .closed => if req.kind = kindClose then some ended else none
  | answered i req, .sent (.report r) =>
      if r = (data.serverReport i).1 then some (reported i req) else none
  | reported i req, .got (.report r) => if r.InRange then some (settled i req r) else none
  | settled i req r, .note n =>
      if n = .served req (data.serverReport i).1 r then some (idle (i + 1)) else none
  | refused req, .note n => if n = .unknownKind req.kind then some ended else none
  | _, _ => none

end Serving

section

variable (data : DataPlane)

/-- What a server owes at any moment. -/
abbrev ServerConforms : Trail (Entry Msg Note) → Prop :=
  Conforms (fun m bs => bs = m.bytes) Msg.bytes (Serving.advance data) Serving.greeting

/-- A server between two messages. -/
abbrev ServerAt : Serving → Trail (Entry Msg Note) → Prop :=
  AtPhase (fun m bs => bs = m.bytes) Msg.bytes (Serving.advance data) Serving.greeting

theorem serve_test (i : Nat) {req : TestRequest} (h : req.IsTest) :
    Server.serve data i req = (Server.runTest data i req >>= fun _ => Proc.again (i + 1)) := by
  unfold Server.serve
  rcases h with h | h | h | h <;> rw [h] <;> rfl

theorem serve_unknown (i : Nat) {req : TestRequest} (h : ¬ req.IsTest)
    (hclose : req.kind ≠ kindClose) :
    Server.serve data i req
      = (Proc.send (.response (refusalOf req)) (refusalOf req).write >>= fun _ =>
          Proc.note (.note (.unknownKind req.kind))) := by
  simp only [TestRequest.IsTest, not_or] at h
  unfold Server.serve
  rw [if_neg hclose, if_neg h.1, if_neg h.2.1, if_neg h.2.2.1, if_neg h.2.2.2]
  rfl

/-! ## Phases -/

theorem advance_answer {i : Nat} {req : TestRequest} (h : req.IsTest) :
    Serving.advance data (.asked i req) (.sent (.response (TestResponse.ok (data.port i))))
      = some (.answered i req) :=
  if_pos ⟨h, rfl⟩

theorem advance_refuse {i : Nat} {req : TestRequest} (h : ¬ req.IsTest)
    (hclose : req.kind ≠ kindClose) :
    Serving.advance data (.asked i req) (.sent (.response (refusalOf req)))
      = some (.refused req) := by
  show (if _ then _ else if _ then _ else _) = _
  rw [if_neg (fun hboth => h hboth.1), if_pos ⟨h, hclose, rfl⟩]

theorem advance_close {i : Nat} {req : TestRequest} (hclose : req.kind = kindClose) :
    Serving.advance data (.asked i req) (.note .closed) = some .ended :=
  if_pos hclose

theorem advance_report {i : Nat} {req : TestRequest} :
    Serving.advance data (.answered i req) (.sent (.report (data.serverReport i).1))
      = some (.reported i req) :=
  if_pos rfl

theorem advance_settle {i : Nat} {req : TestRequest} {r : TestReport} (hr : r.InRange) :
    Serving.advance data (.reported i req) (.got (.report r)) = some (.settled i req r) :=
  if_pos hr

theorem advance_served {i : Nat} {req : TestRequest} {r : TestReport} :
    Serving.advance data (.settled i req r) (.note (.served req (data.serverReport i).1 r))
      = some (.idle (i + 1)) :=
  if_pos rfl

theorem advance_refused {req : TestRequest} :
    Serving.advance data (.refused req) (.note (.unknownKind req.kind)) = some .ended :=
  if_pos rfl

/-! ## Contracts -/

variable {J : Nat → Trail (Entry Msg Note) → Prop} {P : Trail (Entry Msg Note) → Prop}
  {t : Trail (Entry Msg Note)}

/-- A known test takes the server to the next one. -/
theorem runTest_keeps {i : Nat} {req : TestRequest} (htest : req.IsTest)
    (h : ServerAt data (.asked i req) t) :
    (Server.runTest data i req).Keeps J P (ServerConforms data)
      (fun _ => ServerAt data (.idle (i + 1))) t := by
  unfold Server.runTest
  refine keeps_send (puts_response _) h (advance_answer data htest) (fun t h => ?_)
  refine keeps_send (puts_report _) h (advance_report data) (fun t h => ?_)
  refine keeps_recv onlyReads_report h (fun bs r htakes => ?_)
  rcases (takes_report_iff bs r).mp htakes with ⟨hrange, hbs⟩
  refine ⟨hbs, _, advance_settle data hrange, fun t h => ?_⟩
  exact ⟨h.conforms, (h.noted (advance_served data)).conforms, h.noted (advance_served data)⟩

/-- A turn of the loop starts between two tests, and leaves the loop only when
    the session is over. -/
theorem handleSession_keeps (i : Nat) (h : ServerAt data (.idle i) t) :
    (Server.handleSession data i).Keeps (fun i => ServerAt data (.idle i)) P (ServerConforms data)
      (fun _ => ServerAt data .ended) t := by
  unfold Server.handleSession
  refine keeps_recv onlyReads_request h (fun bs req htakes => ?_)
  refine ⟨(takes_request_iff bs req).mp htakes, _, rfl, fun t h => ?_⟩
  by_cases htest : req.IsTest
  · rw [serve_test data i htest]
    exact keeps_bind ((runTest_keeps data htest h).imp (fun _ t h => ⟨h.conforms, h⟩))
  · by_cases hclose : req.kind = kindClose
    · have hended := h.noted (advance_close data hclose)
      unfold Server.serve
      rw [if_pos hclose]
      exact ⟨h.conforms, hended.conforms, hended⟩
    · rw [serve_unknown data i htest hclose]
      refine keeps_send (puts_response _) h (advance_refuse data htest hclose) (fun t h => ?_)
      have hended := h.noted (advance_refused data)
      exact ⟨h.conforms, hended.conforms, hended⟩

theorem serverSession_keeps :
    Server.session.Keeps (fun i => ServerAt data (.idle i)) P (ServerConforms data)
      (fun _ => ServerAt data .ended) Trail.start := by
  unfold Server.session
  refine keeps_recv onlyReads_handshake (atPhase_start _ _ _ _) (fun bs _ htakes => ?_)
  refine ⟨(takes_handshake_iff bs).mp htakes, .greeted, rfl, fun t h => ?_⟩
  exact keeps_send puts_handshake h rfl (fun t h => ⟨h.conforms, h⟩)

/-! ## Every client -/

theorem carried_bytes {ms : List Msg} {bs : Bytes}
    (h : Carried (fun m bs => bs = m.bytes) ms bs) : bs = ms.flatMap Msg.bytes := by
  rcases h with ⟨parts, hparts, rfl⟩
  induction hparts with
  | nil => rfl
  | cons hpart _ ih => rw [List.flatten_cons, List.flatMap_cons, hpart, ih]

/-- A run that has sent something has started with the client's handshake. -/
theorem greeted_of_sents {log : List (Entry Msg Note)} {phase : Serving}
    (hrun : Machine.runFrom (Serving.advance data) .greeting log = some phase)
    (hsent : sents log ≠ []) : Msg.handshake.bytes <+: (gots log).flatMap Msg.bytes := by
  cases log with
  | nil => exact absurd rfl hsent
  | cons e log =>
      rcases (Machine.runFrom_cons _ _ _ _).mp hrun with ⟨next, hstep, -⟩
      have hfirst : e = .got .handshake := by
        rcases e with m | m | n
        · cases hstep
        · cases m <;> first | rfl | cases hstep
        · cases hstep
      rw [hfirst, gots, List.flatMap_cons]
      exact List.prefix_append _ _

end

/-- Whatever a client sends, and in whatever portions, the server follows its
    protocol. It has decoded only what it has read, written only what it has
    sent, and nothing at all to a client that has not greeted it. It never
    panics, and it returns only when the session is over, with nothing half
    read or half written. -/
theorem server_conforms (data : DataPlane) (s : Exposed Nat (Entry Msg Note) Unit)
    (hs : Machine.Reachable (Exposed.step (Server.handleSession data))
      (Exposed.init Server.session) s) :
    (∃ phase, Machine.runFrom (Serving.advance data) .greeting s.party.log = some phase) ∧
      (gots s.party.log).flatMap Msg.bytes <+: s.taken ∧
      s.out <+: (sents s.party.log).flatMap Msg.bytes ∧
      (s.out ≠ [] → Msg.handshake.bytes <+: s.taken) ∧
      s.party.proc ≠ .panic ∧
      (s.party.proc = .ret () →
        Machine.runFrom (Serving.advance data) .greeting s.party.log = some .ended ∧
        s.taken = (gots s.party.log).flatMap Msg.bytes ∧
        s.out = (sents s.party.log).flatMap Msg.bytes) := by
  have hkeeps := Exposed.exposed_keeps (P := fun _ => False)
    (fun i t h => handleSession_keeps data i h) (serverSession_keeps data) hs
  rcases hkeeps.now with ⟨⟨phase, hrun⟩, ⟨bs, hcarried, hprefix⟩, hout⟩
  have htaken : (gots s.party.log).flatMap Msg.bytes <+: s.taken := by
    have hbytes : bs = (gots s.party.log).flatMap Msg.bytes := carried_bytes hcarried
    rw [← hbytes]
    exact hprefix
  refine ⟨⟨phase, hrun⟩, htaken, hout, fun hwritten => ?_, fun hpanic => ?_, fun hret => ?_⟩
  · refine (greeted_of_sents data hrun (fun hnone => hwritten ?_)).trans htaken
    rw [hnone] at hout
    exact List.prefix_nil.mp hout
  · rw [hpanic] at hkeeps
    exact hkeeps.2
  · rw [hret] at hkeeps
    exact ⟨hkeeps.2.run, carried_bytes hkeeps.2.taken, hkeeps.2.out⟩

/-- Data phases without traffic. -/
def quietPlane : DataPlane :=
  { port := fun _ => 9
    clientReport := fun _ => ⟨{}, by decide⟩
    serverReport := fun _ => ⟨{}, by decide⟩ }

/-- A TCP download for ten milliseconds. -/
def downloadRequest : TestRequest :=
  { kind := kindTcpDown, durationMs := 10, payloadSize := 0, bandwidthBps := 0,
    expectedPackets := 0 }

/-- A client that greets and asks for a test. -/
def askingClient : List Exposure :=
  [.arrive Msg.handshake.bytes] ++ wholeTurns [8, 1] ++ [.turn 0, .turn 0] ++ wholeTurns [8, 1] ++
    [.turn 0, .arrive (Msg.request downloadRequest).bytes] ++ wholeTurns [1, 4, 4, 8, 8]

/-- It reports on the test, and closes with a request in two portions. -/
def closingClient : List Exposure :=
  askingClient ++ [.turn 0, .turn 0] ++ wholeTurns [1, 2, 2] ++ [.turn 0, .turn 0] ++
    wholeTurns (List.replicate 10 8) ++ [.arrive (Msg.report { bytes := 7 }).bytes] ++
    wholeTurns (List.replicate 10 8) ++ [.turn 0, .turn 0, .turn 0] ++
    [.arrive ((Msg.request TestRequest.close).bytes.take 10)] ++ wholeTurns [1, 4, 4] ++
    [.turn 1, .arrive ((Msg.request TestRequest.close).bytes.drop 10), .turn 7, .turn 0] ++
    wholeTurns [8] ++ [.turn 0, .turn 0]

/-- The program has returned. -/
def Proc.isRet {κ ε α : Type} : Proc κ ε α → Bool
  | .ret _ => true
  | _ => false

theorem server_conforms_closing :
    ∃ s, Machine.runFrom (Exposed.step (Server.handleSession quietPlane))
        (Exposed.init Server.session) closingClient = some s ∧
      .note (.served downloadRequest {} { bytes := 7 }) ∈ s.party.log ∧
      s.taken = (gots s.party.log).flatMap Msg.bytes ∧
      s.out = (sents s.party.log).flatMap Msg.bytes ∧
      Machine.runFrom (Serving.advance quietPlane) .greeting s.party.log = some .ended := by
  have hsome : (Machine.runFrom (Exposed.step (Server.handleSession quietPlane))
      (Exposed.init Server.session) closingClient).map
        (fun s => (decide (Entry.note (.served downloadRequest {} { bytes := 7 }) ∈ s.party.log),
          s.party.proc.isRet)) = some (true, true) := by
    decide +kernel
  rcases Option.map_eq_some_iff.mp hsome with ⟨s, hs, hpair⟩
  rw [Prod.mk.injEq, decide_eq_true_eq] at hpair
  have hret : s.party.proc = .ret () := by
    cases hp : s.party.proc <;> simp [hp, Proc.isRet] at hpair ⊢
  rcases (server_conforms quietPlane s ⟨closingClient, hs⟩).2.2.2.2.2 hret
    with ⟨hended, htaken, hout⟩
  exact ⟨s, hs, hpair.1, htaken, hout, hended⟩

end ProxyPen
