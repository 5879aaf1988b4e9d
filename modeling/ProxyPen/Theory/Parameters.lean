import ProxyPen.Core.TcpPhase
import ProxyPen.Core.UdpPhase

/-!
# The Parameters of a Test

Client and server each take the parameters of a test from their own source:
the client from its options, the server from the request. The request has 32
bits for the duration in milliseconds and 32 for a size, and the two sides
raise a small size to different minima.

The parameters are read off the loops of the two sides.

## Main definitions

* `TestParams`: How long a test runs, and the size of a chunk or datagram.
* `Client.params`, `Server.params`: The parameters of the two sides.
* `Client.Refuses`: The client returns an error instead of running the test.
* `Expressible`: What the request can express.

## Theorems

* `same_test_iff`: When both sides run the same test.
* `differing_tests`: Tests on which they differ.
-/

namespace ProxyPen

open Protocol Socks Machine

structure TestParams where
  durationNs : Nat
  size : Nat
  deriving DecidableEq, Repr

/-- The parameters of the client's half of a test. -/
def Client.params (sock : TransportUdpSocket) (udpMax : UdpMax) (opts : BenchOptions)
    (plan : Plan) : TestParams :=
  if plan.kind = kindTcpUp then
    let c := Client.tcpSender opts.duration opts.tcpChunk
    ⟨c.durationNs, c.chunk⟩
  else if plan.kind = kindTcpDown then
    let r := Client.tcpReceiver opts.duration opts.tcpChunk
    ⟨r.windowNs - straggleGrace, r.chunk⟩
  else if plan.kind = kindUdpUp then
    let c := Client.runUdpUp sock udpMax opts.duration opts.udpSize plan.bandwidthBps
    ⟨c.durationNs, c.size⟩
  else
    let r := Client.runUdpDown sock udpMax opts.duration opts.udpSize
    ⟨r.windowNs - straggleGrace, r.size⟩

/-- The parameters of the server's half. Its receive buffer has `64` bytes to
    spare. -/
def Server.params (udpMax : UdpMax) (req : TestRequest) : TestParams :=
  if req.kind = kindTcpUp then
    let r := Server.runTcpUp req
    ⟨r.windowNs - straggleGrace, r.chunk⟩
  else if req.kind = kindTcpDown then
    let c := Server.runTcpDown req
    ⟨c.durationNs, c.chunk⟩
  else if req.kind = kindUdpUp then
    let r := Server.runUdpUp req
    ⟨r.windowNs - straggleGrace, r.bufLen - 64⟩
  else
    let c := Server.runUdpDown udpMax req
    ⟨c.durationNs, c.size⟩

/-- The client's half never gets past its hello and does not panic. All it can
    do is to return the error of the socket, and `run_inner` returns it in
    turn. A TCP test has nothing that could fail once it is connected. -/
def Client.Refuses (F : Type) [JitterFilter F] (sock : TransportUdpSocket) (udpMax : UdpMax)
    (opts : BenchOptions) (plan : Plan) : Prop :=
  if plan.kind = kindUdpUp then
    ∀ s, (Client.runUdpUp sock udpMax opts.duration opts.udpSize plan.bandwidthBps).Reachable s →
      s.pc = .start ∨ s.pc = .hello ∨ s.pc = .failed
  else if plan.kind = kindUdpDown then
    ∀ s : DownState F, (Client.runUdpDown sock udpMax opts.duration opts.udpSize).Reachable s →
      s.pc = .hello ∨ s.pc = .failed
  else False

/-- The request can express the duration and the size, or the operating system
    does not take the hello, which can be built. -/
def Expressible (sock : TransportUdpSocket) (udpMax : UdpMax) (args : BenchArgs) (plan : Plan) :
    Prop :=
  if plan.kind = kindTcpUp ∨ plan.kind = kindTcpDown then
    args.duration.toNat * 1000 < 2 ^ 32 ∧ 1 ≤ args.tcpChunk.toNat ∧ args.tcpChunk.toNat < 2 ^ 32
  else
    (args.duration.toNat * 1000 < 2 ^ 32 ∧ args.udpSize.toNat < 2 ^ 32) ∨
      sock.takes udpMax (max args.udpSize.toNat udpHeaderLen) = some false

instance (sock : TransportUdpSocket) (udpMax : UdpMax) (args : BenchArgs) (plan : Plan) :
    Decidable (Expressible sock udpMax args plan) :=
  inferInstanceAs (Decidable (ite _ _ _))

/-! ## Refusals -/

/-- An upload never gets past its hello and never panics exactly when the
    operating system does not take a datagram of its size. -/
theorem send_refused_iff (c : Sender) (hhello : c.sendsHello = true) :
    (∀ s, c.Reachable s → s.pc = .start ∨ s.pc = .hello ∨ s.pc = .failed) ↔
      c.takes = some false := by
  constructor
  · intro h
    match htakes : c.takes with
    | some false => rfl
    | some true =>
        have hrun : runFrom c.step c.init [.reading 0, .accepted] = some
            { c.init with pc := .pacer, buf := encodeUdpHeader c.init.buf 0 0, seq := 1,
                          bytes := c.size, sent := [encodeUdpHeader c.init.buf 0 0] } := by
          simp [runFrom, Sender.step, Sender.init, Sender.onReading, hhello, htakes]
        have hpc := h _ ⟨_, hrun⟩
        simp only [reduceCtorEq, or_self] at hpc
    | none =>
        have hrun : runFrom c.step c.init [.reading 0, .refused] = some
            { c.init with pc := .panicked } := by
          simp [runFrom, Sender.step, Sender.init, Sender.onReading, hhello, htakes]
        have hpc := h _ ⟨_, hrun⟩
        simp only [reduceCtorEq, or_self] at hpc
  · intro htakes s hr
    refine reachable_invariant (fun s => s.pc = .start ∨ s.pc = .hello ∨ s.pc = .failed) ?_
      c.init s hr (Or.inl rfl)
    intro s e s' hstep hpc
    -- Only three transitions start at these points, and the hello is not taken.
    rcases sendMove_of_step c s e s' hstep with ⟨_, h⟩ | ⟨_, h⟩ | ⟨_, h⟩ | ⟨_, h⟩ | ⟨_, _, h⟩ |
      ⟨_, _, h⟩ | ⟨_, h⟩ | ⟨-, htaken⟩ | ⟨_, h⟩ | _ | ⟨_, h⟩
    case start => simp only [hhello, if_true, reduceCtorEq, true_or, or_true]
    case helloRefused => simp only [htakes, reduceCtorEq, if_false, or_true]
    case hello => exact absurd (htaken.symm.trans htakes) (by decide)
    all_goals
      rw [h] at hpc
      simp only [reduceCtorEq, or_self] at hpc

/-- So does a download. -/
theorem down_refused_iff {F : Type} [JitterFilter F] (c : DownReceiver) :
    (∀ s : DownState F, c.Reachable s → s.pc = .hello ∨ s.pc = .failed) ↔
      c.takes = some false := by
  constructor
  · intro h
    match htakes : c.takes with
    | some false => rfl
    | some true =>
        have hrun : runFrom c.step (DownReceiver.init : DownState F) [.accepted]
            = some { DownReceiver.init with pc := .start } := by
          simp [runFrom, DownReceiver.step, DownReceiver.init, htakes]
        have hpc := h _ ⟨_, hrun⟩
        simp only [reduceCtorEq, or_self] at hpc
    | none =>
        have hrun : runFrom c.step (DownReceiver.init : DownState F) [.refused]
            = some { DownReceiver.init with pc := .panicked } := by
          simp [runFrom, DownReceiver.step, DownReceiver.init, htakes]
        have hpc := h _ ⟨_, hrun⟩
        simp only [reduceCtorEq, or_self] at hpc
  · intro htakes s hr
    refine reachable_invariant (fun s : DownState F => s.pc = .hello ∨ s.pc = .failed) ?_
      DownReceiver.init s hr (Or.inl rfl)
    intro s e s' hstep hpc
    have hselect : s.pc ≠ .select := by
      intro hc
      rw [hc] at hpc
      simp only [reduceCtorEq, or_self] at hpc
    rcases e with _ | _ | d | t | t | _
    · rw [DownReceiver.step, if_neg (by simp [htakes])] at hstep
      exact absurd hstep (by simp only [reduceCtorEq, not_false_eq_true])
    · rw [DownReceiver.step, Option.ite_none_right_eq_some, Option.some.injEq] at hstep
      rw [← hstep.2]
      exact Or.inr (if_neg (by simp only [htakes, reduceCtorEq, not_false_eq_true]))
    · rw [DownReceiver.step, if_neg hselect] at hstep
      exact absurd hstep (by simp only [reduceCtorEq, not_false_eq_true])
    · rw [DownReceiver.step, Option.ite_none_right_eq_some, DownReceiver.onReading] at hstep
      -- The clock is not read before the hello has been sent.
      rcases hpc with hpc | hpc
      · rw [hpc] at hstep
        exact absurd hstep.2 (by simp only [reduceCtorEq, not_false_eq_true])
      · rw [hpc] at hstep
        exact absurd hstep.2 (by simp only [reduceCtorEq, not_false_eq_true])
    · rw [DownReceiver.step, if_neg (fun hc => hselect hc.1)] at hstep
      exact absurd hstep (by simp only [reduceCtorEq, not_false_eq_true])
    · rw [DownReceiver.step, if_neg hselect] at hstep
      exact absurd hstep (by simp only [reduceCtorEq, not_false_eq_true])

/-! ## Narrowing -/

/-- A duration in seconds survives the request exactly when its milliseconds
    have 32 bits. -/
theorem duration_narrowed_iff (seconds : Nat) :
    (UInt32.ofNat (seconds * 1000000000 / 1000000)).toNat * 1000000 = seconds * 1000000000 ↔
      seconds * 1000 < 2 ^ 32 := by
  rw [UInt32.toNat_ofNat']
  omega

/-- A chunk survives exactly when it has 32 bits and is not empty. -/
theorem chunk_narrowed_iff (chunk : UInt64) :
    max chunk.toUInt32.toNat 1 = chunk.toNat ↔ 1 ≤ chunk.toNat ∧ chunk.toNat < 2 ^ 32 := by
  rw [UInt64.toNat_toUInt32]
  omega

/-- A datagram size survives exactly when it has 32 bits. -/
theorem size_narrowed_iff (size : UInt64) :
    max size.toUInt32.toNat udpHeaderLen = max size.toNat udpHeaderLen ↔ size.toNat < 2 ^ 32 := by
  rw [UInt64.toNat_toUInt32, udpHeaderLen]
  omega

/-! ## Both sides -/

theorem Server.params_tcp (udpMax : UdpMax) (req : TestRequest)
    (h : req.kind = kindTcpUp ∨ req.kind = kindTcpDown) :
    Server.params udpMax req = ⟨req.durationMs.toNat * 1000000, max req.payloadSize.toNat 1⟩ := by
  rcases h with h | h
  · rw [Server.params, if_pos h]
    simp only [Server.runTcpUp, Nat.add_sub_cancel]
  · rw [Server.params, if_neg (by rw [h]; decide), if_pos h]
    rfl

theorem Server.params_udp (udpMax : UdpMax) (req : TestRequest)
    (h : req.kind = kindUdpUp ∨ req.kind = kindUdpDown) :
    Server.params udpMax req
      = ⟨req.durationMs.toNat * 1000000, max req.payloadSize.toNat udpHeaderLen⟩ := by
  rcases h with h | h
  · rw [Server.params, if_neg (by rw [h]; decide), if_neg (by rw [h]; decide), if_pos h]
    simp only [Server.runUdpUp, Nat.add_sub_cancel]
  · rw [Server.params, if_neg (by rw [h]; decide), if_neg (by rw [h]; decide),
      if_neg (by rw [h]; decide)]
    rfl

section

variable (F : Type) [JitterFilter F] (sock : TransportUdpSocket) (udpMax serverMax : UdpMax)
  (args : BenchArgs) (plan : Plan)

theorem Client.params_tcp (opts : BenchOptions)
    (h : plan.kind = kindTcpUp ∨ plan.kind = kindTcpDown) :
    Client.params sock udpMax opts plan = ⟨opts.duration, opts.tcpChunk.toNat⟩ := by
  rcases h with h | h
  · rw [Client.params, if_pos h]
    rfl
  · rw [Client.params, if_neg (by rw [h]; decide), if_pos h]
    simp only [Client.tcpReceiver, Nat.add_sub_cancel]

theorem Client.params_udp (opts : BenchOptions)
    (h : plan.kind = kindUdpUp ∨ plan.kind = kindUdpDown) :
    Client.params sock udpMax opts plan = ⟨opts.duration, max opts.udpSize.toNat udpHeaderLen⟩ := by
  rcases h with h | h
  · rw [Client.params, if_neg (by rw [h]; decide), if_neg (by rw [h]; decide), if_pos h]
    rfl
  · rw [Client.params, if_neg (by rw [h]; decide), if_neg (by rw [h]; decide),
      if_neg (by rw [h]; decide)]
    simp only [Client.runUdpDown, Nat.add_sub_cancel]

theorem same_tcp_iff (h : plan.kind = kindTcpUp ∨ plan.kind = kindTcpDown) :
    Server.params serverMax (args.options.request plan)
        = Client.params sock udpMax args.options plan ↔
      args.duration.toNat * 1000 < 2 ^ 32 ∧ 1 ≤ args.tcpChunk.toNat ∧
        args.tcpChunk.toNat < 2 ^ 32 := by
  have hsize : (args.options.request plan).payloadSize = args.tcpChunk.toUInt32 := by
    rcases h with h | h
    · rw [BenchOptions.request, h]
      rfl
    · rw [BenchOptions.request, h]
      rfl
  rw [Server.params_tcp _ _ h, Client.params_tcp sock udpMax plan _ h, hsize, TestParams.mk.injEq,
    ← chunk_narrowed_iff, ← duration_narrowed_iff]
  rfl

theorem same_udp_iff (h : plan.kind = kindUdpUp ∨ plan.kind = kindUdpDown) :
    Server.params serverMax (args.options.request plan)
        = Client.params sock udpMax args.options plan ↔
      args.duration.toNat * 1000 < 2 ^ 32 ∧ args.udpSize.toNat < 2 ^ 32 := by
  have hsize : (args.options.request plan).payloadSize = args.udpSize.toUInt32 := if_pos h
  rw [Server.params_udp _ _ h, Client.params_udp sock udpMax plan _ h, hsize, TestParams.mk.injEq,
    ← size_narrowed_iff, ← duration_narrowed_iff]
  rfl

theorem refuses_udp_iff (hkind : plan.kind = kindUdpUp ∨ plan.kind = kindUdpDown) :
    Client.Refuses F sock udpMax args.options plan ↔
      sock.takes udpMax (max args.udpSize.toNat udpHeaderLen) = some false := by
  rcases hkind with hkind | hkind
  · rw [Client.Refuses, if_pos hkind]
    exact send_refused_iff _ rfl
  · have hudp : plan.kind ≠ kindUdpUp := by
      rw [hkind]
      decide
    rw [Client.Refuses, if_neg hudp, if_pos hkind]
    exact down_refused_iff _

end

/-- When client and server run the same test, or the client reports an error
    in its place. -/
theorem same_test_iff (F : Type) [JitterFilter F] (sock : TransportUdpSocket)
    (udpMax serverMax : UdpMax) (formatRateBps : UInt64 → String) (args : BenchArgs) (plan : Plan)
    (hplan : plan ∈ buildPlans formatRateBps args.options) :
    (Server.params serverMax (args.options.request plan)
        = Client.params sock udpMax args.options plan ∨
      Client.Refuses F sock udpMax args.options plan) ↔ Expressible sock udpMax args plan := by
  have htest := isTest_of_mem_buildPlans formatRateBps args.options plan hplan
  by_cases htcp : plan.kind = kindTcpUp ∨ plan.kind = kindTcpDown
  · have hrefuses : ¬ Client.Refuses F sock udpMax args.options plan := by
      rcases htcp with htcp | htcp
      · rw [Client.Refuses, if_neg (by rw [htcp]; decide), if_neg (by rw [htcp]; decide)]
        exact not_false
      · rw [Client.Refuses, if_neg (by rw [htcp]; decide), if_neg (by rw [htcp]; decide)]
        exact not_false
    rw [Expressible, if_pos htcp, same_tcp_iff sock udpMax serverMax args plan htcp, or_iff_left hrefuses]
  · have hudp : plan.kind = kindUdpUp ∨ plan.kind = kindUdpDown := by
      rcases htest with h | h | h
      · exact absurd (Or.inl h) htcp
      · exact absurd (Or.inr h) htcp
      · exact h
    rw [Expressible, if_neg htcp, same_udp_iff sock udpMax serverMax args plan hudp,
      refuses_udp_iff F sock udpMax args plan hudp]

/-- Three days of download in chunks of the default size. -/
theorem same_test_iff_long_download :
    let args : BenchArgs := ⟨.tcp, .down, 259200, [], 1200, 65536⟩
    let plan : Plan := ⟨kindTcpDown, 0, "TCP download"⟩
    Server.params ipv4Max (args.options.request plan)
        = Client.params .direct ipv4Max args.options plan ∨
      Client.Refuses Float .direct ipv4Max args.options plan :=
  (same_test_iff Float .direct ipv4Max ipv4Max (fun _ => "") ⟨.tcp, .down, 259200, [], 1200, 65536⟩
    ⟨kindTcpDown, 0, "TCP download"⟩ (by decide)).mpr (by decide)

/-- A test of fifty days lasts `704` milliseconds on the server, an empty chunk
    has one byte there, and so does one of `2 ^ 32` bytes. None of these tests
    is refused. -/
theorem differing_tests :
    let long : BenchArgs := ⟨.both, .up, 4294968, [10000000], 1200, 65536⟩
    let empty : BenchArgs := ⟨.tcp, .up, 10, [], 1200, 0⟩
    let huge : BenchArgs := ⟨.tcp, .up, 10, [], 1200, 4294967296⟩
    let tcpUp : Plan := ⟨kindTcpUp, 0, "TCP upload"⟩
    let udpUp : Plan := ⟨kindUdpUp, 10000000, "UDP upload @ "⟩
    (Client.params .direct ipv4Max long.options udpUp = ⟨4294968000000000, 1200⟩ ∧
      Server.params ipv4Max (long.options.request udpUp) = ⟨704000000, 1200⟩ ∧
      ¬ Client.Refuses Float .direct ipv4Max long.options udpUp) ∧
    (Client.params .direct ipv4Max empty.options tcpUp = ⟨10000000000, 0⟩ ∧
      Server.params ipv4Max (empty.options.request tcpUp) = ⟨10000000000, 1⟩ ∧
      ¬ Client.Refuses Float .direct ipv4Max empty.options tcpUp) ∧
    (Client.params .direct ipv4Max huge.options tcpUp = ⟨10000000000, 4294967296⟩ ∧
      Server.params ipv4Max (huge.options.request tcpUp) = ⟨10000000000, 1⟩ ∧
      ¬ Client.Refuses Float .direct ipv4Max huge.options tcpUp) ∧
    udpUp ∈ buildPlans (fun _ => "") long.options ∧ tcpUp ∈ buildPlans (fun _ => "") empty.options ∧
    tcpUp ∈ buildPlans (fun _ => "") huge.options := by
  refine ⟨⟨by decide, by decide, ?_⟩, ⟨by decide, by decide, ?_⟩, ⟨by decide, by decide, ?_⟩,
    by decide, by decide, by decide⟩
  · rw [refuses_udp_iff _ _ _ _ _ (Or.inl rfl)]
    decide
  · exact not_false
  · exact not_false

end ProxyPen
