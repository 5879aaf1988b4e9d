import ProxyPen.Core.Protocol

/-!
# Test Plans

What a bench client is asked to measure: the options of `bench/client.rs`, the
list of tests they select, and the request that announces a test to the
server.

The transport, the target and the in-process server choose where the client
connects and nothing about the conversation, so they are not options here.
Rates are printed through floating point, so the formatter of a rate is a
parameter of the labels.

## Main definitions

* `BenchOptions`: The options of a client.
* `BenchArgs`: The arguments they are made from.
* `Plan`: One test.
* `buildPlans`: The tests the options select.
* `BenchOptions.request`: The request that announces a test.
-/

namespace ProxyPen

open Protocol

inductive BenchMode where
  | tcp
  | udp
  | both
  deriving DecidableEq, Repr

inductive BenchDirection where
  | up
  | down
  | both
  deriving DecidableEq, Repr

/-- `duration` is in nanoseconds; the sizes are `usize`. -/
structure BenchOptions where
  mode : BenchMode
  direction : BenchDirection
  duration : Nat
  udpBandwidth : List UInt64
  udpSize : UInt64
  tcpChunk : UInt64

/-- What the command line admits: a number of seconds and two sizes. -/
structure BenchArgs where
  mode : BenchMode
  direction : BenchDirection
  duration : UInt64
  udpBandwidth : List UInt64
  udpSize : UInt64
  tcpChunk : UInt64

/-- The options `run_benchmark` makes of its arguments. -/
def BenchArgs.options (args : BenchArgs) : BenchOptions :=
  { mode := args.mode
    direction := args.direction
    -- `Duration::from_secs`
    duration := args.duration.toNat * 1000000000
    udpBandwidth := args.udpBandwidth
    udpSize := args.udpSize
    tcpChunk := args.tcpChunk }

structure Plan where
  kind : UInt8
  bandwidthBps : UInt64
  label : String
  deriving DecidableEq, Repr

/-- The tests of one kind of transport in the order up, down. -/
def directions (opts : BenchOptions) (up down : Plan) : List Plan :=
  (if opts.direction = .up ∨ opts.direction = .both then [up] else []) ++
    (if opts.direction = .down ∨ opts.direction = .both then [down] else [])

/-- TCP tests first, then the UDP tests of each bandwidth in turn. -/
def buildPlans (formatRateBps : UInt64 → String) (opts : BenchOptions) : List Plan :=
  (if opts.mode = .tcp ∨ opts.mode = .both then
    directions opts
      { kind := kindTcpUp, bandwidthBps := 0, label := "TCP upload" }
      { kind := kindTcpDown, bandwidthBps := 0, label := "TCP download" }
  else []) ++
  (if opts.mode = .udp ∨ opts.mode = .both then
    opts.udpBandwidth.flatMap fun bw =>
      directions opts
        { kind := kindUdpUp, bandwidthBps := bw, label := "UDP upload @ " ++ formatRateBps bw }
        { kind := kindUdpDown, bandwidthBps := bw, label := "UDP download @ " ++ formatRateBps bw }
  else [])

/-- The request of a test. `as u32` keeps the low 32 bits of the duration in
    milliseconds and of the size. -/
def BenchOptions.request (opts : BenchOptions) (plan : Plan) : TestRequest :=
  { kind := plan.kind
    durationMs := UInt32.ofNat (opts.duration / 1000000)
    payloadSize :=
      -- The server learns a datagram size or a chunk size, depending on the kind.
      if plan.kind = kindUdpUp ∨ plan.kind = kindUdpDown then opts.udpSize.toUInt32
      else opts.tcpChunk.toUInt32
    bandwidthBps := plan.bandwidthBps
    expectedPackets := 0 }

/-- The kinds a plan can have. -/
def Plan.IsTest (plan : Plan) : Prop :=
  plan.kind = kindTcpUp ∨ plan.kind = kindTcpDown ∨ plan.kind = kindUdpUp ∨
    plan.kind = kindUdpDown

instance (plan : Plan) : Decidable plan.IsTest := inferInstanceAs (Decidable (_ ∨ _))

theorem mem_directions {opts : BenchOptions} {up down plan : Plan}
    (h : plan ∈ directions opts up down) : plan = up ∨ plan = down := by
  rcases List.mem_append.mp h with hup | hdown
  · split at hup
    · exact Or.inl (List.mem_singleton.mp hup)
    · exact absurd hup List.not_mem_nil
  · split at hdown
    · exact Or.inr (List.mem_singleton.mp hdown)
    · exact absurd hdown List.not_mem_nil

/-- Every planned test is of one of the four kinds. -/
theorem isTest_of_mem_buildPlans (formatRateBps : UInt64 → String) (opts : BenchOptions)
    (plan : Plan) (h : plan ∈ buildPlans formatRateBps opts) : plan.IsTest := by
  rcases List.mem_append.mp h with htcp | hudp
  · split at htcp
    · rcases mem_directions htcp with rfl | rfl
      · exact Or.inl rfl
      · exact Or.inr (Or.inl rfl)
    · exact absurd htcp List.not_mem_nil
  · split at hudp
    · rcases List.mem_flatMap.mp hudp with ⟨bw, -, hplan⟩
      rcases mem_directions hplan with rfl | rfl
      · exact Or.inr (Or.inr (Or.inl rfl))
      · exact Or.inr (Or.inr (Or.inr rfl))
    · exact absurd hudp List.not_mem_nil

end ProxyPen
