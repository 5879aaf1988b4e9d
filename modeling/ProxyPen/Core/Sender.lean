import ProxyPen.Core.Pacer
import ProxyPen.Core.Socks
import ProxyPen.Lib.Machine

/-!
# UDP Send Loops

The sending halves of the UDP tests: `run_udp_up` of `bench/client.rs` and
`run_udp_down` of `bench/server.rs`. Both are a labelled loop that reads the
clock, asks the pacer how many packets are due, sends until it has caught up,
and sleeps until the next packet is due. They differ in one thing: the client
opens with a hello that counts as packet zero, the server with nothing.

The loop is a machine with one program point per operation that can observe
the outside world, and its events are the answers: a clock reading, and the
outcome of a send. Straight-line code between two observations belongs to the
step that follows the first of them.

The clock is a 64-bit nanosecond counter, as monotonic clocks are. Readings
never decrease, and a timer set past the end of the counter fires at its end.
A datagram longer than the operating system takes is never accepted by the
socket, and one that is too long to be built panics. An accepted one is
transmitted whole.

`sent` and `paced` are history: the datagrams the socket accepted, and the
pacer's elapsed time at its latest reading.

## Main definitions

* `Sender`: A send loop with its parameters.
* `Client.runUdpUp`, `Server.runUdpDown`: The two send loops of the source.
* `SendPc`: A program point.
* `SendState`: A state of a send loop.
* `Sender.step`: One observation.
* `SendState.report`: The report of a finished loop.
* `SendMove`: The transitions, one constructor each.

## Theorems

* `sendMove_of_step`: Every step is one of the transitions.
-/

namespace ProxyPen

open Protocol Socks

/-- The last reading of the clock. -/
def clockMax : Nat := 2 ^ 64 - 1

/-- A send loop with its parameters. `size` is the length of the datagram
    buffer, a `usize` that holds at least the header. -/
structure Sender where
  sock : TransportUdpSocket
  udpMax : UdpMax
  bandwidthBps : UInt64
  size : Nat
  durationNs : Nat
  sendsHello : Bool
  size_ge : udpHeaderLen ≤ size
  size_lt : size < 2 ^ 64

/-- `run_udp_up`, the client's send loop. -/
def Client.runUdpUp (sock : TransportUdpSocket) (udpMax : UdpMax) (durationNs : Nat)
    (datagramSize bandwidthBps : UInt64) : Sender :=
  { sock
    udpMax
    bandwidthBps
    size := max datagramSize.toNat udpHeaderLen
    durationNs
    sendsHello := true
    size_ge := Nat.le_max_right _ _
    size_lt := Nat.max_lt.mpr ⟨datagramSize.toNat_lt, by decide⟩ }

/-- `run_udp_down`, the server's send loop. -/
def Server.runUdpDown (udpMax : UdpMax) (req : TestRequest) : Sender :=
  { sock := .direct
    udpMax
    bandwidthBps := req.bandwidthBps
    size := max req.payloadSize.toNat udpHeaderLen
    durationNs := req.durationMs.toNat * 1000000
    sendsHello := false
    size_ge := Nat.le_max_right _ _
    size_lt := Nat.max_lt.mpr ⟨Nat.lt_trans req.payloadSize.toNat_lt (by decide), by decide⟩ }

/-- Where a send loop stands: the next operation it performs. -/
inductive SendPc where
  /-- `let session_start = Instant::now()` -/
  | start
  /-- the hello's `socket.send(&buf)` -/
  | hello
  /-- `Pacer::new` -/
  | pacer
  /-- the deadline test of `'outer: loop` -/
  | top
  /-- `let due = pacer.target_packets_now()` -/
  | due
  /-- the deadline test of `while seq < due` -/
  | check (due : Nat)
  /-- `let send_ts = session_start.elapsed()` and the header -/
  | stamp (due : Nat)
  /-- `socket.send(&buf)` -/
  | send (due : Nat)
  /-- `pacer.sleep_until_packet(seq)` -/
  | sleep
  /-- the loop has been left; the report is next -/
  | done
  /-- the hello could not be sent and the function returned its error -/
  | failed
  /-- the datagram was too long to be built -/
  | panicked
  deriving DecidableEq, Repr

structure SendState where
  pc : SendPc
  now : Nat
  sessionStart : Nat
  pacerStart : Nat
  seq : Nat
  bytes : Nat
  buf : Bytes
  paced : Nat
  sent : List Bytes
  deriving DecidableEq, Repr

/-- What a send loop observes. -/
inductive SendEvent where
  | reading (t : Nat)
  | accepted
  | refused
  deriving DecidableEq, Repr

namespace Sender

/-- Before the first operation. -/
def init (c : Sender) : SendState :=
  { pc := .start, now := 0, sessionStart := 0, pacerStart := 0, seq := 0, bytes := 0,
    buf := List.replicate c.size 0, paced := 0, sent := [] }

/-- The pacer of a running loop. -/
def pacer (c : Sender) (s : SendState) : Pacer :=
  { bandwidthBps := c.bandwidthBps, packetBytes := c.size, start := s.pacerStart }

/-- `session_start + duration`. -/
def deadline (c : Sender) (s : SendState) : Nat := s.sessionStart + c.durationNs

/-- `while seq < due`: another packet, or sleep. -/
def guard (seq due : Nat) : SendPc := if seq < due then .check due else .sleep

/-- What becomes of a datagram of this loop. -/
def takes (c : Sender) : Option Bool := c.sock.takes c.udpMax c.size

/-- The sleep is over: the pacer is unlimited, or packet `seq` is due. -/
def awake (c : Sender) (s : SendState) (t : Nat) : Prop :=
  c.bandwidthBps = 0 ∨ min (s.pacerStart + (c.pacer s).dueNs s.seq) clockMax ≤ t

instance (c : Sender) (s : SendState) (t : Nat) : Decidable (c.awake s t) :=
  inferInstanceAs (Decidable (_ ∨ _))

/-- A clock reading at each program point that asks for one. -/
def onReading (c : Sender) (s : SendState) (t : Nat) : Option SendState :=
  match s.pc with
  | .start =>
      some { s with pc := if c.sendsHello then .hello else .pacer, now := t, sessionStart := t }
  | .pacer => some { s with pc := .top, now := t, pacerStart := t }
  | .top => some { s with pc := if c.deadline s ≤ t then .done else .due, now := t }
  -- The inner loop keeps the number it was given, however late it gets.
  | .due =>
      let due := (c.pacer s).targetPacketsNow t
      some { s with pc := guard s.seq due, now := t, paced := t - s.pacerStart }
  | .check due => some { s with pc := if c.deadline s ≤ t then .done else .stamp due, now := t }
  | .stamp due =>
      -- `as_nanos() as u64` keeps the low 64 bits.
      let sendTs := (t - s.sessionStart) % 2 ^ 64
      some { s with pc := .send due, now := t, buf := encodeUdpHeader s.buf s.seq sendTs }
  -- The sleep may overshoot but never ends early.
  | .sleep => if c.awake s t then some { s with pc := .top, now := t } else none
  | _ => none

/-- One observation. Clock readings never decrease and stay on the clock. -/
def step (c : Sender) (s : SendState) : SendEvent → Option SendState
  | .reading t => if s.now ≤ t ∧ t ≤ clockMax then c.onReading s t else none
  | .accepted =>
      if c.takes = some true then
        match s.pc with
        | .hello =>
            -- The hello is packet zero: `seq` goes on at one and its bytes count.
            let buf := encodeUdpHeader s.buf 0 0
            some { s with pc := .pacer, buf := buf, seq := 1, bytes := c.size, sent := [buf] }
        | .send due =>
            some { s with
              pc := guard (s.seq + 1) due
              bytes := s.bytes + c.size
              seq := s.seq + 1
              sent := s.sent ++ [s.buf] }
        | _ => none
      else none
  | .refused => match s.pc with
    -- The hello's error is returned; a later one only ends the loop. The hello is
    -- the first to be built, so what cannot be built panics here.
    | .hello => some { s with pc := if c.takes = none then .panicked else .failed }
    | .send _ => some { s with pc := .done }
    | _ => none

/-- The reachable states of a send loop. -/
def Reachable (c : Sender) (s : SendState) : Prop := Machine.Reachable c.step c.init s

end Sender

/-- The report of a loop that has ended, given the elapsed time at its end. -/
def SendState.report (s : SendState) (durationActualNs : Nat) : TestReport :=
  { bytes := s.bytes, packets := s.seq, maxSeq := s.seq - 1, durationActualNs }

/-- The transitions of a send loop, with everything each of them requires. -/
inductive SendMove (c : Sender) (s : SendState) : SendEvent → SendState → Prop where
  | start (t : Nat) (hpc : s.pc = .start) (hnow : s.now ≤ t) (hmax : t ≤ clockMax) :
      SendMove c s (.reading t)
        { s with pc := if c.sendsHello then .hello else .pacer, now := t, sessionStart := t }
  | pacer (t : Nat) (hpc : s.pc = .pacer) (hnow : s.now ≤ t) (hmax : t ≤ clockMax) :
      SendMove c s (.reading t) { s with pc := .top, now := t, pacerStart := t }
  | top (t : Nat) (hpc : s.pc = .top) (hnow : s.now ≤ t) (hmax : t ≤ clockMax) :
      SendMove c s (.reading t)
        { s with pc := if c.deadline s ≤ t then .done else .due, now := t }
  | due (t : Nat) (hpc : s.pc = .due) (hnow : s.now ≤ t) (hmax : t ≤ clockMax) :
      SendMove c s (.reading t)
        { s with
          pc := Sender.guard s.seq ((c.pacer s).targetPacketsNow t)
          now := t
          paced := t - s.pacerStart }
  | check (t due : Nat) (hpc : s.pc = .check due) (hnow : s.now ≤ t) (hmax : t ≤ clockMax) :
      SendMove c s (.reading t)
        { s with pc := if c.deadline s ≤ t then .done else .stamp due, now := t }
  | stamp (t due : Nat) (hpc : s.pc = .stamp due) (hnow : s.now ≤ t) (hmax : t ≤ clockMax) :
      SendMove c s (.reading t)
        { s with
          pc := .send due
          now := t
          buf := encodeUdpHeader s.buf s.seq ((t - s.sessionStart) % 2 ^ 64) }
  | wake (t : Nat) (hpc : s.pc = .sleep) (hnow : s.now ≤ t) (hmax : t ≤ clockMax)
      (hawake : c.awake s t) :
      SendMove c s (.reading t) { s with pc := .top, now := t }
  | hello (hpc : s.pc = .hello) (htakes : c.takes = some true) :
      SendMove c s .accepted
        { s with
          pc := .pacer
          buf := encodeUdpHeader s.buf 0 0
          seq := 1
          bytes := c.size
          sent := [encodeUdpHeader s.buf 0 0] }
  | send (due : Nat) (hpc : s.pc = .send due) (htakes : c.takes = some true) :
      SendMove c s .accepted
        { s with
          pc := Sender.guard (s.seq + 1) due
          bytes := s.bytes + c.size
          seq := s.seq + 1
          sent := s.sent ++ [s.buf] }
  | helloRefused (hpc : s.pc = .hello) :
      SendMove c s .refused { s with pc := if c.takes = none then .panicked else .failed }
  | sendRefused (due : Nat) (hpc : s.pc = .send due) : SendMove c s .refused { s with pc := .done }

/-- Every step is one of the transitions. -/
theorem sendMove_of_step (c : Sender) (s : SendState) (e : SendEvent) (s' : SendState)
    (h : c.step s e = some s') : SendMove c s e s' := by
  cases e with
  | reading t =>
      rw [Sender.step, Option.ite_none_right_eq_some] at h
      rcases h with ⟨⟨hnow, hmax⟩, h⟩
      unfold Sender.onReading at h
      cases hpc : s.pc with
      | start =>
          simp only [hpc, Option.some.injEq] at h
          exact h ▸ SendMove.start t hpc hnow hmax
      | pacer =>
          simp only [hpc, Option.some.injEq] at h
          exact h ▸ SendMove.pacer t hpc hnow hmax
      | top =>
          simp only [hpc, Option.some.injEq] at h
          exact h ▸ SendMove.top t hpc hnow hmax
      | due =>
          simp only [hpc, Option.some.injEq] at h
          exact h ▸ SendMove.due t hpc hnow hmax
      | check due =>
          simp only [hpc, Option.some.injEq] at h
          exact h ▸ SendMove.check t due hpc hnow hmax
      | stamp due =>
          simp only [hpc, Option.some.injEq] at h
          exact h ▸ SendMove.stamp t due hpc hnow hmax
      | sleep =>
          simp only [hpc, Option.ite_none_right_eq_some, Option.some.injEq] at h
          exact h.2 ▸ SendMove.wake t hpc hnow hmax h.1
      | hello => simp only [hpc, reduceCtorEq] at h
      | send due => simp only [hpc, reduceCtorEq] at h
      | done => simp only [hpc, reduceCtorEq] at h
      | failed => simp only [hpc, reduceCtorEq] at h
      | panicked => simp only [hpc, reduceCtorEq] at h
  | accepted =>
      rw [Sender.step, Option.ite_none_right_eq_some] at h
      rcases h with ⟨htakes, h⟩
      cases hpc : s.pc with
      | hello =>
          simp only [hpc, Option.some.injEq] at h
          exact h ▸ SendMove.hello hpc htakes
      | send due =>
          simp only [hpc, Option.some.injEq] at h
          exact h ▸ SendMove.send due hpc htakes
      | _ => simp only [hpc, reduceCtorEq] at h
  | refused =>
      rw [Sender.step] at h
      cases hpc : s.pc with
      | hello =>
          simp only [hpc, Option.some.injEq] at h
          exact h ▸ SendMove.helloRefused hpc
      | send due =>
          simp only [hpc, Option.some.injEq] at h
          exact h ▸ SendMove.sendRefused due hpc
      | _ => simp only [hpc, reduceCtorEq] at h

end ProxyPen
