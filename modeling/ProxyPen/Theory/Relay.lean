import ProxyPen.Core.Relay
import ProxyPen.Theory.Traffic

/-!
# UDP Tests Are the Same Through a Proxy

A UDP test through a SOCKS5 relay against the same test without one. What a
direct run makes of the two parties, the relayed run makes of them too, event
by event: the relayed machine is the image of the direct one under a map that
changes the datagrams in flight to the relay, and those the client has taken
from it, and nothing else. Hence both have the same blocked states and end
with the same reports.

The image is exact for whole runs, so it fails as soon as one event does. What
an event of the client comes to depends on its socket where a datagram is
accepted or refused, and there only on whether the operating system takes it:
a datagram short enough to be taken directly may be too long with the header
in front.

## Main definitions

* `UdpPath.Relays`: The relay of a target, as a proxy provides it.
* `UpLink.onWire`, `DownLink.onWire`: A direct state as the relay shows it.
* `HeaderFits`: The header decides nothing about the datagrams of a test.

## Theorems

* `upLink_stepVia`, `downLink_stepVia`: One event.
* `upload_relayed_iff`, `download_relayed_iff`: Whole runs.
-/

namespace ProxyPen

open Protocol Socks Outcome

/-- The path is a SOCKS5 relay to a target: it passes on what stands behind
    the header of the target, and puts a header in front of what comes back. -/
structure UdpPath.Relays (p : UdpPath) (target : SocksAddr) : Prop where
  sock : p.sock = .socks5 target
  wellFormed : target.WellFormed
  forward : ∀ d, p.forward (wireHeader 0 0 target ++ d) = some d
  carry : ∀ d, Carries p.sock d (p.carry d)

/-- A datagram of `size` bytes meets the same fate behind the header of the
    target and without one. The sockets of the two tests may have limits of
    their own, as their destinations may be of different families. -/
structure HeaderFits (target : SocksAddr) (directMax relayMax : UdpMax) (size : Nat) : Prop where
  taken_iff : size ≤ directMax.bytes ↔ target.headerLen + size ≤ relayMax.bytes
  built : size ≤ isizeMax → target.headerLen + size ≤ isizeMax

theorem headerFits_iff (target : SocksAddr) (directMax relayMax : UdpMax) (size : Nat) :
    HeaderFits target directMax relayMax size ↔
      (size ≤ directMax.bytes ↔ target.headerLen + size ≤ relayMax.bytes) ∧
        (size ≤ isizeMax → target.headerLen + size ≤ isizeMax) :=
  ⟨fun h => ⟨h.taken_iff, h.built⟩, fun h => ⟨h.1, h.2⟩⟩

instance (target : SocksAddr) (directMax relayMax : UdpMax) (size : Nat) :
    Decidable (HeaderFits target directMax relayMax size) :=
  decidable_of_iff _ (headerFits_iff target directMax relayMax size).symm

/-- It is the fate of the datagrams of the two sockets. -/
theorem takes_relayed_iff {target : SocksAddr} (h : target.WellFormed)
    (directMax relayMax : UdpMax) (size : Nat) :
    (TransportUdpSocket.socks5 target).takes relayMax size
        = TransportUdpSocket.direct.takes directMax size ↔
      HeaderFits target directMax relayMax size := by
  have hdirect := directMax.bytes_le
  have hrelay := relayMax.bytes_le
  have hmax : isizeMax = 2 ^ 63 - 1 := rfl
  rw [takes_socks5 relayMax size h, takes_direct directMax size, headerFits_iff]
  by_cases hbuilt : size ≤ isizeMax
  · rw [if_pos hbuilt]
    by_cases hbehind : target.headerLen + size ≤ isizeMax
    · rw [if_pos hbehind, Option.some.injEq, decide_eq_decide]
      exact ⟨fun hiff => ⟨hiff.symm, fun _ => hbehind⟩, fun hfits => hfits.1.symm⟩
    · rw [if_neg hbehind]
      exact ⟨fun heq => (Option.some_ne_none _ heq.symm).elim,
        fun hfits => absurd (hfits.2 hbuilt) hbehind⟩
  · -- Neither can be built.
    rw [if_neg hbuilt, if_neg (by omega)]
    exact ⟨fun _ => ⟨by omega, fun h => absurd h hbuilt⟩, fun _ => rfl⟩

/-- What leaves the socket is the payload behind the header. -/
theorem wire_relayed {p : UdpPath} {target : SocksAddr} (hp : p.Relays target) (d : Bytes) :
    p.sock.wire d = some (wireHeader 0 0 target ++ d) := by
  rw [TransportUdpSocket.wire, hp.sock, TransportUdpSocket.send, encode_eq target hp.wellFormed,
    ok_bind]

/-- Two answers to a hello tell apart what may become of it. -/
theorem takes_eq_of_answers {t u : Option Bool} (htrue : t = some true ↔ u = some true)
    (hnone : t = none ↔ u = none) : t = u := by
  cases t with
  | none => exact (hnone.mp rfl).symm
  | some v =>
      cases u with
      | none => exact absurd (hnone.mpr rfl) (Option.some_ne_none v)
      | some w =>
          rw [Option.some.injEq, Option.some.injEq] at htrue
          rw [Option.some.injEq, Bool.eq_iff_iff]
          exact htrue

/-! ## Upload -/

section Up

variable {F : Type} [JitterFilter F] {p : UdpPath} {target : SocksAddr}

/-- A direct upload as the relay shows it: the header in front of every
    datagram in flight. -/
def UpLink.onWire (target : SocksAddr) (b : UpLink F) : UpLink F :=
  { b with net := b.net.map (fun d => wireHeader 0 0 target ++ d) }

/-- A send loop on another socket. -/
def Sender.through (c : Sender) (sock : TransportUdpSocket) (udpMax : UdpMax) : Sender :=
  { c with sock, udpMax }

/-- It takes the same steps, if its datagrams meet the same fate. -/
theorem step_through (c : Sender) (sock : TransportUdpSocket) (udpMax : UdpMax)
    (htakes : (c.through sock udpMax).takes = c.takes) (s : SendState) (e : SendEvent) :
    (c.through sock udpMax).step s e = c.step s e := by
  cases e with
  | reading t => rfl
  | accepted =>
      rw [Sender.step, Sender.step, htakes]
      rfl
  | refused =>
      rw [Sender.step, Sender.step, htakes]

theorem mapM_wire (hp : p.Relays target) (ds : List Bytes) :
    ds.mapM p.sock.wire = some (ds.map (fun d => wireHeader 0 0 target ++ d)) := by
  induction ds with
  | nil => rfl
  | cons d ds ih =>
      rw [List.mapM_cons, wire_relayed hp, ih]
      rfl

/-- One event of an upload, through the relay and on the bare network. -/
theorem upLink_stepVia (hp : p.Relays target) (c : Sender) (r : UpReceiver) (b : UpLink F)
    (e : UpLinkEvent) :
    UpLink.stepVia p c r (b.onWire target) e
      = (UpLink.step c r b e).map (UpLink.onWire target) := by
  cases e with
  | client e =>
      simp only [UpLink.stepVia, UpLink.step, UpLink.onWire, mapM_wire hp]
      cases c.step b.client e with
      | none => rfl
      | some s => simp only [Option.map_some, UpLink.onWire, List.map_append]
  | server e =>
      simp only [UpLink.stepVia, UpLink.step, UpLink.onWire]
      split
      · rfl
      · cases r.step b.server e <;> rfl
  | deliver i =>
      simp only [UpLink.stepVia, UpLink.step, UpLink.onWire, List.getElem?_map]
      cases hi : b.net[i]? with
      | none => rfl
      | some d =>
          simp only [Option.map_some, hp.forward]
          cases r.step b.server (.datagram () d) with
          | none => rfl
          | some s => simp only [Option.map_some, UpLink.onWire, List.eraseIdx_map]
  | lose i =>
      simp only [UpLink.stepVia, UpLink.step, UpLink.onWire, List.length_map]
      split
      · simp only [Option.map_some, UpLink.onWire, List.eraseIdx_map]
      · rfl
  | duplicate i =>
      simp only [UpLink.stepVia, UpLink.step, UpLink.onWire, List.getElem?_map]
      cases b.net[i]? with
      | none => rfl
      | some d =>
          simp only [Option.map_some, UpLink.onWire, List.map_append, List.map_cons, List.map_nil]

/-- An upload uses the socket of its send loop for nothing else. -/
theorem upLink_step_through (c : Sender) (sock : TransportUdpSocket) (udpMax : UdpMax)
    (htakes : (c.through sock udpMax).takes = c.takes) (r : UpReceiver) (b : UpLink F)
    (e : UpLinkEvent) : UpLink.step (c.through sock udpMax) r b e = UpLink.step c r b e := by
  cases e with
  | client e => rw [UpLink.step, UpLink.step, step_through c sock udpMax htakes]
  | _ => rfl

/-- An upload about to send its hello. -/
def UpLink.greeting (c : Sender) : UpLink F :=
  { client := { c.init with pc := .hello }, server := UpReceiver.init, net := [] }

theorem upload_answered (c : Sender) (r : UpReceiver) (hhello : c.sendsHello = true)
    (e : SendEvent) :
    Machine.runFrom (UpLink.step c r) (UpLink.init c : UpLink F)
        [.client (.reading 0), .client e] = UpLink.step c r (UpLink.greeting c) (.client e) := by
  have hopens : UpLink.step c r (UpLink.init c : UpLink F) (.client (.reading 0))
      = some (UpLink.greeting c) := by
    simp only [UpLink.step, UpLink.init, Sender.step, Sender.onReading, Sender.init, hhello]
    rfl
  simp only [Machine.runFrom, hopens]
  cases UpLink.step c r (UpLink.greeting c : UpLink F) (.client e) <;> rfl

/-- The hello is accepted exactly if it is taken, … -/
theorem upload_hello_accepted (c : Sender) (r : UpReceiver) (hhello : c.sendsHello = true) :
    (Machine.runFrom (UpLink.step c r) (UpLink.init c : UpLink F)
      [.client (.reading 0), .client .accepted]).isSome ↔ c.takes = some true := by
  rw [upload_answered c r hhello, UpLink.step, Sender.step]
  by_cases htakes : c.takes = some true
  · simp [htakes, UpLink.greeting]
  · simp [htakes]

/-- … and refusing it is a panic exactly if it cannot be built. -/
theorem upload_hello_refused (c : Sender) (r : UpReceiver) (hhello : c.sendsHello = true) :
    (Machine.runFrom (UpLink.step c r) (UpLink.init c : UpLink F)
      [.client (.reading 0), .client .refused]).map (fun b => b.client.pc)
        = some .panicked ↔ c.takes = none := by
  rw [upload_answered c r hhello, UpLink.step, Sender.step]
  by_cases htakes : c.takes = none
  · simp [htakes, UpLink.greeting]
  · simp [htakes, UpLink.greeting]

end Up

/-- A relay that reads the header the client writes and names the target in
    its own. -/
def relayTo (target : SocksAddr) : UdpPath :=
  { sock := .socks5 target
    forward := fun d => match decodeSocks5UdpHeader d with
      | .ok (_, headerLen) => some (d.drop headerLen)
      | _ => none
    carry := fun d => wireHeader 0 0 target ++ d }

theorem relayTo_relays {target : SocksAddr} (h : target.WellFormed) :
    (relayTo target).Relays target where
  sock := rfl
  wellFormed := h
  forward d := by
    have hdecode := decode_wireHeader 0 0 target h d
    simp only [relayTo, hdecode]
    rw [← wireHeader_length 0 0 target, List.drop_left]
  carry d := ⟨0, 0, target, h, rfl⟩

/-- An upload runs through a relay as it runs directly, exactly if the header
    decides nothing about its datagrams. -/
theorem upload_relayed_iff (F : Type) [JitterFilter F] (opts : BenchOptions) (plan : Plan)
    (p : UdpPath) (target : SocksAddr) (hp : p.Relays target) (directMax relayMax : UdpMax) :
    (∀ es : List UpLinkEvent,
        Machine.runFrom (UpLink.stepVia p
            (Client.runUdpUp p.sock relayMax opts.duration opts.udpSize plan.bandwidthBps)
            (Server.runUdpUp (opts.request plan))) (udpUp F opts plan p.sock relayMax).init es
          = (Machine.runFrom (udpUp F opts plan .direct directMax).step
              (udpUp F opts plan .direct directMax).init es).map (UpLink.onWire target)) ↔
      HeaderFits target directMax relayMax (max opts.udpSize.toNat udpHeaderLen) := by
  let c := Client.runUdpUp .direct directMax opts.duration opts.udpSize plan.bandwidthBps
  let r := Server.runUdpUp (opts.request plan)
  let c' := c.through p.sock relayMax
  have hvia : ∀ es, Machine.runFrom (UpLink.stepVia p c' r) (UpLink.init c' : UpLink F) es
      = (Machine.runFrom (UpLink.step c' r) (UpLink.init c') es).map (UpLink.onWire target) :=
    fun es => Machine.runFrom_map (UpLink.onWire target) (fun _ => True)
      (fun _ _ _ _ _ => trivial) (fun b e _ => upLink_stepVia hp c' r b e) es (UpLink.init c')
      trivial
  have hfits : c'.takes = c.takes ↔
      HeaderFits target directMax relayMax (max opts.udpSize.toNat udpHeaderLen) := by
    rw [← takes_relayed_iff hp.wellFormed, ← hp.sock]
    rfl
  rw [← hfits]
  constructor
  · intro hsame
    have himage : ∀ es, (Machine.runFrom (UpLink.step c' r) (UpLink.init c' : UpLink F) es).map
        (UpLink.onWire target)
        = (Machine.runFrom (UpLink.step c r) (UpLink.init c) es).map (UpLink.onWire target) :=
      fun es => (hvia es).symm.trans (hsame es)
    refine takes_eq_of_answers ?_ ?_
    · have haccepted := congrArg Option.isSome (himage [.client (.reading 0), .client .accepted])
      rw [Option.isSome_map, Option.isSome_map] at haccepted
      rw [← upload_hello_accepted (F := F) c' r rfl, ← upload_hello_accepted (F := F) c r rfl,
        haccepted]
    · have hrefused := congrArg (Option.map (fun b : UpLink F => b.client.pc))
        (himage [.client (.reading 0), .client .refused])
      rw [Option.map_map, Option.map_map] at hrefused
      rw [← upload_hello_refused (F := F) c' r rfl, ← upload_hello_refused (F := F) c r rfl]
      exact iff_of_eq (congrArg (· = some SendPc.panicked) hrefused)
  · intro htakes es
    have hstep : (UpLink.step c' r : UpLink F → _) = UpLink.step c r :=
      funext fun b => funext fun e => upLink_step_through c p.sock relayMax htakes r b e
    refine (hvia es).trans ?_
    rw [hstep]
    rfl

/-- Over IPv4 an upload of datagrams of 16 bytes is the same through a relay,
    and with datagrams of 65500 bytes it is not: directly they are sent. -/
theorem upload_relayed_iff_sizes :
    (∀ es : List UpLinkEvent,
      Machine.runFrom (UpLink.stepVia (relayTo relaySource)
          (Client.runUdpUp (.socks5 relaySource) ipv4Max quickOptions.duration quickOptions.udpSize
            1000) (Server.runUdpUp (quickOptions.request ⟨kindUdpUp, 1000, ""⟩)))
          (udpUp Float quickOptions ⟨kindUdpUp, 1000, ""⟩ (.socks5 relaySource) ipv4Max).init es
        = (Machine.runFrom (udpUp Float quickOptions ⟨kindUdpUp, 1000, ""⟩ .direct ipv4Max).step
            (udpUp Float quickOptions ⟨kindUdpUp, 1000, ""⟩ .direct ipv4Max).init es).map
              (UpLink.onWire relaySource)) ∧
    ¬ HeaderFits relaySource ipv4Max ipv4Max 65500 :=
  ⟨(upload_relayed_iff Float quickOptions ⟨kindUdpUp, 1000, ""⟩ (relayTo relaySource) relaySource
    (relayTo_relays (by decide)) ipv4Max ipv4Max).mpr (by decide), by decide⟩

/-! ## Download -/

section Down

variable {F : Type} [JitterFilter F] {p : UdpPath} {target : SocksAddr}

/-- A direct receive loop as it is behind the relay, whose headers the
    datagrams it has taken still carry. -/
def DownState.behind (carry : Bytes → Bytes) (s : DownState F) : DownState F :=
  { s with received := s.received.map carry }

/-- A direct download as the relay shows it. -/
def DownLink.onWire (target : SocksAddr) (carry : Bytes → Bytes) (b : DownLink F) : DownLink F :=
  { b with
    client := b.client.behind carry
    up := b.up.map (fun d => wireHeader 0 0 target ++ d) }

/-- A receive loop on another socket. -/
def DownReceiver.through (c : DownReceiver) (sock : TransportUdpSocket) (udpMax : UdpMax) :
    DownReceiver :=
  { c with sock, udpMax }

/-- Only sending the hello and taking a datagram depend on the socket. -/
theorem downStep_behind (c : DownReceiver) (sock : TransportUdpSocket) (udpMax : UdpMax)
    (htakes : (c.through sock udpMax).takes = c.takes) (carry : Bytes → Bytes) (s : DownState F)
    (e : DownEvent) (he : e.isDatagram = false) :
    (c.through sock udpMax).step (s.behind carry) e
      = (c.step s e).map (DownState.behind carry) := by
  cases e with
  | datagram d => cases he
  | reading t =>
      have hread : DownReceiver.onReading (s.behind carry) t
          = (DownReceiver.onReading s t).map (DownState.behind carry) := by
        unfold DownReceiver.onReading
        simp only [DownState.behind]
        cases s.pc with
        | process buf => cases s.sessionStart <;> rfl
        | _ => rfl
      have hnow : (s.behind carry).now = s.now := rfl
      rw [DownReceiver.step, DownReceiver.step, hread, hnow,
        apply_ite (Option.map (DownState.behind carry))]
      rfl
  | _ =>
      -- The guards look at the program point, the clock and the parameters.
      simp only [DownReceiver.step, htakes, apply_ite (Option.map (DownState.behind carry))]
      rfl

/-- What the client takes from the relay is what it would have taken directly. -/
theorem downStep_datagram_behind (c : DownReceiver) (hdirect : c.sock = .direct)
    (sock : TransportUdpSocket) (udpMax : UdpMax) (carry : Bytes → Bytes) (d : Bytes)
    (hlen : d.length ≤ c.size) (hcarry : Carries sock d (carry d)) (s : DownState F) :
    (c.through sock udpMax).step (s.behind carry) (.datagram (carry d))
      = (c.step s (.datagram d)).map (DownState.behind carry) := by
  -- Either way the transport hands over the datagram itself.
  have hbare := payload_carried c d d hlen (by rw [hdirect]; rfl)
  have hrelayed := payload_carried (c.through sock udpMax) d (carry d) hlen hcarry
  have hto : (c.through sock udpMax).onRecv (s.behind carry) (carry d) = c.onRecv s d := by
    rw [DownReceiver.payload?] at hbare hrelayed
    simp only [DownReceiver.onRecv, DownState.behind]
    split at hbare <;> split at hrelayed <;> simp_all
  simp only [DownReceiver.step]
  have hpc : (s.behind carry).pc = s.pc := rfl
  rw [hpc, hto]
  split
  · simp only [Option.map_some, DownState.behind, List.map_append, List.map_cons, List.map_nil]
  · rfl

/-- An event of the client alone, through the relay and directly. -/
theorem downLink_client_behind (c : DownReceiver) (udpMax : UdpMax)
    (htakes : (c.through p.sock udpMax).takes = c.takes) (r : Sender) (b : DownLink F)
    (e : DownEvent) (he : e.isDatagram = false) (hne : e ≠ .accepted) :
    DownLink.step (c.through p.sock udpMax) r p.carry (b.onWire target p.carry) (.client e)
      = (DownLink.step c r id b (.client e)).map (DownLink.onWire target p.carry) := by
  have hstep : (c.through p.sock udpMax).step (b.onWire target p.carry).client e
      = (c.step b.client e).map (DownState.behind p.carry) :=
    downStep_behind c p.sock udpMax htakes p.carry b.client e he
  simp only [DownLink.step, he, hstep, Bool.false_eq_true, if_false, if_neg hne, List.append_nil]
  cases c.step b.client e <;> rfl

/-- One event of a download, through the relay and directly. -/
theorem downLink_stepVia (hp : p.Relays target) (c : DownReceiver) (hdirect : c.sock = .direct)
    (udpMax : UdpMax) (htakes : (c.through p.sock udpMax).takes = c.takes) (r : Sender)
    (hsize : r.size ≤ c.size) (b : DownLink F) (e : DownLinkEvent) (h : b.Sound c r) :
    DownLink.stepVia p (c.through p.sock udpMax) r (b.onWire target p.carry) e
      = (DownLink.step c r id b e).map (DownLink.onWire target p.carry) := by
  cases e with
  | client e =>
      cases e with
      | accepted =>
          have hstep : (c.through p.sock udpMax).step (b.onWire target p.carry).client .accepted
              = (c.step b.client .accepted).map (DownState.behind p.carry) :=
            downStep_behind c p.sock udpMax htakes p.carry b.client .accepted rfl
          have hhello : (c.through p.sock udpMax).hello = c.hello := rfl
          simp only [DownLink.stepVia, DownLink.step, DownEvent.isDatagram, Bool.false_eq_true,
            if_false, hstep, hhello, wire_relayed hp]
          cases c.step b.client .accepted with
          | none => rfl
          | some s =>
              simp only [Option.map_some, DownLink.onWire, if_true, List.map_append, List.map_cons,
                List.map_nil]
      | datagram d => rfl
      | refused => exact downLink_client_behind c udpMax htakes r b .refused rfl (by simp)
      | reading t => exact downLink_client_behind c udpMax htakes r b (.reading t) rfl (by simp)
      | expired t => exact downLink_client_behind c udpMax htakes r b (.expired t) rfl (by simp)
      | error => exact downLink_client_behind c udpMax htakes r b .error rfl (by simp)
  | server e =>
      cases e with
      | datagram d => rfl
      | _ =>
          simp only [DownLink.stepVia, DownLink.step, DownLink.onWire]
          split <;> rfl
  | deliverUp i =>
      simp only [DownLink.stepVia, DownLink.step, DownLink.onWire, List.getElem?_map]
      cases b.up[i]? with
      | none => rfl
      | some d =>
          simp only [Option.map_some, hp.forward]
          cases serveStep r b.server (.datagram d) with
          | none => rfl
          | some v => simp only [Option.map_some, DownLink.onWire, List.eraseIdx_map]
  | deliverDown i =>
      simp only [DownLink.stepVia, DownLink.step]
      have hdown : (b.onWire target p.carry).down = b.down := rfl
      rw [hdown]
      cases hi : b.down[i]? with
      | none => rfl
      | some d =>
          have hlen := h.lengths d (List.mem_of_getElem? hi)
          have hstep : (c.through p.sock udpMax).step
              (b.onWire target p.carry).client (.datagram (p.carry d))
              = (c.step b.client (.datagram d)).map (DownState.behind p.carry) :=
            downStep_datagram_behind c hdirect p.sock udpMax p.carry d (by omega) (hp.carry d)
              b.client
          simp only [hstep, id]
          cases c.step b.client (.datagram d) <;> rfl
  | loseUp i =>
      simp only [DownLink.stepVia, DownLink.step, DownLink.onWire, List.length_map]
      split
      · simp only [Option.map_some, DownLink.onWire, List.eraseIdx_map]
      · rfl
  | loseDown i =>
      simp only [DownLink.stepVia, DownLink.step]
      rw [apply_ite (Option.map (DownLink.onWire target p.carry))]
      rfl
  | duplicateUp i =>
      simp only [DownLink.stepVia, DownLink.step, DownLink.onWire, List.getElem?_map]
      cases b.up[i]? with
      | none => rfl
      | some d =>
          simp only [Option.map_some, DownLink.onWire, List.map_append, List.map_cons, List.map_nil]
  | duplicateDown i =>
      simp only [DownLink.stepVia, DownLink.step, DownLink.onWire]
      cases b.down[i]? <;> rfl

/-- The hello of a download is accepted exactly if it is taken, … -/
theorem download_hello_accepted (c : DownReceiver) (r : Sender) (carry : Bytes → Bytes) :
    (DownLink.step c r carry (DownLink.init : DownLink F) (.client .accepted)).isSome ↔
      c.takes = some true := by
  rw [DownLink.step, DownReceiver.step]
  by_cases htakes : c.takes = some true
  · simp [htakes, DownEvent.isDatagram, DownLink.init, DownReceiver.init]
  · simp [htakes, DownEvent.isDatagram]

theorem download_hello_accepted_relayed (hp : p.Relays target) (c : DownReceiver) (r : Sender) :
    (DownLink.stepVia p c r (DownLink.init : DownLink F) (.client .accepted)).isSome ↔
      c.takes = some true := by
  rw [DownLink.stepVia, wire_relayed hp, DownReceiver.step]
  by_cases htakes : c.takes = some true
  · simp [htakes, DownLink.init, DownReceiver.init]
  · simp [htakes]

/-- … and refusing it is a panic exactly if it cannot be built. -/
theorem download_hello_refused (c : DownReceiver) (r : Sender) (carry : Bytes → Bytes) :
    (DownLink.step c r carry (DownLink.init : DownLink F) (.client .refused)).map
        (fun b => b.client.pc) = some .panicked ↔ c.takes = none := by
  rw [DownLink.step, DownReceiver.step]
  by_cases htakes : c.takes = none
  · simp [htakes, DownEvent.isDatagram, DownLink.init, DownReceiver.init]
  · simp [htakes, DownEvent.isDatagram, DownLink.init, DownReceiver.init]

end Down

/-- A download runs through a relay as it runs directly, exactly if the header
    decides nothing about its hello. -/
theorem download_relayed_iff (F : Type) [JitterFilter F] (opts : BenchOptions) (plan : Plan)
    (hkind : plan.kind = kindUdpDown) (p : UdpPath) (target : SocksAddr) (hp : p.Relays target)
    (directMax relayMax serverMax : UdpMax) :
    (∀ es : List DownLinkEvent,
        Machine.runFrom (DownLink.stepVia p
            (Client.runUdpDown p.sock relayMax opts.duration opts.udpSize)
            (Server.runUdpDown serverMax (opts.request plan)))
            (udpDown F opts plan p.sock relayMax serverMax p.carry).init es
          = (Machine.runFrom (udpDown F opts plan .direct directMax serverMax id).step
              (udpDown F opts plan .direct directMax serverMax id).init es).map
                (DownLink.onWire target p.carry)) ↔
      HeaderFits target directMax relayMax (max opts.udpSize.toNat udpHeaderLen) := by
  let c := Client.runUdpDown .direct directMax opts.duration opts.udpSize
  let r := Server.runUdpDown serverMax (opts.request plan)
  let c' := c.through p.sock relayMax
  have hfits : c'.takes = c.takes ↔
      HeaderFits target directMax relayMax (max opts.udpSize.toNat udpHeaderLen) := by
    rw [← takes_relayed_iff hp.wellFormed, ← hp.sock]
    rfl
  rw [← hfits]
  constructor
  · intro hsame
    have hanswer : ∀ e, DownLink.stepVia p c' r (DownLink.init : DownLink F) e
        = (DownLink.step c r id DownLink.init e).map (DownLink.onWire target p.carry) := by
      intro e
      have hrun : Machine.runFrom (DownLink.stepVia p c' r) (DownLink.init : DownLink F) [e]
          = (Machine.runFrom (DownLink.step c r id) DownLink.init [e]).map
              (DownLink.onWire target p.carry) := hsame [e]
      simp only [Machine.runFrom] at hrun
      cases hvia : DownLink.stepVia p c' r (DownLink.init : DownLink F) e <;>
        cases hbare : DownLink.step c r id (DownLink.init : DownLink F) e <;> simp_all
    refine takes_eq_of_answers ?_ ?_
    · have haccepted := congrArg Option.isSome (hanswer (.client .accepted))
      rw [Option.isSome_map] at haccepted
      rw [← download_hello_accepted_relayed (F := F) hp c' r,
        ← download_hello_accepted (F := F) c r id, haccepted]
    · have hrefused := congrArg (Option.map (fun b : DownLink F => b.client.pc))
        (hanswer (.client .refused))
      rw [Option.map_map] at hrefused
      rw [← download_hello_refused (F := F) c' r p.carry, ← download_hello_refused (F := F) c r id]
      exact iff_of_eq (congrArg (· = some DownPc.panicked) hrefused)
  · intro htakes es
    have hsize : r.size ≤ c.size := by
      have hannounced := request_payloadSize opts plan (Or.inr hkind)
      simp only [c, r, Server.runUdpDown, Client.runUdpDown]
      omega
    exact Machine.runFrom_map (DownLink.onWire target p.carry) (DownLink.Sound _ _)
      (sound_downLink_step c r id)
      (fun b e h => downLink_stepVia hp c rfl relayMax htakes r hsize b e h) es _
      (sound_downLink_init (F := F) c r)

/-- Over IPv4 a download with a hello of 16 bytes is the same through a relay,
    and with one of 65500 bytes it is not. -/
theorem download_relayed_iff_sizes :
    (∀ es : List DownLinkEvent,
      Machine.runFrom (DownLink.stepVia (relayTo relaySource)
          (Client.runUdpDown (.socks5 relaySource) ipv4Max quickOptions.duration
            quickOptions.udpSize)
          (Server.runUdpDown ipv4Max (quickOptions.request ⟨kindUdpDown, 1000, ""⟩)))
          (udpDown Float quickOptions ⟨kindUdpDown, 1000, ""⟩ (.socks5 relaySource) ipv4Max ipv4Max
            (relayTo relaySource).carry).init es
        = (Machine.runFrom
            (udpDown Float quickOptions ⟨kindUdpDown, 1000, ""⟩ .direct ipv4Max ipv4Max id).step
            (udpDown Float quickOptions ⟨kindUdpDown, 1000, ""⟩ .direct ipv4Max ipv4Max id).init
            es).map (DownLink.onWire relaySource (relayTo relaySource).carry)) ∧
    ¬ HeaderFits relaySource ipv4Max ipv4Max 65500 :=
  ⟨(download_relayed_iff Float quickOptions ⟨kindUdpDown, 1000, ""⟩ rfl (relayTo relaySource)
    relaySource (relayTo_relays (by decide)) ipv4Max ipv4Max ipv4Max).mpr (by decide), by decide⟩

end ProxyPen
