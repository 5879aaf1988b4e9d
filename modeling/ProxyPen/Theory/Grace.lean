import ProxyPen.Theory.Delivery
import ProxyPen.Theory.Traffic

/-!
# Grace for Stragglers

A receive loop outlives the test's duration by `STRAGGLE_GRACE`, so that a
datagram that is still on its way at the end of the test is not reported as
lost. Whether that is long enough is a matter of time, so the runs here are
timed: the parties read one clock, a send loop makes its observations at most
`δ` late, and a datagram is taken at most `D` after its timestamp.

A send loop that stamps a packet before its deadline may put it on the network
after it, and the last timestamp is one observation past the deadline. Hence a
test is over `max (2 * δ) (δ + D)` after the deadline of its sender. When the
grace is longer than that, the receiver stops with nothing in flight, and
every packet the client prints as lost is one the network has lost.

The server of an upload starts its deadline after the client, with the first
datagram. In a download it is the other way around. The client starts its
deadline when its hello is sent, so the hello's way to the server is taken off
the grace.

## Main definitions

* `Punctual`: No observation of a send loop is late, and no datagram is.
* `Over`: A direction of traffic that has come to rest.
* `UpLink.Timely`, `DownLink.Timely`: The timed runs of both tests.
* `UpLink.Kept`, `DownLink.Kept`: Their invariants.

## Theorems

* `over_of_punctual`, `over_step`: When a direction comes to rest, and that it
  stays at rest.
* `upKept_step`, `downKept_step`: One step of a timed run.
* `upload_grace`, `download_grace`: What the grace is good for.
-/

namespace ProxyPen

open Protocol Socks Traffic Machine

/-! ## The sending side -/

/-- A loop outside of its batches. -/
def SendState.Quiet (s : SendState) : Prop :=
  s.pc = .sleep ∨ s.pc = .top ∨ s.pc = .done ∨ s.pc = .failed ∨ s.pc = .panicked

/-- How long after a sender's deadline its datagrams may arrive. -/
def lateness (δ D : Nat) : Nat := max (2 * δ) (δ + D)

/-- At clock reading `t`, the loop is not late for its next observation, and no
    datagram is late for its arrival. -/
def Punctual (c : Sender) (δ D : Nat) (s : SendState) (net : List Bytes) (t : Nat) : Prop :=
  s.now ≤ t ∧
    (s.pc = .start ∨ s.pc = .done ∨ s.pc = .failed ∨ s.pc = .panicked ∨ t ≤ c.ready s + δ) ∧
    ∀ d ∈ net, t ≤ s.sessionStart + sendTsOf d + D

instance (c : Sender) (δ D : Nat) (s : SendState) (net : List Bytes) (t : Nat) :
    Decidable (Punctual c δ D s net t) :=
  inferInstanceAs (Decidable (_ ∧ _))

/-- What is known of the sender in every state of a timed run. -/
structure Timed (c : Sender) (δ : Nat) (s : SendState) : Prop where
  track : OnTrack c δ s
  /-- the last packet is stamped one observation after the deadline -/
  stamped : ∀ d ∈ s.sent, sendTsOf d ≤ c.durationNs + δ

/-- Nothing is in flight, and nothing will be. -/
structure Over (c : Sender) (s : SendState) (net : List Bytes) (now : Nat) : Prop where
  empty : net = []
  quiet : s.Quiet
  deadline_le : c.deadline s ≤ now

/-- What the network does to nothing leaves nothing. -/
theorem Over.erase {c : Sender} {s : SendState} {net : List Bytes} {now : Nat}
    (h : Over c s net now) (i : Nat) : Over c s (net.eraseIdx i) now where
  empty := by rw [h.empty, List.eraseIdx_nil]
  quiet := h.quiet
  deadline_le := h.deadline_le

section

variable (c : Sender) (δ D : Nat)

theorem timed_init : Timed c δ c.init where
  track := onTrack_init c δ
  stamped _ hd := absurd hd List.not_mem_nil

/-- A loop that answers a reading and is not late with it is prompt. -/
theorem prompt_of_punctual (s : SendState) (net : List Bytes) (e : SendEvent) (s' : SendState)
    (hstep : c.step s e = some s') (h : ∀ t, e = .reading t → Punctual c δ D s net t) :
    Prompt c δ s e := by
  cases e with
  | accepted => trivial
  | refused => trivial
  | reading t =>
      rcases (h t rfl).2.1 with hpc | hpc | hpc | hpc | hle
      · exact Or.inl hpc
      -- A loop that has ended asks for no reading.
      · simp only [Sender.step, Sender.onReading, hpc, ite_self, reduceCtorEq] at hstep
      · simp only [Sender.step, Sender.onReading, hpc, ite_self, reduceCtorEq] at hstep
      · simp only [Sender.step, Sender.onReading, hpc, ite_self, reduceCtorEq] at hstep
      · exact Or.inr hle

theorem timed_step (s : SendState) (e : SendEvent) (s' : SendState) (hprompt : Prompt c δ s e)
    (hstep : c.step s e = some s') (h : Timed c δ s) : Timed c δ s' where
  track := onTrack_step c δ s e s' hprompt hstep h.track
  stamped := by
    cases sendMove_of_step c s e s' hstep with
    | hello hpc hsize =>
        intro d hd
        rw [List.mem_singleton.mp hd, sendTsOf_encode _ 0 0 (by decide) (by decide)]
        exact Nat.zero_le _
    | send due hpc hsize =>
        intro d hd
        rcases List.mem_append.mp hd with hd | hd
        · exact h.stamped d hd
        · -- The deadline was tested one observation before the packet was stamped.
          have hready := (h.track.paced.ready due hpc).2.1
          have hnow : s.now ≤ c.deadline s + δ := by
            simpa only [Sender.latest, hpc] using h.track.inTime.now_le
          have hdeadline : c.deadline s = s.sessionStart + c.durationNs := rfl
          rw [List.mem_singleton.mp hd]
          omega
    | _ => exact h.stamped

/-- A loop that has started its session keeps it. -/
theorem session_of_step (s : SendState) (e : SendEvent) (s' : SendState) (hpc : s.pc ≠ .start)
    (hstep : c.step s e = some s') : s'.pc ≠ .start ∧ s'.sessionStart = s.sessionStart := by
  cases sendMove_of_step c s e s' hstep with
  | start t hs hnow hmax => exact absurd hs hpc
  | top t hs hnow hmax => exact ⟨by dsimp only; split <;> exact SendPc.noConfusion, rfl⟩
  | check t due hs hnow hmax => exact ⟨by dsimp only; split <;> exact SendPc.noConfusion, rfl⟩
  | due t hs hnow hmax =>
      exact ⟨by dsimp only [Sender.guard]; split <;> exact SendPc.noConfusion, rfl⟩
  | send due hs hsize =>
      exact ⟨by dsimp only [Sender.guard]; split <;> exact SendPc.noConfusion, rfl⟩
  | helloRefused hs => exact ⟨by dsimp only; split <;> exact SendPc.noConfusion, rfl⟩
  | _ => exact ⟨SendPc.noConfusion, rfl⟩

/-- A loop starts its session at a reading. -/
theorem start_of_step (s : SendState) (e : SendEvent) (s' : SendState) (hpc : s.pc = .start)
    (hstep : c.step s e = some s') : e = .reading s'.sessionStart := by
  cases sendMove_of_step c s e s' hstep with
  | start t hs hnow hmax => rfl
  | pacer t hs => cases hpc.symm.trans hs
  | top t hs => cases hpc.symm.trans hs
  | due t hs => cases hpc.symm.trans hs
  | check t due hs => cases hpc.symm.trans hs
  | stamp t due hs => cases hpc.symm.trans hs
  | wake t hs => cases hpc.symm.trans hs
  | hello hs => cases hpc.symm.trans hs
  | send due hs => cases hpc.symm.trans hs
  | helloRefused hs => cases hpc.symm.trans hs
  | sendRefused due hs => cases hpc.symm.trans hs

/-- Two observations after its deadline a loop is outside of its batches. -/
theorem quiet_of_punctual (s : SendState) (net : List Bytes) (t : Nat) (h : InTime c δ s)
    (hp : Punctual c δ D s net t) (hstart : s.pc ≠ .start)
    (hlate : c.deadline s + lateness δ D < t) : s.Quiet := by
  have hspan : 2 * δ ≤ lateness δ D := Nat.le_max_left _ _
  have hdeadline : c.deadline s = s.sessionStart + c.durationNs := rfl
  rcases hp.2.1 with hpc | hpc | hpc | hpc | hle
  · exact absurd hpc hstart
  · exact Or.inr (Or.inr (Or.inl hpc))
  · exact Or.inr (Or.inr (Or.inr (Or.inl hpc)))
  · exact Or.inr (Or.inr (Or.inr (Or.inr hpc)))
  · have hnow := h.now_le
    -- Everywhere else the loop would be late for its next observation.
    cases hpc : s.pc with
    | sleep => exact Or.inl hpc
    | top => exact Or.inr (Or.inl hpc)
    | done => exact Or.inr (Or.inr (Or.inl hpc))
    | failed => exact Or.inr (Or.inr (Or.inr (Or.inl hpc)))
    | panicked => exact Or.inr (Or.inr (Or.inr (Or.inr hpc)))
    | start => exact absurd hpc hstart
    | _ =>
        simp only [Sender.latest, hpc] at hnow
        simp only [Sender.ready, hpc, reduceCtorEq, if_false] at hle
        omega

theorem over_of_punctual (s : SendState) (net : List Bytes) (t : Nat) (h : Timed c δ s)
    (hnet : ∀ d ∈ net, d ∈ s.sent) (hp : Punctual c δ D s net t) (hstart : s.pc ≠ .start)
    (hlate : c.deadline s + lateness δ D < t) : Over c s net t where
  quiet := quiet_of_punctual c δ D s net t h.track.inTime hp hstart hlate
  deadline_le := by omega
  empty := by
    apply List.eq_nil_iff_forall_not_mem.mpr
    intro d hd
    -- A datagram in flight would be late for its arrival.
    have hstamp := h.stamped d (hnet d hd)
    have harrival := hp.2.2 d hd
    have hspan : δ + D ≤ lateness δ D := Nat.le_max_right _ _
    have hdeadline : c.deadline s = s.sessionStart + c.durationNs := rfl
    omega

/-- Past its deadline, a loop outside of its batches sends nothing more. -/
theorem over_step (s : SendState) (net : List Bytes) (now : Nat) (e : SendEvent) (s' : SendState)
    (hstep : c.step s e = some s') (hnow : ∀ t, e = .reading t → now ≤ t)
    (h : Over c s net now) : Over c s' (net ++ Sender.emits s e) now := by
  have hpc := h.quiet
  unfold SendState.Quiet at hpc
  cases sendMove_of_step c s e s' hstep with
  | top t hs hle hmax =>
      have hover : c.deadline s ≤ t := Nat.le_trans h.deadline_le (hnow t rfl)
      rw [if_pos hover]
      refine ⟨?_, Or.inr (Or.inr (Or.inl rfl)), h.deadline_le⟩
      simp only [h.empty, Sender.emits, hs, List.append_nil]
  | wake t hs hle hmax hawake =>
      refine ⟨?_, Or.inr (Or.inl rfl), h.deadline_le⟩
      simp only [h.empty, Sender.emits, hs, List.append_nil]
  | start t hs => simp only [hs, reduceCtorEq, or_self] at hpc
  | pacer t hs => simp only [hs, reduceCtorEq, or_self] at hpc
  | due t hs => simp only [hs, reduceCtorEq, or_self] at hpc
  | check t due hs => simp only [hs, reduceCtorEq, or_self] at hpc
  | stamp t due hs => simp only [hs, reduceCtorEq, or_self] at hpc
  | hello hs => simp only [hs, reduceCtorEq, or_self] at hpc
  | send due hs => simp only [hs, reduceCtorEq, or_self] at hpc
  | helloRefused hs => simp only [hs, reduceCtorEq, or_self] at hpc
  | sendRefused due hs => simp only [hs, reduceCtorEq, or_self] at hpc

end

/-! ## Upload -/

/-- The clock reading of an event. -/
def UpLinkEvent.time : UpLinkEvent → Option Nat
  | .client (.reading t) => some t
  | .server (.reading t) => some t
  | .server (.expired t) => some t
  | _ => none

/-- The server has started its session. -/
def UpPc.anchored : UpPc → Bool
  | .select => true
  | .process _ => true
  | .done => true
  | _ => false

section Up

variable {F : Type} [JitterFilter F] (c : Sender) (r : UpReceiver) (δ D : Nat)

/-- Both parties read one clock, and nothing is late at a reading. -/
def UpLink.Timely (b : UpLink F) (e : UpLinkEvent) : Prop :=
  ∀ t ∈ e.time, b.server.now ≤ t ∧ Punctual c δ D b.client b.net t

instance (b : UpLink F) (e : UpLinkEvent) : Decidable (b.Timely c δ D e) :=
  inferInstanceAs (Decidable (∀ t ∈ e.time, _))

/-- The invariant of a timed upload. -/
structure UpLink.Kept (b : UpLink F) : Prop where
  sound : b.Sound c r
  account : ∃ lost copied, Account b.traffic lost copied
  timed : Timed c δ b.client
  anchored : b.server.pc.anchored = true → b.client.sessionStart ≤ b.server.sessionStart
  -- On a clock that reaches the server's deadline.
  closed : b.server.pc = .done → r.deadline b.server ≤ clockMax →
    Over c b.client b.net b.server.now

theorem upKept_init : (UpLink.init c : UpLink F).Kept c r δ where
  sound := sound_upLink_init c r
  account := ⟨[], [], account_empty⟩
  timed := timed_init c δ
  anchored h := by simp only [UpLink.init, UpReceiver.init, UpPc.anchored, Bool.false_eq_true] at h
  closed h := by simp only [UpLink.init, UpReceiver.init, reduceCtorEq] at h

/-- What a step of the server does to its session: not yet started, started
    by it, or started before and maybe ended by it. -/
theorem upStep_session (s : UpState Unit F) (e : UpEvent Unit) (s' : UpState Unit F)
    (hstep : r.step s e = some s') :
    s'.pc.anchored = false ∨
      (∃ t, e = .reading t ∧ s'.sessionStart = t ∧ s'.pc ≠ .done) ∨
      (s.pc.anchored = true ∧ s'.sessionStart = s.sessionStart ∧
        (s'.pc = .done → ∃ t, e = .expired t ∧ s'.now = t ∧ min (r.deadline s) clockMax ≤ t)) := by
  cases e with
  | datagram src d =>
      rw [UpReceiver.step, UpReceiver.onDatagram] at hstep
      cases hpc : s.pc with
      | hello =>
          simp only [hpc, Option.some.injEq] at hstep
          exact Or.inl (hstep ▸ rfl)
      | select =>
          simp only [hpc, Option.some.injEq] at hstep
          refine Or.inr (Or.inr ⟨rfl, hstep ▸ rfl, fun hdone => ?_⟩)
          rw [← hstep] at hdone
          simp only at hdone
          split at hdone <;> cases hdone
      | _ => simp only [hpc, reduceCtorEq] at hstep
  | reading t =>
      rw [UpReceiver.step, Option.ite_none_right_eq_some] at hstep
      rcases hstep with ⟨-, hstep⟩
      unfold UpReceiver.onReading at hstep
      cases hpc : s.pc with
      | anchor buf =>
          simp only [hpc, Option.some.injEq] at hstep
          exact Or.inr (Or.inl ⟨t, rfl, hstep ▸ rfl, hstep ▸ UpPc.noConfusion⟩)
      | process buf =>
          simp only [hpc, Option.some.injEq] at hstep
          refine Or.inr (Or.inr ⟨rfl, hstep ▸ rfl, fun hdone => ?_⟩)
          rw [← hstep] at hdone
          cases hdone
      | _ => simp only [hpc, reduceCtorEq] at hstep
  | expired t =>
      rw [UpReceiver.step, Option.ite_none_right_eq_some] at hstep
      rcases hstep with ⟨⟨hpc, -, -, hlate⟩, hstep⟩
      rw [Option.some.injEq] at hstep
      exact Or.inr (Or.inr ⟨hpc ▸ rfl, hstep ▸ rfl, fun _ => ⟨t, rfl, hstep ▸ rfl, hlate⟩⟩)
  | error =>
      rw [UpReceiver.step, Option.ite_none_right_eq_some, Option.some.injEq] at hstep
      exact Or.inl (hstep.2 ▸ rfl)

omit [JitterFilter F] in
/-- What a server that has started its session has heard, the client has
    sent. -/
theorem UpLink.Kept.started {b : UpLink F} (h : b.Kept c r δ) (hpc : b.server.pc.anchored = true) :
    b.client.pc ≠ .start := by
  intro hstart
  rcases h.account with ⟨lost, copied, hacc⟩
  have hbegun : b.server.received ≠ [] := by
    refine h.sound.server.begun ?_ ?_ <;> intro hat <;>
      simp only [hat, UpPc.anchored, Bool.false_eq_true] at hpc
  rcases List.exists_mem_of_ne_nil _ hbegun with ⟨x, hx⟩
  have hsent : x.2 ∈ b.client.sent := hacc.taken_sent _ (List.mem_map_of_mem hx)
  rw [h.sound.client.fresh hstart] at hsent
  exact List.not_mem_nil hsent

/-- A step of the server keeps what a timed upload keeps of both parties. -/
theorem upKept_server (hgrace : c.durationNs + lateness δ D < r.windowNs) (b : UpLink F)
    (h : b.Kept c r δ) (e : UpEvent Unit) (s : UpState Unit F)
    (hstep : r.step b.server e = some s)
    (htimely : ∀ t, e = .reading t ∨ e = .expired t → Punctual c δ D b.client b.net t) :
    (s.pc.anchored = true → b.client.sessionStart ≤ s.sessionStart) ∧
      (s.pc = .done → r.deadline s ≤ clockMax → Over c b.client b.net s.now) := by
  rcases upStep_session r _ _ _ hstep with hpc | ⟨t, rfl, hsession, hpc⟩ | ⟨hpc, hsession, hend⟩
  · refine ⟨fun hat => ?_, fun hat => ?_⟩
    · rw [hpc] at hat
      cases hat
    · rw [hat] at hpc
      cases hpc
  · refine ⟨fun _ => ?_, fun hat => absurd hat hpc⟩
    rw [hsession]
    exact Nat.le_trans h.timed.track.paced.session_le (htimely t (Or.inl rfl)).1
  · have hstarts := h.anchored hpc
    refine ⟨fun _ => hsession ▸ hstarts, fun hat hclock => ?_⟩
    rcases hend hat with ⟨t, rfl, rfl, hlate⟩
    -- The server started after the client, so its grace covers the client's lateness.
    have hsame : r.deadline b.server = r.deadline s := by
      rw [UpReceiver.deadline, UpReceiver.deadline, hsession]
    rw [hsame, Nat.min_eq_left hclock] at hlate
    have hdeadline : c.deadline b.client = b.client.sessionStart + c.durationNs := rfl
    have hwindow : r.deadline s = s.sessionStart + r.windowNs := rfl
    rcases h.account with ⟨lost, copied, hacc⟩
    exact over_of_punctual c δ D _ _ _ h.timed hacc.flight_sent (htimely _ (Or.inr rfl))
      (h.started c r δ hpc) (by omega)

theorem upKept_step (hgrace : c.durationNs + lateness δ D < r.windowNs) (b : UpLink F)
    (e : UpLinkEvent) (b' : UpLink F) (htimely : b.Timely c δ D e)
    (hstep : UpLink.step c r b e = some b') (h : b.Kept c r δ) : b'.Kept c r δ := by
  have hsound := sound_upLink_step c r b e b' hstep h.sound
  have haccount : ∃ lost copied, Account b'.traffic lost copied := by
    rcases h.account with ⟨lost, copied, hacc⟩
    rcases hacc.move (upLink_traffic_move c r b e b' hstep h.sound) with
      ⟨lost', copied', hacc', -, -⟩
    exact ⟨lost', copied', hacc'⟩
  cases e with
  | client e =>
      cases upLinkMove_of_step c r b _ b' hstep with
      | client _ s hs =>
          have hp : ∀ t, e = .reading t → b.server.now ≤ t ∧ Punctual c δ D b.client b.net t := by
            rintro t rfl
            exact htimely t rfl
          have hprompt := prompt_of_punctual c δ D _ _ _ _ hs (fun t ht => (hp t ht).2)
          refine ⟨hsound, haccount, timed_step c δ _ _ _ hprompt hs h.timed, fun hat => ?_,
            fun hat hclock => ?_⟩
          · have hsession := session_of_step c _ _ _ (h.started c r δ hat) hs
            exact hsession.2 ▸ h.anchored hat
          · exact over_step c _ _ _ _ _ hs (fun t ht => (hp t ht).1) (h.closed hat hclock)
  | server e =>
      cases upLinkMove_of_step c r b _ b' hstep with
      | server _ s hs =>
          have hp : ∀ t, e = .reading t ∨ e = .expired t → Punctual c δ D b.client b.net t := by
            rintro t (rfl | rfl)
            · exact (htimely t rfl).2
            · exact (htimely t rfl).2
          rcases upKept_server c r δ D hgrace b h e s hs hp with ⟨hanchored, hover⟩
          exact ⟨hsound, haccount, h.timed, hanchored, hover⟩
  | deliver i =>
      cases upLinkMove_of_step c r b _ b' hstep with
      | deliver _ d s hs =>
          -- The deadline passes at a reading, never with a datagram.
          have hp : ∀ t, UpEvent.datagram () d = .reading t ∨ UpEvent.datagram () d = .expired t →
              Punctual c δ D b.client b.net t := by
            rintro t (he | he) <;> cases he
          rcases upKept_server c r δ D hgrace b h _ s hs hp with ⟨hanchored, hover⟩
          exact ⟨hsound, haccount, h.timed, hanchored, fun hat hclock => (hover hat hclock).erase i⟩
  | lose i =>
      cases upLinkMove_of_step c r b _ b' hstep with
      | lose _ hi =>
          exact ⟨hsound, haccount, h.timed, h.anchored, fun hat hclock =>
            (h.closed hat hclock).erase i⟩
  | duplicate i =>
      rw [UpLink.step] at hstep
      split at hstep
      · rename_i d hi
        cases hstep
        refine ⟨hsound, haccount, h.timed, h.anchored, fun hat hclock => ?_⟩
        -- There is nothing left to copy.
        rw [(h.closed hat hclock).empty, List.getElem?_nil] at hi
        cases hi
      · cases hstep

end Up

/-- The window of the server's receive loop is the client's duration, in whole
    milliseconds, and the grace. -/
theorem upWindow_eq (opts : BenchOptions) (plan : Plan)
    (hms : opts.duration / 1000000 < 2 ^ 32) :
    (Server.runUdpUp (opts.request plan)).windowNs + opts.duration % 1000000
      = opts.duration + straggleGrace := by
  have hfits : (opts.request plan).durationMs.toNat = opts.duration / 1000000 :=
    UInt32.toNat_ofNat_of_lt' hms
  have hsplit := Nat.div_add_mod' opts.duration 1000000
  have hwindow : (Server.runUdpUp (opts.request plan)).windowNs
      = (opts.request plan).durationMs.toNat * 1000000 + straggleGrace := rfl
  omega

/-- In a timed upload whose lateness is within the grace, nothing is in flight
    once the server has stopped, and the client prints what the network has
    lost and copied. The part of a millisecond the server is not told about
    counts as lateness. -/
theorem upload_grace (F : Type) [JitterFilter F] (opts : BenchOptions) (plan : Plan)
    (hkind : plan.kind = kindUdpUp) (hms : opts.duration / 1000000 < 2 ^ 32)
    (sock : TransportUdpSocket) (udpMax : UdpMax) (δ D : Nat)
    (hgrace : opts.duration % 1000000 + lateness δ D < straggleGrace) (es : List UpLinkEvent)
    (b : UpLink F)
    (hrun : runFrom (udpUp F opts plan sock udpMax).step (udpUp F opts plan sock udpMax).init es
      = some b)
    (htimely : Meets (udpUp F opts plan sock udpMax).step
      (UpLink.Timely (Client.runUdpUp sock udpMax opts.duration opts.udpSize plan.bandwidthBps)
        δ D)
      (udpUp F opts plan sock udpMax).init es)
    (hdone : b.server.pc = .done)
    (hclock : (Server.runUdpUp (opts.request plan)).deadline b.server ≤ clockMax)
    (dur dur' : Nat) :
    b.net = [] ∧ Figures (es.countP (fun e => e.fate = .lost))
      (es.countP (fun e => e.fate = .copied)) 0 (b.client.report dur) (b.server.report dur') := by
  have hwindow := upWindow_eq opts plan hms
  have hkept := run_invariant_of_meets _ _ (upKept_step _ _ δ D (by
    simp only [Client.runUdpUp]
    omega)) es _ b htimely hrun (upKept_init _ (Server.runUdpUp (opts.request plan)) δ)
  have hempty := (hkept.closed hdone hclock).empty
  rcases upload_account _ _ es b hrun with ⟨lost, copied, hacc, hlost, hcopied⟩
  have hfigures := figures_of_upLink opts plan hkind sock udpMax b hkept.sound hacc (hdone ▸ rfl)
    dur dur'
  rw [hlost, hcopied, hempty] at hfigures
  exact ⟨hempty, hfigures.2⟩

/-- An upload that ends after its two packets. The network loses the second and
    copies the first, and the copy arrives after the deadline. -/
def stragglingUpload : List UpLinkEvent :=
  [.client (.reading 0), .client .accepted, .client (.reading 0), .duplicate 0, .deliver 0,
    .server (.reading 0), .server (.reading 0), .client (.reading 0), .client (.reading 2),
    .client (.reading 2), .client (.reading 3), .client .accepted, .client (.reading 4), .lose 1,
    .client (.reading 1000000), .deliver 0, .server (.reading 1000000),
    .server (.expired 501000000)]

/-- With observations and arrivals within a millisecond. -/
theorem upload_grace_straggler :
    ∃ b : UpLink Float,
      runFrom (udpUp Float quickOptions ⟨kindUdpUp, 128000000000, ""⟩ .direct ipv4Max).step
        (udpUp Float quickOptions ⟨kindUdpUp, 128000000000, ""⟩ .direct ipv4Max).init
        stragglingUpload = some b ∧
      b.server.pc = .done ∧
      b.net = [] ∧ Figures 1 1 0 (b.client.report 0) (b.server.report 0) := by
  have hrun : runFrom (udpUp Float quickOptions ⟨kindUdpUp, 128000000000, ""⟩ .direct ipv4Max).step
      (udpUp Float quickOptions ⟨kindUdpUp, 128000000000, ""⟩ .direct ipv4Max).init
      stragglingUpload = some _ := rfl
  exact ⟨_, hrun, rfl, upload_grace Float quickOptions _ rfl (by decide) _ _ 1000000 1000000
    (by decide) stragglingUpload _ hrun (by decide +kernel) rfl (by decide +kernel) 0 0⟩

/-! ## Download -/

/-- The clock reading of an event. -/
def DownLinkEvent.time : DownLinkEvent → Option Nat
  | .client (.reading t) => some t
  | .client (.expired t) => some t
  | .server (.send (.reading t)) => some t
  | _ => none

namespace ServeState

/-- The send loop of a server that has its hello. -/
def sender? : ServeState → Option SendState
  | .sending s => some s
  | _ => none

/-- The server has yet to start its session. -/
def unstarted : ServeState → Bool
  | .hello => true
  | .sending s => s.pc = .start
  | .failed => false

end ServeState

/-- The client has started its deadline, and has not panicked. -/
def DownPc.started : DownPc → Bool
  | .hello => false
  | .start => false
  | .failed => false
  | .panicked => false
  | _ => true

section Down

variable {F : Type} [JitterFilter F] (c : DownReceiver) (r : Sender) (carry : Bytes → Bytes)
  (δ D H : Nat)

/-- Both parties read one clock, the server starts its session at most `H`
    after the client has started its deadline, and nothing is late at a
    reading. -/
def DownLink.Timely (b : DownLink F) (e : DownLinkEvent) : Prop :=
  ∀ t ∈ e.time, b.client.now ≤ t ∧
    (b.server.unstarted = true → b.client.pc.started = true → t ≤ b.client.testStart + H) ∧
    ∀ s ∈ b.server.sender?, Punctual r δ D s b.down t

instance (b : DownLink F) (e : DownLinkEvent) : Decidable (b.Timely r δ D H e) :=
  inferInstanceAs (Decidable (∀ t ∈ e.time, _ ∧ _ ∧ ∀ s ∈ b.server.sender?, _))

/-- The invariant of a timed download. -/
structure DownLink.Kept (b : DownLink F) : Prop where
  sound : b.Sound c r
  account : ∃ lost copied, Account (b.traffic c) lost copied
  timed : ∀ s ∈ b.server.sender?, Timed r δ s
  started : b.client.pc.started = true → ∀ s ∈ b.server.sender?, s.pc ≠ .start →
    s.sessionStart ≤ b.client.testStart + H
  -- On a clock that reaches the client's deadline.
  closed : b.client.pc = .stopped .deadline → c.deadline b.client ≤ clockMax →
    b.server.unstarted = false ∧ ∀ s ∈ b.server.sender?, Over r s b.down b.client.now

theorem downKept_init : (DownLink.init : DownLink F).Kept c r δ H where
  sound := sound_downLink_init c r
  account := ⟨[], [], account_empty⟩
  timed s hs := by simp only [DownLink.init, ServeState.sender?, Option.mem_def, reduceCtorEq] at hs
  started h := by
    simp only [DownLink.init, DownReceiver.init, DownPc.started, Bool.false_eq_true] at h
  closed h := by simp only [DownLink.init, DownReceiver.init, reduceCtorEq] at h

/-- What a step of the client does to its deadline: not yet started, started by
    it, or started before and maybe passed at it. -/
theorem downStep_deadline (s : DownState F) (e : DownEvent) (s' : DownState F)
    (hstep : c.step s e = some s') :
    s'.pc.started = false ∨
      (∃ t, e = .reading t ∧ s'.testStart = t ∧ s'.pc = .select) ∨
      (s.pc.started = true ∧ s'.testStart = s.testStart ∧
        (s'.pc = .stopped .deadline →
          ∃ t, e = .expired t ∧ s'.now = t ∧ min (c.deadline s) clockMax ≤ t)) := by
  cases e with
  | accepted =>
      rw [DownReceiver.step, Option.ite_none_right_eq_some, Option.some.injEq] at hstep
      exact Or.inl (hstep.2 ▸ rfl)
  | refused =>
      rw [DownReceiver.step, Option.ite_none_right_eq_some, Option.some.injEq] at hstep
      rcases hstep with ⟨hpc, rfl⟩
      left
      dsimp only
      split
      · rfl
      · rfl
  | datagram d =>
      rw [DownReceiver.step, Option.ite_none_right_eq_some, Option.some.injEq] at hstep
      rcases hstep with ⟨hpc, rfl⟩
      refine Or.inr (Or.inr ⟨hpc ▸ rfl, rfl, fun hat => ?_⟩)
      -- A datagram ends the loop only as a rejected one.
      simp only [DownReceiver.onRecv] at hat
      repeat' split at hat
      all_goals cases hat
  | reading t =>
      rw [DownReceiver.step, Option.ite_none_right_eq_some] at hstep
      rcases hstep with ⟨-, hstep⟩
      unfold DownReceiver.onReading at hstep
      cases hpc : s.pc with
      | start =>
          simp only [hpc, Option.some.injEq] at hstep
          exact Or.inr (Or.inl ⟨t, rfl, hstep ▸ rfl, hstep ▸ rfl⟩)
      | anchor buf =>
          simp only [hpc, Option.some.injEq] at hstep
          exact Or.inr (Or.inr ⟨rfl, hstep ▸ rfl, fun hat => by rw [← hstep] at hat; cases hat⟩)
      | process buf =>
          simp only [hpc] at hstep
          split at hstep <;> rw [Option.some.injEq] at hstep <;>
            exact Or.inr (Or.inr ⟨rfl, hstep ▸ rfl, fun hat => by rw [← hstep] at hat; cases hat⟩)
      | _ => simp only [hpc, reduceCtorEq] at hstep
  | expired t =>
      rw [DownReceiver.step, Option.ite_none_right_eq_some, Option.some.injEq] at hstep
      rcases hstep with ⟨⟨hpc, -, -, hlate⟩, rfl⟩
      exact Or.inr (Or.inr ⟨hpc ▸ rfl, rfl, fun _ => ⟨t, rfl, rfl, hlate⟩⟩)
  | error =>
      rw [DownReceiver.step, Option.ite_none_right_eq_some, Option.some.injEq] at hstep
      rcases hstep with ⟨hpc, rfl⟩
      exact Or.inr (Or.inr ⟨hpc ▸ rfl, rfl, fun hat => by cases hat⟩)

/-- A step of the client keeps what a timed download keeps of both parties. -/
theorem downKept_client (hgrace : r.durationNs + H + lateness δ D < c.windowNs) (b : DownLink F)
    (h : b.Kept c r δ H) (e : DownEvent) (s : DownState F) (hstep : c.step b.client e = some s)
    (htimely : ∀ t, e = .reading t ∨ e = .expired t → b.Timely r δ D H (.client e)) :
    (s.pc.started = true → ∀ u ∈ b.server.sender?, u.pc ≠ .start →
        u.sessionStart ≤ s.testStart + H) ∧
      (s.pc = .stopped .deadline → c.deadline s ≤ clockMax →
        b.server.unstarted = false ∧ ∀ u ∈ b.server.sender?, Over r u b.down s.now) := by
  rcases downStep_deadline c _ _ _ hstep with hpc | ⟨t, rfl, hstart, hpc⟩ | ⟨hpc, hstart, hend⟩
  · refine ⟨fun hat => ?_, fun hat => ?_⟩
    · rw [hpc] at hat
      cases hat
    · rw [hat] at hpc
      cases hpc
  · refine ⟨fun _ u hu hrunning => ?_, fun hat => ?_⟩
    · -- A session that has started before the deadline did.
      have hsession := (h.timed u hu).track.paced.session_le
      have hnow := ((htimely t (Or.inl rfl) t rfl).2.2 u hu).1
      omega
    · rw [hpc] at hat
      cases hat
  · refine ⟨fun _ => hstart ▸ h.started hpc, fun hat hclock => ?_⟩
    rcases hend hat with ⟨t, rfl, rfl, hlate⟩
    have hsame : c.deadline b.client = c.deadline s := by
      rw [DownReceiver.deadline, DownReceiver.deadline, hstart]
    rw [hsame, Nat.min_eq_left hclock] at hlate
    have hwindow : c.deadline s = s.testStart + c.windowNs := rfl
    rcases htimely _ (Or.inr rfl) _ rfl with ⟨-, hhello, hpunctual⟩
    -- A server without a session would be late for its start.
    have hrunning : b.server.unstarted = false := by
      by_contra hwaits
      have hle := hhello (Bool.of_not_eq_false hwaits) hpc
      omega
    refine ⟨hrunning, fun u hu => ?_⟩
    have hserver : b.server = .sending u := by
      cases hat : b.server with
      | sending v =>
          rw [hat, ServeState.sender?, Option.mem_def, Option.some.injEq] at hu
          rw [hu]
      | _ =>
          rw [hat] at hu
          cases hu
    have hpc' : u.pc ≠ .start := by
      intro hu'
      simp only [hserver, ServeState.unstarted, hu', decide_true, Bool.true_eq_false] at hrunning
    have hsession := h.started hpc u hu hpc'
    have hdeadline : r.deadline u = u.sessionStart + r.durationNs := rfl
    rcases h.account with ⟨lost, copied, hacc⟩
    have hflight : ∀ d ∈ b.down, d ∈ u.sent := by
      have hsent := hacc.flight_sent
      rwa [DownLink.traffic, hserver] at hsent
    exact over_of_punctual r δ D _ _ _ (h.timed u hu) hflight (hpunctual u hu) hpc' (by omega)

omit [JitterFilter F] in
/-- A step of the server's send loop keeps what a timed download keeps of both
    parties. -/
theorem downKept_send (b : DownLink F) (h : b.Kept c r δ H) (u : SendState)
    (hserver : b.server = .sending u) (e : SendEvent) (u' : SendState)
    (hstep : r.step u e = some u') (htimely : b.Timely r δ D H (.server (.send e))) :
    Timed r δ u' ∧
      (b.client.pc.started = true → u'.pc ≠ .start → u'.sessionStart ≤ b.client.testStart + H) ∧
      (b.client.pc = .stopped .deadline → c.deadline b.client ≤ clockMax →
        u'.pc ≠ .start ∧ Over r u' (b.down ++ Sender.emits u e) b.client.now) := by
  have hu : u ∈ b.server.sender? := by rw [hserver, ServeState.sender?, Option.mem_def]
  have hp : ∀ t, e = .reading t → Punctual r δ D u b.down t := by
    rintro t rfl
    exact (htimely t rfl).2.2 u hu
  have hprompt := prompt_of_punctual r δ D _ _ _ _ hstep hp
  refine ⟨timed_step r δ _ _ _ hprompt hstep (h.timed u hu), fun hclient _ => ?_,
    fun hat hclock => ?_⟩
  · by_cases hpc : u.pc = .start
    · -- The session starts at this reading, in time after the hello.
      have he := start_of_step r _ _ _ hpc hstep
      refine (htimely u'.sessionStart (he ▸ rfl)).2.1 ?_ hclient
      rw [hserver]
      exact decide_eq_true hpc
    · rw [(session_of_step r _ _ _ hpc hstep).2]
      exact h.started hclient u hu hpc
  · rcases h.closed hat hclock with ⟨hrunning, hrest⟩
    have hpc : u.pc ≠ .start := by
      intro hpc
      simp only [hserver, ServeState.unstarted, hpc, decide_true, Bool.true_eq_false] at hrunning
    refine ⟨(session_of_step r _ _ _ hpc hstep).1, over_step r _ _ _ _ _ hstep ?_ (hrest u hu)⟩
    rintro t rfl
    exact (htimely t rfl).1

omit [JitterFilter F] in
/-- A server that waits for its hello is not in a download that is over. -/
theorem DownLink.Kept.running {b : DownLink F} (h : b.Kept c r δ H) (hserver : b.server = .hello)
    (hat : b.client.pc = .stopped .deadline) : clockMax < c.deadline b.client := by
  by_contra hclock
  have hrunning := (h.closed hat (Nat.not_lt.mp hclock)).1
  rw [hserver] at hrunning
  cases hrunning

omit [JitterFilter F] in
/-- A step of the server keeps what a timed download keeps of both parties,
    whether its hello arrives, its socket fails or its send loop goes on. -/
theorem downKept_server (b : DownLink F) (h : b.Kept c r δ H) (e : ServeEvent) (v : ServeState)
    (hstep : serveStep r b.server e = some v)
    (htimely : ∀ e', e = .send e' → b.Timely r δ D H (.server e)) :
    (∀ u ∈ v.sender?, Timed r δ u) ∧
      (b.client.pc.started = true → ∀ u ∈ v.sender?, u.pc ≠ .start →
        u.sessionStart ≤ b.client.testStart + H) ∧
      (b.client.pc = .stopped .deadline → c.deadline b.client ≤ clockMax →
        v.unstarted = false ∧
          ∀ u ∈ v.sender?, Over r u (b.down ++ b.server.emits e) b.client.now) := by
  cases hserver : b.server with
  | hello =>
      rw [hserver] at hstep
      cases e with
      | datagram d =>
          cases hstep
          refine ⟨?_, ?_, fun hat hclock => ?_⟩
          · rintro u ⟨⟩
            exact timed_init r δ
          · rintro - u ⟨⟩ hpc
            exact absurd rfl hpc
          · exact absurd hclock (Nat.not_le.mpr (h.running c r δ H hserver hat))
      | send e => cases hstep
      | error =>
          cases hstep
          -- The server has failed, and sends nothing.
          refine ⟨?_, ?_, fun _ _ => ⟨rfl, ?_⟩⟩
          · rintro u ⟨⟩
          · rintro - u ⟨⟩
          · rintro u ⟨⟩
  | sending u =>
      rw [hserver] at hstep
      cases e with
      | datagram d => cases hstep
      | error => cases hstep
      | send e =>
          simp only [serveStep] at hstep
          split at hstep
          · rename_i u' hu'
            cases hstep
            rcases downKept_send c r δ D H b h u hserver e u' hu' (htimely e rfl) with
              ⟨htimed, hstarted, hover⟩
            refine ⟨?_, ?_, fun hat hclock => ?_⟩
            · rintro w ⟨⟩
              exact htimed
            · rintro hclient w ⟨⟩
              exact hstarted hclient
            · rcases hover hat hclock with ⟨hpc, hrest⟩
              refine ⟨decide_eq_false hpc, ?_⟩
              rintro w ⟨⟩
              exact hrest
          · cases hstep
  | failed =>
      rw [hserver] at hstep
      cases e <;> cases hstep

theorem downKept_step (hcarry : ∀ d, Carries c.sock d (carry d)) (hsize : r.size ≤ c.size)
    (hgrace : r.durationNs + H + lateness δ D < c.windowNs) (b : DownLink F) (e : DownLinkEvent)
    (b' : DownLink F) (htimely : b.Timely r δ D H e)
    (hstep : DownLink.step c r carry b e = some b') (h : b.Kept c r δ H) : b'.Kept c r δ H := by
  have hsound := sound_downLink_step c r carry b e b' hstep h.sound
  have haccount : ∃ lost copied, Account (b'.traffic c) lost copied := by
    rcases h.account with ⟨lost, copied, hacc⟩
    rcases hacc.move (downLink_traffic_move c r carry hcarry hsize b e b' hstep h.sound) with
      ⟨lost', copied', hacc', -, -⟩
    exact ⟨lost', copied', hacc'⟩
  cases e with
  | client e =>
      cases downLinkMove_of_step c r carry b _ b' hstep with
      | client _ s hs =>
          rcases downKept_client c r δ D H hgrace b h e s hs (fun _ _ => htimely) with
            ⟨hstarted, hover⟩
          exact ⟨hsound, haccount, h.timed, hstarted, hover⟩
  | server e =>
      cases downLinkMove_of_step c r carry b _ b' hstep with
      | server _ v hv =>
          rcases downKept_server c r δ D H b h e v hv (fun _ _ => htimely) with
            ⟨htimed, hstarted, hover⟩
          exact ⟨hsound, haccount, htimed, hstarted, hover⟩
  | deliverUp i =>
      cases downLinkMove_of_step c r carry b _ b' hstep with
      | deliverUp _ d v hv =>
          -- The hello, at which the server sends nothing.
          have hemits : b.server.emits (.datagram d) = [] := by cases b.server <;> rfl
          rcases downKept_server c r δ D H b h _ v hv (fun _ he => by cases he) with
            ⟨htimed, hstarted, hover⟩
          rw [hemits, List.append_nil] at hover
          exact ⟨hsound, haccount, htimed, hstarted, hover⟩
  | deliverDown i =>
      cases downLinkMove_of_step c r carry b _ b' hstep with
      | deliverDown _ d s hs =>
          -- The deadline passes at a reading, never with a datagram.
          have hp : ∀ t, DownEvent.datagram (carry d) = .reading t ∨
              DownEvent.datagram (carry d) = .expired t →
              b.Timely r δ D H (.client (.datagram (carry d))) := by
            rintro t (he | he) <;> cases he
          rcases downKept_client c r δ D H hgrace b h _ s hs hp with ⟨hstarted, hover⟩
          exact ⟨hsound, haccount, h.timed, hstarted, fun hat hclock =>
            ⟨(hover hat hclock).1, fun u hu => ((hover hat hclock).2 u hu).erase i⟩⟩
  | loseUp i =>
      cases downLinkMove_of_step c r carry b _ b' hstep with
      | loseUp _ hi => exact ⟨hsound, haccount, h.timed, h.started, h.closed⟩
  | loseDown i =>
      cases downLinkMove_of_step c r carry b _ b' hstep with
      | loseDown _ =>
          exact ⟨hsound, haccount, h.timed, h.started, fun hat hclock =>
            ⟨(h.closed hat hclock).1, fun u hu => ((h.closed hat hclock).2 u hu).erase i⟩⟩
  | duplicateUp i =>
      cases downLinkMove_of_step c r carry b _ b' hstep with
      | duplicateUp _ d => exact ⟨hsound, haccount, h.timed, h.started, h.closed⟩
  | duplicateDown i =>
      rw [DownLink.step] at hstep
      split at hstep
      · rename_i d hi
        cases hstep
        refine ⟨hsound, haccount, h.timed, h.started, fun hat hclock => ?_⟩
        rcases h.closed hat hclock with ⟨hrunning, hrest⟩
        refine ⟨hrunning, fun u hu => ?_⟩
        -- There is nothing left to copy.
        rw [(hrest u hu).empty, List.getElem?_nil] at hi
        cases hi
      · cases hstep

end Down

/-- In a timed download whose lateness, with that of the hello, is within the
    grace, nothing is in flight once the client's deadline has stopped it, and
    the client prints what the network has lost and copied. -/
theorem download_grace (F : Type) [JitterFilter F] (opts : BenchOptions) (plan : Plan)
    (hkind : plan.kind = kindUdpDown) (sock : TransportUdpSocket) (udpMax serverMax : UdpMax)
    (carry : Bytes → Bytes) (hcarry : ∀ d, Carries sock d (carry d)) (δ D H : Nat)
    (hgrace : H + lateness δ D < straggleGrace) (es : List DownLinkEvent) (b : DownLink F)
    (hrun : runFrom (udpDown F opts plan sock udpMax serverMax carry).step
      (udpDown F opts plan sock udpMax serverMax carry).init es = some b)
    (htimely : Meets (udpDown F opts plan sock udpMax serverMax carry).step
      (DownLink.Timely (Server.runUdpDown serverMax (opts.request plan)) δ D H)
      (udpDown F opts plan sock udpMax serverMax carry).init es)
    (s : SendState) (hs : b.server = .sending s) (hstop : b.client.pc = .stopped .deadline)
    (hclock : (Client.runUdpDown sock udpMax opts.duration opts.udpSize).deadline b.client
      ≤ clockMax)
    (dur dur' : Nat) :
    b.down = [] ∧ Figures (es.countP (fun e => e.fate = .lost))
      (es.countP (fun e => e.fate = .copied)) 0 (b.server.report dur) (b.client.report dur') := by
  have hsize := downSize_le opts plan hkind sock udpMax serverMax
  -- The server counts whole milliseconds, so it never sends for longer than the client asks.
  have hms : (opts.request plan).durationMs.toNat ≤ opts.duration / 1000000 := Nat.mod_le _ _
  have hwhole := Nat.div_mul_le_self opts.duration 1000000
  have hduration : (Server.runUdpDown serverMax (opts.request plan)).durationNs
      = (opts.request plan).durationMs.toNat * 1000000 := rfl
  have hwindow : (Client.runUdpDown sock udpMax opts.duration opts.udpSize).windowNs
      = opts.duration + straggleGrace := rfl
  have hmul := Nat.mul_le_mul_right 1000000 hms
  have hkept := run_invariant_of_meets _ _ (downKept_step _ _ carry δ D H hcarry hsize (by omega))
    es _ b htimely hrun (downKept_init _ _ δ H)
  have hempty := ((hkept.closed hstop hclock).2 s (by rw [hs, ServeState.sender?]; rfl)).empty
  rcases download_account _ _ carry hcarry hsize es b hrun with ⟨lost, copied, hacc, hlost, hcopied⟩
  have hfigures := figures_of_downLink _ _ b hkept.sound s hs hacc (hstop ▸ rfl) dur dur'
  rw [hlost, hcopied, hempty] at hfigures
  exact ⟨hempty, hfigures.2⟩

/-- A download of one packet behind a relay, which arrives twice, and only
    after the server has stopped. -/
def stragglingDownload : List DownLinkEvent :=
  [.client .accepted, .client (.reading 0), .deliverUp 0, .server (.send (.reading 999990)),
    .server (.send (.reading 999990)), .server (.send (.reading 999990)),
    .server (.send (.reading 999991)), .server (.send (.reading 999992)),
    .server (.send (.reading 999993)), .server (.send .accepted), .duplicateDown 0,
    .server (.send (.reading 1999990)), .server (.send (.reading 1999990)), .deliverDown 1,
    .client (.reading 1999991), .client (.reading 1999992), .deliverDown 0,
    .client (.reading 1999993), .client (.expired 501000000)]

/-- With observations, arrivals and the start of the server within a
    millisecond each. -/
theorem download_grace_straggler :
    ∃ b : DownLink Float, ∃ s : SendState,
      runFrom (udpDown Float quickOptions ⟨kindUdpDown, 128000000000, ""⟩ (.socks5 relaySource)
          ipv4Max ipv4Max (fun d => wireHeader 0 0 relaySource ++ d)).step
        (udpDown Float quickOptions ⟨kindUdpDown, 128000000000, ""⟩ (.socks5 relaySource)
          ipv4Max ipv4Max (fun d => wireHeader 0 0 relaySource ++ d)).init stragglingDownload
        = some b ∧
      b.server = .sending s ∧ s.pc = .done ∧ b.client.pc = .stopped .deadline ∧
      b.down = [] ∧ Figures 0 1 0 (b.server.report 0) (b.client.report 0) := by
  have hrun : runFrom (udpDown Float quickOptions ⟨kindUdpDown, 128000000000, ""⟩
      (.socks5 relaySource) ipv4Max ipv4Max (fun d => wireHeader 0 0 relaySource ++ d)).step
    (udpDown Float quickOptions ⟨kindUdpDown, 128000000000, ""⟩
      (.socks5 relaySource) ipv4Max ipv4Max (fun d => wireHeader 0 0 relaySource ++ d)).init
      stragglingDownload = some _ := rfl
  have hcarry : ∀ d, Carries (.socks5 relaySource) d (wireHeader 0 0 relaySource ++ d) :=
    fun d => ⟨0, 0, relaySource, trivial, rfl⟩
  exact ⟨_, _, hrun, rfl, rfl, rfl, download_grace Float quickOptions _ rfl _ _ _ _ hcarry 1000000
    1000000 1000000 (by decide) stragglingDownload _ hrun (by decide +kernel) _ rfl rfl
    (by decide +kernel) 0 0⟩

end ProxyPen
