import ProxyPen.Lib.Network
import ProxyPen.Theory.Loss
import ProxyPen.Theory.UdpPhase

/-!
# The Figures of a Run

A UDP test on the network it runs over, with every interleaving of the two
loops, losses, copies and reorderings. The figures the client prints are held
against what the network did in that run: its losses and copies are counted
on the run itself, so that nothing about deliveries is assumed.

Both data phases are machines whose steps move the traffic of one direction,
hence the library's account applies to their runs. It says what was taken in
terms of what was sent, and the tallies of the receivers turn that into
figures. In a download the account is of the datagrams as the relay carries
them, which the client's transport undoes.

## Main definitions

* `Figures`: The printed figures against what the network did.
* `UpLink.traffic`, `DownLink.traffic`: The traffic of a data phase.

## Theorems

* `upload_account`, `download_account`: The account of a run.
* `figures_of_account`: The figures of an account.
* `upload_figures`: The figures of an upload, in any of its runs.
* `download_figures`: The figures of a download, in any of its runs.
-/

namespace ProxyPen

open Protocol Socks Traffic

/-- The figures of two reports, against the losses and copies of the network
    and the datagrams in flight. -/
structure Figures (losses copies inFlight : Nat) (sender receiver : TestReport) : Prop where
  packets_le : receiver.packets ≤ sender.packets
  exact : Client.lost sender receiver + copies = receiver.dup + losses + inFlight
  lost_le : Client.lost sender receiver ≤ losses + inFlight
  dup_le : receiver.dup ≤ copies

/-! ## From an account to the figures -/

section

variable (c : Sender) (s : SendState) (h : SendInv c s)

include h

theorem filterMap_sent : s.sent.filterMap seqOf = List.range s.seq := by
  have hmap := congrArg (List.filterMap id) h.numbered
  rw [List.filterMap_map, List.filterMap_map, Function.id_comp] at hmap
  exact hmap.trans List.filterMap_some

/-- Every sent datagram carries a number. -/
theorem length_filterMap_seqOf (ds : List Bytes) (hds : ∀ d ∈ ds, d ∈ s.sent) :
    (ds.filterMap seqOf).length = ds.length := by
  rw [← map_seq_callOf, List.length_map]
  exact calls_length c s h ds hds

/-- What a receiver reports that has tallied the taken datagrams of an
    account. -/
theorem figures_of_account {t : Traffic Bytes} {lost copied : List Bytes} (hsent : t.sent = s.sent)
    (hacc : Account t lost copied) (dur : Nat) (receiver : TestReport)
    (hcount : receiver.counters = (tally t.taken).counters) :
    Accounts s.sent t.taken (s.report dur) receiver ∧
      Figures lost.length copied.length t.flight.length (s.report dur) receiver := by
  have htaken : ∀ d ∈ t.taken, d ∈ s.sent := hsent ▸ hacc.taken_sent
  have hflight : ∀ d ∈ t.flight, d ∈ s.sent := hsent ▸ hacc.flight_sent
  have hlost : ∀ d ∈ lost, d ∈ s.sent :=
    hsent ▸ fun d hd => hacc.mem_sent (List.mem_append_right _ hd)
  have hcopied : ∀ d ∈ copied, d ∈ s.sent := hsent ▸ hacc.genuine
  have haccounts := accounts_of_tally c s h t.taken htaken dur receiver hcount
  -- The same account of the sequence numbers, which are pairwise different.
  have hseqs := hacc.filterMap seqOf
  have hnodup : (t.sent.filterMap seqOf).Nodup := by
    rw [hsent, filterMap_sent c s h]
    exact List.nodup_range
  have hexact := hseqs.missing_add_copied hnodup
  have hmissing := hseqs.missing_le
  have hrepeated := hseqs.repeated_le hnodup
  rw [length_filterMap_seqOf c s h _ hcopied, length_filterMap_seqOf c s h _ hlost,
    length_filterMap_seqOf c s h _ hflight] at hexact
  rw [length_filterMap_seqOf c s h _ hlost, length_filterMap_seqOf c s h _ hflight] at hmissing
  rw [length_filterMap_seqOf c s h _ hcopied] at hrepeated
  -- What is missing is what the client prints as lost, what is repeated what it prints as `dup`.
  have hloss : (Traffic.missing ⟨t.sent.filterMap seqOf, t.flight.filterMap seqOf,
      t.taken.filterMap seqOf⟩).card = Client.lost (s.report dur) receiver := by
    have hrange : (List.range s.seq).toFinset = Finset.range s.seq := by
      ext n
      rw [List.mem_toFinset, List.mem_range, Finset.mem_range]
    rw [haccounts.lost, Traffic.missing, hsent, filterMap_sent c s h, hrange]
    rfl
  have hdup : Traffic.repeated ⟨t.sent.filterMap seqOf, t.flight.filterMap seqOf,
      t.taken.filterMap seqOf⟩ = receiver.dup := by
    rw [haccounts.dup, Traffic.repeated, length_filterMap_seqOf c s h _ htaken]
    rfl
  rw [hloss, hdup] at hexact
  rw [hloss] at hmissing
  rw [hdup] at hrepeated
  refine ⟨haccounts, ?_, hexact, hmissing, hrepeated⟩
  have hsum := haccounts.exact_loss
  omega

end

/-! ## Sending -/

/-- Before the hello nothing has been sent. -/
def SendState.Unopened (s : SendState) : Prop := s.pc = .start ∨ s.pc = .hello → s.sent = []

theorem unopened_step (c : Sender) (s : SendState) (e : SendEvent) (s' : SendState)
    (hstep : c.step s e = some s') (h : s.Unopened) : s'.Unopened := by
  intro hpc
  cases sendMove_of_step c s e s' hstep with
  | start t hs hnow hmax => exact h (Or.inl hs)
  | send due hs hsize =>
      simp only [Sender.guard] at hpc
      split at hpc <;> simp at hpc
  | top t hs hnow hmax => simp only at hpc; split at hpc <;> simp at hpc
  | due t hs hnow hmax =>
      simp only [Sender.guard] at hpc
      split at hpc <;> simp at hpc
  | check t due hs hnow hmax => simp only at hpc; split at hpc <;> simp at hpc
  | helloRefused hs => simp only at hpc; split at hpc <;> simp at hpc
  | _ => simp at hpc

/-- A step adds to the sent datagrams what it puts on the network. -/
theorem sent_of_step (c : Sender) (s : SendState) (e : SendEvent) (s' : SendState)
    (hstep : c.step s e = some s') (h : s.Unopened) : s'.sent = s.sent ++ Sender.emits s e := by
  cases sendMove_of_step c s e s' hstep with
  | hello hpc hsize =>
      -- The hello is the first, so writing it down and appending it are the same.
      simp only [Sender.emits, hpc, h (Or.inr hpc), List.nil_append]
  | send due hpc hsize => simp only [Sender.emits, hpc]
  | helloRefused hpc => simp only [Sender.emits, hpc, List.append_nil]
  | sendRefused due hpc => simp only [Sender.emits, hpc, List.append_nil]
  | start t hpc hnow hmax => simp only [Sender.emits, hpc, List.append_nil]
  | pacer t hpc hnow hmax => simp only [Sender.emits, hpc, List.append_nil]
  | top t hpc hnow hmax => simp only [Sender.emits, hpc, List.append_nil]
  | due t hpc hnow hmax => simp only [Sender.emits, hpc, List.append_nil]
  | check t due hpc hnow hmax => simp only [Sender.emits, hpc, List.append_nil]
  | stamp t due hpc hnow hmax => simp only [Sender.emits, hpc, List.append_nil]
  | wake t hpc hnow hmax hawake => simp only [Sender.emits, hpc, List.append_nil]

/-! ## Upload -/

/-- What an event of an upload is on the network's part. -/
def UpLinkEvent.fate : UpLinkEvent → Fate
  | .lose _ => .lost
  | .duplicate _ => .copied
  | _ => .kept

section Up

variable {F : Type} [JitterFilter F] (c : Sender) (r : UpReceiver)

/-- The traffic of an upload. -/
def UpLink.traffic (b : UpLink F) : Traffic Bytes :=
  { sent := b.client.sent, flight := b.net, taken := b.server.received.map Prod.snd }

/-- What an upload keeps: the invariants of both loops, and one source. -/
structure UpLink.Sound (b : UpLink F) : Prop where
  client : SendInv c b.client
  unopened : b.client.Unopened
  opening : OpeningInv c b.client
  server : UpInv r b.server

theorem sound_upLink_step (b : UpLink F) (e : UpLinkEvent) (b' : UpLink F)
    (hstep : UpLink.step c r b e = some b') (h : b.Sound c r) : b'.Sound c r := by
  cases upLinkMove_of_step c r b e b' hstep with
  | client e s hs =>
      exact ⟨sendInv_step c _ _ _ hs h.client, unopened_step c _ _ _ hs h.unopened,
        openingInv_step c _ _ _ hs h.opening, h.server⟩
  | server e s hs => exact ⟨h.client, h.unopened, h.opening, upInv_step r _ _ _ hs h.server⟩
  | deliver i d s hs => exact ⟨h.client, h.unopened, h.opening, upInv_step r _ _ _ hs h.server⟩
  | lose i hi => exact ⟨h.client, h.unopened, h.opening, h.server⟩
  | duplicate i d => exact ⟨h.client, h.unopened, h.opening, h.server⟩

/-- The server takes a datagram at a datagram event and at no other. -/
theorem received_of_upStep (s : UpState Unit F) (e : UpEvent Unit) (s' : UpState Unit F)
    (hstep : r.step s e = some s') :
    s'.received = s.received ++
      match e with
      | .datagram src d => [(src, d)]
      | _ => [] := by
  cases e with
  | datagram src d =>
      rw [UpReceiver.step, UpReceiver.onDatagram] at hstep
      split at hstep <;> cases hstep <;> rfl
  | reading t =>
      rw [UpReceiver.step, Option.ite_none_right_eq_some] at hstep
      rcases hstep with ⟨-, hstep⟩
      unfold UpReceiver.onReading at hstep
      split at hstep <;> cases hstep <;> exact (List.append_nil _).symm
  | expired t =>
      rw [UpReceiver.step, Option.ite_none_right_eq_some] at hstep
      cases hstep.2
      exact (List.append_nil _).symm
  | error =>
      rw [UpReceiver.step, Option.ite_none_right_eq_some] at hstep
      cases hstep.2
      exact (List.append_nil _).symm

/-- Every step of an upload is a move of its traffic. -/
theorem upLink_traffic_move (b : UpLink F) (e : UpLinkEvent) (b' : UpLink F)
    (hstep : UpLink.step c r b e = some b') (h : b.Sound c r) :
    Move b.traffic e.fate b'.traffic := by
  cases e with
  | client e =>
      rw [UpLink.step] at hstep
      split at hstep
      · rename_i s hs
        cases hstep
        have hsent := sent_of_step c _ _ _ hs h.unopened
        simp only [UpLink.traffic, hsent]
        exact Move.send (t := b.traffic) (Sender.emits b.client e)
      · cases hstep
  | server e =>
      rw [UpLink.step] at hstep
      split at hstep
      · cases hstep
      · rename_i he
        split at hstep
        · rename_i s hs
          cases hstep
          -- Its own events bring the server no datagram.
          have hrec := received_of_upStep r _ _ _ hs
          have hsame : s.received = b.server.received := by
            cases e with
            | datagram src d => exact absurd rfl he
            | _ => exact hrec.trans (List.append_nil _)
          simp only [UpLink.traffic, hsame]
          exact Move.quiet
        · cases hstep
  | deliver i =>
      rw [UpLink.step] at hstep
      split at hstep
      · rename_i d hi
        split at hstep
        · rename_i s hs
          cases hstep
          have hrec := received_of_upStep r _ _ _ hs
          simp only [UpLink.traffic, hrec, List.map_append, List.map_cons, List.map_nil]
          exact Move.deliver (t := b.traffic) i d hi
        · cases hstep
      · cases hstep
  | lose i =>
      rw [UpLink.step, Option.ite_none_right_eq_some] at hstep
      rcases hstep with ⟨hi, hstep⟩
      cases hstep
      exact Move.lose (t := b.traffic) i hi
  | duplicate i =>
      rw [UpLink.step] at hstep
      split at hstep
      · rename_i d hi
        cases hstep
        exact Move.duplicate (t := b.traffic) i d hi
      · cases hstep

/-- An upload before its first step. -/
def UpLink.init : UpLink F := { client := c.init, server := UpReceiver.init, net := [] }

theorem sound_upLink_init : (UpLink.init c : UpLink F).Sound c r :=
  ⟨sendInv_init c, fun _ => rfl, openingInv_init c, upInv_init r⟩

/-- The account of a run of an upload. -/
theorem upload_account (es : List UpLinkEvent) (b : UpLink F)
    (hrun : Machine.runFrom (UpLink.step c r) (UpLink.init c) es = some b) :
    ∃ lost copied, Account b.traffic lost copied ∧
      lost.length = es.countP (fun e => e.fate = .lost) ∧
      copied.length = es.countP (fun e => e.fate = .copied) :=
  account_of_run (UpLink.Sound c r) UpLink.traffic UpLinkEvent.fate (sound_upLink_step c r)
    (upLink_traffic_move c r) _ (sound_upLink_init c r) rfl es b hrun

end Up

/-- The figures of an upload with its account, at a moment at which the server
    holds nothing back. -/
theorem figures_of_upLink {F : Type} [JitterFilter F] (opts : BenchOptions) (plan : Plan)
    (hkind : plan.kind = kindUdpUp) (sock : TransportUdpSocket) (udpMax : UdpMax) (b : UpLink F)
    (hsound : b.Sound (Client.runUdpUp sock udpMax opts.duration opts.udpSize plan.bandwidthBps)
      (Server.runUdpUp (opts.request plan)))
    {lost copied : List Bytes} (hacc : Account b.traffic lost copied)
    (hheld : b.server.pc.pending = []) (dur dur' : Nat) :
    Accounts b.client.sent (b.server.received.map Prod.snd) (b.client.report dur)
        (b.server.report dur') ∧
      Figures lost.length copied.length b.net.length (b.client.report dur)
        (b.server.report dur') := by
  -- The server hears every datagram it takes: one source, and room for all of them.
  have hheard : (Server.runUdpUp (opts.request plan)).heard b.server.received
      = b.server.received.map Prod.snd := by
    have hone : b.server.received = (b.server.received.map Prod.snd).map (fun d => ((), d)) := by
      rw [List.map_map]
      exact (List.map_id' _).symm
    rw [hone, heard_copies _ () _ (fun d hd => ?_), List.map_map]
    · exact (List.map_id' _).symm
    · have hd' : d ∈ b.client.sent := hacc.taken_sent d hd
      have hsized := size_le_of_takes (hsound.opening.taken (List.ne_nil_of_mem hd'))
      have hmax := udpMax.bytes_le
      have hlen := hsound.client.lengths d hd'
      have hannounced := request_payloadSize opts plan (Or.inl hkind)
      simp only [Client.runUdpUp] at hsized hlen
      simp only [Server.runUdpUp]
      omega
  rcases hsound.server.tallied with ⟨front, hfront, hagree⟩
  rw [hheld, List.append_nil, hheard] at hfront
  have hcount : (b.server.report dur').counters = (tally b.traffic.taken).counters := by
    rw [UpState.report, counters_intoReport, hagree.counters, ← hfront]
    rfl
  exact figures_of_account _ b.client hsound.client rfl hacc dur _ hcount

/-- The figures of an upload are what the network did to it, in any of its
    runs and at any moment at which the server holds nothing back. -/
theorem upload_figures (F : Type) [JitterFilter F] (opts : BenchOptions) (plan : Plan)
    (hkind : plan.kind = kindUdpUp) (sock : TransportUdpSocket) (udpMax : UdpMax)
    (es : List UpLinkEvent) (b : UpLink F)
    (hrun : Machine.runFrom (udpUp F opts plan sock udpMax).step
      (udpUp F opts plan sock udpMax).init es = some b)
    (hheld : b.server.pc.pending = []) (dur dur' : Nat) :
    Accounts b.client.sent (b.server.received.map Prod.snd) (b.client.report dur)
        (b.server.report dur') ∧
      Figures (es.countP (fun e => e.fate = .lost)) (es.countP (fun e => e.fate = .copied))
        b.net.length (b.client.report dur) (b.server.report dur') := by
  have hsound := Machine.run_invariant _ (sound_upLink_step _ _) es _ _ hrun
    (sound_upLink_init (F := F) _ _)
  rcases upload_account _ _ es b hrun with ⟨lost, copied, hacc, hlost, hcopied⟩
  rw [← hlost, ← hcopied]
  exact figures_of_upLink opts plan hkind sock udpMax b hsound hacc hheld dur dur'

/-- Two packets of 16 bytes in a millisecond. -/
def quickOptions : BenchOptions := ⟨.udp, .both, 1000000, [128000000000], 16, 16⟩

/-- A network that copies the first datagram of an upload and loses the
    second. -/
def lossyUpload : List UpLinkEvent :=
  [.client (.reading 0), .client .accepted, .client (.reading 0), .duplicate 0, .deliver 0,
    .server (.reading 0), .server (.reading 0), .client (.reading 0), .client (.reading 2),
    .client (.reading 2), .client (.reading 3), .client .accepted, .client (.reading 4), .lose 1,
    .deliver 0, .server (.reading 1), .client (.reading 1000000), .server (.expired clockMax)]

theorem upload_figures_lossy :
    ∃ b : UpLink Float,
      Machine.runFrom (udpUp Float quickOptions ⟨kindUdpUp, 128000000000, ""⟩ .direct
        ipv4Max).step
        (udpUp Float quickOptions ⟨kindUdpUp, 128000000000, ""⟩ .direct ipv4Max).init lossyUpload = some b ∧
      Client.lost (b.client.report 0) (b.server.report 0) = 1 ∧ (b.server.report 0).dup = 1 ∧
      Figures 1 1 0 (b.client.report 0) (b.server.report 0) := by
  have hrun : Machine.runFrom (udpUp Float quickOptions ⟨kindUdpUp, 128000000000, ""⟩ .direct
        ipv4Max).step
      (udpUp Float quickOptions ⟨kindUdpUp, 128000000000, ""⟩ .direct ipv4Max).init lossyUpload = some _ := rfl
  exact ⟨_, hrun, rfl, rfl, (upload_figures Float _ _ rfl _ _ lossyUpload _ hrun rfl 0 0).2⟩

/-! ## Download -/

/-- What an event of a download is on the network's part, on the way to the
    client. -/
def DownLinkEvent.fate : DownLinkEvent → Fate
  | .loseDown _ => .lost
  | .duplicateDown _ => .copied
  | _ => .kept

/-- What the server of a download has sent. -/
def ServeState.sent : ServeState → List Bytes
  | .sending s => s.sent
  | _ => []

section Down

variable {F : Type} [JitterFilter F] (c : DownReceiver) (r : Sender) (carry : Bytes → Bytes)

/-- The traffic of a download on its way to the client, as its transport
    hands it over. -/
def DownLink.traffic (b : DownLink F) : Traffic Bytes :=
  { sent := b.server.sent, flight := b.down, taken := c.payloads b.client.received }

/-- What a download keeps: the invariants of both loops, and the length of the
    datagrams. -/
structure DownLink.Sound (b : DownLink F) : Prop where
  client : DownInv c b.client
  server : ∀ s, b.server = .sending s → SendInv r s ∧ s.Unopened
  lengths : ∀ d ∈ b.down, d.length = r.size

theorem serve_step_sound (v : ServeState) (e : ServeEvent) (v' : ServeState)
    (hstep : serveStep r v e = some v') (hv : ∀ s, v = .sending s → SendInv r s ∧ s.Unopened) :
    (∀ s, v' = .sending s → SendInv r s ∧ s.Unopened) ∧ v'.sent = v.sent ++ v.emits e := by
  cases v with
  | hello =>
      cases e with
      | datagram d =>
          cases hstep
          refine ⟨?_, rfl⟩
          intro s hs
          cases hs
          exact ⟨sendInv_init r, fun _ => rfl⟩
      | error =>
          cases hstep
          refine ⟨?_, rfl⟩
          intro s hs
          cases hs
      | send e => cases hstep
  | sending s =>
      cases e with
      | datagram d => cases hstep
      | error => cases hstep
      | send e =>
          simp only [serveStep] at hstep
          split at hstep
          · rename_i s' hs'
            cases hstep
            rcases hv s rfl with ⟨hinv, hopen⟩
            refine ⟨?_, sent_of_step r s e s' hs' hopen⟩
            intro u hu
            cases hu
            exact ⟨sendInv_step r s e s' hs' hinv, unopened_step r s e s' hs' hopen⟩
          · cases hstep
  | failed => cases e <;> cases hstep

/-- The client takes a datagram at a datagram event and at no other. -/
theorem received_of_downStep (s : DownState F) (e : DownEvent) (s' : DownState F)
    (hstep : c.step s e = some s') :
    s'.received = s.received ++
      match e with
      | .datagram d => [d]
      | _ => [] := by
  cases e with
  | reading t =>
      rw [DownReceiver.step, Option.ite_none_right_eq_some] at hstep
      rcases hstep with ⟨-, hstep⟩
      unfold DownReceiver.onReading at hstep
      repeat' split at hstep
      all_goals cases hstep
      all_goals exact (List.append_nil _).symm
  | datagram d =>
      rw [DownReceiver.step, Option.ite_none_right_eq_some] at hstep
      cases hstep.2
      rfl
  | _ =>
      rw [DownReceiver.step, Option.ite_none_right_eq_some] at hstep
      cases hstep.2
      exact (List.append_nil _).symm

theorem sound_downLink_step (b : DownLink F) (e : DownLinkEvent) (b' : DownLink F)
    (hstep : DownLink.step c r carry b e = some b') (h : b.Sound c r) : b'.Sound c r := by
  cases e with
  | client e =>
      rw [DownLink.step] at hstep
      split at hstep
      · cases hstep
      · split at hstep
        · rename_i s hs
          cases hstep
          exact ⟨downInv_step c _ _ _ hs h.client, h.server, h.lengths⟩
        · cases hstep
  | server e =>
      have hmove := downLinkMove_of_step c r carry b (.server e) b' hstep
      cases hmove with
      | server _ v hv =>
          rcases serve_step_sound r _ _ _ hv h.server with ⟨hserver, hsent⟩
          refine ⟨h.client, hserver, ?_⟩
          intro d hd
          rcases List.mem_append.mp hd with hd | hd
          · exact h.lengths d hd
          · -- What the server emits it has sent, at its own length.
            have hmem : d ∈ v.sent := hsent ▸ List.mem_append_right _ hd
            cases v with
            | sending s => exact (hserver s rfl).1.lengths d hmem
            | _ => exact absurd hmem List.not_mem_nil
  | deliverUp i =>
      cases downLinkMove_of_step c r carry b (.deliverUp i) b' hstep with
      | deliverUp _ d v hv => exact ⟨h.client, (serve_step_sound r _ _ _ hv h.server).1, h.lengths⟩
  | deliverDown i =>
      cases downLinkMove_of_step c r carry b (.deliverDown i) b' hstep with
      | deliverDown _ d s hs =>
          exact ⟨downInv_step c _ _ _ hs h.client, h.server,
            fun x hx => h.lengths x (List.mem_of_mem_eraseIdx hx)⟩
  | loseUp i =>
      cases downLinkMove_of_step c r carry b (.loseUp i) b' hstep with
      | loseUp _ hi => exact ⟨h.client, h.server, h.lengths⟩
  | loseDown i =>
      cases downLinkMove_of_step c r carry b (.loseDown i) b' hstep with
      | loseDown _ =>
          exact ⟨h.client, h.server, fun x hx => h.lengths x (List.mem_of_mem_eraseIdx hx)⟩
  | duplicateUp i =>
      cases downLinkMove_of_step c r carry b (.duplicateUp i) b' hstep with
      | duplicateUp _ d => exact ⟨h.client, h.server, h.lengths⟩
  | duplicateDown i =>
      rw [DownLink.step] at hstep
      split at hstep <;> cases hstep
      rename_i d hi
      refine ⟨h.client, h.server, ?_⟩
      intro x hx
      rcases List.mem_append.mp hx with hx | hx
      · exact h.lengths x hx
      · rw [List.mem_singleton.mp hx]
        exact h.lengths d (List.mem_of_getElem? hi)

/-- Every step of a download is a move of its traffic, over a relay whose
    headers the client's transport undoes. -/
theorem downLink_traffic_move (hcarry : ∀ d, Carries c.sock d (carry d)) (hsize : r.size ≤ c.size)
    (b : DownLink F) (e : DownLinkEvent) (b' : DownLink F)
    (hstep : DownLink.step c r carry b e = some b') (h : b.Sound c r) :
    Move (b.traffic c) e.fate (b'.traffic c) := by
  cases e with
  | client e =>
      rw [DownLink.step] at hstep
      split at hstep
      · cases hstep
      · rename_i he
        split at hstep
        · rename_i s hs
          cases hstep
          have hrec := received_of_downStep c _ _ _ hs
          have hsame : s.received = b.client.received := by
            cases e with
            | datagram d => exact absurd rfl he
            | _ => exact hrec.trans (List.append_nil _)
          simp only [DownLink.traffic, hsame]
          exact Move.quiet
        · cases hstep
  | server e =>
      cases downLinkMove_of_step c r carry b (.server e) b' hstep with
      | server _ v hv =>
          simp only [DownLink.traffic, (serve_step_sound r _ _ _ hv h.server).2]
          exact Move.send (t := b.traffic c) (b.server.emits e)
  | deliverUp i =>
      cases downLinkMove_of_step c r carry b (.deliverUp i) b' hstep with
      | deliverUp _ d v hv =>
          -- The hello makes the server start, with nothing sent.
          have hsent := (serve_step_sound r _ _ _ hv h.server).2
          have hnone : b.server.emits (.datagram d) = [] := by cases b.server <;> rfl
          rw [hnone, List.append_nil] at hsent
          simp only [DownLink.traffic, hsent]
          exact Move.quiet
  | deliverDown i =>
      rw [DownLink.step] at hstep
      split at hstep
      · rename_i d hi
        split at hstep
        · rename_i s hs
          cases hstep
          have hlen := h.lengths d (List.mem_of_getElem? hi)
          have hpayload := payload_carried c d (carry d) (by omega) (hcarry d)
          have hrec := received_of_downStep c _ _ _ hs
          simp only [DownLink.traffic, hrec, payloads_append, payloads_singleton, hpayload,
            Option.toList_some]
          exact Move.deliver (t := b.traffic c) i d hi
        · cases hstep
      · cases hstep
  | loseUp i =>
      cases downLinkMove_of_step c r carry b (.loseUp i) b' hstep with
      | loseUp _ hi => exact Move.quiet
  | loseDown i =>
      rw [DownLink.step, Option.ite_none_right_eq_some] at hstep
      rcases hstep with ⟨hi, hstep⟩
      cases hstep
      exact Move.lose (t := b.traffic c) i hi
  | duplicateUp i =>
      cases downLinkMove_of_step c r carry b (.duplicateUp i) b' hstep with
      | duplicateUp _ d => exact Move.quiet
  | duplicateDown i =>
      rw [DownLink.step] at hstep
      split at hstep
      · rename_i d hi
        cases hstep
        exact Move.duplicate (t := b.traffic c) i d hi
      · cases hstep

/-- A download before its first step. -/
def DownLink.init : DownLink F :=
  { client := DownReceiver.init, server := .hello, up := [], down := [] }

theorem sound_downLink_init : (DownLink.init : DownLink F).Sound c r where
  client := downInv_init c
  server _ hs := by simp only [DownLink.init, reduceCtorEq] at hs
  lengths _ hd := absurd hd List.not_mem_nil

/-- The account of a run of a download. -/
theorem download_account (hcarry : ∀ d, Carries c.sock d (carry d)) (hsize : r.size ≤ c.size)
    (es : List DownLinkEvent) (b : DownLink F)
    (hrun : Machine.runFrom (DownLink.step c r carry) DownLink.init es = some b) :
    ∃ lost copied, Account (b.traffic c) lost copied ∧
      lost.length = es.countP (fun e => e.fate = .lost) ∧
      copied.length = es.countP (fun e => e.fate = .copied) :=
  account_of_run (DownLink.Sound c r) (DownLink.traffic c) DownLinkEvent.fate
    (sound_downLink_step c r carry) (downLink_traffic_move c r carry hcarry hsize) _
    (sound_downLink_init c r) rfl es b hrun

end Down

/-- The server of a download sends no more than the client's buffer holds. -/
theorem downSize_le (opts : BenchOptions) (plan : Plan) (hkind : plan.kind = kindUdpDown)
    (sock : TransportUdpSocket) (udpMax serverMax : UdpMax) :
    (Server.runUdpDown serverMax (opts.request plan)).size
      ≤ (Client.runUdpDown sock udpMax opts.duration opts.udpSize).size := by
  have hannounced := request_payloadSize opts plan (Or.inr hkind)
  simp only [Server.runUdpDown, Client.runUdpDown]
  omega

/-- The figures of a download with its account, at a moment at which the server
    is sending and the client holds nothing back. -/
theorem figures_of_downLink {F : Type} [JitterFilter F] (c : DownReceiver) (r : Sender)
    (b : DownLink F) (hsound : b.Sound c r) (s : SendState) (hs : b.server = .sending s)
    {lost copied : List Bytes} (hacc : Account (b.traffic c) lost copied)
    (hheld : b.client.pc.pending = []) (dur dur' : Nat) :
    Accounts s.sent (c.payloads b.client.received) (b.server.report dur) (b.client.report dur') ∧
      Figures lost.length copied.length b.down.length (b.server.report dur)
        (b.client.report dur') := by
  rcases hsound.client.tallied with ⟨front, hfront, hagree⟩
  rw [hheld, List.append_nil] at hfront
  have hcount : (b.client.report dur').counters = (tally (b.traffic c).taken).counters := by
    rw [DownState.report, counters_intoReport, hagree.counters, ← hfront]
    rfl
  have hsent : (b.traffic c).sent = s.sent := by
    rw [DownLink.traffic, hs]
    rfl
  have hfigures := figures_of_account _ s (hsound.server s hs).1 hsent hacc dur _ hcount
  rw [hs]
  exact hfigures

/-- The figures of a download are what the network did to it on the way to
    the client, directly or through a relay, at any moment at which the server
    is sending and the client holds nothing back. -/
theorem download_figures (F : Type) [JitterFilter F] (opts : BenchOptions) (plan : Plan)
    (hkind : plan.kind = kindUdpDown) (sock : TransportUdpSocket) (udpMax serverMax : UdpMax)
    (carry : Bytes → Bytes) (hcarry : ∀ d, Carries sock d (carry d)) (es : List DownLinkEvent) (b : DownLink F)
    (hrun : Machine.runFrom (udpDown F opts plan sock udpMax serverMax carry).step
      (udpDown F opts plan sock udpMax serverMax carry).init es = some b)
    (s : SendState) (hs : b.server = .sending s) (hheld : b.client.pc.pending = [])
    (dur dur' : Nat) :
    Accounts s.sent
        ((Client.runUdpDown sock udpMax opts.duration opts.udpSize).payloads b.client.received)
        (b.server.report dur) (b.client.report dur') ∧
      Figures (es.countP (fun e => e.fate = .lost)) (es.countP (fun e => e.fate = .copied))
        b.down.length (b.server.report dur) (b.client.report dur') := by
  have hsound := Machine.run_invariant _ (sound_downLink_step _ _ carry) es _ _ hrun
    (sound_downLink_init (F := F) _ _)
  rcases download_account _ _ carry hcarry (downSize_le opts plan hkind sock udpMax serverMax) es b
    hrun with
    ⟨lost, copied, hacc, hlost, hcopied⟩
  rw [← hlost, ← hcopied]
  exact figures_of_downLink _ _ b hsound s hs hacc hheld dur dur'

/-- The address a relay on this host names in its headers. -/
def relaySource : SocksAddr := ⟨.v4 ⟨[127, 0, 0, 1], rfl⟩, 5555⟩

/-- A network that copies the only datagram of a download. -/
def copiedDownload : List DownLinkEvent :=
  [.client .accepted, .client (.reading 0), .deliverUp 0, .server (.send (.reading 0)),
    .server (.send (.reading 0)), .server (.send (.reading 0)), .server (.send (.reading 1)),
    .server (.send (.reading 2)), .server (.send (.reading 3)), .server (.send .accepted),
    .duplicateDown 0, .deliverDown 1, .client (.reading 1), .client (.reading 1), .deliverDown 0,
    .client (.reading 2)]

theorem download_figures_copied :
    ∃ b : DownLink Float,
      Machine.runFrom (udpDown Float quickOptions ⟨kindUdpDown, 128000000000, ""⟩
          (.socks5 relaySource) ipv4Max ipv4Max (fun d => wireHeader 0 0 relaySource ++ d)).step
        (udpDown Float quickOptions ⟨kindUdpDown, 128000000000, ""⟩
          (.socks5 relaySource) ipv4Max ipv4Max (fun d => wireHeader 0 0 relaySource ++ d)).init copiedDownload
        = some b ∧
      (b.client.report 0).dup = 1 ∧ Figures 0 1 0 (b.server.report 0) (b.client.report 0) := by
  have hrun : Machine.runFrom (udpDown Float quickOptions ⟨kindUdpDown, 128000000000, ""⟩
      (.socks5 relaySource) ipv4Max ipv4Max (fun d => wireHeader 0 0 relaySource ++ d)).step
    (udpDown Float quickOptions ⟨kindUdpDown, 128000000000, ""⟩
      (.socks5 relaySource) ipv4Max ipv4Max (fun d => wireHeader 0 0 relaySource ++ d)).init copiedDownload
      = some _ := rfl
  have hcarry : ∀ d, Carries (.socks5 relaySource) d (wireHeader 0 0 relaySource ++ d) :=
    fun d => ⟨0, 0, relaySource, trivial, rfl⟩
  exact ⟨_, hrun, rfl, (download_figures Float _ _ rfl _ _ _ _ hcarry copiedDownload _ hrun _ rfl rfl
    0 0).2⟩

end ProxyPen
