import Mathlib.Algebra.BigOperators.Group.List.Basic
import Mathlib.Data.Finset.Card
import ProxyPen.Core.Plan
import ProxyPen.Theory.DownLoop
import ProxyPen.Theory.Pacing
import ProxyPen.Theory.UpLoop

/-!
# Loss Accounting

The two reports of a UDP test against each other. The network may lose,
duplicate and reorder datagrams in any way, but delivers only intact copies of
what was sent. Then the packets missing from the receiver's report are
precisely the sequence numbers that never arrived, so the difference the
client prints is the loss.

The argument meets in the middle. `SendInv` numbers the sent datagrams and
fixes their length; the receiver's counters are a tally of payloads; and
`accounts_of_tally` compares a tally of copies with the list they are copies
of. What is left is that each receiver tallies the copies themselves: its
buffer is long enough, although the two sides compute it from sizes of
different width.

## Main definitions

* `deliveredSeqs`: The sequence numbers among delivered datagrams.
* `Accounts`: The two reports account for the loss.
* `Carries`: A datagram as it arrives through a transport.
* `OpeningInv`: The client's send loop opens with its hello.

## Theorems

* `accounts_of_tally`: A tally of copies accounts for the loss.
* `heard_copies`, `payloads_copies`: The receivers tally the copies.
* `loss_accounting`: Both UDP tests account for their loss.
-/

namespace ProxyPen

open Protocol Socks History

/-- The sequence numbers among delivered datagrams. -/
def deliveredSeqs (ds : List Bytes) : Finset Nat := (ds.filterMap seqOf).toFinset

/-- The two reports account for the loss: `sent` are the sender's datagrams,
    and `ds` the delivered ones in the order they were taken. -/
structure Accounts (sent ds : List Bytes) (sender receiver : TestReport) : Prop where
  numbered : sent.map seqOf = (List.range sender.packets).map some
  lost : Client.lost sender receiver
    = (Finset.range sender.packets \ deliveredSeqs ds).card
  exact_loss : receiver.packets + Client.lost sender receiver = sender.packets
  dup : receiver.dup = ds.length - (deliveredSeqs ds).card
  bytes_le : receiver.bytes ≤ sender.bytes
  bytes_eq_iff : receiver.bytes = sender.bytes ↔
    ∀ seq < sender.packets, seq ∈ deliveredSeqs ds
  maxSeq_le : receiver.maxSeq ≤ sender.maxSeq

/-! ## Tallies of copies -/

/-- The `record` call a payload leads to. -/
def callOf (p : Bytes) : Option Call :=
  (decodeUdpHeader p).map fun h => ⟨h.1, h.2, 0, p.length⟩

theorem tally_eq_ofCalls (ps : List Bytes) : tally ps = UdpStats.ofCalls (ps.filterMap callOf) := by
  induction ps using List.reverseRecOn with
  | nil => rfl
  | append_singleton ps p ih =>
      rw [tally_snoc, ih, List.filterMap_append, processPacket]
      -- A datagram without a header is skipped by the loop and by `callOf`.
      cases hp : decodeUdpHeader p with
      | none =>
          have hcall : callOf p = none := by rw [callOf, hp, Option.map_none]
          simp only [List.filterMap_cons, hcall, List.filterMap_nil, List.append_nil]
      | some h =>
          have hcall : callOf p = some ⟨h.1, h.2, 0, p.length⟩ := by
            rw [callOf, hp, Option.map_some]
          simp only [List.filterMap_cons, hcall, List.filterMap_nil, UdpStats.ofCalls,
            List.foldl_append, List.foldl_cons, List.foldl_nil]

theorem map_seq_callOf (ps : List Bytes) :
    (ps.filterMap callOf).map Call.seq = ps.filterMap seqOf := by
  rw [List.map_filterMap]
  congr 1
  funext p
  rw [callOf, seqOf, Option.map_map]
  rfl

/-- A copy of a sent datagram leads to a call with a sent number and the
    sender's length. -/
theorem callOf_sent (c : Sender) (s : SendState) (h : SendInv c s) (d : Bytes) (hd : d ∈ s.sent) :
    ∃ call, callOf d = some call ∧ call.seq < s.seq ∧ call.payloadLen = c.size := by
  have hseq : seqOf d ∈ s.sent.map seqOf := List.mem_map_of_mem hd
  rw [h.numbered] at hseq
  -- The number it carries is one of those the sender used.
  rcases List.mem_map.mp hseq with ⟨n, hn, hnd⟩
  rcases Option.map_eq_some_iff.mp hnd.symm with ⟨hdr, hdec, rfl⟩
  refine ⟨⟨hdr.1, hdr.2, 0, d.length⟩, ?_, List.mem_range.mp hn, h.lengths d hd⟩
  rw [callOf, hdec, Option.map_some]

section Copies

variable (c : Sender) (s : SendState) (h : SendInv c s) (ds : List Bytes)
  (hds : ∀ d ∈ ds, d ∈ s.sent)

include h hds

theorem calls_of_copies (call : Call) (hcall : call ∈ ds.filterMap callOf) :
    call.seq < s.seq ∧ call.payloadLen = c.size := by
  rcases List.mem_filterMap.mp hcall with ⟨d, hd, hdc⟩
  rcases callOf_sent c s h d (hds d hd) with ⟨call', hcall', hprops⟩
  rw [hdc] at hcall'
  cases hcall'
  exact hprops

theorem calls_length : (ds.filterMap callOf).length = ds.length := by
  rw [List.filterMap_length_eq_length]
  intro d hd
  rcases callOf_sent c s h d (hds d hd) with ⟨call, hcall, -⟩
  rw [hcall]
  rfl

theorem deliveredSeqs_subset : deliveredSeqs ds ⊆ Finset.range s.seq := by
  intro n hn
  rw [deliveredSeqs, List.mem_toFinset, ← map_seq_callOf] at hn
  rcases List.mem_map.mp hn with ⟨call, hcall, rfl⟩
  exact Finset.mem_range.mpr (calls_of_copies c s h ds hds call hcall).1

/-- First copies have the sender's length, so their bytes are counted by
    counting them. -/
theorem firsts_bytes : ((firsts Call.seq (ds.filterMap callOf)).map Call.payloadLen).sum
    = (deliveredSeqs ds).card * c.size := by
  have hfirsts : (firsts Call.seq (ds.filterMap callOf)).length = (deliveredSeqs ds).card := by
    rw [firsts_length, map_seq_callOf, deliveredSeqs]
  -- Equal summands: the sum is their number times the size.
  rw [← hfirsts, List.sum_eq_card_nsmul _ c.size, List.length_map, nsmul_eq_mul, Nat.cast_id]
  intro n hn
  rcases List.mem_map.mp hn with ⟨call, hcall, rfl⟩
  exact (calls_of_copies c s h ds hds call ((keep_sublist _ _).subset hcall)).2

/-- A tally of copies of sent datagrams accounts for the loss. -/
theorem accounts_of_tally (dur : Nat) (receiver : TestReport)
    (hcount : receiver.counters = (tally ds).counters) :
    Accounts s.sent ds (s.report dur) receiver := by
  rw [tally_eq_ofCalls] at hcount
  simp only [TestReport.counters, UdpStats.counters, Counters.mk.injEq] at hcount
  rcases hcount with ⟨hpackets, hbytes, hdup, -, hmaxSeq⟩
  -- The accumulator means what the calls say, and every copy is a call.
  have ht : Tallies (ds.filterMap callOf) (UdpStats.ofCalls (ds.filterMap callOf) : UdpStats Unit) :=
    tallies_ofCalls _
  have hfirsts : (firsts Call.seq (ds.filterMap callOf)).length = (deliveredSeqs ds).card := by
    rw [firsts_length, map_seq_callOf, deliveredSeqs]
  have hsub := deliveredSeqs_subset c s h ds hds
  have hcard : (deliveredSeqs ds).card ≤ s.seq := by
    have hle := Finset.card_le_card hsub
    rwa [Finset.card_range] at hle
  have hsender : (s.report dur).packets = s.seq := rfl
  have hsenderBytes : (s.report dur).bytes = s.seq * c.size := h.bytes_eq
  have hpacketsEq : receiver.packets = (deliveredSeqs ds).card := by
    rw [hpackets, ht.packets, hfirsts]
  have hbytesEq : receiver.bytes = (deliveredSeqs ds).card * c.size := by
    rw [hbytes, ht.bytes, firsts_bytes c s h ds hds]
  refine ⟨h.numbered, ?_, ?_, ?_, ?_, ?_, ?_⟩
  · rw [Client.lost, hpacketsEq, hsender, Finset.card_sdiff_of_subset hsub, Finset.card_range]
  · rw [Client.lost, hpacketsEq, hsender]
    exact Nat.add_sub_cancel' hcard
  · have hsum := ht.dup
    rw [hfirsts, calls_length c s h ds hds] at hsum
    omega
  · rw [hbytesEq, hsenderBytes]
    exact Nat.mul_le_mul_right _ hcard
  · -- Bytes agree when the counts do, and a subset of equal count is everything.
    rw [hbytesEq, hsenderBytes, hsender, Nat.mul_left_inj (Nat.ne_of_gt c.size_pos)]
    constructor
    · intro heq seq hseq
      have hall := Finset.eq_of_subset_of_card_le hsub (by rw [Finset.card_range, heq])
      rw [hall]
      exact Finset.mem_range.mpr hseq
    · intro hall
      have hle := Finset.card_le_card
        (fun n hn => hall n (Finset.mem_range.mp hn) : Finset.range s.seq ⊆ deliveredSeqs ds)
      rw [Finset.card_range] at hle
      exact Nat.le_antisymm hcard hle
  -- The receiver's maximum is a delivered number, hence below the sender's count.
  · have hsenderMax : (s.report dur).maxSeq = s.seq - 1 := rfl
    rw [hmaxSeq, ht.maxSeq, hsenderMax]
    by_cases hnil : (firsts Call.seq (ds.filterMap callOf)).map Call.seq = []
    · rw [hnil]
      exact Nat.zero_le _
    · have hmem := foldl_max_mem _ hnil
      rw [mem_map_firsts, map_seq_callOf, ← List.mem_toFinset] at hmem
      have hlt := Finset.mem_range.mp (hsub hmem)
      omega

end Copies

/-! ## The opening of a send loop -/

/-- What a send loop has sent first: nothing that is not taken, and with a hello
    nothing before it. -/
structure OpeningInv (c : Sender) (s : SendState) : Prop where
  blank : s.pc = .start ∨ s.pc = .hello → s.buf = List.replicate c.size 0
  taken : s.sent ≠ [] → c.takes = some true
  helloFirst : c.sendsHello = true →
    s.pc = .start ∨ s.pc = .hello ∨ s.pc = .failed ∨ s.pc = .panicked ∨
      s.sent.head? = some (encodeUdpHeader (List.replicate c.size 0) 0 0)

theorem openingInv_init (c : Sender) : OpeningInv c c.init where
  blank _ := rfl
  taken h := absurd rfl h
  helloFirst _ := Or.inl rfl

/-- Past the hello, the hello is the first datagram. -/
theorem OpeningInv.head_eq {c : Sender} {s : SendState} (h : OpeningInv c s)
    (hc : c.sendsHello = true) (hpc : s.pc ≠ .start ∧ s.pc ≠ .hello ∧ s.pc ≠ .failed ∧ s.pc ≠ .panicked) :
    s.sent.head? = some (encodeUdpHeader (List.replicate c.size 0) 0 0) := by
  rcases h.helloFirst hc with hs | hs | hs | hs | hs
  · exact absurd hs hpc.1
  · exact absurd hs hpc.2.1
  · exact absurd hs hpc.2.2.1
  · exact absurd hs hpc.2.2.2
  · exact hs

/-- Past the hello nothing changes the first datagram. -/
theorem openingInv_later (c : Sender) (s s' : SendState) (h : OpeningInv c s)
    (hpc : s.pc ≠ .start ∧ s.pc ≠ .hello ∧ s.pc ≠ .failed ∧ s.pc ≠ .panicked)
    (hpc' : s'.pc ≠ .start ∧ s'.pc ≠ .hello) (hsent : s'.sent = s.sent) : OpeningInv c s' where
  blank hb := absurd hb (not_or.mpr hpc')
  taken := hsent ▸ h.taken
  helloFirst hc := Or.inr (Or.inr (Or.inr (Or.inr (hsent ▸ h.head_eq hc hpc))))

theorem openingInv_step (c : Sender) (s : SendState) (e : SendEvent) (s' : SendState)
    (hstep : c.step s e = some s') (h : OpeningInv c s) : OpeningInv c s' := by
  cases sendMove_of_step c s e s' hstep with
  | start t hpc hnow hmax =>
      refine ⟨fun _ => h.blank (Or.inl hpc), h.taken, fun hc => ?_⟩
      simp only [hc, if_true]
      exact Or.inr (Or.inl trivial)
  | pacer t hpc hnow hmax => exact openingInv_later c s _ h (by simp [hpc]) (by simp) rfl
  | top t hpc hnow hmax =>
      refine openingInv_later c s _ h (by simp [hpc]) ?_ rfl
      simp only
      split <;> simp
  | due t hpc hnow hmax =>
      refine openingInv_later c s _ h (by simp [hpc]) ?_ rfl
      simp only [Sender.guard]
      split <;> simp
  | check t due hpc hnow hmax =>
      refine openingInv_later c s _ h (by simp [hpc]) ?_ rfl
      simp only
      split <;> simp
  | stamp t due hpc hnow hmax => exact openingInv_later c s _ h (by simp [hpc]) (by simp) rfl
  | wake t hpc hnow hmax hawake => exact openingInv_later c s _ h (by simp [hpc]) (by simp) rfl
  | hello hpc htakes =>
      refine ⟨by simp, fun _ => htakes, fun _ => Or.inr (Or.inr (Or.inr (Or.inr ?_)))⟩
      simp only [h.blank (Or.inr hpc), List.head?_cons]
  | send due hpc htakes =>
      refine ⟨?_, fun _ => htakes, fun hc => ?_⟩
      · simp only [Sender.guard]
        split <;> simp
      · -- Appending leaves the head alone.
        have hhead := h.head_eq hc (by simp [hpc])
        simp only [List.head?_append, hhead, Option.some_or, or_true]
  | helloRefused hpc =>
      refine ⟨?_, h.taken, fun _ => Or.inr (Or.inr ?_)⟩ <;> simp only <;> split <;> simp
  | sendRefused due hpc => exact openingInv_later c s _ h (by simp [hpc]) (by simp) rfl

theorem openingInv_of_reachable (c : Sender) (s : SendState) (hs : c.Reachable s) :
    OpeningInv c s :=
  Machine.reachable_invariant _ (openingInv_step c) _ s hs (openingInv_init c)

/-! ## The receivers tally the copies -/

variable {A F : Type} [DecidableEq A] [JitterFilter F]

/-- The server hears every datagram of a single source that fits its
    buffer, unchanged. -/
theorem heard_copies (c : UpReceiver) (client : A) (ds : List Bytes)
    (hds : ∀ d ∈ ds, d.length ≤ c.bufLen) : c.heard (ds.map (fun d => (client, d))) = ds := by
  cases ds with
  | nil => rfl
  | cons d ds =>
      rw [UpReceiver.heard, List.map_cons, List.head?_cons, Option.map_some,
        List.filter_eq_self.mpr, ← List.map_cons (f := fun d => (client, d)), List.map_map]
      · exact (List.map_congr_left (fun x hx => List.take_of_length_le (hds x hx))).trans
          (List.map_id' _)
      · intro x hx
        rw [← List.map_cons (f := fun d => (client, d))] at hx
        rcases List.mem_map.mp hx with ⟨y, -, rfl⟩
        exact decide_eq_true rfl

/-- How a datagram arrives through a transport: bare, or behind a relay
    header naming any address. -/
def Carries : TransportUdpSocket → Bytes → Bytes → Prop
  | .direct, d, raw => raw = d
  | .socks5 _, d, raw => ∃ r0 r1 a, a.WellFormed ∧ raw = wireHeader r0 r1 a ++ d

/-- The client's transport returns the datagram that was carried. -/
theorem payload_carried (c : DownReceiver) (d raw : Bytes) (hlen : d.length ≤ c.size)
    (h : Carries c.sock d raw) : c.payload? raw = some d := by
  rw [DownReceiver.payload?]
  cases hsock : c.sock with
  | direct =>
      rw [hsock] at h
      have hraw : raw = d := h
      rw [hraw, TransportUdpSocket.recv, osRecv, List.take_of_length_le]
      exact Nat.le_trans hlen (Nat.le_add_right _ _)
  | socks5 target =>
      rw [hsock] at h
      rcases h with ⟨r0, r1, a, ha, rfl⟩
      have hheader := headerLen_le a ha
      have hbuf : c.bufLen = c.size + 64 := rfl
      -- 64 bytes of slack and 256 for the header leave room for every relay header.
      rw [recv_socks5 target r0 r1 a ha d c.bufLen (by omega), List.take_of_length_le]
      omega

theorem payloads_copies (c : DownReceiver) (ds raws : List Bytes)
    (hcarried : List.Forall₂ (Carries c.sock) ds raws) (hds : ∀ d ∈ ds, d.length ≤ c.size) :
    c.payloads raws = ds := by
  induction hcarried with
  | nil => rfl
  | @cons d raw ds raws hd _ ih =>
      have hlen := List.forall_mem_cons.mp hds
      rw [← List.singleton_append, payloads_append, payloads_singleton,
        payload_carried c d raw hlen.1 hd, ih hlen.2]
      rfl

/-- The client announces its datagram size modulo `2 ^ 32`. -/
theorem request_payloadSize (opts : BenchOptions) (plan : Plan)
    (hkind : plan.kind = kindUdpUp ∨ plan.kind = kindUdpDown) :
    (opts.request plan).payloadSize.toNat = opts.udpSize.toNat % 2 ^ 32 := by
  rw [BenchOptions.request, if_pos hkind, UInt64.toNat_toUInt32]

/-- Both UDP tests account for their loss, however the network loses,
    duplicates and reorders the datagrams. `ds` are the delivered ones in the
    order the receive loop took them; every one is a copy of a sent one. In an
    upload the hello is the first of the sent ones and counts like the others. -/
theorem loss_accounting (opts : BenchOptions) (plan : Plan) (sock : TransportUdpSocket)
    (udpMax serverMax : UdpMax) :
    (plan.kind = kindUdpUp →
      ∀ (s : SendState) (r : UpState A F) (client : A) (ds : List Bytes) (dur dur' : Nat),
        (Client.runUdpUp sock udpMax opts.duration opts.udpSize plan.bandwidthBps).Reachable s →
        s.pc = .done →
        (Server.runUdpUp (opts.request plan)).Reachable r → r.pc = .done →
        r.received = ds.map (fun d => (client, d)) → (∀ d ∈ ds, d ∈ s.sent) →
        Accounts s.sent ds (s.report dur) (r.report dur') ∧
          s.sent.head? = some
            (encodeUdpHeader (List.replicate (max opts.udpSize.toNat udpHeaderLen) 0) 0 0)) ∧
    (plan.kind = kindUdpDown →
      ∀ (s : SendState) (r : DownState F) (ds : List Bytes) (cause : StopCause) (dur dur' : Nat),
        (Server.runUdpDown serverMax (opts.request plan)).Reachable s → s.pc = .done →
        (Client.runUdpDown sock udpMax opts.duration opts.udpSize).Reachable r →
        r.pc = .stopped cause →
        List.Forall₂ (Carries sock) ds r.received → (∀ d ∈ ds, d ∈ s.sent) →
        Accounts s.sent ds (s.report dur) (r.report dur')) := by
  constructor
  · intro hkind s r client ds dur dur' hs hspc hr hrpc hrec hds
    have hsend := sendInv_of_reachable _ s hs
    have hopen := openingInv_of_reachable _ s hs
    have hreport := (upReports_iff _ _ _).mp ⟨r, dur', hr, hrpc, rfl, rfl⟩
    have hheard : (Server.runUdpUp (opts.request plan)).heard r.received = ds := by
      rw [hrec]
      refine heard_copies _ client ds (fun d hd => ?_)
      -- Something was sent, so the size is small enough to survive the cast to `u32`.
      have hsized := size_le_of_takes (hopen.taken (List.ne_nil_of_mem (hds d hd)))
      have hmax := udpMax.bytes_le
      have hlen := hsend.lengths d (hds d hd)
      have hannounced := request_payloadSize opts plan (Or.inl hkind)
      simp only [Client.runUdpUp] at hsized hlen
      simp only [Server.runUdpUp]
      omega
    rw [hheard] at hreport
    exact ⟨accounts_of_tally _ s hsend ds hds dur _ hreport.2,
      hopen.head_eq rfl (by simp [hspc])⟩
  · intro hkind s r ds cause dur dur' hs hspc hr hrpc hcarried hds
    have hsend := sendInv_of_reachable _ s hs
    rcases (downInv_of_reachable _ r hr).tallied with ⟨front, hfront, hagree⟩
    have hpayloads : (Client.runUdpDown sock udpMax opts.duration opts.udpSize).payloads
        r.received = ds := by
      refine payloads_copies _ ds r.received hcarried (fun d hd => ?_)
      have hlen := hsend.lengths d (hds d hd)
      have hannounced := request_payloadSize opts plan (Or.inr hkind)
      simp only [Server.runUdpDown] at hlen
      simp only [Client.runUdpDown]
      omega
    -- A stopped loop holds no datagram back, so all payloads are tallied.
    rw [hrpc, hpayloads] at hfront
    simp only [DownPc.pending, List.append_nil] at hfront
    rw [← hfront] at hagree
    exact accounts_of_tally _ s hsend ds hds dur _ hagree.counters

/-- An upload of two packets whose second is lost and whose first arrives
    twice, and a download of one packet that arrives. -/
theorem loss_accounting_two_tests :
    (∃ (s : SendState) (r : UpState Nat Float),
      Client.lost (s.report 0) (r.report 0) = 1 ∧ (r.report 0).dup = 1 ∧
        Accounts s.sent [encodeUdpHeader (List.replicate 16 0) 0 0,
          encodeUdpHeader (List.replicate 16 0) 0 0] (s.report 0) (r.report 0)) ∧
    ∃ (s : SendState) (r : DownState Float),
      Accounts s.sent [encodeUdpHeader (List.replicate 16 0) 0 3] (s.report 0) (r.report 0) := by
  constructor
  · have hs : (Client.runUdpUp .direct ipv4Max 1000000 16 128000000000).Reachable _ :=
      ⟨[.reading 0, .accepted, .reading 0, .reading 0, .reading 2, .reading 2, .reading 3,
        .accepted, .reading 4, .reading 1000000], rfl⟩
    have hr : (Server.runUdpUp ⟨kindUdpUp, 1, 16, 128000000000, 0⟩).Reachable
        (_ : UpState Nat Float) :=
      ⟨[.datagram 7 (encodeUdpHeader (List.replicate 16 0) 0 0), .reading 0, .reading 0,
        .datagram 7 (encodeUdpHeader (List.replicate 16 0) 0 0), .reading 1,
        .expired clockMax], rfl⟩
    have haccounts := ((loss_accounting ⟨.udp, .both, 1000000, [128000000000], 16, 16⟩
      ⟨kindUdpUp, 128000000000, ""⟩ .direct ipv4Max ipv4Max).1 rfl _ _ 7
      [encodeUdpHeader (List.replicate 16 0) 0 0, encodeUdpHeader (List.replicate 16 0) 0 0] 0 0
      hs rfl hr rfl rfl (by decide)).1
    exact ⟨_, _, rfl, rfl, haccounts⟩
  · have hs : (Server.runUdpDown ipv4Max ⟨kindUdpDown, 1, 16, 128000000000, 0⟩).Reachable _ :=
      ⟨[.reading 0, .reading 0, .reading 0, .reading 1, .reading 2, .reading 3, .accepted,
        .reading 4, .reading 1000000], rfl⟩
    have hr : (Client.runUdpDown .direct ipv4Max 1000000 16).Reachable (_ : DownState Float) :=
      ⟨[.accepted, .reading 0, .datagram (encodeUdpHeader (List.replicate 16 0) 0 3), .reading 1,
        .reading 1, .expired clockMax], rfl⟩
    have haccounts := (loss_accounting (A := Nat) ⟨.udp, .both, 1000000, [128000000000], 16, 16⟩
      ⟨kindUdpDown, 128000000000, ""⟩ .direct ipv4Max ipv4Max).2 rfl _ _
      [encodeUdpHeader (List.replicate 16 0) 0 3] .deadline 0 0 hs rfl hr rfl
      (List.Forall₂.cons rfl List.Forall₂.nil) (by decide)
    exact ⟨_, _, haccounts⟩

end ProxyPen
