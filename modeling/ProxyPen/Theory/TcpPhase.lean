import ProxyPen.Core.TcpPhase

/-!
# Stuck TCP Tests

A sender looks at its deadline between writes and waits inside a write for as
long as the connection is full. What ends that wait is a receiver that reads,
or one that drops its stream. The client of a download drops its stream when
it stops reading, so downloads are never stuck. The server of an upload stops
reading and keeps its stream while it waits for the client's report, and the
client, waiting inside its write, never sends one.

`Wedged` is the state in question, and `Unwedged` says of a step that it does
not lead there: the server's deadline does not pass while the client is
inside a write on a full connection, and the client does not start a write on
a full connection after the server has stopped reading. Runs made of such
steps are never stuck, `tcp_never_stuck`.

## Main definitions

* `TcpLink.Wedged`: The sender waits for a receiver that has stopped reading.
* `Unwedged`: A step that does not lead to a wedged state.
* `TcpMove`: The transitions, one constructor each.

## Theorems

* `tcpMove_of_step`: Every step is one of the transitions.
* `tcpLinkInv_step`: The invariant of the data phase.
* `sender_moves`: A sender can move, or the receiver can, or they are wedged.
* `wedged_stuck`: A wedged upload is stuck.
* `tcp_never_stuck`: Unwedged uploads and all downloads are never stuck.
* `tcp_deadline_in_write_stuck`: A deadline inside a write gets an upload stuck.
-/

namespace ProxyPen

open Protocol

/-- The sender is inside a write on a full connection whose receiver has
    stopped reading and keeps its stream. -/
def TcpLink.Wedged (w : TcpSender) (capacity : Nat) (b : TcpLink) : Prop :=
  b.recvPc = .done ∧ b.dropped = false ∧ b.sendPc = .write ∧ w.chunk ≠ 0 ∧ capacity ≤ b.fill

/-- A step that does not lead to a wedged state. -/
def Unwedged (w : TcpSender) (capacity : Nat) (b : TcpLink) : TcpEvent → Prop
  -- The receiver must not stop reading under a blocked write.
  | .expired _ => ¬ (b.sendPc = .write ∧ w.chunk ≠ 0 ∧ capacity ≤ b.fill)
  -- The sender must not enter a write that nobody will make room for.
  | .sendReading t => ¬ (b.recvPc = .done ∧ b.sendPc = .check ∧
      t < b.sendStart + w.durationNs ∧ w.chunk ≠ 0 ∧ capacity ≤ b.fill)
  | _ => True

section

variable (w : TcpSender) (r : TcpReceiver) (capacity : Nat)

/-- The invariant of the data phase. -/
structure TcpLinkInv (b : TcpLink) : Prop where
  sendNow_le : b.sendNow ≤ clockMax
  recvNow_le : b.recvNow ≤ clockMax
  /-- a half-closed connection has no writer -/
  shut_done : b.shut = true → b.sendPc = .done
  /-- a receiver that failed has dropped its stream, and so has one that is
      done if it drops it at all -/
  failed_dropped : b.recvPc = .failed → b.dropped = true
  done_dropped : b.recvPc = .done → b.dropped = r.drops
  unwedged : ¬ b.Wedged w capacity

theorem tcpLinkInv_init : TcpLinkInv w r capacity TcpLink.init where
  sendNow_le := Nat.zero_le _
  recvNow_le := Nat.zero_le _
  shut_done h := by cases h
  failed_dropped h := by cases h
  done_dropped h := by cases h
  unwedged := by
    rintro ⟨h, -⟩
    cases h

/-- The transitions of the data phase, with what the proofs need of each. -/
inductive TcpMove (b : TcpLink) : TcpEvent → TcpLink → Prop where
  | sendStart (t : Nat) (hpc : b.sendPc = .start) (hmax : t ≤ clockMax) :
      TcpMove b (.sendReading t) { b with sendPc := .check, sendNow := t, sendStart := t }
  | sendCheck (t : Nat) (hpc : b.sendPc = .check) (hmax : t ≤ clockMax) :
      TcpMove b (.sendReading t)
        { b with
          sendPc := if t < b.sendStart + w.durationNs then .write else .shutdown
          sendNow := t }
  | wrote (n : Nat) (hpc : b.sendPc = .write) (hcan : b.CanWrite w capacity n) :
      TcpMove b (.wrote n)
        { b with
          sendPc := if n = 0 then .shutdown else .check
          sent := b.sent + n
          fill := b.fill + n }
  | broken (hpc : b.sendPc = .write) (hdropped : b.dropped = true) :
      TcpMove b .broken { b with sendPc := .shutdown }
  | writeFault (hpc : b.sendPc = .write) : TcpMove b .writeFault { b with sendPc := .shutdown }
  | shutdown (hpc : b.sendPc = .shutdown) :
      TcpMove b .shutdown { b with sendPc := .done, shut := true }
  | recvStart (t : Nat) (hpc : b.recvPc = .start) (hmax : t ≤ clockMax) :
      TcpMove b (.recvReading t) { b with recvPc := .select, recvNow := t, recvStart := t }
  | eof (hpc : b.recvPc = .select) (hcan : b.CanRead r 0) :
      TcpMove b (.took 0) { b with recvPc := .done, dropped := r.drops }
  | took (n : Nat) (hpc : b.recvPc = .select) (hpos : 0 < n) :
      TcpMove b (.took n) { b with received := b.received + n, fill := b.fill - n }
  | expired (t : Nat) (hpc : b.recvPc = .select) (hmax : t ≤ clockMax) :
      TcpMove b (.expired t) { b with recvPc := .done, recvNow := t, dropped := r.drops }
  | readFault (hpc : b.recvPc = .select) :
      TcpMove b .readFault { b with recvPc := .failed, dropped := true }

theorem tcpMove_of_step (b : TcpLink) (e : TcpEvent) (b' : TcpLink)
    (hstep : TcpLink.step w r capacity b e = some b') : TcpMove w r capacity b e b' := by
  cases e with
  | sendReading t =>
      rw [TcpLink.step, Option.ite_none_right_eq_some] at hstep
      rcases hstep with ⟨⟨-, hmax⟩, hstep⟩
      unfold TcpLink.onSendReading at hstep
      cases hpc : b.sendPc with
      | start =>
          simp only [hpc, Option.some.injEq] at hstep
          exact hstep ▸ TcpMove.sendStart t hpc hmax
      | check =>
          simp only [hpc, Option.some.injEq] at hstep
          exact hstep ▸ TcpMove.sendCheck t hpc hmax
      | _ => simp only [hpc, reduceCtorEq] at hstep
  | wrote n =>
      rw [TcpLink.step, Option.ite_none_right_eq_some] at hstep
      rcases hstep with ⟨⟨hpc, hcan⟩, hstep⟩
      cases hstep
      exact TcpMove.wrote n hpc hcan
  | broken =>
      rw [TcpLink.step, Option.ite_none_right_eq_some] at hstep
      rcases hstep with ⟨⟨hpc, hdropped⟩, hstep⟩
      cases hstep
      exact TcpMove.broken hpc hdropped
  | writeFault =>
      rw [TcpLink.step, Option.ite_none_right_eq_some] at hstep
      rcases hstep with ⟨hpc, hstep⟩
      cases hstep
      exact TcpMove.writeFault hpc
  | shutdown =>
      rw [TcpLink.step, Option.ite_none_right_eq_some] at hstep
      rcases hstep with ⟨hpc, hstep⟩
      cases hstep
      exact TcpMove.shutdown hpc
  | recvReading t =>
      rw [TcpLink.step, Option.ite_none_right_eq_some] at hstep
      rcases hstep with ⟨⟨hpc, -, hmax⟩, hstep⟩
      cases hstep
      exact TcpMove.recvStart t hpc hmax
  | took n =>
      rw [TcpLink.step, Option.ite_none_right_eq_some] at hstep
      rcases hstep with ⟨⟨hpc, hcan⟩, hstep⟩
      by_cases hn : n = 0
      · subst hn
        cases hstep
        exact TcpMove.eof hpc hcan
      · rw [if_neg hn] at hstep
        cases hstep
        exact TcpMove.took n hpc (Nat.pos_of_ne_zero hn)
  | expired t =>
      rw [TcpLink.step, Option.ite_none_right_eq_some] at hstep
      rcases hstep with ⟨⟨hpc, -, hmax, -⟩, hstep⟩
      cases hstep
      exact TcpMove.expired t hpc hmax
  | readFault =>
      rw [TcpLink.step, Option.ite_none_right_eq_some] at hstep
      rcases hstep with ⟨hpc, hstep⟩
      cases hstep
      exact TcpMove.readFault hpc

/-- The steps of the sender alone keep the invariant as long as they do not
    lead into a write. -/
theorem tcpLinkInv_sender (b b' : TcpLink) (h : TcpLinkInv w r capacity b)
    (hnow : b'.sendNow ≤ clockMax) (hrecvNow : b'.recvNow = b.recvNow)
    (hrecvPc : b'.recvPc = b.recvPc) (hdropped : b'.dropped = b.dropped)
    (hshut : b'.shut = true → b'.sendPc = .done) (hpc : b'.sendPc ≠ .write) :
    TcpLinkInv w r capacity b' where
  sendNow_le := hnow
  recvNow_le := hrecvNow ▸ h.recvNow_le
  shut_done := hshut
  failed_dropped hfailed := hdropped ▸ h.failed_dropped (hrecvPc ▸ hfailed)
  done_dropped hdone := hdropped ▸ h.done_dropped (hrecvPc ▸ hdone)
  unwedged hwedged := hpc hwedged.2.2.1

theorem tcpLinkInv_step (hchunk : r.drops = true ∨ r.chunk ≠ 0) (b : TcpLink) (e : TcpEvent)
    (b' : TcpLink) (hfree : r.drops = true ∨ Unwedged w capacity b e)
    (hstep : TcpLink.step w r capacity b e = some b') (h : TcpLinkInv w r capacity b) :
    TcpLinkInv w r capacity b' := by
  -- A half-closed connection has no writer, so a busy sender has not closed it.
  have hbusy : b.sendPc ≠ .done → ∀ {P : Prop}, b.shut = true → P :=
    fun hne _ hshut => absurd (h.shut_done hshut) hne
  -- A receiver that drops its stream does not wedge its peer.
  have hopen : r.drops = true → r.drops ≠ false := fun hdrops hkeeps => by
    rw [hdrops] at hkeeps
    cases hkeeps
  cases tcpMove_of_step w r capacity b e b' hstep with
  | sendStart t hpc hmax =>
      exact tcpLinkInv_sender w r capacity b _ h hmax rfl rfl rfl (hbusy (by simp [hpc]))
        (by simp)
  | sendCheck t hpc hmax =>
      refine ⟨hmax, h.recvNow_le, hbusy (by simp [hpc]), h.failed_dropped, h.done_dropped, ?_⟩
      rintro ⟨hdone, hkept, hwrite, hne, hfull⟩
      -- The deadline has not passed: this is the start of a write.
      have hearly : t < b.sendStart + w.durationNs := by
        simp only at hwrite
        split at hwrite
        · assumption
        · cases hwrite
      rcases hfree with hdrops | hfree
      · exact hopen hdrops ((h.done_dropped hdone).symm.trans hkept)
      · exact hfree ⟨hdone, hpc, hearly, hne, hfull⟩
  | wrote n hpc hcan =>
      refine tcpLinkInv_sender w r capacity b _ h h.sendNow_le rfl rfl rfl
        (hbusy (by simp [hpc])) ?_
      simp only
      split <;> simp
  | broken hpc hdropped =>
      exact tcpLinkInv_sender w r capacity b _ h h.sendNow_le rfl rfl rfl (hbusy (by simp [hpc]))
        (by simp)
  | writeFault hpc =>
      exact tcpLinkInv_sender w r capacity b _ h h.sendNow_le rfl rfl rfl (hbusy (by simp [hpc]))
        (by simp)
  | shutdown hpc =>
      exact tcpLinkInv_sender w r capacity b _ h h.sendNow_le rfl rfl rfl (fun _ => rfl) (by simp)
  | recvStart t hpc hmax =>
      refine ⟨h.sendNow_le, hmax, h.shut_done, ?_, ?_, ?_⟩
      · intro hfailed
        cases hfailed
      · intro hdone
        cases hdone
      · rintro ⟨hdone, -⟩
        cases hdone
  | eof hpc hcan =>
      refine ⟨h.sendNow_le, h.recvNow_le, h.shut_done, ?_, fun _ => rfl, ?_⟩
      · intro hfailed
        cases hfailed
      · rintro ⟨-, hkept, hwrite, -⟩
        rcases hchunk with hdrops | hchunk
        · exact hopen hdrops hkept
        · -- The end of the stream: the sender has left its loop.
          rw [TcpLink.CanRead, if_neg hchunk] at hcan
          rcases hcan with ⟨hpos, -⟩ | ⟨-, -, hshut⟩
          · omega
          · simp only [h.shut_done hshut, reduceCtorEq] at hwrite
  | took n hpc hpos =>
      refine ⟨h.sendNow_le, h.recvNow_le, h.shut_done, h.failed_dropped, h.done_dropped, ?_⟩
      rintro ⟨hdone, -⟩
      simp only [hpc, reduceCtorEq] at hdone
  | expired t hpc hmax =>
      refine ⟨h.sendNow_le, hmax, h.shut_done, ?_, fun _ => rfl, ?_⟩
      · intro hfailed
        cases hfailed
      · rintro ⟨-, hkept, hwrite, hne, hfull⟩
        rcases hfree with hdrops | hfree
        · exact hopen hdrops hkept
        · exact hfree ⟨hwrite, hne, hfull⟩
  | readFault hpc =>
      refine ⟨h.sendNow_le, h.recvNow_le, h.shut_done, fun _ => rfl, ?_, ?_⟩
      · intro hdone
        cases hdone
      · rintro ⟨hdone, -⟩
        cases hdone

/-- A receiver that has not left its loop can move: its timer can fire. -/
theorem receiver_moves (b : TcpLink) (h : TcpLinkInv w r capacity b) :
    b.recvPc = .done ∨ b.recvPc = .failed ∨
      ∃ e b', e.isMove = true ∧ TcpLink.step w r capacity b e = some b' := by
  cases hpc : b.recvPc with
  | done => exact Or.inl rfl
  | failed => exact Or.inr (Or.inl rfl)
  | start =>
      refine Or.inr (Or.inr ⟨.recvReading b.recvNow,
        { b with recvPc := .select, recvNow := b.recvNow, recvStart := b.recvNow }, rfl, ?_⟩)
      rw [TcpLink.step, if_pos ⟨hpc, Nat.le_refl _, h.recvNow_le⟩]
  | select =>
      refine Or.inr (Or.inr ⟨.expired clockMax,
        { b with recvPc := .done, recvNow := clockMax, dropped := r.drops }, rfl, ?_⟩)
      rw [TcpLink.step, if_pos ⟨hpc, h.recvNow_le, Nat.le_refl _, Nat.min_le_right _ _⟩]

/-- A sender that has not left its loop can move, or waits for a receiver that
    can. -/
theorem sender_moves (b : TcpLink) (h : TcpLinkInv w r capacity b) :
    b.sendPc = .done ∨ ∃ e b', e.isMove = true ∧ TcpLink.step w r capacity b e = some b' := by
  have hread : ∀ b', TcpLink.onSendReading w b b.sendNow = some b' →
      ∃ e b', e.isMove = true ∧ TcpLink.step w r capacity b e = some b' := by
    intro b' hb'
    exact ⟨.sendReading b.sendNow, b', rfl,
      by rw [TcpLink.step, if_pos ⟨Nat.le_refl _, h.sendNow_le⟩, hb']⟩
  cases hpc : b.sendPc with
  | done => exact Or.inl rfl
  | start => exact Or.inr (hread _ (by simp only [TcpLink.onSendReading, hpc]; rfl))
  | check => exact Or.inr (hread _ (by simp only [TcpLink.onSendReading, hpc]; rfl))
  | shutdown =>
      refine Or.inr ⟨.shutdown, { b with sendPc := .done, shut := true }, rfl, ?_⟩
      rw [TcpLink.step, if_pos hpc]
  | write =>
      right
      by_cases hempty : w.chunk = 0
      · -- An empty buffer is written at once.
        refine ⟨.wrote 0, { b with sendPc := .shutdown }, rfl, ?_⟩
        rw [TcpLink.step, if_pos ⟨hpc, by rw [TcpLink.CanWrite, if_pos hempty]⟩]
        rfl
      · cases hdropped : b.dropped with
        | true =>
            refine ⟨.broken, { b with sendPc := .shutdown }, rfl, ?_⟩
            rw [TcpLink.step, if_pos ⟨hpc, hdropped⟩]
        | false =>
            by_cases hroom : b.fill + 1 ≤ capacity
            · refine ⟨.wrote 1, { b with sendPc := .check, sent := b.sent + 1, fill := b.fill + 1 },
                rfl, ?_⟩
              have hwrite : b.CanWrite w capacity 1 := by
                rw [TcpLink.CanWrite, if_neg hempty]
                exact ⟨hdropped, Nat.one_pos, Nat.pos_of_ne_zero hempty, hroom⟩
              rw [TcpLink.step, if_pos ⟨hpc, hwrite⟩]
              rfl
            -- The write waits for room; the receiver can make some, has dropped, or is wedged.
            · rcases receiver_moves w r capacity b h with hdone | hfailed | hmove
              · exact absurd ⟨hdone, hdropped, hpc, hempty, by omega⟩ h.unwedged
              · rw [h.failed_dropped hfailed] at hdropped
                cases hdropped
              · exact hmove

/-- A sender that is done stays done. -/
theorem sendDone_step (b : TcpLink) (e : TcpEvent) (b' : TcpLink)
    (hstep : TcpLink.step w r capacity b e = some b') (hdone : b.sendPc = .done) :
    b'.sendPc = .done := by
  cases tcpMove_of_step w r capacity b e b' hstep with
  | shutdown hpc => rfl
  | sendStart t hpc hmax => simp only [hdone, reduceCtorEq] at hpc
  | sendCheck t hpc hmax => simp only [hdone, reduceCtorEq] at hpc
  | wrote n hpc hcan => simp only [hdone, reduceCtorEq] at hpc
  | broken hpc hdropped => simp only [hdone, reduceCtorEq] at hpc
  | writeFault hpc => simp only [hdone, reduceCtorEq] at hpc
  -- The other steps are the receiver's.
  | _ => exact hdone

/-- A receiver that is done stays done. -/
theorem recvDone_step (b : TcpLink) (e : TcpEvent) (b' : TcpLink)
    (hstep : TcpLink.step w r capacity b e = some b') (hdone : b.recvPc = .done) :
    b'.recvPc = .done := by
  cases tcpMove_of_step w r capacity b e b' hstep with
  | eof hpc hcan => rfl
  | expired t hpc hmax => rfl
  | recvStart t hpc hmax => simp only [hdone, reduceCtorEq] at hpc
  | took n hpc hpos => simp only [hdone, reduceCtorEq] at hpc
  | readFault hpc => simp only [hdone, reduceCtorEq] at hpc
  -- The other steps are the sender's.
  | _ => exact hdone

end

/-- In every run of a TCP upload in which the server's deadline does not pass
    while the client is inside a write on a full connection, and the client
    starts no write on a full connection after the server has stopped reading,
    no state is stuck before the reports have been exchanged. In a download no
    state is stuck in any run. -/
theorem tcp_never_stuck (opts : BenchOptions) (plan : Plan) (capacity : Nat) :
    (∀ (es : List (ExchangeEvent TcpEvent)) (s : Exchange TcpLink TestReport),
      Machine.Meets (tcpUp opts plan capacity).advance
        (Body.OnJob (Unwedged (Client.tcpSender opts.duration opts.tcpChunk) capacity))
        (tcpUp opts plan capacity).start es →
      Machine.runFrom (tcpUp opts plan capacity).advance (tcpUp opts plan capacity).start es
        = some s →
      ¬ (tcpUp opts plan capacity).Stuck s) ∧
    (∀ (es : List (ExchangeEvent TcpEvent)) (s : Exchange TcpLink TestReport),
      Machine.runFrom (tcpDown opts plan capacity).advance (tcpDown opts plan capacity).start es
        = some s →
      ¬ (tcpDown opts plan capacity).Stuck s) := by
  constructor
  · intro es s hfree hrun
    -- `payload_size.max(1)`: the server's buffer is never empty.
    have hchunk : (Server.runTcpUp (opts.request plan)).chunk ≠ 0 :=
      Nat.ne_of_gt (Nat.lt_of_lt_of_le Nat.one_pos (Nat.le_max_right _ _))
    refine never_stuck (tcpUp opts plan capacity)
      (TcpLinkInv (Client.tcpSender opts.duration opts.tcpChunk)
        (Server.runTcpUp (opts.request plan)) capacity)
      (Unwedged (Client.tcpSender opts.duration opts.tcpChunk) capacity)
      (tcpLinkInv_init _ _ _) ?_ ?_ ?_ ?_ es s hfree hrun
    · exact fun b e b' hP => tcpLinkInv_step _ _ _ (Or.inr hchunk) b e b' (Or.inr hP)
    · intro b e b' hstep hdone
      exact decide_eq_true (sendDone_step _ _ _ b e b' hstep (of_decide_eq_true hdone))
    · intro b h
      rcases sender_moves _ _ _ b h with hdone | hmove
      · exact Or.inl (decide_eq_true hdone)
      · exact Or.inr (Or.inr hmove)
    · intro b h _
      rcases receiver_moves _ _ _ b h with hdone | hfailed | hmove
      · exact Or.inl (decide_eq_true hdone)
      · exact Or.inr (Or.inl (decide_eq_true hfailed))
      · exact Or.inr (Or.inr hmove)
  · intro es s hrun
    -- The client drops its stream, so no condition on the steps is needed.
    refine never_stuck (tcpDown opts plan capacity)
      (TcpLinkInv (Server.runTcpDown (opts.request plan))
        (Client.tcpReceiver opts.duration opts.tcpChunk) capacity)
      (fun _ _ => True) (tcpLinkInv_init _ _ _) ?_ ?_ ?_ ?_ es s
      (Machine.meets_of_forall _ (fun s e => ?_) _ es) hrun
    · exact fun b e b' _ => tcpLinkInv_step _ _ _ (Or.inl rfl) b e b' (Or.inl rfl)
    · intro b e b' hstep hdone
      exact decide_eq_true (recvDone_step _ _ _ b e b' hstep (of_decide_eq_true hdone))
    · intro b h
      rcases receiver_moves _ _ _ b h with hdone | hfailed | hmove
      · exact Or.inl (decide_eq_true hdone)
      · exact Or.inr (Or.inl (decide_eq_true hfailed))
      · exact Or.inr (Or.inr hmove)
    · intro b h _
      rcases sender_moves _ _ _ b h with hdone | hmove
      · exact Or.inl (decide_eq_true hdone)
      · exact Or.inr (Or.inr hmove)
    · cases e <;> trivial

/-- An upload of one byte, up to the end of the server's loop. -/
theorem tcp_never_stuck_one_byte :
    ∃ s, Machine.runFrom (tcpUp ⟨.tcp, .up, 5, [], 16, 1⟩ ⟨kindTcpUp, 0, ""⟩ 1).advance
        (tcpUp ⟨.tcp, .up, 5, [], 16, 1⟩ ⟨kindTcpUp, 0, ""⟩ 1).start
        [.job (.sendReading 0), .job (.sendReading 1), .job (.wrote 1), .job (.sendReading 5),
          .job .shutdown, .job (.recvReading 0), .job (.took 1), .job (.took 0)] = some s ∧
      ¬ (tcpUp ⟨.tcp, .up, 5, [], 16, 1⟩ ⟨kindTcpUp, 0, ""⟩ 1).Stuck s := by
  refine ⟨_, rfl, ?_⟩
  refine (tcp_never_stuck ⟨.tcp, .up, 5, [], 16, 1⟩ ⟨kindTcpUp, 0, ""⟩ 1).1
    [.job (.sendReading 0), .job (.sendReading 1), .job (.wrote 1), .job (.sendReading 5),
      .job .shutdown, .job (.recvReading 0), .job (.took 1), .job (.took 0)] _ ?_ rfl
  -- Nothing stops reading before the end, so no step is near a wedge.
  have hreading : ∀ {b : TcpLink} {P : Prop}, b.recvPc ≠ .done → ¬ (b.recvPc = .done ∧ P) :=
    fun hne h => hne h.1
  refine ⟨hreading (by decide), fun s hs => ?_⟩
  cases hs
  refine ⟨hreading (by decide), fun s hs => ?_⟩
  cases hs
  refine ⟨trivial, fun s hs => ?_⟩
  cases hs
  refine ⟨hreading (by decide), fun s hs => ?_⟩
  cases hs
  refine ⟨trivial, fun s hs => ?_⟩
  cases hs
  refine ⟨trivial, fun s hs => ?_⟩
  cases hs
  refine ⟨trivial, fun s hs => ?_⟩
  cases hs
  exact ⟨trivial, fun _ _ => trivial⟩

/-- A wedged upload whose server waits for the client's report is stuck. -/
theorem wedged_stuck (opts : BenchOptions) (plan : Plan) (capacity : Nat) (b : TcpLink)
    (hwedged : b.Wedged (Client.tcpSender opts.duration opts.tcpChunk) capacity)
    (own : TestReport) (toClient : List TestReport) :
    (tcpUp opts plan capacity).Stuck
      { body := b, client := .running, server := .reading own, toClient := toClient,
        toServer := [] } := by
  rcases hwedged with ⟨hdone, hopen, hwrite, hchunk, hfull⟩
  refine ⟨?_, ?_, ?_⟩
  · intro e hmove
    cases e with
    | job e =>
        have hblocked : TcpLink.step (Client.tcpSender opts.duration opts.tcpChunk)
            (Server.runTcpUp (opts.request plan)) capacity b e = none := by
          cases hnext : TcpLink.step (Client.tcpSender opts.duration opts.tcpChunk)
            (Server.runTcpUp (opts.request plan)) capacity b e with
          | none => rfl
          | some b' =>
              -- Every transition but the faults needs something the wedge denies.
              exfalso
              cases tcpMove_of_step _ _ _ b e b' hnext with
              | sendStart t hpc hmax => simp only [hwrite, reduceCtorEq] at hpc
              | sendCheck t hpc hmax => simp only [hwrite, reduceCtorEq] at hpc
              | wrote n hpc hcan =>
                  rw [TcpLink.CanWrite, if_neg hchunk] at hcan
                  omega
              | broken hpc hdropped => simp only [hopen, Bool.false_eq_true] at hdropped
              | writeFault hpc => cases hmove
              | shutdown hpc => simp only [hwrite, reduceCtorEq] at hpc
              | recvStart t hpc hmax => simp only [hdone, reduceCtorEq] at hpc
              | eof hpc hcan => simp only [hdone, reduceCtorEq] at hpc
              | took n hpc hpos => simp only [hdone, reduceCtorEq] at hpc
              | expired t hpc hmax => simp only [hdone, reduceCtorEq] at hpc
              | readFault hpc => cases hmove
        simp only [Body.advance, tcpUp, hblocked]
    | clientEnds t =>
        simp only [Body.advance, tcpUp, hwrite, reduceCtorEq, decide_false, Bool.false_eq_true,
          if_false]
    | clientFails => rfl
    | _ => rfl
  · rintro ⟨h, -⟩
    cases h
  · intro h
    cases h

/-- The server's deadline passes while the client is inside a write, and the
    upload is stuck. -/
theorem tcp_deadline_in_write_stuck :
    ∃ es s, Machine.runFrom (tcpUp ⟨.tcp, .up, 5, [], 16, 1⟩ ⟨kindTcpUp, 0, ""⟩ 1).advance
        (tcpUp ⟨.tcp, .up, 5, [], 16, 1⟩ ⟨kindTcpUp, 0, ""⟩ 1).start es = some s ∧
      (tcpUp ⟨.tcp, .up, 5, [], 16, 1⟩ ⟨kindTcpUp, 0, ""⟩ 1).Stuck s :=
  ⟨[.job (.recvReading 0), .job (.sendReading 0), .job (.sendReading 1), .job (.wrote 1),
    .job (.sendReading 2), .job (.expired clockMax), .serverEnds 0, .serverWrites], _, rfl,
    wedged_stuck _ _ 1 _ ⟨rfl, rfl, rfl, by decide, by decide⟩ _ _⟩

end ProxyPen
