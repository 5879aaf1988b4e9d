import ProxyPen.Theory.TcpBytes

/-!
# Grace over TCP

A receive loop over TCP has the same `STRAGGLE_GRACE`. Here it is there for the
bytes that are still in the connection when the sender half-closes, and for a
sender that looks at its clock between writes only. A receiver whose deadline
comes first leaves bytes in the connection, and reports fewer than were sent.

The runs are timed. The parties read one clock. The sender starts at most `H`
after the receiver has. From one observation of its loop to the next, with the
write that may block in between, and from the last one to the half-close, it
takes at most `δ`. The receiver finds the end of the stream at most `D` after
the half-close. Then a receiver whose grace is longer than `H + 2 * δ + D`
never meets its deadline, and both parties report the same bytes.

## Main definitions

* `TcpLink.Timely`: A step of a timed run.
* `TcpLink.Kept`: The invariant of a timed run.

## Theorems

* `lt_deadline_of_timely`: A reader that waits has not met its deadline.
* `tcpKept_step`: One step of a timed run.
* `tcp_upload_grace`, `tcp_download_grace`: What the grace is good for.
-/

namespace ProxyPen

open Protocol Machine

/-- The clock reading of an event. -/
def TcpEvent.time : TcpEvent → Option Nat
  | .sendReading t => some t
  | .recvReading t => some t
  | .expired t => some t
  | _ => none

/-- The sender is between its observations, with a deadline test ahead. -/
def TcpSendPc.writing : TcpSendPc → Bool
  | .check => true
  | .write => true
  | _ => false

namespace TcpLink

/-- At a clock reading nothing is late: the sender for its start, the sender
    for its next observation or its half-close, and the end of the stream for
    the receiver. -/
def Timely (δ D H : Nat) (b : TcpLink) (e : TcpEvent) : Prop :=
  ∀ t ∈ e.time, b.sendNow ≤ t ∧ b.recvNow ≤ t ∧
    (b.sendPc = .start → b.recvPc = .select → t ≤ b.recvStart + H) ∧
    (b.sendPc ≠ .start → b.sendPc ≠ .done → t ≤ b.sendNow + δ) ∧
    (b.sendPc = .done → b.recvPc = .select → t ≤ b.sendNow + δ + D)

instance (δ D H : Nat) (b : TcpLink) (e : TcpEvent) : Decidable (b.Timely δ D H e) :=
  inferInstanceAs (Decidable (∀ t ∈ e.time, _ ∧ _ ∧ _ ∧ _ ∧ _))

/-- The invariant of a timed run. -/
structure Kept (w : TcpSender) (r : TcpReceiver) (δ H : Nat) (b : TcpLink) : Prop where
  balanced : b.Balanced
  start_le : b.sendStart ≤ b.sendNow
  now_le : b.sendNow ≤ b.sendStart + w.durationNs + δ
  writing_le : b.sendPc.writing = true → b.sendNow ≤ b.sendStart + w.durationNs
  started : b.recvPc = .select → b.sendPc ≠ .start → b.sendStart ≤ b.recvStart + H
  -- On a clock that reaches the receiver's deadline.
  closed : b.recvPc = .done → b.recvStart + r.windowNs ≤ clockMax → b.Drained

end TcpLink

section

variable (w : TcpSender) (r : TcpReceiver) (capacity δ D H : Nat)

theorem tcpKept_init : TcpLink.init.Kept w r δ H where
  balanced := ⟨rfl, fun hshut => by cases hshut⟩
  start_le := Nat.le_refl _
  now_le := Nat.zero_le _
  writing_le h := by cases h
  started h := by cases h
  closed h := by cases h

/-- A sender that has not half-closed has a receiver that reads on. -/
theorem TcpLink.Kept.reading {b : TcpLink} (h : b.Kept w r δ H) (hpc : b.sendPc ≠ .done) :
    b.recvPc = .done → b.recvStart + r.windowNs ≤ clockMax → ∀ {P : Prop}, P :=
  fun hdone hclock => absurd (h.closed hdone hclock).send hpc

/-- A step of a running sender that looks at no clock. -/
theorem TcpLink.Kept.move {b : TcpLink} (h : b.Kept w r δ H) (b' : TcpLink)
    (hbalanced : b'.Balanced) (hfresh : b.sendPc ≠ .start) (hrunning : b.sendPc ≠ .done)
    (hwriting : b'.sendPc.writing = true → b.sendPc.writing = true)
    (hnow : b'.sendNow = b.sendNow) (hstart : b'.sendStart = b.sendStart)
    (hrecv : b'.recvPc = b.recvPc) (hrecvStart : b'.recvStart = b.recvStart) :
    b'.Kept w r δ H where
  balanced := hbalanced
  start_le := by
    rw [hnow, hstart]
    exact h.start_le
  now_le := by
    rw [hnow, hstart]
    exact h.now_le
  writing_le hat := by
    rw [hnow, hstart]
    exact h.writing_le (hwriting hat)
  started hat _ := by
    rw [hstart, hrecvStart]
    exact h.started (hrecv ▸ hat) hfresh
  closed hat hclock := by
    rw [hrecv] at hat
    rw [hrecvStart] at hclock
    exact h.reading w r δ H hrunning hat hclock

/-- While a receiver waits, no clock reading is at its deadline. -/
theorem lt_deadline_of_timely (hgrace : w.durationNs + H + 2 * δ + D < r.windowNs) (b : TcpLink)
    (e : TcpEvent) (t : Nat) (ht : t ∈ e.time) (htimely : b.Timely δ D H e) (h : b.Kept w r δ H)
    (hpc : b.recvPc = .select) : t < b.recvStart + r.windowNs := by
  rcases htimely t ht with ⟨-, -, hstart, hrunning, hend⟩
  have hnow := h.now_le
  by_cases hfresh : b.sendPc = .start
  · have hle := hstart hfresh hpc
    omega
  · have hstarted := h.started hpc hfresh
    by_cases hdone : b.sendPc = .done
    · have hle := hend hdone hpc
      omega
    · have hle := hrunning hfresh hdone
      omega

theorem tcpKept_step (hchunk : r.chunk ≠ 0) (hgrace : w.durationNs + H + 2 * δ + D < r.windowNs)
    (b : TcpLink) (e : TcpEvent) (b' : TcpLink) (htimely : b.Timely δ D H e)
    (hstep : TcpLink.step w r capacity b e = some b') (h : b.Kept w r δ H) : b'.Kept w r δ H := by
  have hbalanced := balanced_step w r capacity b e b' hstep h.balanced
  cases tcpMove_of_step w r capacity b e b' hstep with
  | sendStart t hpc hmax =>
      rcases htimely t rfl with ⟨-, -, hstart, -, -⟩
      exact
        { balanced := hbalanced
          start_le := Nat.le_refl t
          now_le := by
            show t ≤ t + w.durationNs + δ
            omega
          writing_le := fun _ => Nat.le_add_right t _
          started := fun hrecv _ => hstart hpc hrecv
          closed := fun hat hclock =>
            h.reading w r δ H (by rw [hpc]; exact TcpSendPc.noConfusion) hat hclock }
  | sendCheck t hpc hmax =>
      rcases htimely t rfl with ⟨hnow, -, -, hrunning, -⟩
      have hle := hrunning (by rw [hpc]; exact TcpSendPc.noConfusion)
        (by rw [hpc]; exact TcpSendPc.noConfusion)
      have hwriting := h.writing_le (by rw [hpc, TcpSendPc.writing])
      have hstart := h.start_le
      exact
        { balanced := hbalanced
          start_le := Nat.le_trans hstart hnow
          now_le := by
            show t ≤ b.sendStart + w.durationNs + δ
            omega
          writing_le := by
            intro hat
            -- The loop goes on only before its deadline.
            by_cases hless : t < b.sendStart + w.durationNs
            · exact Nat.le_of_lt hless
            · simp only [if_neg hless, TcpSendPc.writing, Bool.false_eq_true] at hat
          started := fun hrecv _ => h.started hrecv (by rw [hpc]; exact TcpSendPc.noConfusion)
          closed := fun hat hclock =>
            h.reading w r δ H (by rw [hpc]; exact TcpSendPc.noConfusion) hat hclock }
  | wrote n hpc hcan =>
      exact h.move w r δ H _ hbalanced (by rw [hpc]; exact TcpSendPc.noConfusion)
        (by rw [hpc]; exact TcpSendPc.noConfusion) (fun _ => by rw [hpc, TcpSendPc.writing])
        rfl rfl rfl rfl
  | broken hpc hdropped =>
      exact h.move w r δ H _ hbalanced (by rw [hpc]; exact TcpSendPc.noConfusion)
        (by rw [hpc]; exact TcpSendPc.noConfusion) (fun hat => by cases hat) rfl rfl rfl rfl
  | writeFault hpc =>
      exact h.move w r δ H _ hbalanced (by rw [hpc]; exact TcpSendPc.noConfusion)
        (by rw [hpc]; exact TcpSendPc.noConfusion) (fun hat => by cases hat) rfl rfl rfl rfl
  | shutdown hpc =>
      exact h.move w r δ H _ hbalanced (by rw [hpc]; exact TcpSendPc.noConfusion)
        (by rw [hpc]; exact TcpSendPc.noConfusion) (fun hat => by cases hat) rfl rfl rfl rfl
  | recvStart t hpc hmax =>
      -- What has started before the receiver is not late.
      have hnow := (htimely t rfl).1
      have hstart := h.start_le
      exact ⟨hbalanced, hstart, h.now_le, h.writing_le,
        fun _ _ => Nat.le_trans hstart (Nat.le_trans hnow (Nat.le_add_right t H)),
        fun hat => by cases hat⟩
  | eof hpc hcan =>
      exact ⟨hbalanced, h.start_le, h.now_le, h.writing_le, fun hat => (by cases hat),
        fun _ _ => drained_of_eof w r capacity hchunk h.balanced hstep⟩
  | took n hpc hpos =>
      exact ⟨hbalanced, h.start_le, h.now_le, h.writing_le, h.started,
        fun hat => by cases hpc.symm.trans hat⟩
  | expired t hpc hmax =>
      rw [TcpLink.step, Option.ite_none_right_eq_some] at hstep
      refine ⟨hbalanced, h.start_le, h.now_le, h.writing_le, fun hat => (by cases hat),
        fun _ hclock => ?_⟩
      -- The deadline would be met at this reading.
      have hbefore := lt_deadline_of_timely w r δ D H hgrace b _ t rfl htimely h hpc
      have hafter := hstep.1.2.2.2
      rw [Nat.min_eq_left hclock] at hafter
      exact absurd hbefore (Nat.not_lt.mpr hafter)
  | readFault hpc =>
      exact ⟨hbalanced, h.start_le, h.now_le, h.writing_le, fun hat => (by cases hat),
        fun hat => by cases hat⟩

/-- In a timed run a receiver that has left its loop has read everything. -/
theorem drained_of_timely (hchunk : r.chunk ≠ 0)
    (hgrace : w.durationNs + H + 2 * δ + D < r.windowNs) (es : List TcpEvent) (b : TcpLink)
    (hrun : runFrom (TcpLink.step w r capacity) TcpLink.init es = some b)
    (htimely : Meets (TcpLink.step w r capacity) (TcpLink.Timely δ D H) TcpLink.init es)
    (hdone : b.recvPc = .done) (hclock : b.recvStart + r.windowNs ≤ clockMax) : b.Drained :=
  (run_invariant_of_meets _ _ (tcpKept_step w r capacity δ D H hchunk hgrace) es _ b htimely hrun
    (tcpKept_init w r δ H)).closed hdone hclock

/-- The bytes of a run are in the reports or in the connection. -/
theorem balanced_of_steps (es : List TcpEvent) (b : TcpLink)
    (hrun : runFrom (TcpLink.step w r capacity) TcpLink.init es = some b) : b.Balanced :=
  run_invariant TcpLink.Balanced (balanced_step w r capacity) es _ b hrun
    ⟨rfl, fun hshut => by cases hshut⟩

end

/-- In a timed upload whose lateness is within the grace, the server has left
    its loop only at the end of the stream: the client has half-closed, nothing
    is left in the connection, and both report the same bytes. The part of a
    millisecond the server is not told about counts as lateness. -/
theorem tcp_upload_grace (opts : BenchOptions) (plan : Plan) (capacity : Nat)
    (hms : opts.duration / 1000000 < 2 ^ 32) (δ D H : Nat)
    (hgrace : opts.duration % 1000000 + H + 2 * δ + D < straggleGrace) (es : List TcpEvent)
    (b : TcpLink)
    (hrun : runFrom (tcpUp opts plan capacity).step (tcpUp opts plan capacity).init es = some b)
    (htimely : Meets (tcpUp opts plan capacity).step (TcpLink.Timely δ D H)
      (tcpUp opts plan capacity).init es)
    (hdone : b.recvPc = .done)
    (hclock : b.recvStart + (Server.runTcpUp (opts.request plan)).windowNs ≤ clockMax)
    (dur dur' : Nat) :
    b.Drained ∧ (b.recvReport dur').bytes = (b.sendReport dur).bytes := by
  have hfits : (opts.request plan).durationMs.toNat = opts.duration / 1000000 :=
    UInt32.toNat_ofNat_of_lt' hms
  have hsplit := Nat.div_add_mod' opts.duration 1000000
  have hwindow : (Server.runTcpUp (opts.request plan)).windowNs
      = (opts.request plan).durationMs.toNat * 1000000 + straggleGrace := rfl
  have hduration : (Client.tcpSender opts.duration opts.tcpChunk).durationNs = opts.duration := rfl
  -- `payload_size.max(1)`: the server's buffer is never empty.
  have hchunk : (Server.runTcpUp (opts.request plan)).chunk ≠ 0 := by
    simp only [Server.runTcpUp]
    omega
  have hdrained := drained_of_timely _ _ capacity δ D H hchunk (by omega) es b hrun htimely hdone
    hclock
  exact ⟨hdrained, (reports_balanced (balanced_of_steps _ _ _ es b hrun) dur dur').2 hdrained⟩

/-- An upload of chunks of two bytes over a connection that holds three, for a
    millisecond. The last byte is written past the deadline, and the server
    finds it much later. -/
def lateUpload : List TcpEvent :=
  [.sendReading 0, .sendReading 1, .wrote 1, .recvReading 100, .sendReading 999999, .took 1,
    .wrote 2, .sendReading 1000001, .shutdown, .took 1, .took 1, .took 0]

theorem tcp_upload_grace_late :
    let B := tcpUp ⟨.tcp, .up, 1000000, [], 16, 2⟩ ⟨kindTcpUp, 0, ""⟩ 3
    let b : TcpLink := ⟨.done, 1000001, 0, 3, .done, 100, 100, 3, 0, true, false⟩
    runFrom B.step B.init lateUpload = some b ∧ b.Drained ∧
      (b.recvReport 1000000).bytes = (b.sendReport 1000001).bytes := by
  intro B b
  have hrun : runFrom B.step B.init lateUpload = some b := by decide +kernel
  exact ⟨hrun, tcp_upload_grace ⟨.tcp, .up, 1000000, [], 16, 2⟩ ⟨kindTcpUp, 0, ""⟩ 3 (by decide)
    1000000 1000000 1000000 (by decide) lateUpload b hrun (by decide +kernel) rfl
    (by decide +kernel) 1000001 1000000⟩

/-- The same of a download, for a client whose buffer is not empty. -/
theorem tcp_download_grace (opts : BenchOptions) (plan : Plan) (capacity : Nat)
    (hchunk : opts.tcpChunk ≠ 0) (δ D H : Nat) (hgrace : H + 2 * δ + D < straggleGrace)
    (es : List TcpEvent) (b : TcpLink)
    (hrun : runFrom (tcpDown opts plan capacity).step (tcpDown opts plan capacity).init es = some b)
    (htimely : Meets (tcpDown opts plan capacity).step (TcpLink.Timely δ D H)
      (tcpDown opts plan capacity).init es)
    (hdone : b.recvPc = .done)
    (hclock : b.recvStart + (Client.tcpReceiver opts.duration opts.tcpChunk).windowNs ≤ clockMax)
    (dur dur' : Nat) :
    b.Drained ∧ (b.recvReport dur').bytes = (b.sendReport dur).bytes := by
  -- The server counts whole milliseconds, so it never sends for longer than the client asks.
  have hms : (opts.request plan).durationMs.toNat ≤ opts.duration / 1000000 := Nat.mod_le _ _
  have hwhole := Nat.div_mul_le_self opts.duration 1000000
  have hmul := Nat.mul_le_mul_right 1000000 hms
  have hduration : (Server.runTcpDown (opts.request plan)).durationNs
      = (opts.request plan).durationMs.toNat * 1000000 := rfl
  have hwindow : (Client.tcpReceiver opts.duration opts.tcpChunk).windowNs
      = opts.duration + straggleGrace := rfl
  have hnonzero : (Client.tcpReceiver opts.duration opts.tcpChunk).chunk ≠ 0 :=
    fun hzero => hchunk (UInt64.toNat_inj.mp hzero)
  have hdrained := drained_of_timely _ _ capacity δ D H hnonzero (by omega) es b hrun htimely hdone
    hclock
  exact ⟨hdrained, (reports_balanced (balanced_of_steps _ _ _ es b hrun) dur dur').2 hdrained⟩

/-- The same bytes the other way, from a server that starts after its client
    and fills the connection. -/
def lateDownload : List TcpEvent :=
  [.recvReading 0, .sendReading 900000, .sendReading 900000, .wrote 2, .sendReading 900001,
    .wrote 1, .took 2, .sendReading 1900000, .took 1, .shutdown, .took 0]

theorem tcp_download_grace_late :
    let B := tcpDown ⟨.tcp, .down, 1500000, [], 16, 2⟩ ⟨kindTcpDown, 0, ""⟩ 3
    let b : TcpLink := ⟨.done, 1900000, 900000, 3, .done, 0, 0, 3, 0, true, true⟩
    runFrom B.step B.init lateDownload = some b ∧ b.Drained ∧
      (b.recvReport 1900100).bytes = (b.sendReport 1000000).bytes := by
  intro B b
  have hrun : runFrom B.step B.init lateDownload = some b := by decide +kernel
  exact ⟨hrun, tcp_download_grace ⟨.tcp, .down, 1500000, [], 16, 2⟩ ⟨kindTcpDown, 0, ""⟩ 3
    (by decide) 1000000 1000000 1000000 (by decide) lateDownload b hrun (by decide +kernel) rfl
    (by decide +kernel) 1000000 1900100⟩

end ProxyPen
