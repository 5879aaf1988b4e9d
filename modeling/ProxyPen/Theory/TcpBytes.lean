import ProxyPen.Theory.TcpPhase

/-!
# Bytes of a TCP Test

Where the bytes of a TCP test are: those a write has reported are either still
in the connection or have been counted by the receiver. So the receiver never
reports more than the sender. It reports as much exactly when the connection
is empty and nothing follows, which is what the end of the stream says: the
sender has half-closed, so it has left its loop, and everything in front of
the end has been read.

A deadline of the receiver says neither, and a read into an empty buffer
returns zero bytes whatever the connection holds.

## Main definitions

* `TcpLink.Balanced`: Bytes sent are bytes received and bytes in the connection.
* `TcpLink.Drained`: Both loops are over and the connection is empty.

## Theorems

* `balanced_step`: Every step keeps the balance.
* `sent_frozen`, `received_frozen`: A loop that is over counts no more.
* `tcp_bytes_conserved`: The reports of every upload and download.
-/

namespace ProxyPen

open Protocol

namespace TcpLink

/-- Every byte that was sent is in the connection or has been received, and a
    half-closed connection has no writer. -/
structure Balanced (b : TcpLink) : Prop where
  bytes : b.sent = b.received + b.fill
  shut_done : b.shut = true → b.sendPc = .done

/-- Both loops are over and the connection is empty. -/
structure Drained (b : TcpLink) : Prop where
  send : b.sendPc = .done
  recv : b.recvPc = .done
  fill : b.fill = 0

end TcpLink

section

variable (w : TcpSender) (r : TcpReceiver) (capacity : Nat)

theorem canRead_of_took {b b' : TcpLink} {n : Nat}
    (hstep : TcpLink.step w r capacity b (.took n) = some b') : b.CanRead r n := by
  rw [TcpLink.step, Option.ite_none_right_eq_some] at hstep
  exact hstep.1.2

/-- Bytes that a read returns were in the connection. -/
theorem le_fill_of_canRead {b : TcpLink} {n : Nat} (hpos : 0 < n) (h : b.CanRead r n) :
    n ≤ b.fill := by
  unfold TcpLink.CanRead at h
  by_cases hempty : r.chunk = 0
  · rw [if_pos hempty] at h
    omega
  · rw [if_neg hempty] at h
    omega

theorem balanced_step (b : TcpLink) (e : TcpEvent) (b' : TcpLink)
    (hstep : TcpLink.step w r capacity b e = some b') (h : b.Balanced) : b'.Balanced := by
  have hbytes := h.bytes
  have hbusy : b.sendPc ≠ .done → b.shut = true → ∀ {P : Prop}, P :=
    fun hne hshut => absurd (h.shut_done hshut) hne
  cases tcpMove_of_step w r capacity b e b' hstep with
  | sendStart t hpc hmax => exact ⟨hbytes, fun hshut => hbusy (by simp [hpc]) hshut⟩
  | sendCheck t hpc hmax => exact ⟨hbytes, fun hshut => hbusy (by simp [hpc]) hshut⟩
  | wrote n hpc hcan =>
      refine ⟨?_, fun hshut => hbusy (by simp [hpc]) hshut⟩
      show b.sent + n = b.received + (b.fill + n)
      omega
  | broken hpc hdropped => exact ⟨hbytes, fun hshut => hbusy (by simp [hpc]) hshut⟩
  | writeFault hpc => exact ⟨hbytes, fun hshut => hbusy (by simp [hpc]) hshut⟩
  | shutdown hpc => exact ⟨hbytes, fun _ => rfl⟩
  | took n hpc hpos =>
      have hfill := le_fill_of_canRead r hpos (canRead_of_took w r capacity hstep)
      refine ⟨?_, h.shut_done⟩
      show b.sent = b.received + n + (b.fill - n)
      omega
  -- The other steps move no byte.
  | _ => exact ⟨hbytes, h.shut_done⟩

/-- A sender that is done sends no more. -/
theorem sent_frozen (b : TcpLink) (e : TcpEvent) (b' : TcpLink)
    (hstep : TcpLink.step w r capacity b e = some b') (hdone : b.sendPc = .done) :
    b'.sendPc = .done ∧ b'.sent = b.sent := by
  refine ⟨sendDone_step w r capacity b e b' hstep hdone, ?_⟩
  cases tcpMove_of_step w r capacity b e b' hstep with
  | wrote n hpc hcan => simp only [hdone, reduceCtorEq] at hpc
  | _ => rfl

/-- A receiver that is done counts no more. -/
theorem received_frozen (b : TcpLink) (e : TcpEvent) (b' : TcpLink)
    (hstep : TcpLink.step w r capacity b e = some b') (hdone : b.recvPc = .done) :
    b'.recvPc = .done ∧ b'.received = b.received := by
  refine ⟨recvDone_step w r capacity b e b' hstep hdone, ?_⟩
  cases tcpMove_of_step w r capacity b e b' hstep with
  | took n hpc hpos => simp only [hdone, reduceCtorEq] at hpc
  | _ => rfl

theorem drained_step (b : TcpLink) (e : TcpEvent) (b' : TcpLink)
    (hstep : TcpLink.step w r capacity b e = some b') (h : b.Drained) : b'.Drained := by
  refine ⟨(sent_frozen w r capacity b e b' hstep h.send).1,
    (received_frozen w r capacity b e b' hstep h.recv).1, ?_⟩
  cases tcpMove_of_step w r capacity b e b' hstep with
  | wrote n hpc hcan => simp only [h.send, reduceCtorEq] at hpc
  | took n hpc hpos => simp only [h.recv, reduceCtorEq] at hpc
  | _ => exact h.fill

/-- The end of the stream is read behind everything that was sent. -/
theorem drained_of_eof {b b' : TcpLink} (hchunk : r.chunk ≠ 0) (h : b.Balanced)
    (hstep : TcpLink.step w r capacity b (.took 0) = some b') : b'.Drained := by
  have hcan := canRead_of_took w r capacity hstep
  unfold TcpLink.CanRead at hcan
  rw [if_neg hchunk] at hcan
  rcases hcan with ⟨hpos, -⟩ | ⟨-, hfill, hshut⟩
  · omega
  · cases tcpMove_of_step w r capacity b _ b' hstep with
    | eof hpc hcan => exact ⟨h.shut_done hshut, rfl, hfill⟩
    | took _ hpc hpos => omega

end

section

variable {w : TcpSender} {r : TcpReceiver} {capacity : Nat} (B : Body TcpLink TcpEvent TestReport)

/-- The balance of a run, and where it stands behind the end of the stream. -/
theorem balanced_of_run (hinit : B.init = TcpLink.init) (hB : B.step = TcpLink.step w r capacity)
    (es : List (ExchangeEvent TcpEvent)) (s : Exchange TcpLink TestReport)
    (hrun : Machine.runFrom B.advance B.start es = some s) :
    s.body.Balanced ∧ (.job (.took 0) ∈ es → r.chunk ≠ 0 → s.body.Drained) := by
  have hbalanced : ∀ t, Machine.Reachable B.advance B.start t → t.body.Balanced := by
    intro t ht
    refine body_invariant B TcpLink.Balanced ?_ _ t ht ?_
    · rw [hB]
      exact balanced_step w r capacity
    · rw [Body.start, hinit]
      exact ⟨rfl, fun hshut => by cases hshut⟩
  refine ⟨hbalanced s ⟨es, hrun⟩, ?_⟩
  intro heof hchunk
  rcases Machine.step_of_mem heof hrun with ⟨u, v, hu, hstep, hv⟩
  cases advances_of_advance B u _ v hstep with
  | job b b' c st tc ts e hjob =>
      rw [hB] at hjob
      refine body_invariant B TcpLink.Drained ?_ _ s hv
        (drained_of_eof w r capacity hchunk (hbalanced _ hu) hjob)
      rw [hB]
      exact drained_step w r capacity

end

section

variable {w : TcpSender} {r : TcpReceiver} {capacity : Nat} {b b' : TcpLink} {e : TcpEvent}

theorem sendReport_frozen (hstep : TcpLink.step w r capacity b e = some b')
    (hdone : decide (b.sendPc = .done) = true) :
    decide (b'.sendPc = .done) = true ∧ b'.sendReport = b.sendReport := by
  rcases sent_frozen w r capacity b e b' hstep (of_decide_eq_true hdone) with ⟨hdone', hsent⟩
  refine ⟨decide_eq_true hdone', ?_⟩
  funext t
  rw [TcpLink.sendReport, TcpLink.sendReport, hsent]

theorem recvReport_frozen (hstep : TcpLink.step w r capacity b e = some b')
    (hdone : decide (b.recvPc = .done) = true) :
    decide (b'.recvPc = .done) = true ∧ b'.recvReport = b.recvReport := by
  rcases received_frozen w r capacity b e b' hstep (of_decide_eq_true hdone) with ⟨hdone', hrecv⟩
  refine ⟨decide_eq_true hdone', ?_⟩
  funext t
  rw [TcpLink.recvReport, TcpLink.recvReport, hrecv]

/-- The bytes of the two reports over a balanced connection. -/
theorem reports_balanced (h : b.Balanced) (t t' : Nat) :
    (b.recvReport t').bytes ≤ (b.sendReport t).bytes ∧
      (b.Drained → (b.recvReport t').bytes = (b.sendReport t).bytes) := by
  have hbytes := h.bytes
  show b.received ≤ b.sent ∧ (b.Drained → b.received = b.sent)
  refine ⟨by omega, ?_⟩
  intro hdrained
  have hfill := hdrained.fill
  omega

end

/-- In every run of a TCP upload or download, for every size of the buffers,
    every capacity of the connection, every division of the stream into writes
    and reads and every moment at which a loop is left: the receiver reports at
    most the bytes the sender reports, and as many where its loop was left at
    the end of the stream. A read into an empty buffer, which only a client can
    make, is not the end of the stream. -/
theorem tcp_bytes_conserved (opts : BenchOptions) (plan : Plan) (capacity : Nat) :
    (∀ (es : List (ExchangeEvent TcpEvent)) (s : Exchange TcpLink TestReport),
      Machine.runFrom (tcpUp opts plan capacity).advance (tcpUp opts plan capacity).start es
        = some s →
      ∀ sent received, (tcpUp opts plan capacity).ClientReported es sent →
        (tcpUp opts plan capacity).ServerReported es received →
        received.bytes ≤ sent.bytes ∧
          (.job (.took 0) ∈ es → received.bytes = sent.bytes)) ∧
    (∀ (es : List (ExchangeEvent TcpEvent)) (s : Exchange TcpLink TestReport),
      Machine.runFrom (tcpDown opts plan capacity).advance (tcpDown opts plan capacity).start es
        = some s →
      ∀ sent received, (tcpDown opts plan capacity).ServerReported es sent →
        (tcpDown opts plan capacity).ClientReported es received →
        received.bytes ≤ sent.bytes ∧
          (.job (.took 0) ∈ es → opts.tcpChunk ≠ 0 → received.bytes = sent.bytes)) := by
  constructor
  · intro es s hrun sent received hsent hreceived
    rcases balanced_of_run (tcpUp opts plan capacity) rfl rfl es s hrun with ⟨hbalanced, hdrained⟩
    rcases clientReport_final (tcpUp opts plan capacity)
      (fun b e b' hstep hdone => sendReport_frozen hstep hdone) es s hrun sent hsent with ⟨t, rfl⟩
    rcases serverReport_final (tcpUp opts plan capacity)
      (fun b e b' hstep hdone => recvReport_frozen hstep hdone) es s hrun received hreceived
      with ⟨t', rfl⟩
    rcases reports_balanced hbalanced t t' with ⟨hle, heq⟩
    refine ⟨hle, ?_⟩
    intro heof
    -- `payload_size.max(1)`: the server's buffer is never empty.
    exact heq (hdrained heof (by unfold Server.runTcpUp; simp only; omega))
  · intro es s hrun sent received hsent hreceived
    rcases balanced_of_run (tcpDown opts plan capacity) rfl rfl es s hrun
      with ⟨hbalanced, hdrained⟩
    rcases serverReport_final (tcpDown opts plan capacity)
      (fun b e b' hstep hdone => sendReport_frozen hstep hdone) es s hrun sent hsent with ⟨t, rfl⟩
    rcases clientReport_final (tcpDown opts plan capacity)
      (fun b e b' hstep hdone => recvReport_frozen hstep hdone) es s hrun received hreceived
      with ⟨t', rfl⟩
    rcases reports_balanced hbalanced t t' with ⟨hle, heq⟩
    refine ⟨hle, ?_⟩
    intro heof hchunk
    refine heq (hdrained heof ?_)
    intro hzero
    exact hchunk (UInt64.toNat_inj.mp hzero)

/-- The events of an upload of two bytes that are written one at a time and
    read together. -/
def twoByteUpload : List (ExchangeEvent TcpEvent) :=
  [.job (.recvReading 0), .job (.sendReading 0), .job (.sendReading 1), .job (.wrote 1),
    .job (.sendReading 2), .job (.wrote 1), .job (.sendReading 5), .job .shutdown,
    .job (.took 2), .job (.took 0), .clientEnds 5, .serverEnds 6]

/-- An upload of chunks of two bytes over a connection that holds three. -/
def twoByteBody : Body TcpLink TcpEvent TestReport :=
  tcpUp ⟨.tcp, .up, 5, [], 16, 2⟩ ⟨kindTcpUp, 0, ""⟩ 3

theorem tcp_bytes_conserved_two :
    ∃ s sent received, Machine.runFrom twoByteBody.advance twoByteBody.start twoByteUpload = some s ∧
      twoByteBody.ClientReported twoByteUpload sent ∧
      twoByteBody.ServerReported twoByteUpload received ∧
      sent.bytes = 2 ∧ received.bytes = sent.bytes := by
  have hsent : twoByteBody.ClientReported twoByteUpload { bytes := 2, durationActualNs := 5 } :=
    ⟨twoByteUpload.take 10, 5, [.serverEnds 6], _, rfl, rfl, rfl⟩
  have hreceived : twoByteBody.ServerReported twoByteUpload { bytes := 2, durationActualNs := 6 } :=
    ⟨twoByteUpload.take 11, 6, [], _, rfl, rfl, rfl⟩
  refine ⟨_, _, _, rfl, hsent, hreceived, rfl, ?_⟩
  exact ((tcp_bytes_conserved ⟨.tcp, .up, 5, [], 16, 2⟩ ⟨kindTcpUp, 0, ""⟩ 3).1 twoByteUpload _ rfl
    _ _ hsent hreceived).2 (by simp [twoByteUpload])

end ProxyPen
