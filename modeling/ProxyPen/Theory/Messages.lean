import ProxyPen.Lib.Stream
import ProxyPen.Theory.Codec

/-!
# Round Trips of the Control Messages

Every control message delimits itself. Its reader takes exactly the bytes its
writer wrote and leaves what follows, so messages written in a row are read
back in a row. In the other direction, a reader of fixed-width fields accepts
nothing but what its writer writes.

## Main definitions

* `MsgKind`: Which message a reader expects.
* `readMsgs`, `writeMsgs`: Messages in a row.
* `Msg.received`: A message as the other side reads it.

## Theorems

* `readFrom_handshake`, `readFrom_request`, `readFrom_report`: What a reader
  accepts.
* `takes_msgs`: Reading messages in a row.
* `messages_round_trip`: Writers and readers agree.
-/

namespace ProxyPen

open Protocol Proc

section

variable {κ ε : Type}

/-! ## What a reader accepts -/

theorem readFrom_readU8 (inp rest : Bytes) (v : UInt8) :
    readFrom (readU8 : Proc κ ε UInt8) inp = some (v, rest) ↔ inp = beBytes 1 v.toNat ++ rest :=
  readFrom_int 1 UInt8.toNat UInt8.ofNat UInt8.toNat_lt (fun _ => UInt8.ofNat_toNat)
    (fun _ h => UInt8.toNat_ofNat_of_lt' h) inp rest v

theorem readFrom_readU32 (inp rest : Bytes) (v : UInt32) :
    readFrom (readU32 : Proc κ ε UInt32) inp = some (v, rest) ↔ inp = beBytes 4 v.toNat ++ rest :=
  readFrom_int 4 UInt32.toNat UInt32.ofNat UInt32.toNat_lt (fun _ => UInt32.ofNat_toNat)
    (fun _ h => UInt32.toNat_ofNat_of_lt' h) inp rest v

theorem readFrom_readU64 (inp rest : Bytes) (v : UInt64) :
    readFrom (readU64 : Proc κ ε UInt64) inp = some (v, rest) ↔ inp = beBytes 8 v.toNat ++ rest :=
  readFrom_int 8 UInt64.toNat UInt64.ofNat UInt64.toNat_lt (fun _ => UInt64.ofNat_toNat)
    (fun _ h => UInt64.toNat_ofNat_of_lt' h) inp rest v

/-- The handshake reader accepts the nine bytes of the handshake and nothing else. -/
theorem readFrom_handshake (inp rest : Bytes) :
    readFrom (readHandshake : Proc κ ε Unit) inp = some ((), rest) ↔
      inp = Msg.handshake.bytes ++ rest := by
  constructor
  · intro h
    rcases (readFrom_bind _ _ inp rest ()).mp h with ⟨m, mid, hm, hrest⟩
    rcases (readFrom_read 8 m inp mid).mp hm with ⟨-, rfl⟩
    by_cases hmagic : m = magic
    · rw [if_neg (fun hc => hc hmagic)] at hrest
      rcases (readFrom_bind _ _ mid rest ()).mp hrest with ⟨v, mid', hv, hend⟩
      rw [readFrom_readU8] at hv
      by_cases hversion : v = version
      · rw [if_neg (fun hc => hc hversion), readFrom_pure] at hend
        rw [hmagic, hv, hversion, hend.2, Msg.bytes, List.append_assoc]
      · rw [if_pos hversion] at hend
        exact absurd hend (by simp only [readFrom, reduceCtorEq, not_false_eq_true])
    · rw [if_pos hmagic] at hrest
      exact absurd hrest (by simp only [readFrom, reduceCtorEq, not_false_eq_true])
  · intro h
    rw [h]
    exact readFrom_of_takes takes_handshake rest

theorem readFrom_request (inp rest : Bytes) (r : TestRequest) :
    readFrom (TestRequest.read : Proc κ ε TestRequest) inp = some (r, rest) ↔
      inp = (Msg.request r).bytes ++ rest := by
  constructor
  · intro h
    unfold TestRequest.read at h
    simp only [readFrom_bind, readFrom_readU8, readFrom_readU32, readFrom_readU64,
      readFrom_pure] at h
    rcases h with ⟨kind, _, rfl, duration, _, rfl, size, _, rfl, bw, _, rfl, expected, _, rfl, rfl,
      rfl⟩
    simp only [Msg.bytes, List.append_assoc]
  · intro h
    rw [h]
    exact readFrom_of_takes (takes_request r) rest

theorem readFrom_report (inp rest : Bytes) (r : TestReport) :
    readFrom (TestReport.read : Proc κ ε TestReport) inp = some (r, rest) ↔
      r.InRange ∧ inp = (Msg.report r).bytes ++ rest := by
  constructor
  · intro h
    unfold TestReport.read at h
    simp only [readFrom_bind, readFrom_readU64, readFrom_pure] at h
    rcases h with ⟨v1, _, rfl, v2, _, rfl, v3, _, rfl, v4, _, rfl, v5, _, rfl, v6, _, rfl, v7, _,
      rfl, v8, _, rfl, v9, _, rfl, v10, _, rfl, rfl, rfl⟩
    constructor
    · -- Every counter was read as a `u64`.
      simp only [TestReport.InRange, TestReport.fields, List.forall_mem_cons]
      exact ⟨v1.toNat_lt, v2.toNat_lt, v3.toNat_lt, v4.toNat_lt, v5.toNat_lt, v6.toNat_lt,
        v7.toNat_lt, v8.toNat_lt, v9.toNat_lt, v10.toNat_lt,
        fun n hn => absurd hn List.not_mem_nil⟩
    · simp only [Msg.bytes, TestReport.fields, List.flatMap_cons, List.flatMap_nil,
        UInt64.ofNat_toNat, List.append_assoc, List.nil_append]
  · intro h
    rw [h.2]
    exact readFrom_of_takes (takes_report r h.1) rest

/-! ## Messages in a row -/

inductive MsgKind where
  | handshake
  | request
  | response
  | report
  deriving DecidableEq, Repr

def Msg.kind : Msg → MsgKind
  | .handshake => .handshake
  | .request _ => .request
  | .response _ => .response
  | .report _ => .report

def Msg.write : Msg → Proc κ ε Unit
  | .handshake => writeHandshake
  | .request r => r.write
  | .response r => r.write
  | .report r => r.write

def MsgKind.read : MsgKind → Proc κ ε Msg
  | .handshake => do
      readHandshake
      return .handshake
  | .request => do return .request (← TestRequest.read)
  | .response => do return .response (← TestResponse.read)
  | .report => do return .report (← TestReport.read)

def writeMsgs : List Msg → Proc κ ε Unit
  | [] => return ()
  | m :: ms => do
      m.write
      writeMsgs ms

def readMsgs : List MsgKind → Proc κ ε (List Msg)
  | [] => return []
  | k :: ks => do
      let m ← k.read
      let ms ← readMsgs ks
      return m :: ms

/-- The counters of a report are `u64`. -/
def Msg.InRange : Msg → Prop
  | .report r => r.InRange
  | _ => True

/-- A message as the other side reads it. -/
def Msg.received : Msg → Msg
  | .response r => .response r.received
  | m => m

theorem puts_msg (m : Msg) : Puts (m.write : Proc κ ε Unit) m.bytes := by
  rcases m with _ | r | r | r
  · exact puts_handshake
  · exact puts_request r
  · exact puts_response r
  · exact puts_report r

theorem puts_msgs (ms : List Msg) :
    Puts (writeMsgs ms : Proc κ ε Unit) (ms.flatMap Msg.bytes) := by
  induction ms with
  | nil => exact Puts.ret
  | cons m ms ih =>
      rw [List.flatMap_cons]
      exact puts_bind _ _ _ _ (puts_msg m) ih

/-- A reader followed by a return. -/
theorem takes_map {α β : Type} {p : Proc κ ε α} {bs : Bytes} {a : α} (h : Takes p bs a)
    (f : α → β) : Takes (p >>= fun x => (pure (f x) : Proc κ ε β)) bs (f a) := by
  have hbind := takes_bind p (fun x => (pure (f x) : Proc κ ε β)) bs [] a (f a) h (Takes.ret _)
  rwa [List.append_nil] at hbind

theorem takes_msg (m : Msg) (hm : m.InRange) :
    Takes (m.kind.read : Proc κ ε Msg) m.bytes m.received := by
  rcases m with _ | r | r | r
  · exact takes_map takes_handshake (fun _ => Msg.handshake)
  · exact takes_map (takes_request r) Msg.request
  · exact takes_map (takes_response r) Msg.response
  · exact takes_map (takes_report r hm) Msg.report

theorem takes_msgs (ms : List Msg) (hms : ∀ m ∈ ms, m.InRange) :
    Takes (readMsgs (ms.map Msg.kind) : Proc κ ε (List Msg)) (ms.flatMap Msg.bytes)
      (ms.map Msg.received) := by
  induction ms with
  | nil => exact Takes.ret _
  | cons m ms ih =>
      rw [List.map_cons, List.flatMap_cons, List.map_cons]
      have hrest := ih (fun m' hm' => hms m' (List.mem_cons_of_mem m hm'))
      exact takes_bind _ _ _ _ _ _ (takes_msg m (hms m List.mem_cons_self))
        (takes_map hrest (fun ms' => m.received :: ms'))

end

/-- Nothing but a long text comes out different. -/
theorem map_received {ms : List Msg}
    (h : ∀ r, .response r ∈ ms → (strBytes r.error).length ≤ 65535) :
    ms.map Msg.received = ms := by
  refine (List.map_congr_left ?_).trans (List.map_id ms)
  intro m hm
  rcases m with _ | r | r | r
  · rfl
  · rfl
  · rw [Msg.received, TestResponse.received, if_pos (h r hm), id_eq]
  · rfl

/-- Writers and readers of the control messages agree. A reader takes what the
    writer wrote off the front of any stream; the text of a response comes
    back whole if it fits, and cut otherwise. A reader of a request, a report
    or the handshake takes nothing its writer does not write. Messages in a
    row are read back in a row. -/
theorem messages_round_trip (κ ε : Type) :
    (∀ (r : TestRequest) (rest : Bytes),
      readFrom (TestRequest.read : Proc κ ε _) (written (r.write : Proc κ ε _) ++ rest)
        = some (r, rest)) ∧
    (∀ (r : TestReport) (rest : Bytes), r.InRange →
      readFrom (TestReport.read : Proc κ ε _) (written (r.write : Proc κ ε _) ++ rest)
        = some (r, rest)) ∧
    (∀ (r : TestResponse) (rest : Bytes),
      ((strBytes r.error).length ≤ 65535 →
        readFrom (TestResponse.read : Proc κ ε _) (written (r.write : Proc κ ε _) ++ rest)
          = some (r, rest)) ∧
      (65535 < (strBytes r.error).length →
        readFrom (TestResponse.read : Proc κ ε _) (written (r.write : Proc κ ε _) ++ rest)
          = some (⟨r.status, r.dataPort, fromUtf8Lossy ((strBytes r.error).take 65535)⟩, rest))) ∧
    (∀ (inp rest : Bytes) (r : TestRequest),
      readFrom (TestRequest.read : Proc κ ε _) inp = some (r, rest) →
        inp = written (r.write : Proc κ ε _) ++ rest) ∧
    (∀ (inp rest : Bytes) (r : TestReport),
      readFrom (TestReport.read : Proc κ ε _) inp = some (r, rest) →
        r.InRange ∧ inp = written (r.write : Proc κ ε _) ++ rest) ∧
    ((written (writeHandshake : Proc κ ε _)).length = 9 ∧
      ∀ inp rest : Bytes, readFrom (readHandshake : Proc κ ε _) inp = some ((), rest) ↔
        inp = written (writeHandshake : Proc κ ε _) ++ rest) ∧
    ∀ (ms : List Msg) (rest : Bytes), (∀ m ∈ ms, m.InRange) →
      readFrom (readMsgs (ms.map Msg.kind) : Proc κ ε _)
          (written (writeMsgs ms : Proc κ ε _) ++ rest)
        = some (ms.map Msg.received, rest) ∧
      ((∀ r, .response r ∈ ms → (strBytes r.error).length ≤ 65535) →
        ms.map Msg.received = ms) := by
  refine ⟨?_, ?_, ?_, ?_, ?_, ⟨?_, ?_⟩, ?_⟩
  · intro r rest
    rw [written_of_puts (puts_request r)]
    exact readFrom_of_takes (takes_request r) rest
  · intro r rest hr
    rw [written_of_puts (puts_report r)]
    exact readFrom_of_takes (takes_report r hr) rest
  · intro r rest
    have hread : readFrom (TestResponse.read : Proc κ ε _) (written (r.write : Proc κ ε _) ++ rest)
        = some (r.received, rest) := by
      rw [written_of_puts (puts_response r)]
      exact readFrom_of_takes (takes_response r) rest
    constructor
    · intro hfits
      rw [hread, TestResponse.received, if_pos hfits]
    · intro hlong
      rw [hread, TestResponse.received, if_neg (by omega)]
  · intro inp rest r h
    rw [written_of_puts (puts_request r)]
    exact (readFrom_request inp rest r).mp h
  · intro inp rest r h
    rw [written_of_puts (puts_report r)]
    exact (readFrom_report inp rest r).mp h
  · rw [written_of_puts puts_handshake]
    rfl
  · intro inp rest
    rw [written_of_puts puts_handshake]
    exact readFrom_handshake inp rest
  · intro ms rest hms
    rw [written_of_puts (puts_msgs ms)]
    exact ⟨readFrom_of_takes (takes_msgs ms hms) rest, map_received⟩

/-- A request that is refused with a text. -/
def refusal : List Msg :=
  [.handshake, .request TestRequest.close, .response (TestResponse.err "größer")]

theorem messages_round_trip_refusal :
    readFrom (readMsgs (refusal.map Msg.kind) : Proc Empty Empty _)
        (written (writeMsgs refusal : Proc Empty Empty _) ++ [7]) = some (refusal, [7]) := by
  have hrange : ∀ m ∈ refusal, m.InRange := by
    simp only [refusal, List.forall_mem_cons, Msg.InRange, true_and]
    exact fun m hm => absurd hm List.not_mem_nil
  have h := (messages_round_trip Empty Empty).2.2.2.2.2.2 refusal [7] hrange
  rw [h.1, h.2]
  intro r hr
  simp only [refusal, List.mem_cons, reduceCtorEq, Msg.response.injEq, List.not_mem_nil, or_false,
    false_or] at hr
  rw [hr]
  decide

end ProxyPen
