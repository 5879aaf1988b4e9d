import ProxyPen.Core.Session
import ProxyPen.Theory.Text

/-!
# Control Messages on the Wire

Every control message has one byte string. Its writer puts exactly that string
on the stream, and its reader takes exactly that string off and returns the
message. The two are facts about programs, not about byte strings handed over
whole, so they hold however the bytes are cut on the way.

The text of a response is cut at `65535` bytes. A text that fits is read back
as it is; of a longer one, the lossy decoding of what the cut has left.

## Main definitions

* `Msg.bytes`: The byte string of a message.
* `TestResponse.received`: A response as the other side reads it.

## Theorems

* `puts_handshake`, `puts_request`, `puts_response`, `puts_report`: Writers.
* `takes_handshake`, `takes_request`, `takes_response`, `takes_report`:
  Readers.
* `bytes_pos`: No message is empty.
-/

namespace ProxyPen

open Protocol Proc

/-- The byte string of a control message. -/
def Msg.bytes : Msg → Bytes
  | .handshake => magic ++ beBytes 1 version.toNat
  | .request r =>
      beBytes 1 r.kind.toNat ++ (beBytes 4 r.durationMs.toNat ++ (beBytes 4 r.payloadSize.toNat ++
        (beBytes 8 r.bandwidthBps.toNat ++ beBytes 8 r.expectedPackets.toNat)))
  | .response r =>
      let text := (strBytes r.error).take (min (strBytes r.error).length 65535)
      beBytes 1 r.status.toNat ++ (beBytes 2 r.dataPort.toNat ++
        (beBytes 2 (UInt16.ofNat text.length).toNat ++ text))
  | .report r => r.fields.flatMap (fun n => beBytes 8 (UInt64.ofNat n).toNat)

/-- A response as the other side reads it: the cut of a long text may have
    split its last character. -/
def Protocol.TestResponse.received (r : TestResponse) : TestResponse :=
  if (strBytes r.error).length ≤ 65535 then r
  else { r with error := fromUtf8Lossy ((strBytes r.error).take 65535) }

theorem bytes_pos (m : Msg) : 0 < m.bytes.length := by
  cases m with
  | handshake => decide
  | request r =>
      simp only [Msg.bytes, List.length_append, beBytes_length]
      omega
  | response r =>
      simp only [Msg.bytes, List.length_append, beBytes_length]
      omega
  | report r =>
      simp only [Msg.bytes, TestReport.fields, List.flatMap_cons, List.length_append,
        beBytes_length]
      omega

section

variable {κ ε : Type}

/-! ## Writers -/

theorem puts_handshake : Puts (writeHandshake : Proc κ ε Unit) Msg.handshake.bytes :=
  puts_bind _ _ _ _ (puts_write _) (puts_write _)

theorem puts_request (r : TestRequest) :
    Puts (r.write : Proc κ ε Unit) (Msg.request r).bytes :=
  puts_bind _ _ _ _ (puts_write _) (puts_bind _ _ _ _ (puts_write _)
    (puts_bind _ _ _ _ (puts_write _) (puts_bind _ _ _ _ (puts_write _) (puts_write _))))

theorem puts_response (r : TestResponse) :
    Puts (r.write : Proc κ ε Unit) (Msg.response r).bytes := by
  have hlen : ((strBytes r.error).take (min (strBytes r.error).length 65535)).length
      = min (strBytes r.error).length 65535 := by
    rw [List.length_take]
    omega
  rw [Msg.bytes]
  -- The length field announces what the cut has left.
  simp only [hlen]
  exact puts_bind _ _ _ _ (puts_write _) (puts_bind _ _ _ _ (puts_write _)
    (puts_bind _ _ _ _ (puts_write _) (puts_write _)))

theorem puts_report (r : TestReport) : Puts (r.write : Proc κ ε Unit) (Msg.report r).bytes := by
  simp only [Msg.bytes, TestReport.fields, List.flatMap_cons, List.flatMap_nil, List.append_nil]
  exact puts_bind _ _ _ _ (puts_write _) (puts_bind _ _ _ _ (puts_write _)
    (puts_bind _ _ _ _ (puts_write _) (puts_bind _ _ _ _ (puts_write _)
    (puts_bind _ _ _ _ (puts_write _) (puts_bind _ _ _ _ (puts_write _)
    (puts_bind _ _ _ _ (puts_write _) (puts_bind _ _ _ _ (puts_write _)
    (puts_bind _ _ _ _ (puts_write _) (puts_write _)))))))))

/-! ## Readers -/

/-- Reading a fixed number of bytes and converting them. -/
theorem takes_convert {α : Type} (w : Nat) (bs : Bytes) (hw : bs.length = w) (f : Bytes → α) :
    Takes (Proc.read w >>= fun b => (pure (f b) : Proc κ ε α)) bs (f bs) := by
  subst hw
  have h := takes_bind _ (fun b => (pure (f b) : Proc κ ε α)) bs [] bs (f bs) (takes_read bs)
    (Takes.ret (f bs))
  rwa [List.append_nil] at h

/-- Reading a fixed-width integer gives back the integer that was written. -/
theorem takes_int {α : Type} (w : Nat) (toNat : α → Nat) (ofNat : Nat → α) (v : α)
    (hlt : toNat v < 256 ^ w) (hinv : ofNat (toNat v) = v) :
    Takes (Proc.read w >>= fun b => (pure (ofNat (beNat b)) : Proc κ ε α)) (beBytes w (toNat v))
      v := by
  have h := takes_convert (κ := κ) (ε := ε) w (beBytes w (toNat v)) (beBytes_length _ _)
    (fun b => ofNat (beNat b))
  rwa [beNat_beBytes_of_lt w (toNat v) hlt, hinv] at h

theorem takes_readU8 (v : UInt8) : Takes (readU8 : Proc κ ε UInt8) (beBytes 1 v.toNat) v :=
  takes_int 1 UInt8.toNat UInt8.ofNat v v.toNat_lt UInt8.ofNat_toNat

theorem takes_readU16 (v : UInt16) : Takes (readU16 : Proc κ ε UInt16) (beBytes 2 v.toNat) v :=
  takes_int 2 UInt16.toNat UInt16.ofNat v v.toNat_lt UInt16.ofNat_toNat

theorem takes_readU32 (v : UInt32) : Takes (readU32 : Proc κ ε UInt32) (beBytes 4 v.toNat) v :=
  takes_int 4 UInt32.toNat UInt32.ofNat v v.toNat_lt UInt32.ofNat_toNat

theorem takes_readU64 (v : UInt64) : Takes (readU64 : Proc κ ε UInt64) (beBytes 8 v.toNat) v :=
  takes_int 8 UInt64.toNat UInt64.ofNat v v.toNat_lt UInt64.ofNat_toNat

theorem takes_handshake : Takes (readHandshake : Proc κ ε Unit) Msg.handshake.bytes () := by
  refine takes_bind _ _ magic _ magic () (takes_read magic) ?_
  -- The magic is the expected one, and so is the version behind it.
  rw [if_neg (fun h => h rfl)]
  have h := takes_bind (readU8 : Proc κ ε UInt8) (fun v =>
    if v ≠ version then
      Proc.fail ("bench handshake: unsupported version " ++ toString v.toNat)
    else (pure () : Proc κ ε Unit)) (beBytes 1 version.toNat) [] version () (takes_readU8 version)
    (by rw [if_neg (fun h => h rfl)]; exact Takes.ret ())
  rwa [List.append_nil] at h

theorem takes_request (r : TestRequest) :
    Takes (TestRequest.read : Proc κ ε TestRequest) (Msg.request r).bytes r := by
  rw [Msg.bytes]
  refine takes_bind _ _ _ _ _ _ (takes_readU8 r.kind) (takes_bind _ _ _ _ _ _
    (takes_readU32 r.durationMs) (takes_bind _ _ _ _ _ _ (takes_readU32 r.payloadSize)
    (takes_bind _ _ _ _ _ _ (takes_readU64 r.bandwidthBps) ?_)))
  have h := takes_bind (readU64 : Proc κ ε UInt64) (fun n =>
    (pure { r with expectedPackets := n } : Proc κ ε TestRequest)) _ [] _ r
    (takes_readU64 r.expectedPackets) (Takes.ret r)
  rwa [List.append_nil] at h

theorem takes_response (r : TestResponse) :
    Takes (TestResponse.read : Proc κ ε TestResponse) (Msg.response r).bytes r.received := by
  have hlen : (UInt16.ofNat ((strBytes r.error).take (min (strBytes r.error).length 65535)).length
      ).toNat = ((strBytes r.error).take (min (strBytes r.error).length 65535)).length := by
    apply UInt16.toNat_ofNat_of_lt'
    show _ < 65536
    rw [List.length_take]
    omega
  -- Cutting a text that fits leaves all of it.
  have htext : r.received = ⟨r.status, r.dataPort,
      fromUtf8Lossy ((strBytes r.error).take (min (strBytes r.error).length 65535))⟩ := by
    unfold TestResponse.received
    by_cases hfits : (strBytes r.error).length ≤ 65535
    · rw [if_pos hfits, Nat.min_eq_left hfits, List.take_length, fromUtf8Lossy_strBytes]
    · rw [if_neg hfits, Nat.min_eq_right (by omega)]
  rw [Msg.bytes, htext]
  refine takes_bind _ _ _ _ _ _ (takes_readU8 r.status) (takes_bind _ _ _ _ _ _
    (takes_readU16 r.dataPort) (takes_bind _ _ _ _ _ _ (takes_readU16 _) ?_))
  exact takes_convert _ _ hlen.symm
    (fun b => (⟨r.status, r.dataPort, fromUtf8Lossy b⟩ : TestResponse))

/-- A positive response carries no text. -/
theorem takes_response_ok (port : UInt16) :
    Takes (TestResponse.read : Proc κ ε TestResponse) (Msg.response (TestResponse.ok port)).bytes
      (TestResponse.ok port) :=
  takes_response (TestResponse.ok port)

theorem takes_report (r : TestReport) (hr : r.InRange) :
    Takes (TestReport.read : Proc κ ε TestReport) (Msg.report r).bytes r := by
  simp only [Msg.bytes, TestReport.fields, List.flatMap_cons, List.flatMap_nil]
  refine takes_bind _ _ _ _ _ _ (takes_readU64 _) (takes_bind _ _ _ _ _ _ (takes_readU64 _)
    (takes_bind _ _ _ _ _ _ (takes_readU64 _) (takes_bind _ _ _ _ _ _ (takes_readU64 _)
    (takes_bind _ _ _ _ _ _ (takes_readU64 _) (takes_bind _ _ _ _ _ _ (takes_readU64 _)
    (takes_bind _ _ _ _ _ _ (takes_readU64 _) (takes_bind _ _ _ _ _ _ (takes_readU64 _)
    (takes_bind _ _ _ _ _ _ (takes_readU64 _) (takes_bind _ _ _ _ _ _ (takes_readU64 _)
    ?_)))))))))
  -- Counters in range survive the round trip through 64 bits.
  have hfield : ∀ n ∈ r.fields, (UInt64.ofNat n).toNat = n :=
    fun n hn => UInt64.toNat_ofNat_of_lt' (hr n hn)
  simp only [TestReport.fields, List.forall_mem_cons] at hfield
  rcases hfield with ⟨h1, h2, h3, h4, h5, h6, h7, h8, h9, h10, -⟩
  simp only [h1, h2, h3, h4, h5, h6, h7, h8, h9, h10]
  exact Takes.ret r

end

end ProxyPen
