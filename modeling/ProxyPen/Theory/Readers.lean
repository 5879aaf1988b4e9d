import ProxyPen.Lib.Contract
import ProxyPen.Theory.Messages

/-!
# Contracts of the Readers

Every message is read by a program that does nothing but read, so in a
contract only what it takes matters. A reader of fixed-width fields takes the
bytes of the value it returns and no others, whatever they are.

## Theorems

* `onlyReads_readU8` and its kin: Readers only read.
* `takes_readU8_iff`, `takes_handshake_iff`, `takes_request_iff`,
  `takes_report_iff`: What a reader takes.
* `keeps_readU8`: A byte in a contract.
-/

namespace ProxyPen

open Protocol Proc

section

variable {κ ε α : Type}

theorem onlyReads_int (w : Nat) (f : Bytes → α) :
    OnlyReads (Proc.read w >>= fun b => (pure (f b) : Proc κ ε α)) :=
  onlyReads_bind (onlyReads_read w) (fun b => OnlyReads.ret (f b))

theorem onlyReads_readU8 : OnlyReads (readU8 : Proc κ ε UInt8) := onlyReads_int 1 _

theorem onlyReads_readU32 : OnlyReads (readU32 : Proc κ ε UInt32) := onlyReads_int 4 _

theorem onlyReads_readU64 : OnlyReads (readU64 : Proc κ ε UInt64) := onlyReads_int 8 _

theorem onlyReads_handshake : OnlyReads (readHandshake : Proc κ ε Unit) := by
  refine onlyReads_bind (onlyReads_read 8) (fun m => onlyReads_ite (OnlyReads.fail _) ?_)
  exact onlyReads_bind onlyReads_readU8
    (fun v => onlyReads_ite (OnlyReads.fail _) (OnlyReads.ret ()))

theorem onlyReads_request : OnlyReads (TestRequest.read : Proc κ ε TestRequest) := by
  refine onlyReads_bind onlyReads_readU8 (fun kind => ?_)
  refine onlyReads_bind onlyReads_readU32 (fun durationMs => ?_)
  refine onlyReads_bind onlyReads_readU32 (fun payloadSize => ?_)
  refine onlyReads_bind onlyReads_readU64 (fun bandwidthBps => ?_)
  exact onlyReads_bind onlyReads_readU64 (fun expectedPackets => OnlyReads.ret _)

theorem onlyReads_readU16 : OnlyReads (readU16 : Proc κ ε UInt16) := onlyReads_int 2 _

theorem onlyReads_response : OnlyReads (TestResponse.read : Proc κ ε TestResponse) := by
  refine onlyReads_bind onlyReads_readU8 (fun status => ?_)
  refine onlyReads_bind onlyReads_readU16 (fun dataPort => ?_)
  refine onlyReads_bind onlyReads_readU16 (fun errLen => ?_)
  exact onlyReads_bind (onlyReads_read errLen.toNat) (fun errBuf => OnlyReads.ret _)

theorem onlyReads_report : OnlyReads (TestReport.read : Proc κ ε TestReport) := by
  unfold TestReport.read
  -- Ten counters, one after the other.
  repeat' first
    | exact OnlyReads.ret _
    | refine onlyReads_bind onlyReads_readU64 (fun _ => ?_)

/-! ## What a reader takes -/

theorem takes_readU8_iff (bs : Bytes) (v : UInt8) :
    Takes (readU8 : Proc κ ε UInt8) bs v ↔ bs = [v] := by
  have hbyte : beBytes 1 v.toNat = [v] := by
    rw [beBytes, beBytes, pow_zero, Nat.div_one, UInt8.ofNat_toNat]
  rw [takes_iff_readFrom onlyReads_readU8, readFrom_readU8, List.append_nil, hbyte]

theorem takes_handshake_iff (bs : Bytes) :
    Takes (readHandshake : Proc κ ε Unit) bs () ↔ bs = Msg.handshake.bytes := by
  rw [takes_iff_readFrom onlyReads_handshake, readFrom_handshake, List.append_nil]

theorem takes_request_iff (bs : Bytes) (r : TestRequest) :
    Takes (TestRequest.read : Proc κ ε TestRequest) bs r ↔ bs = (Msg.request r).bytes := by
  rw [takes_iff_readFrom onlyReads_request, readFrom_request, List.append_nil]

theorem takes_report_iff (bs : Bytes) (r : TestReport) :
    Takes (TestReport.read : Proc κ ε TestReport) bs r ↔
      r.InRange ∧ bs = (Msg.report r).bytes := by
  rw [takes_iff_readFrom onlyReads_report, readFrom_report, List.append_nil]

/-! ## Readers in a contract -/

variable {β : Type} {J : κ → Trail ε → Prop} {P Q : Trail ε → Prop} {R : β → Trail ε → Prop}

theorem keeps_readU8 {f : UInt8 → Proc κ ε β} {t : Trail ε} (hQ : ∀ bs, Q (t.read bs))
    (hf : ∀ v, (f v).Keeps J P Q R (t.read [v])) : (readU8 >>= f).Keeps J P Q R t :=
  keeps_reader onlyReads_readU8 hQ (fun bs v h => (takes_readU8_iff bs v).mp h ▸ hf v)

end

end ProxyPen
