import Mathlib.Tactic.Ring
import ProxyPen.Core.Sender
import ProxyPen.Lib.Rate

/-!
# Paced Sending

The send loops never outrun their target rate. `SendInv` is the invariant of
both of them: the packets sent so far are numbered consecutively, carry
timestamps that never go back, and are at most what the pacer allowed at its
latest reading, the client's hello being the one packet sent without asking.

Inside the inner loop the bound is a fact about a number computed earlier:
`due` was read from the pacer before the first of a batch of sends, and the
loop condition compares against it. The invariant therefore says at the three
program points of the inner loop that `due` is still the pacer's latest
answer. Between batches the clock only moves on, and a later reading allows at
least as much, which is `targetPackets_mono`.

## Main definitions

* `SendPc.due?`: The `due` of the inner loop's program points.
* `SendPc.idle`: The program points the invariant says nothing about.
* `seqOf`, `sendTsOf`: The header fields of a datagram.
* `SendInv`: The invariant of a send loop.

## Theorems

* `targetPackets_mono`: The pacer's answer never decreases with time.
* `targetPackets_mul_le`: The packets due fit the rate.
* `sendInv_step`: Every transition keeps the invariant.
* `sendInv_of_reachable`: The invariant of reachable states.
* `paced_sending`: The rate bound, the numbering and the report of both loops.
-/

namespace ProxyPen

open Protocol Socks

theorem u128Mul_of_lt (a b : Nat) (h : a * b < 2 ^ 128) : u128Mul a b = a * b :=
  Nat.mod_eq_of_lt h

namespace Pacer

variable {bw : UInt64} {size : Nat}

/-- The product of two 64-bit numbers fits 128 bits. -/
theorem elapsed_mul_lt {t : Nat} (ht : t < 2 ^ 64) (bandwidthBps : UInt64) :
    t * bandwidthBps.toNat < 2 ^ 128 := by
  have h := Nat.mul_lt_mul_of_lt_of_lt ht bandwidthBps.toNat_lt
  rwa [← pow_add] at h

/-- On a 64-bit clock no product of `target_packets_now` wraps. -/
theorem targetPackets_eq (hbw : bw ≠ 0) (hpos : 0 < size) (hsize : size < 2 ^ 64) (t : Nat)
    (ht : t < 2 ^ 64) :
    targetPackets bw size t = min (t * bw.toNat / (size * 8 * 1000000000)) u64Max := by
  have hbits : u128Mul size 8 = size * 8 := u128Mul_of_lt _ _ (by omega)
  rw [targetPackets, if_neg hbw, hbits, if_neg (by omega), u128Mul_of_lt _ _ (elapsed_mul_lt ht bw),
    u128Mul_of_lt (size * 8) _ (by omega)]

/-- A later reading allows at least as many packets. -/
theorem targetPackets_mono (hpos : 0 < size) (hsize : size < 2 ^ 64) (t t' : Nat) (hle : t ≤ t')
    (ht : t' < 2 ^ 64) : targetPackets bw size t ≤ targetPackets bw size t' := by
  by_cases hbw : bw = 0
  · rw [targetPackets, targetPackets, if_pos hbw, if_pos hbw]
  · rw [targetPackets_eq hbw hpos hsize t (by omega), targetPackets_eq hbw hpos hsize t' ht]
    exact Rate.count_mono hle

/-- The packets due by an elapsed time fit the rate. -/
theorem targetPackets_mul_le (hbw : bw ≠ 0) (hpos : 0 < size) (hsize : size < 2 ^ 64) (t : Nat)
    (ht : t < 2 ^ 64) :
    targetPackets bw size t * (size * 8 * 1000000000) ≤ bw.toNat * t := by
  rw [targetPackets_eq hbw hpos hsize t ht, Nat.mul_comm bw.toNat]
  exact Rate.mul_le_of_le_count (Nat.le_refl _)

theorem targetPackets_le_u64Max (t : Nat) : targetPackets bw size t ≤ u64Max := by
  unfold targetPackets
  split
  · exact Nat.le_refl _
  · split
    · exact Nat.le_refl _
    · exact Nat.min_le_right _ _

end Pacer

open Pacer

/-- The `due` a program point of the inner loop works towards. -/
def SendPc.due? : SendPc → Option Nat
  | .check n => some n
  | .stamp n => some n
  | .send n => some n
  | _ => none

/-- The program points no clause of the invariant speaks about. -/
def SendPc.idle : SendPc → Bool
  | .top => true
  | .due => true
  | .sleep => true
  | .done => true
  | .failed => true
  | .panicked => true
  | _ => false

/-- The sequence number a datagram carries. -/
def seqOf (d : Bytes) : Option Nat := (decodeUdpHeader d).map Prod.fst

/-- The send timestamp a datagram carries. -/
def sendTsOf (d : Bytes) : Nat := ((decodeUdpHeader d).map Prod.snd).getD 0

theorem seqOf_encode (buf : Bytes) (seq ts : Nat) (hseq : seq < 2 ^ 64) (hts : ts < 2 ^ 64) :
    seqOf (encodeUdpHeader buf seq ts) = some seq := by
  rw [seqOf, decodeUdpHeader_encode buf seq ts hseq hts, Option.map_some]

theorem sendTsOf_encode (buf : Bytes) (seq ts : Nat) (hseq : seq < 2 ^ 64) (hts : ts < 2 ^ 64) :
    sendTsOf (encodeUdpHeader buf seq ts) = ts := by
  rw [sendTsOf, decodeUdpHeader_encode buf seq ts hseq hts, Option.map_some, Option.getD_some]

namespace Sender

/-- The packets a loop may send without asking the pacer. -/
def free (c : Sender) : Nat := if c.sendsHello then 1 else 0

/-- What the pacer answered at its latest reading. -/
def allowed (c : Sender) (s : SendState) : Nat := targetPackets c.bandwidthBps c.size s.paced

theorem size_pos (c : Sender) : 0 < c.size := Nat.lt_of_lt_of_le (by decide) c.size_ge

end Sender

/-- The invariant of a send loop. -/
structure SendInv (c : Sender) (s : SendState) : Prop where
  now_le : s.now ≤ clockMax
  session_le : s.sessionStart ≤ s.now
  pacer_le : s.pacerStart ≤ s.now
  paced_le : s.paced ≤ s.now - s.pacerStart
  opening : s.pc = .start ∨ s.pc = .hello ∨ s.pc = .pacer → s.paced = 0
  fresh : s.pc = .start → s.sent = []
  greets : s.pc = .hello → c.sendsHello = true
  buf_len : s.buf.length = c.size
  bytes_eq : s.bytes = s.seq * c.size
  seq_le : s.seq ≤ max c.free (c.allowed s)
  /-- the inner loop works towards the pacer's latest answer -/
  due_eq : ∀ due, s.pc.due? = some due → due = c.allowed s ∧ s.seq < due
  /-- the buffer about to be sent carries the next number -/
  ready : ∀ due, s.pc = .send due → seqOf s.buf = some s.seq ∧
    sendTsOf s.buf ≤ s.now - s.sessionStart ∧ ∀ d ∈ s.sent, sendTsOf d ≤ sendTsOf s.buf
  lengths : ∀ d ∈ s.sent, d.length = c.size
  numbered : s.sent.map seqOf = (List.range s.seq).map some
  stamped : (s.sent.map sendTsOf).Pairwise (· ≤ ·)
  stamps_le : ∀ d ∈ s.sent, sendTsOf d ≤ s.now - s.sessionStart

theorem sendInv_init (c : Sender) : SendInv c c.init where
  now_le := Nat.zero_le _
  session_le := Nat.le_refl _
  pacer_le := Nat.le_refl _
  paced_le := Nat.le_refl _
  opening _ := rfl
  fresh _ := rfl
  greets h := by simp only [Sender.init, reduceCtorEq] at h
  buf_len := List.length_replicate
  bytes_eq := (Nat.zero_mul _).symm
  seq_le := Nat.zero_le _
  due_eq due h := by simp only [Sender.init, SendPc.due?, reduceCtorEq] at h
  ready due h := by simp only [Sender.init, reduceCtorEq] at h
  lengths d h := by simp only [Sender.init, List.not_mem_nil] at h
  numbered := rfl
  stamped := List.Pairwise.nil
  stamps_le d h := by simp only [Sender.init, List.not_mem_nil] at h

/-- Moving to an idle program point at a later clock reading keeps the
    invariant. -/
theorem sendInv_idle (c : Sender) (s : SendState) (pc : SendPc) (t : Nat) (h : SendInv c s)
    (hidle : pc.idle = true) (hnow : s.now ≤ t) (hmax : t ≤ clockMax) :
    SendInv c { s with pc := pc, now := t } where
  now_le := hmax
  session_le := Nat.le_trans h.session_le hnow
  pacer_le := Nat.le_trans h.pacer_le hnow
  paced_le := Nat.le_trans h.paced_le (Nat.sub_le_sub_right hnow _)
  opening hpc := by
    rcases hpc with rfl | rfl | rfl <;> simp only [SendPc.idle, Bool.false_eq_true] at hidle
  fresh hpc := by
    subst hpc
    simp only [SendPc.idle, Bool.false_eq_true] at hidle
  greets hpc := by
    subst hpc
    simp only [SendPc.idle, Bool.false_eq_true] at hidle
  buf_len := h.buf_len
  bytes_eq := h.bytes_eq
  seq_le := h.seq_le
  due_eq due hdue := by
    cases pc <;> simp only [SendPc.due?, SendPc.idle, reduceCtorEq, Bool.false_eq_true] at hdue hidle
  ready due hpc := by
    subst hpc
    simp only [SendPc.idle, Bool.false_eq_true] at hidle
  lengths := h.lengths
  numbered := h.numbered
  stamped := h.stamped
  stamps_le d hd := Nat.le_trans (h.stamps_le d hd) (Nat.sub_le_sub_right hnow _)

/-- Moving within the inner loop, short of the send, keeps the invariant as
    long as there is still a packet due. -/
theorem sendInv_inner (c : Sender) (s : SendState) (pc : SendPc) (due : Nat) (h : SendInv c s)
    (hpc : pc.due? = some due) (hsend : ∀ n, pc ≠ .send n) (hdue : due = c.allowed s)
    (hlt : s.seq < due) : SendInv c { s with pc := pc } := by
  refine { h with opening := ?_, fresh := ?_, greets := ?_, due_eq := ?_, ready := ?_ }
  · intro hopen
    rcases hopen with rfl | rfl | rfl <;> simp only [SendPc.due?, reduceCtorEq] at hpc
  · intro hstart
    subst hstart
    simp only [SendPc.due?, reduceCtorEq] at hpc
  · intro hhello
    subst hhello
    simp only [SendPc.due?, reduceCtorEq] at hpc
  · intro due' hdue'
    have heq : due = due' := Option.some.inj (hpc.symm.trans hdue')
    exact heq ▸ ⟨hdue, hlt⟩
  · intro n hn
    exact absurd hn (hsend n)

/-- Evaluating the inner loop's condition against the pacer's latest answer
    keeps the invariant. -/
theorem sendInv_guard (c : Sender) (s : SendState) (due : Nat) (h : SendInv c s)
    (hdue : due = c.allowed s) : SendInv c { s with pc := Sender.guard s.seq due } := by
  by_cases hlt : s.seq < due
  · rw [Sender.guard, if_pos hlt]
    exact sendInv_inner c s _ due h rfl (fun n hn => by cases hn) hdue hlt
  · rw [Sender.guard, if_neg hlt]
    exact sendInv_idle c s .sleep s.now h rfl (Nat.le_refl _) h.now_le

/-- A number the inner loop is about to send fits a header. -/
theorem seq_lt_of_due (c : Sender) (s : SendState) (due : Nat) (h : SendInv c s)
    (hpc : s.pc.due? = some due) : s.seq < 2 ^ 64 := by
  rcases h.due_eq due hpc with ⟨hdue, hlt⟩
  have hle := @targetPackets_le_u64Max c.bandwidthBps c.size s.paced
  simp only [Sender.allowed] at hdue
  simp only [u64Max] at hle
  omega

/-- Writing a header keeps the size of the buffer. -/
theorem SendInv.encode_length {c : Sender} {s : SendState} (h : SendInv c s) (seq ts : Nat) :
    (encodeUdpHeader s.buf seq ts).length = c.size := by
  rw [encodeUdpHeader_length _ _ _ (by rw [h.buf_len]; exact c.size_ge), h.buf_len]

/-- Writing the next number and the time of the session into the buffer keeps
    the invariant. -/
theorem sendInv_stamp (c : Sender) (s : SendState) (t due : Nat) (h : SendInv c s)
    (hpc : s.pc = .stamp due) (hnow : s.now ≤ t) (hmax : t ≤ clockMax) :
    SendInv c { s with
      pc := .send due
      now := t
      buf := encodeUdpHeader s.buf s.seq ((t - s.sessionStart) % 2 ^ 64) } := by
  have hdue := h.due_eq due (by rw [hpc, SendPc.due?])
  have hseq := seq_lt_of_due c s due h (by rw [hpc, SendPc.due?])
  -- On a 64-bit clock the timestamp is not truncated.
  have hts : (t - s.sessionStart) % 2 ^ 64 = t - s.sessionStart := by
    simp only [clockMax] at hmax
    exact Nat.mod_eq_of_lt (by omega)
  have hlt : (t - s.sessionStart) % 2 ^ 64 < 2 ^ 64 := Nat.mod_lt _ (by omega)
  have htick := sendInv_idle c s .done t h rfl hnow hmax
  refine { htick with
    opening := ?_, fresh := ?_, greets := ?_, buf_len := h.encode_length _ _, due_eq := ?_,
    ready := ?_ }
  · simp only [reduceCtorEq, or_self, false_implies]
  · simp only [reduceCtorEq, false_implies]
  · simp only [reduceCtorEq, false_implies]
  · intro due' hdue'
    simp only [SendPc.due?, Option.some.injEq] at hdue'
    exact hdue' ▸ hdue
  · intro due' _
    simp only
    rw [seqOf_encode _ _ _ hseq hlt, sendTsOf_encode _ _ _ hseq hlt, hts]
    refine ⟨rfl, Nat.le_refl _, fun d hd => ?_⟩
    exact Nat.le_trans (h.stamps_le d hd) (Nat.sub_le_sub_right hnow _)

/-- The hello is the one packet the loop may send for free. -/
theorem sendInv_hello (c : Sender) (s : SendState) (h : SendInv c s) (hpc : s.pc = .hello) :
    SendInv c { s with
      pc := .pacer
      buf := encodeUdpHeader s.buf 0 0
      seq := 1
      bytes := c.size
      sent := [encodeUdpHeader s.buf 0 0] } := by
  have hgreet := h.greets hpc
  have hlen := h.encode_length 0 0
  have hseq := seqOf_encode s.buf 0 0 (by omega) (by omega)
  have hts := sendTsOf_encode s.buf 0 0 (by omega) (by omega)
  refine { h with
    opening := fun _ => h.opening (Or.inr (Or.inl hpc)), fresh := ?_, greets := ?_,
    buf_len := hlen, bytes_eq := (Nat.one_mul _).symm, seq_le := ?_, due_eq := ?_,
    ready := ?_, lengths := ?_, numbered := ?_, stamped := List.pairwise_singleton _ _,
    stamps_le := ?_ }
  · simp only [reduceCtorEq, false_implies]
  · simp only [reduceCtorEq, false_implies]
  · simp only [Sender.free, hgreet, if_true]
    exact Nat.le_max_left _ _
  · simp only [SendPc.due?, reduceCtorEq, false_implies, implies_true]
  · simp only [reduceCtorEq, false_implies, implies_true]
  · intro d hd
    rw [List.mem_singleton.mp hd]
    exact hlen
  · rw [List.map_singleton, hseq]
    rfl
  · intro d hd
    rw [List.mem_singleton.mp hd, hts]
    exact Nat.zero_le _

/-- Handing over the buffer that was prepared by the stamp keeps the invariant. -/
theorem sendInv_sent (c : Sender) (s : SendState) (due : Nat) (h : SendInv c s)
    (hpc : s.pc = .send due) :
    SendInv c { s with
      pc := .sleep
      bytes := s.bytes + c.size
      seq := s.seq + 1
      sent := s.sent ++ [s.buf] } := by
  rcases h.due_eq due (by rw [hpc, SendPc.due?]) with ⟨hdue, hlt⟩
  rcases h.ready due hpc with ⟨hseq, hts, hlast⟩
  refine { sendInv_idle c s .sleep s.now h rfl (Nat.le_refl _) h.now_le with
    fresh := ?_, bytes_eq := ?_, seq_le := ?_, due_eq := ?_, ready := ?_, lengths := ?_,
    numbered := ?_, stamped := ?_, stamps_le := ?_ }
  · simp only [reduceCtorEq, false_implies]
  · simp only [h.bytes_eq]
    ring
  · -- The packet just sent was one of those the pacer allowed.
    exact Nat.le_trans (hdue ▸ hlt) (Nat.le_max_right _ _)
  · simp only [SendPc.due?, reduceCtorEq, false_implies, implies_true]
  · simp only [reduceCtorEq, false_implies, implies_true]
  · intro d hd
    rcases List.mem_append.mp hd with hd | hd
    · exact h.lengths d hd
    · rw [List.mem_singleton.mp hd]
      exact h.buf_len
  · rw [List.map_append, List.map_singleton, h.numbered, hseq, List.range_succ,
      List.map_append, List.map_singleton]
  · rw [List.map_append, List.map_singleton, List.pairwise_append]
    refine ⟨h.stamped, List.pairwise_singleton _ _, fun a ha b hb => ?_⟩
    rcases List.mem_map.mp ha with ⟨d, hd, rfl⟩
    rw [List.mem_singleton.mp hb]
    exact hlast d hd
  · intro d hd
    rcases List.mem_append.mp hd with hd | hd
    · exact h.stamps_le d hd
    · rw [List.mem_singleton.mp hd]
      exact hts

/-- Every transition keeps the invariant. -/
theorem sendInv_step (c : Sender) (s : SendState) (e : SendEvent) (s' : SendState)
    (hstep : c.step s e = some s') (h : SendInv c s) : SendInv c s' := by
  cases sendMove_of_step c s e s' hstep with
  | start t hpc hnow hmax =>
      -- Nothing has been sent when the session starts, so no stamp can exceed it.
      have hsent := h.fresh hpc
      refine { h with
        now_le := hmax, session_le := Nat.le_refl _, pacer_le := Nat.le_trans h.pacer_le hnow,
        paced_le := Nat.le_trans h.paced_le (Nat.sub_le_sub_right hnow _),
        opening := fun _ => h.opening (Or.inl hpc), fresh := fun _ => hsent,
        greets := ?_, due_eq := ?_, ready := ?_, stamps_le := ?_ }
      · intro hgreet
        by_contra hnot
        simp only [hnot, if_false, reduceCtorEq] at hgreet
      · intro due hdue
        split at hdue <;> simp only [SendPc.due?, reduceCtorEq] at hdue
      · intro due hsend
        simp only at hsend
        split at hsend <;> simp only [reduceCtorEq] at hsend
      · intro d hd
        simp only [hsent, List.not_mem_nil] at hd
  | pacer t hpc hnow hmax =>
      have htop := sendInv_idle c s .top t h rfl hnow hmax
      -- The pacer starts here, and has answered nothing yet.
      have hpaced := h.opening (Or.inr (Or.inr hpc))
      refine { htop with pacer_le := Nat.le_refl _, paced_le := ?_ }
      simp only [hpaced, Nat.zero_le]
  | top t hpc hnow hmax =>
      refine sendInv_idle c s _ t h ?_ hnow hmax
      split <;> rfl
  | due t hpc hnow hmax =>
      -- The only reading that asks the pacer: the allowance can only grow.
      have hlt : t - s.pacerStart < 2 ^ 64 := by
        simp only [clockMax] at hmax
        omega
      have hmono : c.allowed s ≤ targetPackets c.bandwidthBps c.size (t - s.pacerStart) :=
        targetPackets_mono c.size_pos c.size_lt _ _
          (Nat.le_trans h.paced_le (Nat.sub_le_sub_right hnow _)) hlt
      -- First the clock, then the new allowance, then the loop condition against it.
      have htick := sendInv_idle c s .sleep t h rfl hnow hmax
      have hpaced : SendInv c { s with pc := .sleep, now := t, paced := t - s.pacerStart } := by
        refine { htick with
          paced_le := Nat.le_refl _, opening := ?_, seq_le := ?_, due_eq := ?_ }
        · simp only [reduceCtorEq, or_self, false_implies]
        · exact Nat.le_trans h.seq_le (max_le_max (Nat.le_refl _) hmono)
        · simp only [SendPc.due?, reduceCtorEq, false_implies, implies_true]
      exact sendInv_guard c _ _ hpaced rfl
  | check t due hpc hnow hmax =>
      rcases h.due_eq due (by rw [hpc, SendPc.due?]) with ⟨hdue, hlt⟩
      by_cases hover : c.deadline s ≤ t
      · rw [if_pos hover]
        exact sendInv_idle c s .done t h rfl hnow hmax
      · rw [if_neg hover]
        exact sendInv_inner c _ _ due (sendInv_idle c s .done t h rfl hnow hmax) rfl
          (fun n hn => by cases hn) hdue hlt
  | stamp t due hpc hnow hmax => exact sendInv_stamp c s t due h hpc hnow hmax
  | wake t hpc hnow hmax hawake => exact sendInv_idle c s .top t h rfl hnow hmax
  | hello hpc htakes => exact sendInv_hello c s h hpc
  | send due hpc htakes =>
      have hdue := (h.due_eq due (by rw [hpc, SendPc.due?])).1
      exact sendInv_guard c _ due (sendInv_sent c s due h hpc) hdue
  | helloRefused hpc =>
      refine sendInv_idle c s _ s.now h ?_ (Nat.le_refl _) h.now_le
      split <;> rfl
  | sendRefused due hpc => exact sendInv_idle c s .done s.now h rfl (Nat.le_refl _) h.now_le

theorem sendInv_of_reachable (c : Sender) (s : SendState) (hs : c.Reachable s) : SendInv c s :=
  Machine.reachable_invariant _ (sendInv_step c) _ s hs (sendInv_init c)

/-- The packets a loop has sent fit the rate at the pacer's latest reading,
    the hello apart. -/
theorem seq_rate (c : Sender) (hbw : c.bandwidthBps ≠ 0) (s : SendState) (h : SendInv c s) :
    s.seq ≤ c.free ∨
      s.seq * c.size * 8 * 1000000000 ≤ c.bandwidthBps.toNat * s.paced := by
  have hpaced : s.paced < 2 ^ 64 := by
    have h1 := h.paced_le
    have h2 := h.now_le
    simp only [clockMax] at h2
    omega
  -- Within the allowance the rate bound is the pacer's; beyond it only the hello is left.
  rcases Nat.le_total s.seq (c.allowed s) with hle | hle
  · right
    calc s.seq * c.size * 8 * 1000000000 = s.seq * (c.size * 8 * 1000000000) := by ring
      _ ≤ c.allowed s * (c.size * 8 * 1000000000) := Nat.mul_le_mul_right _ hle
      _ ≤ c.bandwidthBps.toNat * s.paced :=
          targetPackets_mul_le hbw c.size_pos c.size_lt s.paced hpaced
  · have hseq := h.seq_le
    rcases Nat.le_total (c.allowed s) c.free with hf | hf
    · left
      omega
    · have heq : s.seq = c.allowed s := by omega
      right
      calc s.seq * c.size * 8 * 1000000000 = s.seq * (c.size * 8 * 1000000000) := by ring
        _ = c.allowed s * (c.size * 8 * 1000000000) := by rw [heq]
        _ ≤ c.bandwidthBps.toNat * s.paced :=
            targetPackets_mul_le hbw c.size_pos c.size_lt s.paced hpaced

/-- Datagrams go out in consecutive order, each number once, with timestamps
    that never go back, and the report counts exactly them. -/
structure Orderly (c : Sender) (s : SendState) : Prop where
  count : s.sent.length = s.seq
  numbered : s.sent.map seqOf = (List.range s.seq).map some
  stamped : (s.sent.map sendTsOf).Pairwise (· ≤ ·)
  bytes : ∀ dur, (s.report dur).bytes = (s.report dur).packets * c.size
  maxSeq : ∀ dur, (s.report dur).maxSeq = (s.report dur).packets - 1

theorem orderly_of_sendInv (c : Sender) (s : SendState) (h : SendInv c s) : Orderly c s where
  count := by
    have hlen := congrArg List.length h.numbered
    rwa [List.length_map, List.length_map, List.length_range] at hlen
  numbered := h.numbered
  stamped := h.stamped
  bytes _ := h.bytes_eq
  maxSeq _ := rfl

/-- In every reachable state of either send loop with a limited rate, the
    packets sent fit the rate at the pacer's latest reading `s.paced`. The
    client may be ahead by its hello and by nothing else. -/
theorem paced_sending :
    (∀ (sock : TransportUdpSocket) (udpMax : UdpMax) (durationNs : Nat)
        (datagramSize bandwidthBps : UInt64) (s : SendState), bandwidthBps ≠ 0 →
      (Client.runUdpUp sock udpMax durationNs datagramSize bandwidthBps).Reachable s →
      s.seq ≤ max 1 (targetPackets bandwidthBps (max datagramSize.toNat udpHeaderLen) s.paced) ∧
      (1 < s.seq → s.seq * max datagramSize.toNat udpHeaderLen * 8 * 1000000000
        ≤ bandwidthBps.toNat * s.paced) ∧
      Orderly (Client.runUdpUp sock udpMax durationNs datagramSize bandwidthBps) s) ∧
    (∀ (udpMax : UdpMax) (req : TestRequest) (s : SendState),
      req.bandwidthBps ≠ 0 → (Server.runUdpDown udpMax req).Reachable s →
      s.seq * max req.payloadSize.toNat udpHeaderLen * 8 * 1000000000
        ≤ req.bandwidthBps.toNat * s.paced ∧
      Orderly (Server.runUdpDown udpMax req) s) := by
  constructor
  · intro sock udpMax durationNs datagramSize bandwidthBps s hbw hs
    have h := sendInv_of_reachable _ s hs
    refine ⟨h.seq_le, fun hseq => ?_, orderly_of_sendInv _ s h⟩
    exact (seq_rate _ hbw s h).resolve_left (Nat.not_le.mpr hseq)
  · intro udpMax req s hbw hs
    have h := sendInv_of_reachable _ s hs
    refine ⟨?_, orderly_of_sendInv _ s h⟩
    rcases seq_rate _ hbw s h with hfree | hrate
    · -- The server sends nothing without asking the pacer.
      have hzero : s.seq = 0 := Nat.le_zero.mp hfree
      simp only [hzero, Nat.zero_mul, Nat.zero_le]
    · exact hrate

/-- A packet every nanosecond: after a reading at three nanoseconds the client
    has sent its hello and one more packet, the server one packet. -/
theorem paced_sending_two_packets :
    (∃ s, (Client.runUdpUp .direct ipv4Max 100 16 128000000000).Reachable s ∧ s.seq = 2 ∧
      s.seq * 16 * 8 * 1000000000 ≤ 128000000000 * s.paced) ∧
    (∃ s, (Server.runUdpDown ipv4Max ⟨3, 1, 16, 128000000000, 0⟩).Reachable s ∧ s.seq = 1 ∧
      s.seq * 16 * 8 * 1000000000 ≤ 128000000000 * s.paced) := by
  constructor
  · have hr : (Client.runUdpUp .direct ipv4Max 100 16 128000000000).Reachable _ :=
      ⟨[.reading 0, .accepted, .reading 0, .reading 0, .reading 3, .reading 3, .reading 4,
        .accepted], rfl⟩
    exact ⟨_, hr, rfl, (paced_sending.1 .direct ipv4Max 100 16 128000000000 _ (by decide) hr).2.1 (by decide)⟩
  · have hr : (Server.runUdpDown ipv4Max ⟨3, 1, 16, 128000000000, 0⟩).Reachable _ :=
      ⟨[.reading 0, .reading 0, .reading 0, .reading 3, .reading 3, .reading 4, .accepted], rfl⟩
    exact ⟨_, hr, rfl, (paced_sending.2 ipv4Max ⟨3, 1, 16, 128000000000, 0⟩ _ (by decide) hr).1⟩

end ProxyPen
