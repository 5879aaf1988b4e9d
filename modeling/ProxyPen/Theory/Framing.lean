import ProxyPen.Theory.SocksHeader

/-!
# Transparency of SOCKS5 Framing

What a caller of the two receiving paths sees of a relayed datagram. The QUIC
path receives into 65535 bytes and is transparent for every datagram that
fits. The transport path receives into the caller's buffer size plus 256
bytes, while a header can take up to 262: a domain name of 250 bytes or more
does not fit the allowance, and the datagram loses its last bytes, or its
header, without the caller being told.

`framing_transparent_iff` is the exact condition: the header fits the
allowance, or the whole relayed datagram fits the scratch buffer.

## Main definitions

* `Transparent`: Both paths deliver what a plain socket would.

## Theorems

* `headerLen_le`: The longest header.
* `decode_truncated`: A header cut short is rejected.
* `recv_of_header`: The transport path on a scratch buffer with a header.
* `recv_cases`: Receiving never panics.
* `recv_socks5`: The transport path when the header fits the scratch buffer.
* `recv_socks5_truncated`: The transport path when it does not.
* `pollRecv_eq`: The QUIC path.
* `framing_transparent_iff`: When both paths are transparent.
* `takes_direct`, `takes_socks5`, `takes_of_send`: Which sizes are taken.
-/

namespace ProxyPen

namespace Socks

open Outcome

/-- No header is longer than that of a domain name of 255 bytes. -/
theorem headerLen_le (a : SocksAddr) (ha : a.WellFormed) : a.headerLen ≤ 262 := by
  rcases a with ⟨addr, port⟩
  cases addr with
  | v4 ip =>
      simp only [SocksAddr.headerLen, wireHeader, addrBytes, List.length_append, List.length_cons,
        List.length_nil, beBytes_length, List.Vector.toList_length]
      omega
  | v6 ip =>
      simp only [SocksAddr.headerLen, wireHeader, addrBytes, List.length_append, List.length_cons,
        List.length_nil, beBytes_length, List.Vector.toList_length]
      omega
  | domain d =>
      have hlen : d.len.toNat = d.contents.length := ha
      have hlt := d.len.toNat_lt
      simp only [SocksAddr.headerLen, wireHeader, addrBytes, List.length_append, List.length_cons,
        List.length_nil, beBytes_length]
      omega

/-- A proper front of a header is not accepted: it would be a header itself,
    and the same datagram cannot start with two of different lengths. -/
theorem decode_truncated (a : SocksAddr) (ha : a.WellFormed) (p : Bytes) (n : Nat)
    (hn : n < a.headerLen) : ∃ e, decodeSocks5UdpHeader ((wireHeader 0 0 a ++ p).take n) = err e := by
  rcases decode_cases ((wireHeader 0 0 a ++ p).take n) with herr | ⟨r0, r1, a', rest, ha', heq⟩
  · exact herr
  · exfalso
    have hwhole : wireHeader 0 0 a ++ p
        = wireHeader r0 r1 a' ++ (rest ++ (wireHeader 0 0 a ++ p).drop n) := by
      rw [← List.append_assoc, ← heq, List.take_append_drop]
    -- Both headers decode from the same bytes, so they have one length.
    have hdec := decode_wireHeader 0 0 a ha p
    rw [hwhole, decode_wireHeader r0 r1 a' ha'] at hdec
    have hlen : a'.headerLen = a.headerLen := by
      cases hdec
      rfl
    have hle := congrArg List.length heq
    simp only [List.length_take, List.length_append, wireHeader_length] at hle
    omega

theorem slice_after_header (r0 r1 : UInt8) (a : SocksAddr) (rest : Bytes) :
    (slice (wireHeader r0 r1 a ++ rest) a.headerLen (wireHeader r0 r1 a ++ rest).length
      : Outcome IoError Bytes) = ok rest := by
  rw [slice_self]
  · rw [← wireHeader_length r0 r1 a, List.drop_left]
  · rw [List.length_append, wireHeader_length]
    exact Nat.le_add_right _ _

/-- Slicing at the shorter of two lengths is taking at either. -/
theorem slice_min (p : Bytes) (b : Nat) :
    (slice p 0 (min p.length b) : Outcome IoError Bytes) = ok (p.take b) := by
  rw [slice, if_pos ⟨Nat.zero_le _, Nat.min_le_left _ _⟩, List.drop_zero, Nat.sub_zero,
    Nat.min_comm, ← List.take_eq_take_min]

/-- The transport path when the scratch buffer starts with a header. -/
theorem recv_of_header (target : SocksAddr) (b : Nat) (d : Bytes) (r0 r1 : UInt8) (a : SocksAddr)
    (ha : a.WellFormed) (rest : Bytes) (h : osRecv (b + 256) d = wireHeader r0 r1 a ++ rest) :
    (TransportUdpSocket.socks5 target).recv b d = ok (rest.take b) := by
  simp only [TransportUdpSocket.recv, h]
  rw [decode_wireHeader r0 r1 a ha, ok_bind]
  simp only
  rw [slice_after_header, ok_bind, slice_min]

/-- Receiving returns a payload or an error: the transport never panics. -/
theorem recv_cases (sock : TransportUdpSocket) (b : Nat) (d : Bytes) :
    (∃ p, sock.recv b d = ok p) ∨ ∃ e, sock.recv b d = err e := by
  cases sock with
  | direct => exact Or.inl ⟨_, rfl⟩
  | socks5 target =>
      rcases decode_cases (osRecv (b + 256) d) with ⟨e, he⟩ | ⟨r0, r1, a, rest, ha, heq⟩
      · exact Or.inr ⟨e, by simp only [TransportUdpSocket.recv, he, err_bind]⟩
      · exact Or.inl ⟨_, recv_of_header target b d r0 r1 a ha rest heq⟩

/-- When the header fits the scratch buffer, the transport path returns the
    payload cut to the caller's buffer and to what is left of its own. -/
theorem recv_socks5 (target : SocksAddr) (r0 r1 : UInt8) (a : SocksAddr) (ha : a.WellFormed)
    (p : Bytes) (b : Nat) (hfit : a.headerLen ≤ b + 256) :
    (TransportUdpSocket.socks5 target).recv b (wireHeader r0 r1 a ++ p)
      = ok (p.take (min b (b + 256 - a.headerLen))) := by
  -- The cut falls behind the header, into the payload.
  have htmp : osRecv (b + 256) (wireHeader r0 r1 a ++ p)
      = wireHeader r0 r1 a ++ p.take (b + 256 - a.headerLen) := by
    rw [osRecv, List.take_append, wireHeader_length, List.take_of_length_le]
    rw [wireHeader_length]
    exact hfit
  rw [recv_of_header target b _ r0 r1 a ha _ htmp, List.take_take]

/-- When the header does not fit the scratch buffer, the transport path
    reports an error. -/
theorem recv_socks5_truncated (target a : SocksAddr) (ha : a.WellFormed) (p : Bytes) (b : Nat)
    (hover : b + 256 < a.headerLen) :
    ∃ e, (TransportUdpSocket.socks5 target).recv b (wireHeader 0 0 a ++ p) = err e := by
  rcases decode_truncated a ha p (b + 256) hover with ⟨e, he⟩
  refine ⟨e, ?_⟩
  simp only [TransportUdpSocket.recv, osRecv]
  rw [he, err_bind]

/-- The QUIC path on a relayed datagram that fits its receive buffer. -/
theorem pollRecv_eq {A : Type} (remote : A) (a : SocksAddr) (ha : a.WellFormed) (p : Bytes)
    (b : Nat) (hp : p ≠ []) (hfit : (wireHeader 0 0 a ++ p).length ≤ 65535) :
    SocksUdpSocket.pollRecv remote b (wireHeader 0 0 a ++ p)
      = ok (some (p.take (min p.length b),
          { addr := remote, len := min p.length b, stride := min p.length b })) := by
  -- Nothing is cut on the way in.
  have hfilled : osRecv 65535 (wireHeader 0 0 a ++ p) = wireHeader 0 0 a ++ p :=
    List.take_of_length_le hfit
  have hne : (wireHeader 0 0 a ++ p).isEmpty = false := by
    rw [List.isEmpty_eq_false_iff]
    exact List.append_ne_nil_of_right_ne_nil _ hp
  have hpne : p.isEmpty = false := List.isEmpty_eq_false_iff.mpr hp
  simp only [SocksUdpSocket.pollRecv, hfilled, hne, Bool.false_eq_true, if_false]
  rw [decode_wireHeader 0 0 a ha, ok_bind]
  simp only
  rw [slice_after_header, ok_bind, hpne]
  simp only [Bool.false_eq_true, if_false]
  rw [slice, if_pos ⟨Nat.zero_le _, Nat.min_le_left _ _⟩, List.drop_zero, Nat.sub_zero, ok_bind]

/-- Both receiving paths deliver, of the payload `p` relayed from `a`, what a
    plain socket would deliver of the bare datagram `p`: its first
    `min |p| b` bytes. The QUIC path is asked about non-empty payloads in
    datagrams of at most 65535 bytes. -/
def Transparent (a : SocksAddr) (p : Bytes) (b : Nat) : Prop :=
  ∀ (target : SocksAddr) (h : Bytes), encodeSocks5UdpHeader a = ok h →
    TransportUdpSocket.direct.recv b p = ok (p.take (min p.length b)) ∧
    (TransportUdpSocket.socks5 target).recv b (h ++ p) = TransportUdpSocket.direct.recv b p ∧
    (p ≠ [] → (h ++ p).length ≤ 65535 → ∀ remote : Nat,
      SocksUdpSocket.pollRecv remote b (h ++ p)
        = ok (some (p.take (min p.length b),
            { addr := remote, len := min p.length b, stride := min p.length b })))

theorem direct_recv_eq (p : Bytes) (b : Nat) :
    TransportUdpSocket.direct.recv b p = ok (p.take (min p.length b)) := by
  rw [TransportUdpSocket.recv, osRecv, Nat.min_comm, ← List.take_eq_take_min]

/-- The transport path agrees with the plain socket exactly when the header
    fits its allowance or the whole datagram fits the scratch buffer. -/
theorem recv_socks5_eq_direct_iff (target a : SocksAddr) (ha : a.WellFormed) (p : Bytes) (b : Nat) :
    (TransportUdpSocket.socks5 target).recv b (wireHeader 0 0 a ++ p)
        = TransportUdpSocket.direct.recv b p ↔
      a.headerLen ≤ 256 ∨ a.headerLen + p.length ≤ b + 256 := by
  rw [direct_recv_eq]
  by_cases hfit : a.headerLen ≤ b + 256
  · rw [recv_socks5 target 0 0 a ha p b hfit]
    constructor
    -- Equal payloads have equal lengths, and the lengths decide the condition.
    · intro heq
      have hlen := congrArg List.length (Outcome.ok.inj heq)
      rw [List.length_take, List.length_take] at hlen
      omega
    · intro hcond
      congr 1
      by_cases hsmall : a.headerLen ≤ 256
      · rw [show min b (b + 256 - a.headerLen) = b by omega]
        exact Outcome.ok.inj (direct_recv_eq p b)
      · -- A larger header leaves less than the caller's buffer, and all of `p` fits it.
        rw [List.take_of_length_le (by omega), List.take_of_length_le (by omega)]
  -- The header itself was cut: an error, where the plain socket never has one.
  · rcases recv_socks5_truncated target a ha p b (by omega) with ⟨e, he⟩
    rw [he]
    constructor
    · intro heq
      cases heq
    · intro hcond
      omega

/-- Framing is transparent exactly when the header takes at most 256 bytes,
    or header and payload together fit the caller's buffer size plus 256. -/
theorem framing_transparent_iff (a : SocksAddr) (ha : a.WellFormed) (p : Bytes) (b : Nat) :
    Transparent a p b ↔ a.headerLen ≤ 256 ∨ a.headerLen + p.length ≤ b + 256 := by
  constructor
  · intro htrans
    rcases htrans a _ (encode_eq a ha) with ⟨-, hrecv, -⟩
    exact (recv_socks5_eq_direct_iff a a ha p b).mp hrecv
  · intro hcond target h hh
    rw [encode_eq a ha] at hh
    have hheader := Outcome.ok.inj hh
    subst hheader
    exact ⟨direct_recv_eq p b, (recv_socks5_eq_direct_iff target a ha p b).mpr hcond,
      fun hp hlen remote => pollRecv_eq remote a ha p b hp hlen⟩

/-- A relayed IPv4 datagram is delivered whole. -/
theorem framing_transparent_v4 :
    (⟨.v4 ⟨[127, 0, 0, 1], rfl⟩, 53⟩ : SocksAddr).WellFormed ∧
      Transparent ⟨.v4 ⟨[127, 0, 0, 1], rfl⟩, 53⟩ [1, 2, 3] 512 :=
  ⟨trivial, (framing_transparent_iff ⟨.v4 ⟨[127, 0, 0, 1], rfl⟩, 53⟩ trivial [1, 2, 3] 512).mpr
    (Or.inl (by decide))⟩

/-- From a domain of 250 bytes a 16-byte payload arrives one byte short in a
    16-byte buffer. -/
theorem framing_loses_last_byte :
    (⟨.domain ⟨250, List.replicate 250 97⟩, 443⟩ : SocksAddr).WellFormed ∧
      ¬ Transparent ⟨.domain ⟨250, List.replicate 250 97⟩, 443⟩ (List.replicate 16 7) 16 := by
  have hwf : (⟨.domain ⟨250, List.replicate 250 97⟩, 443⟩ : SocksAddr).WellFormed :=
    (List.length_replicate).symm
  have hlen : (⟨.domain ⟨250, List.replicate 250 97⟩, 443⟩ : SocksAddr).headerLen = 257 := by
    simp only [SocksAddr.headerLen, wireHeader, addrBytes, List.length_append, List.length_cons,
      List.length_nil, List.length_replicate, beBytes_length]
  refine ⟨hwf, fun htrans => ?_⟩
  rcases htrans ⟨.domain ⟨250, List.replicate 250 97⟩, 443⟩ _ (encode_eq _ hwf) with ⟨-, hrecv, -⟩
  have hcond := (recv_socks5_eq_direct_iff _ _ hwf _ _).mp hrecv
  rw [hlen, List.length_replicate] at hcond
  omega

/-! ## Sizes -/

section Sizes

variable (udpMax : UdpMax) (size : Nat)

theorem takes_direct :
    TransportUdpSocket.direct.takes udpMax size
      = if size ≤ isizeMax then some (decide (size ≤ udpMax.bytes)) else none := by
  simp only [TransportUdpSocket.takes, TransportUdpSocket.header, List.length_nil, Nat.zero_add]

theorem takes_socks5 {target : SocksAddr} (h : target.WellFormed) :
    (TransportUdpSocket.socks5 target).takes udpMax size
      = if target.headerLen + size ≤ isizeMax
        then some (decide (target.headerLen + size ≤ udpMax.bytes)) else none := by
  rw [TransportUdpSocket.takes, TransportUdpSocket.header, encode_eq target h]
  rfl

variable {udpMax size} {sock : TransportUdpSocket}

/-- What is taken fits the limit without its header, too. -/
theorem size_le_of_takes (h : sock.takes udpMax size = some true) : size ≤ udpMax.bytes := by
  unfold TransportUdpSocket.takes at h
  cases hheader : sock.header with
  | ok header =>
      simp only [hheader, Option.ite_none_right_eq_some, Option.some.injEq, decide_eq_true_eq] at h
      omega
  | err e => simp only [hheader, reduceCtorEq] at h
  | panic => simp only [hheader, reduceCtorEq] at h

/-- It is the datagram that `send` makes of a payload whose length counts. -/
theorem takes_of_send {payload d : Bytes} (h : sock.send payload = ok d) :
    sock.takes udpMax payload.length
      = if d.length ≤ isizeMax then some (decide (d.length ≤ udpMax.bytes)) else none := by
  cases sock with
  | direct =>
      cases h
      exact takes_direct udpMax _
  | socks5 target =>
      rw [TransportUdpSocket.send] at h
      rw [TransportUdpSocket.takes, TransportUdpSocket.header]
      cases hheader : encodeSocks5UdpHeader target with
      | ok header =>
          rw [hheader, ok_bind, Outcome.ok.injEq] at h
          simp only [← h, List.length_append]
      | err e =>
          rw [hheader] at h
          cases h
      | panic =>
          rw [hheader] at h
          cases h

end Sizes

end Socks

end ProxyPen
