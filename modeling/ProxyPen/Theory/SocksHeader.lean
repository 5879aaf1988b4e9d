import ProxyPen.Core.Socks

/-!
# The SOCKS5 UDP Header Codec

Encoding and decoding are exact inverses up to the two reserved bytes.
`wireHeader` is the format itself: two reserved bytes, a zero fragment byte,
the address type with a complete address, and two port bytes. The encoder
produces it with zero reserved bytes, and the decoder accepts precisely the
byte strings that start with one.

`decode_cases` is the whole analysis of the decoder: on any byte string it
reports an error, or the string starts with a header. What it returns in the
second case is `decode_wireHeader`. No case panics, so every index is covered
by a length check made before it.

## Main definitions

* `addrBytes`, `wireHeader`: The format.

## Theorems

* `encode_eq`: The encoder writes the format with zero reserved bytes.
* `decode_wireHeader`: The decoder reads the format back.
* `decode_cases`: The decoder rejects, or the input starts with a header.
* `header_codec_exact`: The codec in both directions.
-/

namespace ProxyPen

namespace Socks

open Outcome

/-- Address type and complete address. -/
def addrBytes : AddrOrDomain → Bytes
  | .v4 ip => 0x01 :: ip.toList
  | .v6 ip => 0x04 :: ip.toList
  | .domain d => 0x03 :: d.len :: d.contents

/-- Two reserved bytes, fragment zero, address, port. -/
def wireHeader (r0 r1 : UInt8) (a : SocksAddr) : Bytes :=
  [r0, r1, 0] ++ addrBytes a.addr ++ beBytes 2 a.port.toNat

/-- The length of the header of an address. -/
def SocksAddr.headerLen (a : SocksAddr) : Nat := (wireHeader 0 0 a).length

theorem wireHeader_length (r0 r1 : UInt8) (a : SocksAddr) :
    (wireHeader r0 r1 a).length = a.headerLen := by
  simp only [SocksAddr.headerLen, wireHeader, List.length_append, List.length_cons, List.length_nil]

/-- The port bytes the encoder pushes are the big-endian port. -/
theorem portBytes_eq (port : UInt16) :
    [(port >>> 8).toUInt8, (port &&& 0xff).toUInt8] = beBytes 2 port.toNat := by
  have hlt := port.toNat_lt
  have hhi : (port >>> 8).toUInt8 = UInt8.ofNat (port.toNat / 256 ^ 1) := by
    apply UInt8.toNat_inj.mp
    rw [UInt16.toNat_toUInt8, UInt16.toNat_shiftRight, UInt8.toNat_ofNat', Nat.shiftRight_eq_div_pow]
    rfl
  have hlo : (port &&& 0xff).toUInt8 = UInt8.ofNat (port.toNat / 256 ^ 0) := by
    apply UInt8.toNat_inj.mp
    rw [UInt16.toNat_toUInt8, UInt16.toNat_and, UInt8.toNat_ofNat', pow_zero, Nat.div_one]
    -- Masking with `0xff` is reducing modulo 256.
    have hand : port.toNat &&& (255 : Nat) = port.toNat % 2 ^ 8 :=
      Nat.and_two_pow_sub_one_eq_mod port.toNat 8
    change (port.toNat &&& 255) % 2 ^ 8 = _
    rw [hand, Nat.mod_mod]
  rw [hhi, hlo]
  rfl

theorem port_of_beBytes (port : UInt16) : UInt16.ofNat (beNat (beBytes 2 port.toNat)) = port := by
  have hlt : port.toNat < 256 ^ 2 := by
    have h := port.toNat_lt
    omega
  rw [beNat_beBytes_of_lt 2 port.toNat hlt]
  exact UInt16.ofNat_toNat

theorem beBytes_of_port (hi lo : UInt8) :
    beBytes 2 (UInt16.ofNat (beNat [hi, lo])).toNat = [hi, lo] := by
  have hlt : beNat [hi, lo] < 2 ^ 16 := by
    have h := beNat_lt [hi, lo]
    simp only [List.length_cons, List.length_nil] at h
    omega
  rw [UInt16.toNat_ofNat', Nat.mod_eq_of_lt hlt]
  exact beBytes_beNat [hi, lo]

theorem encodeAddr_eq (a : SocksAddr) (ha : a.WellFormed) :
    encodeAddr a.addr = ok (addrBytes a.addr) := by
  obtain ⟨addr, port⟩ := a
  cases addr with
  | v4 ip => rfl
  | v6 ip => rfl
  | domain d =>
      have hlen : d.len.toNat = d.contents.length := ha
      simp only [encodeAddr, addrBytes]
      rw [hlen, slice_self d.contents 0 (Nat.zero_le _)]
      rfl

/-- The encoder writes the format with zero reserved bytes. -/
theorem encode_eq (a : SocksAddr) (ha : a.WellFormed) :
    encodeSocks5UdpHeader a = ok (wireHeader 0 0 a) := by
  rw [encodeSocks5UdpHeader, encodeAddr_eq a ha, ok_bind, portBytes_eq]
  rfl

/-- Reading an address of fixed size behind the first four bytes. -/
theorem read_fixed {n : Nat} (r0 r1 atyp : UInt8) (ip : List.Vector UInt8 n) (tail : Bytes)
    (wrap : List.Vector UInt8 n → AddrOrDomain) :
    ((do
      let bytes ← slice ([r0, r1, 0, atyp] ++ ip.toList ++ tail) 4 (4 + n)
      let ip ← copyInto n bytes
      ok (wrap ip, 4 + n)) : Outcome IoError (AddrOrDomain × Nat)) = ok (wrap ip, 4 + n) := by
  have hip : ip.toList.length = n := ip.2
  rw [slice_append_left [r0, r1, 0, atyp] ip.toList tail 4 (4 + n) rfl (by rw [hip]), ok_bind,
    copyInto_toList, ok_bind]

/-- The decoder reads back the address of a header. -/
theorem decodeAddr_wireHeader (r0 r1 : UInt8) (a : SocksAddr) (ha : a.WellFormed) (rest : Bytes)
    (atyp : UInt8) (hatyp : (addrBytes a.addr).head? = some atyp) :
    decodeAddr (wireHeader r0 r1 a ++ rest) atyp
      = ok (a.addr, 3 + (addrBytes a.addr).length) := by
  obtain ⟨addr, port⟩ := a
  cases addr with
  | v4 ip =>
      simp only [addrBytes, List.head?_cons, Option.some.injEq] at hatyp
      subst hatyp
      have hip : ip.toList.length = 4 := ip.2
      have hbuf : wireHeader r0 r1 ⟨.v4 ip, port⟩ ++ rest
          = [r0, r1, 0, 1] ++ ip.toList ++ (beBytes 2 port.toNat ++ rest) := by
        simp only [wireHeader, addrBytes, List.append_assoc, List.cons_append, List.nil_append]
      have hlen : ¬ (wireHeader r0 r1 ⟨.v4 ip, port⟩ ++ rest).length < 4 + 4 + 2 := by
        rw [hbuf]
        simp only [List.length_append, beBytes_length, List.length_cons, List.length_nil, hip]
        omega
      rw [decodeAddr, if_pos rfl, if_neg hlen, hbuf]
      refine (read_fixed r0 r1 1 ip _ AddrOrDomain.v4).trans ?_
      simp only [addrBytes, List.length_cons, hip]
  | v6 ip =>
      simp only [addrBytes, List.head?_cons, Option.some.injEq] at hatyp
      subst hatyp
      have hip : ip.toList.length = 16 := ip.2
      have hbuf : wireHeader r0 r1 ⟨.v6 ip, port⟩ ++ rest
          = [r0, r1, 0, 4] ++ ip.toList ++ (beBytes 2 port.toNat ++ rest) := by
        simp only [wireHeader, addrBytes, List.append_assoc, List.cons_append, List.nil_append]
      have hlen : ¬ (wireHeader r0 r1 ⟨.v6 ip, port⟩ ++ rest).length < 4 + 16 + 2 := by
        rw [hbuf]
        simp only [List.length_append, beBytes_length, List.length_cons, List.length_nil, hip]
        omega
      rw [decodeAddr, if_neg (by decide), if_pos rfl, if_neg hlen, hbuf]
      refine (read_fixed r0 r1 4 ip _ AddrOrDomain.v6).trans ?_
      simp only [addrBytes, List.length_cons, hip]
  | domain d =>
      simp only [addrBytes, List.head?_cons, Option.some.injEq] at hatyp
      subst hatyp
      have hd : d.len.toNat = d.contents.length := ha
      have hbuf : wireHeader r0 r1 ⟨.domain d, port⟩ ++ rest
          = [r0, r1, 0, 3, d.len] ++ d.contents ++ (beBytes 2 port.toNat ++ rest) := by
        simp only [wireHeader, addrBytes, List.append_assoc, List.cons_append, List.nil_append]
      have hlen : (wireHeader r0 r1 ⟨.domain d, port⟩ ++ rest).length
          = 5 + d.len.toNat + 2 + rest.length := by
        rw [hbuf]
        simp only [List.length_append, beBytes_length, List.length_cons, List.length_nil, hd]
        omega
      -- The length byte decides both the length check and the slice.
      have hindex : (index (wireHeader r0 r1 ⟨.domain d, port⟩ ++ rest) 4 : Outcome IoError UInt8)
          = ok d.len := rfl
      rw [decodeAddr, if_neg (by decide), if_neg (by decide), if_pos rfl, hlen,
        if_neg (by omega), hindex, ok_bind]
      simp only
      rw [if_neg (by omega), hbuf,
        slice_append_left [r0, r1, 0, 3, d.len] d.contents _ 5 _ rfl (by rw [hd]), ok_bind]
      simp only [addrBytes, List.length_cons, UInt8.ofNat_toNat]
      rw [hd, show 5 + d.contents.length = 3 + (d.contents.length + 1 + 1) by omega]

/-- The decoder reads the format back, whatever follows it. -/
theorem decode_wireHeader (r0 r1 : UInt8) (a : SocksAddr) (ha : a.WellFormed) (rest : Bytes) :
    decodeSocks5UdpHeader (wireHeader r0 r1 a ++ rest) = ok (a, a.headerLen) := by
  -- Every address starts with its type byte.
  rcases hab : addrBytes a.addr with _ | ⟨atyp, addr⟩
  · cases hc : a.addr <;> rw [hc, addrBytes] at hab <;> exact absurd hab (List.cons_ne_nil _ _)
  have haddr := decodeAddr_wireHeader r0 r1 a ha rest atyp (by rw [hab]; rfl)
  have hbuf : wireHeader r0 r1 a ++ rest = r0 :: r1 :: 0 :: atyp :: (addr ++
      beBytes 2 a.port.toNat ++ rest) := by
    simp only [wireHeader, hab, List.append_assoc, List.cons_append, List.nil_append]
  have hlen : ¬ (wireHeader r0 r1 a ++ rest).length < 4 := by
    rw [hbuf]
    simp only [List.length_cons]
    omega
  have hfrag : (index (wireHeader r0 r1 a ++ rest) 2 : Outcome IoError UInt8) = ok 0 := by
    rw [hbuf]
    rfl
  have hat : (index (wireHeader r0 r1 a ++ rest) 3 : Outcome IoError UInt8) = ok atyp := by
    rw [hbuf]
    rfl
  -- The two port bytes sit right behind the address.
  rcases hport : beBytes 2 a.port.toNat with _ | ⟨hi, _ | ⟨lo, _ | ⟨x, l⟩⟩⟩
  · exact absurd (congrArg List.length hport) (by simp)
  · exact absurd (congrArg List.length hport) (by simp)
  · have hval : UInt16.ofNat (beNat [hi, lo]) = a.port := by
      rw [← hport]
      exact port_of_beBytes a.port
    have hhi : (index (wireHeader r0 r1 a ++ rest) (3 + (addrBytes a.addr).length)
        : Outcome IoError UInt8) = ok hi := by
      rw [wireHeader, hport, List.append_assoc]
      refine index_append_left _ hi _ _ ?_
      simp only [List.length_append, List.length_cons, List.length_nil]
    have hlo : (index (wireHeader r0 r1 a ++ rest) (3 + (addrBytes a.addr).length + 1)
        : Outcome IoError UInt8) = ok lo := by
      rw [wireHeader, hport, show ([hi, lo] : Bytes) = [hi] ++ [lo] from rfl, ← List.append_assoc,
        List.append_assoc]
      refine index_append_left _ lo _ _ ?_
      simp only [List.length_append, List.length_cons, List.length_nil]
    rw [decodeSocks5UdpHeader, if_neg hlen, hfrag, ok_bind, if_neg (by simp), hat, ok_bind, haddr,
      ok_bind]
    simp only
    rw [hhi, ok_bind, hlo, ok_bind, hval]
    have hwidth : a.headerLen = 3 + (addrBytes a.addr).length + 2 := by
      simp only [SocksAddr.headerLen, wireHeader, List.length_append, beBytes_length,
        List.length_cons, List.length_nil]
    rw [hwidth]
  · exact absurd (congrArg List.length hport) (by simp)

/-- A list with two elements behind a front of known length. -/
theorem split_two (l : Bytes) (n : Nat) (h : n + 2 ≤ l.length) :
    ∃ hi lo rest, l = l.take n ++ [hi, lo] ++ rest ∧ (l.take n).length = n := by
  rcases hdrop : l.drop n with _ | ⟨hi, _ | ⟨lo, rest⟩⟩
  · have hlen := congrArg List.length hdrop
    rw [List.length_drop, List.length_nil] at hlen
    omega
  · have hlen := congrArg List.length hdrop
    rw [List.length_drop, List.length_singleton] at hlen
    omega
  · refine ⟨hi, lo, rest, ?_, by rw [List.length_take]; omega⟩
    rw [List.append_assoc]
    exact (List.take_append_drop n l).symm.trans (by rw [hdrop]; rfl)

/-- On any byte string the decoder reports an error, or the string starts
    with a header. -/
theorem decode_cases (b : Bytes) :
    (∃ e, decodeSocks5UdpHeader b = err e) ∨
      ∃ r0 r1 a rest, a.WellFormed ∧ b = wireHeader r0 r1 a ++ rest := by
  -- Shorter than four bytes, or two reserved bytes, FRAG, ATYP and the rest.
  rcases b with _ | ⟨r0, _ | ⟨r1, _ | ⟨frag, _ | ⟨atyp, l⟩⟩⟩⟩
  · exact Or.inl ⟨_, rfl⟩
  · exact Or.inl ⟨_, rfl⟩
  · exact Or.inl ⟨_, rfl⟩
  · exact Or.inl ⟨_, rfl⟩
  have hlen4 : ¬ (r0 :: r1 :: frag :: atyp :: l).length < 4 := by
    simp only [List.length_cons]
    omega
  have hfrag : (index (r0 :: r1 :: frag :: atyp :: l) 2 : Outcome IoError UInt8) = ok frag := rfl
  have hat : (index (r0 :: r1 :: frag :: atyp :: l) 3 : Outcome IoError UInt8) = ok atyp := rfl
  rw [decodeSocks5UdpHeader, if_neg hlen4, hfrag, ok_bind]
  by_cases hf : frag = 0
  · rw [if_neg (by simp [hf]), hat, ok_bind, decodeAddr]
    subst hf
    -- One case for each address type, each with its own length check.
    by_cases h1 : atyp = 0x01
    · subst h1
      rw [if_pos rfl]
      by_cases hshort : (r0 :: r1 :: 0 :: 1 :: l).length < 4 + 4 + 2
      · exact Or.inl ⟨_, by rw [if_pos hshort, err_bind]⟩
      · simp only [List.length_cons] at hshort
        rcases split_two l 4 (by omega) with ⟨hi, lo, rest, hl, hn⟩
        refine Or.inr ⟨r0, r1, ⟨.v4 ⟨l.take 4, hn⟩, UInt16.ofNat (beNat [hi, lo])⟩, rest, trivial, ?_⟩
        rw [wireHeader, beBytes_of_port]
        exact congrArg (fun t => r0 :: r1 :: 0 :: 1 :: t) hl
    rw [if_neg h1]
    by_cases h4 : atyp = 0x04
    · subst h4
      rw [if_pos rfl]
      by_cases hshort : (r0 :: r1 :: 0 :: 4 :: l).length < 4 + 16 + 2
      · exact Or.inl ⟨_, by rw [if_pos hshort, err_bind]⟩
      · simp only [List.length_cons] at hshort
        rcases split_two l 16 (by omega) with ⟨hi, lo, rest, hl, hn⟩
        refine Or.inr ⟨r0, r1, ⟨.v6 ⟨l.take 16, hn⟩, UInt16.ofNat (beNat [hi, lo])⟩, rest, trivial, ?_⟩
        rw [wireHeader, beBytes_of_port]
        exact congrArg (fun t => r0 :: r1 :: 0 :: 4 :: t) hl
    rw [if_neg h4]
    by_cases h3 : atyp = 0x03
    · subst h3
      rw [if_pos rfl]
      rcases l with _ | ⟨len, l⟩
      · exact Or.inl ⟨_, rfl⟩
      have hlen5 : ¬ (r0 :: r1 :: 0 :: 3 :: len :: l).length < 5 := by
        simp only [List.length_cons]
        omega
      have hlenByte : (index (r0 :: r1 :: 0 :: 3 :: len :: l) 4 : Outcome IoError UInt8) = ok len :=
        rfl
      rw [if_neg hlen5, hlenByte, ok_bind]
      by_cases hshort : (r0 :: r1 :: 0 :: 3 :: len :: l).length < 5 + len.toNat + 2
      · exact Or.inl ⟨_, by simp only [if_pos hshort, err_bind]; rfl⟩
      · simp only [List.length_cons] at hshort
        -- The check leaves room for the name and the port behind it.
        rcases split_two l len.toNat (by omega) with ⟨hi, lo, rest, hl, hn⟩
        refine Or.inr ⟨r0, r1, ⟨.domain ⟨len, l.take len.toNat⟩, UInt16.ofNat (beNat [hi, lo])⟩,
          rest, hn.symm, ?_⟩
        rw [wireHeader, beBytes_of_port]
        exact congrArg (fun t => r0 :: r1 :: 0 :: 3 :: len :: t) hl
    · exact Or.inl ⟨_, by rw [if_neg h3, err_bind]⟩
  · exact Or.inl ⟨_, by rw [if_pos hf]⟩

/-- The header codec is exact. Decoding undoes encoding whatever payload
    follows; the decoder never indexes out of range, and it accepts exactly
    the byte strings that start with a header, returning the address and the
    length of that header, whose encoding is the header with its reserved
    bytes cleared. -/
theorem header_codec_exact :
    (∀ (a : SocksAddr) (p : Bytes), a.WellFormed →
      ∃ h, encodeSocks5UdpHeader a = ok h ∧ decodeSocks5UdpHeader (h ++ p) = ok (a, h.length)) ∧
    (∀ b : Bytes, decodeSocks5UdpHeader b ≠ panic ∧
      ∀ (a : SocksAddr) (h : Nat),
        (decodeSocks5UdpHeader b = ok (a, h) ↔
          ∃ r0 r1 rest, a.WellFormed ∧ b = wireHeader r0 r1 a ++ rest ∧
            h = (wireHeader r0 r1 a).length) ∧
        (decodeSocks5UdpHeader b = ok (a, h) →
          h ≤ b.length ∧ encodeSocks5UdpHeader a = ok (0 :: 0 :: (b.take h).drop 2))) := by
  refine ⟨fun a p ha => ⟨wireHeader 0 0 a, encode_eq a ha, decode_wireHeader 0 0 a ha p⟩,
    fun b => ?_⟩
  rcases decode_cases b with ⟨e, he⟩ | ⟨r0, r1, a, rest, ha, rfl⟩
  · -- Rejected: there is no header, since the decoder would have read it.
    refine ⟨fun hp => ?_, fun a h => ⟨⟨fun hok => ?_, ?_⟩, fun hok => ?_⟩⟩
    · rw [he] at hp
      cases hp
    · rw [he] at hok
      cases hok
    · rintro ⟨r0, r1, rest, ha, rfl, -⟩
      rw [decode_wireHeader r0 r1 a ha rest] at he
      cases he
    · rw [he] at hok
      cases hok
  -- Accepted: the decoder is a function, so the header it found is the only one.
  · have hdec := decode_wireHeader r0 r1 a ha rest
    refine ⟨fun hp => ?_, fun a' h => ⟨⟨fun hok => ?_, ?_⟩, fun hok => ?_⟩⟩
    · rw [hdec] at hp
      cases hp
    · rw [hdec] at hok
      cases hok
      exact ⟨r0, r1, rest, ha, rfl, (wireHeader_length r0 r1 a).symm⟩
    · rintro ⟨s0, s1, rest', ha', hb, rfl⟩
      rw [hb, decode_wireHeader s0 s1 a' ha' rest', wireHeader_length]
    · rw [hdec] at hok
      cases hok
      rw [← wireHeader_length r0 r1 a, List.length_append, List.take_left, encode_eq a ha]
      exact ⟨Nat.le_add_right _ _, rfl⟩

theorem header_codec_exact_domain :
    (⟨.domain ⟨2, [97, 98]⟩, 443⟩ : SocksAddr).WellFormed ∧
      ∃ h, encodeSocks5UdpHeader ⟨.domain ⟨2, [97, 98]⟩, 443⟩ = ok h ∧
        decodeSocks5UdpHeader (h ++ [1, 2, 3]) = ok (⟨.domain ⟨2, [97, 98]⟩, 443⟩, h.length) :=
  ⟨rfl, header_codec_exact.1 ⟨.domain ⟨2, [97, 98]⟩, 443⟩ [1, 2, 3] rfl⟩

end Socks

end ProxyPen
