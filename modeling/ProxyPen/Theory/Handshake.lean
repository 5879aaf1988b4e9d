import ProxyPen.Core.Handshake
import ProxyPen.Theory.Messages
import ProxyPen.Theory.SocksHeader

/-!
# Length Bytes of the SOCKS5 Messages

The fields of a SOCKS5 message that have a length byte in front: username and
password of the handshake, and the domain of an address. The length of the
text is cast to a byte and nothing checks that it fits, so a longer field goes
out under the length it has modulo 256. What the proxy reads is then another
text, and for the credentials the bytes that are left over are read as the
next field.

## Main definitions

* `WritesVec`: What is known of the library that writes a `VarVec`.
* `readCredentials`: A receiver of the handshake.
* `CredentialsKept`, `DomainKept`: The receiver reads what was to be sent.

## Theorems

* `converse_authenticate`: What a successful handshake has written.
* `credentialsKept_iff`: The credentials that are received as they are.
* `domainKept_iff`: The domains that are.
* `fields_kept_iff`: All fields together.
-/

namespace ProxyPen

namespace Socks

open Outcome Protocol Net Proc

/-- A `VarVec` is written as its length byte followed by its contents, or by as
    many of them as the byte counts. -/
def WritesVec (writeVec : VarVec → Bytes) : Prop :=
  (∀ v, writeVec v = v.len :: v.contents) ∨
    ∀ v, writeVec v = v.len :: v.contents.take v.len.toNat

theorem ofString_len (s : String) :
    (VarVec.ofString s).len.toNat = (strBytes s).length % 256 := by
  rw [VarVec.ofString, UInt8.toNat_ofNat']

/-- A field that fits its length byte is written whole. -/
theorem writeVec_of_fits {writeVec : VarVec → Bytes} (hw : WritesVec writeVec) {v : VarVec}
    (h : v.len.toNat = v.contents.length) : writeVec v = v.len :: v.contents := by
  rcases hw with hall | hfirst
  · exact hall v
  · rw [hfirst v, h, List.take_length]

/-- Every field starts with its length byte. -/
theorem writeVec_eq_cons {writeVec : VarVec → Bytes} (hw : WritesVec writeVec) (v : VarVec) :
    ∃ rest, writeVec v = v.len :: rest := by
  rcases hw with hall | hfirst
  · exact ⟨_, hall v⟩
  · exact ⟨_, hfirst v⟩

/-! ## Handshake -/

section

variable {κ ε : Type}

/-- A receiver of the handshake: the offered methods, and username and password
    of the request behind them. -/
def readCredentials : Proc κ ε (Bytes × Bytes) := do
  let version ← readU8
  if version ≠ 0x05 then Proc.fail "not SOCKS5"
  else
    let methods ← readU8
    let _ ← Proc.read methods.toNat
    let subversion ← readU8
    if subversion ≠ 0x01 then Proc.fail "not the password method"
    else
      let userLen ← readU8
      let username ← Proc.read userLen.toNat
      let passLen ← readU8
      let password ← Proc.read passLen.toNat
      return (username, password)

/-- What the client writes in a handshake with credentials. -/
def handshakeBytes (writeVec : VarVec → Bytes) (cred : ProxyAuth) : Bytes :=
  (AuthReq.mk socks5Version ⟨1, [authMethodPassword]⟩).encode writeVec ++
    (PasswordAuthReq.mk 0x01 (VarVec.ofString cred.username)
      (VarVec.ofString cred.password)).encode writeVec

theorem converse_readU8 {α : Type} (f : UInt8 → Proc κ ε α) (inp : Bytes) :
    converse (readU8 >>= f) inp
      = if 1 ≤ inp.length then converse (f (UInt8.ofNat (beNat (inp.take 1)))) (inp.drop 1)
        else (none, []) := rfl

/-- A program that reads a byte and then succeeds has found one, and reading it
    has written nothing. -/
theorem converse_readU8_some {α : Type} {f : UInt8 → Proc κ ε α} {inp : Bytes} {a : α}
    (h : (converse (readU8 >>= f) inp).1 = some a) :
    ∃ b rest, converse (readU8 >>= f) inp = converse (f b) rest := by
  rw [converse_readU8] at h
  by_cases hlen : 1 ≤ inp.length
  · exact ⟨_, _, by rw [converse_readU8, if_pos hlen]⟩
  · rw [if_neg hlen] at h
    exact absurd h (by simp only [reduceCtorEq, not_false_eq_true])

theorem converse_write {α : Type} (bs : Bytes) (f : Unit → Proc κ ε α) (inp : Bytes) :
    converse (Proc.write bs >>= f) inp
      = ((converse (f ()) inp).1, bs ++ (converse (f ()) inp).2) := rfl

/-- A check that a successful program has made was passed. -/
theorem converse_check_some {α : Type} {c : Prop} [Decidable c] {msg : String} {p : Proc κ ε α}
    {inp : Bytes} {a : α} (h : (converse (if c then Proc.fail msg else p) inp).1 = some a) :
    ¬ c := by
  intro hc
  rw [if_pos hc] at h
  exact absurd h (by simp only [converse, reduceCtorEq, not_false_eq_true])

/-- A handshake that succeeds has written both messages. -/
theorem converse_authenticate {writeVec : VarVec → Bytes} {cred : ProxyAuth} {inp : Bytes}
    (h : (converse (authenticate writeVec (some cred) : Proc κ ε Unit) inp).1 = some ()) :
    (converse (authenticate writeVec (some cred) : Proc κ ε Unit) inp).2
      = handshakeBytes writeVec cred := by
  unfold authenticate at h ⊢
  simp only [converse_write, Option.isSome_some, if_true] at h ⊢
  -- The choice of the proxy was the method on offer.
  obtain ⟨version, rest, heq⟩ := converse_readU8_some h
  rw [heq] at h ⊢
  obtain ⟨chosen, rest, heq⟩ := converse_readU8_some h
  rw [heq] at h ⊢
  have hversion := converse_check_some h
  rw [if_neg hversion] at h ⊢
  have hmethod := converse_check_some h
  rw [if_neg hmethod] at h ⊢
  -- The reply to the request was a success, and nothing was written behind it.
  rw [converse_write] at h ⊢
  obtain ⟨_, rest, heq⟩ := converse_readU8_some h
  rw [heq] at h ⊢
  obtain ⟨status, rest, heq⟩ := converse_readU8_some h
  rw [heq] at h ⊢
  have hstatus := converse_check_some h
  rw [if_neg hstatus]
  exact congrArg _ (List.append_nil _)

/-- The proxy's replies to a handshake it accepts. -/
def acceptingReplies : Bytes := [0x05, 0x02, 0x01, 0x00]

theorem converse_accepting (writeVec : VarVec → Bytes) (cred : ProxyAuth) :
    (converse (authenticate writeVec (some cred) : Proc κ ε Unit) acceptingReplies).1 = some () :=
  rfl

/-- A handshake that succeeds, whatever the replies, has sent bytes that a
    receiver reads as the very credentials, with none left over. -/
def CredentialsKept (writeVec : VarVec → Bytes) (cred : ProxyAuth) : Prop :=
  ∀ inp, (converse (authenticate writeVec (some cred) : Proc Unit Unit Unit) inp).1 = some () →
    readFrom (readCredentials : Proc Unit Unit (Bytes × Bytes))
        (converse (authenticate writeVec (some cred) : Proc Unit Unit Unit) inp).2
      = some ((strBytes cred.username, strBytes cred.password), [])

theorem readFrom_byte (inp rest : Bytes) (v : UInt8) :
    readFrom (readU8 : Proc κ ε UInt8) inp = some (v, rest) ↔ inp = v :: rest := by
  have hbyte : beBytes 1 v.toNat = [v] := by
    rw [beBytes, beBytes, pow_zero, Nat.div_one, UInt8.ofNat_toNat]
  rw [readFrom_readU8, hbyte, List.singleton_append]

/-- Reading a byte that has to be a certain one. -/
theorem readFrom_check {α : Type} (c : UInt8) (msg : String) (p : Proc κ ε α) (inp rest : Bytes)
    (a : α) :
    readFrom (readU8 >>= fun v => if v ≠ c then Proc.fail msg else p) inp = some (a, rest) ↔
      ∃ mid, inp = c :: mid ∧ readFrom p mid = some (a, rest) := by
  simp only [readFrom_bind, readFrom_byte]
  constructor
  · intro h
    rcases h with ⟨v, mid, rfl, h⟩
    by_cases hv : v = c
    · rw [if_neg (fun hne => hne hv)] at h
      exact ⟨mid, by rw [hv], h⟩
    · rw [if_pos hv] at h
      exact absurd h (by simp only [readFrom, reduceCtorEq, not_false_eq_true])
  · intro h
    rcases h with ⟨mid, rfl, h⟩
    exact ⟨c, mid, rfl, by rw [if_neg (fun hne => hne rfl)]; exact h⟩

/-- Reading a field behind its length byte. -/
theorem readFrom_field {α : Type} (f : Bytes → Proc κ ε α) (inp rest : Bytes) (a : α) :
    readFrom (readU8 >>= fun n => Proc.read n.toNat >>= f) inp = some (a, rest) ↔
      ∃ (field mid : Bytes) (n : UInt8), n.toNat = field.length ∧ inp = n :: (field ++ mid) ∧
        readFrom (f field) mid = some (a, rest) := by
  simp only [readFrom_bind, readFrom_byte, readFrom_read]
  constructor
  · intro h
    rcases h with ⟨n, _, rfl, field, mid, ⟨hlen, rfl⟩, h⟩
    exact ⟨field, mid, n, hlen.symm, rfl, h⟩
  · intro h
    rcases h with ⟨field, mid, n, hlen, rfl, h⟩
    exact ⟨n, _, rfl, field, mid, ⟨hlen.symm, rfl⟩, h⟩

/-- What the receiver reads a byte string as. -/
theorem readCredentials_iff (inp username password : Bytes) :
    readFrom (readCredentials : Proc κ ε (Bytes × Bytes)) inp = some ((username, password), []) ↔
      ∃ (methods : Bytes) (m u p : UInt8), m.toNat = methods.length ∧ u.toNat = username.length ∧
        p.toNat = password.length ∧
        inp = 5 :: m :: (methods ++ 1 :: u :: (username ++ p :: password)) := by
  unfold readCredentials
  simp only [readFrom_check, readFrom_field, readFrom_pure, Prod.mk.injEq]
  constructor
  · intro h
    rcases h with ⟨_, rfl, methods, _, m, hm, rfl, _, rfl, _, _, u, hu, rfl, _, _, p, hp, rfl,
      ⟨rfl, rfl⟩, rfl⟩
    exact ⟨methods, m, u, p, hm, hu, hp, by rw [List.append_nil]⟩
  · intro h
    rcases h with ⟨methods, m, u, p, hm, hu, hp, rfl⟩
    exact ⟨_, rfl, methods, _, m, hm, rfl, _, rfl, username, _, u, hu, rfl, password, [], p, hp,
      by rw [List.append_nil], ⟨rfl, rfl⟩, rfl⟩

/-- Credentials are received as they are exactly where both fit their length
    bytes. -/
theorem credentialsKept_iff {writeVec : VarVec → Bytes} (hw : WritesVec writeVec)
    (cred : ProxyAuth) :
    CredentialsKept writeVec cred ↔
      (strBytes cred.username).length ≤ 255 ∧ (strBytes cred.password).length ≤ 255 := by
  have hoffer : (AuthReq.mk socks5Version ⟨1, [authMethodPassword]⟩).encode writeVec = [5, 1, 2] := by
    rw [AuthReq.encode, writeVec_of_fits hw rfl]
    rfl
  constructor
  · intro h
    have hread := h acceptingReplies (converse_accepting writeVec cred)
    rw [converse_authenticate (converse_accepting writeVec cred), readCredentials_iff] at hread
    rcases hread with ⟨methods, m, u, p, hm, hu, hp, hbytes⟩
    rw [handshakeBytes, hoffer, PasswordAuthReq.encode, List.cons_append, List.cons.injEq,
      List.cons_append, List.cons.injEq] at hbytes
    rcases hbytes with ⟨-, rfl, hbytes⟩
    rcases List.append_inj hbytes hm with ⟨-, hrest⟩
    rw [List.cons.injEq] at hrest
    -- The first length byte is the username's, so it counts all of it.
    have hulen := ofString_len cred.username
    have hfirst := congrArg List.head? hrest.2
    rcases writeVec_eq_cons hw (VarVec.ofString cred.username) with ⟨urest, hurest⟩
    rw [hurest, List.cons_append, List.head?_cons, List.head?_cons, Option.some.injEq] at hfirst
    rw [hfirst, hu] at hulen
    -- Then the second one is the password's.
    have hplen := ofString_len cred.password
    have hsecond := hrest.2
    rw [writeVec_of_fits hw (by rw [hfirst, hu]; rfl), hfirst, List.cons_append, List.cons.injEq]
      at hsecond
    rcases writeVec_eq_cons hw (VarVec.ofString cred.password) with ⟨prest, hprest⟩
    rw [hprest] at hsecond
    have hpass := List.append_cancel_left hsecond.2
    rw [List.cons.injEq] at hpass
    rw [hpass.1, hp] at hplen
    omega
  · intro h inp hinp
    rcases h with ⟨hu, hp⟩
    rw [converse_authenticate hinp, readCredentials_iff]
    have hulen := ofString_len cred.username
    have hplen := ofString_len cred.password
    rw [Nat.mod_eq_of_lt (by omega)] at hulen hplen
    refine ⟨[2], 1, _, _, rfl, hulen, hplen, ?_⟩
    rw [handshakeBytes, hoffer, PasswordAuthReq.encode, writeVec_of_fits hw hulen,
      writeVec_of_fits hw hplen]
    rfl

end

/-! ## Domains -/

/-- The header of a target reports an error, or a receiver reads the very host
    and port from it and goes on right behind it. -/
def DomainKept (target : TestTarget) : Prop :=
  (∃ e, encodeSocks5UdpHeader target.toSocksAddr = err e) ∨
    ∃ header len, encodeSocks5UdpHeader target.toSocksAddr = ok header ∧
      ∀ payload, decodeSocks5UdpHeader (header ++ payload)
        = ok (⟨.domain ⟨len, strBytes target.host⟩, target.port⟩, header.length)

/-- The domain that a header names: as much of the name as the length byte
    counts. -/
def cutDomain (name : String) (port : UInt16) : SocksAddr :=
  { addr := .domain ⟨(VarVec.ofString name).len,
      (strBytes name).take (VarVec.ofString name).len.toNat⟩, port }

theorem cutDomain_wellFormed (name : String) (port : UInt16) :
    (cutDomain name port).WellFormed := by
  show (VarVec.ofString name).len.toNat = ((strBytes name).take _).length
  rw [List.length_take, ofString_len]
  have hmod := Nat.mod_le (strBytes name).length 256
  omega

theorem encode_fromDomain (name : String) (port : UInt16) :
    encodeSocks5UdpHeader (SocksAddr.fromDomain name port)
      = ok (wireHeader 0 0 (cutDomain name port)) := by
  have hle : (VarVec.ofString name).len.toNat ≤ (strBytes name).length := by
    rw [ofString_len]
    exact Nat.mod_le _ _
  have hslice : (slice (strBytes name) 0 (VarVec.ofString name).len.toNat : Outcome IoError Bytes)
      = ok ((strBytes name).take (VarVec.ofString name).len.toNat) := by
    rw [slice, if_pos ⟨Nat.zero_le _, hle⟩, List.drop_zero, Nat.sub_zero]
  have haddr : encodeAddr (SocksAddr.fromDomain name port).addr
      = ok (addrBytes (cutDomain name port).addr) := by
    show (slice (strBytes name) 0 (VarVec.ofString name).len.toNat >>= _) = _
    rw [hslice, ok_bind]
    rfl
  rw [encodeSocks5UdpHeader, haddr, ok_bind, portBytes_eq]
  rfl

/-- A domain is received as it is exactly where it fits its length byte. -/
theorem domainKept_iff {target : TestTarget} (hres : target.resolvedAddr = none)
    (hip : parseIpAddr target.host = none) :
    DomainKept target ↔ (strBytes target.host).length ≤ 255 := by
  unfold DomainKept
  have hsocks : target.toSocksAddr = SocksAddr.fromDomain target.host target.port := by
    simp only [TestTarget.toSocksAddr, hres, hip]
  have hdecode : ∀ payload, decodeSocks5UdpHeader
      (wireHeader 0 0 (cutDomain target.host target.port) ++ payload) = _ :=
    decode_wireHeader 0 0 _ (cutDomain_wellFormed target.host target.port)
  have hlen := ofString_len target.host
  rw [hsocks, encode_fromDomain]
  constructor
  · intro h
    rcases h with ⟨e, he⟩ | ⟨header, len, hheader, hread⟩
    · exact absurd he (by simp only [reduceCtorEq, not_false_eq_true])
    · -- The receiver reads the name cut to its length byte.
      have hboth := (hdecode []).symm.trans (Outcome.ok.inj hheader ▸ hread [])
      simp only [Outcome.ok.injEq, Prod.mk.injEq, cutDomain, SocksAddr.mk.injEq,
        AddrOrDomain.domain.injEq, VarVec.mk.injEq] at hboth
      have hcut := congrArg List.length hboth.1.1.2
      rw [List.length_take] at hcut
      omega
  · intro h
    right
    rw [Nat.mod_eq_of_lt (by omega)] at hlen
    refine ⟨_, (VarVec.ofString target.host).len, rfl, ?_⟩
    intro payload
    rw [hdecode payload, wireHeader_length, cutDomain, hlen, List.take_length]

/-- Username, password and domain all reach the proxy as they are, or an error
    is reported, exactly where each of them has at most 255 bytes. -/
theorem fields_kept_iff (writeVec : VarVec → Bytes) (hw : WritesVec writeVec) (cred : ProxyAuth)
    (target : TestTarget) (hres : target.resolvedAddr = none)
    (hip : parseIpAddr target.host = none) :
    (CredentialsKept writeVec cred ∧ DomainKept target) ↔
      (strBytes cred.username).length ≤ 255 ∧ (strBytes cred.password).length ≤ 255 ∧
        (strBytes target.host).length ≤ 255 := by
  rw [credentialsKept_iff hw, domainKept_iff hres hip, and_assoc]

/-- The length byte and the contents. -/
def writeWhole (v : VarVec) : Bytes := v.len :: v.contents

theorem writesVec_writeWhole : WritesVec writeWhole := Or.inl fun _ => rfl

theorem fields_kept_iff_short :
    CredentialsKept writeWhole ⟨"user", "secret"⟩ ∧
      DomainKept ⟨"example.com", 80, "/", false, none, false⟩ :=
  (fields_kept_iff writeWhole writesVec_writeWhole ⟨"user", "secret"⟩
    ⟨"example.com", 80, "/", false, none, false⟩ rfl (by decide +kernel)).mpr (by decide)

theorem length_strBytes_replicate {c : Char} (hc : (String.utf8EncodeChar c).length = 1)
    (n : Nat) : (strBytes (String.ofList (List.replicate n c))).length = n := by
  rw [strBytes, String.toList_ofList, List.length_flatMap, List.map_replicate, hc,
    List.sum_replicate_nat, Nat.mul_one]

/-- A username of 256 letters. -/
def longUser : ProxyAuth := ⟨String.ofList (List.replicate 256 'a'), "secret"⟩

/-- The handshake of `longUser` succeeds, its request starts with the length
    zero, and no receiver reads it as sent. -/
theorem long_user_misread :
    (converse (authenticate writeWhole (some longUser) : Proc Unit Unit Unit)
        acceptingReplies).1 = some () ∧
      (VarVec.ofString longUser.username).len = 0 ∧ ¬ CredentialsKept writeWhole longUser := by
  have hlen : (strBytes longUser.username).length = 256 :=
    length_strBytes_replicate (by decide) 256
  refine ⟨rfl, ?_, ?_⟩
  · rw [VarVec.ofString, hlen]
    rfl
  · rw [credentialsKept_iff writesVec_writeWhole, hlen]
    omega

end Socks

end ProxyPen
