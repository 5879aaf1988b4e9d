import ProxyPen.Core.Target
import ProxyPen.Theory.Text

/-!
# Literal Targets

A target given by an IP address instead of a name. The host of such a URL is
the dotted form of an IPv4 address, or an IPv6 address in square brackets, and
every part of the program decides by the parser of the standard library
whether it is an address at all. The parser reads back every dotted form, and
it reads no text that starts with a bracket. So an IPv4 target is addressed by
its address everywhere, and an IPv6 target is taken for a domain: it goes to
the proxy as a name, QUIC is pointed at the relay, and a DNS server is asked
about it.

## Main definitions

* `Literal`: The host text of an address in a URL.
* `AddressedByIp`: Every path uses the address of a target.

## Theorems

* `readDigits_run`: Reading a run of digits.
* `parseIpAddr_ipv4Text`: Every dotted form is read back.
* `parseIpAddr_bracket`: No bracketed text is an address.
* `literal_target_iff`: The literals that are addressed by their address.
-/

namespace ProxyPen

open Outcome Protocol Net Socks

namespace Net

/-! ## Dotted forms -/

/-- What follows a number does not continue it. -/
def Ends (radix : Nat) (rest : Bytes) : Prop := ∀ b ∈ rest.head?, toDigit radix b = none

/-- The value of a run of digits behind `result`. -/
def digitsValue (radix : Nat) (result : Nat) (ds : Bytes) : Nat :=
  ds.foldl (fun v b => v * radix + (toDigit radix b).getD 0) result

theorem readDigits_ends {radix maxDigits result count : Nat} {rest : Bytes} (h : Ends radix rest) :
    readDigits radix maxDigits result count rest = some (result, count, rest) := by
  rcases rest with _ | ⟨b, bs⟩
  · rfl
  · rw [readDigits, h b rfl]

/-- A run of digits is read to its end. -/
theorem readDigits_run {radix maxDigits : Nat} {rest : Bytes} (hrest : Ends radix rest) (ds : Bytes)
    (hds : ∀ b ∈ ds, (toDigit radix b).isSome = true) (result count : Nat)
    (hmax : count + ds.length ≤ maxDigits) :
    readDigits radix maxDigits result count (ds ++ rest)
      = some (digitsValue radix result ds, count + ds.length, rest) := by
  induction ds generalizing result count with
  | nil => exact readDigits_ends hrest
  | cons b ds ih =>
      rcases List.forall_mem_cons.mp hds with ⟨hb, hds⟩
      rcases Option.isSome_iff_exists.mp hb with ⟨d, hd⟩
      rw [List.length_cons] at hmax
      rw [List.cons_append, readDigits, hd]
      simp only
      rw [if_neg (by omega), ih hds _ _ (by omega), digitsValue, digitsValue, List.foldl_cons, hd,
        Option.getD_some, List.length_cons, Nat.add_assoc, Nat.add_comm 1]

/-- What the parser asks of the text of an octet. -/
def OctetText (o : UInt8) (ds : Bytes) : Prop :=
  ds.all (fun b => (toDigit 10 b).isSome) = true ∧ ds.length ≤ 3 ∧ ds.length ≠ 0 ∧
    (ds.head? = some 48 → ds.length ≤ 1) ∧ digitsValue 10 0 ds = o.toNat

instance (o : UInt8) (ds : Bytes) : Decidable (OctetText o ds) :=
  inferInstanceAs (Decidable (_ ∧ _))

theorem octetText (o : UInt8) : OctetText o (strBytes (toString o.toNat)) := by
  have h : ∀ n < 256, OctetText (UInt8.ofNat n) (strBytes (toString n)) := by
    decide +kernel
  have ho := h o.toNat o.toNat_lt
  rwa [UInt8.ofNat_toNat] at ho

theorem readOctet_text (o : UInt8) {rest : Bytes} (hrest : Ends 10 rest) :
    readOctet (strBytes (toString o.toNat) ++ rest) = some (o, rest) := by
  rcases octetText o with ⟨hdigits, hmax, hne, hzero, hvalue⟩
  generalize strBytes (toString o.toNat) = ds at hdigits hmax hne hzero hvalue ⊢
  have hread : readDigits 10 3 0 0 (ds ++ rest) = some (digitsValue 10 0 ds, 0 + ds.length, rest) :=
    readDigits_run hrest ds (List.all_eq_true.mp hdigits) 0 0 (by omega)
  have hhead : (ds ++ rest).head? = ds.head? := by
    rcases ds with _ | ⟨b, ds⟩
    · exact absurd rfl hne
    · rfl
  have hoctal : ¬ ((ds ++ rest).head? = some 48 ∧ 0 + ds.length > 1) := by
    rw [hhead]
    intro h
    have hlen := hzero h.1
    omega
  have hnumber : readNumber 10 3 256 false (ds ++ rest) = some (o.toNat, rest) := by
    simp only [readNumber, hread, Option.bind_eq_bind, Option.bind_some, hvalue]
    rw [if_neg (by omega), if_neg (fun h => hoctal h.2), if_pos o.toNat_lt]
  simp only [readOctet, hnumber, Option.bind_eq_bind, Option.bind_some, UInt8.ofNat_toNat]

theorem ends_nil (radix : Nat) : Ends radix [] := fun b hb => absurd hb (by simp)

theorem ends_dot (rest : Bytes) : Ends 10 (46 :: rest) := by
  intro b hb
  rw [List.head?_cons, Option.mem_def, Option.some.injEq] at hb
  rw [← hb]
  decide

theorem strBytes_ipv4Text (ip : List.Vector UInt8 4) :
    strBytes (ipv4Text ip) = strBytes (toString (ip.get 0).toNat) ++
      (46 :: (strBytes (toString (ip.get 1).toNat) ++ (46 :: (strBytes (toString (ip.get 2).toNat) ++
        (46 :: strBytes (toString (ip.get 3).toNat)))))) := by
  have hdot : strBytes "." = [46] := by decide
  simp only [ipv4Text, strBytes_append, hdot, List.append_assoc, List.cons_append, List.nil_append]

theorem vector_four (ip : List.Vector UInt8 4) :
    (.cons (ip.get 0) (.cons (ip.get 1) (.cons (ip.get 2) (.cons (ip.get 3) .nil)))
      : List.Vector UInt8 4) = ip := by
  rcases ip with ⟨_ | ⟨a, _ | ⟨b, _ | ⟨c, _ | ⟨d, _ | ⟨e, l⟩⟩⟩⟩⟩, h⟩
  case cons.cons.cons.cons.nil => rfl
  all_goals simp only [List.length_cons, List.length_nil] at h
  all_goals omega

/-- Every dotted form is read back. -/
theorem parseIpAddr_ipv4Text (ip : List.Vector UInt8 4) :
    parseIpAddr (ipv4Text ip) = some (.v4 ip) := by
  have hread : readIpv4Addr (strBytes (ipv4Text ip)) = some (ip, []) := by
    have hlast := readOctet_text (ip.get 3) (ends_nil 10)
    rw [List.append_nil] at hlast
    rw [strBytes_ipv4Text, readIpv4Addr]
    simp only [readSeparator, gt_iff_lt, Nat.lt_irrefl, Nat.zero_lt_succ, if_true, if_false,
      readOctet_text _ (ends_dot _), hlast, Option.bind_eq_bind, Option.bind_some, vector_four]
  rw [parseIpAddr, readIpAddr, hread]

/-! ## Brackets -/

/-- The parser stops at a bracket, before the first number. -/
theorem readIpAddr_bracket (bs : Bytes) : readIpAddr (91 :: bs) = none := by
  have hnumber : ∀ radix maxDigits values zero, radix ≤ 16 →
      readNumber radix maxDigits values zero (91 :: bs) = none := by
    intro radix maxDigits values zero hradix
    have hdigit : toDigit radix 91 = none := rfl
    rw [readNumber, readDigits, hdigit]
    rfl
  have hv4 : readIpv4Addr (91 :: bs) = none := by
    rw [readIpv4Addr, readSeparator, if_neg (Nat.lt_irrefl 0), readOctet,
      hnumber 10 3 256 false (by omega)]
    rfl
  have hgroups : readGroups 8 0 (91 :: bs) = ([], false, 91 :: bs) := by
    rw [readGroups, if_pos (by omega), readSeparator, if_neg (Nat.lt_irrefl 0), hv4, readSeparator,
      if_neg (Nat.lt_irrefl 0), readGroup, hnumber 16 4 65536 true (by omega)]
  rw [readIpAddr, hv4, readIpv6Addr, hgroups]
  rfl

/-- No bracketed text is an address. -/
theorem parseIpAddr_bracket (text : String) : parseIpAddr ("[" ++ text ++ "]") = none := by
  have hbracket : strBytes "[" = [91] := by decide
  rw [parseIpAddr, strBytes_append, strBytes_append, hbracket, List.append_assoc,
    List.singleton_append, readIpAddr_bracket]

end Net

/-! ## Targets -/

/-- The text an address is the host of a URL as. -/
inductive Literal : IpAddr → String → Prop where
  | v4 (octets : List.Vector UInt8 4) : Literal (.v4 octets) (ipv4Text octets)
  | v6 (octets : List.Vector UInt8 16) (text : String) : Literal (.v6 octets) ("[" ++ text ++ "]")

/-- Every path uses the address: a SOCKS5 connection, QUIC through a proxy, a
    direct connection, and a run with a DNS server, which asks it nothing. -/
structure AddressedByIp (lookupHost : String → Outcome IoError (List SocketAddr)) (ip : IpAddr)
    (port : UInt16) (target : TestTarget) : Prop where
  socks : target.toSocksAddr = SocksAddr.ofSocketAddr { ip, port }
  quic : ∀ relayAddr, Http3.resolveTargetForSocks target relayAddr = ok { ip, port }
  direct : Direct.resolveTarget lookupHost target = ok { ip, port }
  dns : ∀ dns resolve, prepareTarget (some dns) resolve lookupHost target = ok target

/-- The target a URL with a host stands for. -/
def urlTarget (url : Url) (host : String) (insecure : Bool) : TestTarget :=
  { host, port := url.port.getD (if decide (url.scheme = "https") then 443 else 80),
    path := url.path, useTls := decide (url.scheme = "https"), resolvedAddr := none,
    dangerAcceptInvalidCerts := insecure }

theorem parseTargetUrl_eq {parse : String → Outcome String Url} {raw : String} {url : Url}
    {host : String} (insecure : Bool) (hparse : parse raw = ok url) (hhost : url.hostStr = some host) :
    parseTargetUrl parse raw insecure = ok (urlTarget url host insecure) := by
  rw [parseTargetUrl, hparse, ok_bind, hhost]
  rfl

/-- A host the parser reads is addressed by what it reads. -/
theorem addressedByIp_of_parse {lookupHost : String → Outcome IoError (List SocketAddr)}
    {target : TestTarget} {ip : IpAddr} (hnone : target.resolvedAddr = none)
    (hip : parseIpAddr target.host = some ip) : AddressedByIp lookupHost ip target.port target where
  socks := by simp only [TestTarget.toSocksAddr, hnone, hip]
  quic relayAddr := by simp only [Http3.resolveTargetForSocks, hnone, hip]
  direct := by simp only [Direct.resolveTarget, hnone, hip]
  dns dns resolve := by simp [prepareTarget, hip]

/-- A host the parser does not read is sent to the proxy as a domain. -/
theorem toSocksAddr_of_not_parse {target : TestTarget} (hnone : target.resolvedAddr = none)
    (hip : parseIpAddr target.host = none) :
    target.toSocksAddr = SocksAddr.fromDomain target.host target.port := by
  simp only [TestTarget.toSocksAddr, hnone, hip]

theorem fromDomain_ne_ofSocketAddr (name : String) (port : UInt16) (a : SocketAddr) :
    SocksAddr.fromDomain name port ≠ SocksAddr.ofSocketAddr a := by
  rcases a with ⟨_ | _, _⟩ <;>
    simp [SocksAddr.fromDomain, SocksAddr.ofSocketAddr]

/-- A target URL whose host is the literal of an address, with any port or
    none and whatever the system's lookup returns, gives a target that every
    path addresses by that address, exactly where it is an IPv4 address. -/
theorem literal_target_iff (parse : String → Outcome String Url) (raw : String) (insecure : Bool)
    (lookupHost : String → Outcome IoError (List SocketAddr)) (url : Url) (ip : IpAddr)
    (host : String) (hparse : parse raw = ok url) (hhost : url.hostStr = some host)
    (hliteral : Literal ip host) :
    (∃ target, parseTargetUrl parse raw insecure = ok target ∧
      target.port = url.port.getD (if decide (url.scheme = "https") then 443 else 80) ∧
      AddressedByIp lookupHost ip target.port target) ↔ ∃ octets, ip = .v4 octets := by
  rw [parseTargetUrl_eq insecure hparse hhost]
  constructor
  · intro h
    rcases h with ⟨target, htarget, -, haddressed⟩
    rw [← Outcome.ok.inj htarget] at haddressed
    rcases hliteral with octets | ⟨octets, text⟩
    · exact ⟨octets, rfl⟩
    · -- The brackets make it a domain.
      have hdomain : (urlTarget url ("[" ++ text ++ "]") insecure).toSocksAddr = _ :=
        toSocksAddr_of_not_parse rfl (parseIpAddr_bracket text)
      exact absurd (hdomain.symm.trans haddressed.socks) (fromDomain_ne_ofSocketAddr _ _ _)
  · intro h
    rcases h with ⟨octets, rfl⟩
    rcases hliteral with _ | _
    exact ⟨_, rfl, rfl, addressedByIp_of_parse rfl (parseIpAddr_ipv4Text octets)⟩

/-- What a URL parser makes of two texts. -/
def parseLiteralUrls (raw : String) : Outcome String Url :=
  if raw = "http://1.2.3.4:8080/" then ok ⟨"http", "", none, some "1.2.3.4", some 8080, "/"⟩
  else if raw = "http://[::1]:8080/" then ok ⟨"http", "", none, some "[::1]", some 8080, "/"⟩
  else err "relative URL without a base"

theorem literal_dotted : ipv4Text ⟨[1, 2, 3, 4], rfl⟩ = "1.2.3.4" := by decide +kernel

theorem literal_target_iff_dotted :
    ∃ target, parseTargetUrl parseLiteralUrls "http://1.2.3.4:8080/" false = ok target ∧
      target.port = 8080 ∧
      AddressedByIp (fun _ => ok []) (.v4 ⟨[1, 2, 3, 4], rfl⟩) target.port target :=
  (literal_target_iff parseLiteralUrls "http://1.2.3.4:8080/" false (fun _ => ok [])
    ⟨"http", "", none, some "1.2.3.4", some 8080, "/"⟩ (.v4 ⟨[1, 2, 3, 4], rfl⟩) "1.2.3.4" (by decide)
    rfl (literal_dotted ▸ Literal.v4 _)).mpr ⟨_, rfl⟩

/-- The loopback address of IPv6. -/
def loopback : IpAddr := .v6 ⟨[0, 0, 0, 0, 0, 0, 0, 0, 0, 0, 0, 0, 0, 0, 0, 1], rfl⟩

/-- The target of `http://[::1]:8080/`. -/
def loopbackTarget : TestTarget := ⟨"[::1]", 8080, "/", false, none, false⟩

/-- `[::1]` is sent to the proxy as a domain, QUIC connects to the relay, and a
    DNS server that does not answer ends the run. -/
theorem bracketed_target_is_domain :
    parseTargetUrl parseLiteralUrls "http://[::1]:8080/" false = ok loopbackTarget ∧
      Literal loopback loopbackTarget.host ∧
      loopbackTarget.toSocksAddr = SocksAddr.fromDomain "[::1]" 8080 ∧
      (∀ relayAddr, Http3.resolveTargetForSocks loopbackTarget relayAddr = ok relayAddr) ∧
      prepareTarget (some ⟨.direct, "9.9.9.9:53", 7, none⟩) false (fun _ => ok []) loopbackTarget
        = err (.invalidConfig "DNS query to 9.9.9.9:53 timed out") ∧
      ¬ AddressedByIp (fun _ => ok []) loopback 8080 loopbackTarget := by
  have hparse : parseIpAddr loopbackTarget.host = none := parseIpAddr_bracket "::1"
  have hdomain := toSocksAddr_of_not_parse rfl hparse
  refine ⟨by decide, Literal.v6 _ "::1", hdomain, ?_, ?_, ?_⟩
  · intro relayAddr
    simp only [Http3.resolveTargetForSocks, loopbackTarget] at hparse ⊢
    rw [hparse]
  · rw [prepareTarget, hparse]
    decide
  · intro h
    exact fromDomain_ne_ofSocketAddr _ _ _ (hdomain.symm.trans h.socks)

end ProxyPen
