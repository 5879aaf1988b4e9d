import ProxyPen.Core.Target

/-!
# Authorities of Requests

What a request says about where it goes. A request names its target by an
authority, a host and a port, and leaves the port out where it is the one its
scheme implies. The scheme of an HTTP/1.1 request is that of the connection;
HTTP/2 and HTTP/3 requests are always for `https`, and only HTTP/2 refuses a
target without TLS. `authority` leaves out both 80 and 443, whatever the
scheme, so a receiver reads another port into some of the requests.

## Main definitions

* `readAuthority`: The host and the port an authority names.
* `HostText`: A host without a colon, or in brackets.
* `Named`: All three requests name the target.

## Theorems

* `readAuthority_host`: An authority without a port.
* `readAuthority_hostPort`: An authority with a port.
* `named_iff`: The targets whose requests name them.
-/

namespace ProxyPen

open Outcome

/-- What follows the last colon. -/
def afterColon (cs : List Char) : List Char := (cs.reverse.takeWhile (fun c => c != ':')).reverse

/-- What stands in front of the last colon. -/
def beforeColon (cs : List Char) : List Char :=
  (cs.reverse.dropWhile (fun c => c != ':')).tail.reverse

/-- The host and the port an authority names under a scheme. Without a port,
    which is where there is no colon outside of brackets, it is the scheme's;
    else it is the number behind the last colon. -/
def readAuthority (defaultPort : Nat) (authority : String) : Option (String × Nat) :=
  let cs := authority.toList
  if ':' ∉ cs ∨ cs.getLast? = some ']' then some (authority, defaultPort)
  else if (afterColon cs).all Char.isDigit ∧ afterColon cs ≠ [] then
    some (String.ofList (beforeColon cs), Nat.ofDigitChars 10 (afterColon cs) 0)
  else none

/-- The hosts in question: no colon, or an IPv6 literal in brackets. -/
def HostText (host : String) : Prop := ':' ∉ host.toList ∨ ∃ text, host = "[" ++ text ++ "]"

theorem readAuthority_host {host : String} (h : HostText host) (defaultPort : Nat) :
    readAuthority defaultPort host = some (host, defaultPort) := by
  unfold readAuthority
  apply if_pos
  rcases h with hcolon | ⟨text, rfl⟩
  · exact Or.inl hcolon
  · right
    rw [String.toList_append, show "]".toList = [']'] by decide, List.getLast?_concat]

theorem toList_port (n : Nat) : (toString n).toList = Nat.toDigits 10 n := by
  rw [Nat.toString_eq_repr, Nat.toList_repr]

theorem isDigit_of_mem_port {n : Nat} {c : Char} (h : c ∈ Nat.toDigits 10 n) : c.isDigit = true :=
  Nat.isDigit_of_mem_toDigits (by omega) (by omega) h

/-- A number has no colon. -/
theorem ne_colon_of_mem_port {n : Nat} {c : Char} (h : c ∈ Nat.toDigits 10 n) :
    (c != ':') = true := by
  have hdigit := isDigit_of_mem_port h
  rw [bne_iff_ne]
  intro hcolon
  rw [hcolon] at hdigit
  exact absurd hdigit (by decide)

theorem reverse_port (cs : List Char) (n : Nat) :
    (cs ++ ':' :: Nat.toDigits 10 n).reverse = (Nat.toDigits 10 n).reverse ++ ':' :: cs.reverse := by
  rw [List.reverse_append, List.reverse_cons, List.append_assoc, List.singleton_append]

theorem afterColon_port (cs : List Char) (n : Nat) :
    afterColon (cs ++ ':' :: Nat.toDigits 10 n) = Nat.toDigits 10 n := by
  have hrun : ∀ c ∈ (Nat.toDigits 10 n).reverse, (c != ':') = true :=
    fun c hc => ne_colon_of_mem_port (List.mem_reverse.mp hc)
  rw [afterColon, reverse_port, List.takeWhile_append_of_pos hrun,
    List.takeWhile_cons_of_neg (by simp), List.append_nil, List.reverse_reverse]

theorem beforeColon_port (cs : List Char) (n : Nat) :
    beforeColon (cs ++ ':' :: Nat.toDigits 10 n) = cs := by
  have hrun : ∀ c ∈ (Nat.toDigits 10 n).reverse, (c != ':') = true :=
    fun c hc => ne_colon_of_mem_port (List.mem_reverse.mp hc)
  rw [beforeColon, reverse_port, List.dropWhile_append_of_pos hrun,
    List.dropWhile_cons_of_neg (by simp), List.tail_cons, List.reverse_reverse]

/-- A port behind any host is read back. -/
theorem readAuthority_hostPort (defaultPort : Nat) (host : String) (n : Nat) :
    readAuthority defaultPort (host ++ ":" ++ toString n) = some (host, n) := by
  have hcs : (host ++ ":" ++ toString n).toList = host.toList ++ ':' :: Nat.toDigits 10 n := by
    rw [String.toList_append, String.toList_append, toList_port,
      show ":".toList = [':'] by decide, List.append_assoc, List.singleton_append]
  have hne := Nat.toDigits_ne_nil (n := n) (b := 10)
  -- The last character is a digit of the port.
  have hlast : (host.toList ++ ':' :: Nat.toDigits 10 n).getLast? ≠ some ']' := by
    intro h
    have hmem : ']' ∈ Nat.toDigits 10 n := by
      rw [List.getLast?_append, List.getLast?_cons_of_ne_nil hne,
        List.getLast?_eq_some_getLast hne, Option.some_or, Option.some.injEq] at h
      rw [← h]
      exact List.getLast_mem hne
    exact absurd (isDigit_of_mem_port hmem) (by decide)
  unfold readAuthority
  simp only [hcs, afterColon_port, beforeColon_port]
  rw [if_neg, if_pos, String.ofList_toList, Nat.ofDigitChars_ten_toDigits]
  · exact ⟨List.all_eq_true.mpr (fun c hc => isDigit_of_mem_port hc), hne⟩
  · rw [not_or]
    refine ⟨?_, hlast⟩
    rw [Decidable.not_not]
    exact List.mem_append_right _ List.mem_cons_self

/-! ## Requests -/

/-- The `Host` header of the HTTP/1.1 request and the authorities of the HTTP/2
    and HTTP/3 URIs, where there is such a request, name the host and the port
    of the target. -/
structure Named (target : TestTarget) : Prop where
  http1 : ∃ authority,
    Http1.request target = "GET " ++ target.requestPath ++ " HTTP/1.1\r\nHost: " ++ authority ++
      "\r\nConnection: close\r\nUser-Agent: proxypen/0.1\r\n\r\n" ∧
    readAuthority (if target.useTls then 443 else 80) authority
      = some (target.host, target.port.toNat)
  http2 : ∀ uri, Http2.uri target = ok uri →
    ∃ authority, uri = "https://" ++ authority ++ target.requestPath ∧
      readAuthority 443 authority = some (target.host, target.port.toNat)
  http3 : ∃ authority, Http3.uri target = "https://" ++ authority ++ target.requestPath ∧
    readAuthority 443 authority = some (target.host, target.port.toNat)

/-- The authority is what stands between the fixed parts of a request. -/
theorem between_unique {pre post s t : String} (h : pre ++ s ++ post = pre ++ t ++ post) : s = t := by
  have hlist := congrArg String.toList h
  simp only [String.toList_append] at hlist
  exact String.toList_inj.mp (List.append_cancel_left (List.append_cancel_right hlist))

/-- The authority of a target is read back, under the port of a scheme, unless
    a port was left out that the scheme does not imply. -/
theorem readAuthority_authority {target : TestTarget} (h : HostText target.host)
    (defaultPort : Nat) :
    readAuthority defaultPort target.authority = some (target.host, target.port.toNat) ↔
      (target.port = 80 ∨ target.port = 443 → target.port.toNat = defaultPort) := by
  unfold TestTarget.authority
  by_cases helided : target.port = 80 ∨ target.port = 443
  · rw [if_pos helided, readAuthority_host h, Option.some.injEq, Prod.mk.injEq]
    exact ⟨fun heq _ => heq.2.symm, fun heq => ⟨rfl, (heq helided).symm⟩⟩
  · rw [if_neg helided, TestTarget.hostPort, readAuthority_hostPort]
    exact ⟨fun _ helided' => absurd helided' helided, fun _ => rfl⟩

/-- The URI of an HTTP/2 request that is sent. -/
theorem Http2.uri_eq {target : TestTarget} {uri : String} (h : Http2.uri target = ok uri) :
    uri = "https://" ++ target.authority ++ target.requestPath := by
  unfold Http2.uri at h
  by_cases htls : target.useTls = true
  · rw [htls, if_neg (by decide)] at h
    exact (ok.inj h).symm
  · rw [Bool.eq_false_iff.mpr htls, if_pos (by decide)] at h
    exact absurd h (err_ne_ok _ uri)

theorem named_iff_authority (target : TestTarget) :
    Named target ↔
      readAuthority (if target.useTls then 443 else 80) target.authority
          = some (target.host, target.port.toNat) ∧
        readAuthority 443 target.authority = some (target.host, target.port.toNat) := by
  constructor
  · intro h
    rcases h with ⟨⟨a, hrequest, h1⟩, -, ⟨b, huri, h3⟩⟩
    rw [← between_unique hrequest] at h1
    rw [← between_unique huri] at h3
    exact ⟨h1, h3⟩
  · intro h
    refine ⟨⟨_, rfl, h.1⟩, ?_, ⟨_, rfl, h.2⟩⟩
    intro uri huri
    exact ⟨_, Http2.uri_eq huri, h.2⟩

/-- All three requests name the target, exactly where its port is not 80, and
    is 443 only with TLS. -/
theorem named_iff (target : TestTarget) (h : HostText target.host) :
    Named target ↔ target.port ≠ 80 ∧ (target.port = 443 → target.useTls = true) := by
  rw [named_iff_authority, readAuthority_authority h, readAuthority_authority h]
  constructor
  · intro hnamed
    rcases hnamed with ⟨h1, h2⟩
    refine ⟨?_, ?_⟩
    · intro hport
      have hdefault := h2 (Or.inl hport)
      rw [hport] at hdefault
      exact absurd hdefault (by decide)
    · intro hport
      have hdefault := h1 (Or.inr hport)
      by_cases htls : target.useTls = true
      · exact htls
      · rw [hport, if_neg htls] at hdefault
        exact absurd hdefault (by decide)
  · intro hport
    rcases hport with ⟨hne, htls⟩
    -- Only 443 is left out, and there is TLS then.
    refine ⟨?_, ?_⟩
    · intro helided
      have hport := helided.resolve_left hne
      rw [htls hport, hport]
      rfl
    · intro helided
      rw [helided.resolve_left hne]
      rfl

theorem named_iff_tls : Named ⟨"[::1]", 443, "/", true, none, false⟩ :=
  (named_iff ⟨"[::1]", 443, "/", true, none, false⟩ (Or.inr ⟨"::1", rfl⟩)).mpr
    ⟨by decide, fun _ => rfl⟩

/-- `http://example.com:443/` is asked for without its port, which is 80 to a
    receiver. -/
theorem plain_443_misnamed :
    (⟨"example.com", 443, "/", false, none, false⟩ : TestTarget).authority = "example.com" ∧
      readAuthority 80 "example.com" = some ("example.com", 80) ∧
      HostText "example.com" ∧ ¬ Named ⟨"example.com", 443, "/", false, none, false⟩ := by
  have hhost : HostText "example.com" := Or.inl (by decide)
  refine ⟨by decide, readAuthority_host hhost 80, hhost, ?_⟩
  rw [named_iff_authority, readAuthority_authority hhost]
  intro h
  exact absurd (h.1 (Or.inr rfl)) (by decide)

end ProxyPen
