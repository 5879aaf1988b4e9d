import ProxyPen.Core.Command
import ProxyPen.Theory.Tunnel

/-!
# Policies for Connections

What a command does outside of itself, in every world: whatever the resolver
of the system, the DNS server, the proxy and the network answer, and whenever
a timeout fires. A policy says which operations are permitted, given what has
been answered so far. Behind a proxy nothing is connected to but the proxy and
its relay, so the target and the DNS server are only ever named to them. On a
direct transport that is bound to an interface, no socket is connected that
was not bound to it just before.

The contracts of the transports, the tests and the DNS client hold for any
policy that permits the target. They also say what a result stands for: the
exchange it was made of, and the connection which that exchange was had over.

## Main definitions

* `Policy`, `Permitted`: What a command may do.
* `Policy.Allows`: A policy that permits the tests of a target.
* `Connected`, `Opened`, `Associated`: What has just been opened.
* `HeardOver`: What the result of a test stands for.

## Theorems

* `connectTcp_keeps`, `openUdp_keeps`: The contracts of a transport.
* `testOver_keeps`, `testEach_keeps`: The contracts of the tests.
* `heard_of_timedTest`: What a success stands for.
* `resolveOver_keeps`: The contract of the DNS client.
-/

namespace ProxyPen

open Outcome Protocol Net Socks Socks.Associate Calls Cmd

/-! ## Policies -/

/-- What decides whether an operation is permitted, given the past. -/
structure Policy where
  transport : Transport
  /-- the names the system's resolver may be asked -/
  name : Past Answer → String → Prop
  tcp : Past Answer → SocketAddr → Prop
  udp : Past Answer → SocketAddr → Prop
  /-- the destinations the proxy may be told -/
  connect : Past Answer → SocksAddr → Prop
  relayed : Past Answer → SocksAddr → Prop

/-- The socket at hand was bound to the interface, if there is one. -/
def Bound (iface : Option InterfaceSpec) (past : Past Answer) : Prop :=
  ∀ spec, iface = some spec → ∃ ipv6, past.getLast? = some ⟨.bindTo spec ipv6, .ok ()⟩

/-- An association has just been granted, and this is what the address in its
    reply resolves to. -/
def Granted (bindAddr : SocksAddr) (found : Except IoError (List SocketAddr))
    (past : Past Answer) : Prop :=
  ∃ front, past = front ++ [⟨.command cmdUdpAssociate bindHint, .ok bindAddr⟩,
    ⟨.resolve bindAddr, found⟩]

/-- The lookup of the proxy's own name, if there is one. -/
def lookedUpProxy (found proxy : Except IoError (List SocketAddr)) (addr : String) : Past Answer :=
  if looksUp found addr then [⟨.lookup addr, proxy⟩] else []

/-- The relay of an association that has just been granted. -/
def RelayOf (config : ProxyConfig) (past : Past Answer) (relay : SocketAddr) : Prop :=
  ∃ front bindAddr found proxy display, Granted bindAddr found front ∧
    past = front ++ lookedUpProxy found proxy config.addr ∧
    IsRelay ⟨fun _ => found, fun _ => proxy, display⟩ config.addr bindAddr relay

/-- What a policy permits. -/
def Permitted (p : Policy) (past : Past Answer) : Act → Prop
  -- Besides the policy's names, that of the proxy, to place an unspecified relay.
  | .lookup name => p.name past name ∨ ∃ config bindAddr relay rest,
      p.transport = .socks5 config ∧ name = config.addr ∧ parseSocketAddr config.addr = none ∧
      Granted bindAddr (.ok (relay :: rest)) past ∧ relay.ip.isUnspecified = true
  -- The proxy may name anything in its reply.
  | .resolve a => ∃ config, p.transport = .socks5 config ∧
      past.getLast? = some ⟨.command cmdUdpAssociate bindHint, .ok a⟩
  | .dialName addr => ∃ config, p.transport = .socks5 config ∧ addr = config.addr
  | .authenticate auth => ∃ config, p.transport = .socks5 config ∧ auth = config.auth ∧
      past.getLast? = some ⟨.dialName config.addr, .ok ()⟩
  | .command cmd dst => ∃ config, p.transport = .socks5 config ∧
      past.getLast? = some ⟨.authenticate config.auth, .ok ()⟩ ∧
      (cmd = cmdTcpConnect ∧ p.connect past dst ∨ cmd = cmdUdpAssociate ∧ dst = bindHint)
  | .dial addr => ∃ iface, p.transport = .direct iface ∧ p.tcp past addr ∧ Bound iface past
  | .bindTo spec _ => p.transport = .direct (some spec)
  | .udp addr =>
      (∃ iface, p.transport = .direct iface ∧ p.udp past addr ∧ Bound iface past) ∨
        ∃ config, p.transport = .socks5 config ∧ RelayOf config past addr
  | .relayed dst => (∃ config, p.transport = .socks5 config) ∧ p.relayed past dst
  | _ => True

/-- What a policy permits it goes on permitting. -/
structure Policy.Stable (p : Policy) : Prop where
  name : ∀ {past past'}, past <+: past' → ∀ n, p.name past n → p.name past' n
  tcp : ∀ {past past'}, past <+: past' → ∀ a, p.tcp past a → p.tcp past' a
  udp : ∀ {past past'}, past <+: past' → ∀ a, p.udp past a → p.udp past' a
  connect : ∀ {past past'}, past <+: past' → ∀ dst, p.connect past dst → p.connect past' dst
  relayed : ∀ {past past'}, past <+: past' → ∀ dst, p.relayed past dst → p.relayed past' dst

/-- Going on with a result needs no permission. -/
theorem raise_keeps {ε α : Type} {P : Past Answer → Act → Prop} {r : Except ε α}
    {R : α → Past Answer → Prop} {t : Past Answer} (h : ∀ a, r = .ok a → R a t) :
    (raise r).Keeps P R t := by
  cases r with
  | ok a => exact h a rfl
  | error e => trivial

theorem io_keeps {α : Type} {P : Past Answer → Act → Prop} {r : Except IoError α}
    {R : α → Past Answer → Prop} {t : Past Answer} (h : ∀ a, r = .ok a → R a t) :
    (Cmd.io r).Keeps P R t := by
  cases r with
  | ok a => exact h a rfl
  | error e => trivial

theorem ok_of_io {α : Type} {r : Outcome IoError α} {a : α} (h : Dns.io r = ok a) : r = ok a := by
  cases r with
  | ok b => exact congrArg ok (ok.inj h)
  | err e => cases h
  | panic => cases h

/-- The rule of an operation in front of the rest of a program. -/
theorem act_keeps {ε α : Type} {P : Past Answer → Act → Prop} {op : Act}
    {f : Answer op → Cmd ε α} {R : α → Past Answer → Prop} {t : Past Answer} (hop : P t op)
    (hf : ∀ a, (f a).Keeps P R (t ++ [⟨op, a⟩])) : (act op >>= f).Keeps P R t :=
  keeps_seq (keeps_ask hop hf)

/-! ## Transports -/

section

variable (p : Policy) (t : Past Answer)

theorem bound_keeps (iface : Option InterfaceSpec) (hdirect : p.transport = .direct iface)
    (ipv6 : Bool) :
    (Direct.bound iface ipv6).Keeps (Permitted p) (fun _ t' => Bound iface t') t := by
  cases iface with
  | none => exact fun spec hspec => by cases hspec
  | some spec =>
      refine act_keeps hdirect fun bound => raise_keeps fun u hu => ?_
      rintro spec' ⟨⟩
      exact ⟨ipv6, by rw [hu, List.getLast?_concat]⟩

theorem logIn_keeps (config : ProxyConfig) (hproxy : p.transport = .socks5 config) :
    (logIn config).Keeps (Permitted p)
      (fun _ t' => t'.getLast? = some ⟨.authenticate config.auth, .ok ()⟩) t := by
  refine act_keeps ⟨config, hproxy, rfl⟩ fun dialled => keeps_seq (io_keeps fun u hu => ?_)
  refine act_keeps ⟨config, hproxy, rfl, ?_⟩ fun granted => raise_keeps fun v hv => ?_
  · rw [hu, List.getLast?_concat]
  · rw [hv, List.getLast?_concat]

theorem connector_keeps (config : ProxyConfig) (hproxy : p.transport = .socks5 config)
    (target : TestTarget) (hstable : p.Stable) (hdst : p.connect t target.toSocksAddr) :
    (Connector.dial config target).Keeps (Permitted p)
      (fun _ t' => ∃ bindAddr,
        t'.getLast? = some ⟨.command cmdTcpConnect target.toSocksAddr, .ok bindAddr⟩) t := by
  refine keeps_bind (logIn_keeps p t config hproxy) fun u t' hgranted ht' => ?_
  have htold := hstable.connect ht' _ hdst
  refine act_keeps ⟨config, hproxy, hgranted, Or.inl ⟨rfl, htold⟩⟩ fun reply => ?_
  refine keeps_seq (raise_keeps fun bindAddr hreply => ⟨bindAddr, ?_⟩)
  rw [hreply, List.getLast?_concat]

theorem looksUp_eq_true {found : Except IoError (List SocketAddr)} {addr : String}
    (h : looksUp found addr = true) :
    ∃ relay rest, found = .ok (relay :: rest) ∧ relay.ip.isUnspecified = true ∧
      parseSocketAddr addr = none := by
  unfold looksUp at h
  split at h
  · rename_i relay rest
    rcases Bool.and_eq_true_iff.mp h with ⟨hip, hname⟩
    exact ⟨relay, rest, rfl, hip, Option.isNone_iff_eq_none.mp hname⟩
  · cases h

/-- The proxy's own name is looked up only for an unspecified relay. -/
theorem lookUpProxy_keeps (config : ProxyConfig) (hproxy : p.transport = .socks5 config)
    {bindAddr : SocksAddr} {found : Except IoError (List SocketAddr)}
    (hgranted : Granted bindAddr found t) :
    (lookUpProxy found config.addr).Keeps (Permitted p)
      (fun proxy t' => t' = t ++ lookedUpProxy found proxy config.addr) t := by
  unfold lookUpProxy lookedUpProxy
  by_cases hlooks : looksUp found config.addr = true
  · rcases looksUp_eq_true hlooks with ⟨relay, rest, hfound, hip, hname⟩
    simp only [if_pos hlooks]
    exact ⟨Or.inr ⟨config, bindAddr, relay, rest, hproxy, rfl, hname, hfound ▸ hgranted, hip⟩,
      fun proxy => rfl⟩
  · simp only [if_neg hlooks]
    exact (List.append_nil t).symm

theorem associate_dial_keeps (out : Outside) (config : ProxyConfig)
    (hproxy : p.transport = .socks5 config) :
    (Associate.dial out config).Keeps (Permitted p) (fun _ _ => True) t := by
  refine keeps_bind (logIn_keeps p t config hproxy) fun u t₁ hgranted _ => ?_
  refine act_keeps ⟨config, hproxy, hgranted, Or.inr ⟨rfl, rfl⟩⟩ fun reply => ?_
  refine keeps_seq (raise_keeps fun bindAddr hreply => ?_)
  subst hreply
  refine act_keeps ⟨config, hproxy, List.getLast?_concat⟩ fun found => ?_
  have hgranted' : Granted bindAddr found
      (t₁ ++ [⟨.command cmdUdpAssociate bindHint, .ok bindAddr⟩] ++ [⟨.resolve bindAddr, found⟩]) :=
    ⟨t₁, List.append_assoc _ _ _⟩
  refine keeps_bind (lookUpProxy_keeps p _ config hproxy hgranted') fun proxy t₂ hasked _ => ?_
  refine keeps_seq (keeps_lift fun relay hrelay => ?_)
  refine act_keeps (Or.inr ⟨config, hproxy, _, bindAddr, found, proxy, out.ioText, hgranted', hasked,
    relayAddr_eq_ok.mp (ok_of_mapErr hrelay)⟩) ?_
  exact fun connected => keeps_seq (io_keeps fun _ _ => trivial)

/-- Where a target is, before and after a lookup. -/
inductive Found (target : TestTarget) (past : Past Answer) : SocketAddr → Prop where
  | resolved (ip : IpAddr) (h : target.resolvedAddr = some ip) : Found target past ⟨ip, target.port⟩
  | literal (ip : IpAddr) (hnone : target.resolvedAddr = none)
      (h : parseIpAddr target.host = some ip) : Found target past ⟨ip, target.port⟩
  | lookedUp (addr : SocketAddr) (rest : List SocketAddr) (hnone : target.resolvedAddr = none)
      (hname : parseIpAddr target.host = none)
      (h : (⟨.lookup target.hostPort, .ok (addr :: rest)⟩ : (op : Act) × Answer op) ∈ past) :
      Found target past addr

theorem Found.extend {target : TestTarget} {past past' : Past Answer} {addr : SocketAddr}
    (h : Found target past addr) (hpast : past <+: past') : Found target past' addr := by
  cases h with
  | resolved ip hip => exact Found.resolved ip hip
  | literal ip hnone hip => exact Found.literal ip hnone hip
  | lookedUp _ rest hnone hname hlook =>
      exact Found.lookedUp addr rest hnone hname (hpast.subset hlook)

/-- A TCP connection to the target has just been opened. -/
def Connected (transport : Transport) (target : TestTarget) (past : Past Answer) : Prop :=
  match transport with
  | .socks5 _ => ∃ bindAddr,
      past.getLast? = some ⟨.command cmdTcpConnect target.toSocksAddr, .ok bindAddr⟩
  | .direct _ => ∃ addr, Found target past addr ∧ past.getLast? = some ⟨.dial addr, .ok ()⟩

/-- A socket for datagrams to an address has just been opened. -/
def Opened (transport : Transport) (addr : SocketAddr) (past : Past Answer) : Prop :=
  match transport with
  | .socks5 _ => past.getLast? = some ⟨.relayed (SocksAddr.ofSocketAddr addr), ()⟩
  | .direct _ => past.getLast? = some ⟨.udp addr, .ok ()⟩

/-- An endpoint for datagrams to the target has just been opened. -/
def Associated (transport : Transport) (target : TestTarget) (past : Past Answer) : Prop :=
  match transport with
  | .socks5 _ => past.getLast? = some ⟨.relayed target.toSocksAddr, ()⟩
  | .direct _ => ∃ addr, Found target past addr ∧ past.getLast? = some ⟨.udp addr, .ok ()⟩

theorem locate_keeps (target : TestTarget)
    (hname : target.resolvedAddr = none → parseIpAddr target.host = none →
      p.name t target.hostPort) :
    (Direct.locate target).Keeps (Permitted p) (fun addr t' => Found target t' addr) t := by
  unfold Direct.locate
  by_cases hlook : target.resolvedAddr.isNone ∧ (parseIpAddr target.host).isNone
  · rw [if_pos hlook]
    have hnone := Option.isNone_iff_eq_none.mp hlook.1
    have hhost := Option.isNone_iff_eq_none.mp hlook.2
    refine act_keeps (Or.inl (hname hnone hhost)) fun addrs => keeps_seq (io_keeps fun as has => ?_)
    refine keeps_lift fun addr haddr => ?_
    simp only [Direct.resolveTarget, hnone, hhost, Dns.io, ok_bind] at haddr
    cases as with
    | nil => cases haddr
    | cons a rest =>
        simp only [List.head?_cons, ok.injEq] at haddr
        subst haddr
        exact Found.lookedUp a rest hnone hhost (has ▸ List.mem_concat_self)
  · rw [if_neg hlook]
    refine keeps_lift fun addr haddr => ?_
    unfold Direct.resolveTarget at haddr
    split at haddr
    · rename_i ip hip
      cases haddr
      exact Found.resolved ip hip
    · rename_i hnone
      split at haddr
      · rename_i ip hip
        cases haddr
        exact Found.literal ip hnone hip
      · rename_i hhost
        refine absurd ⟨?_, ?_⟩ hlook
        · exact Option.isNone_iff_eq_none.mpr hnone
        · exact Option.isNone_iff_eq_none.mpr hhost

end

/-! ## Tests -/

/-- The result is what the test makes of an exchange, which was had over a
    connection to the target that had just been opened for it. -/
def HeardOver (transport : Transport) (target : TestTarget) (protocol : Http.Protocol)
    (result : Http.TestResult) (past : Past Answer) : Prop :=
  match protocol with
  | .http1 => ∃ (front : Past Answer) (x : Http1.Exchange),
      front ++ [(⟨.http1, x⟩ : (op : Act) × Answer op)] <+: past ∧
      Connected transport target front ∧ Http1.doTest target { x with connect := ok () } = ok result
  | .http2 => ∃ (front : Past Answer) (x : Http2.Exchange),
      front ++ [(⟨.http2, x⟩ : (op : Act) × Answer op)] <+: past ∧
      Connected transport target front ∧ Http2.doTest target { x with connect := ok () } = ok result
  | .http3 => ∃ (front : Past Answer) (x : Http3.Exchange),
      front ++ [(⟨.http3, x⟩ : (op : Act) × Answer op)] <+: past ∧
      Associated transport target front ∧
        Http3.doTest target { x with endpoint := ok () } = ok result

/-- A policy that permits what the tests of a target do. -/
structure Policy.Allows (p : Policy) (target : TestTarget) (t : Past Answer) : Prop where
  name : ∀ iface, p.transport = .direct iface → target.resolvedAddr = none →
    parseIpAddr target.host = none → p.name t target.hostPort
  found : ∀ t', t <+: t' → ∀ addr, Found target t' addr → p.tcp t' addr ∧ p.udp t' addr
  connect : p.connect t target.toSocksAddr
  relayed : p.relayed t target.toSocksAddr

section

variable {p : Policy} (hstable : p.Stable)

include hstable

theorem Policy.Allows.extend {target : TestTarget} {t t' : Past Answer} (h : p.Allows target t)
    (ht : t <+: t') : p.Allows target t' where
  name iface hdirect hnone hhost := hstable.name ht _ (h.name iface hdirect hnone hhost)
  found t'' ht'' := h.found t'' (ht.trans ht'')
  connect := hstable.connect ht _ h.connect
  relayed := hstable.relayed ht _ h.relayed

theorem connectTcp_keeps {target : TestTarget} {t : Past Answer} (h : p.Allows target t) :
    (p.transport.connectTcp target).Keeps (Permitted p)
      (fun _ t' => Connected p.transport target t') t := by
  cases htransport : p.transport with
  | socks5 config => exact connector_keeps p t config htransport target hstable h.connect
  | direct iface =>
      refine keeps_bind (locate_keeps p t target (h.name iface htransport)) ?_
      intro addr t₁ hfound ht₁
      refine keeps_bind (bound_keeps p t₁ iface htransport _) fun u t₂ hbound ht₂ => ?_
      have htcp := hstable.tcp ht₂ _ (h.found t₁ ht₁ addr hfound).1
      refine act_keeps ⟨iface, htransport, htcp, hbound⟩ fun dialled => io_keeps fun u hu => ?_
      refine ⟨addr, (hfound.extend ht₂).extend (List.prefix_append _ _), ?_⟩
      rw [hu, List.getLast?_concat]

/-- Opening a socket to an address, directly or behind the proxy. -/
theorem openUdp_keeps (out : Outside) {target : SocketAddr} {t : Past Answer}
    (hudp : p.udp t target) (hrelayed : p.relayed t (SocksAddr.ofSocketAddr target)) :
    (p.transport.openUdp out target).Keeps (Permitted p)
      (fun _ t' => Opened p.transport target t') t := by
  cases htransport : p.transport with
  | direct iface =>
      refine keeps_bind (bound_keeps p t iface htransport _) fun u t₁ hbound ht₁ => ?_
      have hudp' := hstable.udp ht₁ _ hudp
      refine act_keeps (Or.inl ⟨iface, htransport, hudp', hbound⟩) fun connected => ?_
      refine keeps_seq (io_keeps fun u hu => ?_)
      subst hu
      exact List.getLast?_concat
  | socks5 config =>
      refine keeps_bind (associate_dial_keeps p t out config htransport) fun relay t₁ _ ht₁ => ?_
      refine act_keeps ⟨⟨config, htransport⟩, hstable.relayed ht₁ _ hrelayed⟩ fun _ => ?_
      exact List.getLast?_concat

theorem endpoint_keeps (out : Outside) {target : TestTarget} {t : Past Answer}
    (h : p.Allows target t) :
    (Http3.endpoint out p.transport target).Keeps (Permitted p)
      (fun _ t' => Associated p.transport target t') t := by
  cases htransport : p.transport with
  | socks5 config =>
      refine keeps_bind (associate_dial_keeps p t out config htransport) fun relay t₁ _ ht₁ => ?_
      refine keeps_seq (keeps_lift fun _ _ => ?_)
      refine act_keeps ⟨⟨config, htransport⟩, hstable.relayed ht₁ _ h.relayed⟩ fun _ => ?_
      exact List.getLast?_concat
  | direct iface =>
      refine keeps_bind (locate_keeps p t target (h.name iface htransport)) ?_
      intro addr t₁ hfound ht₁
      refine keeps_bind (bound_keeps p t₁ iface htransport _) fun u t₂ hbound ht₂ => ?_
      have hudp := hstable.udp ht₂ _ (h.found t₁ ht₁ addr hfound).2
      refine act_keeps (Or.inl ⟨iface, htransport, hudp, hbound⟩) fun connected =>
        io_keeps fun u hu => ?_
      refine ⟨addr, (hfound.extend ht₂).extend (List.prefix_append _ _), ?_⟩
      rw [hu, List.getLast?_concat]

theorem testOver_keeps (out : Outside) {target : TestTarget} {t : Past Answer}
    (h : p.Allows target t) (protocol : Http.Protocol) :
    (Http.testOver out p.transport target protocol).Keeps (Permitted p)
      (fun result t' => HeardOver p.transport target protocol result t') t := by
  cases protocol with
  | http1 =>
      refine keeps_bind (connectTcp_keeps hstable h) fun _ t₁ hconnected _ => ?_
      refine act_keeps trivial fun x => keeps_lift fun result hresult => ?_
      exact ⟨t₁, x, List.prefix_refl _, hconnected, hresult⟩
  | http2 =>
      refine keeps_seq (keeps_lift fun _ _ => ?_)
      refine keeps_bind (connectTcp_keeps hstable h) fun _ t₁ hconnected _ => ?_
      refine act_keeps trivial fun x => keeps_lift fun result hresult => ?_
      exact ⟨t₁, x, List.prefix_refl _, hconnected, hresult⟩
  | http3 =>
      refine keeps_bind (endpoint_keeps hstable out h) fun _ t₁ hassociated _ => ?_
      refine act_keeps trivial fun x => keeps_lift fun result hresult => ?_
      exact ⟨t₁, x, List.prefix_refl _, hassociated, hresult⟩

/-- A test that is reported as a success was answered. -/
theorem timedTest_keeps (out : Outside) {target : TestTarget} {t : Past Answer}
    (h : p.Allows target t) (protocol : Http.Protocol) :
    (Http.timedTest out p.transport target protocol).Keeps (Permitted p)
      (fun result t' => result.status = .success →
        HeardOver p.transport target protocol result t') t := by
  refine keeps_bind (keeps_within (testOver_keeps hstable out h protocol)) ?_
  intro ended t₁ hended _
  refine keeps_lift fun result hresult hsuccess => ?_
  unfold Http.settle at hresult
  split at hresult
  · -- A timeout is a failure.
    cases hresult
    cases hsuccess
  · cases hresult
    exact hended result rfl
  · cases hresult
    cases hsuccess
  · cases hresult

theorem testEach_keeps (out : Outside) {target : TestTarget} (protocols : List Http.Protocol)
    {t : Past Answer} (h : p.Allows target t) :
    (testEach out p.transport target protocols).Keeps (Permitted p) (fun _ _ => True) t := by
  induction protocols generalizing t with
  | nil => trivial
  | cons protocol rest ih =>
      refine keeps_bind (timedTest_keeps hstable out h protocol) fun result t₁ _ ht₁ => ?_
      exact keeps_seq ((ih (h.extend hstable ht₁)).imp fun _ _ _ => trivial)

end

/-- The policy that permits every name and destination. -/
def freePolicy (transport : Transport) : Policy where
  transport
  name _ _ := True
  tcp _ _ := True
  udp _ _ := True
  connect _ _ := True
  relayed _ _ := True

/-- A success was answered within the calls of its test. -/
theorem heard_of_timedTest {out : Outside} {transport : Transport} {target : TestTarget}
    {protocol : Http.Protocol} {ws : List (World Answer)} {t : Past Answer}
    {result : Http.TestResult}
    (h : ComesTo (Http.timedTest out transport target protocol) ws t (.ok result))
    (hsuccess : result.status = .success) : HeardOver transport target protocol result t := by
  have hstable : (freePolicy transport).Stable :=
    ⟨fun _ _ _ => trivial, fun _ _ _ => trivial, fun _ _ _ => trivial, fun _ _ _ => trivial,
      fun _ _ _ => trivial⟩
  have hallows : (freePolicy transport).Allows target [] :=
    ⟨fun _ _ _ _ => trivial, fun _ _ _ _ => ⟨trivial, trivial⟩, trivial, trivial⟩
  exact (timedTest_keeps hstable out hallows protocol).of_comesTo h hsuccess

/-! ## Names -/

/-- A datagram that has answered a query for a name, of its id, with an address. -/
def Answered (hostname : String) (past : Past Answer) (ip : Dns.Ipv4Addr) : Prop :=
  ∃ (socket : TransportUdpSocket) (id : UInt16) (query datagram reply payload : Bytes),
    (⟨.randomId, id⟩ : (op : Act) × Answer op) ∈ past ∧
    Dns.encodeQuery id hostname = ok query ∧ socket.send query = ok datagram ∧
    (⟨.query datagram, .ok (some reply)⟩ : (op : Act) × Answer op) ∈ past ∧
    socket.recv 1500 reply = ok payload ∧ Dns.decodeAResponse id payload = ok ip

theorem Answered.extend {hostname : String} {past past' : Past Answer} {ip : Dns.Ipv4Addr}
    (h : Answered hostname past ip) (hpast : past <+: past') : Answered hostname past' ip := by
  rcases h with ⟨socket, id, query, datagram, reply, payload, hid, hencode, hsend, hquery, h⟩
  exact ⟨socket, id, query, datagram, reply, payload, hpast.subset hid, hencode, hsend,
    hpast.subset hquery, h⟩

theorem resolveOver_keeps {p : Policy} (hstable : p.Stable) (out : Outside) {server : SocketAddr}
    {t : Past Answer} (hudp : p.udp t server)
    (hrelayed : p.relayed t (SocksAddr.ofSocketAddr server)) (hostname : String) :
    (Dns.resolveOver out p.transport server hostname).Keeps (Permitted p)
      (fun ip t' => Answered hostname t' ip) t := by
  unfold Dns.resolveOver
  by_cases hlong : (strBytes hostname).length > Dns.maxNameLen
  · rw [if_pos hlong]
    trivial
  · rw [if_neg hlong]
    refine keeps_bind (openUdp_keeps hstable out hudp hrelayed) fun socket t₁ _ _ => ?_
    refine act_keeps trivial fun id => keeps_seq (keeps_lift fun query hquery => ?_)
    refine keeps_seq (keeps_lift fun datagram hdatagram => act_keeps trivial fun reply => ?_)
    refine keeps_seq (io_keeps fun datagram? hreply => keeps_lift fun ip hip => ?_)
    subst hreply
    unfold Dns.resolveA at hip
    rw [if_neg hlong, hquery, ok_bind, hdatagram, ok_bind] at hip
    cases datagram? with
    | none => cases hip
    | some answer =>
        rw [bind_eq_ok] at hip
        rcases hip with ⟨payload, hpayload, hdecode⟩
        refine ⟨socket, id, query, datagram, answer, payload, ?_, hquery, ok_of_io hdatagram,
          List.mem_concat_self, ok_of_io hpayload, hdecode⟩
        exact List.mem_append_left _ List.mem_concat_self

end ProxyPen
