import ProxyPen.Core.Tunnel
import ProxyPen.Theory.Handshake
import ProxyPen.Theory.Readers

/-!
# SOCKS5 Sessions Against Any Proxy

A client in a session with a proxy that may send anything at any time. In
every state the client has written no more than the proxy has let it: nothing
behind the offer before the offered method is chosen, so a password goes to no
proxy that has not asked for it, and no command before the login is granted.

The session succeeds exactly on the replies of a proxy that grants it, however
they are cut into segments. It ends right behind the last of them, so the
first byte the tunnel carries is the first one the application reads.

## Main definitions

* `Grants`: The replies that grant a login.
* `Proper`: What a client may have written.
* `Served`: The replies to a whole session.

## Theorems

* `authenticate_keeps`, `command_keeps`: The contracts of the two parts.
* `connect_session`: The session of a tunnel.
* `associate_session`: The session of an association.
-/

namespace ProxyPen

namespace Socks

open Protocol Net Proc

/-- The method that the client offers. -/
def offered (auth : Option ProxyAuth) : UInt8 :=
  if auth.isSome then authMethodPassword else authMethodNone

def offerBytes (writeVec : VarVec → Bytes) (auth : Option ProxyAuth) : Bytes :=
  (AuthReq.mk socks5Version ⟨1, [offered auth]⟩).encode writeVec

def credentialBytes (writeVec : VarVec → Bytes) : Option ProxyAuth → Bytes
  | none => []
  | some cred =>
      (PasswordAuthReq.mk 0x01 (VarVec.ofString cred.username)
        (VarVec.ofString cred.password)).encode writeVec

def commandBytes (writeAddr : SocksAddr → Bytes) (cmd : UInt8) (dst : SocksAddr) : Bytes :=
  (CmdReq.mk socks5Version cmd reserve dst).encode writeAddr

/-- The replies that grant a login: the offered method, and with credentials a
    success behind a byte that nobody looks at. -/
def Grants : Option ProxyAuth → Bytes → Prop
  | none, bs => bs = [socks5Version, authMethodNone]
  | some _, bs => ∃ v, bs = [socks5Version, authMethodPassword, v, replySucceeded]

theorem chosen_of_grants {auth : Option ProxyAuth} {bs : Bytes} (h : Grants auth bs) :
    [socks5Version, offered auth] <+: bs := by
  cases auth with
  | none =>
      rw [Grants] at h
      rw [h]
      exact List.prefix_refl _
  | some cred =>
      rcases h with ⟨v, rfl⟩
      exact ⟨[v, replySucceeded], rfl⟩

section

variable {κ ε : Type} (writeVec : VarVec → Bytes) (auth : Option ProxyAuth) (command : Bytes)

/-- What a client may have written: the messages in their order, the
    credentials to a proxy that has chosen them, and the command to one that
    has granted the login. -/
structure Proper (t : Trail ε) : Prop where
  ordered : t.out <+: offerBytes writeVec auth ++ credentialBytes writeVec auth ++ command
  chosen : (offerBytes writeVec auth).length < t.out.length →
    [socks5Version, offered auth] <+: t.taken
  granted : (offerBytes writeVec auth ++ credentialBytes writeVec auth).length < t.out.length →
    ∃ grant, Grants auth grant ∧ grant <+: t.taken

variable {writeVec auth command} {t : Trail ε}

theorem proper_of_offer (h : t.out <+: offerBytes writeVec auth) :
    Proper writeVec auth command t where
  ordered := h.trans ((List.prefix_append _ _).trans (List.prefix_append _ _))
  chosen := fun hlong => absurd h.length_le (by omega)
  granted := by
    intro hlong
    have hle := h.length_le
    rw [List.length_append] at hlong
    omega

theorem proper_of_chosen {front : Bytes} (hout : t.out = offerBytes writeVec auth ++ front)
    (hfront : front <+: credentialBytes writeVec auth)
    (htaken : [socks5Version, offered auth] <+: t.taken) : Proper writeVec auth command t where
  ordered := by
    rw [hout]
    exact ((List.prefix_append_right_inj _).mpr hfront).trans (List.prefix_append _ _)
  chosen := fun _ => htaken
  granted := by
    intro hlong
    have hle := hfront.length_le
    rw [hout, List.length_append, List.length_append] at hlong
    omega

theorem proper_of_granted {front grant : Bytes}
    (hout : t.out = offerBytes writeVec auth ++ credentialBytes writeVec auth ++ front)
    (hfront : front <+: command) (hgrant : Grants auth grant) (htaken : grant <+: t.taken) :
    Proper writeVec auth command t where
  ordered := by
    rw [hout]
    exact (List.prefix_append_right_inj _).mpr hfront
  chosen := fun _ => (chosen_of_grants hgrant).trans htaken
  granted := fun _ => ⟨grant, hgrant, htaken⟩

variable {J : κ → Trail ε → Prop} {P : Trail ε → Prop}

/-- The handshake ends with a login that was granted. -/
theorem authenticate_keeps :
    (authenticate writeVec auth : Proc κ ε Unit).Keeps J P (Proper writeVec auth command)
      (fun _ t => Grants auth t.taken ∧
        t.out = offerBytes writeVec auth ++ credentialBytes writeVec auth) Trail.start := by
  unfold authenticate
  refine keeps_writer (puts_write _) (fun front hfront => proper_of_offer hfront) ?_
  refine keeps_readU8 (fun bs => proper_of_offer (List.prefix_refl _)) (fun version => ?_)
  refine keeps_readU8 (fun bs => proper_of_offer (List.prefix_refl _)) (fun chosen => ?_)
  by_cases hversion : version = socks5Version
  · rw [if_neg (fun hne => hne hversion)]
    by_cases hmethod : chosen = offered auth
    · rw [if_neg (fun hne => hne hmethod)]
      subst hversion hmethod
      cases auth with
      | none => exact ⟨proper_of_offer (List.prefix_refl _), rfl, (List.append_nil _).symm⟩
      | some cred =>
          -- The method is chosen, which is when the credentials go out.
          have hcred : ∀ (front bs : Bytes), front <+: credentialBytes writeVec (some cred) →
              Proper writeVec (some cred) command
                { log := ([] : List ε)
                  taken := [socks5Version, authMethodPassword] ++ bs
                  out := offerBytes writeVec (some cred) ++ front } :=
            fun front bs hfront => proper_of_chosen rfl hfront (List.prefix_append _ _)
          refine keeps_writer (puts_write _) (fun front hfront => hcred front [] hfront) ?_
          refine keeps_readU8 (fun bs => hcred _ bs (List.prefix_refl _)) (fun v => ?_)
          refine keeps_readU8 (fun bs => hcred _ (v :: bs) (List.prefix_refl _)) (fun status => ?_)
          by_cases hstatus : status = replySucceeded
          · rw [if_neg (fun hne => hne hstatus)]
            subst hstatus
            exact ⟨hcred _ [v, replySucceeded] (List.prefix_refl _), ⟨v, rfl⟩, rfl⟩
          · rw [if_pos hstatus]
            exact hcred _ [v, status] (List.prefix_refl _)
    · rw [offered] at hmethod
      rw [if_pos hmethod]
      exact proper_of_offer (List.prefix_refl _)
  · rw [if_pos hversion]
    exact proper_of_offer (List.prefix_refl _)

theorem onlyReads_reply {lib : Library κ ε} (hlib : OnlyReads lib.readAddr) :
    OnlyReads (CmdReply.decode lib) := by
  refine onlyReads_bind onlyReads_readU8 (fun version => ?_)
  refine onlyReads_bind onlyReads_readU8 (fun rep => ?_)
  refine onlyReads_bind onlyReads_readU8 (fun rsv => ?_)
  exact onlyReads_bind hlib (fun bindAddr => OnlyReads.ret _)

/-- A command after the login ends with a reply of success, of which nothing is
    left unread. -/
theorem command_keeps {lib : Library κ ε} (hlib : OnlyReads lib.readAddr) {cmd : UInt8}
    {name : String} {dst : SocksAddr} (hgrant : Grants auth t.taken)
    (hout : t.out = offerBytes writeVec auth ++ credentialBytes writeVec auth) :
    (sendCommand lib cmd name dst).Keeps J P
      (Proper writeVec auth (commandBytes lib.writeAddr cmd dst))
      (fun reply t' => reply.rep = replySucceeded ∧
        (∃ bs, Takes (CmdReply.decode lib) bs reply ∧ t'.taken = t.taken ++ bs) ∧
        t'.out = t.out ++ commandBytes lib.writeAddr cmd dst) t := by
  have hproper : ∀ front bs, front <+: commandBytes lib.writeAddr cmd dst →
      Proper writeVec auth (commandBytes lib.writeAddr cmd dst) ((t.wrote front).read bs) :=
    fun front bs hfront => proper_of_granted (congrArg (· ++ front) hout) hfront hgrant
      (List.prefix_append _ _)
  unfold sendCommand
  refine keeps_writer (puts_write _) (fun front hfront => ?_) ?_
  · rw [← Trail.read_nil (t.wrote front)]
    exact hproper front [] hfront
  refine keeps_reader (onlyReads_reply hlib) (fun bs => hproper _ bs (List.prefix_refl _))
    (fun bs reply htakes => ?_)
  by_cases hrep : reply.rep = replySucceeded
  · rw [if_neg (fun hne => hne hrep)]
    exact ⟨hproper _ bs (List.prefix_refl _), hrep, ⟨bs, htakes, rfl⟩, rfl⟩
  · rw [if_pos hrep]
    exact hproper _ bs (List.prefix_refl _)

/-! ## Complete sessions -/

/-- The replies to a session: a login that is granted, and the reply of success
    to its command. -/
def Served (lib : Library κ ε) (auth : Option ProxyAuth) (bs : Bytes) (reply : CmdReply) : Prop :=
  ∃ grant rest, Grants auth grant ∧ Takes (CmdReply.decode lib) rest reply ∧
    reply.rep = replySucceeded ∧ bs = grant ++ rest

theorem converse_grant {α : Type} {grant : Bytes} (hgrant : Grants auth grant)
    (f : Unit → Proc κ ε α) (rest : Bytes) :
    (converse (authenticate writeVec auth >>= f) (grant ++ rest)).1 = (converse (f ()) rest).1 := by
  cases auth with
  | none =>
      rw [Grants] at hgrant
      subst hgrant
      rfl
  | some cred =>
      rcases hgrant with ⟨v, rfl⟩
      rfl

theorem converse_command {α : Type} {lib : Library κ ε} {cmd : UInt8} {name : String}
    {dst : SocksAddr} {bs : Bytes} {reply : CmdReply} (htakes : Takes (CmdReply.decode lib) bs reply)
    (hrep : reply.rep = replySucceeded) (f : CmdReply → Proc κ ε α) (rest : Bytes) :
    (converse (sendCommand lib cmd name dst >>= f) (bs ++ rest)).1 = (converse (f reply) rest).1 := by
  unfold sendCommand
  simp only [bind_assoc, converse_write, converse_of_takes htakes,
    if_neg (fun hne : reply.rep ≠ replySucceeded => hne hrep)]
  rfl

/-- What the client of a whole session has written. -/
def sessionBytes (lib : Library κ ε) (auth : Option ProxyAuth) (cmd : UInt8) (dst : SocksAddr) :
    Bytes :=
  offerBytes lib.writeVec auth ++ credentialBytes lib.writeVec auth ++
    commandBytes lib.writeAddr cmd dst

/-- The contract of a session: what follows it starts right behind the replies. -/
theorem session_keeps {α : Type} {lib : Library κ ε} (hlib : OnlyReads lib.readAddr) {cmd : UInt8}
    {name : String} {dst : SocksAddr} {f : CmdReply → Proc κ ε α} {R : α → Trail ε → Prop}
    (hf : ∀ reply t, Served lib auth t.taken reply → t.out = sessionBytes lib auth cmd dst →
      Proper lib.writeVec auth (commandBytes lib.writeAddr cmd dst) t →
      (f reply).Keeps J P (Proper lib.writeVec auth (commandBytes lib.writeAddr cmd dst)) R t) :
    (authenticate lib.writeVec auth >>= fun _ => sendCommand lib cmd name dst >>= f).Keeps J P
      (Proper lib.writeVec auth (commandBytes lib.writeAddr cmd dst)) R Trail.start := by
  refine keeps_bind (authenticate_keeps.imp (fun _ t hlogin => ?_))
  rcases hlogin with ⟨hgrant, hout⟩
  refine keeps_bind ((command_keeps hlib hgrant hout).imp (fun reply t' hreply => ?_))
  rcases hreply with ⟨hrep, ⟨bs, htakes, htaken⟩, hout'⟩
  rw [hout] at hout'
  refine hf reply t' ⟨t.taken, bs, hgrant, htakes, hrep, htaken⟩ hout' ?_
  refine proper_of_granted hout' (List.prefix_refl _) hgrant ?_
  rw [htaken]
  exact List.prefix_append _ _

/-- The contract of the session of a tunnel. -/
theorem connect_keeps {lib : Library κ ε} (hlib : OnlyReads lib.readAddr) (config : ProxyConfig)
    (target : TestTarget) :
    (Connector.connect lib config target).Keeps J (fun _ => False)
      (Proper lib.writeVec config.auth (commandBytes lib.writeAddr cmdTcpConnect target.toSocksAddr))
      (fun _ t => t.out = sessionBytes lib config.auth cmdTcpConnect target.toSocksAddr ∧
        ∃ reply, Served lib config.auth t.taken reply) Trail.start :=
  session_keeps hlib (fun reply _ hserved hout hproper => ⟨hproper, hout, reply, hserved⟩)

/-- A complete run of a session whose replies are all there. -/
theorem converse_session {α : Type} {lib : Library κ ε} {cmd : UInt8} {name : String}
    {dst : SocksAddr} {bs : Bytes} {reply : CmdReply} (hserved : Served lib auth bs reply)
    (f : CmdReply → Proc κ ε α) (rest : Bytes) :
    (converse (authenticate lib.writeVec auth >>= fun _ => sendCommand lib cmd name dst >>= f)
      (bs ++ rest)).1 = (converse (f reply) rest).1 := by
  rcases hserved with ⟨grant, bs', hgrant, htakes, hrep, rfl⟩
  rw [List.append_assoc, converse_grant hgrant, converse_command htakes hrep]

end

/-! ## A library that follows the layout of SOCKS5 -/

/-- Address type, address and port. -/
def plainReadAddr {κ ε : Type} : Proc κ ε SocksAddr := do
  let atyp ← readU8
  if atyp = 0x01 then do
    let ip ← Proc.read 4
    let port ← readU16
    return { addr := .v4 (List.Vector.ofFn (fun i => ip.getD i 0)), port }
  else if atyp = 0x04 then do
    let ip ← Proc.read 16
    let port ← readU16
    return { addr := .v6 (List.Vector.ofFn (fun i => ip.getD i 0)), port }
  else if atyp = 0x03 then do
    let len ← readU8
    let name ← Proc.read len.toNat
    let port ← readU16
    return { addr := .domain { len, contents := name }, port }
  else Proc.fail "unknown address type"

theorem onlyReads_plainReadAddr {κ ε : Type} : OnlyReads (plainReadAddr : Proc κ ε SocksAddr) := by
  have hport : ∀ addr, OnlyReads (readU16 >>= fun port =>
      (pure { addr, port } : Proc κ ε SocksAddr)) :=
    fun addr => onlyReads_bind (onlyReads_int 2 _) (fun port => OnlyReads.ret _)
  refine onlyReads_bind onlyReads_readU8 (fun atyp => ?_)
  refine onlyReads_ite (onlyReads_bind (onlyReads_read 4) (fun ip => hport _)) ?_
  refine onlyReads_ite (onlyReads_bind (onlyReads_read 16) (fun ip => hport _)) ?_
  refine onlyReads_ite (onlyReads_bind onlyReads_readU8 (fun len => ?_)) (OnlyReads.fail _)
  exact onlyReads_bind (onlyReads_read len.toNat) (fun name => hport _)

def plainLibrary (κ ε : Type) : Library κ ε where
  writeVec v := v.len :: v.contents
  writeAddr a := addrBytes a.addr ++ beBytes 2 a.port.toNat
  readAddr := plainReadAddr

/-! ## Tunnels -/

/-- The session of a tunnel, with a proxy that sends anything in any portions.
    The client never writes more than it may and never panics. Once it has
    returned, what is waiting is all that has arrived behind the replies, and
    if it can go no further, it has returned exactly where the proxy has served
    it. -/
theorem connect_session (ε : Type) (lib : Library Empty ε) (hlib : OnlyReads lib.readAddr)
    (config : ProxyConfig) (target : TestTarget) (es : List Exposure) (s : Exposed Empty ε Unit)
    (hrun : Machine.runFrom (Exposed.step Exposed.noLoop)
      (Exposed.init (Connector.connect lib config target)) es = some s) :
    Proper lib.writeVec config.auth
        (commandBytes lib.writeAddr cmdTcpConnect target.toSocksAddr) s.trail ∧
      s.party.proc ≠ .panic ∧
      (s.party.proc = .ret () →
        s.out = sessionBytes lib config.auth cmdTcpConnect target.toSocksAddr ∧
        ∃ bs reply, Served lib config.auth bs reply ∧
          es.flatMap Exposure.bytes = bs ++ s.waiting) ∧
      (s.Settled Exposed.noLoop → (s.party.proc = .ret () ↔
        ∃ bs reply rest, Served lib config.auth bs reply ∧
          es.flatMap Exposure.bytes = bs ++ rest)) := by
  have hkeeps := Exposed.exposed_keeps (J := fun k _ => k.elim) (fun k => k.elim)
    (connect_keeps hlib config target) ⟨es, hrun⟩
  have hreturned : s.party.proc = .ret () →
      s.out = sessionBytes lib config.auth cmdTcpConnect target.toSocksAddr ∧
      ∃ bs reply, Served lib config.auth bs reply ∧
        es.flatMap Exposure.bytes = bs ++ s.waiting := by
    intro hret
    rw [hret] at hkeeps
    rcases hkeeps with ⟨-, hout, reply, hserved⟩
    exact ⟨hout, s.taken, reply, hserved, (Exposed.exposed_taken es hrun).symm⟩
  refine ⟨hkeeps.now, fun hpanic => ?_, hreturned, fun hend => ⟨fun hret => ?_, fun hserved => ?_⟩⟩
  · rw [hpanic] at hkeeps
    exact hkeeps.2
  · rcases hreturned hret with ⟨-, bs, reply, hserved, harrived⟩
    exact ⟨bs, reply, s.waiting, hserved, harrived⟩
  · rcases hserved with ⟨bs, reply, rest, hserved, harrived⟩
    rw [Exposed.settled_ret_iff hrun hend, harrived]
    exact converse_session hserved _ rest

/-- A proxy that asks for a password. -/
def passwordProxy : ProxyConfig :=
  { addr := "127.0.0.1:1080", auth := some { username := "u", password := "p" } }

def addressTarget : TestTarget :=
  { host := "", port := 80, path := "/", useTls := false,
    resolvedAddr := some (.v4 (List.Vector.replicate 4 1)), dangerAcceptInvalidCerts := false }

/-- The choice of the method arrives in two portions, and the last reply
    together with the first byte of the tunnel. -/
def tunnelEvents : List Exposure :=
  [.turn 1, .turn 2, .turn 0, .arrive [5]] ++ wholeTurns [1] ++ [.arrive [2]] ++
    wholeTurns [1, 5] ++ [.arrive [1, 0]] ++ wholeTurns [1, 1, 10] ++
    [.arrive [5, 0, 0, 1, 10, 0, 0, 1, 31, 144, 72]] ++ wholeTurns [1, 1, 1, 1, 4, 2]

theorem connect_session_password :
    ∃ s, Machine.runFrom (Exposed.step Exposed.noLoop)
        (Exposed.init (Connector.connect (plainLibrary Empty Unit) passwordProxy addressTarget))
        tunnelEvents = some s ∧ s.waiting = [72] ∧
      ∃ bs reply, Served (plainLibrary Empty Unit) passwordProxy.auth bs reply ∧
        tunnelEvents.flatMap Exposure.bytes = bs ++ s.waiting :=
  ⟨_, rfl, rfl, ((connect_session Unit (plainLibrary Empty Unit) onlyReads_plainReadAddr
    passwordProxy addressTarget tunnelEvents _ rfl).2.2.1 rfl).2⟩

/-! ## Associations -/

namespace Associate

open Outcome

/-- The relay of an association: the first address that the reply resolves to,
    moved to the host of the proxy if that address is unspecified. -/
inductive IsRelay (os : Resolver) (addr : String) (bindAddr : SocksAddr) : SocketAddr → Prop where
  | named (first : SocketAddr) (rest : List SocketAddr)
      (hfirst : os.toSocketAddrs bindAddr = .ok (first :: rest))
      (hip : first.ip.isUnspecified = false) : IsRelay os addr bindAddr first
  | ofProxy (first : SocketAddr) (rest : List SocketAddr) (proxy : SocketAddr)
      (hfirst : os.toSocketAddrs bindAddr = .ok (first :: rest))
      (hip : first.ip.isUnspecified = true) (hproxy : proxyAddr os addr = ok proxy) :
      IsRelay os addr bindAddr { first with ip := proxy.ip }

variable {os : Resolver} {addr : String} {bindAddr : SocksAddr}

theorem relayAddr_of_named {first : SocketAddr} {rest : List SocketAddr}
    (hfirst : os.toSocketAddrs bindAddr = .ok (first :: rest))
    (hip : first.ip.isUnspecified = false) : relayAddr os addr bindAddr = ok first := by
  simp only [relayAddr, hfirst, hip, Bool.false_eq_true, if_false]

theorem relayAddr_of_unspecified {first : SocketAddr} {rest : List SocketAddr}
    (hfirst : os.toSocketAddrs bindAddr = .ok (first :: rest))
    (hip : first.ip.isUnspecified = true) :
    relayAddr os addr bindAddr
      = (proxyAddr os addr >>= fun proxy => ok { first with ip := proxy.ip }) := by
  simp only [relayAddr, hfirst, hip, if_true]

/-- A reply that resolves to nothing, or not at all, has no relay. -/
theorem relayAddr_of_unresolved
    (h : ¬ ∃ first rest, os.toSocketAddrs bindAddr = .ok (first :: rest)) :
    ∃ e, relayAddr os addr bindAddr = err e := by
  unfold relayAddr
  rcases haddrs : os.toSocketAddrs bindAddr with e | addrs
  · exact ⟨_, rfl⟩
  · cases addrs with
    | nil => exact ⟨_, rfl⟩
    | cons first rest => exact absurd ⟨first, rest, haddrs⟩ h

theorem relayAddr_eq_ok {relay : SocketAddr} :
    relayAddr os addr bindAddr = ok relay ↔ IsRelay os addr bindAddr relay := by
  constructor
  · intro h
    by_cases hfirst : ∃ first rest, os.toSocketAddrs bindAddr = .ok (first :: rest)
    · rcases hfirst with ⟨first, rest, hfirst⟩
      cases hip : first.ip.isUnspecified with
      | false =>
          rw [relayAddr_of_named hfirst hip] at h
          rw [← Outcome.ok.inj h]
          exact IsRelay.named first rest hfirst hip
      | true =>
          rw [relayAddr_of_unspecified hfirst hip, bind_eq_ok] at h
          rcases h with ⟨proxy, hproxy, hrelay⟩
          rw [← Outcome.ok.inj hrelay]
          exact IsRelay.ofProxy first rest proxy hfirst hip hproxy
    · rcases @relayAddr_of_unresolved os addr bindAddr hfirst with ⟨e, he⟩
      rw [he] at h
      exact absurd h (err_ne_ok e relay)
  · intro h
    cases h with
    | named first rest hfirst hip => exact relayAddr_of_named hfirst hip
    | ofProxy first rest proxy hfirst hip hproxy =>
        rw [relayAddr_of_unspecified hfirst hip, hproxy, ok_bind]

/-- Working out the relay panics only where the reply has an unspecified address
    and the name of the proxy resolves to nothing. -/
theorem unresolved_of_panic (h : relayAddr os addr bindAddr = Outcome.panic) :
    (∃ first rest, os.toSocketAddrs bindAddr = .ok (first :: rest) ∧
      first.ip.isUnspecified = true) ∧ parseSocketAddr addr = none ∧ os.lookup addr = .ok [] := by
  by_cases hfirst : ∃ first rest, os.toSocketAddrs bindAddr = .ok (first :: rest)
  · rcases hfirst with ⟨first, rest, hfirst⟩
    cases hip : first.ip.isUnspecified with
    | false =>
        rw [relayAddr_of_named hfirst hip] at h
        cases h
    | true =>
        rw [relayAddr_of_unspecified hfirst hip] at h
        refine ⟨⟨first, rest, hfirst, hip⟩, ?_⟩
        unfold proxyAddr at h
        cases hparse : parseSocketAddr addr with
        | some proxy =>
            rw [hparse] at h
            cases h
        | none =>
            rw [hparse] at h
            rcases hlookup : os.lookup addr with e | addrs
            · rw [hlookup] at h
              cases h
            · cases addrs with
              | nil => exact ⟨rfl, rfl⟩
              | cons proxy rest =>
                  rw [hlookup] at h
                  cases h
  · rcases @relayAddr_of_unresolved os addr bindAddr hfirst with ⟨e, he⟩
    rw [he] at h
    cases h

variable {κ ε : Type} {J : κ → Trail ε → Prop}

/-- The association that a reply leads to: with a relay that it resolves to, and
    a socket of the relay's family that could be bound and connected to it. -/
structure Leads (os : System) (config : ProxyConfig) (reply : CmdReply) (a : UdpAssociation) :
    Prop where
  relay : IsRelay os.toResolver config.addr reply.bindAddr a.relayAddr
  family : a.bindAddr = if a.relayAddr.isIpv4 then "0.0.0.0:0" else "[::]:0"
  bound : os.bind a.bindAddr = .ok ()
  connected : os.connect a.bindAddr a.relayAddr = .ok ()

variable {os : System}

theorem openSocket_eq_ok {relay : SocketAddr} {a : UdpAssociation} :
    openSocket os relay = ok a ↔ a.relayAddr = relay ∧
      a.bindAddr = (if relay.isIpv4 then "0.0.0.0:0" else "[::]:0") ∧
      os.bind a.bindAddr = .ok () ∧ os.connect a.bindAddr relay = .ok () := by
  simp only [openSocket]
  constructor
  · intro h
    split at h
    · cases h
    · rename_i hbind
      split at h
      · cases h
      · rename_i hconnect
        cases h
        exact ⟨rfl, rfl, hbind, hconnect⟩
  · rcases a with ⟨bindAddr, relayAddr⟩
    rintro ⟨hrelay, hfamily, hbind, hconnect⟩
    dsimp only at hrelay hfamily hbind hconnect
    subst hrelay hfamily
    simp only [hbind, hconnect]

theorem openSocket_ne_panic (os : System) (relay : SocketAddr) : openSocket os relay ≠ .panic := by
  simp only [openSocket]
  split
  · simp
  · split
    · simp
    · simp

/-- The rest of the session succeeds exactly with the association that its reply
    leads to. -/
theorem leads_iff {config : ProxyConfig} {reply : CmdReply} {a : UdpAssociation} :
    (relayAddr os.toResolver config.addr reply.bindAddr >>= openSocket os) = ok a ↔
      Leads os config reply a := by
  simp only [bind_eq_ok, relayAddr_eq_ok, openSocket_eq_ok]
  constructor
  · rintro ⟨relay, hrelay, rfl, hfamily, hbound, hconnected⟩
    exact ⟨hrelay, hfamily, hbound, hconnected⟩
  · intro h
    exact ⟨a.relayAddr, h.relay, rfl, h.family, h.bound, h.connected⟩

theorem relayAddr_of_panic {config : ProxyConfig} {reply : CmdReply}
    (h : (relayAddr os.toResolver config.addr reply.bindAddr >>= openSocket os) = .panic) :
    relayAddr os.toResolver config.addr reply.bindAddr = .panic := by
  cases hrelay : relayAddr os.toResolver config.addr reply.bindAddr with
  | ok relay =>
      rw [hrelay, ok_bind] at h
      exact absurd h (openSocket_ne_panic os relay)
  | err e =>
      rw [hrelay, err_bind] at h
      cases h
  | panic => rfl

/-- The contract of the session of an association. -/
theorem associate_keeps {lib : Library κ ε} (hlib : OnlyReads lib.readAddr) (os : System)
    (config : ProxyConfig) :
    (associate lib os config).Keeps J
      (fun t => ∃ reply, Served lib config.auth t.taken reply ∧
        relayAddr os.toResolver config.addr reply.bindAddr = Outcome.panic)
      (Proper lib.writeVec config.auth (commandBytes lib.writeAddr cmdUdpAssociate bindHint))
      (fun a t => t.out = sessionBytes lib config.auth cmdUdpAssociate bindHint ∧
        ∃ reply, Served lib config.auth t.taken reply ∧ Leads os config reply a) Trail.start := by
  refine session_keeps hlib (fun reply t hserved hout hproper => ?_)
  cases hsocket : relayAddr os.toResolver config.addr reply.bindAddr >>= openSocket os with
  | ok a => exact ⟨hproper, hout, reply, hserved, leads_iff.mp hsocket⟩
  | err e => exact hproper
  | panic => exact ⟨hproper, reply, hserved, relayAddr_of_panic hsocket⟩

end Associate

open Associate in
/-- The session of an association, with a proxy that sends anything in any
    portions. It panics only where a served client is told an unspecified
    address by a proxy whose own name resolves to nothing, and if it can go no
    further, it has returned an association exactly where it was served a reply
    that leads to it. -/
theorem associate_session (ε : Type) (lib : Library Empty ε) (hlib : OnlyReads lib.readAddr)
    (os : System) (config : ProxyConfig) (es : List Exposure)
    (s : Exposed Empty ε UdpAssociation)
    (hrun : Machine.runFrom (Exposed.step Exposed.noLoop)
      (Exposed.init (associate lib os config)) es = some s) :
    Proper lib.writeVec config.auth
        (commandBytes lib.writeAddr cmdUdpAssociate bindHint) s.trail ∧
      (s.party.proc = .panic → parseSocketAddr config.addr = none ∧ os.lookup config.addr = .ok [] ∧
        ∃ bs reply first rest, Served lib config.auth bs reply ∧
          es.flatMap Exposure.bytes = bs ++ s.waiting ∧
          os.toSocketAddrs reply.bindAddr = .ok (first :: rest) ∧ first.ip.isUnspecified = true) ∧
      (∀ a, s.party.proc = .ret a → s.out = sessionBytes lib config.auth cmdUdpAssociate bindHint ∧
        ∃ bs reply, Served lib config.auth bs reply ∧
          es.flatMap Exposure.bytes = bs ++ s.waiting) ∧
      (s.Settled Exposed.noLoop → ∀ a, (s.party.proc = .ret a ↔
        ∃ bs reply rest, Served lib config.auth bs reply ∧
          es.flatMap Exposure.bytes = bs ++ rest ∧ Leads os config reply a)) := by
  have hkeeps := Exposed.exposed_keeps (J := fun k _ => k.elim) (fun k => k.elim)
    (associate_keeps hlib os config) ⟨es, hrun⟩
  have htaken := (Exposed.exposed_taken es hrun).symm
  refine ⟨hkeeps.now, fun hpanic => ?_, fun a hret => ?_, fun hend a => ⟨fun hret => ?_,
    fun hserved => ?_⟩⟩
  · rw [hpanic] at hkeeps
    rcases hkeeps with ⟨-, reply, hserved, hrelay⟩
    rcases unresolved_of_panic hrelay with ⟨⟨first, rest, hfirst, hip⟩, hparse, hlookup⟩
    exact ⟨hparse, hlookup, s.taken, reply, first, rest, hserved, htaken, hfirst, hip⟩
  · rw [hret] at hkeeps
    rcases hkeeps with ⟨-, hout, reply, hserved, -⟩
    exact ⟨hout, s.taken, reply, hserved, htaken⟩
  · rw [hret] at hkeeps
    rcases hkeeps with ⟨-, -, reply, hserved, hleads⟩
    exact ⟨s.taken, reply, s.waiting, hserved, htaken, hleads⟩
  · rcases hserved with ⟨bs, reply, rest, hserved, harrived, hleads⟩
    rw [Exposed.settled_ret_iff hrun hend, harrived]
    refine (converse_session hserved _ rest).trans ?_
    -- The rest of the program is the choice of the relay and the opening of the socket.
    rw [leads_iff.mpr hleads]
    rfl

/-- A proxy without a password. -/
def openProxy : ProxyConfig := { addr := "127.0.0.1:1080", auth := none }

/-- Addresses stand for themselves, no name resolves, and every socket opens. -/
def plainSystem : Associate.System where
  toSocketAddrs a := match a.addr with
    | .v4 ip => .ok [{ ip := .v4 ip, port := a.port }]
    | .v6 ip => .ok [{ ip := .v6 ip, port := a.port }]
    | .domain _ => .ok []
  lookup _ := .error (.os 1)
  bind _ := .ok ()
  connect _ _ := .ok ()
  display _ := "name not known"

/-- The reply names an unspecified address and port 8080. -/
def associationEvents : List Exposure :=
  wholeTurns [3] ++ [.arrive [5, 0]] ++ wholeTurns [1, 1, 10] ++
    [.arrive [5, 0, 0, 1, 0, 0, 0, 0, 31, 144]] ++ wholeTurns [1, 1, 1, 1, 4, 2]

/-- The association is with the host of the proxy. -/
def hostAssociation : UdpAssociation :=
  { bindAddr := "0.0.0.0:0"
    relayAddr :=
      { ip := .v4 (.cons 127 (.cons 0 (.cons 0 (.cons 1 .nil)))), port := 8080 } }

theorem associate_session_host :
    ∃ s, Machine.runFrom (Exposed.step Exposed.noLoop)
        (Exposed.init (Associate.associate (plainLibrary Empty Unit) plainSystem openProxy))
        associationEvents = some s ∧ s.party.proc = .ret hostAssociation ∧
      ∃ bs reply, Served (plainLibrary Empty Unit) openProxy.auth bs reply ∧
        associationEvents.flatMap Exposure.bytes = bs ++ s.waiting :=
  ⟨_, rfl, rfl, ((associate_session Unit (plainLibrary Empty Unit) onlyReads_plainReadAddr
    plainSystem openProxy associationEvents _ rfl).2.2.1 hostAssociation rfl).2⟩

end Socks

end ProxyPen
