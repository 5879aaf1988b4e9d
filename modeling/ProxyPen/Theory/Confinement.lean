import ProxyPen.Theory.Policy
import ProxyPen.Theory.PressRun

/-!
# Where Connections Go

The policies of the commands. That of `test` and `press` follows the target.
Its name is looked up by the system only if it is no address, no DNS server is
given, and either `--resolve` is or there is no proxy. The proxy is told the
name only if nothing has resolved it. Everything else that is connected to or
named has the address that was learned and the port of the target.

For `benchmark` it follows the address of the server. That is known once the
target has been looked up, and from then on it is the same for the whole
command. All connections go to that one host, whatever ports the server names.

## Main definitions

* `Learned`, `testPolicy`: The policy of `test` and `press`.
* `benchPolicy`: The policy of `benchmark`.
* `Bench.OutcomesOf`: What the outcomes of `benchmark` stand for.

## Theorems

* `prepare_keeps`: The contract of resolving a target.
* `runTest_permitted`, `Press.setUp_keeps`, `Bench.runBenchmark_keeps`: The
  contracts of the commands.
* `test_confined`, `Press.press_confined`, `Bench.benchmark_confined`: What the
  commands do in every world.
-/

namespace ProxyPen

open Outcome Protocol Net Socks Socks.Associate Calls Cmd

/-! ## The commands test and press -/

section

variable (transport : Transport) (dns : Option SocketAddr) (resolve : Bool) (target : TestTarget)

/-- The addresses of a target that a past has brought up. -/
inductive Learned (past : Past Answer) : IpAddr → Prop where
  | literal (ip : IpAddr) (h : parseIpAddr target.host = some ip) : Learned past ip
  | system (addr : SocketAddr) (rest : List SocketAddr) (hdns : dns = none)
      (h : (⟨.lookup target.hostPort, .ok (addr :: rest)⟩ : (op : Act) × Answer op) ∈ past) :
      Learned past addr.ip
  | server (ip : Dns.Ipv4Addr) (hdns : dns ≠ none) (h : Answered target.host past ip) :
      Learned past (.v4 ip)

/-- Where a target may be connected to: a learned address at its port, or what
    the system has answered. -/
def Destination (past : Past Answer) (addr : SocketAddr) : Prop :=
  (∃ ip, Learned dns target past ip ∧ addr = ⟨ip, target.port⟩) ∨
    dns = none ∧ ∃ rest : List SocketAddr,
      (⟨.lookup target.hostPort, .ok (addr :: rest)⟩ : (op : Act) × Answer op) ∈ past

/-- What the proxy may be told of a target: a learned address, or its name if
    nothing has resolved it. -/
def Told (past : Past Answer) (dst : SocksAddr) : Prop :=
  (∃ ip, Learned dns target past ip ∧ dst = SocksAddr.ofSocketAddr ⟨ip, target.port⟩) ∨
    parseIpAddr target.host = none ∧ dns = none ∧
      (resolve = true →
        (⟨.lookup target.hostPort, .ok []⟩ : (op : Act) × Answer op) ∈ past) ∧
      dst = SocksAddr.fromDomain target.host target.port

/-- The policy of a test of a target. -/
def testPolicy : Policy where
  transport
  name _ name := name = target.hostPort ∧ parseIpAddr target.host = none ∧ dns = none ∧
    (resolve = true ∨ ∃ iface, transport = .direct iface)
  tcp := Destination dns target
  udp past addr := Destination dns target past addr ∨ dns = some addr
  connect := Told dns resolve target
  relayed past dst := Told dns resolve target past dst ∨
    ∃ server, dns = some server ∧ dst = SocksAddr.ofSocketAddr server

variable {dns resolve target}

theorem Learned.extend {past past' : Past Answer} {ip : IpAddr} (h : Learned dns target past ip)
    (hpast : past <+: past') : Learned dns target past' ip := by
  cases h with
  | literal _ h => exact Learned.literal ip h
  | system addr rest hdns h => exact Learned.system addr rest hdns (hpast.subset h)
  | server ip hdns h => exact Learned.server ip hdns (h.extend hpast)

theorem Destination.extend {past past' : Past Answer} {addr : SocketAddr}
    (h : Destination dns target past addr) (hpast : past <+: past') :
    Destination dns target past' addr := by
  rcases h with ⟨ip, hip, rfl⟩ | ⟨hdns, rest, hlook⟩
  · exact Or.inl ⟨ip, hip.extend hpast, rfl⟩
  · exact Or.inr ⟨hdns, rest, hpast.subset hlook⟩

theorem Told.extend {past past' : Past Answer} {dst : SocksAddr}
    (h : Told dns resolve target past dst) (hpast : past <+: past') :
    Told dns resolve target past' dst := by
  rcases h with ⟨ip, hip, rfl⟩ | ⟨hhost, hdns, hlook, rfl⟩
  · exact Or.inl ⟨ip, hip.extend hpast, rfl⟩
  · exact Or.inr ⟨hhost, hdns, fun hresolve => hpast.subset (hlook hresolve), rfl⟩

variable (dns resolve target)

theorem testPolicy_stable : (testPolicy transport dns resolve target).Stable where
  name _ _ h := h
  tcp hpast _ h := Destination.extend h hpast
  udp hpast _ h := h.imp (fun h => Destination.extend h hpast) id
  connect hpast _ h := Told.extend h hpast
  relayed hpast _ h := h.imp (fun h => Told.extend h hpast) id

/-- A target that has been prepared for its tests. -/
structure Prepared (past : Past Answer) (ready : TestTarget) : Prop where
  host : ready.host = target.host
  port : ready.port = target.port
  learned : ∀ ip, ready.resolvedAddr = some ip → Learned dns target past ip
  unresolved : ready.resolvedAddr = none → parseIpAddr target.host = none → dns = none ∧
    (resolve = true → (⟨.lookup target.hostPort, .ok []⟩ : (op : Act) × Answer op) ∈ past)

variable {dns resolve target} in
theorem Prepared.extend {past past' : Past Answer} {ready : TestTarget}
    (h : Prepared dns resolve target past ready) (hpast : past <+: past') :
    Prepared dns resolve target past' ready where
  host := h.host
  port := h.port
  learned ip hip := (h.learned ip hip).extend hpast
  unresolved hnone hhost :=
    ⟨(h.unresolved hnone hhost).1, fun hr => hpast.subset ((h.unresolved hnone hhost).2 hr)⟩

theorem allows_of_prepared {past : Past Answer} {ready : TestTarget}
    (h : Prepared dns resolve target past ready) :
    (testPolicy transport dns resolve target).Allows ready past := by
  have hhostPort : ready.hostPort = target.hostPort := by
    rw [TestTarget.hostPort, TestTarget.hostPort, h.host, h.port]
  have htold : Told dns resolve target past ready.toSocksAddr := by
    unfold TestTarget.toSocksAddr
    rw [h.host, h.port]
    split
    · rename_i ip hip
      exact Or.inl ⟨ip, h.learned ip hip, rfl⟩
    · rename_i hnone
      split
      · rename_i ip hip
        exact Or.inl ⟨ip, Learned.literal ip hip, rfl⟩
      · rename_i hhost
        rcases h.unresolved hnone hhost with ⟨hdns, hlook⟩
        exact Or.inr ⟨hhost, hdns, hlook, rfl⟩
  refine ⟨?_, ?_, htold, Or.inl htold⟩
  · intro iface hdirect hnone hhost
    rw [h.host] at hhost
    exact ⟨hhostPort, hhost, (h.unresolved hnone hhost).1, Or.inr ⟨iface, hdirect⟩⟩
  · intro past' hpast addr hfound
    have hdst : Destination dns target past' addr := by
      cases hfound with
      | resolved ip hip => exact Or.inl ⟨ip, (h.learned ip hip).extend hpast, by rw [h.port]⟩
      | literal ip hnone hip =>
          rw [h.host] at hip
          exact Or.inl ⟨ip, Learned.literal ip hip, by rw [h.port]⟩
      | lookedUp _ rest hnone hhost hlook =>
          rw [h.host] at hhost
          rw [hhostPort] at hlook
          exact Or.inr ⟨(h.unresolved hnone hhost).1, rest, hlook⟩
    exact ⟨hdst, Or.inl hdst⟩

theorem prepare_keeps (out : Outside) (hfresh : target.resolvedAddr = none) (t : Past Answer) :
    (prepare out transport dns resolve target).Keeps
      (Permitted (testPolicy transport dns resolve target))
      (fun ready t' => Prepared dns resolve target t' ready) t := by
  have hstable := testPolicy_stable transport dns resolve target
  -- A target that is left as it is.
  have hsame : (parseIpAddr target.host = none → dns = none ∧ resolve = false) → ∀ t',
      Prepared dns resolve target t' target := by
    intro hplain t'
    refine ⟨rfl, rfl, fun ip hip => ?_, fun _ hhost => ?_⟩
    · rw [hfresh] at hip
      cases hip
    · rcases hplain hhost with ⟨hdns, hresolve⟩
      refine ⟨hdns, fun h => ?_⟩
      rw [hresolve] at h
      cases h
  cases dns with
  | some server =>
      unfold prepare
      by_cases hhost : (parseIpAddr target.host).isNone
      · simp only [hhost, if_true]
        have hresolved := resolveOver_keeps hstable out (t := t) (Or.inr rfl)
          (Or.inr ⟨server, rfl, rfl⟩) target.host
        refine keeps_seq (hresolved.imp fun ip t₁ hanswered => ?_)
        refine ⟨rfl, rfl, fun ip' hip => ?_, fun hnone => by cases hnone⟩
        cases hip
        exact Learned.server ip (Option.some_ne_none server) hanswered
      · simp only [hhost, Bool.false_eq_true, if_false]
        refine hsame (fun hnone => ?_) t
        rw [hnone] at hhost
        exact absurd rfl hhost
  | none =>
      unfold prepare
      cases resolve with
      | false => exact hsame (fun _ => ⟨rfl, rfl⟩) t
      | true =>
          simp only [if_true]
          by_cases hhost : (parseIpAddr target.host).isSome
          · rw [if_pos hhost]
            refine hsame (fun hnone => ?_) t
            rw [hnone] at hhost
            cases hhost
          · rw [if_neg hhost]
            have hnone := Option.not_isSome_iff_eq_none.mp hhost
            refine act_keeps (Or.inl ⟨rfl, hnone, rfl, Or.inl rfl⟩) fun addrs => ?_
            refine keeps_seq (io_keeps fun found hfound => keeps_lift fun ready hready => ?_)
            have hresolved := ok_of_io hready
            rw [TestTarget.resolveLocal, if_neg hhost, ok_bind, ok.injEq] at hresolved
            subst hresolved hfound
            -- The first answer is the address, and an empty one leaves the name.
            cases found with
            | nil =>
                refine ⟨rfl, rfl, ?_, fun _ _ => ⟨rfl, fun _ => List.mem_concat_self⟩⟩
                rintro ip ⟨⟩
            | cons addr rest =>
                refine ⟨rfl, rfl, fun ip hip => ?_, fun hn => by cases hn⟩
                cases hip
                exact Learned.system addr rest rfl List.mem_concat_self

end

/-- The operation is permitted to the command line of a `test`. -/
def TestMay (out : Outside) (args : TestArgs) (past : Past Answer) (op : Act) : Prop :=
  ∃ transport dns url target, args.transport.build out = ok transport ∧
    args.transport.buildDns out = ok dns ∧ args.target = some url ∧
    parseTargetUrl out.parseUrl url false = ok target ∧
    Permitted (testPolicy transport dns args.resolve target) past op

/-- A target of the command line has no address yet. -/
theorem resolvedAddr_parseTargetUrl {parse : String → Outcome String Url} {raw : String}
    {insecure : Bool} {target : TestTarget} (h : parseTargetUrl parse raw insecure = ok target) :
    target.resolvedAddr = none := by
  rw [parseTargetUrl, bind_eq_ok] at h
  rcases h with ⟨url, -, h⟩
  dsimp only at h
  split at h
  · cases h
  · cases h
    rfl

theorem runTest_permitted (out : Outside) (args : TestArgs) :
    (runTest out args).Keeps (TestMay out args) (fun _ _ => True) [] := by
  refine keeps_seq (keeps_lift fun transport htransport => ?_)
  refine keeps_seq (keeps_lift fun dns hdns => ?_)
  cases hurl : args.target with
  | none => trivial
  | some url =>
      refine keeps_seq (keeps_lift fun target htarget => ?_)
      have hmay : ∀ past op, Permitted (testPolicy transport dns args.resolve target) past op →
          TestMay out args past op :=
        fun past op h => ⟨transport, dns, url, target, htransport, hdns, hurl, htarget, h⟩
      have hstable := testPolicy_stable transport dns args.resolve target
      have hprepare := prepare_keeps transport dns args.resolve target out
        (resolvedAddr_parseTargetUrl htarget) []
      refine keeps_seq (keeps_mapErr (keeps_bind (hprepare.weaken hmay) ?_))
      intro ready t hready _
      have htests := testEach_keeps hstable out args.protocols
        (allows_of_prepared transport dns args.resolve target hready)
      exact htests.weaken hmay

/-- Whatever the world answers, every operation of `test` is one its policy
    permits after what has been answered before it. -/
theorem test_confined (out : Outside) (args : TestArgs) (ws : List (World Answer))
    (s : Running Act Answer String Nat)
    (hrun : Machine.runFrom Calls.step (start (runTest out args)) ws = some s) :
    Abides (TestMay out args) s.past :=
  (keeps_of_run _ ⟨abides_nil _, runTest_permitted out args⟩ ws s hrun).1

/-- A URL parser that knows a proxy and a target. -/
def fewUrls : String → Outcome String Url
  | "socks5://127.0.0.1:1080" => ok ⟨"socks5", "", none, some "127.0.0.1", some 1080, ""⟩
  | "http://host.test/" => ok ⟨"http", "", none, some "host.test", none, "/"⟩
  | _ => err "relative URL without a base"

def fewOutside : Outside := ⟨fewUrls, fun _ => "", fun _ => "", fun _ => ""⟩

/-- A world in which everything succeeds, but no name is known and no port is free. -/
def kindWorld : World Answer where
  pick := false
  answer
    | .lookup _ => .ok []
    | .resolve _ => .ok []
    | .dialName _ => .ok ()
    | .dial _ => .ok ()
    | .bindTo _ _ => .ok ()
    | .udp _ => .ok ()
    | .authenticate _ => .ok ()
    | .command _ _ => .ok bindHint
    | .relayed _ => ()
    | .randomId => 0
    | .query _ => .ok none
    | .http1 => ⟨ok (), ok (), ok (), fun _ => ok (), [ok (strBytes "HTTP/1.1 200 OK\r\n\r\n")]⟩
    | .http2 => ⟨ok (), ok (), ok (), ok (), fun _ => ok (), ok (), ok 200, []⟩
    | .http3 =>
        ⟨ok (), ok (), ok (), ok (), ok (), fun _ => ok (), false, ok (), ok (), ok 200, []⟩
    | .serve _ => .error "Address already in use"
    | .handshake => .ok ()
    | .request _ => .ok (TestResponse.ok 40000)
    | .transfer plan => .ok ⟨plan, {}, {}⟩

def proxiedTest : TestArgs :=
  ⟨⟨some "socks5://127.0.0.1:1080", none, none⟩, some "http://host.test/", some .http1, true⟩

/-- With `--resolve` the name is looked up first, and since nothing is found the
    proxy is told the name. -/
theorem test_confined_proxied :
    let run := Machine.runFrom Calls.step (start (runTest fewOutside proxiedTest))
      (List.replicate 9 kindWorld)
    run.map (fun s => s.past.map Sigma.fst)
      = some [.lookup "host.test:80", .dialName "127.0.0.1:1080", .authenticate none,
        .command cmdTcpConnect (SocksAddr.fromDomain "host.test" 80), .http1] ∧
    ∀ s, run = some s → Abides (TestMay fewOutside proxiedTest) s.past :=
  ⟨by decide +kernel, fun s hrun => test_confined fewOutside proxiedTest _ s hrun⟩

namespace Press

/-- The operation is permitted to the command line of a `press`. -/
def PressMay (out : Outside) (args : PressArgs) (past : Past Answer) (op : Act) : Prop :=
  ∃ transport dns target, args.transport.build out = ok transport ∧
    args.transport.buildDns out = ok dns ∧
    parseTargetUrl out.parseUrl args.target args.insecure = ok target ∧
    Permitted (testPolicy transport dns args.resolve target) past op

/-- What the requests of a `press` are given. -/
def Ready (out : Outside) (args : PressArgs) (past : Past Answer) (transport : Transport)
    (ready : TestTarget) : Prop :=
  ∃ dns target, args.transport.build out = ok transport ∧
    args.transport.buildDns out = ok dns ∧
    parseTargetUrl out.parseUrl args.target args.insecure = ok target ∧
    Prepared dns args.resolve target past ready

theorem setUp_keeps (out : Outside) (args : PressArgs) :
    (setUp out args).Keeps (PressMay out args) (fun r past => Ready out args past r.1 r.2) [] := by
  refine keeps_seq (keeps_lift fun transport htransport => ?_)
  refine keeps_seq (keeps_lift fun dns hdns => ?_)
  refine keeps_seq (keeps_lift fun target htarget => ?_)
  have hprepare := prepare_keeps transport dns args.resolve target out
    (resolvedAddr_parseTargetUrl htarget) []
  refine keeps_seq (keeps_mapErr ((hprepare.weaken ?_).imp ?_))
  · exact fun past op h => ⟨transport, dns, target, htransport, hdns, htarget, h⟩
  · exact fun ready t hready => ⟨dns, target, htransport, hdns, htarget, hready⟩

/-- The requests of a `press` keep to its policy one by one. -/
theorem commandTrial_keeps (out : Outside) (args : PressArgs) {past : Past Answer}
    {transport : Transport} {ready : TestTarget} (h : Ready out args past transport ready)
    (protocol : Http.Protocol) :
    (Http.testOver out transport ready protocol).Keeps (PressMay out args)
      (fun result t => HeardOver transport ready protocol result t) past := by
  rcases h with ⟨dns, target, htransport, hdns, htarget, hready⟩
  have htest := testOver_keeps (testPolicy_stable transport dns args.resolve target) out
    (allows_of_prepared transport dns args.resolve target hready) protocol
  exact htest.weaken fun past op h => ⟨transport, dns, target, htransport, hdns, htarget, h⟩

/-- Whatever the world answers, every operation of `press` is one its policy
    permits. That is so while it is set up, and for every request in every order
    of their turns, after what has been answered to the setup and to the
    request. -/
theorem press_confined (out : Outside) (args : PressArgs) (ws : List (World Answer))
    (s : Running Act Answer String (Transport × TestTarget))
    (hrun : Machine.runFrom Calls.step (start (setUp out args)) ws = some s) :
    Abides (PressMay out args) s.past ∧
    ∀ transport ready, s.prog = ret (transport, ready) →
      ∀ (F : Type) [LinearOrder F] [Millis F] (protocol : Http.Protocol) (n concurrency : Nat)
        (es : List (LiveEvent (World Answer) n)) (l : LiveState _ F n),
        Machine.runFrom (liveStep (commandTrial out transport ready protocol s.past))
          (LiveState.init (commandTrial out transport ready protocol s.past) F n concurrency) es
          = some l →
        ∀ i, Abides (PressMay out args) (l.trials i).past := by
  rcases keeps_of_run _ ⟨abides_nil _, setUp_keeps out args⟩ ws s hrun with ⟨habides, hkeeps⟩
  refine ⟨habides, ?_⟩
  intro transport ready hret F _ _ protocol n concurrency es l hlive i
  rw [hret] at hkeeps
  -- Each test is a run of its own, from the end of the setup.
  rcases (liveInv_of_run hlive).trials i with ⟨ws', hws'⟩
  have htrial := commandTrial_keeps out args hkeeps protocol
  exact (keeps_of_run (commandTrial out transport ready protocol s.past).init
    ⟨habides, htrial⟩ ws' _ hws').1

def proxiedPress : PressArgs :=
  ⟨⟨some "socks5://127.0.0.1:1080", none, none⟩, "http://host.test/", false, false⟩

/-- What the requests of `proxiedPress` are given. -/
def namedTarget : TestTarget := ⟨"host.test", 80, "/", false, none, false⟩

def onlyTask : Fin 1 := ⟨0, by omega⟩

/-- One request, with the proxy's answers. -/
def oneRequest : List (LiveEvent (World Answer) 1) :=
  [.press .spawn, .press (.task onlyTask)] ++ List.replicate 4 (.trial onlyTask kindWorld)

theorem press_confined_one :
    let trial := commandTrial fewOutside (.socks5 ⟨"127.0.0.1:1080", none⟩) namedTarget .http1 []
    let run := Machine.runFrom (liveStep trial) (LiveState.init trial ℚ 1 1) oneRequest
    run.map (fun l => (l.trials onlyTask).past.map Sigma.fst)
      = some [.dialName "127.0.0.1:1080", .authenticate none,
        .command cmdTcpConnect (SocksAddr.fromDomain "host.test" 80), .http1] ∧
    ∀ l, run = some l →
      Abides (PressMay fewOutside proxiedPress) (l.trials onlyTask).past := by
  intro trial run
  refine ⟨by decide +kernel, fun l hlive => ?_⟩
  have hsetUp : start (setUp fewOutside proxiedPress)
      = ⟨ret (.socks5 ⟨"127.0.0.1:1080", none⟩, namedTarget), []⟩ := by rfl
  exact (press_confined fewOutside proxiedPress [] _ rfl).2 _ _ (congrArg Running.prog hsetUp) ℚ
    .http1 1 1 oneRequest l hlive onlyTask

end Press

/-! ## The command benchmark -/

/-- The host of a benchmark that has not come to know one. -/
instance : Nonempty SocketAddr := ⟨{ ip := .v4 (List.Vector.replicate 4 0), port := 0 }⟩

section

variable (transport : Transport) (dns : Option SocketAddr) (raw : Option String)

/-- The address of the bench server, once it is known. -/
inductive Host (past : Past Answer) : SocketAddr → Prop where
  | literal (text : String) (addr : SocketAddr) (hraw : raw = some text)
      (h : parseSocketAddr text = some addr) : Host past addr
  | system (text : String) (addr : SocketAddr) (rest : List SocketAddr) (hraw : raw = some text)
      (hdns : dns = none)
      (h : (⟨.lookup text, .ok (addr :: rest)⟩ : (op : Act) × Answer op) ∈ past) : Host past addr
  | server (text host : String) (ip : Dns.Ipv4Addr) (port : UInt16) (hraw : raw = some text)
      (hdns : dns ≠ none) (hsplit : Bench.splitHostPort text = ok (host, port))
      (h : Answered host past ip) : Host past ⟨.v4 ip, port⟩
  -- Without a target, the in-process server of `--serve`.
  | served (port : UInt16) (addr : SocketAddr) (hraw : raw = none)
      (h : (⟨.serve port, .ok addr⟩ : (op : Act) × Answer op) ∈ past) : Host past addr

variable (host : SocketAddr)

/-- The control connection of the bench server, or a port it has named. -/
def AtHost (past : Past Answer) (addr : SocketAddr) : Prop :=
  Host dns raw past host ∧ (addr = host ∨ ∃ req resp,
    (⟨.request req, .ok resp⟩ : (op : Act) × Answer op) ∈ past ∧ resp.status = statusOk ∧
    addr = ⟨host.ip, resp.dataPort⟩)

/-- The policy of a benchmark with a host. -/
def benchPolicy : Policy where
  transport
  name _ name := raw = some name ∧ parseSocketAddr name = none ∧ dns = none
  tcp := AtHost dns raw host
  udp past addr := AtHost dns raw host past addr ∨ dns = some addr
  connect past dst := ∃ addr, AtHost dns raw host past addr ∧ dst = SocksAddr.ofSocketAddr addr
  relayed past dst := ∃ addr, (AtHost dns raw host past addr ∨ dns = some addr) ∧
    dst = SocksAddr.ofSocketAddr addr

variable {dns raw host}

theorem Host.extend {past past' : Past Answer} {addr : SocketAddr} (h : Host dns raw past addr)
    (hpast : past <+: past') : Host dns raw past' addr := by
  cases h with
  | literal text _ hraw h => exact Host.literal text addr hraw h
  | system text _ rest hraw hdns h => exact Host.system text addr rest hraw hdns (hpast.subset h)
  | server text host ip port hraw hdns hsplit h =>
      exact Host.server text host ip port hraw hdns hsplit (h.extend hpast)
  | served port _ hraw h => exact Host.served port addr hraw (hpast.subset h)

theorem AtHost.extend {past past' : Past Answer} {addr : SocketAddr}
    (h : AtHost dns raw host past addr) (hpast : past <+: past') :
    AtHost dns raw host past' addr := by
  rcases h with ⟨hhost, h⟩
  refine ⟨hhost.extend hpast, h.imp_right ?_⟩
  rintro ⟨req, resp, hresp, hok, rfl⟩
  exact ⟨req, resp, hpast.subset hresp, hok, rfl⟩

variable (dns raw host)

theorem benchPolicy_stable : (benchPolicy transport dns raw host).Stable where
  name _ _ h := h
  tcp hpast _ h := AtHost.extend h hpast
  udp hpast _ h := h.imp (fun h => AtHost.extend h hpast) id
  connect := by
    rintro past past' hpast dst ⟨addr, haddr, rfl⟩
    exact ⟨addr, haddr.extend hpast, rfl⟩
  relayed := by
    rintro past past' hpast dst ⟨addr, haddr, rfl⟩
    exact ⟨addr, haddr.imp (fun h => h.extend hpast) id, rfl⟩

/-- The target a connection is given is permitted as its address is. -/
theorem allows_synthetic (out : Outside) {past : Past Answer} {addr : SocketAddr}
    (h : AtHost dns raw host past addr) :
    (benchPolicy transport dns raw host).Allows (Bench.syntheticTarget out addr) past where
  name iface hdirect hnone hhost := by cases hnone
  found past' hpast addr' hfound := by
    cases hfound with
    | resolved ip hip =>
        cases hip
        exact ⟨h.extend hpast, Or.inl (h.extend hpast)⟩
    | literal ip hnone hip => cases hnone
    | lookedUp _ rest hnone hhost hlook => cases hnone
  connect := ⟨addr, h, rfl⟩
  relayed := ⟨addr, Or.inl h, rfl⟩

end

namespace Bench

section

variable (transport : Transport) (dns : Option SocketAddr) (raw : Option String) (out : Outside)

/-- While the target is located nothing is done that depends on the host. -/
theorem givenTarget_keeps (host : SocketAddr) (t : Past Answer) :
    (givenTarget out raw dns transport).Keeps (Permitted (benchPolicy transport dns raw host))
      (fun target t' => (target = none ↔ raw = none) ∧
        ∀ addr, target = some addr → Host dns raw t' addr) t := by
  cases raw with
  | none => exact ⟨⟨fun _ => rfl, fun _ => rfl⟩, fun addr h => by cases h⟩
  | some text =>
      have hparse : (parseBenchTarget out text dns transport).Keeps
          (Permitted (benchPolicy transport dns (some text) host))
          (fun addr t' => Host dns (some text) t' addr) t := by
        unfold parseBenchTarget
        split
        · rename_i addr haddr
          exact Host.literal text addr rfl haddr
        · rename_i hname
          cases dns with
          | some server =>
              refine keeps_seq (keeps_lift fun hostPort hsplit => ?_)
              have hresolved := resolveOver_keeps
                (benchPolicy_stable transport (some server) (some text) host) out (t := t)
                (Or.inr rfl)
                ⟨server, Or.inr rfl, rfl⟩ hostPort.1
              refine keeps_seq (keeps_mapErr (hresolved.imp fun ip t' hanswered => ?_))
              exact Host.server text hostPort.1 ip hostPort.2 rfl (Option.some_ne_none server)
                hsplit hanswered
          | none =>
              refine act_keeps (Or.inl ⟨rfl, hname, rfl⟩) fun addrs => ?_
              refine keeps_seq (keeps_mapErr (io_keeps fun found hfound => ?_))
              subst hfound
              cases found with
              | nil => trivial
              | cons addr rest => exact Host.system text addr rest rfl rfl List.mem_concat_self
      refine keeps_seq (hparse.imp fun addr t' haddr => ⟨?_, fun addr' h => ?_⟩)
      · simp only [reduceCtorEq]
      · cases h
        exact haddr

/-- A TCP connection to an address has just been opened. -/
def Dialled (addr : SocketAddr) (past : Past Answer) : Prop :=
  match transport with
  | .socks5 _ => ∃ bindAddr, past.getLast?
      = some ⟨.command cmdTcpConnect (SocksAddr.ofSocketAddr addr), .ok bindAddr⟩
  | .direct _ => past.getLast? = some ⟨.dial addr, .ok ()⟩

/-- The connection of a data phase has just been opened. -/
def DataOpened (server : SocketAddr) (kind : UInt8) (past : Past Answer) : Prop :=
  if kind = kindTcpUp ∨ kind = kindTcpDown then Dialled transport server past
  else Opened transport server past

/-- The tests of the plans, one right after the other. Each has its request
    accepted, and its data goes over a connection that is then opened to the
    port of the response. -/
inductive Tested (opts : BenchOptions) (host : SocketAddr) :
    Past Answer → List Plan → List BenchOutcome → Past Answer → Prop where
  | nil (past : Past Answer) : Tested opts host past [] [] past
  | cons {before opening past : Past Answer} {plan : Plan} {plans : List Plan}
      {outcome : BenchOutcome} {outcomes : List BenchOutcome} (resp : TestResponse)
      (hrequest : before ++ [⟨.request (opts.request plan), .ok resp⟩] <+: opening)
      (hok : resp.status = statusOk)
      (hopened : DataOpened transport { ip := host.ip, port := resp.dataPort } plan.kind opening)
      (hrest : Tested opts host (opening ++ [⟨.transfer plan, .ok outcome⟩]) plans outcomes past) :
      Tested opts host before (plan :: plans) (outcome :: outcomes) past

variable {transport} in
/-- The target of such a connection has its address already. -/
theorem dialled_of_connected {addr : SocketAddr} {past : Past Answer}
    (h : Connected transport (syntheticTarget out addr) past) : Dialled transport addr past := by
  cases transport with
  | socks5 config => exact h
  | direct iface =>
      rcases h with ⟨found, hfound, hlast⟩
      cases hfound with
      | resolved ip hip =>
          cases hip
          exact hlast
      | literal ip hnone hip => cases hnone
      | lookedUp _ rest hnone hhost hlook => cases hnone

theorem openData_keeps (host : SocketAddr) {server : SocketAddr} {t : Past Answer}
    (h : AtHost dns raw host t server) (kind : UInt8) :
    (openData out transport server kind).Keeps (Permitted (benchPolicy transport dns raw host))
      (fun _ t' => DataOpened transport server kind t') t := by
  have hstable := benchPolicy_stable transport dns raw host
  unfold openData DataOpened
  by_cases htcp : kind = kindTcpUp ∨ kind = kindTcpDown
  · simp only [if_pos htcp]
    have htcp := connectTcp_keeps hstable (allows_synthetic transport dns raw host out h)
    exact htcp.imp fun _ _ hconnected => dialled_of_connected out hconnected
  · simp only [if_neg htcp]
    have hudp := openUdp_keeps hstable out (t := t) (Or.inl h) ⟨server, Or.inl h, rfl⟩
    exact keeps_seq (hudp.imp fun _ _ hopened => hopened)

/-- The loop connects to the ports the server names, and to no other host. -/
theorem runTests_keeps (opts : BenchOptions) (host : SocketAddr) (plans : List Plan)
    {t : Past Answer} (h : Host dns raw t host) :
    (runTests out transport opts host plans).Keeps (Permitted (benchPolicy transport dns raw host))
      (fun outcomes t' => Tested transport opts host t plans outcomes t') t := by
  induction plans generalizing t with
  | nil => exact Tested.nil t
  | cons plan plans ih =>
      refine act_keeps trivial fun answer => keeps_seq (raise_keeps fun resp hresp => ?_)
      subst hresp
      by_cases hok : resp.status ≠ statusOk
      · rw [if_pos hok]
        trivial
      · rw [if_neg hok]
        have hhost := h.extend (List.prefix_append t [⟨.request (opts.request plan), .ok resp⟩])
        have hport : AtHost dns raw host (t ++ [⟨.request (opts.request plan), .ok resp⟩])
            { ip := host.ip, port := resp.dataPort } :=
          ⟨hhost, Or.inr ⟨opts.request plan, resp, List.mem_concat_self, not_not.mp hok, rfl⟩⟩
        have hopen := openData_keeps transport dns raw out host hport plan.kind
        refine keeps_bind (keeps_mapErr hopen) fun _ t₁ hopened ht₁ => ?_
        refine act_keeps trivial fun answer => keeps_seq (raise_keeps fun outcome houtcome => ?_)
        subst houtcome
        have hrest := ih ((hhost.extend ht₁).extend
          (List.prefix_append t₁ [⟨.transfer plan, .ok outcome⟩]))
        exact keeps_seq (hrest.imp fun outcomes t₂ houtcomes =>
          Tested.cons resp ht₁ (not_not.mp hok) hopened houtcomes)

theorem localServer_keeps (serve : Bool) (servePort : Option UInt16) (host : SocketAddr)
    (t : Past Answer) :
    (localServer serve servePort).Keeps (Permitted (benchPolicy transport dns raw host))
      (fun guard t' => ∀ addr, guard = some addr →
        (⟨.serve (servePort.getD 0), .ok addr⟩ : (op : Act) × Answer op) ∈ t') t := by
  cases serve with
  | false => exact fun addr h => by cases h
  | true =>
      refine act_keeps trivial fun answer => keeps_seq (raise_keeps fun addr haddr => ?_)
      rintro addr' ⟨⟩
      rw [haddr]
      exact List.mem_concat_self

/-- The control connection was opened and greeted, and then the tests were run. -/
def Benchmarked (opts : BenchOptions) (plans : List Plan) (host : SocketAddr)
    (outcomes : List BenchOutcome) (past : Past Answer) : Prop :=
  ∃ control, Host dns raw control host ∧ Dialled transport host control ∧
    Tested transport opts host (control ++ [⟨.handshake, .ok ()⟩]) plans outcomes past

/-- The rest of a benchmark, once the address of the server is known. -/
theorem afterTarget_keeps (formatRateBps : UInt64 → String) (opts : BenchOptions)
    (host : SocketAddr) {t : Past Answer} (hhost : Host dns raw t host) :
    (mapErr (fun e => e.text out.ioText) (transport.connectTcp (syntheticTarget out host)) >>=
      fun _ => act .handshake >>= fun shaken => raise shaken >>= fun _ =>
        runTests out transport opts host (buildPlans formatRateBps opts)).Keeps
      (Permitted (benchPolicy transport dns raw host))
      (Benchmarked transport dns raw opts (buildPlans formatRateBps opts) host) t := by
  have hconnect := connectTcp_keeps (benchPolicy_stable transport dns raw host)
    (allows_synthetic transport dns raw host out ⟨hhost, Or.inl rfl⟩)
  refine keeps_bind (keeps_mapErr hconnect) fun _ t₁ hconnected ht₁ => ?_
  refine act_keeps trivial fun shaken => keeps_seq (raise_keeps fun u hshaken => ?_)
  subst hshaken
  have hhost' := (hhost.extend ht₁).extend (List.prefix_append t₁ [⟨.handshake, .ok u⟩])
  exact (runTests_keeps transport dns raw out opts host _ hhost').imp fun outcomes t' htested =>
    ⟨t₁, hhost.extend ht₁, dialled_of_connected out hconnected, htested⟩

/-- The host is that of the target, or else of the in-process server. -/
theorem runInner_keepsOne (formatRateBps : UInt64 → String) (target : Option SocketAddr)
    (serve : Bool) (servePort : Option UInt16) (opts : BenchOptions) {t : Past Answer}
    (hnone : target = none ↔ raw = none) (h : ∀ addr, target = some addr → Host dns raw t addr) :
    KeepsOne (fun host => Permitted (benchPolicy transport dns raw host))
      (Benchmarked transport dns raw opts (buildPlans formatRateBps opts))
      (runInner out formatRateBps transport target serve servePort opts) t := by
  have hserver := (Keeps.all fun host => localServer_keeps transport dns raw serve servePort host t)
  refine keepsOne_seq (hserver.extends.imp ?_)
  rintro guard t₁ ⟨hguard, ht₁⟩
  cases hor : target.or guard with
  | none => exact KeepsOne.chosen (Classical.arbitrary _) trivial
  | some host =>
      -- A target of the command line goes before the in-process server.
      have hhost : Host dns raw t₁ host := by
        cases htarget : target with
        | some given =>
            rw [htarget, Option.some_or, Option.some.injEq] at hor
            exact (h host (hor ▸ htarget)).extend ht₁
        | none =>
            rw [htarget, Option.none_or] at hor
            exact Host.served _ host (hnone.mp htarget) (hguard host hor)
      dsimp only
      split
      · exact KeepsOne.chosen host trivial
      · exact KeepsOne.chosen host
          (afterTarget_keeps transport dns raw out formatRateBps opts host hhost)

end

/-- The operation is permitted to the command line of a `benchmark` with a host. -/
def BenchMay (out : Outside) (args : Args) (host : SocketAddr) (past : Past Answer) (op : Act) :
    Prop :=
  ∃ transport dns, args.transport.build out = ok transport ∧ args.transport.buildDns out = ok dns ∧
    Permitted (benchPolicy transport dns args.target host) past op

/-- The options of a command line. -/
def Args.opts (args : Args) (bandwidths : List UInt64) : BenchOptions :=
  BenchArgs.options
    { mode := args.mode, direction := args.direction, duration := args.duration,
      udpBandwidth := bandwidths, udpSize := args.udpSize, tcpChunk := args.tcpChunk }

/-- What the outcomes of a `benchmark` stand for. -/
def OutcomesOf (out : Outside) (formatRateBps : UInt64 → String) (args : Args) (host : SocketAddr)
    (outcomes : List BenchOutcome) (past : Past Answer) : Prop :=
  ∃ transport dns bandwidths, args.transport.build out = ok transport ∧
    args.transport.buildDns out = ok dns ∧
    Bandwidth.parseBandwidthList args.udpBandwidth = ok bandwidths ∧
    Benchmarked transport dns args.target (args.opts bandwidths)
      (buildPlans formatRateBps (args.opts bandwidths)) host outcomes past

theorem runBenchmark_keepsOne (out : Outside) (formatRateBps : UInt64 → String) (args : Args) :
    KeepsOne (BenchMay out args) (OutcomesOf out formatRateBps args)
      (runBenchmark out formatRateBps args) [] := by
  refine keepsOne_seq (keeps_lift fun transport htransport => ?_)
  refine keepsOne_seq (keeps_lift fun dns hdns => ?_)
  refine keepsOne_seq (keeps_lift fun bandwidths hlist => ?_)
  have hmay : ∀ host past op, Permitted (benchPolicy transport dns args.target host) past op →
      BenchMay out args host past op :=
    fun host past op h => ⟨transport, dns, htransport, hdns, h⟩
  have htarget := Keeps.all fun host =>
    givenTarget_keeps transport dns args.target out host []
  refine keepsOne_seq ((htarget.weaken fun past op h host => hmay host past op (h host)).imp ?_)
  rintro target t ⟨hnone, hhost⟩
  have hinner := runInner_keepsOne transport dns args.target out formatRateBps target args.serve
    args.servePort (args.opts bandwidths) hnone hhost
  exact hinner.mono hmay fun host outcomes t' h =>
    ⟨transport, dns, bandwidths, htransport, hdns, hlist, h⟩

/-- Whatever the world answers, there is one host such that every operation of
    `benchmark` is one the policy with that host permits after what has been
    answered before it. -/
theorem benchmark_confined (out : Outside) (formatRateBps : UInt64 → String) (args : Args)
    (ws : List (World Answer)) (s : Running Act Answer String (List BenchOutcome))
    (hrun : Machine.runFrom Calls.step (start (runBenchmark out formatRateBps args)) ws = some s) :
    ∃ host, Abides (BenchMay out args host) s.past := by
  rcases keepsOne_of_run _ (fun _ => abides_nil _) (runBenchmark_keepsOne out formatRateBps args)
    ws s hrun with ⟨host, habides, -⟩
  exact ⟨host, habides⟩

/-- A TCP upload, bound to an interface. -/
def boundBenchmark : Args :=
  ⟨⟨none, some "eth0", none⟩, some "127.0.0.1:5555", false, none, .tcp, .up, 1, "10M", 1200, 65536⟩

/-- Both sockets are bound, and the second goes to the port that was named. -/
theorem benchmark_confined_bound :
    let local4 : IpAddr := .v4 ⟨[127, 0, 0, 1], rfl⟩
    let run := Machine.runFrom Calls.step
      (start (runBenchmark fewOutside (fun _ => "") boundBenchmark)) (List.replicate 6 kindWorld)
    run.map (fun s => (s.past.map Sigma.fst).filter
        (fun op => op = .dial ⟨local4, 5555⟩ ∨ op = .bindTo (.name "eth0") false ∨
          op = .dial ⟨local4, 40000⟩))
      = some [.bindTo (.name "eth0") false, .dial ⟨local4, 5555⟩, .bindTo (.name "eth0") false,
        .dial ⟨local4, 40000⟩] ∧
    ∀ s, run = some s → ∃ host, Abides (BenchMay fewOutside boundBenchmark host) s.past := by
  intro local4 run
  exact ⟨by decide +kernel, fun s hrun => benchmark_confined fewOutside _ boundBenchmark _ s hrun⟩

end Bench

end ProxyPen
