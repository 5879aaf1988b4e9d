import ProxyPen.Core.HttpLink
import ProxyPen.Theory.ResponseSize

/-!
# Runs of the HTTP/1.1 Test

The plain HTTP/1.1 test against the test server of the same program, over every
order of turns and every way the request and the response are cut. Each turn
brings the run closer to its end, so every run ends after a bounded number of
turns. A run that has connected, and in which the one read of the server took
the whole request, ends in a success with status 200. Where it took less, the
connection is reset, and the test may end with that error instead, but with
nothing else.

The client writes its whole request before it reads, and the server its whole
response before it reads on. With neither fitting into the connection the two
wait for each other, and only the timeout ends the test.

## Main definitions

* `HttpLink.Sound`: The invariant of a run.
* `HttpLink.Jammed`: Both sides wait for each other.
* `HttpLink.measure`: How much is left of a run.

## Theorems

* `sound_step`: A turn keeps the invariant.
* `measure_step`, `enabled_iff`: A run ends, or both sides wait.
* `never_jammed_iff`: When they never do.
* `http1_run`: How it ends.
-/

namespace ProxyPen

open Outcome Protocol Socks Http

namespace HttpLink

variable {target : TestTarget} {cap : HttpCapacity} {body : Bytes}

/-- What the server has left to write. -/
def left (s : HttpLink) : Bytes :=
  match s.server with
  | .writing left => left
  | _ => []

/-- What has been read so far: pieces of the response, none of them empty. -/
structure Reading (body : Bytes) (s : HttpLink) (chunks : List Bytes) : Prop where
  connect : s.connect = ok ()
  wrote : s.wrote = ok ()
  reads : s.reads = chunks.map ok
  pieces : ∀ chunk ∈ chunks, chunk ≠ [] ∧ chunk.length ≤ 4096
  response : s.server ≠ .reading →
    chunks.flatten ++ s.toClient ++ s.left = Server.serveHttp1 s.taken body
  silent : s.server = .reading → chunks = [] ∧ s.toClient = []

/-- Where the client stands does not matter to that. -/
theorem Reading.goto {s : HttpLink} {chunks : List Bytes} (h : Reading body s chunks)
    (pc : HttpClientPc) : Reading body { s with pc } chunks :=
  ⟨h.connect, h.wrote, h.reads, h.pieces, h.response, h.silent⟩

/-- Nothing has reached the server. -/
def Silent (s : HttpLink) : Prop := s.server = .reading ∧ s.toServer = []

/-- How the test has ended: with the response, with the reset of the connection,
    or without one. -/
inductive Ended (target : TestTarget) (body : Bytes) (s : HttpLink) : Prop where
  | read (chunks : List Bytes) (hread : Reading body s chunks) (hempty : s.toClient = [])
      (hclosed : s.server = .closed)
  | broken (hreset : s.reset) (code : Nat)
      (hresult : Http1.doTest target s.exchange = err (.io (.os code)))
  | unconnected (hsilent : s.Silent) (e : ProxyPenError) (hconnect : s.connect = err e)

/-- The invariant of a run. -/
structure Sound (target : TestTarget) (body : Bytes) (s : HttpLink) : Prop where
  silent : s.pc = .connecting → s.Silent
  request : s.taken ++ s.toServer ++ s.unsent = strBytes (Http1.request target)
  waiting : s.server = .reading → s.taken = []
  served : s.server ≠ .reading → s.taken ≠ []
  unsent : s.pc = .connecting ∨ s.pc = .writing → s.unsent ≠ []
  sent : s.pc = .first ∨ s.pc = .rest → s.unsent = []
  running : s.pc ≠ .done → ∃ chunks, Reading body s chunks
  ended : s.pc = .done → Ended target body s

theorem request_ne_nil (target : TestTarget) : strBytes (Http1.request target) ≠ [] := by
  intro hnil
  have hprefix := Http1.request_prefix target
  rw [hnil, List.prefix_nil] at hprefix
  exact absurd hprefix (by decide)

/-- The server has no part in a test that has ended. -/
theorem Ended.server {s : HttpLink} (h : Ended target body s) : s.server = .closed ∨ s.Silent := by
  cases h with
  | read chunks hread hempty hclosed => exact Or.inl hclosed
  | broken hreset code hresult => exact Or.inl hreset.1
  | unconnected hsilent e hconnect => exact Or.inr hsilent

theorem sound_init (target : TestTarget) (body : Bytes) : Sound target body (init target) where
  silent _ := ⟨rfl, rfl⟩
  request := rfl
  waiting _ := rfl
  served h := absurd rfl h
  unsent _ := request_ne_nil target
  sent h := by rcases h with h | h <;> cases h
  running _ := ⟨[], rfl, rfl, rfl, fun _ h => absurd h List.not_mem_nil, fun h => absurd rfl h,
    fun _ => ⟨rfl, rfl⟩⟩
  ended h := by cases h

/-! ## What the client makes of a reset -/

/-- A read that fails ends the loop with its error. -/
theorem readRest_fails {chunks : List Bytes}
    (h : ∀ chunk ∈ chunks, chunk ≠ [] ∧ chunk.length ≤ 4096) (buf : Bytes) (code : Nat) :
    Http1.readRest false buf (chunks.map ok ++ [err (.os code)]) = err (.io (.os code)) := by
  induction chunks generalizing buf with
  | nil => rfl
  | cons chunk chunks ih =>
      rw [List.forall_mem_cons] at h
      rw [List.map_cons, List.cons_append, Http1.readRest, if_neg h.1.1]
      exact ih h.2 _

theorem doTest_connect_fails {s : HttpLink} {e : ProxyPenError} (hconnect : s.connect = err e) :
    Http1.doTest target s.exchange = err e := by
  unfold Http1.doTest
  simp only [exchange, hconnect]
  rfl

theorem doTest_plain (hplain : target.useTls = false) {s : HttpLink} (hconnect : s.connect = ok ())
    (hwrote : s.wrote = ok ()) :
    Http1.doTest target s.exchange = (do
      let buf ← Http1.readResponse false s.reads
      let (status, _) ← Http1.parseStatusLine buf
      ok (.success .http1 status buf.length)) := by
  unfold Http1.doTest
  simp only [exchange, hplain, hconnect, hwrote, Bool.false_eq_true, if_false]
  rfl

theorem doTest_write_fails (hplain : target.useTls = false) {s : HttpLink} {code : Nat}
    (hconnect : s.connect = ok ()) (hwrote : s.wrote = err (.os code)) :
    Http1.doTest target s.exchange = err (.io (.os code)) := by
  unfold Http1.doTest
  simp only [exchange, hplain, hconnect, hwrote, Bool.false_eq_true, if_false]
  rfl

theorem doTest_read_fails (hplain : target.useTls = false) {s s' : HttpLink} {chunks : List Bytes}
    (h : Reading body s chunks) {code : Nat} (hconnect : s'.connect = s.connect)
    (hwrote : s'.wrote = s.wrote) (hreads : s'.reads = s.reads ++ [err (.os code)]) :
    Http1.doTest target s'.exchange = err (.io (.os code)) := by
  have hread : Http1.readResponse false (chunks.map ok ++ [err (.os code)])
      = err (.io (.os code)) := by
    cases chunks with
    | nil => rfl
    | cons chunk chunks => exact readRest_fails (List.forall_mem_cons.mp h.pieces).2 chunk code
  rw [doTest_plain hplain (hconnect.trans h.connect) (hwrote.trans h.wrote), hreads, h.reads, hread,
    err_bind]

/-! ## Turns -/

variable {s s' : HttpLink}

/-- The client only writes while the rest of the run is as it was. -/
theorem sound_clientWrite {k : Nat} (h : Sound target body s)
    (hstep : s.step cap body (.clientWrite k) = some s') : Sound target body s' := by
  simp only [step, Option.ite_none_right_eq_some, Option.some.injEq] at hstep
  rcases hstep with ⟨⟨hpc, hpos, hle, -⟩, rfl⟩
  rcases h.running (by rw [hpc]; decide) with ⟨chunks, hread⟩
  have hread' : ∃ chunks, Reading body { s with
      pc := if s.unsent.length ≤ k then .first else .writing
      unsent := s.unsent.drop k
      toServer := s.toServer ++ s.unsent.take k } chunks :=
    ⟨chunks, hread.connect, hread.wrote, hread.reads, hread.pieces, hread.response, hread.silent⟩
  have hrequest : s.taken ++ (s.toServer ++ s.unsent.take k) ++ s.unsent.drop k
      = strBytes (Http1.request target) := by
    rw [← h.request, List.append_assoc, List.append_assoc, List.take_append_drop,
      List.append_assoc]
  by_cases hall : s.unsent.length ≤ k
  · have hnil : s.unsent.drop k = [] := List.drop_eq_nil_of_le hall
    simp only [if_pos hall] at hread' ⊢
    exact ⟨fun hc => (by cases hc), hrequest, h.waiting, h.served,
      fun hw => (by rcases hw with hw | hw <;> cases hw), fun _ => hnil, fun _ => hread',
      fun hd => (by cases hd)⟩
  · have hcons : s.unsent.drop k ≠ [] := by
      intro hnil
      have hlen := congrArg List.length hnil
      rw [List.length_drop, List.length_nil] at hlen
      omega
    simp only [if_neg hall] at hread' ⊢
    exact ⟨fun hc => (by cases hc), hrequest, h.waiting, h.served, fun _ => hcons,
      fun hs => (by rcases hs with hs | hs <;> cases hs), fun _ => hread', fun hd => (by cases hd)⟩

/-- Another piece of the response. -/
theorem sound_clientRead {k : Nat} (h : Sound target body s)
    (hstep : s.step cap body (.clientRead k) = some s') : Sound target body s' := by
  simp only [step, Option.ite_none_right_eq_some, Option.some.injEq] at hstep
  rcases hstep with ⟨⟨hpc, hpos, hmax, hle⟩, rfl⟩
  have hsent := h.sent hpc
  rcases h.running (by rcases hpc with hpc | hpc <;> rw [hpc] <;> decide) with ⟨chunks, hread⟩
  have hpiece : (s.toClient.take k).length = k := by
    rw [List.length_take]
    omega
  have hreading : Reading body { s with
      pc := .rest
      reads := s.reads ++ [ok (s.toClient.take k)]
      toClient := s.toClient.drop k } (chunks ++ [s.toClient.take k]) := by
    refine ⟨hread.connect, hread.wrote, ?_, ?_, fun hserver => ?_, fun hserver => ?_⟩
    · rw [List.map_append, ← hread.reads]
      rfl
    · intro chunk hchunk
      rcases List.mem_append.mp hchunk with hold | hnew
      · exact hread.pieces chunk hold
      · rw [List.mem_singleton.mp hnew, hpiece]
        exact ⟨List.ne_nil_of_length_pos (by omega), hmax⟩
    · rw [← hread.response hserver, List.flatten_append, List.flatten_singleton,
        List.append_assoc chunks.flatten, List.take_append_drop]
      rfl
    · -- Nothing is on its way before the server has answered.
      have hnone := (hread.silent hserver).2
      rw [hnone, List.length_nil] at hle
      omega
  exact ⟨fun hc => (by cases hc), h.request, h.waiting, h.served,
    fun hw => (by rcases hw with hw | hw <;> cases hw), fun _ => hsent,
    fun _ => ⟨_, hreading⟩, fun hd => (by cases hd)⟩

/-- The end of the stream comes behind the whole response. -/
theorem sound_clientEof (h : Sound target body s)
    (hstep : s.step cap body .clientEof = some s') : Sound target body s' := by
  simp only [step, Option.ite_none_right_eq_some] at hstep
  rcases hstep with ⟨⟨hclosed, hempty⟩, hstep⟩
  cases hpc : s.pc <;> rw [hpc] at hstep <;> cases hstep
  case first =>
      rcases h.running (by rw [hpc]; decide) with ⟨chunks, hread⟩
      exact ⟨fun hc => (by cases hc), h.request, h.waiting, h.served,
        fun hw => (by rcases hw with hw | hw <;> cases hw), fun _ => h.sent (Or.inl hpc),
        fun _ => ⟨chunks, hread.goto .rest⟩, fun hd => (by cases hd)⟩
  case rest =>
      rcases h.running (by rw [hpc]; decide) with ⟨chunks, hread⟩
      exact ⟨fun hc => (by cases hc), h.request, h.waiting, h.served,
        fun hw => (by rcases hw with hw | hw <;> cases hw),
        fun hs => (by rcases hs with hs | hs <;> cases hs), fun hd => absurd rfl hd,
        fun _ => .read chunks (hread.goto .done) hempty hclosed⟩

/-- An operation that meets the reset ends the test with its error. -/
theorem doTest_of_clientFails (hplain : target.useTls = false) {code : Nat}
    (h : Sound target body s) (hstep : s.step cap body (.clientFails code) = some s') :
    s'.pc = .done ∧ Http1.doTest target s'.exchange = err (.io (.os code)) := by
  simp only [step, Option.ite_none_right_eq_some] at hstep
  rcases hstep with ⟨-, hstep⟩
  cases hpc : s.pc <;> rw [hpc] at hstep <;> cases hstep
  all_goals rcases h.running (by rw [hpc]; decide) with ⟨chunks, hread⟩
  case writing => exact ⟨rfl, doTest_write_fails hplain hread.connect rfl⟩
  case first => exact ⟨rfl, doTest_read_fails hplain hread rfl rfl rfl⟩
  case rest => exact ⟨rfl, doTest_read_fails hplain hread rfl rfl rfl⟩

/-- It moves nothing else. -/
theorem frame_clientFails {code : Nat} (hstep : s.step cap body (.clientFails code) = some s') :
    s.reset ∧ s'.taken = s.taken ∧ s'.toServer = s.toServer ∧ s'.unsent = s.unsent ∧
      s'.server = s.server := by
  simp only [step, Option.ite_none_right_eq_some] at hstep
  rcases hstep with ⟨hreset, hstep⟩
  cases hpc : s.pc <;> rw [hpc] at hstep <;> cases hstep <;> exact ⟨hreset, rfl, rfl, rfl, rfl⟩

theorem sound_clientFails (hplain : target.useTls = false) {code : Nat} (h : Sound target body s)
    (hstep : s.step cap body (.clientFails code) = some s') : Sound target body s' := by
  rcases doTest_of_clientFails hplain h hstep with ⟨hpc, hdone⟩
  rcases frame_clientFails hstep with ⟨hreset, htaken, hserver, hunsent, hserverPc⟩
  refine ⟨fun hc => ?_, ?_, ?_, ?_, fun hw => ?_, fun hs => ?_, fun hd => absurd hpc hd,
    fun _ => .broken ?_ code hdone⟩
  · rw [hpc] at hc
    cases hc
  · rw [htaken, hserver, hunsent]
    exact h.request
  · rw [hserverPc, htaken]
    exact h.waiting
  · rw [hserverPc, htaken]
    exact h.served
  · rw [hpc] at hw
    rcases hw with hw | hw <;> cases hw
  · rw [hpc] at hs
    rcases hs with hs | hs <;> cases hs
  · rw [reset, hserverPc, hserver]
    exact hreset

/-- A client that is not done may meet the reset. -/
theorem exists_clientFails (hplain : target.useTls = false) (h : Sound target body s)
    (hreset : s.reset) (hpc : s.pc ≠ .done) (code : Nat) :
    ∃ s', s.step cap body (.clientFails code) = some s' ∧ s'.pc = .done ∧
      Http1.doTest target s'.exchange = err (.io (.os code)) := by
  have hstep : ∃ s', s.step cap body (.clientFails code) = some s' := by
    unfold step
    simp only [if_pos hreset]
    cases hp : s.pc with
    | connecting => exact absurd (h.silent hp).2 hreset.2
    | writing => exact ⟨_, rfl⟩
    | first => exact ⟨_, rfl⟩
    | rest => exact ⟨_, rfl⟩
    | done => exact absurd hp hpc
  rcases hstep with ⟨s', hs'⟩
  exact ⟨s', hs', doTest_of_clientFails hplain h hs'⟩

/-- A turn of a server that has not closed leaves the client where it is. -/
theorem sound_server {server : HttpServerPc} {taken toServer toClient : Bytes}
    (h : Sound target body s) (hopen : s.server ≠ .closed) (hheard : ¬ s.Silent)
    (hserver : server ≠ .reading) (htaken : taken ≠ [])
    (hrequest : taken ++ toServer = s.taken ++ s.toServer)
    (hread : ∀ chunks, Reading body s chunks →
      Reading body { s with server, taken, toServer, toClient } chunks) :
    Sound target body { s with server, taken, toServer, toClient } where
  silent hpc := absurd (h.silent hpc) hheard
  request := by
    show taken ++ toServer ++ s.unsent = strBytes (Http1.request target)
    rw [hrequest]
    exact h.request
  waiting hs := absurd hs hserver
  served _ := htaken
  unsent := h.unsent
  sent := h.sent
  running hpc := by
    rcases h.running hpc with ⟨chunks, hchunks⟩
    exact ⟨chunks, hread chunks hchunks⟩
  ended hpc := by
    rcases (h.ended hpc).server with hclosed | hsilent
    · exact absurd hclosed hopen
    · exact absurd hsilent hheard

theorem sound_serverRead {k : Nat} (h : Sound target body s)
    (hstep : s.step cap body (.serverRead k) = some s') : Sound target body s' := by
  simp only [step, Option.ite_none_right_eq_some, Option.some.injEq] at hstep
  rcases hstep with ⟨⟨hpc, hpos, hmax, hle⟩, rfl⟩
  have htake : s.toServer.take k ≠ [] := by
    apply List.ne_nil_of_length_pos
    rw [List.length_take]
    omega
  have hheard : ¬ s.Silent := by
    intro hsilent
    rw [hsilent.2, List.length_nil] at hle
    omega
  refine sound_server h (by rw [hpc]; decide) hheard
    (by simp only [ne_eq, reduceCtorEq, not_false_eq_true]) htake ?_ (fun chunks hread => ?_)
  · rw [h.waiting hpc, List.nil_append, List.take_append_drop]
  · rcases hread.silent hpc with ⟨hnone, hempty⟩
    refine ⟨hread.connect, hread.wrote, hread.reads, hread.pieces, fun _ => ?_,
      fun hs => (by cases hs)⟩
    rw [hnone, hempty]
    rfl

theorem sound_serverWrite {k : Nat} (h : Sound target body s)
    (hstep : s.step cap body (.serverWrite k) = some s') : Sound target body s' := by
  unfold step at hstep
  cases hserver : s.server with
  | reading =>
      simp only [hserver, reduceCtorEq] at hstep
  | closed =>
      simp only [hserver, reduceCtorEq] at hstep
  | writing left =>
      simp only [hserver, Option.ite_none_right_eq_some, Option.some.injEq] at hstep
      rcases hstep with ⟨⟨hpos, hle, -⟩, rfl⟩
      have hne : s.server ≠ .reading := by
        rw [hserver]
        simp only [ne_eq, reduceCtorEq, not_false_eq_true]
      refine sound_server h (by rw [hserver]; simp only [ne_eq, reduceCtorEq, not_false_eq_true])
        (fun hsilent => hne hsilent.1) (by simp only [ne_eq, reduceCtorEq, not_false_eq_true])
        (h.served hne) rfl (fun chunks hread => ?_)
      refine ⟨hread.connect, hread.wrote, hread.reads, hread.pieces, fun _ => ?_,
      fun hs => (by cases hs)⟩
      have hresponse := hread.response hne
      rw [HttpLink.left, hserver] at hresponse
      show chunks.flatten ++ (s.toClient ++ left.take k) ++ left.drop k = _
      rw [← hresponse, List.append_assoc, List.append_assoc, List.take_append_drop,
        List.append_assoc]

theorem sound_serverClose (h : Sound target body s)
    (hstep : s.step cap body .serverClose = some s') : Sound target body s' := by
  simp only [step, Option.ite_none_right_eq_some, Option.some.injEq] at hstep
  rcases hstep with ⟨hserver, rfl⟩
  have hne : s.server ≠ .reading := by
    rw [hserver]
    simp only [ne_eq, reduceCtorEq, not_false_eq_true]
  refine sound_server h (by rw [hserver]; simp only [ne_eq, reduceCtorEq, not_false_eq_true])
    (fun hsilent => hne hsilent.1) (by simp only [ne_eq, reduceCtorEq, not_false_eq_true])
    (h.served hne) rfl (fun chunks hread => ?_)
  refine ⟨hread.connect, hread.wrote, hread.reads, hread.pieces, fun _ => ?_,
    fun hs => (by cases hs)⟩
  have hresponse := hread.response hne
  rw [HttpLink.left, hserver] at hresponse
  exact hresponse

theorem sound_connected (h : Sound target body s)
    (hstep : s.step cap body .connected = some s') : Sound target body s' := by
  simp only [step, Option.ite_none_right_eq_some, Option.some.injEq] at hstep
  rcases hstep with ⟨hpc, rfl⟩
  rcases h.running (by rw [hpc]; decide) with ⟨chunks, hread⟩
  exact ⟨fun hc => (by cases hc), h.request, h.waiting, h.served, fun _ => h.unsent (Or.inl hpc),
    fun hs => (by rcases hs with hs | hs <;> cases hs), fun _ => ⟨chunks, hread.goto .writing⟩,
    fun hd => (by cases hd)⟩

theorem sound_connectFails {e : ProxyPenError} (h : Sound target body s)
    (hstep : s.step cap body (.connectFails e) = some s') : Sound target body s' := by
  simp only [step, Option.ite_none_right_eq_some, Option.some.injEq] at hstep
  rcases hstep with ⟨hpc, rfl⟩
  exact ⟨fun hc => (by cases hc), h.request, h.waiting, h.served,
    fun hw => (by rcases hw with hw | hw <;> cases hw),
    fun hs => (by rcases hs with hs | hs <;> cases hs), fun hd => absurd rfl hd,
    fun _ => .unconnected (h.silent hpc) e rfl⟩

theorem sound_step (hplain : target.useTls = false) (s : HttpLink) (e : HttpEvent) (s' : HttpLink)
    (hstep : s.step cap body e = some s') (h : Sound target body s) : Sound target body s' := by
  cases e with
  | connected => exact sound_connected h hstep
  | connectFails e => exact sound_connectFails h hstep
  | clientWrite k => exact sound_clientWrite h hstep
  | clientRead k => exact sound_clientRead h hstep
  | clientEof => exact sound_clientEof h hstep
  | clientFails code => exact sound_clientFails hplain h hstep
  | serverRead k => exact sound_serverRead h hstep
  | serverWrite k => exact sound_serverWrite h hstep
  | serverClose => exact sound_serverClose h hstep

theorem sound_of_reachable (hplain : target.useTls = false)
    (h : Machine.Reachable (step cap body) (init target) s) : Sound target body s :=
  Machine.reachable_invariant _ (sound_step hplain) _ s h (sound_init target body)

/-! ## Progress -/

/-- How many operations the client has ahead of it at least. -/
def clientLeft : HttpClientPc → Nat
  | .connecting => 4
  | .writing => 3
  | .first => 2
  | .rest => 1
  | .done => 0

/-- How far the server is from the end. Every byte is also to be read. -/
def serverLeft (body : Bytes) : HttpServerPc → Nat
  | .reading => 2 * ((strBytes (Server.httpHeader body.length)).length + body.length + 2)
  | .writing left => 2 * (left.length + 1)
  | .closed => 0

/-- How much is left of a run. -/
def measure (body : Bytes) (s : HttpLink) : Nat :=
  s.unsent.length + clientLeft s.pc + serverLeft body s.server + s.toClient.length

theorem serveHttp1_length {request : Bytes} (hrequest : request ≠ []) (body : Bytes) :
    (Server.serveHttp1 request body).length
      = (strBytes (Server.httpHeader body.length)).length + body.length := by
  rw [Server.serveHttp1, if_neg hrequest, List.length_append]

/-- Every turn brings the run closer to its end. -/
theorem measure_step (e : HttpEvent) (hstep : s.step cap body e = some s') :
    s'.measure body < s.measure body := by
  unfold measure
  cases e with
  | connected =>
      simp only [step, Option.ite_none_right_eq_some, Option.some.injEq] at hstep
      rcases hstep with ⟨hpc, rfl⟩
      simp only [hpc, clientLeft]
      omega
  | connectFails e =>
      simp only [step, Option.ite_none_right_eq_some, Option.some.injEq] at hstep
      rcases hstep with ⟨hpc, rfl⟩
      simp only [hpc, clientLeft]
      omega
  | clientWrite k =>
      simp only [step, Option.ite_none_right_eq_some, Option.some.injEq] at hstep
      rcases hstep with ⟨⟨hpc, hpos, hle, -⟩, rfl⟩
      have hrank : clientLeft (if s.unsent.length ≤ k then .first else .writing) ≤ 3 := by
        split <;> decide
      simp only [hpc, List.length_drop, clientLeft] at hrank ⊢
      omega
  | clientRead k =>
      simp only [step, Option.ite_none_right_eq_some, Option.some.injEq] at hstep
      rcases hstep with ⟨⟨hpc, hpos, -, hle⟩, rfl⟩
      have hrank : 1 ≤ clientLeft s.pc := by rcases hpc with hpc | hpc <;> rw [hpc] <;> decide
      have hrest : clientLeft .rest = 1 := rfl
      simp only [List.length_drop, hrest]
      omega
  | clientEof =>
      simp only [step, Option.ite_none_right_eq_some] at hstep
      rcases hstep with ⟨-, hstep⟩
      cases hpc : s.pc <;> rw [hpc] at hstep <;> cases hstep <;> simp only [clientLeft] <;> omega
  | clientFails code =>
      simp only [step, Option.ite_none_right_eq_some] at hstep
      rcases hstep with ⟨-, hstep⟩
      cases hpc : s.pc <;> rw [hpc] at hstep <;> cases hstep <;> simp only [clientLeft] <;> omega
  | serverRead k =>
      simp only [step, Option.ite_none_right_eq_some, Option.some.injEq] at hstep
      rcases hstep with ⟨⟨hpc, hpos, -, hle⟩, rfl⟩
      have htake : s.toServer.take k ≠ [] := by
        apply List.ne_nil_of_length_pos
        rw [List.length_take]
        omega
      simp only [hpc, serverLeft, serveHttp1_length htake]
      omega
  | serverWrite k =>
      unfold step at hstep
      cases hserver : s.server with
      | reading => simp only [hserver, reduceCtorEq] at hstep
      | closed => simp only [hserver, reduceCtorEq] at hstep
      | writing left =>
          simp only [hserver, Option.ite_none_right_eq_some, Option.some.injEq] at hstep
          rcases hstep with ⟨⟨hpos, hle, -⟩, rfl⟩
          simp only [serverLeft, List.length_drop, List.length_append, List.length_take]
          omega
  | serverClose =>
      simp only [step, Option.ite_none_right_eq_some, Option.some.injEq] at hstep
      rcases hstep with ⟨hserver, rfl⟩
      simp only [hserver, serverLeft, List.length_nil]
      omega

/-- Both sides wait in a `write_all` for the other to read. -/
structure Jammed (cap : HttpCapacity) (s : HttpLink) : Prop where
  client : s.pc = .writing
  toServer : cap.up ≤ s.toServer.length
  server : ∃ left, left ≠ [] ∧ s.server = .writing left
  toClient : cap.down ≤ s.toClient.length

/-- A turn of either side is possible. -/
def Enabled (cap : HttpCapacity) (body : Bytes) (s : HttpLink) : Prop :=
  ∃ e s', s.step cap body e = some s'

/-- A server that waits in no `write_all` has a turn, once there is something to
    read or something read. -/
theorem enabled_server (hclosed : s.server ≠ .closed) (hheard : ¬ s.Silent)
    (hroom : ∀ left, left ≠ [] → s.server = .writing left → s.toClient.length < cap.down) :
    s.Enabled cap body := by
  cases hs : s.server with
  | closed => exact absurd hs hclosed
  | reading =>
      have hpos := List.length_pos_of_ne_nil (fun hnone => hheard ⟨hs, hnone⟩)
      exact ⟨.serverRead 1, _, if_pos ⟨hs, by omega, by omega, by omega⟩⟩
  | writing left =>
      cases left with
      | nil => exact ⟨.serverClose, _, if_pos hs⟩
      | cons b left =>
          have hless := hroom (b :: left) (List.cons_ne_nil b left) hs
          refine ⟨.serverWrite 1, ?_⟩
          simp only [step, hs]
          rw [if_pos ⟨by omega, by rw [List.length_cons]; omega, by omega⟩]
          exact ⟨_, rfl⟩

theorem enabled_reading (h : Sound target body s) (hread : s.pc = .first ∨ s.pc = .rest) :
    s.Enabled cap body := by
  by_cases hclient : s.toClient = []
  · by_cases hclosed : s.server = .closed
    · refine ⟨.clientEof, ?_⟩
      unfold step
      simp only [if_pos (And.intro hclosed hclient)]
      rcases hread with hread | hread <;> rw [hread] <;> exact ⟨_, rfl⟩
    · -- The request is all sent, and nothing is on its way back.
      refine enabled_server hclosed (fun hsilent => ?_) (fun _ _ _ => ?_)
      · have hrequest := h.request
        rw [h.waiting hsilent.1, hsilent.2, h.sent hread] at hrequest
        exact request_ne_nil target hrequest.symm
      · rw [hclient]
        exact cap.down_pos
  · have hpos := List.length_pos_of_ne_nil hclient
    exact ⟨.clientRead 1, _, if_pos ⟨hread, by omega, by omega, by omega⟩⟩

theorem enabled_writing (hplain : target.useTls = false) (h : Sound target body s)
    (hwrite : s.pc = .writing) (hjam : ¬ s.Jammed cap) : s.Enabled cap body := by
  by_cases hroom : s.toServer.length < cap.up
  · have hpos := List.length_pos_of_ne_nil (h.unsent (Or.inr hwrite))
    exact ⟨.clientWrite 1, _, if_pos ⟨hwrite, by omega, by omega, by omega⟩⟩
  have hfull : s.toServer ≠ [] := by
    intro hnone
    rw [hnone] at hroom
    exact hroom cap.up_pos
  by_cases hclosed : s.server = .closed
  · -- Nobody will read what is on its way.
    rcases exists_clientFails hplain h ⟨hclosed, hfull⟩ (by rw [hwrite]; decide) 0 with ⟨s', hs', -⟩
    exact ⟨_, s', hs'⟩
  · refine enabled_server hclosed (fun hsilent => hfull hsilent.2) (fun left hne hs => ?_)
    by_contra hless
    exact hjam ⟨hwrite, by omega, ⟨left, hne, hs⟩, by omega⟩

theorem not_enabled_of_jammed (h : s.Jammed cap) : ¬ s.Enabled cap body := by
  rcases h with ⟨hpc, hup, ⟨left, hne, hs⟩, hdown⟩
  intro henabled
  rcases henabled with ⟨e, s', hstep⟩
  cases e with
  | serverWrite k =>
      simp only [step, hs, Option.ite_none_right_eq_some] at hstep
      omega
  | clientWrite k =>
      simp only [step, Option.ite_none_right_eq_some] at hstep
      omega
  | _ => simp [step, reset, hpc, hs, hne] at hstep

/-- Until the test is done, some turn is possible, unless both sides wait. -/
theorem enabled_iff (hplain : target.useTls = false) (h : Sound target body s)
    (hpc : s.pc ≠ .done) : s.Enabled cap body ↔ ¬ s.Jammed cap := by
  refine ⟨fun henabled hjam => not_enabled_of_jammed hjam henabled, fun hjam => ?_⟩
  cases hp : s.pc with
  | connecting => exact ⟨.connected, _, if_pos hp⟩
  | writing => exact enabled_writing hplain h hp hjam
  | first => exact enabled_reading h (Or.inl hp)
  | rest => exact enabled_reading h (Or.inr hp)
  | done => exact absurd hp hpc

/-! ## When both sides wait -/

/-- The request fits into the connection up to its last byte, counting the one
    that the server reads before it answers, or the response fits. -/
def Fits (cap : HttpCapacity) (target : TestTarget) (body : Bytes) : Prop :=
  (strBytes (Http1.request target)).length ≤ cap.up + 1 ∨
    (strBytes (Server.httpHeader body.length)).length + body.length ≤ cap.down

/-- Behind two waiting sides, the server has read one byte at least and the
    client has one left to write. -/
theorem not_fits_of_jammed (h : Sound target body s) (hjam : s.Jammed cap) :
    ¬ Fits cap target body := by
  rcases hjam with ⟨hpc, hup, ⟨left, hne, hs⟩, hdown⟩
  have hreading : s.server ≠ .reading := by
    rw [hs]
    simp only [ne_eq, reduceCtorEq, not_false_eq_true]
  have htaken := List.length_pos_of_ne_nil (h.served hreading)
  have hunsent := List.length_pos_of_ne_nil (h.unsent (Or.inr hpc))
  have hleft := List.length_pos_of_ne_nil hne
  have hrequest := congrArg List.length h.request
  rcases h.running (by rw [hpc]; decide) with ⟨chunks, hread⟩
  have hresponse := congrArg List.length (hread.response hreading)
  rw [serveHttp1_length (h.served hreading), HttpLink.left, hs] at hresponse
  simp only [List.length_append] at hrequest hresponse
  unfold Fits
  omega

/-- The server reads one byte, and then either side writes what fits. -/
def jam (cap : HttpCapacity) : List HttpEvent :=
  [.connected, .clientWrite 1, .serverRead 1, .clientWrite cap.up, .serverWrite cap.down]

theorem exists_jammed (h : ¬ Fits cap target body) :
    ∃ s', Machine.runFrom (step cap body) (init target) (jam cap) = some s' ∧ s'.Jammed cap := by
  unfold Fits at h
  rw [not_or, Nat.not_le, Nat.not_le] at h
  rcases h with ⟨hrequest, hresponse⟩
  have hup := cap.up_pos
  have hdown := cap.down_pos
  rcases hbytes : strBytes (Http1.request target) with _ | ⟨b, rest⟩
  · exact absurd hbytes (request_ne_nil target)
  rw [hbytes, List.length_cons] at hrequest
  rw [← serveHttp1_length (List.cons_ne_nil b []) body] at hresponse
  set response := Server.serveHttp1 [b] body with hserve
  refine ⟨{ init target with
      pc := .writing
      unsent := rest.drop cap.up
      server := .writing (response.drop cap.down)
      taken := [b]
      toServer := rest.take cap.up
      toClient := response.take cap.down }, ?_, rfl, ?_, ⟨_, ?_, rfl⟩, ?_⟩
  · have hmore : ¬ rest.length + 1 ≤ 1 := by omega
    have hlong : ¬ rest.length ≤ cap.up := by omega
    have hroom : 1 ≤ cap.up := hup
    have hfits : cap.up ≤ rest.length := by omega
    have hwrite : cap.down ≤ response.length := by omega
    simp [jam, Machine.runFrom, step, init, hbytes, hmore, hlong, hroom, hfits, hup, hdown, hwrite,
      ← hserve]
  · rw [List.length_take]
    omega
  · apply List.ne_nil_of_length_pos
    rw [List.length_drop]
    omega
  · rw [List.length_take]
    omega

/-- No run comes to a state in which neither side has a turn, exactly if the
    request or the response fits into the connection. -/
theorem never_jammed_iff (hplain : target.useTls = false) (cap : HttpCapacity) (body : Bytes) :
    (∀ s, Machine.Reachable (step cap body) (init target) s → s.pc ≠ .done → s.Enabled cap body) ↔
      Fits cap target body := by
  constructor
  · intro hruns
    by_contra hfits
    rcases exists_jammed hfits with ⟨s, hrun, hjam⟩
    refine not_enabled_of_jammed hjam (hruns s ⟨_, hrun⟩ ?_)
    rw [hjam.client]
    decide
  · intro hfits s hs hpc
    have hsound := sound_of_reachable hplain hs
    exact (enabled_iff hplain hsound hpc).mpr fun hjam => not_fits_of_jammed hsound hjam hfits

/-! ## The end of a run -/

/-- A test that has read the whole response reports it. -/
theorem doTest_of_whole {chunks : List Bytes}
    (h : Reading body s chunks) (hempty : s.toClient = []) (hclosed : s.server = .closed)
    (htaken : s.taken ≠ []) :
    Http1.doTest target s.exchange
      = ok (.success .http1 200 ((strBytes (Server.httpHeader body.length)).length + body.length)) := by
  have hwhole : chunks.flatten = Server.serveHttp1 s.taken body := by
    rw [← h.response (by rw [hclosed]; simp only [ne_eq, reduceCtorEq, not_false_eq_true]), hempty,
      HttpLink.left, hclosed, List.append_nil, List.append_nil]
  have hdelivers : s.exchange.Delivers target (Http1.served target s.taken body) := by
    refine ⟨h.connect, fun _ => rfl, fun _ => rfl, h.wrote, ?_⟩
    rw [Http1.served_eq, ← hwhole]
    show Http1.Segments target.useTls s.reads chunks.flatten
    rw [h.reads]
    exact Http1.segments_map_ok _ h.pieces
  rcases Http1.parseStatusLine_of_statusLine (Http1.statusLine_served htaken body)
    with ⟨headerEnd, hparse⟩
  rw [Http1.served_eq] at hdelivers
  have hok := (Http1.doTest_eq_ok_iff target _ hdelivers _).mpr ⟨200, headerEnd, hparse, rfl⟩
  rw [hok, serveHttp1_length htaken]

/-- Behind a server that has closed on an incomplete request, the test can still
    fail. -/
theorem exists_reset (hplain : target.useTls = false) (h : Sound target body s)
    (hclosed : s.server = .closed) (hpc : s.pc ≠ .done)
    (hpart : s.taken ≠ strBytes (Http1.request target)) :
    ∃ es s', Machine.runFrom (step cap body) s es = some s' ∧ s'.pc = .done ∧
      ∃ code, Http1.doTest target s'.exchange = err (.io (.os code)) := by
  -- Something is unread, or else it is still to be written.
  by_cases hunread : s.toServer = []
  · have hunsent : s.unsent ≠ [] := by
      intro hnone
      apply hpart
      rw [← h.request, hunread, hnone, List.append_nil, List.append_nil]
    have hwriting : s.pc = .writing := by
      cases hp : s.pc with
      | connecting => rw [(h.silent hp).1] at hclosed; cases hclosed
      | writing => rfl
      | first => exact absurd (h.sent (Or.inl hp)) hunsent
      | rest => exact absurd (h.sent (Or.inr hp)) hunsent
      | done => exact absurd hp hpc
    have hpos := List.length_pos_of_ne_nil hunsent
    have hwrite : ∃ u, s.step cap body (.clientWrite 1) = some u ∧ u.reset ∧ u.pc ≠ .done := by
      have hroom : s.toServer.length + 1 ≤ cap.up := by
        rw [hunread]
        exact cap.up_pos
      refine ⟨_, if_pos ⟨hwriting, by omega, by omega, hroom⟩, ⟨hclosed, ?_⟩, ?_⟩
      · show s.toServer ++ s.unsent.take 1 ≠ []
        rw [hunread, List.nil_append]
        apply List.ne_nil_of_length_pos
        rw [List.length_take]
        omega
      · show (if s.unsent.length ≤ 1 then HttpClientPc.first else .writing) ≠ .done
        split <;> decide
    rcases hwrite with ⟨u, hu, hreset, hup⟩
    rcases exists_clientFails hplain (sound_clientWrite h hu) hreset hup 0 with ⟨s', hs', hdone⟩
    exact ⟨[.clientWrite 1, .clientFails 0], s', (Machine.runFrom_cons _ _ _ _).mpr ⟨u, hu,
      (Machine.runFrom_cons _ _ _ _).mpr ⟨s', hs', rfl⟩⟩, hdone.1, 0, hdone.2⟩
  · rcases exists_clientFails hplain h ⟨hclosed, hunread⟩ hpc 0 with ⟨s', hs', hdone⟩
    exact ⟨[.clientFails 0], s', (Machine.runFrom_cons _ _ _ _).mpr ⟨s', hs', rfl⟩, hdone.1, 0,
      hdone.2⟩

/-- A test that has returned reports the response, the reset behind a read of
    the server that did not take the whole request, or that it could not
    connect. -/
theorem result_of_done (h : Sound target body s) (hdone : s.pc = .done) :
    Http1.doTest target s.exchange = ok (.success .http1 200
        ((strBytes (Server.httpHeader body.length)).length + body.length)) ∨
      (s.taken ≠ strBytes (Http1.request target) ∧
        ∃ code, Http1.doTest target s.exchange = err (.io (.os code))) ∨
      ∃ e, s.connect = err e ∧ Http1.doTest target s.exchange = err e := by
  cases h.ended hdone with
  | read chunks hread hempty hclosed =>
      have htaken := h.served (by
        rw [hclosed]
        simp only [ne_eq, reduceCtorEq, not_false_eq_true])
      exact Or.inl (doTest_of_whole hread hempty hclosed htaken)
  | broken hreset code hresult =>
      refine Or.inr (Or.inl ⟨fun hwhole => hreset.2 ?_, code, hresult⟩)
      -- Nothing can be unread of a request that was taken whole.
      have hrequest := congrArg List.length h.request
      rw [hwhole, List.length_append, List.length_append] at hrequest
      exact List.eq_nil_of_length_eq_zero (by omega)
  | unconnected hsilent e hconnect =>
      exact Or.inr (Or.inr ⟨e, hconnect, doTest_connect_fails hconnect⟩)

end HttpLink

open HttpLink in
/-- Every run of the plain HTTP/1.1 test against the test server ends after a
    bounded number of turns, whatever their order and however the bytes are cut.
    It ends in a success with status 200 if it has connected and the one read of
    the server took the whole request. If it did not, the connection is reset,
    and from wherever the client is by then it may also end with the error of
    that. Both sides can come to wait for each other exactly if neither the
    request nor the response fits into the connection. -/
theorem http1_run (target : TestTarget) (hplain : target.useTls = false) (cap : HttpCapacity)
    (body : Bytes) :
    (∀ es s, Machine.runFrom (HttpLink.step cap body) (HttpLink.init target) es = some s →
      es.length ≤ (init target).measure body ∧
        (s.pc = .done →
          Http1.doTest target s.exchange = ok (.success .http1 200
              ((strBytes (Server.httpHeader body.length)).length + body.length)) ∨
            (s.taken ≠ strBytes (Http1.request target) ∧
              ∃ code, Http1.doTest target s.exchange = err (.io (.os code))) ∨
            ∃ e, s.connect = err e ∧ Http1.doTest target s.exchange = err e) ∧
        (s.server = .closed → s.pc ≠ .done → s.taken ≠ strBytes (Http1.request target) →
          ∃ es' s', Machine.runFrom (HttpLink.step cap body) s es' = some s' ∧ s'.pc = .done ∧
            ∃ code, Http1.doTest target s'.exchange = err (.io (.os code)))) ∧
    ((∀ s, Machine.Reachable (HttpLink.step cap body) (HttpLink.init target) s → s.pc ≠ .done →
        ∃ e s', s.step cap body e = some s') ↔
      (strBytes (Http1.request target)).length ≤ cap.up + 1 ∨
        (strBytes (Server.httpHeader body.length)).length + body.length ≤ cap.down) := by
  refine ⟨fun es s hrun => ?_, never_jammed_iff hplain cap body⟩
  have hsound := sound_of_reachable hplain ⟨es, hrun⟩
  refine ⟨?_, result_of_done hsound, exists_reset hplain hsound⟩
  have hle := Machine.length_le_of_run (measure body) (fun _ e _ hstep => measure_step e hstep)
    es _ _ hrun
  omega

/-- Room for the request and the response. -/
def roomy : HttpCapacity := ⟨8192, 8192, by omega, by omega⟩

/-- The request goes out in two portions and is read in one, and the response is
    read in two. -/
def segmentedRun : List HttpEvent :=
  [.connected, .clientWrite 40, .clientWrite 45, .serverRead 85, .serverWrite 115, .serverClose,
    .clientRead 100, .clientRead 15, .clientEof]

theorem segmentedRun_done :
    (Machine.runFrom (HttpLink.step roomy [120, 120]) (HttpLink.init (localTarget 8080 false))
      segmentedRun).map (fun s => decide (s.pc = .done ∧ s.connect = ok () ∧
        s.taken = strBytes (Http1.request (localTarget 8080 false)))) = some true := by
  decide +kernel

theorem http1_run_segmented :
    ∃ s, Machine.runFrom (HttpLink.step roomy [120, 120]) (HttpLink.init (localTarget 8080 false))
        segmentedRun = some s ∧
      Http1.doTest (localTarget 8080 false) s.exchange = ok (.success .http1 200
        ((strBytes (Server.httpHeader 2)).length + 2)) := by
  rcases Option.map_eq_some_iff.mp segmentedRun_done with ⟨s, hs, hdone⟩
  rcases of_decide_eq_true hdone with ⟨hpc, hconnect, htaken⟩
  refine ⟨s, hs, ?_⟩
  rcases ((http1_run _ rfl roomy [120, 120]).1 segmentedRun s hs).2.1 hpc
    with hsuccess | ⟨hcut, -⟩ | ⟨e, he, -⟩
  · rw [show ([120, 120] : Bytes).length = 2 from rfl] at hsuccess
    exact hsuccess
  · exact (hcut htaken).elim
  · rw [hconnect] at he
    cases he

end ProxyPen
