import ProxyPen.Core.Http

/-!
# Delivered Responses

What the three tests make of a response that reaches them whole. A stream may
hand out its bytes in pieces of any length up to the buffer of a read, and a
library may hand out a body in any number of chunks, some of them empty. The
loops put the pieces together again, so nothing depends on how a response was
cut.

## Main definitions

* `Http1.Segments`: The reads of a stream that carries some bytes.
* `Http1.Exchange.Delivers`: An exchange that carries a raw response.
* `Http2.Exchange.Delivers`, `Http3.Exchange.Delivers`: One that carries a
  response of the test server.

## Theorems

* `readRest_of_segments`: The read loop reads what the stream carries.
* `Http1.doTest_eq_ok_iff`: A test over a delivered raw response.
* `Http2.doTest_of_delivers`, `Http3.doTest_of_delivers`: A test over a
  delivered response of the test server.
-/

namespace ProxyPen

open Outcome Protocol Socks Http

namespace Http1

/-- The reads of a stream that carries the bytes and then ends. Over TLS the
    end may be unexpected. -/
inductive Segments (tls : Bool) : List (Outcome IoError Bytes) → Bytes → Prop
  | done : Segments tls [] []
  | cut (msg : String) (reads : List (Outcome IoError Bytes)) (h : tls = true) :
      Segments tls (.err (.unexpectedEof msg) :: reads) []
  | read (chunk : Bytes) (reads : List (Outcome IoError Bytes)) (rest : Bytes) (hne : chunk ≠ [])
      (hle : chunk.length ≤ 4096) (h : Segments tls reads rest) :
      Segments tls (.ok chunk :: reads) (chunk ++ rest)

/-- The loop reads what the stream carries, however it is cut. -/
theorem readRest_of_segments {tls : Bool} {reads : List (Outcome IoError Bytes)} {rest : Bytes}
    (h : Segments tls reads rest) (buf : Bytes) : readRest tls buf reads = ok (buf ++ rest) := by
  induction h generalizing buf with
  | done => rw [readRest, List.append_nil]
  | cut msg reads htls => rw [readRest, if_pos htls, List.append_nil]
  | read chunk reads rest hne _ _ ih =>
      rw [readRest, if_neg hne, ih (buf ++ chunk), List.append_assoc]

/-- With at least one byte the first read succeeds. -/
theorem readResponse_of_segments {tls : Bool} {reads : List (Outcome IoError Bytes)} {buf : Bytes}
    (h : Segments tls reads buf) (hne : buf ≠ []) : readResponse tls reads = ok buf := by
  cases h with
  | done => exact absurd rfl hne
  | cut msg reads htls => exact absurd rfl hne
  | read chunk reads rest _ _ h => exact readRest_of_segments h chunk

/-- Without any, it may be the end itself that fails it. -/
theorem readResponse_of_segments_nil {tls : Bool} {reads : List (Outcome IoError Bytes)}
    (h : Segments tls reads []) :
    readResponse tls reads = ok [] ∨ ∃ e, readResponse tls reads = err e := by
  generalize hbuf : ([] : Bytes) = buf at h
  cases h with
  | done => exact Or.inl rfl
  | cut msg reads htls => exact Or.inr ⟨_, rfl⟩
  | read chunk reads rest hne _ _ =>
      exact absurd (List.append_eq_nil_iff.mp hbuf.symm).1 hne

/-- The exchange carries a raw response. -/
structure Exchange.Delivers (x : Exchange) (target : TestTarget) (buf : Bytes) : Prop where
  connect : x.connect = ok ()
  serverName : target.useTls = true → x.serverName = ok ()
  tlsConnect : target.useTls = true → x.tlsConnect = ok ()
  write : x.write (strBytes (request target)) = ok ()
  reads : Segments target.useTls x.reads buf

/-- Up to the response, nothing goes wrong. -/
theorem doTest_eq (target : TestTarget) (x : Exchange) {buf : Bytes} (h : x.Delivers target buf) :
    doTest target x = (do
      let buf ← readResponse target.useTls x.reads
      let (status, _) ← parseStatusLine buf
      ok (.success .http1 status buf.length)) := by
  unfold doTest
  rw [h.connect, h.write, ok_bind]
  by_cases htls : target.useTls = true
  · rw [if_pos htls, h.serverName htls, h.tlsConnect htls]
    rfl
  · rw [if_neg htls]
    rfl

theorem parseStatusLine_nil : parseStatusLine [] = err (.http "empty response") := rfl

/-- A test over a delivered response reports what the status line says. -/
theorem doTest_eq_ok_iff (target : TestTarget) (x : Exchange) {buf : Bytes}
    (h : x.Delivers target buf) (r : TestResult) :
    doTest target x = ok r ↔
      ∃ status headerEnd, parseStatusLine buf = ok (status, headerEnd) ∧
        r = .success .http1 status buf.length := by
  rw [doTest_eq target x h]
  by_cases hbuf : buf = []
  · -- An empty response fails, whether its end was read or not.
    subst hbuf
    rw [parseStatusLine_nil]
    rcases readResponse_of_segments_nil h.reads with hread | ⟨e, hread⟩
    · rw [hread, ok_bind, parseStatusLine_nil, err_bind]
      simp only [reduceCtorEq, false_and, exists_false]
    · rw [hread, err_bind]
      simp only [reduceCtorEq, false_and, exists_false]
  · rw [readResponse_of_segments h.reads hbuf, ok_bind, bind_eq_ok]
    constructor
    · intro ⟨p, hparse, hr⟩
      exact ⟨p.1, p.2, hparse, (ok.inj hr).symm⟩
    · intro ⟨status, headerEnd, hparse, hr⟩
      exact ⟨(status, headerEnd), hparse, congrArg ok hr.symm⟩

end Http1

/-! ## Libraries -/

namespace Http2

/-- The exchange carries a response of the test server. -/
structure Exchange.Delivers (x : Exchange) (target : TestTarget) (resp : Server.Response) :
    Prop where
  useTls : target.useTls = true
  connect : x.connect = ok ()
  serverName : x.serverName = ok ()
  tlsConnect : x.tlsConnect = ok ()
  handshake : x.handshake = ok ()
  build : ∀ text, uri target = ok text → x.build text = ok ()
  send : x.send = ok ()
  response : x.response = ok resp.status
  chunks : ∃ frames : List Bytes, x.chunks = frames.map (fun c => ok (c, ok ())) ∧
    frames.flatten = resp.data

theorem readBody_frames (total : Nat) (frames : List Bytes) :
    readBody total (frames.map (fun c => ok (c, ok ()))) = ok (total + frames.flatten.length) := by
  induction frames generalizing total with
  | nil => rfl
  | cons c frames ih =>
      rw [List.map_cons, readBody, mapErr_ok, ok_bind]
      simp only [mapErr_ok, ok_bind]
      rw [ih, List.flatten_cons, List.length_append, Nat.add_assoc]

theorem doTest_of_delivers (target : TestTarget) (x : Exchange) (resp : Server.Response)
    (h : x.Delivers target resp) :
    doTest target x = ok (.success .http2 resp.status resp.data.length) := by
  rcases h.chunks with ⟨frames, hchunks, hdata⟩
  have huri : uri target = ok ("https://" ++ target.authority ++ target.requestPath) := by
    rw [uri, h.useTls]
    rfl
  rw [doTest, huri, h.connect, h.serverName, h.tlsConnect, h.handshake, h.send, h.response, hchunks]
  simp only [mapErr_ok, ok_bind, h.build _ huri, readBody_frames, Nat.zero_add, hdata]

end Http2

namespace Http3

/-- The exchange carries a response of the test server. -/
structure Exchange.Delivers (x : Exchange) (target : TestTarget) (resp : Server.Response) :
    Prop where
  endpoint : x.endpoint = ok ()
  config : x.config = ok ()
  connect : x.connect = ok ()
  connection : x.connection = ok ()
  handshake : x.handshake = ok ()
  build : x.build (uri target) = ok ()
  closed : x.closed = false
  send : x.send = ok ()
  finish : x.finish = ok ()
  response : x.response = ok resp.status
  chunks : ∃ frames : List Bytes, x.chunks = frames.map ok ∧ frames.flatten = resp.data

theorem readBody_frames (total : Nat) (frames : List Bytes) :
    readBody total (frames.map ok) = ok (total + frames.flatten.length) := by
  induction frames generalizing total with
  | nil => rfl
  | cons c frames ih =>
      rw [List.map_cons, readBody, mapErr_ok, ok_bind, ih, List.flatten_cons, List.length_append,
        Nat.add_assoc]

theorem doTest_of_delivers (target : TestTarget) (x : Exchange) (resp : Server.Response)
    (h : x.Delivers target resp) :
    doTest target x = ok (.success .http3 resp.status resp.data.length) := by
  rcases h.chunks with ⟨frames, hchunks, hdata⟩
  have hrequest : requestFut x = ok (resp.status, resp.data.length) := by
    rw [requestFut, h.send, h.finish, h.response, hchunks]
    simp only [mapErr_ok, ok_bind, readBody_frames, Nat.zero_add, hdata]
  rw [doTest, h.endpoint, h.config, h.connect, h.connection, h.handshake, h.build, h.closed]
  simp only [mapErr_ok, ok_bind, Bool.false_eq_true, if_false, hrequest]

end Http3

end ProxyPen
