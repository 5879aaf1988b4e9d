import ProxyPen.Theory.HttpStatus

/-!
# Response Sizes

What the three tests report as the size of one and the same body, served by
the test server. The HTTP/2 and HTTP/3 tests add up the chunks of the body.
The HTTP/1.1 test counts every byte it has read, and the header is among them.
The header is never empty, so no body and no way of cutting it makes the three
agree.

## Main definitions

* `Served`: Three exchanges with the test server over one body.
* `SizesAgree`: All three tests report the length of the body.

## Theorems

* `statusLine_served`: The test server serves a status line.
* `Http1.test_served`, `Http2.test_served`, `Http3.test_served`: The results.
* `sizes_never_agree`: No body is reported alike.
-/

namespace ProxyPen

open Outcome Protocol Http

/-! ## Served responses -/

theorem Http1.serveHttp1_eq {request : Bytes} (hrequest : request ≠ []) (body : Bytes) :
    ∃ rest, Server.serveHttp1 request body = strBytes "HTTP/1.1 200 OK" ++ 13 :: 10 :: rest := by
  have hline : strBytes "HTTP/1.1 200 OK\r\n" = strBytes "HTTP/1.1 200 OK" ++ [13, 10] := by decide
  have hheader : ∃ tail, Server.httpHeader body.length = "HTTP/1.1 200 OK\r\n" ++ tail := by
    unfold Server.httpHeader
    simp only [String.append_assoc]
    exact ⟨_, rfl⟩
  rcases hheader with ⟨tail, htail⟩
  refine ⟨strBytes tail ++ body, ?_⟩
  rw [Server.serveHttp1, if_neg hrequest, htail, strBytes_append, hline]
  simp only [List.append_assoc, List.cons_append, List.nil_append]

/-- Whatever follows it, the first line served is a status line. -/
theorem Http1.statusLine_served {request : Bytes} (hrequest : request ≠ []) (body : Bytes) :
    StatusLine (Server.serveHttp1 request body) 200 := by
  rcases serveHttp1_eq hrequest body with ⟨rest, heq⟩
  have hone : IsDigit 49 := ⟨by decide, by decide⟩
  have htwo : IsDigit 50 := ⟨by decide, by decide⟩
  have hzero : IsDigit 48 := ⟨by decide, by decide⟩
  refine ⟨49, 49, 50, 48, 48, 32 :: [79, 75], hone, hone, htwo, hzero, hzero, Or.inr ⟨_, rfl⟩, ?_,
    by decide⟩
  rw [heq, Split.firstLine_append (by decide) _ (by decide)]
  decide

/-- The raw response served to an HTTP/1.1 client. -/
def Http1.served (target : TestTarget) (request body : Bytes) : Bytes :=
  if target.useTls then Server.serveHttp1OverTls request body else Server.serveHttp1 request body

theorem Http1.served_eq (target : TestTarget) (request body : Bytes) :
    served target request body = Server.serveHttp1 request body := by
  unfold served
  split
  · rfl
  · rfl

/-! ## Sizes -/

/-- The test server has served one body to the three tests. Of the HTTP/1.1
    client it has read at least a byte. -/
structure Served (body : Bytes) (t₁ : TestTarget) (x₁ : Http1.Exchange) (t₂ : TestTarget)
    (x₂ : Http2.Exchange) (t₃ : TestTarget) (x₃ : Http3.Exchange) : Prop where
  http1 : ∃ request, request ≠ [] ∧ request <+: strBytes (Http1.request t₁) ∧
    x₁.Delivers t₁ (Http1.served t₁ request body)
  http2 : x₂.Delivers t₂ (Server.serveHttp2 body)
  http3 : x₃.Delivers t₃ (Server.serveHttp3Conn body)

/-- All three tests report the length of the body. -/
def SizesAgree (ioText : Socks.IoError → String) (body : Bytes) (t₁ : TestTarget)
    (x₁ : Http1.Exchange) (t₂ : TestTarget) (x₂ : Http2.Exchange) (t₃ : TestTarget)
    (x₃ : Http3.Exchange) : Prop :=
  ∃ r₁ r₂ r₃, Http1.test ioText false t₁ x₁ = ok r₁ ∧ Http2.test ioText false t₂ x₂ = ok r₂ ∧
    Http3.test ioText false t₃ x₃ = ok r₃ ∧ r₁.responseSize = some body.length ∧
    r₂.responseSize = some body.length ∧ r₃.responseSize = some body.length

variable (ioText : Socks.IoError → String)

/-- The HTTP/1.1 test counts the header. -/
theorem Http1.test_served (target : TestTarget) (x : Exchange) {request body : Bytes}
    (hrequest : request ≠ []) (h : x.Delivers target (served target request body)) :
    test ioText false target x
      = ok (.success .http1 200 ((strBytes (Server.httpHeader body.length)).length + body.length)) := by
  rw [served_eq] at h
  rcases parseStatusLine_of_statusLine (statusLine_served hrequest body) with ⟨headerEnd, hparse⟩
  have hok := (doTest_eq_ok_iff target x h _).mpr ⟨200, headerEnd, hparse, rfl⟩
  rw [test, hok, Server.serveHttp1, if_neg hrequest, List.length_append]
  rfl

theorem Http2.test_served (target : TestTarget) (x : Exchange) {body : Bytes}
    (h : x.Delivers target (Server.serveHttp2 body)) :
    test ioText false target x = ok (.success .http2 200 body.length) := by
  rw [test, doTest_of_delivers target x _ h]
  rfl

theorem Http3.test_served (target : TestTarget) (x : Exchange) {body : Bytes}
    (h : x.Delivers target (Server.serveHttp3Conn body)) :
    test ioText false target x = ok (.success .http3 200 body.length) := by
  rw [test, doTest_of_delivers target x _ h]
  rfl

theorem strBytes_append_pos (s : String) {t : String} (h : 0 < (strBytes t).length) :
    0 < (strBytes (s ++ t)).length := by
  rw [strBytes_append, List.length_append]
  omega

theorem httpHeader_pos (n : Nat) : 0 < (strBytes (Server.httpHeader n)).length := by
  unfold Server.httpHeader
  exact strBytes_append_pos _ (by decide)

/-- No body is reported alike, however the responses are cut. -/
theorem sizes_never_agree (body : Bytes) (t₁ : TestTarget) (x₁ : Http1.Exchange)
    (t₂ : TestTarget) (x₂ : Http2.Exchange) (t₃ : TestTarget) (x₃ : Http3.Exchange)
    (h : Served body t₁ x₁ t₂ x₂ t₃ x₃) : ¬ SizesAgree ioText body t₁ x₁ t₂ x₂ t₃ x₃ := by
  rcases h.http1 with ⟨request, hrequest, _, hx₁⟩
  intro ⟨r₁, _, _, hr₁, _, _, hsize, _, _⟩
  rw [Http1.test_served ioText t₁ x₁ hrequest hx₁, ok.injEq] at hr₁
  rw [← hr₁] at hsize
  have hcount : (strBytes (Server.httpHeader body.length)).length + body.length = body.length :=
    Option.some.inj hsize
  have hpos := httpHeader_pos body.length
  omega

/-! ## Two bytes -/

/-- Exchanges in which nothing goes wrong. -/
def Http1.Exchange.smooth (reads : List Bytes) : Exchange :=
  { connect := ok (), serverName := ok (), tlsConnect := ok (), write := fun _ => ok (),
    reads := reads.map ok }

def Http2.Exchange.smooth (frames : List Bytes) : Exchange :=
  { connect := ok (), serverName := ok (), tlsConnect := ok (), handshake := ok (),
    build := fun _ => ok (), send := ok (), response := ok 200,
    chunks := frames.map (fun c => ok (c, ok ())) }

def Http3.Exchange.smooth (frames : List Bytes) : Exchange :=
  { endpoint := ok (), config := ok (), connect := ok (), connection := ok (), handshake := ok (),
    build := fun _ => ok (), closed := false, send := ok (), finish := ok (),
    response := ok 200, chunks := frames.map ok }

theorem Http1.segments_map_ok (tls : Bool) {reads : List Bytes}
    (h : ∀ c ∈ reads, c ≠ [] ∧ c.length ≤ 4096) : Segments tls (reads.map ok) reads.flatten := by
  induction reads with
  | nil => exact .done
  | cons c reads ih =>
      rw [List.forall_mem_cons] at h
      exact .read c _ _ h.1.1 h.1.2 (ih h.2)

theorem Http1.smooth_delivers (target : TestTarget) {reads : List Bytes}
    (h : ∀ c ∈ reads, c ≠ [] ∧ c.length ≤ 4096) :
    (Exchange.smooth reads).Delivers target reads.flatten :=
  ⟨rfl, fun _ => rfl, fun _ => rfl, rfl, segments_map_ok target.useTls h⟩

theorem Http2.smooth_delivers {target : TestTarget} (htls : target.useTls = true)
    (frames : List Bytes) :
    (Exchange.smooth frames).Delivers target (Server.serveHttp2 frames.flatten) :=
  ⟨htls, rfl, rfl, rfl, rfl, fun _ _ => rfl, rfl, rfl, frames, rfl, rfl⟩

theorem Http3.smooth_delivers (target : TestTarget) (frames : List Bytes) :
    (Exchange.smooth frames).Delivers target (Server.serveHttp3Conn frames.flatten) :=
  ⟨rfl, rfl, rfl, rfl, rfl, rfl, rfl, rfl, rfl, rfl, frames, rfl, rfl⟩

/-- The test server on this machine. -/
def localTarget (port : UInt16) (useTls : Bool) : TestTarget :=
  { host := "127.0.0.1", port, path := "/", useTls, resolvedAddr := none,
    dangerAcceptInvalidCerts := true }

theorem Http1.request_prefix (target : TestTarget) :
    strBytes "GET " <+: strBytes (request target) := by
  unfold request
  simp only [String.append_assoc]
  rw [strBytes_append]
  exact List.prefix_append _ _

theorem httpHeader_two : (strBytes (Server.httpHeader 2)).length = 113 := by decide +kernel

/-- Two bytes served to the three tests, the header in a read of its own. -/
theorem served_two :
    Served [120, 120] (localTarget 8080 false)
      (.smooth [strBytes (Server.httpHeader 2), [120, 120]]) (localTarget 8443 true)
      (.smooth [[120, 120]]) (localTarget 8444 true) (.smooth [[120], [], [120]]) where
  http1 := by
    have hrequest : strBytes "GET " ≠ [] := by decide
    have hbody : ([120, 120] : Bytes).length = 2 := rfl
    have hserved : Http1.served (localTarget 8080 false) (strBytes "GET ") [120, 120]
        = [strBytes (Server.httpHeader 2), [120, 120]].flatten := by
      rw [Http1.served_eq, Server.serveHttp1, if_neg hrequest, hbody, List.flatten_cons,
        List.flatten_singleton]
    refine ⟨strBytes "GET ", hrequest, Http1.request_prefix _, ?_⟩
    rw [hserved]
    apply Http1.smooth_delivers
    rw [List.forall_mem_cons, List.forall_mem_singleton, httpHeader_two]
    exact ⟨⟨List.ne_nil_of_length_pos (httpHeader_pos 2), by decide⟩, by decide, by decide⟩
  http2 := Http2.smooth_delivers rfl [[120, 120]]
  http3 := Http3.smooth_delivers _ [[120], [], [120]]

theorem sizes_never_agree_two :
    ¬ SizesAgree (fun _ => "") [120, 120] (localTarget 8080 false)
      (.smooth [strBytes (Server.httpHeader 2), [120, 120]]) (localTarget 8443 true)
      (.smooth [[120, 120]]) (localTarget 8444 true) (.smooth [[120], [], [120]]) :=
  sizes_never_agree _ _ _ _ _ _ _ _ served_two

/-- The same two bytes are 115 to the HTTP/1.1 test. -/
theorem header_counted :
    Http1.test (fun _ => "") false (localTarget 8080 false)
        (.smooth [strBytes (Server.httpHeader 2), [120, 120]])
      = ok (.success .http1 200 115) ∧
    Http2.test (fun _ => "") false (localTarget 8443 true) (.smooth [[120, 120]])
      = ok (.success .http2 200 2) ∧
    ¬ SizesAgree (fun _ => "") [120, 120] (localTarget 8080 false)
      (.smooth [strBytes (Server.httpHeader 2), [120, 120]]) (localTarget 8443 true)
      (.smooth [[120, 120]]) (localTarget 8444 true) (.smooth [[120], [], [120]]) := by
  rcases served_two.http1 with ⟨request, hrequest, _, hx⟩
  have hbody : ([120, 120] : Bytes).length = 2 := rfl
  have htest := Http1.test_served (fun _ => "") _ _ hrequest hx
  rw [hbody, httpHeader_two] at htest
  refine ⟨htest, Http2.test_served _ _ _ served_two.http2, ?_⟩
  intro ⟨r₁, _, _, hr₁, _, _, hsize, _, _⟩
  rw [htest, ok.injEq] at hr₁
  rw [← hr₁] at hsize
  exact absurd (Option.some.inj hsize) (by decide)

end ProxyPen
