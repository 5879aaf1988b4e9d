import ProxyPen.Theory.Tally

/-!
# What the Server's Receive Loop Counts

The server records the datagrams of its peer, the source of the first one, and
skips the others. Its report is therefore a function of the datagrams it took
from its socket, with their sources, and of nothing else: `upReports_iff` says
which counters a run on given arrivals can end with. There is exactly one
such value, except that nothing is reported until something arrives.

## Main definitions

* `UpReceiver.heard`: What the server hands to its statistics.
* `UpInv`: The invariant of the loop.
* `UpReports`: A run on these arrivals can report these counters.

## Theorems

* `upInv_step`, `upInv_of_reachable`: The invariant.
* `exists_reachable_select`: The loop can take any non-empty arrivals.
* `upReports_iff`: What a run reports.
-/

namespace ProxyPen

open Protocol Socks

/-- The datagram a program point has taken and not yet recorded. -/
def UpPc.pending : UpPc → List Bytes
  | .anchor buf => [buf]
  | .process buf => [buf]
  | _ => []

variable {A F : Type} [DecidableEq A] [JitterFilter F]

/-- What the server hands to its statistics: the datagrams of whoever sent the
    first one, as they fit its buffer. -/
def UpReceiver.heard (c : UpReceiver) (xs : List (A × Bytes)) : List Bytes :=
  (xs.filter (fun x => some x.1 = xs.head?.map Prod.fst)).map (fun x => osRecv c.bufLen x.2)

theorem heard_singleton (c : UpReceiver) (x : A × Bytes) :
    c.heard [x] = [osRecv c.bufLen x.2] := by
  simp only [UpReceiver.heard, List.head?_cons, Option.map_some, decide_true,
    List.filter_cons_of_pos, List.filter_nil, List.map_cons, List.map_nil]

theorem heard_snoc (c : UpReceiver) (xs : List (A × Bytes)) (x : A × Bytes) (h : xs ≠ []) :
    c.heard (xs ++ [x]) = c.heard xs ++
      if some x.1 = xs.head?.map Prod.fst then [osRecv c.bufLen x.2] else [] := by
  -- The peer is fixed by the first arrival.
  have hhead : (xs ++ [x]).head? = xs.head? := by
    cases xs with
    | nil => exact absurd rfl h
    | cons y ys => rfl
  rw [UpReceiver.heard, hhead, List.filter_append, List.map_append, ← UpReceiver.heard]
  by_cases hx : some x.1 = xs.head?.map Prod.fst
  · rw [if_pos hx, List.filter_cons_of_pos (by simpa only [decide_eq_true_eq] using hx)]
    rfl
  · rw [if_neg hx, List.filter_cons_of_neg (by simpa only [decide_eq_true_eq] using hx)]
    rfl

/-- The invariant of the server's receive loop. -/
structure UpInv (c : UpReceiver) (s : UpState A F) : Prop where
  now_le : s.now ≤ clockMax
  fresh : s.pc = .hello → s.received = []
  begun : s.pc ≠ .hello → s.pc ≠ .failed → s.received ≠ []
  peer_eq : s.peer = s.received.head?.map Prod.fst
  tallied : ∃ front, c.heard s.received = front ++ s.pc.pending ∧ Agree s.stats (tally front)

theorem upInv_init (c : UpReceiver) : UpInv c (UpReceiver.init : UpState A F) where
  now_le := Nat.zero_le _
  fresh _ := rfl
  begun h := absurd rfl h
  peer_eq := rfl
  tallied := ⟨[], rfl, rfl, rfl, rfl⟩

omit [JitterFilter F] in
/-- Past the hello, a move that takes no datagram keeps the invariant as long as
    the statistics and what is held add up. -/
theorem upInv_later (c : UpReceiver) (s s' : UpState A F) (h : UpInv c s)
    (hbegun : s.received ≠ []) (hpc : s'.pc ≠ .hello) (hnow : s'.now ≤ clockMax)
    (hrec : s'.received = s.received) (hpeer : s'.peer = s.peer) (front : List Bytes)
    (hfront : c.heard s.received = front ++ s'.pc.pending) (hagree : Agree s'.stats (tally front)) :
    UpInv c s' where
  now_le := hnow
  fresh hhello := absurd hhello hpc
  begun _ _ := hrec ▸ hbegun
  peer_eq := by rw [hpeer, hrec, h.peer_eq]
  tallied := ⟨front, by rw [hrec, hfront], hagree⟩

omit [JitterFilter F] in
/-- The hello makes its sender the peer and is held back for the tally. -/
theorem upInv_hello (c : UpReceiver) (s : UpState A F) (src : A) (d : Bytes) (h : UpInv c s)
    (hpc : s.pc = .hello) :
    UpInv c { s with
      pc := .anchor (osRecv c.bufLen d), peer := some src, received := s.received ++ [(src, d)] } := by
  -- Nothing has arrived before, so the sender of this datagram is the peer.
  have hnil := h.fresh hpc
  rcases h.tallied with ⟨front, hfront, hagree⟩
  rw [hnil, hpc] at hfront
  have hfront' : front = [] := (List.append_eq_nil_iff.mp hfront.symm).1
  subst hfront'
  refine ⟨h.now_le, ?_, ?_, ?_, [], ?_, hagree⟩
  · simp only [reduceCtorEq, false_implies]
  · exact fun _ _ => List.append_ne_nil_of_right_ne_nil _ (List.cons_ne_nil _ _)
  · simp only [hnil, List.nil_append, List.head?_cons, Option.map_some]
  · simp only [hnil, List.nil_append, UpPc.pending]
    exact heard_singleton c (src, d)

omit [JitterFilter F] in
/-- A later datagram is held back if the peer has sent it, and skipped if not. -/
theorem upInv_datagram (c : UpReceiver) (s : UpState A F) (src : A) (d : Bytes) (h : UpInv c s)
    (hpc : s.pc = .select) :
    UpInv c { s with
      pc := if some src ≠ s.peer then .select else .process (osRecv c.bufLen d)
      received := s.received ++ [(src, d)] } := by
  -- Something has arrived before, so the peer stays who it is.
  have hne := h.begun (by simp [hpc]) (by simp [hpc])
  rcases h.tallied with ⟨front, hfront, hagree⟩
  simp only [hpc, UpPc.pending, List.append_nil] at hfront
  have hhead : (s.received ++ [(src, d)]).head? = s.received.head? :=
    List.head?_append_of_ne_nil _ hne
  refine ⟨h.now_le, ?_, fun _ _ => List.append_ne_nil_of_left_ne_nil hne _, ?_, front, ?_, hagree⟩
  · intro hhello
    simp only at hhello
    split at hhello <;> cases hhello
  · simp only [hhead]
    exact h.peer_eq
  · simp only
    rw [heard_snoc c _ _ hne, hfront, ← h.peer_eq]
    -- A foreign source is skipped on both sides.
    by_cases hsrc : some src = s.peer
    · rw [if_pos hsrc, if_neg (fun hn => hn hsrc)]
      rfl
    · rw [if_neg hsrc, if_pos hsrc]
      rfl

theorem upInv_step (c : UpReceiver) (s : UpState A F) (e : UpEvent A) (s' : UpState A F)
    (hstep : c.step s e = some s') (h : UpInv c s) : UpInv c s' := by
  cases e with
  | datagram src d =>
      rw [UpReceiver.step, UpReceiver.onDatagram] at hstep
      cases hpc : s.pc with
      | hello =>
          simp only [hpc, Option.some.injEq] at hstep
          exact hstep ▸ upInv_hello c s src d h hpc
      | select =>
          simp only [hpc, Option.some.injEq] at hstep
          exact hstep ▸ upInv_datagram c s src d h hpc
      | _ => simp only [hpc, reduceCtorEq] at hstep
  | reading t =>
      rw [UpReceiver.step, Option.ite_none_right_eq_some] at hstep
      rcases hstep with ⟨⟨hnow, hmax⟩, hstep⟩
      unfold UpReceiver.onReading at hstep
      cases hpc : s.pc with
      | anchor buf =>
          simp only [hpc, Option.some.injEq] at hstep
          subst hstep
          rcases h.tallied with ⟨front, hfront, hagree⟩
          rw [hpc] at hfront
          exact upInv_later c s _ h (h.begun (by simp [hpc]) (by simp [hpc])) (by simp) hmax rfl rfl
            front hfront hagree
      | process buf =>
          simp only [hpc, Option.some.injEq] at hstep
          subst hstep
          rcases h.tallied with ⟨front, hfront, hagree⟩
          rw [hpc] at hfront
          -- The pending datagram moves into the tally.
          refine upInv_later c s _ h (h.begun (by simp [hpc]) (by simp [hpc])) (by simp) hmax rfl
            rfl (front ++ [buf]) ?_ ?_
          · simp only [UpPc.pending, List.append_nil]
            exact hfront
          · rw [tally_snoc]
            exact agree_processPacket _ _ hagree _ _ _
      | _ => simp only [hpc, reduceCtorEq] at hstep
  | expired t =>
      rw [UpReceiver.step, Option.ite_none_right_eq_some] at hstep
      rcases hstep with ⟨⟨hpc, hnow, hmax, -⟩, hstep⟩
      rw [Option.some.injEq] at hstep
      subst hstep
      rcases h.tallied with ⟨front, hfront, hagree⟩
      rw [hpc] at hfront
      exact upInv_later c s _ h (h.begun (by simp [hpc]) (by simp [hpc])) (by simp) hmax rfl rfl
        front hfront hagree
  | error =>
      rw [UpReceiver.step, Option.ite_none_right_eq_some] at hstep
      rcases hstep with ⟨hpc, hstep⟩
      rw [Option.some.injEq] at hstep
      subst hstep
      rcases h.tallied with ⟨front, hfront, hagree⟩
      refine ⟨h.now_le, ?_, fun _ hn => absurd rfl hn, h.peer_eq, front, ?_, hagree⟩
      · simp only [reduceCtorEq, false_implies]
      · rcases hpc with hpc | hpc <;> rwa [hpc] at hfront

theorem upInv_of_reachable (c : UpReceiver) (s : UpState A F) (hs : c.Reachable s) : UpInv c s :=
  Machine.reachable_invariant _ (upInv_step c) _ s hs (upInv_init c)

/-- A run on the arrivals `xs` can report these counters. -/
def UpReports (F : Type) [JitterFilter F] (c : UpReceiver) (xs : List (A × Bytes))
    (k : Counters) : Prop :=
  ∃ (s : UpState A F) (dur : Nat),
    c.Reachable s ∧ s.pc = .done ∧ s.received = xs ∧ (s.report dur).counters = k

/-- The loop can take any non-empty list of arrivals and come back to its
    select. -/
theorem exists_reachable_select (c : UpReceiver) (xs : List (A × Bytes)) (hne : xs ≠ []) :
    ∃ s : UpState A F, c.Reachable s ∧ s.pc = .select ∧ s.received = xs := by
  induction xs using List.reverseRecOn with
  | nil => exact absurd rfl hne
  | append_singleton xs x ih =>
      -- The first arrival goes through the wait for the hello, later ones through the select.
      by_cases hnil : xs = []
      · subst hnil
        exact ⟨_, ⟨[.datagram x.1 x.2, .reading 0, .reading 0], rfl⟩, rfl, rfl⟩
      · rcases ih hnil with ⟨s, hs, hpc, hrec⟩
        have hnow := (upInv_of_reachable c s hs).now_le
        have hstep : c.step s (.datagram x.1 x.2) = some { s with
            pc := if some x.1 ≠ s.peer then .select else .process (osRecv c.bufLen x.2)
            received := s.received ++ [x] } := by
          simp only [UpReceiver.step, UpReceiver.onDatagram, hpc]
        have hone := Machine.Reachable.next hs hstep
        by_cases hsrc : some x.1 = s.peer
        · rw [if_neg (fun hn => hn hsrc)] at hone
          -- From the loop body the clock reading leads back to the select.
          have hread : c.step { s with
              pc := .process (osRecv c.bufLen x.2), received := s.received ++ [x] }
              (.reading s.now) = some { s with
                pc := .select
                stats := processPacket s.stats (osRecv c.bufLen x.2)
                  ((s.now - s.sessionStart) % 2 ^ 64)
                received := s.received ++ [x] } := by
            rw [UpReceiver.step, if_pos ⟨Nat.le_refl _, hnow⟩]
            rfl
          exact ⟨_, Machine.Reachable.next hone hread, rfl, by simp only [hrec]⟩
        · rw [if_pos hsrc] at hone
          exact ⟨_, hone, rfl, by simp only [hrec]⟩

/-- A run on `xs` reports the tally of what the server heard, and there is
    such a run as soon as something arrives. -/
theorem upReports_iff (c : UpReceiver) (xs : List (A × Bytes)) (k : Counters) :
    UpReports F c xs k ↔ xs ≠ [] ∧ k = (tally (c.heard xs)).counters := by
  constructor
  · rintro ⟨s, dur, hs, hpc, rfl, rfl⟩
    have h := upInv_of_reachable c s hs
    rcases h.tallied with ⟨front, hfront, hagree⟩
    rw [hpc] at hfront
    rw [hfront, UpState.report, counters_intoReport]
    simp only [UpPc.pending, List.append_nil]
    exact ⟨h.begun (by simp [hpc]) (by simp [hpc]), hagree.counters⟩
  · rintro ⟨hne, rfl⟩
    rcases @exists_reachable_select A F _ _ c xs hne with ⟨s, hs, hpc, hrec⟩
    have h := upInv_of_reachable c s hs
    -- The deadline ends the loop after the last arrival.
    have hstep : c.step s (.expired clockMax) = some { s with pc := .done, now := clockMax } := by
      rw [UpReceiver.step, if_pos ⟨hpc, h.now_le, Nat.le_refl _, Nat.min_le_right _ _⟩]
    refine ⟨_, 0, Machine.Reachable.next hs hstep, rfl, hrec, ?_⟩
    rcases h.tallied with ⟨front, hfront, hagree⟩
    rw [hpc, hrec] at hfront
    rw [hfront, UpState.report, counters_intoReport]
    simp only [UpPc.pending, List.append_nil]
    exact hagree.counters

end ProxyPen
