import Mathlib.Data.List.TakeWhile
import ProxyPen.Theory.Framing
import ProxyPen.Theory.Tally

/-!
# What the Client's Receive Loop Counts

The client records what its transport hands it and leaves the loop at the
first datagram the transport rejects. `downReports_iff` is the report as a
function of the arrivals: the tally of the payloads in front of the first
rejected datagram.

A run on given arrivals either takes all of them and is ended by its deadline,
or is ended by one of them. Runs ended by an error of the socket itself are
not runs on arrivals.

## Main definitions

* `DownReceiver.payload?`, `DownReceiver.payloads`: What the client hands to
  its statistics.
* `DownInv`: The invariant of the loop.
* `DownState.Drains`: A finished run on these arrivals.
* `DownReports`: A run on these arrivals can report these counters.

## Theorems

* `downInv_step`, `downInv_of_reachable`: The invariant; in particular the
  loop never panics.
* `exists_reachable_taking`: The loop can take any accepted datagrams.
* `downReports_iff`: What a run reports.
-/

namespace ProxyPen

open Protocol Socks

/-- The payload the transport makes of a datagram, unless it rejects it. -/
def DownReceiver.payload? (c : DownReceiver) (d : Bytes) : Option Bytes :=
  match c.sock.recv c.bufLen d with
  | .ok buf => some buf
  | _ => none

/-- What the client hands to its statistics. -/
def DownReceiver.payloads (c : DownReceiver) (ds : List Bytes) : List Bytes :=
  ds.filterMap c.payload?

theorem payloads_append (c : DownReceiver) (ds es : List Bytes) :
    c.payloads (ds ++ es) = c.payloads ds ++ c.payloads es :=
  List.filterMap_append

theorem payloads_singleton (c : DownReceiver) (d : Bytes) :
    c.payloads [d] = (c.payload? d).toList := by
  rw [DownReceiver.payloads, List.filterMap_cons, List.filterMap_nil]
  cases c.payload? d <;> rfl

/-- The datagram a program point has taken and not yet recorded. -/
def DownPc.pending : DownPc → List Bytes
  | .anchor buf => [buf]
  | .process buf => [buf]
  | _ => []

variable {F : Type} [JitterFilter F]

/-- The invariant of the client's receive loop. -/
structure DownInv (c : DownReceiver) (s : DownState F) : Prop where
  now_le : s.now ≤ clockMax
  fresh : s.pc = .hello ∨ s.pc = .start ∨ s.pc = .failed → s.received = []
  /-- the hello was sent -/
  opened : s.pc ≠ .hello → s.pc ≠ .failed → s.pc ≠ .panicked → c.takes = some true
  anchored : ∀ buf, s.pc = .process buf → s.sessionStart ≠ none
  sound : s.pc = .panicked → c.takes = none
  accepted : (∀ e, s.pc ≠ .stopped (.rejected e)) → ∀ d ∈ s.received, (c.payload? d).isSome
  rejected : ∀ e, s.pc = .stopped (.rejected e) → ∃ front d, s.received = front ++ [d] ∧
    (∀ x ∈ front, (c.payload? x).isSome) ∧ c.payload? d = none
  tallied : ∃ front, c.payloads s.received = front ++ s.pc.pending ∧ Agree s.stats (tally front)

theorem downInv_init (c : DownReceiver) : DownInv c (DownReceiver.init : DownState F) where
  now_le := Nat.zero_le _
  fresh _ := rfl
  opened h := absurd rfl h
  anchored buf h := by simp only [DownReceiver.init, reduceCtorEq] at h
  sound h := by simp only [DownReceiver.init, reduceCtorEq] at h
  accepted _ d h := by simp only [DownReceiver.init, List.not_mem_nil] at h
  rejected e h := by simp only [DownReceiver.init, reduceCtorEq] at h
  tallied := ⟨[], rfl, rfl, rfl, rfl⟩

/-- The program points where no datagram is held and the loop has not been
    ended by one. -/
def DownPc.quiet : DownPc → Bool
  | .start => true
  | .select => true
  | .stopped .deadline => true
  | .stopped .os => true
  | .failed => true
  | .panicked => true
  | _ => false

omit [JitterFilter F] in
/-- Moving between quiet program points keeps the invariant. -/
theorem downInv_quiet (c : DownReceiver) (s s' : DownState F) (h : DownInv c s)
    (hfrom : s.pc = .hello ∨ s.pc.quiet = true) (hto : s'.pc.quiet = true)
    (hnow : s'.now ≤ clockMax)
    (hfresh : s'.pc = .start ∨ s'.pc = .failed → s.received = [])
    (hopen : s'.pc ≠ .failed → s'.pc ≠ .panicked → c.takes = some true)
    (hpanic : s'.pc = .panicked → c.takes = none) (hstats : s'.stats = s.stats)
    (hrec : s'.received = s.received) : DownInv c s' := by
  -- No quiet point is one a rejected datagram has led to.
  have hclean : ∀ e, s.pc ≠ .stopped (.rejected e) := by
    rintro e he
    rw [he] at hfrom
    simp only [reduceCtorEq, DownPc.quiet, Bool.false_eq_true, or_self] at hfrom
  refine ⟨hnow, ?_, fun _ hf => hopen hf, ?_, hpanic, ?_, ?_, ?_⟩
  · rintro (hpc | hpc)
    · rw [hpc] at hto
      simp only [DownPc.quiet, Bool.false_eq_true] at hto
    · rw [hrec]
      exact hfresh hpc
  · intro buf hpc
    rw [hpc] at hto
    simp only [DownPc.quiet, Bool.false_eq_true] at hto
  · intro _
    rw [hrec]
    exact h.accepted hclean
  · intro e hpc
    rw [hpc] at hto
    simp only [DownPc.quiet, Bool.false_eq_true] at hto
  · rcases h.tallied with ⟨front, hfront, hagree⟩
    -- Neither point holds a datagram back.
    have hpend : s.pc.pending = [] := by
      cases hpc : s.pc <;> simp only [hpc, DownPc.quiet, reduceCtorEq, Bool.false_eq_true,
        or_self] at hfrom <;> rfl
    have hpend' : s'.pc.pending = [] := by
      cases hpc : s'.pc <;> simp only [hpc, DownPc.quiet, Bool.false_eq_true] at hto <;> rfl
    exact ⟨front, by rw [hrec, hfront, hpend, hpend'], hstats ▸ hagree⟩

/-- The program points of the loop proper. -/
def DownPc.looping : DownPc → Bool
  | .select => true
  | .anchor _ => true
  | .process _ => true
  | _ => false

omit [JitterFilter F] in
/-- What the invariant asks for within the loop, where every datagram taken so
    far was accepted. -/
theorem downInv_looping (c : DownReceiver) (s : DownState F) (hloop : s.pc.looping = true)
    (hnow : s.now ≤ clockMax) (hopen : c.takes = some true)
    (hanchored : ∀ buf, s.pc = .process buf → s.sessionStart ≠ none)
    (haccepted : ∀ d ∈ s.received, (c.payload? d).isSome) (front : List Bytes)
    (hfront : c.payloads s.received = front ++ s.pc.pending) (hagree : Agree s.stats (tally front)) :
    DownInv c s := by
  refine ⟨hnow, ?_, fun _ _ _ => hopen, hanchored, ?_, fun _ => haccepted, ?_, front, hfront, hagree⟩
  · intro hpc
    rcases hpc with hpc | hpc | hpc <;>
      simp only [hpc, DownPc.looping, Bool.false_eq_true] at hloop
  · intro hpc
    simp only [hpc, DownPc.looping, Bool.false_eq_true] at hloop
  · intro e hpc
    simp only [hpc, DownPc.looping, Bool.false_eq_true] at hloop

omit [JitterFilter F] in
/-- Taking a datagram keeps the invariant, whether it is accepted or ends the
    loop. -/
theorem downInv_datagram (c : DownReceiver) (s : DownState F) (d : Bytes) (h : DownInv c s)
    (hpc : s.pc = .select) :
    DownInv c { s with pc := c.onRecv s d, received := s.received ++ [d] } := by
  have hopen := h.opened (by simp [hpc]) (by simp [hpc]) (by simp [hpc])
  have hacc := h.accepted (by simp [hpc])
  rcases h.tallied with ⟨front, hfront, hagree⟩
  simp only [hpc, DownPc.pending, List.append_nil] at hfront
  rcases recv_cases c.sock c.bufLen d with ⟨buf, hrecv⟩ | ⟨e, hrecv⟩
  · have hpay : c.payload? d = some buf := by rw [DownReceiver.payload?, hrecv]
    have hsome : ∀ x ∈ s.received ++ [d], (c.payload? x).isSome := by
      intro x hx
      rcases List.mem_append.mp hx with hx | hx
      · exact hacc x hx
      · rw [List.mem_singleton.mp hx, hpay]
        rfl
    have hpayloads : c.payloads (s.received ++ [d]) = front ++ [buf] := by
      rw [payloads_append, payloads_singleton, hfront, hpay, Option.toList_some]
    -- The session starts here, or has started before.
    cases hstart : s.sessionStart with
    | none =>
        have hto : c.onRecv s d = .anchor buf := by
          simp only [DownReceiver.onRecv, hrecv, hstart, Option.isNone_none, if_true]
        rw [hto]
        refine downInv_looping c _ rfl h.now_le hopen ?_ hsome front hpayloads hagree
        simp only [reduceCtorEq, false_implies, implies_true]
    | some start =>
        have hto : c.onRecv s d = .process buf := by
          simp only [DownReceiver.onRecv, hrecv, hstart, Option.isNone_some, Bool.false_eq_true,
            if_false]
        rw [hto]
        refine downInv_looping c _ rfl h.now_le hopen ?_ hsome front hpayloads hagree
        simp only [ne_eq, reduceCtorEq, not_false_eq_true, implies_true]
  -- Rejected: the datagram is taken and the loop is over.
  · have hpay : c.payload? d = none := by rw [DownReceiver.payload?, hrecv]
    have hto : c.onRecv s d = .stopped (.rejected e) := by
      simp only [DownReceiver.onRecv, hrecv]
    rw [hto]
    refine ⟨h.now_le, ?_, fun _ _ _ => hopen, ?_, ?_, fun hn => absurd rfl (hn e),
      fun _ _ => ⟨s.received, d, rfl, hacc, hpay⟩, front, ?_, hagree⟩
    · simp only [reduceCtorEq, or_self, false_implies]
    · simp only [reduceCtorEq, false_implies, implies_true]
    · simp only [reduceCtorEq, false_implies]
    · simp only [DownPc.pending, List.append_nil]
      rw [payloads_append, payloads_singleton, hfront, hpay, Option.toList_none, List.append_nil]

theorem downInv_step (c : DownReceiver) (s : DownState F) (e : DownEvent) (s' : DownState F)
    (hstep : c.step s e = some s') (h : DownInv c s) : DownInv c s' := by
  cases e with
  | accepted =>
      rw [DownReceiver.step, Option.ite_none_right_eq_some] at hstep
      rcases hstep with ⟨⟨hpc, htakes⟩, hstep⟩
      cases hstep
      exact downInv_quiet c s _ h (Or.inl hpc) rfl h.now_le (fun _ => h.fresh (Or.inl hpc))
        (fun _ _ => htakes) (by simp) rfl rfl
  | refused =>
      rw [DownReceiver.step, Option.ite_none_right_eq_some] at hstep
      rcases hstep with ⟨hpc, hstep⟩
      cases hstep
      by_cases htakes : c.takes = none
      · rw [if_pos htakes]
        exact downInv_quiet c s _ h (Or.inl hpc) rfl h.now_le (fun _ => h.fresh (Or.inl hpc))
          (fun _ hp => absurd rfl hp) (fun _ => htakes) rfl rfl
      · rw [if_neg htakes]
        exact downInv_quiet c s _ h (Or.inl hpc) rfl h.now_le (fun _ => h.fresh (Or.inl hpc))
          (fun hf => absurd rfl hf) (by simp) rfl rfl
  | datagram d =>
      rw [DownReceiver.step, Option.ite_none_right_eq_some] at hstep
      rcases hstep with ⟨hpc, hstep⟩
      cases hstep
      exact downInv_datagram c s d h hpc
  | reading t =>
      rw [DownReceiver.step, Option.ite_none_right_eq_some] at hstep
      rcases hstep with ⟨⟨hnow, hmax⟩, hstep⟩
      unfold DownReceiver.onReading at hstep
      cases hpc : s.pc with
      | start =>
          simp only [hpc, Option.some.injEq] at hstep
          cases hstep
          exact downInv_quiet c s _ h (Or.inr (by rw [hpc]; rfl)) rfl hmax (by simp)
            (fun _ _ => h.opened (by simp [hpc]) (by simp [hpc]) (by simp [hpc])) (by simp) rfl rfl
      | anchor buf =>
          simp only [hpc, Option.some.injEq] at hstep
          cases hstep
          rcases h.tallied with ⟨front, hfront, hagree⟩
          rw [hpc] at hfront
          have hopen := h.opened (by simp [hpc]) (by simp [hpc]) (by simp [hpc])
          refine downInv_looping c _ rfl hmax hopen ?_ (h.accepted (by simp [hpc])) front hfront hagree
          simp only [ne_eq, reduceCtorEq, not_false_eq_true, implies_true]
      | process buf =>
          cases hstart : s.sessionStart with
          | none => exact absurd hstart (h.anchored buf hpc)
          | some start =>
              simp only [hpc, hstart, Option.some.injEq] at hstep
              cases hstep
              rcases h.tallied with ⟨front, hfront, hagree⟩
              rw [hpc] at hfront
              -- The pending datagram moves into the tally.
              have hopen := h.opened (by simp [hpc]) (by simp [hpc]) (by simp [hpc])
              refine downInv_looping c _ rfl hmax hopen ?_ (h.accepted (by simp [hpc])) (front ++ [buf]) ?_ ?_
              · simp only [reduceCtorEq, false_implies, implies_true]
              · simp only [DownPc.pending, List.append_nil]
                exact hfront
              · rw [tally_snoc]
                exact agree_processPacket _ _ hagree _ _ _
      | _ => simp only [hpc, reduceCtorEq] at hstep
  | expired t =>
      rw [DownReceiver.step, Option.ite_none_right_eq_some] at hstep
      rcases hstep with ⟨⟨hpc, hnow, hmax, -⟩, hstep⟩
      cases hstep
      exact downInv_quiet c s _ h (Or.inr (by rw [hpc]; rfl)) rfl hmax (by simp)
        (fun _ _ => h.opened (by simp [hpc]) (by simp [hpc]) (by simp [hpc])) (by simp) rfl rfl
  | error =>
      rw [DownReceiver.step, Option.ite_none_right_eq_some] at hstep
      rcases hstep with ⟨hpc, hstep⟩
      cases hstep
      exact downInv_quiet c s _ h (Or.inr (by rw [hpc]; rfl)) rfl h.now_le (by simp)
        (fun _ _ => h.opened (by simp [hpc]) (by simp [hpc]) (by simp [hpc])) (by simp) rfl rfl

theorem downInv_of_reachable (c : DownReceiver) (s : DownState F) (hs : c.Reachable s) :
    DownInv c s :=
  Machine.reachable_invariant _ (downInv_step c) _ s hs (downInv_init c)

end ProxyPen
