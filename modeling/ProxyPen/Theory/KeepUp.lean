import ProxyPen.Theory.PacerBounds
import ProxyPen.Theory.Wakeup

/-!
# Keeping Up With the Pacer

A send loop that never outruns its rate does not fall behind it either.
Between two batches the loop has sent exactly what the pacer allowed at its
latest reading, the client's hello being counted as the first packet of the
first batch. A batch is only left early by the deadline or by a refused send,
and both end the loop.

A loop that has caught up has nothing to wait for. Its next packet is number
`seq`, and `seq` packets were already due at the latest reading, so the sleep
is over when it begins. The one real sleep of a loop is the client's, before
the pacer has allowed its first packet.

## Main definitions

* `SendPc.between`: The program points between two batches.
* `KeepUp`: What holds there.
* `Ending`: How a loop has come to its end.

## Theorems

* `keepUp_step`: Every transition keeps it.
* `awake_of_allowed`: A loop that has caught up does not sleep.
* `send_loop_keeps_up`: The count, the sleep and the end of either loop.
-/

namespace ProxyPen

open Protocol Socks Machine Pacer

/-- The program points between two batches of sends. -/
def SendPc.between : SendPc → Bool
  | .top => true
  | .due => true
  | .sleep => true
  | _ => false

/-- A send loop that has sent what it may. -/
structure KeepUp (c : Sender) (s : SendState) : Prop where
  unsent : s.pc = .start ∨ s.pc = .hello → s.seq = 0
  greeted : s.pc = .pacer → s.seq = c.free
  caughtUp : s.pc.between = true → s.seq = max c.free (c.allowed s)

theorem keepUp_init (c : Sender) : KeepUp c c.init where
  unsent _ := rfl
  greeted h := by simp only [Sender.init, reduceCtorEq] at h
  caughtUp h := by simp only [Sender.init, SendPc.between, Bool.false_eq_true] at h

theorem Sender.free_le (c : Sender) : c.free ≤ 1 := by
  unfold Sender.free
  split <;> omega

/-- The loop condition against the pacer's latest answer. A batch that is over
    has sent everything. -/
theorem keepUp_guard (c : Sender) (s : SendState)
    (h : c.allowed s ≤ s.seq → s.seq = max c.free (c.allowed s)) :
    KeepUp c { s with pc := Sender.guard s.seq (c.allowed s) } := by
  unfold Sender.guard
  by_cases hless : s.seq < c.allowed s
  · rw [if_pos hless]
    constructor
    all_goals simp only [SendPc.between, reduceCtorEq, or_self, false_implies, Bool.false_eq_true]
  · rw [if_neg hless]
    constructor
    case unsent => simp only [reduceCtorEq, or_self, false_implies]
    case greeted => simp only [reduceCtorEq, false_implies]
    case caughtUp => exact fun _ => h (Nat.not_lt.mp hless)

/-- Where the opening, a batch and the end are out of the way, only the count
    is left. -/
theorem keepUp_of_between (c : Sender) (s : SendState) (hpc : s.pc.between = true)
    (h : s.seq = max c.free (c.allowed s)) : KeepUp c s where
  unsent hopen := by
    rcases hopen with hopen | hopen
    · simp only [hopen, SendPc.between, Bool.false_eq_true] at hpc
    · simp only [hopen, SendPc.between, Bool.false_eq_true] at hpc
  greeted hopen := by simp only [hopen, SendPc.between, Bool.false_eq_true] at hpc
  caughtUp _ := h

/-- Inside a batch and after the end nothing is claimed. -/
theorem keepUp_of_not_between (c : Sender) (s : SendState) (hpc : s.pc.between = false)
    (hstart : s.pc ≠ .start) (hhello : s.pc ≠ .hello) (hpacer : s.pc ≠ .pacer) : KeepUp c s where
  unsent hopen := absurd hopen (not_or.mpr ⟨hstart, hhello⟩)
  greeted hopen := absurd hopen hpacer
  caughtUp h := by simp only [hpc, Bool.false_eq_true] at h

theorem keepUp_step (c : Sender) (hbw : c.bandwidthBps ≠ 0) (s : SendState) (e : SendEvent)
    (s' : SendState) (hstep : c.step s e = some s') (hinv : SendInv c s) (h : KeepUp c s) :
    KeepUp c s' := by
  have hinv' := sendInv_step c s e s' hstep hinv
  cases sendMove_of_step c s e s' hstep with
  | start t hpc hnow hmax =>
      have hseq := h.unsent (Or.inl hpc)
      by_cases hhello : c.sendsHello = true
      · rw [if_pos hhello]
        constructor
        case unsent => exact fun _ => hseq
        case greeted => simp only [reduceCtorEq, false_implies]
        case caughtUp => simp only [SendPc.between, Bool.false_eq_true, false_implies]
      · rw [if_neg hhello]
        constructor
        case unsent => simp only [reduceCtorEq, or_self, false_implies]
        case greeted => exact fun _ => hseq.trans (by rw [Sender.free, if_neg hhello])
        case caughtUp => simp only [SendPc.between, Bool.false_eq_true, false_implies]
  | pacer t hpc hnow hmax =>
      -- The pacer has not been asked yet, and allows nothing at its own start.
      have hnone : c.allowed s = 0 := by
        rw [Sender.allowed, hinv.opening (Or.inr (Or.inr hpc)),
          targetPackets_eq hbw c.size_pos c.size_lt 0 (by omega), Nat.zero_mul, Nat.zero_div,
          Nat.zero_min]
      refine keepUp_of_between c _ rfl ?_
      rw [show c.allowed { s with pc := .top, now := t, pacerStart := t } = 0 from hnone,
        Nat.max_zero]
      exact h.greeted hpc
  | top t hpc hnow hmax =>
      have hseq := h.caughtUp (by rw [hpc, SendPc.between])
      by_cases hover : c.deadline s ≤ t
      · rw [if_pos hover]
        exact keepUp_of_not_between c _ rfl SendPc.noConfusion SendPc.noConfusion SendPc.noConfusion
      · rw [if_neg hover]
        exact keepUp_of_between c _ rfl hseq
  | due t hpc hnow hmax =>
      have hseq := h.caughtUp (by rw [hpc, SendPc.between])
      have hle := hinv'.seq_le
      refine keepUp_guard c { s with now := t, paced := t - s.pacerStart } (fun hdone => ?_)
      -- A later reading allows no less, and the loop had sent all of the earlier one.
      refine Nat.le_antisymm hle (Nat.max_le.mpr ⟨?_, hdone⟩)
      exact hseq ▸ Nat.le_max_left _ _
  | check t due hpc hnow hmax =>
      by_cases hover : c.deadline s ≤ t
      · rw [if_pos hover]
        exact keepUp_of_not_between c _ rfl SendPc.noConfusion SendPc.noConfusion SendPc.noConfusion
      · rw [if_neg hover]
        exact keepUp_of_not_between c _ rfl SendPc.noConfusion SendPc.noConfusion SendPc.noConfusion
  | stamp t due hpc hnow hmax =>
      exact keepUp_of_not_between c _ rfl SendPc.noConfusion SendPc.noConfusion SendPc.noConfusion
  | wake t hpc hnow hmax hawake =>
      exact keepUp_of_between c _ rfl (h.caughtUp (by rw [hpc, SendPc.between]))
  | hello hpc hsize =>
      have hfree : c.free = 1 := by rw [Sender.free, if_pos (hinv.greets hpc)]
      constructor
      case unsent => simp only [reduceCtorEq, or_self, false_implies]
      case greeted => exact fun _ => hfree.symm
      case caughtUp => simp only [SendPc.between, Bool.false_eq_true, false_implies]
  | send due hpc hsize =>
      rcases hinv.due_eq due (by rw [hpc, SendPc.due?]) with ⟨rfl, hless⟩
      refine keepUp_guard c
        { s with bytes := s.bytes + c.size, seq := s.seq + 1, sent := s.sent ++ [s.buf] }
        (fun hdone => ?_)
      -- The last packet of a batch brings the count to what was allowed.
      have hall : s.seq + 1 = c.allowed s := Nat.le_antisymm hless hdone
      have hfree : c.free ≤ c.allowed s := by
        have hone := c.free_le
        omega
      exact hall.trans (Nat.max_eq_right hfree).symm
  | helloRefused hpc =>
      split
      · exact keepUp_of_not_between c _ rfl SendPc.noConfusion SendPc.noConfusion
          SendPc.noConfusion
      · exact keepUp_of_not_between c _ rfl SendPc.noConfusion SendPc.noConfusion
          SendPc.noConfusion
  | sendRefused due hpc =>
      exact keepUp_of_not_between c _ rfl SendPc.noConfusion SendPc.noConfusion SendPc.noConfusion

theorem keepUp_of_reachable (c : Sender) (hbw : c.bandwidthBps ≠ 0) (s : SendState)
    (hs : c.Reachable s) : SendInv c s ∧ KeepUp c s :=
  Machine.reachable_invariant (fun s => SendInv c s ∧ KeepUp c s)
    (fun s e s' hstep h =>
      ⟨sendInv_step c s e s' hstep h.1, keepUp_step c hbw s e s' hstep h.1 h.2⟩)
    _ s hs ⟨sendInv_init c, keepUp_init c⟩

/-- The pacer's readings stay on the clock. -/
theorem SendInv.paced_lt {c : Sender} {s : SendState} (h : SendInv c s) : s.paced < 2 ^ 64 := by
  have hle := h.paced_le
  have hnow := h.now_le
  unfold clockMax at hnow
  omega

/-- What has been allowed was due, so a loop that has caught up and been
    allowed a packet is awake. -/
theorem awake_of_allowed (c : Sender) (hbw : c.bandwidthBps ≠ 0) (s : SendState)
    (hinv : SendInv c s) (hle : s.seq ≤ c.allowed s) : c.awake s s.now := by
  have hdue : (c.pacer s).dueNs s.seq ≤ s.paced := by
    rw [dueNs_eq_due (c.pacer s) c.size_lt (seq_mul_cost_lt c s hinv hbw)]
    rw [Sender.allowed, targetPackets_eq_count hbw c.size_pos c.size_lt hinv.paced_lt] at hle
    exact Rate.due_le_of_le_count hle
  have hstart := hinv.pacer_le
  have hreading := hinv.paced_le
  refine Or.inr (Nat.le_trans (Nat.min_le_left _ _) ?_)
  omega

/-- How a send loop has come to its end: with everything sent, or in the middle
    of a batch by the deadline, or by a send that was refused. -/
def Ending (c : Sender) (es : List SendEvent) (s : SendState) : Prop :=
  es.getLast? = some .refused ∨
    c.deadline s ≤ s.now ∧ (s.seq = max c.free (c.allowed s) ∨ s.seq < c.allowed s)

/-- A run that has ended took its last step from the outer loop, from a batch,
    or from a send. -/
theorem ending_of_run (c : Sender) (hbw : c.bandwidthBps ≠ 0) (es : List SendEvent)
    (s : SendState) (hrun : runFrom c.step c.init es = some s) (hdone : s.pc = .done) :
    Ending c es s := by
  rcases List.eq_nil_or_concat es with rfl | ⟨fs, e, rfl⟩
  · simp only [runFrom, Option.some.injEq] at hrun
    simp only [← hrun, Sender.init, reduceCtorEq] at hdone
  rw [List.concat_eq_append] at hrun ⊢
  rcases (runFrom_snoc c.init s fs e).mp hrun with ⟨u, hprefix, hlast⟩
  rcases keepUp_of_reachable c hbw u ⟨fs, hprefix⟩ with ⟨hinv, hkeep⟩
  cases sendMove_of_step c u e s hlast with
  | start t hpc hnow hmax =>
      simp only at hdone
      split at hdone <;> simp only [reduceCtorEq] at hdone
  | top t hpc hnow hmax =>
      have hover : c.deadline u ≤ t := by
        by_contra hnot
        simp only [if_neg hnot, reduceCtorEq] at hdone
      exact Or.inr ⟨hover, Or.inl (hkeep.caughtUp (by rw [hpc, SendPc.between]))⟩
  | due t hpc hnow hmax =>
      simp only [Sender.guard] at hdone
      split at hdone <;> simp only [reduceCtorEq] at hdone
  | check t due hpc hnow hmax =>
      have hover : c.deadline u ≤ t := by
        by_contra hnot
        simp only [if_neg hnot, reduceCtorEq] at hdone
      rcases hinv.due_eq due (by rw [hpc, SendPc.due?]) with ⟨rfl, hless⟩
      exact Or.inr ⟨hover, Or.inr hless⟩
  | send due hpc hsize =>
      simp only [Sender.guard] at hdone
      split at hdone <;> simp only [reduceCtorEq] at hdone
  | sendRefused due hpc =>
      left
      rw [List.getLast?_append, List.getLast?_singleton, Option.some_or]
  | pacer t hpc hnow hmax => simp only [reduceCtorEq] at hdone
  | stamp t due hpc hnow hmax => simp only [reduceCtorEq] at hdone
  | wake t hpc hnow hmax hawake => simp only [reduceCtorEq] at hdone
  | hello hpc hsize => simp only [reduceCtorEq] at hdone
  | helloRefused hpc =>
      simp only at hdone
      split at hdone <;> simp only [reduceCtorEq] at hdone

/-- Either send loop with a limited rate, in every run. Between two batches it
    has sent exactly what the pacer allowed at its latest reading, counting the
    hello. Its sleep is over when it begins, the client's wait for its first
    packet apart. And it ends by its deadline or by a refused send. -/
theorem send_loop_keeps_up (c : Sender) (hbw : c.bandwidthBps ≠ 0) (es : List SendEvent)
    (s : SendState) (hrun : runFrom c.step c.init es = some s) :
    (s.pc.between = true →
      s.seq = max c.free (targetPackets c.bandwidthBps c.size s.paced)) ∧
    (s.pc = .sleep → c.awake s s.now ∨ c.sendsHello = true ∧ s.seq = 1 ∧
      targetPackets c.bandwidthBps c.size s.paced = 0) ∧
    (s.pc = .done → Ending c es s) := by
  rcases keepUp_of_reachable c hbw s ⟨es, hrun⟩ with ⟨hinv, hkeep⟩
  refine ⟨hkeep.caughtUp, ?_, ending_of_run c hbw es s hrun⟩
  intro hpc
  have hseq := hkeep.caughtUp (by rw [hpc, SendPc.between])
  by_cases hallowed : s.seq ≤ c.allowed s
  · exact Or.inl (awake_of_allowed c hbw s hinv hallowed)
  · -- More sent than allowed: the hello, and nothing was allowed so far.
    have hone := c.free_le
    have hfree : c.free ≠ 0 := by omega
    have hhello : c.sendsHello = true := by
      by_contra hnot
      exact hfree (by rw [Sender.free, if_neg hnot])
    have hnone : c.allowed s = 0 := by omega
    exact Or.inr ⟨hhello, by omega, hnone⟩

/-- A packet every eight nanoseconds: the client waits for the packet after its
    hello, is late for the second one, and then sends two at once. -/
theorem send_loop_keeps_up_late :
    let c := Client.runUdpUp .direct ipv4Max 100 16 16000000000
    let waiting := [.reading 0, .accepted, .reading 0, .reading 0, .reading 0]
    let late := waiting ++ [.reading 8, .reading 20, .reading 24, .reading 24, .reading 24,
      .accepted, .reading 25, .reading 25, .accepted]
    (runFrom c.step c.init waiting).map (fun s => (s.pc, s.seq)) = some (.sleep, 1) ∧
    (runFrom c.step c.init late).map (fun s => (s.pc, s.seq)) = some (.sleep, 3) ∧
    ∀ s, runFrom c.step c.init late = some s → s.pc = .sleep →
      s.seq = max c.free (targetPackets c.bandwidthBps c.size s.paced) ∧
      (s.seq ≠ 1 → c.awake s s.now) := by
  intro c waiting late
  refine ⟨by decide +kernel, by decide +kernel, ?_⟩
  intro s hrun hpc
  have hkeeps := send_loop_keeps_up c (by decide) late s hrun
  refine ⟨hkeeps.1 (by rw [hpc, SendPc.between]), ?_⟩
  intro hseq
  exact (hkeeps.2.1 hpc).resolve_right (fun hwait => hseq hwait.2.1)

end ProxyPen
