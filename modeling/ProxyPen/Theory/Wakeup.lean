import ProxyPen.Theory.Pacing

/-!
# Waking Up the Sender

When the pacer wakes a send loop, and whether there is something to send by
then. The loop sleeps until packet `seq` is due and goes on while `seq` is less
than the number of packets due. Counting from zero, `n` packets are due when
packet `n` is, so the sleep ends one packet interval before the loop condition
holds. A loop that wakes up on time finds nothing to send, and goes round
again without sleeping until the interval has passed.

## Main definitions

* `Pacer.Late`: A whole packet interval has passed beyond the due time.
* `OnTime`: The condition on a reading of the pacer.
* `SinceSleep`: What holds between two sleeps of a send loop.

## Theorems

* `lt_targetPackets_iff`: When the loop condition holds.
* `not_late_dueNs`: It never holds at the due time itself.
* `sinceSleep_step`: A step between two sleeps.
* `seq_lt_of_sleeps`: A loop that only sees late readings sends between sleeps.
* `wasted_pass_iff`: When one pass sends nothing.
* `wakeup_iff`: When waking up is followed by a send.
-/

namespace ProxyPen

open Protocol Socks Machine

namespace Pacer

/-- A whole packet interval has passed since packet `n` was due, and there is
    a number for the packet after it. -/
def Late (p : Pacer) (n elapsed : Nat) : Prop :=
  n < u64Max ∧ (n + 1) * (p.packetBytes * 8 * 1000000000) ≤ elapsed * p.bandwidthBps.toNat

instance (p : Pacer) (n elapsed : Nat) : Decidable (p.Late n elapsed) :=
  inferInstanceAs (Decidable (_ ∧ _))

/-- More than `n` packets are due exactly when packet `n` is late. -/
theorem lt_targetPackets_iff (p : Pacer) (hbw : p.bandwidthBps ≠ 0) (hpos : 0 < p.packetBytes)
    (hsize : p.packetBytes < 2 ^ 64) (n t : Nat) (ht : t < 2 ^ 64) :
    n < targetPackets p.bandwidthBps p.packetBytes t ↔ p.Late n t := by
  rw [targetPackets_eq hbw hpos hsize t ht, lt_min_iff, Late, and_comm,
    ← Nat.succ_le_iff (m := n) (n := _ / _), Nat.le_div_iff_mul_le (by omega)]

/-- The product under the due time may wrap, which only makes it smaller. -/
theorem dueNs_mul_le (p : Pacer) (n : Nat) :
    p.dueNs n * p.bandwidthBps.toNat ≤ n * (p.packetBytes * 8 * 1000000000) := by
  have hinner : u128Mul n (u128Mul p.packetBytes 8) ≤ n * (p.packetBytes * 8) :=
    Nat.le_trans (Nat.mod_le _ _) (Nat.mul_le_mul_left n (Nat.mod_le _ _))
  calc p.dueNs n * p.bandwidthBps.toNat
      ≤ u128Mul (u128Mul n (u128Mul p.packetBytes 8)) 1000000000 / p.bandwidthBps.toNat
          * p.bandwidthBps.toNat := Nat.mul_le_mul_right _ (Nat.min_le_left _ _)
    _ ≤ u128Mul (u128Mul n (u128Mul p.packetBytes 8)) 1000000000 := Nat.div_mul_le_self _ _
    _ ≤ u128Mul n (u128Mul p.packetBytes 8) * 1000000000 := Nat.mod_le _ _
    _ ≤ n * (p.packetBytes * 8) * 1000000000 := Nat.mul_le_mul_right _ hinner
    _ = n * (p.packetBytes * 8 * 1000000000) := by rw [Nat.mul_assoc]

/-- At its due time a packet is not late, whatever the rate and the size. -/
theorem not_late_dueNs (p : Pacer) (hpos : 0 < p.packetBytes) (n : Nat) :
    ¬ p.Late n (p.dueNs n) := by
  intro h
  have hdue := p.dueNs_mul_le n
  have hlt : n * (p.packetBytes * 8 * 1000000000) < (n + 1) * (p.packetBytes * 8 * 1000000000) :=
    Nat.mul_lt_mul_of_pos_right (Nat.lt_succ_self n) (by omega)
  have hlate := h.2
  omega

end Pacer

/-! ## The send loop between two sleeps -/

/-- A reading of the pacer at which the sleep would be over comes late. -/
def OnTime (c : Sender) (s : SendState) (e : SendEvent) : Prop :=
  ∀ t, s.pc = .due → e = .reading t → c.awake s t → (c.pacer s).Late s.seq (t - s.pacerStart)

instance (c : Sender) (s : SendState) : ∀ e, Decidable (OnTime c s e)
  | .reading t => decidable_of_iff
      (s.pc = .due → c.awake s t → (c.pacer s).Late s.seq (t - s.pacerStart))
      ⟨fun h _ hpc heq hawake => SendEvent.reading.inj heq ▸
          h hpc (SendEvent.reading.inj heq ▸ hawake),
        fun h hpc hawake => h t hpc rfl hawake⟩
  | .accepted => isTrue (fun _ _ heq => SendEvent.noConfusion heq)
  | .refused => isTrue (fun _ _ heq => SendEvent.noConfusion heq)

/-- A send loop that last slept with sequence number `k`: until it has sent, it
    is awake, and it sleeps again only after that. -/
def SinceSleep (c : Sender) (k : Nat) (s : SendState) : Prop :=
  match s.pc with
  | .top => k < s.seq ∨ s.seq = k ∧ c.awake s s.now
  | .due => k < s.seq ∨ s.seq = k ∧ c.awake s s.now
  | .check _ => k ≤ s.seq
  | .stamp _ => k ≤ s.seq
  | .send _ => k ≤ s.seq
  | .sleep => k < s.seq
  | .done => True
  | .failed => True
  | .panicked => True
  -- The opening of a loop is never repeated.
  | .start => False
  | .hello => False
  | .pacer => False

theorem awake_mono {c : Sender} {s : SendState} {t t' : Nat} (h : c.awake s t) (hle : t ≤ t') :
    c.awake s t' := by
  rcases h with h | h
  · exact Or.inl h
  · exact Or.inr (Nat.le_trans h hle)

theorem sinceSleep_step (c : Sender) (hbw : c.bandwidthBps ≠ 0) (k : Nat) (s : SendState)
    (e : SendEvent) (s' : SendState) (hon : OnTime c s e) (hstep : c.step s e = some s')
    (h : SinceSleep c k s) : SinceSleep c k s' := by
  unfold SinceSleep at h
  rcases sendMove_of_step c s e s' hstep with ⟨t, hpc, hnow, hmax⟩ | ⟨t, hpc, hnow, hmax⟩ |
    ⟨t, hpc, hnow, hmax⟩ | ⟨t, hpc, hnow, hmax⟩ | ⟨t, due, hpc, hnow, hmax⟩ |
    ⟨t, due, hpc, hnow, hmax⟩ | ⟨t, hpc, hnow, hmax, hawake⟩ | ⟨hpc, htakes⟩ | ⟨due, hpc, htakes⟩ |
    hpc | ⟨due, hpc⟩
  all_goals rw [hpc] at h
  case start => exact absurd h not_false
  case pacer => exact absurd h not_false
  case hello => exact absurd h not_false
  case helloRefused => exact absurd h not_false
  case top =>
    by_cases hover : c.deadline s ≤ t
    · rw [if_pos hover]
      trivial
    · rw [if_neg hover]
      rcases h with h | ⟨hseq, hawake⟩
      · exact Or.inl h
      · exact Or.inr ⟨hseq, awake_mono hawake hnow⟩
  case due =>
    by_cases hdue : s.seq < (c.pacer s).targetPacketsNow t
    · rw [Sender.guard, if_pos hdue]
      show k ≤ s.seq
      rcases h with h | ⟨hseq, -⟩
      · exact Nat.le_of_lt h
      · exact Nat.le_of_eq hseq.symm
    · rw [Sender.guard, if_neg hdue]
      rcases h with h | ⟨hseq, hawake⟩
      · exact h
      · -- Awake with nothing sent: the reading is late, and a packet is due after all.
        have hlate := hon t hpc rfl (awake_mono hawake hnow)
        have hlt : t - s.pacerStart < 2 ^ 64 := by
          simp only [clockMax] at hmax
          omega
        exact absurd (((c.pacer s).lt_targetPackets_iff hbw c.size_pos c.size_lt s.seq _ hlt).mpr
          hlate) hdue
  case check =>
    by_cases hover : c.deadline s ≤ t
    · rw [if_pos hover]
      trivial
    · rw [if_neg hover]
      exact h
  case stamp => exact h
  case wake => exact Or.inl h
  case send =>
    have hsent : k < s.seq + 1 := Nat.lt_succ_of_le h
    by_cases hmore : s.seq + 1 < due
    · rw [Sender.guard, if_pos hmore]
      exact Nat.le_of_lt hsent
    · rw [Sender.guard, if_neg hmore]
      exact hsent
  case sendRefused => trivial

/-- A sleeping loop can only wake up. -/
theorem wake_of_step (c : Sender) (u : SendState) (e : SendEvent) (s : SendState)
    (hu : u.pc = .sleep) (hstep : c.step u e = some s) :
    ∃ t, c.awake u t ∧ s = { u with pc := .top, now := t } := by
  cases e with
  | reading t =>
      simp only [Sender.step, Sender.onReading, hu, Option.ite_none_right_eq_some,
        Option.some.injEq] at hstep
      exact ⟨t, hstep.2.1, hstep.2.2.symm⟩
  | accepted => simp only [Sender.step, hu, ite_self, reduceCtorEq] at hstep
  | refused => simp only [Sender.step, hu, reduceCtorEq] at hstep

/-- A loop that has slept has sent before it sleeps again. -/
theorem seq_lt_of_sleeps (c : Sender) (hbw : c.bandwidthBps ≠ 0) (u v : SendState)
    (es : List SendEvent) (hne : es ≠ []) (hu : u.pc = .sleep) (hv : v.pc = .sleep)
    (hrun : runFrom c.step u es = some v) (hon : Meets c.step (OnTime c) u es) :
    u.seq < v.seq := by
  rcases es with _ | ⟨e, es⟩
  · exact absurd rfl hne
  rcases (runFrom_cons u v e es).mp hrun with ⟨s, hstep, hrest⟩
  -- The first step is the wake-up, and the rest of the run starts awake.
  have hwake : SinceSleep c u.seq s := by
    rcases wake_of_step c u e s hu hstep with ⟨t, hawake, rfl⟩
    exact Or.inr ⟨rfl, hawake⟩
  have hend := run_invariant_of_meets (OnTime c) (SinceSleep c u.seq)
    (fun s e s' hon hstep h => sinceSleep_step c hbw u.seq s e s' hon hstep h) es s v
    (hon.2 s hstep) hrest hwake
  unfold SinceSleep at hend
  rw [hv] at hend
  exact hend

/-- One pass of the loop before the deadline, from the sleep to the loop
    condition: it goes back to sleep exactly when the reading is not late. -/
theorem wasted_pass_iff (c : Sender) (hbw : c.bandwidthBps ≠ 0) (u : SendState)
    (hu : u.pc = .sleep) (t₁ t₂ t₃ : Nat) (hnow : u.now ≤ t₁) (h₁₂ : t₁ ≤ t₂) (h₂₃ : t₂ ≤ t₃)
    (hmax : t₃ ≤ clockMax) (hawake : c.awake u t₁) (hbefore : t₂ < c.deadline u) :
    ∃ v, runFrom c.step u [.reading t₁, .reading t₂, .reading t₃] = some v ∧ v.seq = u.seq ∧
      (v.pc = .sleep ↔ ¬ (c.pacer u).Late u.seq (t₃ - u.pacerStart)) := by
  have hwake : c.step u (.reading t₁) = some { u with pc := .top, now := t₁ } := by
    simp only [Sender.step, Sender.onReading, hu, if_pos hawake,
      if_pos (And.intro hnow (Nat.le_trans h₁₂ (Nat.le_trans h₂₃ hmax)))]
  have htop : c.step { u with pc := .top, now := t₁ } (.reading t₂)
      = some { u with pc := .due, now := t₂ } := by
    have hover : ¬ c.deadline { u with pc := .top, now := t₁ } ≤ t₂ := Nat.not_le.mpr hbefore
    simp only [Sender.step, Sender.onReading, if_neg hover,
      if_pos (And.intro h₁₂ (Nat.le_trans h₂₃ hmax))]
  have hdue : c.step { u with pc := .due, now := t₂ } (.reading t₃)
      = some { u with
          pc := Sender.guard u.seq ((c.pacer u).targetPacketsNow t₃)
          now := t₃
          paced := t₃ - u.pacerStart } := by
    simp only [Sender.step, Sender.onReading, if_pos (And.intro h₂₃ hmax)]
    rfl
  have hrun : runFrom c.step u [.reading t₁, .reading t₂, .reading t₃]
      = some { u with
          pc := Sender.guard u.seq ((c.pacer u).targetPacketsNow t₃)
          now := t₃
          paced := t₃ - u.pacerStart } := by
    simp only [runFrom, hwake, htop, hdue]
  refine ⟨_, hrun, rfl, ?_⟩
  have hlt : t₃ - u.pacerStart < 2 ^ 64 := by
    simp only [clockMax] at hmax
    omega
  have hiff := (c.pacer u).lt_targetPackets_iff hbw c.size_pos c.size_lt u.seq _ hlt
  rw [← hiff]
  by_cases hless : u.seq < (c.pacer u).targetPacketsNow t₃
  · rw [Sender.guard, if_pos hless]
    exact iff_of_false (by simp only [reduceCtorEq, not_false_eq_true]) (not_not.mpr hless)
  · rw [Sender.guard, if_neg hless]
    exact iff_of_true rfl hless

/-- When waking up is followed by a send. For no rate, size and index is packet
    `n` due, in the sense of the loop condition, at every reading from its due
    time on: it is not due at that time itself. It is due at the readings that
    come late. A pass before the deadline is wasted when its reading is not
    late, and a loop that only sees late readings sends between any two sleeps. -/
theorem wakeup_iff (bandwidthBps : UInt64) (hbw : bandwidthBps ≠ 0) :
    (∀ p : Pacer, p.bandwidthBps = bandwidthBps → 0 < p.packetBytes → p.packetBytes < 2 ^ 64 →
      ∀ n,
        (p.start + p.dueNs n ≤ clockMax →
          ¬ (∀ now, p.start + p.dueNs n ≤ now → now ≤ clockMax → n < p.targetPacketsNow now) ∧
          ¬ n < p.targetPacketsNow (p.start + p.dueNs n)) ∧
        (∀ now, p.start ≤ now → now ≤ clockMax →
          ((p.start + p.dueNs n ≤ now → n < p.targetPacketsNow now) ↔
            (now < p.start + p.dueNs n ∨ p.Late n (now - p.start))))) ∧
    (∀ (c : Sender) (u : SendState), c.bandwidthBps = bandwidthBps → c.Reachable u →
      u.pc = .sleep →
      (∀ t₁ t₂ t₃, u.now ≤ t₁ → t₁ ≤ t₂ → t₂ ≤ t₃ → t₃ ≤ clockMax → c.awake u t₁ →
        t₂ < c.deadline u →
        ∃ v, runFrom c.step u [.reading t₁, .reading t₂, .reading t₃] = some v ∧
          v.seq = u.seq ∧ (v.pc = .sleep ↔ ¬ (c.pacer u).Late u.seq (t₃ - u.pacerStart))) ∧
      (∀ (es : List SendEvent) (v : SendState), es ≠ [] → runFrom c.step u es = some v →
        v.pc = .sleep → Meets c.step (OnTime c) u es → u.seq < v.seq)) := by
  refine ⟨?_, ?_⟩
  · intro p hp hpos hsize n
    have hlate : ∀ now, now ≤ clockMax →
        (n < p.targetPacketsNow now ↔ p.Late n (now - p.start)) := by
      intro now hmax
      refine p.lt_targetPackets_iff (hp ▸ hbw) hpos hsize n _ ?_
      simp only [clockMax] at hmax
      omega
    refine ⟨fun hmax => ?_, ?_⟩
    · have hdue : ¬ n < p.targetPacketsNow (p.start + p.dueNs n) := by
        rw [hlate _ hmax, Nat.add_sub_cancel_left]
        exact p.not_late_dueNs hpos n
      exact ⟨fun hall => hdue (hall _ (Nat.le_refl _) hmax), hdue⟩
    · intro now _ hmax
      rw [hlate now hmax, imp_iff_not_or, Nat.not_le]
  · intro c u hc _ hu
    refine ⟨?_, ?_⟩
    · intro t₁ t₂ t₃ hnow h₁₂ h₂₃ hmax hawake hbefore
      exact wasted_pass_iff c (hc ▸ hbw) u hu t₁ t₂ t₃ hnow h₁₂ h₂₃ hmax hawake hbefore
    · intro es v hne hrun hv hon
      exact seq_lt_of_sleeps c (hc ▸ hbw) u v es hne hu hv hrun hon

/-- One megabit per second in packets of a thousand bytes: packet five, and the
    server's loop sending its first packet after a sleep of 8 milliseconds. -/
theorem wakeup_iff_megabit :
    let p : Pacer := ⟨1000000, 1000, 0⟩
    let c := Server.runUdpDown ipv4Max ⟨kindUdpDown, 10000, 1000, 1000000, 0⟩
    let asleep := { c.init with pc := .sleep }
    let pass := List.replicate 5 (.reading 8000000) ++ [.accepted]
    (p.dueNs 5 = 40000000 ∧ ¬ 5 < p.targetPacketsNow (p.start + p.dueNs 5) ∧
      5 < p.targetPacketsNow 48000000) ∧
    (∃ v, runFrom c.step asleep [.reading 0, .reading 0, .reading 0] = some v ∧ v.seq = 0 ∧
      v.pc = .sleep) ∧
    (∀ v, runFrom c.step asleep pass = some v → v.pc = .sleep → 0 < v.seq) ∧
    (runFrom c.step asleep pass).map SendState.pc = some .sleep := by
  intro p c asleep pass
  have hreach : c.Reachable asleep := ⟨List.replicate 4 (.reading 0), by decide +kernel⟩
  have hrate := wakeup_iff 1000000 (by decide)
  have hpacer := hrate.1 p rfl (by decide) (by decide) 5
  have hloop := hrate.2 c asleep rfl hreach rfl
  refine ⟨⟨by decide, (hpacer.1 (by decide)).2, ?_⟩, ?_, ?_, by decide +kernel⟩
  · exact (hpacer.2 48000000 (by decide) (by decide)).mpr (Or.inr (by decide)) (by decide)
  · rcases hloop.1 0 0 0 (by decide) (by omega) (by omega) (by omega) (by decide) (by decide)
      with ⟨v, hrun, hseq, hsleep⟩
    exact ⟨v, hrun, hseq, hsleep.mpr (by decide)⟩
  · intro v hrun hv
    exact hloop.2 pass v (List.cons_ne_nil _ _) hrun hv (by decide +kernel)

/-- The test of the pacer sleeps until packet five is due, at 40 milliseconds.
    Five packets are due then, not six. At the same rate the server's loop goes
    from one sleep to the next without sending, and without time passing. -/
theorem idle_wakeup :
    let p : Pacer := ⟨1000000, 1000, 0⟩
    let c := Server.runUdpDown ipv4Max ⟨kindUdpDown, 10000, 1000, 1000000, 0⟩
    (¬ ∀ now, p.start + p.dueNs 5 ≤ now → 5 < p.targetPacketsNow now) ∧
    ∃ u v, runFrom c.step c.init (List.replicate 4 (.reading 0)) = some u ∧ u.pc = .sleep ∧
      runFrom c.step u (List.replicate 3 (.reading 0)) = some v ∧ v.pc = .sleep ∧
      v.now < c.deadline v ∧ v.sent = u.sent ∧ v.seq = u.seq := by
  intro p c
  refine ⟨?_, ?_⟩
  · intro h
    exact absurd (h 40000000 (by decide)) (by decide)
  · exact ⟨{ c.init with pc := .sleep }, { c.init with pc := .sleep }, by decide +kernel, rfl,
      by decide +kernel, rfl, by decide, rfl, rfl⟩

end ProxyPen
