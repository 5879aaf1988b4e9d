import ProxyPen.Theory.KeepUp

/-!
# Delivered Rate

How much a send loop sends in its time, and how long that takes. Everything a
loop does between two observations is assumed to take at most `δ`: a reading
of the clock comes at most `δ` after the one before it, or after the instant
the loop sleeps until.

The sends of a batch take time too, two readings each, so a large batch makes
the loop late and the next batch larger. Batches stay within `N` packets when
a pass of the loop with `N` sends is shorter than `N` packets at the target
rate. Then the loop is never late by more than such a pass, and what it has
sent at the deadline is the target of the test's duration, up to `N` packets
and one pass.

The duration itself is kept up to three observations, with one exception. The
client waits for the packet after its hello without looking at the deadline.

## Main definitions

* `Sender.ready`: When a loop can make its next observation.
* `Prompt`: No observation is late.
* `Sender.latest`: The latest instant at each program point.
* `OnPace`: A loop that is at most a pass behind.

## Theorems

* `inTime_step`, `onPace_step`: One step of a prompt run.
* `duration_kept`: How long a loop runs.
* `rate_delivered`: How much it sends.
-/

namespace ProxyPen

open Protocol Socks Machine Pacer

/-- When a loop can make its next observation: now, or once its sleep is over. -/
def Sender.ready (c : Sender) (s : SendState) : Nat :=
  if s.pc = .sleep then max s.now (min (s.pacerStart + (c.pacer s).dueNs s.seq) clockMax)
  else s.now

/-- No reading of a running loop comes more than `δ` late. -/
def Prompt (c : Sender) (δ : Nat) (s : SendState) : SendEvent → Prop
  | .reading t => s.pc = .start ∨ t ≤ c.ready s + δ
  | _ => True

instance (c : Sender) (δ : Nat) (s : SendState) : ∀ e, Decidable (Prompt c δ s e)
  | .reading t => inferInstanceAs (Decidable (s.pc = .start ∨ t ≤ c.ready s + δ))
  | .accepted => isTrue trivial
  | .refused => isTrue trivial

/-- Away from the sleep, a reading is at most `δ` after the one before it. -/
theorem Prompt.reading_le {c : Sender} {δ : Nat} {s : SendState} {t : Nat}
    (h : Prompt c δ s (.reading t)) (hstart : s.pc ≠ .start) (hsleep : s.pc ≠ .sleep) :
    t ≤ s.now + δ := by
  have hle := h.resolve_left hstart
  rwa [Sender.ready, if_neg hsleep] at hle

/-! ## How long a loop runs -/

/-- The end of a test: its deadline, or the client's wait behind its hello. -/
def Sender.closing (c : Sender) (δ : Nat) (s : SendState) : Nat :=
  max (c.deadline s + δ) (s.pacerStart + (c.pacer s).dueNs c.free)

/-- The latest instant at each program point. -/
def Sender.latest (c : Sender) (δ : Nat) (s : SendState) : Nat :=
  match s.pc with
  | .start => s.now
  | .hello => s.sessionStart
  | .pacer => s.sessionStart
  | .failed => s.sessionStart
  | .panicked => s.sessionStart
  -- These two directly follow a deadline test.
  | .due => c.deadline s
  | .stamp _ => c.deadline s
  | .check _ => c.deadline s + δ
  | .send _ => c.deadline s + δ
  | .sleep => c.deadline s + δ
  | .top => c.closing δ s + δ
  | .done => c.closing δ s + 2 * δ

/-- The program points before the first pass. -/
def SendPc.opening : SendPc → Bool
  | .start => true
  | .hello => true
  | .pacer => true
  | .failed => true
  | .panicked => true
  | _ => false

/-- A loop that is in time: at its program point, and with its pacer. -/
structure InTime (c : Sender) (δ : Nat) (s : SendState) : Prop where
  now_le : s.now ≤ c.latest δ s
  pacer_ge : s.pc.opening = false → s.sessionStart ≤ s.pacerStart
  pacer_le : s.pc.opening = false → s.pacerStart ≤ s.sessionStart + δ
  paced_le : s.paced ≤ c.durationNs + δ

/-- Before its first pass a loop has no pacer to be in time with. -/
theorem inTime_of_opening {c : Sender} {δ : Nat} {s : SendState} (hopen : s.pc.opening = true)
    (hpaced : s.paced ≤ c.durationNs + δ) (hnow : s.now ≤ c.latest δ s) : InTime c δ s where
  now_le := hnow
  paced_le := hpaced
  pacer_ge h := by
    rw [hopen] at h
    cases h
  pacer_le h := by
    rw [hopen] at h
    cases h

theorem inTime_init (c : Sender) (δ : Nat) : InTime c δ c.init :=
  inTime_of_opening rfl (Nat.zero_le _) (Nat.le_refl _)

/-- A running loop keeps its starts, so only the clock has to be looked at. -/
theorem InTime.move {c : Sender} {δ : Nat} {s : SendState} (h : InTime c δ s) (s' : SendState)
    (hopen : s.pc.opening = false) (hsession : s'.sessionStart = s.sessionStart)
    (hpacer : s'.pacerStart = s.pacerStart) (hpaced : s'.paced ≤ c.durationNs + δ)
    (hnow : s'.now ≤ c.latest δ s') : InTime c δ s' where
  now_le := hnow
  paced_le := hpaced
  pacer_ge _ := by
    rw [hsession, hpacer]
    exact h.pacer_ge hopen
  pacer_le _ := by
    rw [hsession, hpacer]
    exact h.pacer_le hopen

theorem latest_guard (c : Sender) (δ : Nat) (s : SendState) {seq due : Nat}
    (hpc : s.pc = Sender.guard seq due) : c.latest δ s = c.deadline s + δ := by
  unfold Sender.guard at hpc
  unfold Sender.latest
  split at hpc
  · rw [hpc]
  · rw [hpc]

/-- The sleep of a loop that has caught up is over, or it is the client's wait
    behind its hello. -/
theorem ready_le_closing (c : Sender) (δ : Nat) (s : SendState) (hpc : s.pc = .sleep)
    (hinv : SendInv c s) (hkeep : c.bandwidthBps ≠ 0 → KeepUp c s) (h : InTime c δ s) :
    c.ready s ≤ c.closing δ s := by
  have hnow : s.now ≤ c.deadline s + δ := by
    simpa only [Sender.latest, hpc] using h.now_le
  rw [Sender.ready, if_pos hpc]
  refine Nat.max_le.mpr ⟨Nat.le_trans hnow (Nat.le_max_left _ _), ?_⟩
  by_cases hbw : c.bandwidthBps = 0
  · -- Without a limit nothing is ever due later.
    have hdue : (c.pacer s).dueNs s.seq = 0 := by
      rw [Pacer.dueNs, Sender.pacer, hbw, UInt64.toNat_zero, Nat.div_zero, Nat.zero_min]
    have hstart := hinv.pacer_le
    rw [hdue, Nat.add_zero]
    exact Nat.le_trans (Nat.min_le_left _ _)
      (Nat.le_trans hstart (Nat.le_trans hnow (Nat.le_max_left _ _)))
  have hseq := (hkeep hbw).caughtUp (by rw [hpc, SendPc.between])
  by_cases hallowed : s.seq ≤ c.allowed s
  · have hawake := (awake_of_allowed c hbw s hinv hallowed).resolve_left hbw
    exact Nat.le_trans hawake (Nat.le_trans hnow (Nat.le_max_left _ _))
  · have hfree : s.seq = c.free := by omega
    rw [hfree]
    exact Nat.le_trans (Nat.min_le_left _ _) (Nat.le_max_right _ _)

theorem inTime_step (c : Sender) (δ : Nat) (s : SendState) (e : SendEvent) (s' : SendState)
    (hprompt : Prompt c δ s e) (hstep : c.step s e = some s') (hinv : SendInv c s)
    (hkeep : c.bandwidthBps ≠ 0 → KeepUp c s) (h : InTime c δ s) : InTime c δ s' := by
  have hclosing : c.deadline s + δ ≤ c.closing δ s := Nat.le_max_left _ _
  cases sendMove_of_step c s e s' hstep with
  | start t hpc hnow hmax =>
      by_cases hhello : c.sendsHello = true
      · rw [if_pos hhello]
        exact inTime_of_opening rfl h.paced_le (Nat.le_refl t)
      · rw [if_neg hhello]
        exact inTime_of_opening rfl h.paced_le (Nat.le_refl t)
  | hello hpc hsize =>
      have hle : s.now ≤ s.sessionStart := by simpa only [Sender.latest, hpc] using h.now_le
      exact inTime_of_opening rfl h.paced_le hle
  | helloRefused hpc =>
      have hle : s.now ≤ s.sessionStart := by simpa only [Sender.latest, hpc] using h.now_le
      split
      · exact inTime_of_opening rfl h.paced_le hle
      · exact inTime_of_opening rfl h.paced_le hle
  | pacer t hpc hnow hmax =>
      have hle : s.now ≤ s.sessionStart := by simpa only [Sender.latest, hpc] using h.now_le
      have ht := hprompt.reading_le (by rw [hpc]; exact SendPc.noConfusion)
        (by rw [hpc]; exact SendPc.noConfusion)
      have hsession := hinv.session_le
      constructor
      case now_le =>
        -- The session and the pacer start within one observation of each other.
        have hdeadline : s.sessionStart ≤ c.deadline s := Nat.le_add_right _ _
        have hmax' : c.deadline s + δ
            ≤ c.closing δ { s with pc := .top, now := t, pacerStart := t } := Nat.le_max_left _ _
        show t ≤ _ + δ
        omega
      case pacer_ge => exact fun _ => Nat.le_trans hsession hnow
      case paced_le => exact h.paced_le
      case pacer_le =>
        intro _
        show t ≤ s.sessionStart + δ
        omega
  | top t hpc hnow hmax =>
      have hle : s.now ≤ c.closing δ s + δ := by simpa only [Sender.latest, hpc] using h.now_le
      have ht := hprompt.reading_le (by rw [hpc]; exact SendPc.noConfusion)
        (by rw [hpc]; exact SendPc.noConfusion)
      refine h.move _ (hpc ▸ rfl) rfl rfl h.paced_le ?_
      by_cases hover : c.deadline s ≤ t
      · rw [if_pos hover]
        show t ≤ c.closing δ s + 2 * δ
        omega
      · rw [if_neg hover]
        exact Nat.le_of_not_le hover
  | due t hpc hnow hmax =>
      have hle : s.now ≤ c.deadline s := by simpa only [Sender.latest, hpc] using h.now_le
      have ht := hprompt.reading_le (by rw [hpc]; exact SendPc.noConfusion)
        (by rw [hpc]; exact SendPc.noConfusion)
      have hpacer := h.pacer_ge (hpc ▸ rfl)
      have hdeadline : c.deadline s = s.sessionStart + c.durationNs := rfl
      refine h.move _ (hpc ▸ rfl) rfl rfl ?_ ?_
      · show t - s.pacerStart ≤ c.durationNs + δ
        omega
      · rw [latest_guard c δ _ rfl]
        show t ≤ c.deadline s + δ
        omega
  | check t due hpc hnow hmax =>
      have hle : s.now ≤ c.deadline s + δ := by simpa only [Sender.latest, hpc] using h.now_le
      have ht := hprompt.reading_le (by rw [hpc]; exact SendPc.noConfusion)
        (by rw [hpc]; exact SendPc.noConfusion)
      refine h.move _ (hpc ▸ rfl) rfl rfl h.paced_le ?_
      by_cases hover : c.deadline s ≤ t
      · rw [if_pos hover]
        show t ≤ c.closing δ s + 2 * δ
        omega
      · rw [if_neg hover]
        exact Nat.le_of_not_le hover
  | stamp t due hpc hnow hmax =>
      have hle : s.now ≤ c.deadline s := by simpa only [Sender.latest, hpc] using h.now_le
      have ht := hprompt.reading_le (by rw [hpc]; exact SendPc.noConfusion)
        (by rw [hpc]; exact SendPc.noConfusion)
      refine h.move _ (hpc ▸ rfl) rfl rfl h.paced_le ?_
      show t ≤ c.deadline s + δ
      omega
  | wake t hpc hnow hmax hawake =>
      have ht := hprompt.resolve_left (by rw [hpc]; exact SendPc.noConfusion)
      have hready := ready_le_closing c δ s hpc hinv hkeep h
      refine h.move _ (hpc ▸ rfl) rfl rfl h.paced_le ?_
      exact Nat.le_trans ht (Nat.add_le_add_right hready δ)
  | send due hpc hsize =>
      have hle : s.now ≤ c.deadline s + δ := by simpa only [Sender.latest, hpc] using h.now_le
      refine h.move _ (hpc ▸ rfl) rfl rfl h.paced_le ?_
      rw [latest_guard c δ _ rfl]
      exact hle
  | sendRefused due hpc =>
      have hle : s.now ≤ c.deadline s + δ := by simpa only [Sender.latest, hpc] using h.now_le
      refine h.move _ (hpc ▸ rfl) rfl rfl h.paced_le ?_
      show s.now ≤ c.closing δ s + 2 * δ
      omega

/-- What is known of every state of a prompt run. -/
structure OnTrack (c : Sender) (δ : Nat) (s : SendState) : Prop where
  paced : SendInv c s
  keeps : c.bandwidthBps ≠ 0 → KeepUp c s
  inTime : InTime c δ s

theorem onTrack_init (c : Sender) (δ : Nat) : OnTrack c δ c.init :=
  ⟨sendInv_init c, fun _ => keepUp_init c, inTime_init c δ⟩

theorem onTrack_step (c : Sender) (δ : Nat) (s : SendState) (e : SendEvent) (s' : SendState)
    (hprompt : Prompt c δ s e) (hstep : c.step s e = some s') (h : OnTrack c δ s) :
    OnTrack c δ s' where
  paced := sendInv_step c s e s' hstep h.paced
  keeps hbw := keepUp_step c hbw s e s' hstep h.paced (h.keeps hbw)
  inTime := inTime_step c δ s e s' hprompt hstep h.paced h.keeps h.inTime

/-- In every state of a prompt run of a send loop, at most three observations
    more than its duration have passed since the session started. Only the
    client, where its second packet is due later than that, waits for it. -/
theorem duration_kept (c : Sender) (δ : Nat) (es : List SendEvent) (s : SendState)
    (hrun : runFrom c.step c.init es = some s)
    (hprompt : Meets c.step (Prompt c δ) c.init es) (hpc : s.pc ≠ .start) :
    s.now ≤ s.sessionStart + max c.durationNs ((c.pacer s).dueNs c.free) + 3 * δ := by
  have htrack := run_invariant_of_meets (Prompt c δ) (OnTrack c δ)
    (fun s e s' hp hs h => onTrack_step c δ s e s' hp hs h) es c.init s hprompt hrun
    (onTrack_init c δ)
  have hle := htrack.inTime.now_le
  have hdeadline : c.deadline s = s.sessionStart + c.durationNs := rfl
  have hclosing : c.closing δ s
      = max (c.deadline s + δ) (s.pacerStart + (c.pacer s).dueNs c.free) := rfl
  have hpacer := htrack.inTime.pacer_le
  cases hat : s.pc with
  | start => exact absurd hat hpc
  | top =>
      have hstart := hpacer (hat ▸ rfl)
      simp only [Sender.latest, hat] at hle
      omega
  | done =>
      have hstart := hpacer (hat ▸ rfl)
      simp only [Sender.latest, hat] at hle
      omega
  | _ =>
      simp only [Sender.latest, hat] at hle
      omega

/-- A client with a packet every eight nanoseconds and an observation every
    two: it ends five nanoseconds after its deadline. -/
theorem duration_kept_client :
    let c := Client.runUdpUp .direct ipv4Max 25 16 16000000000
    let es := [.reading 0, .accepted, .reading 2, .reading 4, .reading 6, .reading 12, .reading 14,
      .reading 16, .reading 18, .reading 20, .reading 22, .reading 24, .reading 26, .accepted,
      .reading 28, .reading 30]
    (runFrom c.step c.init es).map (fun s => (s.pc, s.now)) = some (.done, 30) ∧
    ∀ s, runFrom c.step c.init es = some s → s.pc ≠ .start →
      s.now ≤ s.sessionStart + max 25 ((c.pacer s).dueNs c.free) + 3 * 2 := by
  intro c es
  refine ⟨by decide +kernel, ?_⟩
  intro s hrun hpc
  exact duration_kept c 2 es s hrun (by decide +kernel) hpc

/-! ## How much a loop sends -/

/-- The loop has sent what was due at some time of the pacer, and no more than
    `lag` has passed since. -/
def Lag (c : Sender) (s : SendState) (lag : Nat) : Prop :=
  ∃ a, a < 2 ^ 64 ∧ targetPackets c.bandwidthBps c.size a ≤ s.seq ∧
    s.now ≤ s.pacerStart + a + lag

/-- Inside a batch: `due - seq` packets are left, each takes two observations,
    and `n` packets are as many as a batch has. -/
def InBatch (s : SendState) (δ n due k : Nat) : Prop :=
  due ≤ s.seq + n ∧ s.now + (due - s.seq) * (2 * δ) ≤ s.pacerStart + s.paced + (2 * n + k) * δ

/-- A loop that is at most a pass of `n` sends behind. -/
def OnPace (c : Sender) (δ n : Nat) (s : SendState) : Prop :=
  match s.pc with
  | .start => True
  | .hello => True
  | .pacer => True
  | .failed => True
  | .panicked => True
  | .sleep => Lag c s (2 * n * δ)
  | .top => Lag c s ((2 * n + 1) * δ)
  | .due => Lag c s ((2 * n + 2) * δ)
  | .check due => InBatch s δ n due 0
  | .stamp due => InBatch s δ n due 1
  | .send due => InBatch s δ n due 2
  -- Up to `n` packets of a batch cut short are missing.
  | .done => ∃ a, a < 2 ^ 64 ∧ targetPackets c.bandwidthBps c.size a ≤ s.seq + n ∧
      c.deadline s ≤ s.pacerStart + a + (2 * n + 2) * δ

/-- A pass of the loop with `n` sends is shorter than `n` packets at the target
    rate. -/
def FastEnough (c : Sender) (δ n : Nat) : Prop :=
  (2 * n + 3) * δ * c.bandwidthBps.toNat < n * costNs c.size

instance (c : Sender) (δ n : Nat) : Decidable (FastEnough c δ n) :=
  inferInstanceAs (Decidable (_ < _))

/-- Then no more than `n` packets become due in a pass. -/
theorem targetPackets_le_add (c : Sender) (hbw : c.bandwidthBps ≠ 0) {δ n a t : Nat}
    (hfast : FastEnough c δ n) (ha : a < 2 ^ 64) (ht : t < 2 ^ 64) (hle : t ≤ a + (2 * n + 3) * δ) :
    targetPackets c.bandwidthBps c.size t ≤ targetPackets c.bandwidthBps c.size a + n := by
  rw [targetPackets_eq_count hbw c.size_pos c.size_lt ht,
    targetPackets_eq_count hbw c.size_pos c.size_lt ha]
  exact Rate.count_le_add hfast hle

/-- The loop condition against an answer of the pacer, after sending up to
    `seq`. -/
theorem onPace_guard (c : Sender) (δ n : Nat) (s : SendState) (due : Nat)
    (hpaced : s.paced < 2 ^ 64) (hdue : due = c.allowed s) (h : InBatch s δ n due 0) :
    OnPace c δ n { s with pc := Sender.guard s.seq due } := by
  unfold Sender.guard
  by_cases hless : s.seq < due
  · rw [if_pos hless]
    exact h
  · rw [if_neg hless]
    have hseq : c.allowed s ≤ s.seq := hdue ▸ Nat.not_lt.mp hless
    -- Nothing is left of the batch, so the loop is as late as the whole batch.
    have hnow := h.2
    rw [Nat.sub_eq_zero_of_le (Nat.not_lt.mp hless), Nat.zero_mul, Nat.add_zero, Nat.add_zero]
      at hnow
    exact ⟨s.paced, hpaced, hseq, hnow⟩

/-- Waking up is one observation after the sleep, or one after the instant at
    which the packets sent are all that is due. -/
theorem lag_wake (c : Sender) (hbw : c.bandwidthBps ≠ 0) (δ n : Nat) (s : SendState) (t : Nat)
    (hpc : s.pc = .sleep) (ht : t ≤ c.ready s + δ) (h : Lag c s (2 * n * δ)) :
    Lag c { s with pc := .top, now := t } ((2 * n + 1) * δ) := by
  rcases h with ⟨a, ha, hseq, hnow⟩
  have hlag : (2 * n + 1) * δ = 2 * n * δ + δ := by rw [Nat.add_mul, Nat.one_mul]
  rw [Sender.ready, if_pos hpc] at ht
  rcases Nat.le_total (min (s.pacerStart + (c.pacer s).dueNs s.seq) clockMax) s.now with hle | hle
  · rw [Nat.max_eq_left hle] at ht
    refine ⟨a, ha, hseq, ?_⟩
    show t ≤ s.pacerStart + a + (2 * n + 1) * δ
    omega
  · rw [Nat.max_eq_right hle] at ht
    have hdue : (c.pacer s).dueNs s.seq < 2 ^ 64 :=
      Nat.lt_of_le_of_lt (Nat.min_le_right _ _) (by decide)
    refine ⟨(c.pacer s).dueNs s.seq, hdue, ?_, ?_⟩
    · -- At its due time packet `seq` is not late, so no more than `seq` are due.
      have hlate := (c.pacer s).not_late_dueNs c.size_pos s.seq
      rw [← (c.pacer s).lt_targetPackets_iff hbw c.size_pos c.size_lt s.seq _ hdue] at hlate
      exact Nat.not_lt.mp hlate
    · have hmin := Nat.min_le_left (s.pacerStart + (c.pacer s).dueNs s.seq) clockMax
      show t ≤ s.pacerStart + (c.pacer s).dueNs s.seq + (2 * n + 1) * δ
      omega

theorem onPace_step (c : Sender) (hbw : c.bandwidthBps ≠ 0) (δ n : Nat)
    (hfast : FastEnough c δ n) (s : SendState) (e : SendEvent) (s' : SendState)
    (hprompt : Prompt c δ s e) (hsent : e ≠ .refused) (hstep : c.step s e = some s')
    (htrack : OnTrack c δ s) (h : OnPace c δ n s) : OnPace c δ n s' := by
  have hinv := htrack.paced
  have hinv' := sendInv_step c s e s' hstep hinv
  have hmul0 : (2 * n + 0) * δ = 2 * n * δ := by rw [Nat.add_zero]
  have hmul1 : (2 * n + 1) * δ = 2 * n * δ + δ := by rw [Nat.add_mul, Nat.one_mul]
  have hmul2 : (2 * n + 2) * δ = 2 * n * δ + 2 * δ := Nat.add_mul _ _ _
  have hmul3 : (2 * n + 3) * δ = 2 * n * δ + 3 * δ := Nat.add_mul _ _ _
  unfold OnPace at h
  cases sendMove_of_step c s e s' hstep with
  | start t hpc hnow hmax =>
      by_cases hhello : c.sendsHello = true
      · rw [if_pos hhello]
        trivial
      · rw [if_neg hhello]
        trivial
  | hello hpc hsize => trivial
  | helloRefused hpc => trivial
  | sendRefused due hpc => exact absurd rfl hsent
  | pacer t hpc hnow hmax =>
      have hnone : targetPackets c.bandwidthBps c.size 0 = 0 := by
        rw [targetPackets_eq hbw c.size_pos c.size_lt 0 (by omega), Nat.zero_mul, Nat.zero_div,
          Nat.zero_min]
      refine ⟨0, by omega, ?_, ?_⟩
      · rw [hnone]
        exact Nat.zero_le _
      · show t ≤ t + 0 + _
        omega
  | top t hpc hnow hmax =>
      have ht := hprompt.reading_le (by rw [hpc]; exact SendPc.noConfusion)
        (by rw [hpc]; exact SendPc.noConfusion)
      rw [hpc] at h
      rcases h with ⟨a, ha, hseq, hlag⟩
      by_cases hover : c.deadline s ≤ t
      · rw [if_pos hover]
        refine ⟨a, ha, Nat.le_trans hseq (Nat.le_add_right _ _), ?_⟩
        show c.deadline s ≤ s.pacerStart + a + _
        omega
      · rw [if_neg hover]
        refine ⟨a, ha, hseq, ?_⟩
        show t ≤ s.pacerStart + a + _
        omega
  | due t hpc hnow hmax =>
      have ht := hprompt.reading_le (by rw [hpc]; exact SendPc.noConfusion)
        (by rw [hpc]; exact SendPc.noConfusion)
      rw [hpc] at h
      rcases h with ⟨a, ha, hseq, hlag⟩
      have hlt : t - s.pacerStart < 2 ^ 64 := by
        unfold clockMax at hmax
        omega
      have hbatch := targetPackets_le_add c hbw hfast ha hlt (by omega)
      have hstart := hinv.pacer_le
      have hdue : (c.pacer s).targetPacketsNow t ≤ s.seq + n :=
        Nat.le_trans hbatch (Nat.add_le_add_right hseq n)
      refine onPace_guard c δ n { s with now := t, paced := t - s.pacerStart } _ hlt rfl ⟨hdue, ?_⟩
      have hleft : ((c.pacer s).targetPacketsNow t - s.seq) * (2 * δ) ≤ n * (2 * δ) :=
        Nat.mul_le_mul_right _ (by omega)
      have hswap : n * (2 * δ) = 2 * n * δ := by ring
      show t + ((c.pacer s).targetPacketsNow t - s.seq) * (2 * δ)
        ≤ s.pacerStart + (t - s.pacerStart) + (2 * n + 0) * δ
      omega
  | check t due hpc hnow hmax =>
      have ht := hprompt.reading_le (by rw [hpc]; exact SendPc.noConfusion)
        (by rw [hpc]; exact SendPc.noConfusion)
      rw [hpc] at h
      rcases h with ⟨hdue, hlag⟩
      by_cases hover : c.deadline s ≤ t
      · rw [if_pos hover]
        rcases hinv.due_eq due (by rw [hpc, SendPc.due?]) with ⟨rfl, -⟩
        refine ⟨s.paced, hinv.paced_lt, hdue, ?_⟩
        show c.deadline s ≤ s.pacerStart + s.paced + _
        omega
      · rw [if_neg hover]
        refine ⟨hdue, ?_⟩
        show t + (due - s.seq) * (2 * δ) ≤ s.pacerStart + s.paced + _
        omega
  | stamp t due hpc hnow hmax =>
      have ht := hprompt.reading_le (by rw [hpc]; exact SendPc.noConfusion)
        (by rw [hpc]; exact SendPc.noConfusion)
      rw [hpc] at h
      rcases h with ⟨hdue, hlag⟩
      refine ⟨hdue, ?_⟩
      show t + (due - s.seq) * (2 * δ) ≤ s.pacerStart + s.paced + _
      omega
  | wake t hpc hnow hmax hawake =>
      have ht := hprompt.resolve_left (by rw [hpc]; exact SendPc.noConfusion)
      rw [hpc] at h
      exact lag_wake c hbw δ n s t hpc ht h
  | send due hpc hsize =>
      rw [hpc] at h
      rcases h with ⟨hbatch, hlag⟩
      rcases hinv.due_eq due (by rw [hpc, SendPc.due?]) with ⟨hdue, hless⟩
      refine onPace_guard c δ n
        { s with bytes := s.bytes + c.size, seq := s.seq + 1, sent := s.sent ++ [s.buf] } due
        hinv.paced_lt hdue ⟨Nat.le_trans hbatch (Nat.add_le_add_right (Nat.le_succ _) n), ?_⟩
      -- The packet took the two observations of its share.
      have hleft : (due - s.seq) * (2 * δ) = (due - (s.seq + 1)) * (2 * δ) + 2 * δ := by
        rw [show due - s.seq = due - (s.seq + 1) + 1 by omega, Nat.add_mul, Nat.one_mul]
      show s.now + (due - (s.seq + 1)) * (2 * δ) ≤ s.pacerStart + s.paced + (2 * n + 0) * δ
      omega

/-- A prompt run of a send loop whose sends are all accepted, and whose passes
    with `n` sends are shorter than `n` packets at the target rate. At its end
    the loop has sent what is due in its duration: at most what is due one
    observation later, and at least what is due a pass earlier, up to `n`. -/
theorem rate_delivered (c : Sender) (hbw : c.bandwidthBps ≠ 0) (δ n : Nat)
    (hfast : FastEnough c δ n) (es : List SendEvent) (s : SendState)
    (hrun : runFrom c.step c.init es = some s)
    (hprompt : Meets c.step (fun s e => Prompt c δ s e ∧ e ≠ .refused) c.init es)
    (hdone : s.pc = .done) (elapsed : Nat) :
    let packetsIn := Rate.count (costNs c.size) c.bandwidthBps.toNat u64Max
    packetsIn (c.durationNs - (2 * n + 3) * δ) ≤ (s.report elapsed).packets + n ∧
      (s.report elapsed).packets ≤ max c.free (packetsIn (c.durationNs + δ)) := by
  intro packetsIn
  have hend := run_invariant_of_meets (fun s e => Prompt c δ s e ∧ e ≠ .refused)
    (fun s => OnTrack c δ s ∧ OnPace c δ n s)
    (fun s e s' hp hs h => ⟨onTrack_step c δ s e s' hp.1 hs h.1,
      onPace_step c hbw δ n hfast s e s' hp.1 hp.2 hs h.1 h.2⟩)
    es c.init s hprompt hrun ⟨onTrack_init c δ, trivial⟩
  rcases hend with ⟨htrack, honPace⟩
  have hpacer := htrack.inTime.pacer_le (hdone ▸ rfl)
  simp only [OnPace, hdone] at honPace
  rcases honPace with ⟨a, ha, hseq, hdeadline⟩
  constructor
  · -- The pacer was last caught up with no earlier than a pass before the deadline.
    have hle : c.durationNs - (2 * n + 3) * δ ≤ a := by
      have hmul2 : (2 * n + 2) * δ = 2 * n * δ + 2 * δ := Nat.add_mul _ _ _
      have hmul3 : (2 * n + 3) * δ = 2 * n * δ + 3 * δ := Nat.add_mul _ _ _
      have hat : c.deadline s = s.sessionStart + c.durationNs := rfl
      omega
    rw [targetPackets_eq_count hbw c.size_pos c.size_lt ha] at hseq
    exact Nat.le_trans (Rate.count_mono hle) hseq
  · have hallowed := htrack.paced.seq_le
    rw [Sender.allowed, targetPackets_eq_count hbw c.size_pos c.size_lt htrack.paced.paced_lt]
      at hallowed
    exact Nat.le_trans hallowed
      (max_le_max (Nat.le_refl _) (Rate.count_mono htrack.inTime.paced_le))

/-- The same client: two packets, where between one and three are due. -/
theorem rate_delivered_client :
    let c := Client.runUdpUp .direct ipv4Max 25 16 16000000000
    let es := [.reading 0, .accepted, .reading 2, .reading 4, .reading 6, .reading 12, .reading 14,
      .reading 16, .reading 18, .reading 20, .reading 22, .reading 24, .reading 26, .accepted,
      .reading 28, .reading 30]
    let packetsIn := Rate.count (costNs c.size) c.bandwidthBps.toNat u64Max
    packetsIn (25 - 14) = 1 ∧ packetsIn (25 + 2) = 3 ∧
    (runFrom c.step c.init es).map (fun s => (s.pc, s.seq)) = some (.done, 2) ∧
    ∀ s, runFrom c.step c.init es = some s → s.pc = .done →
      packetsIn (25 - 14) ≤ (s.report 30).packets + 2 ∧
      (s.report 30).packets ≤ max c.free (packetsIn (25 + 2)) := by
  intro c es packetsIn
  refine ⟨by decide +kernel, by decide +kernel, by decide +kernel, ?_⟩
  intro s hrun hdone
  exact rate_delivered c (by decide) 2 2 (by decide +kernel) es s hrun (by decide +kernel) hdone 30

end ProxyPen
