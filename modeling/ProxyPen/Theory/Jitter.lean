import ProxyPen.Theory.Samples
import ProxyPen.Theory.Tally

/-!
# Jitter and the Clocks

The jitter estimate under a shift of the sender's clock. The two sides share no
clock, so a transit time is off by an unknown constant. The filter is fed
differences of consecutive transit times, where the constant cancels.

What the filter is fed is made visible by a filter that keeps it: `fed` runs
the accumulator with that filter. Since the accumulator treats all filters
alike, every estimate is a fold over `fed`, and the shift is a statement about
lists of differences.

The difference is an `i64` and wraps around. That does not disturb the shift,
as both runs wrap alike, but a difference beyond `2 ^ 63` is not fed as it is.

## Main definitions

* `fed`: The differences fed to the jitter filter.
* `Call.shift`: A call with the send timestamp moved.
* `OnClocks`: Both send timestamps and the receive timestamp fit `i64`.
* `spread`: The difference of two transit times.

## Theorems

* `fed_eq`, `jitter_eq_fed`: What is fed, and that it determines the estimate.
* `agree_shift`: A shift leaves the counters alone.
* `fed_shift`: A shift leaves the differences alone.
* `jitter_offset_iff`: The estimate does not see the shift, and when it is fed
  the differences themselves.
-/

namespace ProxyPen

open History

/-- The filter that keeps what it is fed. -/
instance : JitterFilter (List Nat) where
  zero := []
  update l d := l ++ [d]
  toU64 _ := 0

/-- The differences fed to the jitter filter. -/
def fed (calls : List Call) : List Nat := (UdpStats.ofCalls calls : UdpStats (List Nat)).jitterNs

/-- Folding with the keeping filter keeps everything. -/
theorem foldl_update_keep (l : List Nat) :
    l.foldl JitterFilter.update (JitterFilter.zero : List Nat) = l := by
  induction l using List.reverseRecOn with
  | nil => rfl
  | append_singleton l d ih =>
      rw [List.foldl_append, ih]
      rfl

theorem fed_eq (calls : List Call) :
    fed calls = (consecutive (firsts Call.seq calls)).map jump := by
  rw [fed, (measured_ofCalls calls).jitter, foldl_update_keep]

/-- Whatever the filter, the estimate is determined by what it is fed. -/
theorem jitter_eq_fed {F : Type} [JitterFilter F] (calls : List Call) :
    (UdpStats.ofCalls calls : UdpStats F).jitterNs
      = (fed calls).foldl JitterFilter.update JitterFilter.zero := by
  rw [(measured_ofCalls calls).jitter, fed_eq]

/-! ## Moving the sender's clock -/

/-- The call with `c` added to its send timestamp. -/
def Call.shift (c : Int) (x : Call) : Call := { x with sendTsNs := (x.sendTsNs + c).toNat }

/-- The timestamps of a call fit `i64`, with and without the shift. -/
structure OnClocks (c : Int) (x : Call) : Prop where
  recv_lt : x.recvTsNs < 2 ^ 63
  send_lt : x.sendTsNs < 2 ^ 63
  shift_nonneg : 0 ≤ x.sendTsNs + c
  shift_lt : x.sendTsNs + c < 2 ^ 63

instance (c : Int) (x : Call) : Decidable (OnClocks c x) :=
  decidable_of_iff (x.recvTsNs < 2 ^ 63 ∧ x.sendTsNs < 2 ^ 63 ∧ 0 ≤ x.sendTsNs + c ∧
      x.sendTsNs + c < 2 ^ 63)
    ⟨fun h => ⟨h.1, h.2.1, h.2.2.1, h.2.2.2⟩,
      fun h => ⟨h.recv_lt, h.send_lt, h.shift_nonneg, h.shift_lt⟩⟩

/-- The difference of the transit times of two calls. -/
def spread (p : Call × Call) : Int :=
  ((p.2.recvTsNs : Int) - p.2.sendTsNs) - ((p.1.recvTsNs : Int) - p.1.sendTsNs)

theorem transitNs_of_lt (x : Call) (hrecv : x.recvTsNs < 2 ^ 63) (hsend : x.sendTsNs < 2 ^ 63) :
    x.transitNs = (x.recvTsNs : Int) - x.sendTsNs := by
  rw [Call.transitNs, asI64_of_lt _ hrecv, asI64_of_lt _ hsend]
  exact i64Sub_of_range _ _ (by omega) (by omega)

/-- The filter is fed the distance, wrapped around. -/
theorem jump_eq (c : Int) (p : Call × Call) (h₁ : OnClocks c p.1) (h₂ : OnClocks c p.2) :
    jump p = ((spread p).bmod (2 ^ 64)).natAbs := by
  rw [jump, transitNs_of_lt p.1 h₁.recv_lt h₁.send_lt, transitNs_of_lt p.2 h₂.recv_lt h₂.send_lt,
    i64Sub, spread]

theorem transitNs_shift (c : Int) (x : Call) (h : OnClocks c x) :
    (x.shift c).transitNs = x.transitNs - c := by
  have hmoved : ((x.shift c).sendTsNs : Int) = x.sendTsNs + c := Int.toNat_of_nonneg h.shift_nonneg
  have hrecv : (x.shift c).recvTsNs = x.recvTsNs := rfl
  have hlt := h.shift_lt
  rw [transitNs_of_lt x h.recv_lt h.send_lt, transitNs_of_lt (x.shift c) h.recv_lt (by omega),
    hmoved, hrecv]
  omega

/-- The constant cancels in the difference. -/
theorem jump_shift (c : Int) (p : Call × Call) (h₁ : OnClocks c p.1) (h₂ : OnClocks c p.2) :
    jump (Prod.map (Call.shift c) (Call.shift c) p) = jump p := by
  have hcancel : p.2.transitNs - c - (p.1.transitNs - c) = p.2.transitNs - p.1.transitNs := by
    omega
  unfold jump i64Sub
  rw [Prod.map_fst, Prod.map_snd, transitNs_shift c p.1 h₁, transitNs_shift c p.2 h₂, hcancel]

/-- A shift leaves the differences alone. -/
theorem fed_shift (calls : List Call) (c : Int) (h : ∀ x ∈ calls, OnClocks c x) :
    fed (calls.map (Call.shift c)) = fed calls := by
  rw [fed_eq, fed_eq, firsts_map Call.seq (Call.shift c) (fun _ => rfl), consecutive_map,
    List.map_map]
  refine List.map_congr_left (fun p hp => ?_)
  rcases mem_of_mem_consecutive _ p hp with ⟨h₁, h₂⟩
  rw [Function.comp_apply]
  exact jump_shift c p (h _ ((keep_sublist _ _).subset h₁)) (h _ ((keep_sublist _ _).subset h₂))

/-- A shift leaves the counters alone. -/
theorem agree_shift {F : Type} [JitterFilter F] (calls : List Call) (c : Int) :
    Agree (UdpStats.ofCalls (calls.map (Call.shift c)) : UdpStats F)
      (UdpStats.ofCalls calls : UdpStats F) := by
  induction calls using List.reverseRecOn with
  | nil => exact ⟨rfl, rfl, rfl⟩
  | append_singleton calls x ih =>
      rw [List.map_append, List.map_singleton, ofCalls_snoc, ofCalls_snoc]
      exact agree_record _ _ ih x.seq _ _ _ _ x.payloadLen

/-- Wrapping around keeps the distance up to `2 ^ 63`, and never beyond. -/
theorem natAbs_bmod_iff (d : Int) :
    (d.bmod (2 ^ 64)).natAbs = d.natAbs ↔ -2 ^ 63 ≤ d ∧ d ≤ 2 ^ 63 := by
  rw [Int.bmod_def]
  split <;> omega

/-- The estimate and the counters do not see a shift of the sender's clock. The
    filter is fed the distances of consecutive transit times exactly when none
    of them exceeds `2 ^ 63`. -/
theorem jitter_offset_iff (F : Type) [JitterFilter F] (calls : List Call) (c : Int)
    (h : ∀ x ∈ calls, OnClocks c x) :
    let st : UdpStats F := UdpStats.ofCalls calls
    let shifted : UdpStats F := UdpStats.ofCalls (calls.map (Call.shift c))
    let pairs := consecutive (firsts Call.seq calls)
    (shifted.jitterNs = st.jitterNs ∧ shifted.counters = st.counters) ∧
    st.jitterNs = (fed calls).foldl JitterFilter.update JitterFilter.zero ∧
    fed (calls.map (Call.shift c)) = fed calls ∧
    (fed calls = pairs.map (fun p => (spread p).natAbs) ↔
      ∀ p ∈ pairs, -2 ^ 63 ≤ spread p ∧ spread p ≤ 2 ^ 63) := by
  intro st shifted pairs
  have hfed := fed_shift calls c h
  refine ⟨⟨?_, (agree_shift calls c).counters⟩, jitter_eq_fed calls, hfed, ?_⟩
  · rw [jitter_eq_fed, jitter_eq_fed, hfed]
  · have hjump : ∀ p ∈ pairs, jump p = ((spread p).bmod (2 ^ 64)).natAbs := by
      intro p hp
      rcases mem_of_mem_consecutive _ p hp with ⟨h₁, h₂⟩
      exact jump_eq c p (h _ ((keep_sublist _ _).subset h₁)) (h _ ((keep_sublist _ _).subset h₂))
    rw [fed_eq, List.map_inj_left]
    refine forall_congr' (fun p => forall_congr' (fun hp => ?_))
    rw [hjump p hp, natAbs_bmod_iff]

/-- Two packets and a duplicate of the first, with the sender's clock set a
    millisecond ahead. -/
theorem jitter_offset_iff_millisecond :
    let calls : List Call := [⟨0, 100, 150, 1200⟩, ⟨0, 100, 155, 1200⟩, ⟨1, 200, 260, 1200⟩]
    (UdpStats.ofCalls (calls.map (Call.shift 1000000)) : UdpStats Float).jitterNs
      = (UdpStats.ofCalls calls : UdpStats Float).jitterNs ∧
    fed calls = (consecutive (firsts Call.seq calls)).map (fun p => (spread p).natAbs) := by
  intro calls
  have h := jitter_offset_iff Float calls 1000000 (by decide +kernel)
  exact ⟨h.1.1, h.2.2.2.mpr (by decide +kernel)⟩

/-- A first packet stamped `2 ^ 63 - 1` on arrival at time zero, and a second one
    stamped zero two nanoseconds later. All timestamps and transit times fit
    `i64`. Their distance is `2 ^ 63 + 1`, and `2 ^ 63 - 1` is fed. -/
theorem wrapped_difference :
    let calls : List Call := [⟨0, 2 ^ 63 - 1, 0, 16⟩, ⟨1, 0, 2, 16⟩]
    (∀ x ∈ calls, OnClocks 0 x) ∧ fed calls = [2 ^ 63 - 1] ∧
      (consecutive (firsts Call.seq calls)).map (fun p => (spread p).natAbs) = [2 ^ 63 + 1] := by
  refine ⟨?_, ?_, ?_⟩
  · decide +kernel
  · decide +kernel
  · decide +kernel

end ProxyPen
