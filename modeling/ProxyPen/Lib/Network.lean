import Mathlib.Data.Finset.Card
import Mathlib.Data.List.Perm.Basic
import ProxyPen.Lib.Machine

/-!
# Unreliable Networks

The traffic of one direction of a network that may lose, copy and reorder what
it carries. Every step of a system does one of five things to it: nothing,
sending, delivering any element in flight, losing one, or copying one.

Over a run, what was taken, what is still in flight and what was lost are
together what was sent and what the network has added. No order survives, so
the account is a permutation. Where the sent elements are pairwise different,
it fixes what the receiver misses and what it has twice against what the
network did.

## Main definitions

* `Traffic`: What was sent, is in flight, and was taken.
* `Fate`: What a step is on the network's part.
* `Traffic.Move`: The effect of a step.
* `Traffic.Account`: The account of a run.

## Theorems

* `Account.move`: A step keeps the account.
* `account_of_run`: The account of a run of a machine.
* `Account.filterMap`: The account of a part of every element.
* `Account.missing_add_copied`: Missing and repeated elements against losses
  and copies.
-/

namespace ProxyPen

/-- The traffic of one direction: what was sent, what is in flight, and what
    the receiver has taken. -/
structure Traffic (α : Type) where
  sent : List α
  flight : List α
  taken : List α

/-- What a step is on the network's part. -/
inductive Fate where
  | kept
  | lost
  | copied
  deriving DecidableEq, Repr

namespace Traffic

variable {α β σ ε : Type}

/-- Nothing has been sent. -/
def empty : Traffic α := { sent := [], flight := [], taken := [] }

/-- The effect of a step on the traffic. -/
inductive Move (t : Traffic α) : Fate → Traffic α → Prop where
  | quiet : Move t .kept t
  | send (as : List α) :
      Move t .kept { t with sent := t.sent ++ as, flight := t.flight ++ as }
  -- Any element in flight may be the next to arrive.
  | deliver (i : Nat) (a : α) (hi : t.flight[i]? = some a) :
      Move t .kept { t with flight := t.flight.eraseIdx i, taken := t.taken ++ [a] }
  | lose (i : Nat) (hi : i < t.flight.length) :
      Move t .lost { t with flight := t.flight.eraseIdx i }
  | duplicate (i : Nat) (a : α) (hi : t.flight[i]? = some a) :
      Move t .copied { t with flight := t.flight ++ [a] }

/-- The account of a run in which the network has lost `lost` and added
    `copied`. -/
structure Account (t : Traffic α) (lost copied : List α) : Prop where
  balance : (t.taken ++ t.flight ++ lost).Perm (t.sent ++ copied)
  genuine : ∀ a ∈ copied, a ∈ t.sent

theorem account_empty : Account (empty : Traffic α) [] [] where
  balance := List.Perm.nil
  genuine _ h := absurd h List.not_mem_nil

/-- What was taken, is in flight or was lost has been sent. -/
theorem Account.mem_sent {t : Traffic α} {lost copied : List α} (h : Account t lost copied) {a : α}
    (ha : a ∈ t.taken ++ t.flight ++ lost) : a ∈ t.sent := by
  rcases List.mem_append.mp (h.balance.mem_iff.mp ha) with hsent | hcopied
  · exact hsent
  · exact h.genuine a hcopied

theorem Account.taken_sent {t : Traffic α} {lost copied : List α} (h : Account t lost copied) :
    ∀ a ∈ t.taken, a ∈ t.sent :=
  fun _ ha => h.mem_sent (List.mem_append_left _ (List.mem_append_left _ ha))

theorem Account.flight_sent {t : Traffic α} {lost copied : List α} (h : Account t lost copied) :
    ∀ a ∈ t.flight, a ∈ t.sent :=
  fun _ ha => h.mem_sent (List.mem_append_left _ (List.mem_append_right _ ha))

/-- Taking an element out of a list leaves the others. -/
theorem perm_eraseIdx_of_getElem? {l : List α} {i : Nat} {a : α} (h : l[i]? = some a) :
    (l.eraseIdx i ++ [a]).Perm l := by
  rcases List.getElem?_eq_some_iff.mp h with ⟨hi, rfl⟩
  exact (List.perm_append_singleton _ _).trans (List.getElem_cons_eraseIdx_perm hi)

/-- A step keeps the account; what the network loses or adds enters it. -/
theorem Account.move {t t' : Traffic α} {f : Fate} {lost copied : List α} (h : Account t lost copied)
    (hmove : Move t f t') :
    ∃ lost' copied', Account t' lost' copied' ∧
      lost'.length = lost.length + (if f = .lost then 1 else 0) ∧
      copied'.length = copied.length + (if f = .copied then 1 else 0) := by
  cases hmove with
  | quiet => exact ⟨lost, copied, h, rfl, rfl⟩
  | send as =>
      refine ⟨lost, copied, ⟨?_, fun a ha => List.mem_append_left _ (h.genuine a ha)⟩, rfl, rfl⟩
      -- Both sides gain the same elements, in the middle of either.
      have hleft : (t.taken ++ (t.flight ++ as) ++ lost).Perm (t.taken ++ t.flight ++ lost ++ as) := by
        rw [← List.append_assoc, List.append_assoc (t.taken ++ t.flight) as lost,
          List.append_assoc (t.taken ++ t.flight) lost as]
        exact List.Perm.append_left _ List.perm_append_comm
      have hright : (t.sent ++ copied ++ as).Perm (t.sent ++ as ++ copied) := by
        rw [List.append_assoc, List.append_assoc]
        exact List.Perm.append_left _ List.perm_append_comm
      exact (hleft.trans (h.balance.append_right as)).trans hright
  | deliver i a hi =>
      refine ⟨lost, copied, ⟨List.Perm.trans ?_ h.balance, h.genuine⟩, rfl, rfl⟩
      -- The element moves from the middle to the front part.
      have hmid : (t.taken ++ [a] ++ t.flight.eraseIdx i).Perm (t.taken ++ t.flight) := by
        rw [List.append_assoc]
        exact List.Perm.append_left _
          (List.perm_append_comm.trans (perm_eraseIdx_of_getElem? hi))
      exact hmid.append_right lost
  | lose i hi =>
      refine ⟨t.flight[i] :: lost, copied, ⟨List.Perm.trans ?_ h.balance, h.genuine⟩, rfl, rfl⟩
      have hmid : (t.flight.eraseIdx i ++ [t.flight[i]]).Perm t.flight :=
        perm_eraseIdx_of_getElem? (List.getElem?_eq_getElem hi)
      have hcons : t.taken ++ t.flight.eraseIdx i ++ t.flight[i] :: lost
          = t.taken ++ (t.flight.eraseIdx i ++ [t.flight[i]]) ++ lost := by
        simp only [List.append_assoc, List.singleton_append]
      rw [hcons]
      exact (hmid.append_left t.taken).append_right lost
  | duplicate i a hi =>
      have ha : a ∈ t.sent := h.flight_sent a (List.mem_of_getElem? hi)
      refine ⟨lost, a :: copied, ⟨?_, List.forall_mem_cons.mpr ⟨ha, h.genuine⟩⟩, rfl, rfl⟩
      have hleft : (t.taken ++ (t.flight ++ [a]) ++ lost).Perm
          (a :: (t.taken ++ t.flight ++ lost)) := by
        rw [← List.append_assoc, List.append_assoc _ [a] lost]
        exact List.perm_middle
      exact (hleft.trans (h.balance.cons a)).trans List.perm_middle.symm

/-- The account of a run of a machine whose steps are moves of the traffic it
    shows, as long as it keeps an invariant. -/
theorem account_of_run {step : σ → ε → Option σ} (I : σ → Prop) (view : σ → Traffic α)
    (fate : ε → Fate) (hI : ∀ s e s', step s e = some s' → I s → I s')
    (hmove : ∀ s e s', step s e = some s' → I s → Move (view s) (fate e) (view s'))
    (s₀ : σ) (h₀ : I s₀) (hempty : view s₀ = empty) (es : List ε) :
    ∀ s, Machine.runFrom step s₀ es = some s → ∃ lost copied, Account (view s) lost copied ∧
      lost.length = es.countP (fun e => fate e = .lost) ∧
      copied.length = es.countP (fun e => fate e = .copied) := by
  -- Induction on the run from its end: the last step is one move more.
  induction es using List.reverseRecOn with
  | nil =>
      intro s hrun
      simp only [Machine.runFrom, Option.some.injEq] at hrun
      subst hrun
      rw [hempty]
      exact ⟨[], [], account_empty, rfl, rfl⟩
  | append_singleton es e ih =>
      intro s hrun
      rcases (Machine.runFrom_snoc s₀ s es e).mp hrun with ⟨u, hu, hstep⟩
      rcases ih u hu with ⟨lost, copied, hacc, hlost, hcopied⟩
      have hIu := Machine.run_invariant I hI es s₀ u hu h₀
      rcases hacc.move (hmove u e s hstep hIu) with ⟨lost', copied', hacc', hlost', hcopied'⟩
      refine ⟨lost', copied', hacc', ?_, ?_⟩
      · rw [hlost', hlost, List.countP_append, List.countP_singleton]
        simp only [decide_eq_true_eq]
      · rw [hcopied', hcopied, List.countP_append, List.countP_singleton]
        simp only [decide_eq_true_eq]

/-- The account of what `f` makes of every element. -/
theorem Account.filterMap {t : Traffic α} {lost copied : List α} (h : Account t lost copied)
    (f : α → Option β) :
    Account ⟨t.sent.filterMap f, t.flight.filterMap f, t.taken.filterMap f⟩ (lost.filterMap f)
      (copied.filterMap f) where
  balance := by
    simp only [← List.filterMap_append]
    exact h.balance.filterMap f
  genuine b hb := by
    rcases List.mem_filterMap.mp hb with ⟨a, ha, hab⟩
    exact List.mem_filterMap.mpr ⟨a, h.genuine a ha, hab⟩

section Count

variable [DecidableEq α]

/-- What was sent and never taken. -/
def missing (t : Traffic α) : Finset α := t.sent.toFinset \ t.taken.toFinset

/-- How many of the taken elements had been taken before. -/
def repeated (t : Traffic α) : Nat := t.taken.length - t.taken.toFinset.card

/-- Of pairwise different elements, those missing and the copies the network
    has added are as many as the repeated ones, the lost ones and those in
    flight. -/
theorem Account.missing_add_copied {t : Traffic α} {lost copied : List α}
    (h : Account t lost copied) (hnodup : t.sent.Nodup) :
    t.missing.card + copied.length = t.repeated + lost.length + t.flight.length := by
  have hlen := h.balance.length_eq
  simp only [List.length_append] at hlen
  have hsub : t.taken.toFinset ⊆ t.sent.toFinset := by
    intro a ha
    exact List.mem_toFinset.mpr (h.taken_sent a (List.mem_toFinset.mp ha))
  have hcard := Finset.card_le_card hsub
  have htaken := t.taken.toFinset_card_le
  rw [missing, repeated, Finset.card_sdiff_of_subset hsub]
  rw [List.toFinset_card_of_nodup hnodup] at hcard ⊢
  omega

/-- No more elements are missing than were lost or are in flight. -/
theorem Account.missing_le {t : Traffic α} {lost copied : List α} (h : Account t lost copied) :
    t.missing.card ≤ lost.length + t.flight.length := by
  -- A missing element has to be somewhere, and it was not taken.
  have hsub : t.missing ⊆ (lost ++ t.flight).toFinset := by
    intro a ha
    rcases Finset.mem_sdiff.mp ha with ⟨hsent, htaken⟩
    have hmem := h.balance.mem_iff.mpr (List.mem_append_left _ (List.mem_toFinset.mp hsent))
    rw [List.mem_toFinset] at htaken
    simp only [List.mem_append, htaken, false_or] at hmem
    rw [List.mem_toFinset, List.mem_append]
    exact hmem.symm
  have hle := (Finset.card_le_card hsub).trans (List.toFinset_card_le _)
  rwa [List.length_append] at hle

/-- Of pairwise different elements, no more are repeated than the network has
    added. -/
theorem Account.repeated_le {t : Traffic α} {lost copied : List α} (h : Account t lost copied)
    (hnodup : t.sent.Nodup) : t.repeated ≤ copied.length := by
  have heq := h.missing_add_copied hnodup
  have hle := h.missing_le
  omega

end Count

end Traffic

end ProxyPen
