import Mathlib.Logic.Relation

/-!
# Event-Driven Machines

Runs of a machine whose every step answers one event of its environment. The
step is a partial function: `none` means the event cannot happen in that
state, so a blocked machine is one whose step answers nothing.

A run is a list of events rather than a derivation. That keeps runs
executable, and it lets a condition on a run be a condition on each event
together with the state it met, which is how an assumption on a network or
on a schedule is phrased (`Meets`).

## Main definitions

* `runFrom`: Feeding a list of events to a machine.
* `Reachable`: The states some run ends in.
* `Meets`: Every step of a run satisfies a condition.

## Theorems

* `runFrom_append`: A run splits at any point.
* `runFrom_cons`, `runFrom_snoc`: Peeling the first or the last event off a run.
* `step_of_mem`: A run passes through a step of each of its events.
* `Reachable.next`, `Reachable.trans`: Extending a run.
* `run_invariant`: A stepwise invariant holds along a run.
* `run_invariant_of_meets`: The same, for steps meeting a condition.
* `reachable_invariant`: A stepwise invariant holds in reachable states.
* `reachable_final`: A machine with a measure to its end has a run there.
* `meets_of_forall`: A condition every step satisfies holds of every run.
* `length_le_of_run`: A measure that every step lowers bounds the length of a run.
* `runFrom_map`: A machine that follows another one step by step follows its
  runs.
-/

namespace ProxyPen

namespace Machine

variable {σ ε : Type}

/-- Feed the events to the machine in order, or `none` once one of them
    cannot happen. -/
def runFrom (step : σ → ε → Option σ) : σ → List ε → Option σ
  | s, [] => some s
  | s, e :: es => match step s e with
    | none => none
    | some s' => runFrom step s' es

/-- The states some run from `s₀` ends in. -/
def Reachable (step : σ → ε → Option σ) (s₀ s : σ) : Prop :=
  ∃ es, runFrom step s₀ es = some s

/-- Every step of the run satisfies `P`, a condition on the state before the
    step and the event it answers. -/
def Meets (step : σ → ε → Option σ) (P : σ → ε → Prop) : σ → List ε → Prop
  | _, [] => True
  | s, e :: es => P s e ∧ ∀ s', step s e = some s' → Meets step P s' es

variable {step : σ → ε → Option σ}

/-- A machine takes at most one step per event, so following the run decides
    the condition. -/
instance Meets.decidable (P : σ → ε → Prop) [∀ s e, Decidable (P s e)] :
    ∀ (s : σ) (es : List ε), Decidable (Meets step P s es)
  | _, [] => isTrue trivial
  | s, e :: es => match hstep : step s e with
    | none => decidable_of_iff (P s e)
        ⟨fun h => ⟨h, fun s' hs' => absurd (hstep.symm.trans hs') (Option.some_ne_none s').symm⟩,
          fun h => h.1⟩
    | some s' =>
        have := Meets.decidable P s' es
        decidable_of_iff (P s e ∧ Meets step P s' es)
          ⟨fun h => ⟨h.1, fun _ hs'' => Option.some.inj (hstep.symm.trans hs'') ▸ h.2⟩,
            fun h => ⟨h.1, h.2 s' hstep⟩⟩

/-- Peeling the first event off a run. -/
theorem runFrom_cons (s t : σ) (e : ε) (es : List ε) :
    runFrom step s (e :: es) = some t ↔ ∃ u, step s e = some u ∧ runFrom step u es = some t := by
  rw [runFrom]
  cases step s e with
  | none => simp only [reduceCtorEq, false_and, exists_false]
  | some u => simp only [Option.some.injEq, exists_eq_left']

theorem runFrom_append (s : σ) (es fs : List ε) :
    runFrom step s (es ++ fs) = (runFrom step s es).bind (fun t => runFrom step t fs) := by
  induction es generalizing s with
  | nil => rfl
  | cons e es ih =>
      rw [List.cons_append, runFrom, runFrom]
      cases step s e with
      | none => rfl
      | some s' => exact ih s'

theorem runFrom_snoc (s t : σ) (es : List ε) (e : ε) :
    runFrom step s (es ++ [e]) = some t ↔
      ∃ u, runFrom step s es = some u ∧ step u e = some t := by
  rw [runFrom_append, Option.bind_eq_some_iff]
  -- A run of one event is a step.
  have hone : ∀ u, runFrom step u [e] = step u e := by
    intro u
    rw [runFrom]
    cases step u e <;> rfl
  simp only [hone]

/-- A run passes through a step of each of its events. -/
theorem step_of_mem {s t : σ} {e : ε} {es : List ε} (he : e ∈ es) (hrun : runFrom step s es = some t) :
    ∃ u v, Reachable step s u ∧ step u e = some v ∧ Reachable step v t := by
  rcases List.append_of_mem he with ⟨pre, post, rfl⟩
  rw [runFrom_append, Option.bind_eq_some_iff] at hrun
  rcases hrun with ⟨u, hpre, hrest⟩
  rcases (runFrom_cons u t e post).mp hrest with ⟨v, hstep, hpost⟩
  exact ⟨u, v, ⟨pre, hpre⟩, hstep, ⟨post, hpost⟩⟩

theorem Reachable.next {s₀ s t : σ} {e : ε} (h : Reachable step s₀ s) (hstep : step s e = some t) :
    Reachable step s₀ t := by
  rcases h with ⟨es, hes⟩
  exact ⟨es ++ [e], (runFrom_snoc s₀ t es e).mpr ⟨s, hes, hstep⟩⟩

theorem Reachable.trans {s₀ s t : σ} (h : Reachable step s₀ s) (h' : Reachable step s t) :
    Reachable step s₀ t := by
  rcases h with ⟨es, hes⟩
  rcases h' with ⟨fs, hfs⟩
  exact ⟨es ++ fs, by rw [runFrom_append, hes]; exact hfs⟩

/-- A stepwise invariant holds along a run whose steps meet a condition. The
    condition is handed to the step, so an assumption about the environment
    enters exactly where it is used. -/
theorem run_invariant_of_meets (P : σ → ε → Prop) (I : σ → Prop)
    (hstep : ∀ s e s', P s e → step s e = some s' → I s → I s') :
    ∀ (es : List ε) (s t : σ), Meets step P s es → runFrom step s es = some t → I s → I t := by
  intro es
  induction es with
  | nil =>
      intro s t _ hrun hs
      simp only [runFrom, Option.some.injEq] at hrun
      rw [← hrun]
      exact hs
  | cons e es ih =>
      intro s t hmeets hrun hs
      rcases (runFrom_cons s t e es).mp hrun with ⟨s', hnext, hrest⟩
      -- The condition at the head gives the step, its tail the rest of the run.
      exact ih s' t (hmeets.2 s' hnext) hrest (hstep s e s' hmeets.1 hnext hs)

theorem meets_of_forall (P : σ → ε → Prop) (h : ∀ s e, P s e) (s : σ) (es : List ε) :
    Meets step P s es := by
  induction es generalizing s with
  | nil => trivial
  | cons e es ih => exact ⟨h s e, fun s' _ => ih s'⟩

/-- A stepwise invariant holds along a run. -/
theorem run_invariant (I : σ → Prop) (hstep : ∀ s e s', step s e = some s' → I s → I s')
    (es : List ε) (s t : σ) (hrun : runFrom step s es = some t) (hs : I s) : I t :=
  run_invariant_of_meets (fun _ _ => True) I (fun s e s' _ h => hstep s e s' h) es s t
    (meets_of_forall _ (fun _ _ => trivial) s es) hrun hs

/-- A stepwise invariant of the start state holds in every reachable state. -/
theorem reachable_invariant (I : σ → Prop) (hstep : ∀ s e s', step s e = some s' → I s → I s')
    (s₀ s : σ) (hr : Reachable step s₀ s) (h0 : I s₀) : I s := by
  rcases hr with ⟨es, hrun⟩
  exact run_invariant I hstep es s₀ s hrun h0

/-- A machine that keeps `I`, and that can take a step towards the end from
    every state that is not final, has a run to a final state. -/
theorem reachable_final (I final : σ → Prop) (measure : σ → Nat)
    (hI : ∀ s e s', step s e = some s' → I s → I s')
    (hprogress : ∀ s, I s → ¬ final s → ∃ e s', step s e = some s' ∧ measure s' < measure s)
    (s : σ) (hs : I s) : ∃ t, Reachable step s t ∧ final t := by
  -- Induction on a bound of the measure, for every state below it.
  have hbound : ∀ k s, measure s < k → I s → ∃ t, Reachable step s t ∧ final t := by
    intro k
    induction k with
    | zero => exact fun s hlt _ => absurd hlt (Nat.not_lt_zero _)
    | succ k ih =>
        intro s hlt hs
        by_cases hfinal : final s
        · exact ⟨s, ⟨[], rfl⟩, hfinal⟩
        · rcases hprogress s hs hfinal with ⟨e, s', hstep, hless⟩
          rcases ih s' (by omega) (hI s e s' hstep hs) with ⟨t, hreach, ht⟩
          exact ⟨t, (Reachable.next ⟨[], rfl⟩ hstep).trans hreach, ht⟩
  exact hbound (measure s + 1) s (Nat.lt_succ_self _) hs

/-- A run has no more steps than a measure that every step lowers. -/
theorem length_le_of_run (measure : σ → Nat)
    (hstep : ∀ s e s', step s e = some s' → measure s' < measure s) (es : List ε) :
    ∀ s t, runFrom step s es = some t → es.length + measure t ≤ measure s := by
  induction es with
  | nil =>
      intro s t hrun
      simp only [runFrom, Option.some.injEq] at hrun
      exact hrun ▸ Nat.le_of_eq (Nat.zero_add _)
  | cons e es ih =>
      intro s t hrun
      rcases (runFrom_cons s t e es).mp hrun with ⟨u, hnext, hrest⟩
      have hless := hstep s e u hnext
      have hle := ih u t hrest
      rw [List.length_cons]
      omega

/-- A machine that does in the image of a state what another one does in the
    state itself, as long as that one keeps `I`, has the images of its runs. -/
theorem runFrom_map {τ : Type} {step' : τ → ε → Option τ} (f : σ → τ) (I : σ → Prop)
    (hI : ∀ s e s', step s e = some s' → I s → I s')
    (hstep : ∀ s e, I s → step' (f s) e = (step s e).map f) (es : List ε) :
    ∀ s, I s → runFrom step' (f s) es = (runFrom step s es).map f := by
  induction es with
  | nil => exact fun s _ => rfl
  | cons e es ih =>
      intro s hs
      rw [runFrom, runFrom, hstep s e hs]
      cases hnext : step s e with
      | none => rfl
      | some s' => exact ih s' (hI s e s' hnext hs)

end Machine

end ProxyPen
