import ProxyPen.Lib.Machine
import ProxyPen.Lib.Outcome

/-!
# Programs and Their Calls

A sequential program that calls on a world which may answer anything. The
type of an answer depends on the operation. A program may also be left a
choice that no operation is behind, such as whether a timer has fired.

What a program has called, with the answers, is its past. A policy says which
operations a past permits, and `Keeps` is the precondition under which a
program follows a policy and returns with its postcondition. It is computed
from the program, so a contract is proved by walking through it, and it is
sound in every world. `KeepsOne` is the same for a policy with a parameter that
the answers decide.

## Main definitions

* `Calls`: A sequential program.
* `Calls.within`: A program under a timeout.
* `Calls.Running`, `Calls.step`: A program at work, and one turn of it.
* `Calls.returned`: What a program has returned.
* `Calls.ComesTo`: What a program comes to in given worlds, with its calls.
* `Calls.answeredBy`: A program whose calls are answered from a state.
* `Calls.Keeps`: The precondition of a contract.
* `Calls.Abides`: A past that followed a policy at every call.
* `Calls.KeepsOne`: A contract whose policy is chosen once.

## Theorems

* `comesTo_of_run`, `run_of_comesTo`: Coming to a value, and runs.
* `comesTo_seq`, `comesTo_seq_lift`, `comesTo_mapErr`: What a success is made of.
* `keeps_bind`, `keeps_lift`, `keeps_within`: The rules of the contract.
* `Keeps.extends`: A program only adds to its past.
* `keeps_of_run`, `keepsOne_of_run`: Soundness.
-/

namespace ProxyPen

/-- A sequential program with operations `Op`, whose answers have types `Ans`. -/
inductive Calls (Op : Type) (Ans : Op → Type) (ε α : Type) where
  | ret (a : α)
  | fail (e : ε)
  | panic
  | call (op : Op) (k : Ans op → Calls Op Ans ε α)
  /-- a choice of the world -/
  | pick (k : Bool → Calls Op Ans ε α)

namespace Calls

variable {Op : Type} {Ans : Op → Type} {ε ε' α β : Type}

/-- What has been called, with the answers. -/
abbrev Past (Ans : Op → Type) := List ((op : Op) × Ans op)

/-- Sequencing. A failure or a panic abandons what follows. -/
def bind : Calls Op Ans ε α → (α → Calls Op Ans ε β) → Calls Op Ans ε β
  | ret a, f => f a
  | fail e, _ => fail e
  | panic, _ => panic
  | call op k, f => call op (fun a => bind (k a) f)
  | pick k, f => pick (fun b => bind (k b) f)

instance : Monad (Calls Op Ans ε) where
  pure := ret
  bind := bind

/-- Call an operation for its answer. -/
def ask (op : Op) : Calls Op Ans ε (Ans op) := call op ret

/-- Go on with a result. -/
def lift : Outcome ε α → Calls Op Ans ε α
  | .ok a => ret a
  | .err e => fail e
  | .panic => panic

/-- `map_err` -/
def mapErr (f : ε → ε') : Calls Op Ans ε α → Calls Op Ans ε' α
  | ret a => ret a
  | fail e => fail (f e)
  | panic => panic
  | call op k => call op (fun a => mapErr f (k a))
  | pick k => pick (fun b => mapErr f (k b))

/-- A program that a timeout may abandon while it waits for an answer, and what
    has become of it. -/
def within : Calls Op Ans ε α → Calls Op Ans ε' (Option (Outcome ε α))
  | ret a => ret (some (.ok a))
  | fail e => ret (some (.err e))
  | panic => ret (some .panic)
  | call op k => call op fun a => pick fun late => if late then ret none else within (k a)
  | pick k => pick (fun b => within (k b))

/-! ## Runs -/

/-- A program at work. -/
structure Running (Op : Type) (Ans : Op → Type) (ε α : Type) where
  prog : Calls Op Ans ε α
  past : Past Ans

/-- What a world answers at one moment, whatever it is asked. -/
structure World (Ans : Op → Type) where
  answer : (op : Op) → Ans op
  pick : Bool

def start (p : Calls Op Ans ε α) : Running Op Ans ε α := { prog := p, past := [] }

/-- What a program has returned. -/
def returned : Calls Op Ans ε α → Option α
  | ret a => some a
  | _ => none

/-- One turn of a program. -/
def step (s : Running Op Ans ε α) (w : World Ans) : Option (Running Op Ans ε α) :=
  match s.prog with
  | call op k => some { prog := k (w.answer op), past := s.past ++ [⟨op, w.answer op⟩] }
  | pick k => some { s with prog := k w.pick }
  | _ => none

/-- In these worlds the program comes to an outcome, after these calls. -/
inductive ComesTo : Calls Op Ans ε α → List (World Ans) → Past Ans → Outcome ε α → Prop where
  | ret (a : α) : ComesTo (ret a) [] [] (.ok a)
  | fail (e : ε) : ComesTo (fail e) [] [] (.err e)
  | panic : ComesTo panic [] [] .panic
  | call {op : Op} {k : Ans op → Calls Op Ans ε α} {ws : List (World Ans)} {t : Past Ans}
      {o : Outcome ε α} (w : World Ans) (h : ComesTo (k (w.answer op)) ws t o) :
      ComesTo (call op k) (w :: ws) (⟨op, w.answer op⟩ :: t) o
  | pick {k : Bool → Calls Op Ans ε α} {ws : List (World Ans)} {t : Past Ans} {o : Outcome ε α}
      (w : World Ans) (h : ComesTo (k w.pick) ws t o) : ComesTo (pick k) (w :: ws) t o

/-- The worlds and calls between two states of a run take the first program to
    what the second one has come to. -/
theorem comesTo_of_run {s s' : Running Op Ans ε α} {ws : List (World Ans)}
    (hrun : Machine.runFrom step s ws = some s') {o : Outcome ε α} (h : ComesTo s'.prog [] [] o) :
    ∃ t, s'.past = s.past ++ t ∧ ComesTo s.prog ws t o := by
  induction ws generalizing s with
  | nil =>
      cases hrun
      exact ⟨[], (List.append_nil _).symm, h⟩
  | cons w ws ih =>
      rcases (Machine.runFrom_cons _ _ _ _).mp hrun with ⟨u, hstep, hrest⟩
      rcases ih hrest with ⟨t, hpast, ht⟩
      rcases s with ⟨p, past⟩
      cases p with
      | ret a => cases hstep
      | fail e => cases hstep
      | panic => cases hstep
      | call op k =>
          cases hstep
          exact ⟨⟨op, w.answer op⟩ :: t, by rw [hpast, List.append_assoc, List.singleton_append],
            ComesTo.call w ht⟩
      | pick k =>
          cases hstep
          exact ⟨t, hpast, ComesTo.pick w ht⟩

/-- The run of a program that comes to a value. -/
theorem run_of_comesTo {p : Calls Op Ans ε α} {ws : List (World Ans)} {t : Past Ans} {a : α}
    (h : ComesTo p ws t (.ok a)) (past : Past Ans) :
    Machine.runFrom step { prog := p, past } ws = some { prog := ret a, past := past ++ t } := by
  induction p generalizing ws t past with
  | ret b =>
      cases h
      rw [List.append_nil]
      rfl
  | fail e => cases h
  | panic => cases h
  | call op k ih =>
      cases h with
      | call w h =>
          rw [List.append_cons]
          exact ih _ h _
  | pick k ih =>
      cases h with
      | pick w h => exact ih _ h past

/-- A sequence that succeeds has done so part by part. -/
theorem comesTo_seq {p : Calls Op Ans ε α} {f : α → Calls Op Ans ε β} {ws : List (World Ans)}
    {t : Past Ans} {b : β} (h : ComesTo (p >>= f) ws t (.ok b)) :
    ∃ a ws₁ ws₂ t₁ t₂, ws = ws₁ ++ ws₂ ∧ t = t₁ ++ t₂ ∧ ComesTo p ws₁ t₁ (.ok a) ∧
      ComesTo (f a) ws₂ t₂ (.ok b) := by
  induction p generalizing ws t with
  | ret a => exact ⟨a, [], ws, [], t, rfl, rfl, ComesTo.ret a, h⟩
  | fail e => cases h
  | panic => cases h
  | call op k ih =>
      cases h with
      | call w h =>
          rcases ih _ h with ⟨a, ws₁, ws₂, t₁, t₂, rfl, rfl, hp, hf⟩
          exact ⟨a, _, ws₂, _, t₂, rfl, rfl, ComesTo.call w hp, hf⟩
  | pick k ih =>
      cases h with
      | pick w h =>
          rcases ih _ h with ⟨a, ws₁, ws₂, t₁, t₂, rfl, rfl, hp, hf⟩
          exact ⟨a, _, ws₂, t₁, t₂, rfl, rfl, ComesTo.pick w hp, hf⟩

/-- Going on with a result takes no turn, so what follows it is all there is. -/
theorem comesTo_seq_lift {o : Outcome ε α} {f : α → Calls Op Ans ε β} {ws : List (World Ans)}
    {t : Past Ans} {b : β} (h : ComesTo (lift o >>= f) ws t (.ok b)) :
    ∃ a, o = .ok a ∧ ComesTo (f a) ws t (.ok b) := by
  cases o with
  | ok a => exact ⟨a, rfl, h⟩
  | err e => cases h
  | panic => cases h

theorem comesTo_mapErr {f : ε → ε'} {p : Calls Op Ans ε α} {ws : List (World Ans)} {t : Past Ans}
    {a : α} (h : ComesTo (p.mapErr f) ws t (.ok a)) : ComesTo p ws t (.ok a) := by
  induction p generalizing ws t with
  | ret b =>
      cases h
      exact ComesTo.ret _
  | fail e => cases h
  | panic => cases h
  | call op k ih =>
      cases h with
      | call w h => exact ComesTo.call w (ih _ h)
  | pick k ih =>
      cases h with
      | pick w h => exact ComesTo.pick w (ih _ h)

/-- What a program returns where its calls are answered from a state, and the
    state it leaves. No timer fires. -/
def answeredBy {σ : Type} (h : (op : Op) → σ → Ans op × σ) :
    Calls Op Ans ε α → σ → Option (α × σ)
  | ret a, s => some (a, s)
  | fail _, _ => none
  | panic, _ => none
  | call op k, s => answeredBy h (k (h op s).1) (h op s).2
  | pick k, s => answeredBy h (k false) s

theorem answeredBy_bind {σ : Type} (h : (op : Op) → σ → Ans op × σ) (p : Calls Op Ans ε α)
    (f : α → Calls Op Ans ε β) (s : σ) :
    answeredBy h (p >>= f) s = (answeredBy h p s).bind (fun r => answeredBy h (f r.1) r.2) := by
  induction p generalizing s with
  | ret a => rfl
  | fail e => rfl
  | panic => rfl
  | call op k ih => exact ih _ _
  | pick k ih => exact ih _ _

theorem answeredBy_mapErr {σ : Type} (h : (op : Op) → σ → Ans op × σ) (f : ε → ε')
    (p : Calls Op Ans ε α) (s : σ) : answeredBy h (p.mapErr f) s = answeredBy h p s := by
  induction p generalizing s with
  | ret a => rfl
  | fail e => rfl
  | panic => rfl
  | call op k ih => exact ih _ _
  | pick k ih => exact ih _ _

theorem eq_ret_of_returned {p : Calls Op Ans ε α} {a : α} (h : p.returned = some a) :
    p = ret a := by
  cases p with
  | ret b => exact congrArg ret (Option.some.inj h)
  | fail e => cases h
  | panic => cases h
  | call op k => cases h
  | pick k => cases h

/-! ## Contracts -/

/-- The precondition under which every call of a program is one that `P`
    permits, and the program returns only with `R`. -/
def Keeps (P : Past Ans → Op → Prop) :
    Calls Op Ans ε α → (α → Past Ans → Prop) → Past Ans → Prop
  | ret a, R, t => R a t
  | fail _, _, _ => True
  | panic, _, _ => True
  | call op k, R, t => P t op ∧ ∀ a, Keeps P (k a) R (t ++ [⟨op, a⟩])
  | pick k, R, t => ∀ b, Keeps P (k b) R t

/-- Every call in a past was permitted by the past in front of it. -/
def Abides (P : Past Ans → Op → Prop) (t : Past Ans) : Prop :=
  ∀ front e rest, t = front ++ e :: rest → P front e.1

theorem abides_nil (P : Past Ans → Op → Prop) : Abides P [] := by
  intro front e rest h
  exact absurd h.symm (List.append_ne_nil_of_right_ne_nil _ (List.cons_ne_nil _ _))

theorem abides_snoc {P : Past Ans → Op → Prop} {t : Past Ans} (h : Abides P t) (op : Op)
    (hop : P t op) (a : Ans op) : Abides P (t ++ [⟨op, a⟩]) := by
  intro front e rest heq
  -- The call is the last one, or one of those in front of it.
  rcases List.eq_nil_or_concat rest with rfl | ⟨rest', e', rfl⟩
  · have hlast := List.append_inj' heq rfl
    rw [← hlast.1, ← (List.cons.inj hlast.2).1]
    exact hop
  · rw [List.concat_eq_append, ← List.cons_append, ← List.append_assoc] at heq
    exact h front e rest' (List.append_inj' heq rfl).1

variable {P : Past Ans → Op → Prop}

theorem Keeps.imp {p : Calls Op Ans ε α} {R R' : α → Past Ans → Prop} {t : Past Ans}
    (h : p.Keeps P R t) (himp : ∀ a t', R a t' → R' a t') : p.Keeps P R' t := by
  induction p generalizing t with
  | ret a => exact himp a t h
  | fail e => trivial
  | panic => trivial
  | call op k ih => exact ⟨h.1, fun a => ih a (h.2 a)⟩
  | pick k ih => exact fun b => ih b (h b)

/-- A program that follows a policy follows a more permissive one. -/
theorem Keeps.weaken {P' : Past Ans → Op → Prop} {p : Calls Op Ans ε α} {R : α → Past Ans → Prop}
    {t : Past Ans} (h : p.Keeps P R t) (hP : ∀ t op, P t op → P' t op) : p.Keeps P' R t := by
  induction p generalizing t with
  | ret a => exact h
  | fail e => trivial
  | panic => trivial
  | call op k ih => exact ⟨hP t op h.1, fun a => ih a (h.2 a)⟩
  | pick k ih => exact fun b => ih b (h b)

/-- A program that follows every policy of a family follows all of them. -/
theorem Keeps.all {γ : Type} [Nonempty γ] {Q : γ → Past Ans → Op → Prop} {p : Calls Op Ans ε α}
    {R : α → Past Ans → Prop} {t : Past Ans} (h : ∀ g, p.Keeps (Q g) R t) :
    p.Keeps (fun t op => ∀ g, Q g t op) R t := by
  induction p generalizing t with
  | ret a => exact h (Classical.arbitrary γ)
  | fail e => trivial
  | panic => trivial
  | call op k ih => exact ⟨fun g => (h g).1, fun a => ih a fun g => (h g).2 a⟩
  | pick k ih => exact fun b => ih b fun g => h g b

/-- A program that comes to a value does so with its postcondition. -/
theorem Keeps.of_comesTo {p : Calls Op Ans ε α} {R : α → Past Ans → Prop} {t t' : Past Ans}
    {ws : List (World Ans)} {a : α} (h : p.Keeps P R t) (hp : ComesTo p ws t' (.ok a)) :
    R a (t ++ t') := by
  induction p generalizing t ws t' with
  | ret b =>
      cases hp
      rw [List.append_nil]
      exact h
  | fail e => cases hp
  | panic => cases hp
  | call op k ih =>
      cases hp with
      | call w hp =>
          rw [List.append_cons]
          exact ih _ (h.2 _) hp
  | pick k ih =>
      cases hp with
      | pick w hp => exact ih _ (h _) hp

/-- A program only adds to its past. -/
theorem Keeps.extends {p : Calls Op Ans ε α} {R : α → Past Ans → Prop} {t : Past Ans}
    (h : p.Keeps P R t) : p.Keeps P (fun a t' => R a t' ∧ t <+: t') t := by
  -- The past the contract started from stays a front of the current one.
  suffices hfront : ∀ t₀, t₀ <+: t → p.Keeps P (fun a t' => R a t' ∧ t₀ <+: t') t from
    hfront t (List.prefix_refl t)
  intro t₀ ht₀
  induction p generalizing t with
  | ret a => exact ⟨h, ht₀⟩
  | fail e => trivial
  | panic => trivial
  | call op k ih => exact ⟨h.1, fun a => ih a (h.2 a) (ht₀.trans (List.prefix_append _ _))⟩
  | pick k ih => exact fun b => ih b (h b) ht₀

theorem keeps_seq {p : Calls Op Ans ε α} {f : α → Calls Op Ans ε β} {R : β → Past Ans → Prop}
    {t : Past Ans} (h : p.Keeps P (fun a t' => (f a).Keeps P R t') t) :
    (p >>= f).Keeps P R t := by
  induction p generalizing t with
  | ret a => exact h
  | fail e => trivial
  | panic => trivial
  | call op k ih => exact ⟨h.1, fun a => ih a (h.2 a)⟩
  | pick k ih => exact fun b => ih b (h b)

/-- The rule of sequencing: the second part starts where the first ends, with
    what the first has added to the past. -/
theorem keeps_bind {p : Calls Op Ans ε α} {f : α → Calls Op Ans ε β} {S : α → Past Ans → Prop}
    {R : β → Past Ans → Prop} {t : Past Ans} (hp : p.Keeps P S t)
    (hf : ∀ a t', S a t' → t <+: t' → (f a).Keeps P R t') : (p >>= f).Keeps P R t :=
  keeps_seq (hp.extends.imp fun a t' h => hf a t' h.1 h.2)

theorem keeps_lift {o : Outcome ε α} {R : α → Past Ans → Prop} {t : Past Ans}
    (h : ∀ a, o = .ok a → R a t) : (lift o : Calls Op Ans ε α).Keeps P R t := by
  cases o with
  | ok a => exact h a rfl
  | err e => trivial
  | panic => trivial

theorem keeps_ask {op : Op} {R : Ans op → Past Ans → Prop} {t : Past Ans} (hop : P t op)
    (h : ∀ a, R a (t ++ [⟨op, a⟩])) : (ask op : Calls Op Ans ε (Ans op)).Keeps P R t :=
  ⟨hop, h⟩

theorem keeps_mapErr {f : ε → ε'} {p : Calls Op Ans ε α} {R : α → Past Ans → Prop} {t : Past Ans}
    (h : p.Keeps P R t) : (p.mapErr f).Keeps P R t := by
  induction p generalizing t with
  | ret a => exact h
  | fail e => trivial
  | panic => trivial
  | call op k ih => exact ⟨h.1, fun a => ih a (h.2 a)⟩
  | pick k ih => exact fun b => ih b (h b)

/-- Under a timeout a program keeps to the policy, whenever it is abandoned, and
    what it returns in time is what it would return. -/
theorem keeps_within {p : Calls Op Ans ε α} {R : α → Past Ans → Prop} {t : Past Ans}
    (h : p.Keeps P R t) :
    (within p : Calls Op Ans ε' (Option (Outcome ε α))).Keeps P
      (fun ended t' => ∀ a, ended = some (.ok a) → R a t') t := by
  induction p generalizing t with
  | ret a =>
      rintro a' ⟨⟩
      exact h
  | fail e =>
      rintro a ⟨⟩
  | panic =>
      rintro a ⟨⟩
  | call op k ih =>
      refine ⟨h.1, fun a late => ?_⟩
      cases late with
      | true =>
          rintro a' ⟨⟩
      | false => exact ih a (h.2 a)
  | pick k ih => exact fun b => ih b (h b)

/-- A turn of a program keeps its contract. -/
theorem keeps_step {R : α → Past Ans → Prop} (s : Running Op Ans ε α) (w : World Ans)
    (s' : Running Op Ans ε α) (hstep : step s w = some s')
    (h : Abides P s.past ∧ s.prog.Keeps P R s.past) :
    Abides P s'.past ∧ s'.prog.Keeps P R s'.past := by
  rcases s with ⟨p, t⟩
  rcases h with ⟨habides, hkeeps⟩
  cases p with
  | ret a => cases hstep
  | fail e => cases hstep
  | panic => cases hstep
  | call op k =>
      cases hstep
      exact ⟨abides_snoc habides op hkeeps.1 _, hkeeps.2 _⟩
  | pick k =>
      cases hstep
      exact ⟨habides, hkeeps _⟩

/-- In every world, a program that starts with its precondition keeps to the
    policy, and has the precondition of what is left of it. -/
theorem keeps_of_run {R : α → Past Ans → Prop} (s : Running Op Ans ε α)
    (h : Abides P s.past ∧ s.prog.Keeps P R s.past) (ws : List (World Ans))
    (s' : Running Op Ans ε α) (hrun : Machine.runFrom step s ws = some s') :
    Abides P s'.past ∧ s'.prog.Keeps P R s'.past :=
  Machine.run_invariant (fun s => Abides P s.past ∧ s.prog.Keeps P R s.past) keeps_step ws s s'
    hrun h

/-! ## Policies that are chosen -/

section

variable {γ : Type} (Q : γ → Past Ans → Op → Prop) (R : γ → α → Past Ans → Prop)

/-- The precondition of a contract whose policy has a parameter that the answers
    decide. What is called before that is permitted for every value. -/
inductive KeepsOne : Calls Op Ans ε α → Past Ans → Prop where
  | chosen {p : Calls Op Ans ε α} {t : Past Ans} (g : γ) (h : p.Keeps (Q g) (R g) t) : KeepsOne p t
  | call {op : Op} {k : Ans op → Calls Op Ans ε α} {t : Past Ans} (hop : ∀ g, Q g t op)
      (h : ∀ a, KeepsOne (k a) (t ++ [⟨op, a⟩])) : KeepsOne (call op k) t
  | pick {k : Bool → Calls Op Ans ε α} {t : Past Ans} (h : ∀ b, KeepsOne (k b) t) :
      KeepsOne (pick k) t

variable {Q R}

/-- The choice may be left to the second part of a sequence. -/
theorem keepsOne_seq [Nonempty γ] {p : Calls Op Ans ε β} {f : β → Calls Op Ans ε α} {t : Past Ans}
    (h : p.Keeps (fun t op => ∀ g, Q g t op) (fun b t' => KeepsOne Q R (f b) t') t) :
    KeepsOne Q R (p >>= f) t := by
  induction p generalizing t with
  | ret b => exact h
  | fail e => exact KeepsOne.chosen (Classical.arbitrary γ) trivial
  | panic => exact KeepsOne.chosen (Classical.arbitrary γ) trivial
  | call op k ih => exact KeepsOne.call h.1 fun a => ih a (h.2 a)
  | pick k ih => exact KeepsOne.pick fun b => ih b (h b)

theorem KeepsOne.mono {Q' : γ → Past Ans → Op → Prop} {R' : γ → α → Past Ans → Prop}
    {p : Calls Op Ans ε α} {t : Past Ans} (h : KeepsOne Q R p t)
    (hQ : ∀ g t op, Q g t op → Q' g t op)
    (hR : ∀ g a t, R g a t → R' g a t) : KeepsOne Q' R' p t := by
  induction h with
  | chosen g h => exact KeepsOne.chosen g ((h.weaken (hQ g)).imp (hR g))
  | call hop _ ih => exact KeepsOne.call (fun g => hQ g _ _ (hop g)) ih
  | pick _ ih => exact KeepsOne.pick ih

/-- Before the choice, a past abides by the policy for every value, and after
    it for the one that was chosen. -/
theorem keepsOne_step (s : Running Op Ans ε α) (w : World Ans) (s' : Running Op Ans ε α)
    (hstep : step s w = some s')
    (h : (∃ g, Abides (Q g) s.past ∧ s.prog.Keeps (Q g) (R g) s.past) ∨
      (∀ g, Abides (Q g) s.past) ∧ KeepsOne Q R s.prog s.past) :
    (∃ g, Abides (Q g) s'.past ∧ s'.prog.Keeps (Q g) (R g) s'.past) ∨
      (∀ g, Abides (Q g) s'.past) ∧ KeepsOne Q R s'.prog s'.past := by
  rcases h with ⟨g, h⟩ | ⟨habides, hkeeps⟩
  · exact Or.inl ⟨g, keeps_step s w s' hstep h⟩
  · rcases s with ⟨p, t⟩
    cases hkeeps with
    | chosen g hkeeps => exact Or.inl ⟨g, keeps_step _ w s' hstep ⟨habides g, hkeeps⟩⟩
    | call hop hkeeps =>
        cases hstep
        exact Or.inr ⟨fun g => abides_snoc (habides g) _ (hop g) _, hkeeps _⟩
    | pick hkeeps =>
        cases hstep
        exact Or.inr ⟨habides, hkeeps _⟩

/-- In every world there is one value for which the whole past abides by the
    policy, and with which the program returns. -/
theorem keepsOne_of_run [Nonempty γ] (s : Running Op Ans ε α) (hpast : ∀ g, Abides (Q g) s.past)
    (h : KeepsOne Q R s.prog s.past) (ws : List (World Ans)) (s' : Running Op Ans ε α)
    (hrun : Machine.runFrom step s ws = some s') :
    ∃ g, Abides (Q g) s'.past ∧ ∀ a, s'.prog = ret a → R g a s'.past := by
  rcases Machine.run_invariant _ keepsOne_step ws s s' hrun (Or.inr ⟨hpast, h⟩)
    with ⟨g, habides, hkeeps⟩ | ⟨habides, hkeeps⟩
  · refine ⟨g, habides, fun a hret => ?_⟩
    rw [hret] at hkeeps
    exact hkeeps
  · rcases s' with ⟨p, t⟩
    cases hkeeps with
    | chosen g hkeeps =>
        refine ⟨g, habides g, fun a hret => ?_⟩
        subst hret
        exact hkeeps
    | call hop hkeeps => exact ⟨Classical.arbitrary γ, habides _, fun a hret => by cases hret⟩
    | pick hkeeps => exact ⟨Classical.arbitrary γ, habides _, fun a hret => by cases hret⟩

end

end Calls

end ProxyPen
