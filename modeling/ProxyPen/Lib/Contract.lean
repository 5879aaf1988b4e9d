import ProxyPen.Lib.Machine
import ProxyPen.Lib.Stream

/-!
# Contracts of Stream Programs

A program of a duplex stream whose peer may send anything. What such a program
has done is its trail: its log, the bytes it has read, and the bytes it has
written. `Keeps` is the precondition under which a program keeps a condition
on its trail at every moment, jumps only with the invariant of its loop, panics
only where it may, and returns only with its postcondition.

`Keeps` is computed from the program, so a contract is proved by walking
through it, and a call is dealt with by the contract of what is called. It is
sound for every schedule and every peer: `Exposed` is a party to which bytes
arrive from outside, in any portions and at any time, and a party that starts
with its precondition has it in every state it can reach. A program without a
loop does under every schedule what its complete run does.

## Main definitions

* `Trail`: What a program has done.
* `Proc.Keeps`: The precondition of a contract.
* `Proc.OnlyReads`: A program that does nothing but read.
* `Exposed`: A party and an arbitrary peer.
* `Exposed.Settled`: No turn of the party is possible.

## Theorems

* `keeps_bind`: The rule of sequencing.
* `keeps_of_onlyReads`, `keeps_of_puts`: The rules of readers and writers.
* `keeps_reader`, `keeps_writer`: The same in front of the rest of a program.
* `converse_of_onlyReads`, `converse_of_puts`: Readers and writers in a
  complete run.
* `exposed_keeps`: Soundness.
* `exposed_taken`: What has been read and what is waiting is what has arrived.
* `settled_converse`, `settled_ret_iff`: Schedule independence.
-/

namespace ProxyPen

/-- What a program has done so far: its log, the bytes it has read, and the
    bytes it has written. -/
structure Trail (ε : Type) where
  log : List ε
  taken : Bytes
  out : Bytes

namespace Trail

variable {ε : Type}

def start : Trail ε := { log := [], taken := [], out := [] }

def read (t : Trail ε) (bs : Bytes) : Trail ε := { t with taken := t.taken ++ bs }

def wrote (t : Trail ε) (bs : Bytes) : Trail ε := { t with out := t.out ++ bs }

def logged (t : Trail ε) (e : ε) : Trail ε := { t with log := t.log ++ [e] }

@[simp] theorem read_nil (t : Trail ε) : t.read [] = t := by
  rw [read, List.append_nil]

@[simp] theorem wrote_nil (t : Trail ε) : t.wrote [] = t := by
  rw [wrote, List.append_nil]

@[simp] theorem read_read (t : Trail ε) (bs cs : Bytes) :
    (t.read bs).read cs = t.read (bs ++ cs) := by
  simp only [read, List.append_assoc]

@[simp] theorem wrote_wrote (t : Trail ε) (bs cs : Bytes) :
    (t.wrote bs).wrote cs = t.wrote (bs ++ cs) := by
  simp only [wrote, List.append_assoc]

end Trail

namespace Proc

variable {κ ε α β : Type} (J : κ → Trail ε → Prop) (P Q : Trail ε → Prop)

/-- The precondition under which a program keeps `Q` at every moment, jumps to
    the head of its loop with `J`, panics with `P`, and returns with `R`. -/
def Keeps : Proc κ ε α → (α → Trail ε → Prop) → Trail ε → Prop
  | ret a, R, t => Q t ∧ R a t
  | fail _, _, t => Q t
  | panic, _, t => Q t ∧ P t
  | again i, _, t => Q t ∧ J i t
  -- A read may stop at any byte, and so may a write.
  | readExact n k, R, t =>
      (∀ bs, bs.length ≤ n → Q (t.read bs)) ∧ ∀ bs, bs.length = n → Keeps (k bs) R (t.read bs)
  | writeAll bs k, R, t => (∀ front, front <+: bs → Q (t.wrote front)) ∧ Keeps k R (t.wrote bs)
  | mark e k, R, t => Q t ∧ Keeps k R (t.logged e)

variable {J P Q}

theorem Keeps.now {p : Proc κ ε α} {R : α → Trail ε → Prop} {t : Trail ε} (h : p.Keeps J P Q R t) :
    Q t := by
  cases p with
  | ret a => exact h.1
  | fail e => exact h
  | panic => exact h.1
  | again i => exact h.1
  | readExact n k =>
      have hnil := h.1 [] (Nat.zero_le _)
      rwa [Trail.read_nil] at hnil
  | writeAll bs k =>
      have hnil := h.1 [] List.nil_prefix
      rwa [Trail.wrote_nil] at hnil
  | mark e k => exact h.1

/-- The rule of sequencing: the first part ends where the second may start. -/
theorem keeps_bind {p : Proc κ ε α} {f : α → Proc κ ε β} {R : β → Trail ε → Prop} {t : Trail ε}
    (h : p.Keeps J P Q (fun a t => (f a).Keeps J P Q R t) t) : (p >>= f).Keeps J P Q R t := by
  induction p generalizing t with
  | ret a => exact h.2
  | fail e => exact h
  | panic => exact h
  | again i => exact h
  | readExact n k ih => exact ⟨h.1, fun bs hbs => ih bs (h.2 bs hbs)⟩
  | writeAll bs k ih => exact ⟨h.1, ih h.2⟩
  | mark e k ih => exact ⟨h.1, ih h.2⟩

theorem Keeps.imp {p : Proc κ ε α} {R R' : α → Trail ε → Prop} {t : Trail ε}
    (h : p.Keeps J P Q R t) (himp : ∀ a t, R a t → R' a t) : p.Keeps J P Q R' t := by
  induction p generalizing t with
  | ret a => exact ⟨h.1, himp a t h.2⟩
  | fail e => exact h
  | panic => exact h
  | again i => exact h
  | readExact n k ih => exact ⟨h.1, fun bs hbs => ih bs (h.2 bs hbs)⟩
  | writeAll bs k ih => exact ⟨h.1, ih h.2⟩
  | mark e k ih => exact ⟨h.1, ih h.2⟩

/-- A program that does nothing but read, and may fail. -/
inductive OnlyReads : Proc κ ε α → Prop where
  | ret (a : α) : OnlyReads (ret a)
  | fail (e : String) : OnlyReads (fail e)
  | read (n : Nat) (k : Bytes → Proc κ ε α) (hk : ∀ bs, OnlyReads (k bs)) :
      OnlyReads (readExact n k)

theorem onlyReads_bind {p : Proc κ ε α} {f : α → Proc κ ε β} (hp : OnlyReads p)
    (hf : ∀ a, OnlyReads (f a)) : OnlyReads (p >>= f) := by
  induction hp with
  | ret a => exact hf a
  | fail e => exact OnlyReads.fail e
  | read n k _ ih => exact OnlyReads.read n _ ih

theorem onlyReads_read (n : Nat) : OnlyReads (read n : Proc κ ε Bytes) :=
  OnlyReads.read n ret OnlyReads.ret

theorem onlyReads_ite {c : Prop} [Decidable c] {p q : Proc κ ε α} (hp : OnlyReads p)
    (hq : OnlyReads q) : OnlyReads (if c then p else q) := by
  split
  · exact hp
  · exact hq

/-- A reader takes a complete byte string where it reads it to the end. -/
theorem takes_iff_readFrom {p : Proc κ ε α} (hp : OnlyReads p) (bs : Bytes) (a : α) :
    Takes p bs a ↔ readFrom p bs = some (a, []) := by
  constructor
  · intro h
    have hread := readFrom_of_takes h []
    rwa [List.append_nil] at hread
  · intro h
    induction hp generalizing bs with
    | ret b =>
        rw [readFrom, Option.some.injEq, Prod.mk.injEq] at h
        rw [h.1, h.2]
        exact Takes.ret a
    | fail e => exact absurd h (by simp only [readFrom, reduceCtorEq, not_false_eq_true])
    | read n k _ ih =>
        rw [readFrom] at h
        by_cases hlen : n ≤ bs.length
        · rw [if_pos hlen] at h
          rw [← List.take_append_drop n bs]
          exact Takes.read n k _ _ a (by rw [List.length_take]; omega) (ih _ _ h)
        · rw [if_neg hlen] at h
          exact absurd h (by simp only [reduceCtorEq, not_false_eq_true])

/-- A complete run of a reader and then a program takes the reader's bytes
    first. -/
theorem converse_of_onlyReads {p : Proc κ ε α} (hp : OnlyReads p) (f : α → Proc κ ε β)
    (inp : Bytes) :
    (converse (p >>= f) inp).1
      = (readFrom p inp).bind (fun r => (converse (f r.1) r.2).1) := by
  induction hp generalizing inp with
  | ret a => rfl
  | fail e => rfl
  | read n k _ ih =>
      rw [readExact_bind, converse, readFrom]
      by_cases hlen : n ≤ inp.length
      · rw [if_pos hlen, if_pos hlen]
        exact ih _ _
      · rw [if_neg hlen, if_neg hlen]
        rfl

/-- What a complete run writes does not change what it returns. -/
theorem converse_of_puts {p : Proc κ ε Unit} {bs : Bytes} (hp : Puts p bs)
    (f : Unit → Proc κ ε β) (inp : Bytes) :
    (converse (p >>= f) inp).1 = (converse (f ()) inp).1 := by
  induction hp with
  | ret => rfl
  | write cs k bs _ ih => exact ih

/-- The rule of readers: for a condition that reading cannot break, only what
    the reader takes matters. -/
theorem keeps_of_onlyReads {p : Proc κ ε α} (hp : OnlyReads p) {R : α → Trail ε → Prop}
    {t : Trail ε} (hQ : ∀ bs, Q (t.read bs)) (hR : ∀ bs a, Takes p bs a → R a (t.read bs)) :
    p.Keeps J P Q R t := by
  induction hp generalizing t with
  | ret a =>
      have hnow := hQ []
      have hpost := hR [] a (Takes.ret a)
      rw [Trail.read_nil] at hnow hpost
      exact ⟨hnow, hpost⟩
  | fail e =>
      have hnow := hQ []
      rwa [Trail.read_nil] at hnow
  | read n k _ ih =>
      refine ⟨fun bs _ => hQ bs, fun bs hbs => ih bs ?_ ?_⟩
      · intro cs
        rw [Trail.read_read]
        exact hQ (bs ++ cs)
      · intro cs a hcs
        rw [Trail.read_read]
        exact hR (bs ++ cs) a (Takes.read n k bs cs a hbs hcs)

/-- The rule of writers: every front of what is written is written at some
    moment. -/
theorem keeps_of_puts {w : Proc κ ε Unit} {bs : Bytes} (hw : Puts w bs) {R : Unit → Trail ε → Prop}
    {t : Trail ε} (hQ : ∀ front, front <+: bs → Q (t.wrote front)) (hR : R () (t.wrote bs)) :
    w.Keeps J P Q R t := by
  induction hw generalizing t with
  | ret =>
      have hnow := hQ [] List.nil_prefix
      rw [Trail.wrote_nil] at hnow hR
      exact ⟨hnow, hR⟩
  | write cs k bs _ ih =>
      refine ⟨fun front hfront => hQ front (hfront.trans (List.prefix_append cs bs)), ih ?_ ?_⟩
      · intro front hfront
        rw [Trail.wrote_wrote]
        exact hQ _ ((List.prefix_append_right_inj cs).mpr hfront)
      · rw [Trail.wrote_wrote]
        exact hR

/-- A reader in front of the rest of a program. -/
theorem keeps_reader {p : Proc κ ε α} (hp : OnlyReads p) {f : α → Proc κ ε β} {t : Trail ε}
    (hQ : ∀ bs, Q (t.read bs)) (hf : ∀ bs a, Takes p bs a → (f a).Keeps J P Q R (t.read bs)) :
    (p >>= f).Keeps J P Q R t :=
  keeps_bind (keeps_of_onlyReads hp hQ hf)

/-- A writer in front of the rest of a program. -/
theorem keeps_writer {w : Proc κ ε Unit} {bs : Bytes} (hw : Puts w bs) {f : Unit → Proc κ ε β}
    {t : Trail ε} (hQ : ∀ front, front <+: bs → Q (t.wrote front))
    (hf : (f ()).Keeps J P Q R (t.wrote bs)) : (w >>= f).Keeps J P Q R t :=
  keeps_bind (keeps_of_puts hw hQ hf)

/-- What a program that has ended returned. -/
def value : Proc κ ε α → Option α
  | ret a => some a
  | fail _ => none
  | panic => none
  | again _ => none
  | readExact _ _ => none
  | writeAll _ _ => none
  | mark _ _ => none

end Proc

/-- A party and an arbitrary peer: the bytes that have arrived and wait to be
    read, and the party's history. -/
structure Exposed (κ ε α : Type) where
  party : Party κ ε α
  waiting : Bytes
  taken : Bytes
  out : Bytes

/-- What happens to an exposed party. -/
inductive Exposure where
  | arrive (bs : Bytes)
  | turn (k : Nat)

/-- The bytes that an event brings. -/
def Exposure.bytes : Exposure → Bytes
  | .arrive bs => bs
  | .turn _ => []

/-- Turns that move items of the given lengths, each of them whole. -/
def wholeTurns (lengths : List Nat) : List Exposure := lengths.flatMap (fun n => [.turn n, .turn 0])

namespace Exposed

variable {κ ε α : Type} (body : κ → Proc κ ε α)

/-- Before the first turn. -/
def init (p : Proc κ ε α) : Exposed κ ε α :=
  { party := { proc := p, log := [] }, waiting := [], taken := [], out := [] }

def step (s : Exposed κ ε α) : Exposure → Option (Exposed κ ε α)
  | .arrive bs => some { s with waiting := s.waiting ++ bs }
  | .turn k => match s.party.advance body s.waiting k with
    | none => none
    | some (party, rest, written) =>
        some { party
               waiting := rest
               taken := s.taken ++ s.waiting.take (s.waiting.length - rest.length)
               out := s.out ++ written }

def trail (s : Exposed κ ε α) : Trail ε :=
  { log := s.party.log, taken := s.taken, out := s.out }

variable {body} {J : κ → Trail ε → Prop} {P Q : Trail ε → Prop} {R : α → Trail ε → Prop}

/-- A turn takes a front of what is waiting. -/
theorem advance_rest {p p' : Party κ ε α} {inp rest out : Bytes} {k : Nat}
    (h : p.advance body inp k = some (p', rest, out)) :
    inp.take (inp.length - rest.length) ++ rest = inp := by
  have hself : inp.take (inp.length - inp.length) ++ inp = inp := by
    rw [Nat.sub_self, List.take_zero, List.nil_append]
  rcases p with ⟨proc, log⟩
  cases proc with
  | ret a => cases h
  | fail e => cases h
  | panic => cases h
  | again i => cases h; exact hself
  | mark e q => cases h; exact hself
  | readExact n f =>
      cases n with
      | zero => cases h; exact hself
      | succ n =>
          simp only [Party.advance, Option.ite_none_right_eq_some, Option.some.injEq,
            Prod.mk.injEq] at h
          rcases h with ⟨⟨_, _, hle⟩, _, rfl, _⟩
          rw [List.length_drop, Nat.sub_sub_self hle, List.take_append_drop]
  | writeAll bs q =>
      cases bs with
      | nil => cases h; exact hself
      | cons b bs =>
          simp only [Party.advance, Option.ite_none_right_eq_some, Option.some.injEq,
            Prod.mk.injEq] at h
          rcases h with ⟨_, _, rfl, _⟩
          exact hself

theorem step_taken {s s' : Exposed κ ε α} {e : Exposure} (h : s.step body e = some s') :
    s'.taken ++ s'.waiting = s.taken ++ s.waiting ++ e.bytes := by
  cases e with
  | arrive bs =>
      cases h
      exact (List.append_assoc s.taken s.waiting bs).symm
  | turn k =>
      rw [step] at h
      split at h
      · cases h
      · rename_i party rest written hadv
        cases h
        rw [List.append_assoc, advance_rest hadv, Exposure.bytes, List.append_nil]

/-- A turn leaves the party with its precondition. -/
theorem keeps_step (hbody : ∀ i t, J i t → (body i).Keeps J P Q R t) (s : Exposed κ ε α)
    (e : Exposure) (s' : Exposed κ ε α) (hstep : s.step body e = some s')
    (h : s.party.proc.Keeps J P Q R s.trail) : s'.party.proc.Keeps J P Q R s'.trail := by
  cases e with
  | arrive bs =>
      cases hstep
      exact h
  | turn k =>
      rw [step] at hstep
      split at hstep
      · cases hstep
      · rename_i party rest written hadv
        cases hstep
        rcases s with ⟨⟨proc, log⟩, waiting, taken, out⟩
        -- A turn that moves no bytes leaves what was read and written as it was.
        have hnone : waiting.take (waiting.length - waiting.length) = [] := by
          rw [Nat.sub_self, List.take_zero]
        cases proc with
        | ret a => cases hadv
        | fail e => cases hadv
        | panic => cases hadv
        | again i =>
            cases hadv
            simp only [trail, hnone, List.append_nil]
            exact hbody i _ h.2
        | mark e q =>
            cases hadv
            simp only [trail, hnone, List.append_nil]
            exact h.2
        | readExact n f =>
            cases n with
            | zero =>
                cases hadv
                simp only [trail, hnone, List.append_nil]
                have hnil := h.2 [] rfl
                rwa [Trail.read_nil] at hnil
            | succ n =>
                simp only [Party.advance, Option.ite_none_right_eq_some, Option.some.injEq,
                  Prod.mk.injEq] at hadv
                rcases hadv with ⟨⟨hpos, hle, hinp⟩, rfl, rfl, rfl⟩
                have hmoved : waiting.length - (waiting.drop k).length = k := by
                  rw [List.length_drop]
                  omega
                have hk : (waiting.take k).length = k := by
                  rw [List.length_take]
                  omega
                simp only [trail, hmoved, List.append_nil]
                -- The rest of the read starts behind the bytes it has obtained.
                refine ⟨fun bs hbs => ?_, fun bs hbs => ?_⟩
                · have hq := h.1 (waiting.take k ++ bs) (by rw [List.length_append]; omega)
                  rwa [← Trail.read_read] at hq
                · have hq := h.2 (waiting.take k ++ bs) (by rw [List.length_append]; omega)
                  rwa [← Trail.read_read] at hq
        | writeAll bs q =>
            cases bs with
            | nil =>
                cases hadv
                simp only [trail, hnone, List.append_nil]
                have hnil := h.2
                rwa [Trail.wrote_nil] at hnil
            | cons b bs =>
                simp only [Party.advance, Option.ite_none_right_eq_some, Option.some.injEq,
                  Prod.mk.injEq] at hadv
                rcases hadv with ⟨⟨hpos, hle⟩, rfl, rfl, rfl⟩
                simp only [trail, hnone, List.append_nil]
                refine ⟨fun front hfront => ?_, ?_⟩
                · have hq := h.1 ((b :: bs).take k ++ front) (by
                    have hpre := (List.prefix_append_right_inj ((b :: bs).take k)).mpr hfront
                    rwa [List.take_append_drop] at hpre)
                  rwa [← Trail.wrote_wrote] at hq
                · have hq := h.2
                  rw [← List.take_append_drop k (b :: bs), ← Trail.wrote_wrote] at hq
                  exact hq

/-- Soundness: a party that starts with its precondition has it in every state
    it can reach, whatever arrives and whoever takes a turn. -/
theorem exposed_keeps {p : Proc κ ε α} (hbody : ∀ i t, J i t → (body i).Keeps J P Q R t)
    (hp : p.Keeps J P Q R Trail.start) {s : Exposed κ ε α}
    (hs : Machine.Reachable (step body) (init p) s) : s.party.proc.Keeps J P Q R s.trail :=
  Machine.reachable_invariant _ (keeps_step hbody) _ s hs hp

/-- What has been read and what is waiting is what was there at first and what
    has arrived since. -/
theorem exposed_taken (es : List Exposure) {s₀ s : Exposed κ ε α}
    (hrun : Machine.runFrom (step body) s₀ es = some s) :
    s.taken ++ s.waiting = s₀.taken ++ s₀.waiting ++ es.flatMap Exposure.bytes := by
  induction es generalizing s₀ with
  | nil =>
      cases hrun
      rw [List.flatMap_nil, List.append_nil]
  | cons e es ih =>
      rcases (Machine.runFrom_cons s₀ s e es).mp hrun with ⟨u, hstep, hrest⟩
      rw [ih hrest, step_taken hstep, List.flatMap_cons, List.append_assoc]

/-! ## Complete runs -/

/-- No turn is possible: the party has ended, or it waits for bytes. -/
def Settled (body : κ → Proc κ ε α) (s : Exposed κ ε α) : Prop :=
  ∀ k, s.step body (.turn k) = none

section

/-- The body of a program without a loop. -/
def noLoop : Empty → Proc Empty ε α := fun k => k.elim

variable {body : Empty → Proc Empty ε α}

/-- A turn of a program without a loop is a part of its complete run. -/
theorem advance_converse {p p' : Party Empty ε α} {inp rest out : Bytes} {k : Nat}
    (h : p.advance body inp k = some (p', rest, out)) (later : Bytes) :
    p.proc.converse (inp ++ later)
      = ((p'.proc.converse (rest ++ later)).1, out ++ (p'.proc.converse (rest ++ later)).2) := by
  rcases p with ⟨proc, log⟩
  cases proc with
  | ret a => cases h
  | fail e => cases h
  | panic => cases h
  | again i => exact i.elim
  | mark e q =>
      cases h
      rfl
  | readExact n f =>
      cases n with
      | zero =>
          cases h
          rw [Proc.converse, if_pos (Nat.zero_le _), List.take_zero, List.drop_zero]
          rfl
      | succ n =>
          simp only [Party.advance, Option.ite_none_right_eq_some, Option.some.injEq,
            Prod.mk.injEq] at h
          rcases h with ⟨⟨_, hle, hinp⟩, rfl, rfl, rfl⟩
          have hlen : (inp ++ later).length = k + (inp.drop k ++ later).length := by
            rw [List.length_append, List.length_append, List.length_drop]
            omega
          -- The bytes of this turn are in front of those still missing.
          have hsplit : inp ++ later = inp.take k ++ (inp.drop k ++ later) := by
            rw [← List.append_assoc, List.take_append_drop]
          have hk : (inp.take k).length = k := by
            rw [List.length_take]
            omega
          rw [Proc.converse, Proc.converse, hlen]
          by_cases hall : n + 1 ≤ k + (inp.drop k ++ later).length
          · have htake : (inp ++ later).take (n + 1)
                = inp.take k ++ (inp.drop k ++ later).take (n + 1 - k) := by
              rw [hsplit, List.take_append, hk, List.take_of_length_le (by omega)]
            have hdrop : (inp ++ later).drop (n + 1) = (inp.drop k ++ later).drop (n + 1 - k) := by
              rw [hsplit, List.drop_append, hk, List.drop_eq_nil_of_le (by omega), List.nil_append]
            rw [if_pos hall, if_pos (by omega), htake, hdrop]
            rfl
          · rw [if_neg hall, if_neg (by omega)]
            rfl
  | writeAll bs q =>
      cases bs with
      | nil =>
          cases h
          rfl
      | cons b bs =>
          simp only [Party.advance, Option.ite_none_right_eq_some, Option.some.injEq,
            Prod.mk.injEq] at h
          rcases h with ⟨_, rfl, rfl, rfl⟩
          rw [Proc.converse, Proc.converse, ← List.append_assoc, List.take_append_drop]

/-- What is left of a complete run after any part of a schedule. -/
theorem exposed_converse {p : Proc Empty ε α} {s : Exposed Empty ε α}
    (hs : Machine.Reachable (step body) (init p) s) :
    ∀ later, p.converse (s.taken ++ s.waiting ++ later)
      = ((s.party.proc.converse (s.waiting ++ later)).1,
          s.out ++ (s.party.proc.converse (s.waiting ++ later)).2) := by
  refine Machine.reachable_invariant (fun s => ∀ later, p.converse (s.taken ++ s.waiting ++ later)
    = ((s.party.proc.converse (s.waiting ++ later)).1,
        s.out ++ (s.party.proc.converse (s.waiting ++ later)).2)) ?_ _ s hs (fun _ => rfl)
  intro s e s' hstep hinv later
  rw [step_taken hstep]
  cases e with
  | arrive bs =>
      cases hstep
      rw [Exposure.bytes, List.append_assoc _ bs later, hinv (bs ++ later),
        List.append_assoc s.waiting bs later]
  | turn k =>
      rw [step] at hstep
      split at hstep
      · cases hstep
      · rename_i party rest written hadv
        cases hstep
        rw [Exposure.bytes, List.append_nil, hinv later, advance_converse hadv later,
          List.append_assoc]

/-- Schedule independence: once no turn is possible, the party has done what a
    complete run on the arrived bytes does. -/
theorem settled_converse {p : Proc Empty ε α} {s : Exposed Empty ε α}
    (hs : Machine.Reachable (step body) (init p) s) (hend : s.Settled body) :
    p.converse (s.taken ++ s.waiting) = (s.party.proc.value, s.out) := by
  have hrun := exposed_converse hs []
  rw [List.append_nil, List.append_nil] at hrun
  suffices hlast : s.party.proc.converse s.waiting = (s.party.proc.value, []) by
    rw [hrun, hlast, List.append_nil]
  rcases s with ⟨⟨proc, log⟩, waiting, taken, out⟩
  cases proc with
  | ret a => rfl
  | fail e => rfl
  | panic => rfl
  | again i => exact i.elim
  | mark e q => exact absurd (hend 0) (by simp [step, Party.advance])
  | readExact n f =>
      cases n with
      | zero => exact absurd (hend 0) (by simp [step, Party.advance])
      | succ n =>
          -- A read that cannot go on has nothing to read.
          have hone := hend 1
          cases waiting with
          | nil => rfl
          | cons b bs =>
              exact absurd hone (by simp [step, Party.advance])
  | writeAll bs q =>
      cases bs with
      | nil => exact absurd (hend 0) (by simp [step, Party.advance])
      | cons b bs => exact absurd (hend 1) (by simp [step, Party.advance])

theorem value_eq_some {p : Proc κ ε α} {a : α} : p.value = some a ↔ p = .ret a := by
  constructor
  · intro h
    cases p with
    | ret b => rw [Option.some.inj h]
    | _ => exact absurd h (by simp only [Proc.value, reduceCtorEq, not_false_eq_true])
  · intro h
    rw [h]
    rfl

/-- A party with no turn left has returned exactly where the complete run on
    what has arrived returns. -/
theorem settled_ret_iff {p : Proc Empty ε α} {es : List Exposure} {s : Exposed Empty ε α}
    (hrun : Machine.runFrom (step body) (init p) es = some s) (hend : s.Settled body) (a : α) :
    s.party.proc = .ret a ↔ (p.converse (es.flatMap Exposure.bytes)).1 = some a := by
  have htaken : s.taken ++ s.waiting = es.flatMap Exposure.bytes := exposed_taken es hrun
  rw [← htaken, settled_converse ⟨es, hrun⟩ hend, value_eq_some]

end

end Exposed

end ProxyPen
