import ProxyPen.Lib.Machine
import ProxyPen.Lib.Stream

/-!
# Lockstep of Two Processes

Two processes agree when each has a complete future that feeds on what the
other still writes. `Follows` is such a future: the bytes the process will
consume, the bytes it will produce, the entries it will log, and the value it
returns. It is a fact about one process alone, so the two halves of a
conversation are established separately, by walking their programs.

`InStep` ties two futures together through the streams: what a party is
going to read is what is already in flight towards it followed by what its
peer is still going to write. Every turn preserves this however many bytes it
moves, since a partial read or write only peels bytes off both sides of the
equation. No schedule is named anywhere, which is why one argument covers all
of them.

Log entries are messages sent, messages decoded, and notes. A process logs a
message before writing its first byte and after reading its last one, and the
two side conditions of `Follows` say exactly that: the bytes still to be read
are covered by the messages still to be decoded, and the messages still to be
sent are covered by the bytes still to be written. Comparing the two through
the streams puts a bound on how far a reader can be ahead of its writer, which
is `left_gots_prefix`: what a party has decoded is a prefix of what its peer
has sent.

## Main definitions

* `Entry`: A log entry.
* `sents`, `gots`, `notes`: The entries of each kind.
* `width`: The bytes a list of messages occupies.
* `Follows`: A complete future of one process.
* `InStep`: Two futures feeding each other.
* `Proc.send`, `Proc.recv`: Logged message output and input.
* `Speaks`: A future made of whole messages.

## Theorems

* `follows_inputs_le`: Bytes to be read are covered by messages to be decoded.
* `follows_outputs_ge`: Messages to be sent are covered by bytes to be written.
* `follows_send`, `follows_recv`: Futures of one message.
* `converse_of_follows`: A future is a complete run.
* `advance_follows`: A turn leaves a party with the rest of its future.
* `inStep_step`: A turn preserves lockstep.
* `inStep_of_reachable`: Lockstep holds in every reachable state.
* `left_gots_prefix`, `right_gots_prefix`: Decoded messages are a prefix of
  the peer's messages.
* `inStep_finished`: When both parties have ended, both streams are empty.
* `inStep_of_speaks`: Processes that speak to each other start in lockstep.
-/

namespace ProxyPen

/-- A log entry: a message about to be written, a message just decoded, or a
    note. -/
inductive Entry (μ ν : Type) where
  | sent (m : μ)
  | got (m : μ)
  | note (n : ν)
  deriving DecidableEq

namespace Lockstep

variable {μ ν κ κ₁ κ₂ α β γ : Type}

/-- The messages sent, in order. -/
def sents : List (Entry μ ν) → List μ
  | [] => []
  | .sent m :: l => m :: sents l
  | .got _ :: l => sents l
  | .note _ :: l => sents l

/-- The messages decoded, in order. -/
def gots : List (Entry μ ν) → List μ
  | [] => []
  | .sent _ :: l => gots l
  | .got m :: l => m :: gots l
  | .note _ :: l => gots l

/-- The notes taken, in order. -/
def notes : List (Entry μ ν) → List ν
  | [] => []
  | .sent _ :: l => notes l
  | .got _ :: l => notes l
  | .note n :: l => n :: notes l

@[simp] theorem sents_append (l r : List (Entry μ ν)) : sents (l ++ r) = sents l ++ sents r := by
  induction l with
  | nil => rfl
  | cons e l ih => cases e <;> simp only [List.cons_append, sents, ih]

@[simp] theorem gots_append (l r : List (Entry μ ν)) : gots (l ++ r) = gots l ++ gots r := by
  induction l with
  | nil => rfl
  | cons e l ih => cases e <;> simp only [List.cons_append, gots, ih]

@[simp] theorem notes_append (l r : List (Entry μ ν)) : notes (l ++ r) = notes l ++ notes r := by
  induction l with
  | nil => rfl
  | cons e l ih => cases e <;> simp only [List.cons_append, notes, ih]

/-- The bytes a list of messages occupies. -/
def width (len : μ → Nat) (ms : List μ) : Nat := (ms.map len).sum

theorem width_append (len : μ → Nat) (l r : List μ) :
    width len (l ++ r) = width len l + width len r := by
  simp only [width, List.map_append, List.sum_append]

theorem width_cons (len : μ → Nat) (m : μ) (l : List μ) :
    width len (m :: l) = len m + width len l := by
  simp only [width, List.map_cons, List.sum_cons]

/-- A complete future of one process: it will consume `I`, produce `O`, log
    `L`, and return `a`. -/
inductive Follows (len : μ → Nat) (body : κ → Proc κ (Entry μ ν) α) :
    Proc κ (Entry μ ν) α → Bytes → Bytes → List (Entry μ ν) → α → Prop where
  | ret (a : α) : Follows len body (.ret a) [] [] [] a
  | again (i : κ) (I O : Bytes) (L : List (Entry μ ν)) (a : α) :
      Follows len body (body i) I O L a → Follows len body (.again i) I O L a
  | read (n : Nat) (k : Bytes → Proc κ (Entry μ ν) α) (cs I O : Bytes) (L : List (Entry μ ν))
      -- Every byte still to be read belongs to a message not yet logged.
      (a : α) : cs.length = n → (cs ++ I).length ≤ width len (gots L) →
      Follows len body (k cs) I O L a → Follows len body (.readExact n k) (cs ++ I) O L a
  | write (cs : Bytes) (k : Proc κ (Entry μ ν) α) (I O : Bytes) (L : List (Entry μ ν)) (a : α) :
      Follows len body k I O L a → Follows len body (.writeAll cs k) I (cs ++ O) L a
  | sent (m : μ) (k : Proc κ (Entry μ ν) α) (I O : Bytes) (L : List (Entry μ ν)) (a : α) :
      -- The message is logged before its first byte is written.
      len m + width len (sents L) ≤ O.length →
      Follows len body k I O L a → Follows len body (.mark (.sent m) k) I O (.sent m :: L) a
  | got (m : μ) (k : Proc κ (Entry μ ν) α) (I O : Bytes) (L : List (Entry μ ν)) (a : α) :
      Follows len body k I O L a → Follows len body (.mark (.got m) k) I O (.got m :: L) a
  | note (n : ν) (k : Proc κ (Entry μ ν) α) (I O : Bytes) (L : List (Entry μ ν)) (a : α) :
      Follows len body k I O L a → Follows len body (.mark (.note n) k) I O (.note n :: L) a

section Futures

variable {len : μ → Nat} {body : κ → Proc κ (Entry μ ν) α}

/-- The bytes still to be read belong to messages still to be decoded. -/
theorem follows_inputs_le {p : Proc κ (Entry μ ν) α} {I O : Bytes} {L : List (Entry μ ν)} {a : α}
    (h : Follows len body p I O L a) : I.length ≤ width len (gots L) := by
  induction h with
  | ret a => exact Nat.zero_le _
  | again i I O L a _ ih => exact ih
  | read n k cs I O L a _ hle _ _ => exact hle
  | write cs k I O L a _ ih => exact ih
  | sent m k I O L a _ _ ih => exact ih
  | got m k I O L a _ ih =>
      rw [gots, width_cons]
      omega
  | note n k I O L a _ ih => exact ih

/-- The messages still to be sent are bytes still to be written. -/
theorem follows_outputs_ge {p : Proc κ (Entry μ ν) α} {I O : Bytes} {L : List (Entry μ ν)}
    {a : α} (h : Follows len body p I O L a) : width len (sents L) ≤ O.length := by
  induction h with
  | ret a => exact Nat.le_refl _
  | again i I O L a _ ih => exact ih
  | read n k cs I O L a _ _ _ ih => exact ih
  | write cs k I O L a _ ih =>
      rw [List.length_append]
      omega
  | sent m k I O L a hle _ _ =>
      rw [sents, width_cons]
      exact hle
  | got m k I O L a _ ih => exact ih
  | note n k I O L a _ ih => exact ih

/-- The complete run of a process without a loop is the future it has. -/
theorem converse_of_follows {body : Empty → Proc Empty (Entry μ ν) α}
    {p : Proc Empty (Entry μ ν) α} {I O : Bytes} {L : List (Entry μ ν)} {a : α}
    (h : Follows len body p I O L a) : Proc.converse p I = (some a, O) := by
  induction h with
  | ret a => rfl
  | again i => exact i.elim
  | read n k cs I O L a hlen _ _ ih =>
      subst hlen
      have hle : cs.length ≤ (cs ++ I).length := by
        rw [List.length_append]
        omega
      rw [Proc.converse, if_pos hle, List.take_left, List.drop_left]
      exact ih
  | write cs k I O L a _ ih => rw [Proc.converse, ih]
  | sent m k I O L a _ _ ih => exact ih
  | got m k I O L a _ ih => exact ih
  | note n k I O L a _ ih => exact ih

end Futures

end Lockstep

open Lockstep

/-- Log a message and write it. -/
def Proc.send {κ μ ν : Type} (m : μ) (w : Proc κ (Entry μ ν) Unit) : Proc κ (Entry μ ν) Unit :=
  .mark (.sent m) w

/-- Read a message and log it. -/
def Proc.recv {κ μ ν γ : Type} (wrap : γ → μ) (r : Proc κ (Entry μ ν) γ) :
    Proc κ (Entry μ ν) γ :=
  r >>= fun c => .mark (.got (wrap c)) (.ret c)

namespace Lockstep

variable {μ ν κ κ₁ κ₂ α β γ : Type}

section Messages

variable {len : μ → Nat} {body : κ → Proc κ (Entry μ ν) α}

theorem follows_puts {w : Proc κ (Entry μ ν) Unit} {bs : Bytes} (hw : Proc.Puts w bs)
    (k : Unit → Proc κ (Entry μ ν) α) {I O : Bytes} {L : List (Entry μ ν)} {a : α}
    (hk : Follows len body (k ()) I O L a) : Follows len body (w >>= k) I (bs ++ O) L a := by
  induction hw with
  | ret => exact hk
  | write cs q bs _ ih =>
      rw [List.append_assoc]
      exact Follows.write cs _ I (bs ++ O) L a ih

/-- The future of sending one message: its bytes, then the rest. -/
theorem follows_send (m : μ) {w : Proc κ (Entry μ ν) Unit} {bs : Bytes} (hw : Proc.Puts w bs)
    (hlen : bs.length = len m) (k : Unit → Proc κ (Entry μ ν) α) {I O : Bytes}
    {L : List (Entry μ ν)} {a : α} (hk : Follows len body (k ()) I O L a) :
    Follows len body (Proc.send m w >>= k) I (bs ++ O) (.sent m :: L) a := by
  refine Follows.sent m _ I (bs ++ O) L a ?_ (follows_puts hw k hk)
  have hout := follows_outputs_ge hk
  rw [List.length_append]
  omega

theorem follows_takes {r : Proc κ (Entry μ ν) γ} {bs : Bytes} {c : γ} (hr : Proc.Takes r bs c)
    (k : γ → Proc κ (Entry μ ν) α) {I O : Bytes} {L : List (Entry μ ν)} {a : α}
    (hwidth : (bs ++ I).length ≤ width len (gots L)) (hk : Follows len body (k c) I O L a) :
    Follows len body (r >>= k) (bs ++ I) O L a := by
  induction hr with
  | ret c => exact hk
  | read n f cs bs c hn _ ih =>
      rw [List.append_assoc] at hwidth ⊢
      refine Follows.read n _ cs (bs ++ I) O L a hn hwidth (ih ?_ hk)
      rw [List.length_append] at hwidth
      omega

/-- The future of receiving one message: its bytes, then the rest. -/
theorem follows_recv (wrap : γ → μ) {r : Proc κ (Entry μ ν) γ} {bs : Bytes} {c : γ}
    (hr : Proc.Takes r bs c) (hlen : bs.length = len (wrap c)) (k : γ → Proc κ (Entry μ ν) α)
    {I O : Bytes} {L : List (Entry μ ν)} {a : α} (hk : Follows len body (k c) I O L a) :
    Follows len body (Proc.recv wrap r >>= k) (bs ++ I) O (.got (wrap c) :: L) a := by
  rw [Proc.recv, Proc.bind_assoc]
  refine follows_takes hr _ ?_ (Follows.got (wrap c) (k c) I O L a hk)
  have hin := follows_inputs_le hk
  rw [gots, width_cons, List.length_append]
  omega

end Messages

/-- A turn leaves a party with the rest of its future: it consumed a front of
    its incoming stream, wrote a front of its output, and logged a front of
    its log. `X` is what the peer is still going to write. -/
theorem advance_follows {len : μ → Nat} {body : κ → Proc κ (Entry μ ν) α}
    {p p' : Party κ (Entry μ ν) α} {inp inp' out O X : Bytes} {L : List (Entry μ ν)} {a : α}
    {n : Nat} (hadv : p.advance body inp n = some (p', inp', out))
    (hp : Follows len body p.proc (inp ++ X) O L a) :
    ∃ O' L', Follows len body p'.proc (inp' ++ X) O' L' a ∧ O = out ++ O' ∧
      p'.log ++ L' = p.log ++ L := by
  obtain ⟨proc, log⟩ := p
  simp only at hp
  -- The case split needs the input as a variable; `hI` remembers what it was.
  generalize hI : inp ++ X = I at hp
  cases hp with
  | ret a => exact absurd hadv (by simp only [Party.advance, reduceCtorEq, not_false_eq_true])
  | again i _ _ _ _ hbody =>
      simp only [Party.advance, Option.some.injEq, Prod.mk.injEq] at hadv
      rcases hadv with ⟨rfl, rfl, rfl⟩
      exact ⟨O, L, by rw [hI]; exact hbody, rfl, rfl⟩
  | read m k cs I' _ _ _ hm hwidth hk =>
      cases m with
      | zero =>
          simp only [Party.advance, Option.some.injEq, Prod.mk.injEq] at hadv
          rcases hadv with ⟨rfl, rfl, rfl⟩
          have hcs : cs = [] := List.eq_nil_of_length_eq_zero hm
          subst hcs
          exact ⟨O, L, by rw [hI]; exact hk, rfl, rfl⟩
      | succ m =>
          simp only [Party.advance, Option.ite_none_right_eq_some, Option.some.injEq,
            Prod.mk.injEq] at hadv
          rcases hadv with ⟨⟨hpos, hle, hinp⟩, rfl, rfl, rfl⟩
          -- The bytes moved are a front of the bytes this read will obtain.
          have htake : inp.take n = cs.take n := by
            have h := congrArg (List.take n) hI
            rw [List.take_append_of_le_length hinp, List.take_append_of_le_length (by omega)] at h
            exact h
          -- What is left in flight still feeds the rest of the read and the future behind it.
          have hrest : inp.drop n ++ X = cs.drop n ++ I' := by
            have h := congrArg (List.drop n) hI
            rw [List.drop_append_of_le_length hinp, List.drop_append_of_le_length (by omega)] at h
            exact h
          refine ⟨O, L, ?_, rfl, rfl⟩
          rw [hrest, htake]
          refine Follows.read _ _ (cs.drop n) I' O L a (by rw [List.length_drop, hm]) ?_ ?_
          · rw [List.length_append] at hwidth ⊢
            rw [List.length_drop]
            omega
          · rw [List.take_append_drop]
            exact hk
  | write cs k _ O' _ _ hk =>
      cases cs with
      | nil =>
          simp only [Party.advance, Option.some.injEq, Prod.mk.injEq] at hadv
          rcases hadv with ⟨rfl, rfl, rfl⟩
          exact ⟨O', L, by rw [hI]; exact hk, rfl, rfl⟩
      | cons b bs =>
          simp only [Party.advance, Option.ite_none_right_eq_some, Option.some.injEq,
            Prod.mk.injEq] at hadv
          rcases hadv with ⟨⟨hpos, hle⟩, rfl, rfl, rfl⟩
          -- A partial write keeps the unwritten bytes in front of the later output.
          refine ⟨(b :: bs).drop n ++ O', L, ?_, ?_, rfl⟩
          · rw [hI]
            exact Follows.write _ k I O' L a hk
          · rw [← List.append_assoc, List.take_append_drop]
  | sent m k _ _ L' _ _ hk =>
      simp only [Party.advance, Option.some.injEq, Prod.mk.injEq] at hadv
      rcases hadv with ⟨rfl, rfl, rfl⟩
      exact ⟨O, L', by rw [hI]; exact hk, rfl, by rw [List.append_assoc]; rfl⟩
  | got m k _ _ L' _ hk =>
      simp only [Party.advance, Option.some.injEq, Prod.mk.injEq] at hadv
      rcases hadv with ⟨rfl, rfl, rfl⟩
      exact ⟨O, L', by rw [hI]; exact hk, rfl, by rw [List.append_assoc]; rfl⟩
  | note m k _ _ L' _ hk =>
      simp only [Party.advance, Option.some.injEq, Prod.mk.injEq] at hadv
      rcases hadv with ⟨rfl, rfl, rfl⟩
      exact ⟨O, L', by rw [hI]; exact hk, rfl, by rw [List.append_assoc]; rfl⟩

section Conversation

variable {len : μ → Nat} {bodyL : κ₁ → Proc κ₁ (Entry μ ν) α} {bodyR : κ₂ → Proc κ₂ (Entry μ ν) β}

/-- Each party has a complete future that feeds on what is in flight towards
    it and on what its peer is still going to write. `LL` and `LR` are the
    logs the parties end with, `a` and `b` what they return. -/
def InStep (len : μ → Nat) (bodyL : κ₁ → Proc κ₁ (Entry μ ν) α)
    (bodyR : κ₂ → Proc κ₂ (Entry μ ν) β) (LL LR : List (Entry μ ν)) (a : α) (b : β)
    (s : Duplex κ₁ κ₂ (Entry μ ν) α β) : Prop :=
  ∃ OL OR ML MR, Follows len bodyL s.left.proc (s.toLeft ++ OR) OL ML a ∧
    Follows len bodyR s.right.proc (s.toRight ++ OL) OR MR b ∧
    s.left.log ++ ML = LL ∧ s.right.log ++ MR = LR

variable {LL LR : List (Entry μ ν)} {a : α} {b : β}

/-- A turn preserves lockstep, whoever takes it and however many bytes it
    moves. -/
theorem inStep_step (s : Duplex κ₁ κ₂ (Entry μ ν) α β) (t : Turn)
    (s' : Duplex κ₁ κ₂ (Entry μ ν) α β) (hstep : s.step bodyL bodyR t = some s')
    (hs : InStep len bodyL bodyR LL LR a b s) : InStep len bodyL bodyR LL LR a b s' := by
  rcases hs with ⟨OL, OR, ML, MR, hL, hR, hlogL, hlogR⟩
  cases t with
  | left n =>
      rw [Duplex.step] at hstep
      rcases hadv : s.left.advance bodyL s.toLeft n with _ | ⟨p, inp, out⟩
      · rw [hadv] at hstep
        exact absurd hstep (by simp only [reduceCtorEq, not_false_eq_true])
      · rw [hadv] at hstep
        simp only [Option.some.injEq] at hstep
        rcases advance_follows hadv hL with ⟨O', L', hp, hO, hlog⟩
        subst hstep
        -- What was written has moved from the future of one into the input of the other.
        refine ⟨O', OR, L', MR, hp, ?_, hlog.trans hlogL, hlogR⟩
        rw [List.append_assoc, ← hO]
        exact hR
  | right n =>
      rw [Duplex.step] at hstep
      rcases hadv : s.right.advance bodyR s.toRight n with _ | ⟨p, inp, out⟩
      · rw [hadv] at hstep
        exact absurd hstep (by simp only [reduceCtorEq, not_false_eq_true])
      · rw [hadv] at hstep
        simp only [Option.some.injEq] at hstep
        rcases advance_follows hadv hR with ⟨O', L', hp, hO, hlog⟩
        subst hstep
        refine ⟨OL, O', ML, L', ?_, hp, hlogL, hlog.trans hlogR⟩
        rw [List.append_assoc, ← hO]
        exact hL

/-- Lockstep holds in every state any schedule reaches. -/
theorem inStep_of_reachable {s₀ s : Duplex κ₁ κ₂ (Entry μ ν) α β}
    (hr : Machine.Reachable (Duplex.step bodyL bodyR) s₀ s)
    (h0 : InStep len bodyL bodyR LL LR a b s₀) : InStep len bodyL bodyR LL LR a b s :=
  Machine.reachable_invariant _ inStep_step s₀ s hr h0

/-- Two fronts of one message list are ordered by the bytes that remain. -/
theorem prefix_of_width_le (hpos : ∀ m, 0 < len m) (A A' B B' : List μ) (heq : A ++ A' = B ++ B')
    (hle : width len B' ≤ width len A') : A <+: B := by
  by_cases hlen : A.length ≤ B.length
  · exact List.prefix_of_prefix_length_le ⟨A', heq⟩ ⟨B', rfl⟩ hlen
  · -- Otherwise the surplus of `A` over `B` is a non-empty list of messages.
    exfalso
    rcases List.prefix_of_prefix_length_le ⟨B', rfl⟩ ⟨A', heq⟩ (by omega) with ⟨C, hC⟩
    have hB' : B' = C ++ A' := by
      rw [← hC, List.append_assoc] at heq
      exact (List.append_cancel_left heq).symm
    cases C with
    | nil =>
        rw [List.append_nil] at hC
        rw [hC] at hlen
        omega
    | cons c C =>
        have hc := hpos c
        rw [hB', List.cons_append, width_cons, width_append] at hle
        omega

/-- What the left party has decoded is a prefix of what the right party has
    sent, as long as the complete logs agree. -/
theorem left_gots_prefix (hpos : ∀ m, 0 < len m) (hagree : gots LL = sents LR)
    {s : Duplex κ₁ κ₂ (Entry μ ν) α β} (hs : InStep len bodyL bodyR LL LR a b s) :
    gots s.left.log <+: sents s.right.log := by
  rcases hs with ⟨OL, OR, ML, MR, hL, hR, hlogL, hlogR⟩
  -- Undecoded messages cover the bytes to be read, and those cover the unsent ones.
  have hin := follows_inputs_le hL
  have hout := follows_outputs_ge hR
  rw [List.length_append] at hin
  refine prefix_of_width_le hpos _ (gots ML) _ (sents MR) ?_ (by omega)
  rw [← gots_append, ← sents_append, hlogL, hlogR, hagree]

/-- The same with the parties exchanged. -/
theorem right_gots_prefix (hpos : ∀ m, 0 < len m) (hagree : gots LR = sents LL)
    {s : Duplex κ₁ κ₂ (Entry μ ν) α β} (hs : InStep len bodyL bodyR LL LR a b s) :
    gots s.right.log <+: sents s.left.log := by
  rcases hs with ⟨OL, OR, ML, MR, hL, hR, hlogL, hlogR⟩
  have hin := follows_inputs_le hR
  have hout := follows_outputs_ge hL
  rw [List.length_append] at hin
  refine prefix_of_width_le hpos _ (gots MR) _ (sents ML) ?_ (by omega)
  rw [← gots_append, ← sents_append, hlogL, hlogR, hagree]

/-- A party that has returned has used up its future. -/
theorem follows_of_ret {body : κ → Proc κ (Entry μ ν) α} {I O : Bytes} {L : List (Entry μ ν)}
    {a' : α} (h : Follows len body (.ret a') I O L a) : a' = a ∧ I = [] ∧ O = [] ∧ L = [] := by
  cases h
  exact ⟨rfl, rfl, rfl, rfl⟩

/-- When both parties have returned, nothing is left in flight, the logs are
    complete, and the values are the ones lockstep promised. -/
theorem inStep_finished {s : Duplex κ₁ κ₂ (Entry μ ν) α β}
    (hs : InStep len bodyL bodyR LL LR a b s) {a' : α} {b' : β}
    (hl : s.left.proc = .ret a') (hr : s.right.proc = .ret b') :
    a' = a ∧ b' = b ∧ s.toLeft = [] ∧ s.toRight = [] ∧ s.left.log = LL ∧ s.right.log = LR := by
  rcases hs with ⟨OL, OR, ML, MR, hL, hR, hlogL, hlogR⟩
  rw [hl] at hL
  rw [hr] at hR
  rcases follows_of_ret hL with ⟨ha, hIL, hOL, hML⟩
  rcases follows_of_ret hR with ⟨hb, hIR, hOR, hMR⟩
  rw [hML, List.append_nil] at hlogL
  rw [hMR, List.append_nil] at hlogR
  exact ⟨ha, hb, (List.append_eq_nil_iff.mp hIL).1, (List.append_eq_nil_iff.mp hIR).1, hlogL, hlogR⟩

end Conversation

section Speaking

variable (bytes : μ → Bytes)

/-- The bytes of a list of messages. -/
def stream (ms : List μ) : Bytes := ms.flatMap bytes

/-- A future made of whole messages: the process consumes the bytes of the
    messages it decodes and produces those of the messages it sends. -/
def Speaks (body : κ → Proc κ (Entry μ ν) α) (p : Proc κ (Entry μ ν) α) (L : List (Entry μ ν))
    (a : α) : Prop :=
  Follows (fun m => (bytes m).length) body p (stream bytes (gots L)) (stream bytes (sents L)) L a

variable {bytes} {body : κ → Proc κ (Entry μ ν) α} {L : List (Entry μ ν)} {a : α}

theorem speaks_ret : Speaks bytes body (.ret a) [] a := Follows.ret a

theorem speaks_again (i : κ) (h : Speaks bytes body (body i) L a) :
    Speaks bytes body (.again i) L a :=
  Follows.again i _ _ L a h

theorem speaks_note (n : ν) (k : Unit → Proc κ (Entry μ ν) α) (h : Speaks bytes body (k ()) L a) :
    Speaks bytes body (Proc.note (.note n) >>= k) (.note n :: L) a :=
  Follows.note n _ _ _ L a h

theorem speaks_send (m : μ) {w : Proc κ (Entry μ ν) Unit} (hw : Proc.Puts w (bytes m))
    (k : Unit → Proc κ (Entry μ ν) α) (h : Speaks bytes body (k ()) L a) :
    Speaks bytes body (Proc.send m w >>= k) (.sent m :: L) a := by
  have hsend := follows_send m hw rfl k h
  rwa [Speaks, gots, sents, stream, stream, List.flatMap_cons]

theorem speaks_recv (wrap : γ → μ) {r : Proc κ (Entry μ ν) γ} {c : γ}
    (hr : Proc.Takes r (bytes (wrap c)) c) (k : γ → Proc κ (Entry μ ν) α)
    (h : Speaks bytes body (k c) L a) :
    Speaks bytes body (Proc.recv wrap r >>= k) (.got (wrap c) :: L) a := by
  have hrecv := follows_recv wrap hr rfl k h
  rwa [Speaks, gots, sents, stream, stream, List.flatMap_cons]

/-- Two processes that speak to each other start in lockstep. -/
theorem inStep_of_speaks {bodyL : κ₁ → Proc κ₁ (Entry μ ν) α}
    {bodyR : κ₂ → Proc κ₂ (Entry μ ν) β} {p : Proc κ₁ (Entry μ ν) α} {q : Proc κ₂ (Entry μ ν) β}
    {LL LR : List (Entry μ ν)} {b : β} (hL : Speaks bytes bodyL p LL a)
    (hR : Speaks bytes bodyR q LR b) (hLR : gots LL = sents LR) (hRL : gots LR = sents LL) :
    InStep (fun m => (bytes m).length) bodyL bodyR LL LR a b
      { left := { proc := p, log := [] }, right := { proc := q, log := [] }, toLeft := [],
        toRight := [] } := by
  rw [Speaks, hLR] at hL
  rw [Speaks, hRL] at hR
  exact ⟨_, _, LL, LR, hL, hR, rfl, rfl⟩

end Speaking

end Lockstep

end ProxyPen
