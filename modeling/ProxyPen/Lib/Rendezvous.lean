import ProxyPen.Lib.Lockstep

/-!
# Complete Runs of a Conversation

Lockstep says what every schedule leads to, and a conversation that no
schedule can finish is in lockstep too. This module supplies the runs: from a
state with both streams empty, one party sends a message and the other
receives it, and both streams are empty again. A conversation that is a
sequence of such exchanges can be completed.

The schedule moves each message in one piece, which any scheduler may do.

## Main definitions

* `Party.Reaches`: Several turns of one party.

## Theorems

* `reaches_puts`, `reaches_takes`: The turns of a writer and of a reader.
* `left_reaches`, `right_reaches`: Turns of one party are a run of both.
* `left_to_right`, `right_to_left`: One message from party to party.
-/

namespace ProxyPen

variable {κ ε α : Type}

/-- Several turns of one party: it consumes a front of its incoming stream,
    of which `inp'` is left, and writes `out`. -/
inductive Party.Reaches (body : κ → Proc κ ε α) :
    Party κ ε α → Bytes → Party κ ε α → Bytes → Bytes → Prop where
  | refl (p : Party κ ε α) (inp : Bytes) : Reaches body p inp p inp []
  | turn (p q r : Party κ ε α) (inp inp' inp'' out out' : Bytes) (n : Nat) :
      p.advance body inp n = some (q, inp', out) → Reaches body q inp' r inp'' out' →
      Reaches body p inp r inp'' (out ++ out')

namespace Lockstep

open Party

variable {body : κ → Proc κ ε α}

theorem reaches_one {p q : Party κ ε α} {inp inp' out : Bytes} {n : Nat}
    (h : p.advance body inp n = some (q, inp', out)) : Reaches body p inp q inp' out := by
  have hturn := Reaches.turn p q q inp inp' inp' out [] n h (Reaches.refl q inp')
  rwa [List.append_nil] at hturn

theorem reaches_trans {p q r : Party κ ε α} {inp inp' inp'' out out' : Bytes}
    (h : Reaches body p inp q inp' out) (h' : Reaches body q inp' r inp'' out') :
    Reaches body p inp r inp'' (out ++ out') := by
  induction h with
  | refl p inp => exact h'
  | turn p q s inp inp₁ inp₂ out₁ out₂ n hadv _ ih =>
      rw [List.append_assoc]
      exact Reaches.turn p q r inp inp₁ inp'' out₁ (out₂ ++ out') n hadv (ih h')

/-- A writer can write everything it has to. -/
theorem reaches_puts {w : Proc κ ε Unit} {bs : Bytes} (hw : Proc.Puts w bs)
    (k : Unit → Proc κ ε α) (log : List ε) (inp : Bytes) :
    Reaches body ⟨w >>= k, log⟩ inp ⟨k (), log⟩ inp bs := by
  induction hw with
  | ret => exact Reaches.refl _ inp
  | write cs q bs _ ih =>
      cases cs with
      | nil => exact Reaches.turn _ ⟨q >>= k, log⟩ _ inp inp inp [] bs 0 rfl ih
      | cons c cs =>
          -- The whole string in one turn, and one more to leave the empty write.
          have hall : (⟨.writeAll (c :: cs) q >>= k, log⟩ : Party κ ε α).advance body inp
              (cs.length + 1)
              = some (⟨.writeAll ((c :: cs).drop (cs.length + 1)) (q >>= k), log⟩, inp,
                  (c :: cs).take (cs.length + 1)) := by
            simp only [Proc.writeAll_bind, Party.advance]
            rw [if_pos ⟨Nat.succ_pos _, Nat.le_refl _⟩]
          rw [← List.length_cons (a := c), List.drop_length, List.take_length] at hall
          exact Reaches.turn _ _ _ inp inp inp (c :: cs) bs _ hall
            (Reaches.turn _ ⟨q >>= k, log⟩ _ inp inp inp [] bs 0 rfl ih)

/-- A reader can read everything it waits for, once it is there. -/
theorem reaches_takes {γ : Type} {r : Proc κ ε γ} {bs : Bytes} {c : γ} (hr : Proc.Takes r bs c)
    (k : γ → Proc κ ε α) (log : List ε) (rest : Bytes) :
    Reaches body ⟨r >>= k, log⟩ (bs ++ rest) ⟨k c, log⟩ rest [] := by
  induction hr with
  | ret c => exact Reaches.refl _ rest
  | read n f cs bs c hn _ ih =>
      rw [List.append_assoc]
      cases n with
      | zero =>
          rw [List.eq_nil_of_length_eq_zero hn] at ih ⊢
          exact Reaches.turn _ ⟨f [] >>= k, log⟩ _ _ (bs ++ rest) rest [] [] 0 rfl ih
      | succ n =>
          -- The whole read in one turn, and one more to hand over what was read.
          have hall : (⟨.readExact (n + 1) f >>= k, log⟩ : Party κ ε α).advance body
              (cs ++ (bs ++ rest)) (n + 1)
              = some (⟨.readExact (n + 1 - (n + 1)) (fun tail =>
                    f ((cs ++ (bs ++ rest)).take (n + 1) ++ tail) >>= k), log⟩,
                  (cs ++ (bs ++ rest)).drop (n + 1), []) := by
            simp only [Proc.readExact_bind, Party.advance]
            rw [if_pos ⟨Nat.succ_pos _, Nat.le_refl _, by rw [List.length_append]; omega⟩]
          rw [List.take_left' hn, List.drop_left' hn, Nat.sub_self] at hall
          -- The bytes obtained sit in the continuation of the emptied read.
          have hnext : (⟨.readExact 0 (fun tail => f (cs ++ tail) >>= k), log⟩
              : Party κ ε α).advance body (bs ++ rest) 0
              = some (⟨f (cs ++ []) >>= k, log⟩, bs ++ rest, []) := rfl
          rw [List.append_nil] at hnext
          exact Reaches.turn _ _ _ _ (bs ++ rest) rest [] [] _ hall
            (Reaches.turn _ _ _ _ (bs ++ rest) rest [] [] 0 hnext ih)

theorem reaches_mark (e : ε) (k : Proc κ ε α) (log : List ε) (inp : Bytes) :
    Reaches body ⟨.mark e k, log⟩ inp ⟨k, log ++ [e]⟩ inp [] :=
  @reaches_one _ _ _ body _ _ inp inp [] 0 rfl

theorem reaches_again (i : κ) (log : List ε) (inp : Bytes) :
    Reaches body ⟨.again i, log⟩ inp ⟨body i, log⟩ inp [] :=
  @reaches_one _ _ _ body _ _ inp inp [] 0 rfl

section Duplex

variable {κ₁ κ₂ β : Type} {bodyL : κ₁ → Proc κ₁ ε α} {bodyR : κ₂ → Proc κ₂ ε β}

theorem left_reaches {p q : Party κ₁ ε α} {inp inp' out : Bytes}
    (h : Reaches bodyL p inp q inp' out) (r : Party κ₂ ε β) (toRight : Bytes) :
    Machine.Reachable (Duplex.step bodyL bodyR) ⟨p, r, inp, toRight⟩
      ⟨q, r, inp', toRight ++ out⟩ := by
  induction h generalizing toRight with
  | refl p inp =>
      rw [List.append_nil]
      exact ⟨[], rfl⟩
  | turn p q s inp inp₁ inp₂ out₁ out₂ n hadv _ ih =>
      rw [← List.append_assoc]
      refine Machine.Reachable.trans ⟨[.left n], ?_⟩ (ih (toRight ++ out₁))
      simp only [Machine.runFrom, Duplex.step, hadv]

theorem right_reaches {p q : Party κ₂ ε β} {inp inp' out : Bytes}
    (h : Reaches bodyR p inp q inp' out) (l : Party κ₁ ε α) (toLeft : Bytes) :
    Machine.Reachable (Duplex.step bodyL bodyR) ⟨l, p, toLeft, inp⟩
      ⟨l, q, toLeft ++ out, inp'⟩ := by
  induction h generalizing toLeft with
  | refl p inp =>
      rw [List.append_nil]
      exact ⟨[], rfl⟩
  | turn p q s inp inp₁ inp₂ out₁ out₂ n hadv _ ih =>
      rw [← List.append_assoc]
      refine Machine.Reachable.trans ⟨[.right n], ?_⟩ (ih (toLeft ++ out₁))
      simp only [Machine.runFrom, Duplex.step, hadv]

end Duplex

section Messages

variable {μ ν γ κ₁ κ₂ β : Type} {bodyL : κ₁ → Proc κ₁ (Entry μ ν) α}
  {bodyR : κ₂ → Proc κ₂ (Entry μ ν) β}

theorem reaches_send {body : κ → Proc κ (Entry μ ν) α} (m : μ) {w : Proc κ (Entry μ ν) Unit}
    {bs : Bytes} (hw : Proc.Puts w bs) (k : Unit → Proc κ (Entry μ ν) α)
    (log : List (Entry μ ν)) (inp : Bytes) :
    Reaches body ⟨Proc.send m w >>= k, log⟩ inp ⟨k (), log ++ [.sent m]⟩ inp bs :=
  reaches_trans (reaches_mark (.sent m) (w >>= k) log inp) (reaches_puts hw k _ inp)

theorem reaches_recv {body : κ → Proc κ (Entry μ ν) α} (wrap : γ → μ)
    {r : Proc κ (Entry μ ν) γ} {bs : Bytes} {c : γ} (hr : Proc.Takes r bs c)
    (k : γ → Proc κ (Entry μ ν) α) (log : List (Entry μ ν)) :
    Reaches body ⟨Proc.recv wrap r >>= k, log⟩ bs ⟨k c, log ++ [.got (wrap c)]⟩ [] [] := by
  rw [Proc.recv, Proc.bind_assoc]
  have htakes := @reaches_takes _ _ _ body _ _ _ _ hr
    (fun c => (.mark (.got (wrap c)) (.ret c) : Proc κ (Entry μ ν) γ) >>= k) log []
  rw [List.append_nil] at htakes
  exact reaches_trans htakes (reaches_mark (.got (wrap c)) (k c) log [])

/-- One message from the left party to the right one. -/
theorem left_to_right (m : μ) (wrap : γ → μ) {w : Proc κ₁ (Entry μ ν) Unit}
    {r : Proc κ₂ (Entry μ ν) γ} {bs : Bytes} {c : γ} (hw : Proc.Puts w bs) (hr : Proc.Takes r bs c)
    (k : Unit → Proc κ₁ (Entry μ ν) α) (k' : γ → Proc κ₂ (Entry μ ν) β)
    (log log' : List (Entry μ ν)) :
    Machine.Reachable (Duplex.step bodyL bodyR)
      ⟨⟨Proc.send m w >>= k, log⟩, ⟨Proc.recv wrap r >>= k', log'⟩, [], []⟩
      ⟨⟨k (), log ++ [.sent m]⟩, ⟨k' c, log' ++ [.got (wrap c)]⟩, [], []⟩ :=
  Machine.Reachable.trans (left_reaches (reaches_send m hw k log []) _ [])
    (right_reaches (reaches_recv wrap hr k' log') _ [])

/-- One message from the right party to the left one. -/
theorem right_to_left (m : μ) (wrap : γ → μ) {w : Proc κ₂ (Entry μ ν) Unit}
    {r : Proc κ₁ (Entry μ ν) γ} {bs : Bytes} {c : γ} (hw : Proc.Puts w bs) (hr : Proc.Takes r bs c)
    (k : γ → Proc κ₁ (Entry μ ν) α) (k' : Unit → Proc κ₂ (Entry μ ν) β)
    (log log' : List (Entry μ ν)) :
    Machine.Reachable (Duplex.step bodyL bodyR)
      ⟨⟨Proc.recv wrap r >>= k, log⟩, ⟨Proc.send m w >>= k', log'⟩, [], []⟩
      ⟨⟨k c, log ++ [.got (wrap c)]⟩, ⟨k' (), log' ++ [.sent m]⟩, [], []⟩ :=
  Machine.Reachable.trans (right_reaches (reaches_send m hw k' log' []) _ [])
    (left_reaches (reaches_recv wrap hr k log) _ [])

end Messages

end Lockstep

end ProxyPen
