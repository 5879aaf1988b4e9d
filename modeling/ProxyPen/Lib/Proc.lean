import ProxyPen.Lib.Bytes

/-!
# Processes on a Duplex Byte Stream

Two sequential programs talking over a pair of FIFO byte streams. A program
reads an exact number of bytes or writes a whole byte string, and either
operation may take several turns: every turn moves some bytes, and the
scheduler decides how many. The programs therefore meet every way their
streams can be cut into partial reads and partial writes.

The operations are resumed by their own derivative. A read that has obtained
some of its bytes is a read of the remaining ones whose continuation puts the
bytes already there in front, so no separate buffer is carried around.

`mark` writes an entry into the party's log without touching a stream. A log
is a history variable: it records what a party has sent and decoded so that a
property of the conversation can be stated, and no program can read it.

## Main definitions

* `Proc`: A sequential program on a duplex stream.
* `Proc.bind`: Sequencing, which makes `Proc` a monad.
* `Party`: A program together with its log.
* `Party.advance`: One turn of a party against its incoming stream.
* `Duplex`: Two parties and the bytes in flight between them.
* `Duplex.step`: One turn of either party.
* `Takes`: A program that only reads consumes exactly these bytes.
* `Puts`: A program that only writes produces exactly these bytes.

## Theorems

* `bind_assoc`: Sequencing is associative.
* `takes_bind`: Reading sequences.
* `puts_bind`: Writing sequences.
-/

namespace ProxyPen

/-- A sequential program on a duplex byte stream. `again` jumps to the head of
    the party's loop with a fresh loop state. -/
inductive Proc (κ ε α : Type) where
  | ret (a : α)
  | fail (e : String)
  | panic
  | again (k : κ)
  | readExact (n : Nat) (k : Bytes → Proc κ ε α)
  | writeAll (bs : Bytes) (k : Proc κ ε α)
  | mark (e : ε) (k : Proc κ ε α)

namespace Proc

variable {κ ε α β : Type}

/-- Sequencing. A failure or a jump abandons what follows. -/
def bind : Proc κ ε α → (α → Proc κ ε β) → Proc κ ε β
  | ret a, f => f a
  | fail e, _ => fail e
  | panic, _ => panic
  -- A jump leaves the loop body, so what follows it in the body never runs.
  | again k, _ => again k
  | readExact n k, f => readExact n (fun bs => bind (k bs) f)
  | writeAll bs k, f => writeAll bs (bind k f)
  | mark e k, f => mark e (bind k f)

instance : Monad (Proc κ ε) where
  pure := ret
  bind := bind

@[simp] theorem readExact_bind (n : Nat) (k : Bytes → Proc κ ε α) (f : α → Proc κ ε β) :
    (readExact n k >>= f) = readExact n (fun bs => k bs >>= f) := rfl

@[simp] theorem writeAll_bind (bs : Bytes) (k : Proc κ ε α) (f : α → Proc κ ε β) :
    (writeAll bs k >>= f) = writeAll bs (k >>= f) := rfl

@[simp] theorem mark_bind (e : ε) (k : Proc κ ε α) (f : α → Proc κ ε β) :
    (mark e k >>= f) = mark e (k >>= f) := rfl

theorem bind_assoc {γ : Type} (p : Proc κ ε α) (f : α → Proc κ ε β) (g : β → Proc κ ε γ) :
    ((p >>= f) >>= g) = (p >>= fun a => f a >>= g) := by
  induction p with
  | ret a => rfl
  | fail e => rfl
  | panic => rfl
  | again k => rfl
  | readExact n k ih =>
      simp only [readExact_bind]
      -- Equal continuations for every byte string that may arrive.
      congr 1
      funext bs
      exact ih bs
  | writeAll bs k ih =>
      simp only [writeAll_bind]
      rw [ih]
  | mark e k ih =>
      simp only [mark_bind]
      rw [ih]

/-- Read exactly `n` bytes. -/
def read (n : Nat) : Proc κ ε Bytes := readExact n ret

/-- Write a whole byte string. -/
def write (bs : Bytes) : Proc κ ε Unit := writeAll bs (ret ())

/-- Log one entry. -/
def note (e : ε) : Proc κ ε Unit := mark e (ret ())

/-- The program consumes exactly `bs` and returns `a`, writing nothing. -/
inductive Takes : Proc κ ε α → Bytes → α → Prop where
  | ret (a : α) : Takes (ret a) [] a
  | read (n : Nat) (k : Bytes → Proc κ ε α) (cs bs : Bytes) (a : α) :
      cs.length = n → Takes (k cs) bs a → Takes (readExact n k) (cs ++ bs) a

/-- The program writes exactly `bs` and returns, reading nothing. -/
inductive Puts : Proc κ ε Unit → Bytes → Prop where
  | ret : Puts (ret ()) []
  | write (cs : Bytes) (k : Proc κ ε Unit) (bs : Bytes) :
      Puts k bs → Puts (writeAll cs k) (cs ++ bs)

theorem takes_bind (p : Proc κ ε α) (f : α → Proc κ ε β) (bs cs : Bytes) (a : α) (b : β)
    (hp : Takes p bs a) (hf : Takes (f a) cs b) : Takes (p >>= f) (bs ++ cs) b := by
  induction hp with
  | ret a => exact hf
  | read n k ds bs a hlen _ ih =>
      rw [List.append_assoc, readExact_bind]
      exact Takes.read n _ ds (bs ++ cs) b hlen (ih hf)

theorem takes_read (bs : Bytes) : Takes (read bs.length : Proc κ ε Bytes) bs bs := by
  -- One read and a return; the constructor leaves an empty tail to drop.
  have h := @Takes.read κ ε Bytes bs.length ret bs [] bs rfl (Takes.ret bs)
  rwa [List.append_nil] at h

theorem puts_bind (p : Proc κ ε Unit) (f : Unit → Proc κ ε Unit) (bs cs : Bytes)
    (hp : Puts p bs) (hf : Puts (f ()) cs) : Puts (p >>= f) (bs ++ cs) := by
  induction hp with
  | ret => exact hf
  | write ds k bs _ ih =>
      rw [List.append_assoc, writeAll_bind]
      exact Puts.write ds _ (bs ++ cs) ih

theorem puts_write (bs : Bytes) : Puts (write bs : Proc κ ε Unit) bs := by
  have h := @Puts.write κ ε bs (ret ()) [] Puts.ret
  rwa [List.append_nil] at h

end Proc

/-- A program together with its log. -/
structure Party (κ ε α : Type) where
  proc : Proc κ ε α
  log : List ε

/-- One turn of a party: `k` is how many bytes the scheduler moves. Returns
    the party, what is left of its incoming stream, and what it wrote. A turn
    is refused when the party has ended, or when it waits for bytes and the
    scheduler moves none. -/
def Party.advance {κ ε α : Type} (body : κ → Proc κ ε α) (p : Party κ ε α) (inp : Bytes)
    (k : Nat) : Option (Party κ ε α × Bytes × Bytes) :=
  match p.proc with
  | .ret _ => none
  | .fail _ => none
  | .panic => none
  -- Jumps and log entries are turns of their own; they move no bytes.
  | .again i => some ({ p with proc := body i }, inp, [])
  | .mark e q => some ({ proc := q, log := p.log ++ [e] }, inp, [])
  -- A read or write of nothing completes without the stream.
  | .readExact 0 f => some ({ p with proc := f [] }, inp, [])
  | .readExact (n + 1) f =>
      -- At least one byte moves, and no more than are asked for and in flight.
      if 0 < k ∧ k ≤ n + 1 ∧ k ≤ inp.length then
        some ({ p with proc := .readExact (n + 1 - k) (fun rest => f (inp.take k ++ rest)) },
          inp.drop k, [])
      else none
  | .writeAll [] q => some ({ p with proc := q }, inp, [])
  | .writeAll (b :: bs) q =>
      if 0 < k ∧ k ≤ bs.length + 1 then
        some ({ p with proc := .writeAll ((b :: bs).drop k) q }, inp, (b :: bs).take k)
      else none

/-- Two parties and the bytes in flight between them. -/
structure Duplex (κ₁ κ₂ ε α β : Type) where
  left : Party κ₁ ε α
  right : Party κ₂ ε β
  toLeft : Bytes
  toRight : Bytes

/-- Who takes the next turn, and how many bytes it moves. -/
inductive Turn where
  | left (k : Nat)
  | right (k : Nat)

/-- One turn of either party. -/
def Duplex.step {κ₁ κ₂ ε α β : Type} (bodyL : κ₁ → Proc κ₁ ε α) (bodyR : κ₂ → Proc κ₂ ε β)
    (s : Duplex κ₁ κ₂ ε α β) : Turn → Option (Duplex κ₁ κ₂ ε α β)
  | .left k => match s.left.advance bodyL s.toLeft k with
    | none => none
    | some (p, inp, out) =>
        some { s with left := p, toLeft := inp, toRight := s.toRight ++ out }
  | .right k => match s.right.advance bodyR s.toRight k with
    | none => none
    | some (p, inp, out) =>
        some { s with right := p, toRight := inp, toLeft := s.toLeft ++ out }

end ProxyPen
