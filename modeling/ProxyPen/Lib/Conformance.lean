import Mathlib.Data.List.Forall2
import ProxyPen.Lib.Contract
import ProxyPen.Lib.Lockstep

/-!
# Conformance to a Protocol

What one party of a conversation owes to its protocol, whatever the other one
does. A protocol is a machine of phases whose events are log entries: messages
sent, messages decoded, and notes. A party conforms if at every moment its log
is a run of the machine, it has read the bytes of every message it has decoded,
and it has written nothing but the messages it has sent.

The bytes of a decoded message are whatever the reader has taken for it, so a
peer may write a message in a way of its own.

## Main definitions

* `Carried`: Byte strings that are read as messages in a row.
* `AtPhase`: A party between two messages.
* `Conforms`: A party at any moment.

## Theorems

* `keeps_send`, `keeps_recv`, `keeps_note`: Contracts of whole messages.
-/

namespace ProxyPen

namespace Conformance

open Lockstep Proc

variable {μ ν σ κ α γ : Type}

/-- Byte strings that are read as these messages, in a row. -/
def Carried (carries : μ → Bytes → Prop) (ms : List μ) (bs : Bytes) : Prop :=
  ∃ parts, List.Forall₂ carries ms parts ∧ bs = parts.flatten

theorem carried_nil (carries : μ → Bytes → Prop) : Carried carries [] [] :=
  ⟨[], List.Forall₂.nil, rfl⟩

theorem carried_snoc {carries : μ → Bytes → Prop} {ms : List μ} {m : μ} {bs part : Bytes}
    (h : Carried carries ms bs) (hm : carries m part) :
    Carried carries (ms ++ [m]) (bs ++ part) := by
  rcases h with ⟨parts, hparts, rfl⟩
  refine ⟨parts ++ [part], ?_, ?_⟩
  · exact List.rel_append hparts (List.Forall₂.cons hm List.Forall₂.nil)
  · rw [List.flatten_append, List.flatten_singleton]

section

variable (carries : μ → Bytes → Prop) (bytes : μ → Bytes) (advance : σ → Entry μ ν → Option σ)
  (start : σ)

/-- A party between two messages, in the given phase. -/
structure AtPhase (phase : σ) (t : Trail (Entry μ ν)) : Prop where
  run : Machine.runFrom advance start t.log = some phase
  taken : Carried carries (gots t.log) t.taken
  out : t.out = (sents t.log).flatMap bytes

/-- A party at any moment. It may have read part of a message that it has not
    decoded yet, and it may have written only part of the last one it has sent. -/
structure Conforms (t : Trail (Entry μ ν)) : Prop where
  run : ∃ phase, Machine.runFrom advance start t.log = some phase
  taken : ∃ bs, Carried carries (gots t.log) bs ∧ bs <+: t.taken
  out : t.out <+: (sents t.log).flatMap bytes

theorem atPhase_start : AtPhase carries bytes advance start start Trail.start where
  run := rfl
  taken := carried_nil carries
  out := rfl

end

variable {carries : μ → Bytes → Prop} {bytes : μ → Bytes}
  {advance : σ → Entry μ ν → Option σ} {start phase phase' : σ} {t : Trail (Entry μ ν)}

theorem AtPhase.conforms (h : AtPhase carries bytes advance start phase t) :
    Conforms carries bytes advance start t where
  run := ⟨phase, h.run⟩
  taken := ⟨t.taken, h.taken, List.prefix_refl _⟩
  out := h.out ▸ List.prefix_refl t.out

theorem AtPhase.conforms_read (h : AtPhase carries bytes advance start phase t) (bs : Bytes) :
    Conforms carries bytes advance start (t.read bs) where
  run := ⟨phase, h.run⟩
  taken := ⟨t.taken, h.taken, List.prefix_append _ _⟩
  out := h.conforms.out

/-- The log moves on by a run of one event. -/
theorem run_snoc {log : List (Entry μ ν)} {e : Entry μ ν}
    (h : Machine.runFrom advance start log = some phase) (he : advance phase e = some phase') :
    Machine.runFrom advance start (log ++ [e]) = some phase' :=
  (Machine.runFrom_snoc _ _ _ _).mpr ⟨phase, h, he⟩

theorem AtPhase.sent (h : AtPhase carries bytes advance start phase t) {m : μ}
    (hm : advance phase (.sent m) = some phase') :
    AtPhase carries bytes advance start phase' ((t.logged (.sent m)).wrote (bytes m)) where
  run := run_snoc h.run hm
  taken := by
    show Carried carries (gots (t.log ++ [.sent m])) t.taken
    rw [gots_append, gots, gots, List.append_nil]
    exact h.taken
  out := by
    show t.out ++ bytes m = (sents (t.log ++ [.sent m])).flatMap bytes
    rw [h.out, sents_append, List.flatMap_append, sents, sents, List.flatMap_singleton]

/-- While a message is being written. -/
theorem AtPhase.sending (h : AtPhase carries bytes advance start phase t) {m : μ}
    (hm : advance phase (.sent m) = some phase') {front : Bytes} (hfront : front <+: bytes m) :
    Conforms carries bytes advance start ((t.logged (.sent m)).wrote front) where
  run := ⟨phase', (h.sent hm).run⟩
  taken := (h.sent hm).conforms.taken
  out := by
    have hwhole : t.out ++ bytes m = (sents (t.log ++ [.sent m])).flatMap bytes := (h.sent hm).out
    show t.out ++ front <+: (sents (t.log ++ [.sent m])).flatMap bytes
    rw [← hwhole]
    exact (List.prefix_append_right_inj t.out).mpr hfront

theorem AtPhase.got (h : AtPhase carries bytes advance start phase t) {m : μ} {bs : Bytes}
    (hbs : carries m bs) (hm : advance phase (.got m) = some phase') :
    AtPhase carries bytes advance start phase' ((t.read bs).logged (.got m)) where
  run := run_snoc h.run hm
  taken := by
    show Carried carries (gots (t.log ++ [.got m])) (t.taken ++ bs)
    rw [gots_append]
    exact carried_snoc h.taken hbs
  out := by
    show t.out = (sents (t.log ++ [.got m])).flatMap bytes
    rw [sents_append, sents, sents, List.append_nil]
    exact h.out

theorem AtPhase.noted (h : AtPhase carries bytes advance start phase t) {n : ν}
    (hn : advance phase (.note n) = some phase') :
    AtPhase carries bytes advance start phase' (t.logged (.note n)) where
  run := run_snoc h.run hn
  taken := by
    show Carried carries (gots (t.log ++ [.note n])) t.taken
    rw [gots_append, gots, gots, List.append_nil]
    exact h.taken
  out := by
    show t.out = (sents (t.log ++ [.note n])).flatMap bytes
    rw [sents_append, sents, sents, List.append_nil]
    exact h.out

/-! ## Contracts -/

variable {J : κ → Trail (Entry μ ν) → Prop} {P : Trail (Entry μ ν) → Prop}
  {R : α → Trail (Entry μ ν) → Prop}

/-- Sending a message that the phase allows. -/
theorem keeps_send {m : μ} {w : Proc κ (Entry μ ν) Unit} {f : Unit → Proc κ (Entry μ ν) α}
    (hw : Puts w (bytes m)) (h : AtPhase carries bytes advance start phase t)
    (hm : advance phase (.sent m) = some phase')
    (hf : ∀ t', AtPhase carries bytes advance start phase' t' →
      (f ()).Keeps J P (Conforms carries bytes advance start) R t') :
    (Proc.send m w >>= f).Keeps J P (Conforms carries bytes advance start) R t :=
  ⟨h.conforms, keeps_writer hw (fun _ hfront => h.sending hm hfront) (hf _ (h.sent hm))⟩

/-- Receiving a message: the phase has to allow whatever the reader returns. -/
theorem keeps_recv {wrap : γ → μ} {r : Proc κ (Entry μ ν) γ} {f : γ → Proc κ (Entry μ ν) α}
    (hr : OnlyReads r) (h : AtPhase carries bytes advance start phase t)
    (hf : ∀ bs c, Takes r bs c → carries (wrap c) bs ∧ ∃ phase',
      advance phase (.got (wrap c)) = some phase' ∧
      ∀ t', AtPhase carries bytes advance start phase' t' →
        (f c).Keeps J P (Conforms carries bytes advance start) R t') :
    (Proc.recv wrap r >>= f).Keeps J P (Conforms carries bytes advance start) R t := by
  rw [Proc.recv, bind_assoc]
  refine keeps_reader hr h.conforms_read (fun bs c htakes => ?_)
  rcases hf bs c htakes with ⟨hbs, phase', hm, hrest⟩
  exact ⟨h.conforms_read bs, hrest _ (h.got hbs hm)⟩

/-- Taking a note that the phase allows. -/
theorem keeps_note {n : ν} {f : Unit → Proc κ (Entry μ ν) α}
    (h : AtPhase carries bytes advance start phase t)
    (hn : advance phase (.note n) = some phase')
    (hf : ∀ t', AtPhase carries bytes advance start phase' t' →
      (f ()).Keeps J P (Conforms carries bytes advance start) R t') :
    (Proc.note (.note n) >>= f).Keeps J P (Conforms carries bytes advance start) R t :=
  ⟨h.conforms, hf _ (h.noted hn)⟩

end Conformance

end ProxyPen
