import ProxyPen.Core.Dns

/-!
# DNS Messages on the Wire

The grammar of the part of a message the resolver walks over: names, questions
and records. A name is a list of labels ended by the root or by a compression
pointer. How long a label may be is a parameter of the grammar: a legal label
has at most `63` bytes, and the name skipper passes over labels of up to `191`
bytes, every length byte whose top two bits are not both set.

Each piece of the parser is compared with the grammar in both directions. It
passes over exactly the bytes of whatever stands at its position, and wherever
it succeeds something of the grammar stands there.

## Main definitions

* `Name`, `Question`, `Record`: The grammar.
* `Record.address`: The address of a record the resolver would return.

## Theorems

* `skipName_of_at`, `skipName_cases`: The name skipper.
* `skipQuestions_of_at`, `skipQuestions_cases`: The question section.
* `readAnswer_of_at`, `readAnswer_cases`: One answer record.
* `scanAnswers_of_at`, `scanAnswers_cases`: The answer section.
* `loopFor_skipNameRound`: The name skipper ends.
-/

namespace ProxyPen

namespace Dns

open Outcome Cursor Protocol

/-! ## Grammar -/

/-- How a name ends: with the root label, or with a pointer to an offset. -/
inductive NameEnd where
  | root
  | pointer (offset : Fin (2 ^ 14))
  deriving DecidableEq, Repr

def NameEnd.bytes : NameEnd → Bytes
  | .root => [0]
  | .pointer offset => beBytes 2 (0xC000 + offset.val)

/-- A label on the wire. -/
def labelBytes (label : Bytes) : Bytes := UInt8.ofNat label.length :: label

/-- A name whose labels have between one and `limit` bytes. -/
structure Name (limit : Nat) where
  labels : List Bytes
  labels_ok : ∀ l ∈ labels, 0 < l.length ∧ l.length ≤ limit
  ending : NameEnd

def Name.bytes {limit : Nat} (n : Name limit) : Bytes :=
  n.labels.flatMap labelBytes ++ n.ending.bytes

structure Question (limit : Nat) where
  name : Name limit
  qtype : UInt16
  qclass : UInt16

def Question.bytes {limit : Nat} (q : Question limit) : Bytes :=
  q.name.bytes ++ (beBytes 2 q.qtype.toNat ++ beBytes 2 q.qclass.toNat)

/-- A record whose RDLENGTH counts its RDATA. -/
structure Record (limit : Nat) where
  owner : Name limit
  rtype : UInt16
  rclass : UInt16
  ttl : UInt32
  rdata : Bytes
  rdata_lt : rdata.length < 2 ^ 16

namespace Record

variable {limit : Nat}

def bytes (r : Record limit) : Bytes :=
  r.owner.bytes ++ (beBytes 2 r.rtype.toNat ++ (beBytes 2 r.rclass.toNat ++
    (beBytes 4 r.ttl.toNat ++ (beBytes 2 r.rdata.length ++ r.rdata))))

/-- The RDATA of a record with TYPE `1` and RDLENGTH `4`. -/
def address (r : Record limit) : Option Ipv4Addr :=
  if h : r.rtype = 1 ∧ r.rdata.length = 4 then some ⟨r.rdata, h.2⟩ else none

end Record

/-! ## Bytes and words -/

/-- The mask of the source selects the bytes from `192` on. -/
theorem isPointer_iff (b : UInt8) : b &&& 0xC0 = 0xC0 ↔ 192 ≤ b.toNat := by
  have htable : ∀ n : Fin 256, UInt8.ofNat n.val &&& 0xC0 = 0xC0 ↔ 192 ≤ n.val := by
    decide +kernel
  have h := htable ⟨b.toNat, b.toNat_lt⟩
  rwa [UInt8.ofNat_toNat] at h

theorem u16At_of_at {buf : Bytes} {pos : Nat} (v : Nat) (hv : v < 2 ^ 16)
    (h : At buf pos (beBytes 2 v)) : u16At buf pos = ok (UInt16.ofNat v) := by
  have hbytes : beBytes 2 v = [UInt8.ofNat (v / 256 ^ 1)] ++ [UInt8.ofNat (v / 256 ^ 0)] := rfl
  have hval : beNat ([UInt8.ofNat (v / 256 ^ 1), UInt8.ofNat (v / 256 ^ 0)]) = v :=
    beNat_beBytes_of_lt 2 v (by omega)
  rw [hbytes, at_append, List.length_singleton] at h
  rw [u16At, index_of_at h.1, ok_bind, index_of_at h.2, ok_bind, hval]

/-- Two bytes inside the buffer are a word. -/
theorem at_of_u16At (buf : Bytes) (pos : Nat) (h : pos + 2 ≤ buf.length) :
    ∃ v : UInt16, At buf pos (beBytes 2 v.toNat) ∧ u16At buf pos = ok v := by
  rcases at_beBytes buf pos 2 h with ⟨v, hlt, hat⟩
  refine ⟨UInt16.ofNat v, ?_, u16At_of_at v hlt hat⟩
  rw [UInt16.toNat_ofNat_of_lt' hlt]
  exact hat

theorem u16At_word_of_at {buf : Bytes} {pos : Nat} (v : UInt16)
    (h : At buf pos (beBytes 2 v.toNat)) : u16At buf pos = ok v := by
  rw [u16At_of_at v.toNat v.toNat_lt h, UInt16.ofNat_toNat]

/-! ## Names -/

theorem NameEnd.bytes_length_pos (e : NameEnd) : 0 < e.bytes.length := by
  rcases e with _ | offset
  · exact Nat.one_pos
  · rw [NameEnd.bytes, beBytes_length]
    omega

theorem labelBytes_length (label : Bytes) : (labelBytes label).length = 1 + label.length := by
  rw [labelBytes, List.length_cons, Nat.add_comm]

/-- A round on a label moves behind it. -/
theorem skipNameRound_label {buf label : Bytes} {pos : Nat} (hpos : 0 < label.length)
    (hle : label.length ≤ 191) (h : At buf pos (labelBytes label)) :
    skipNameRound buf pos = ok (.again (pos + (labelBytes label).length)) := by
  have hlen : (UInt8.ofNat label.length).toNat = label.length :=
    UInt8.toNat_ofNat_of_lt' (show label.length < 256 by omega)
  have hin := h.le
  rw [labelBytes_length] at hin
  -- The length byte is neither the root nor a pointer.
  have hzero : UInt8.ofNat label.length ≠ 0 := by
    intro hc
    rw [hc] at hlen
    exact absurd hlen.symm (by rw [UInt8.toNat_zero]; omega)
  have hptr : ¬ UInt8.ofNat label.length &&& 0xC0 = 0xC0 := by
    rw [isPointer_iff, hlen]
    omega
  rw [skipNameRound, if_neg (by omega), index_of_at h, ok_bind, if_neg hzero, if_neg hptr, hlen,
    labelBytes_length]

/-- A round on the end of a name leaves behind it. -/
theorem skipNameRound_end {buf : Bytes} {pos : Nat} (e : NameEnd) (h : At buf pos e.bytes) :
    skipNameRound buf pos = ok (.done (pos + e.bytes.length)) := by
  have hin := h.le
  rcases e with _ | offset
  · have hlen : NameEnd.root.bytes.length = 1 := rfl
    rw [hlen] at hin
    rw [skipNameRound, if_neg (by omega), index_of_at h, ok_bind, if_pos rfl, hlen]
  · have hlen : (NameEnd.pointer offset).bytes.length = 2 := beBytes_length _ _
    have hoff := offset.isLt
    have hhead : (NameEnd.pointer offset).bytes = UInt8.ofNat ((0xC000 + offset.val) / 256 ^ 1) ::
        beBytes 1 (0xC000 + offset.val) := rfl
    -- The upper byte of a pointer has both top bits set.
    have hval : (UInt8.ofNat ((0xC000 + offset.val) / 256 ^ 1)).toNat
        = (0xC000 + offset.val) / 256 :=
      UInt8.toNat_ofNat_of_lt' (show (0xC000 + offset.val) / 256 < 256 by omega)
    have hptr : 192 ≤ (UInt8.ofNat ((0xC000 + offset.val) / 256 ^ 1)).toNat := by
      rw [hval]
      omega
    have hzero : UInt8.ofNat ((0xC000 + offset.val) / 256 ^ 1) ≠ 0 := by
      intro hc
      rw [hc, UInt8.toNat_zero] at hptr
      omega
    rw [hlen] at hin
    rw [hhead] at h
    rw [skipNameRound, if_neg (by omega), index_of_at h, ok_bind, if_neg hzero,
      if_pos ((isPointer_iff _).mpr hptr), if_neg (by omega), hlen]

/-- What a round can do: pass a label by its length byte, or reach an end. -/
theorem skipNameRound_ok {buf : Bytes} {pos : Nat} {f : Round Nat Nat}
    (h : skipNameRound buf pos = ok f) :
    (∃ b : UInt8, At buf pos [b] ∧ 0 < b.toNat ∧ b.toNat ≤ 191 ∧ f = .again (pos + (1 + b.toNat))) ∨
      (∃ e : NameEnd, At buf pos e.bytes ∧ f = .done (pos + e.bytes.length)) := by
  unfold skipNameRound at h
  by_cases hin : pos ≥ buf.length
  · rw [if_pos hin] at h
    exact absurd h (by simp only [invalid, reduceCtorEq, not_false_eq_true])
  rw [if_neg hin] at h
  rcases at_of_index (Nat.lt_of_not_le hin) with ⟨b, hat, hread⟩
  rw [hread, ok_bind] at h
  by_cases hzero : b = 0
  · rw [if_pos hzero] at h
    rw [hzero] at hat
    exact Or.inr ⟨.root, hat, (Outcome.ok.inj h).symm⟩
  rw [if_neg hzero] at h
  have hpos : 0 < b.toNat := by
    rcases Nat.eq_zero_or_pos b.toNat with hc | hc
    · exact absurd (UInt8.toNat_inj.mp hc) hzero
    · exact hc
  by_cases hptr : b &&& 0xC0 = 0xC0
  · rw [if_pos hptr] at h
    by_cases hroom : pos + 1 ≥ buf.length
    · rw [if_pos hroom] at h
      exact absurd h (by simp only [invalid, reduceCtorEq, not_false_eq_true])
    rw [if_neg hroom] at h
    rcases at_of_index (Nat.lt_of_not_le hroom) with ⟨c, hat', -⟩
    -- The two bytes are a pointer to what their fourteen low bits say.
    have hb := (isPointer_iff b).mp hptr
    have hb' := b.toNat_lt
    have hc := c.toNat_lt
    have hword : beBytes 2 (0xC000 + ((b.toNat - 192) * 256 + c.toNat)) = [b, c] := by
      have hback := beBytes_beNat [b, c]
      have hnat : beNat [b, c] = 0xC000 + ((b.toNat - 192) * 256 + c.toNat) := by
        simp only [beNat, List.length_cons, List.length_nil]
        omega
      rw [hnat] at hback
      exact hback
    refine Or.inr ⟨.pointer ⟨(b.toNat - 192) * 256 + c.toNat, by omega⟩, ?_, ?_⟩
    · rw [NameEnd.bytes, hword]
      exact (at_append buf [b] [c] pos).mpr ⟨hat, hat'⟩
    · rw [NameEnd.bytes, beBytes_length]
      exact (Outcome.ok.inj h).symm
  · rw [if_neg hptr] at h
    rw [isPointer_iff] at hptr
    exact Or.inl ⟨b, hat, hpos, by omega, (Outcome.ok.inj h).symm⟩

theorem skipNameRound_ne_panic (buf : Bytes) (pos : Nat) : skipNameRound buf pos ≠ panic := by
  unfold skipNameRound
  by_cases hin : pos ≥ buf.length
  · rw [if_pos hin]
    simp only [invalid, ne_eq, reduceCtorEq, not_false_eq_true]
  · rw [if_neg hin]
    rcases at_of_index (Nat.lt_of_not_le hin) with ⟨b, -, hread⟩
    rw [hread, ok_bind]
    split_ifs <;> simp only [invalid, ne_eq, reduceCtorEq, not_false_eq_true]

/-- The skipper ends, since every label moves the position towards the end of
    the buffer and a position past it ends the loop. -/
theorem loopFor_skipNameRound (buf : Bytes) (pos : Nat) :
    loopFor (skipNameRound buf) (buf.length - pos + 1) pos = some (skipName buf pos) := by
  have hdec : ∀ s s', skipNameRound buf s = ok (.again s') →
      buf.length - s' < buf.length - s := by
    intro s s' h
    rcases skipNameRound_ok h with ⟨b, hat, hpos, -, hf⟩ | ⟨e, -, hf⟩
    · have hin := hat.le
      simp only [Round.again.injEq, List.length_singleton] at hf hin
      omega
    · exact absurd hf (by simp only [reduceCtorEq, not_false_eq_true])
  rcases loopFor_isSome (fun s => buf.length - s) hdec (buf.length - pos + 1) pos (by omega)
    with ⟨r, hr⟩
  rw [skipName, loopFor_mono _ (buf.length + 1) pos r (by omega) hr, hr, Option.getD_some]

/-- One round of the skipper. -/
theorem skipName_round (buf : Bytes) (pos : Nat) :
    skipName buf pos = match skipNameRound buf pos with
      | .ok (.again pos') => skipName buf pos'
      | .ok (.done p) => ok p
      | .err e => err e
      | .panic => panic := by
  apply Option.some.inj
  rw [← loopFor_skipNameRound, loopFor]
  rcases hround : skipNameRound buf pos with (pos' | p) | e | _
  · -- A round that goes on leaves rounds enough for the rest.
    rcases skipNameRound_ok hround with ⟨b, hat, hpos, -, hf⟩ | ⟨e, -, hf⟩
    · have hin := hat.le
      simp only [Round.again.injEq, List.length_singleton] at hf hin
      exact loopFor_mono _ _ pos' _ (by omega) (loopFor_skipNameRound buf pos')
    · exact absurd hf (by simp only [reduceCtorEq, not_false_eq_true])
  · rfl
  · rfl
  · rfl

/-- The skipper passes over exactly the name at its position. -/
theorem skipName_of_at {limit : Nat} (hlimit : limit ≤ 191) {buf : Bytes} {pos : Nat}
    (n : Name limit) (h : At buf pos n.bytes) : skipName buf pos = ok (pos + n.bytes.length) := by
  rcases n with ⟨labels, hlabels, ending⟩
  -- The position moves behind one label per round, so induct on the labels.
  induction labels generalizing pos with
  | nil =>
      have hend : At buf pos ending.bytes := h
      rw [skipName_round, skipNameRound_end ending hend]
      rfl
  | cons l ls ih =>
      have hls : ∀ l' ∈ ls, 0 < l'.length ∧ l'.length ≤ limit :=
        fun l' hl' => hlabels l' (List.mem_cons_of_mem l hl')
      have hcons : (⟨l :: ls, hlabels, ending⟩ : Name limit).bytes
          = labelBytes l ++ (⟨ls, hls, ending⟩ : Name limit).bytes := by
        simp only [Name.bytes, List.flatMap_cons, List.append_assoc]
      have hl := hlabels l List.mem_cons_self
      rw [hcons, at_append] at h
      rw [skipName_round, skipNameRound_label hl.1 (by omega) h.1, hcons, List.length_append,
        ← Nat.add_assoc]
      exact ih hls h.2

/-- A label in front of a name. -/
theorem Name.exists_cons {limit : Nat} (label : Bytes) (hpos : 0 < label.length)
    (hle : label.length ≤ limit) (n : Name limit) :
    ∃ n' : Name limit, n'.bytes = labelBytes label ++ n.bytes := by
  have hok : ∀ l ∈ label :: n.labels, 0 < l.length ∧ l.length ≤ limit := by
    intro l hl
    rcases List.mem_cons.mp hl with rfl | hl
    · exact ⟨hpos, hle⟩
    · exact n.labels_ok l hl
  refine ⟨⟨label :: n.labels, hok, n.ending⟩, ?_⟩
  simp only [Name.bytes, List.flatMap_cons, List.append_assoc]

/-- The skipper reports an error, or there is a name and it passes over it. -/
theorem skipName_cases (buf : Bytes) (pos : Nat) :
    (∃ e, skipName buf pos = err e) ∨
      ∃ n : Name 191, At buf pos n.bytes ∧ skipName buf pos = ok (pos + n.bytes.length) := by
  -- Induct on the distance to the end of the buffer, which every label shortens.
  induction hd : buf.length - pos using Nat.strong_induction_on generalizing pos with
  | _ d ih =>
      rw [skipName_round]
      rcases hround : skipNameRound buf pos with (pos' | p) | e | _
      · rcases skipNameRound_ok hround with ⟨b, hat, hpos, hle, hf⟩ | ⟨e, -, hf⟩
        · have hin := hat.le
          simp only [Round.again.injEq, List.length_singleton] at hf hin
          subst hf
          rcases ih (buf.length - (pos + (1 + b.toNat))) (by omega) _ rfl
            with herr | ⟨n, hn, hskip⟩
          · exact Or.inl herr
          have hroom := hn.le
          -- The rest of the name stands behind the label, so the label is there in full.
          rcases at_of_le buf (pos + 1) b.toNat (by omega) with ⟨hlabel, hlen⟩
          rcases Name.exists_cons _ (by rw [hlen]; exact hpos) (by rw [hlen]; exact hle) n
            with ⟨n', hn'⟩
          rw [labelBytes, hlen, UInt8.ofNat_toNat, ← List.singleton_append,
            List.append_assoc] at hn'
          refine Or.inr ⟨n', ?_, ?_⟩
          · rw [hn', at_append, at_append, List.length_singleton, hlen, Nat.add_assoc]
            exact ⟨hat, hlabel, hn⟩
          · simp only [hskip, hn', List.length_append, hlen, List.length_singleton, Nat.add_assoc]
        · exact absurd hf (by simp only [reduceCtorEq, not_false_eq_true])
      · rcases skipNameRound_ok hround with ⟨b, -, -, -, hf⟩ | ⟨e, hat, hf⟩
        · exact absurd hf (by simp only [reduceCtorEq, not_false_eq_true])
        · rw [Round.done.injEq] at hf
          refine Or.inr ⟨⟨[], fun l hl => absurd hl List.not_mem_nil, e⟩, hat, ?_⟩
          simp only [hf]
          rfl
      · exact Or.inl ⟨e, rfl⟩
      · exact absurd hround (skipNameRound_ne_panic buf pos)

theorem Name.bytes_length_pos {limit : Nat} (n : Name limit) : 0 < n.bytes.length := by
  have hend := n.ending.bytes_length_pos
  rw [Name.bytes, List.length_append]
  omega

/-! ## Questions -/

theorem Question.bytes_length {limit : Nat} (q : Question limit) :
    q.bytes.length = q.name.bytes.length + 4 := by
  simp only [Question.bytes, List.length_append, beBytes_length]

theorem skipQuestion_of_at {limit : Nat} (hlimit : limit ≤ 191) {buf : Bytes} {pos : Nat}
    (q : Question limit) (h : At buf pos q.bytes) :
    skipQuestion buf pos = ok (pos + q.bytes.length) := by
  have hin := h.le
  rw [q.bytes_length] at hin ⊢
  rw [Question.bytes, at_append] at h
  rw [skipQuestion, skipName_of_at hlimit q.name h.1, ok_bind, if_neg (by omega), Nat.add_assoc]

theorem skipQuestion_cases (buf : Bytes) (pos : Nat) :
    (∃ e, skipQuestion buf pos = err e) ∨
      ∃ q : Question 191, At buf pos q.bytes ∧ skipQuestion buf pos = ok (pos + q.bytes.length) := by
  unfold skipQuestion
  rcases skipName_cases buf pos with ⟨e, he⟩ | ⟨n, hn, hskip⟩
  · exact Or.inl ⟨e, by rw [he, err_bind]⟩
  rw [hskip, ok_bind]
  by_cases hroom : pos + n.bytes.length + 4 > buf.length
  · exact Or.inl ⟨_, if_pos hroom⟩
  rw [if_neg hroom]
  -- The four bytes behind the name are a type and a class.
  rcases at_of_u16At buf (pos + n.bytes.length) (by omega) with ⟨qtype, htype, -⟩
  rcases at_of_u16At buf (pos + n.bytes.length + 2) (by omega)
    with ⟨qclass, hclass, -⟩
  refine Or.inr ⟨⟨n, qtype, qclass⟩, ?_, ?_⟩
  · rw [Question.bytes, at_append, at_append, beBytes_length]
    exact ⟨hn, htype, hclass⟩
  · rw [Question.bytes_length, Nat.add_assoc]

/-- The question section, passed over as a whole. -/
theorem skipQuestions_of_at {limit : Nat} (hlimit : limit ≤ 191) {buf : Bytes} {pos : Nat}
    (qs : List (Question limit)) (h : At buf pos (qs.flatMap Question.bytes)) :
    skipQuestions buf qs.length pos = ok (pos + (qs.flatMap Question.bytes).length) := by
  induction qs generalizing pos with
  | nil => rfl
  | cons q qs ih =>
      rw [List.flatMap_cons, at_append] at h
      rw [List.length_cons, skipQuestions, skipQuestion_of_at hlimit q h.1, ok_bind, ih h.2,
        List.flatMap_cons, List.length_append, Nat.add_assoc]

theorem skipQuestions_cases (buf : Bytes) (qd pos : Nat) (hin : pos ≤ buf.length) :
    (∃ e, skipQuestions buf qd pos = err e) ∨
      ∃ qs : List (Question 191), qs.length = qd ∧ At buf pos (qs.flatMap Question.bytes) ∧
        skipQuestions buf qd pos = ok (pos + (qs.flatMap Question.bytes).length) := by
  induction qd generalizing pos with
  | zero => exact Or.inr ⟨[], rfl, (at_of_le buf pos 0 hin).1, rfl⟩
  | succ qd ih =>
      rw [skipQuestions]
      rcases skipQuestion_cases buf pos with ⟨e, he⟩ | ⟨q, hq, hskip⟩
      · exact Or.inl ⟨e, by rw [he, err_bind]⟩
      rw [hskip, ok_bind]
      rcases ih (pos + q.bytes.length) hq.le with herr | ⟨qs, hlen, hqs, hrest⟩
      · exact Or.inl herr
      refine Or.inr ⟨q :: qs, by rw [List.length_cons, hlen], ?_, ?_⟩
      · rw [List.flatMap_cons, at_append]
        exact ⟨hq, hqs⟩
      · rw [hrest, List.flatMap_cons, List.length_append, Nat.add_assoc]

/-! ## Records -/

theorem Record.bytes_length {limit : Nat} (r : Record limit) :
    r.bytes.length = r.owner.bytes.length + 10 + r.rdata.length := by
  simp only [Record.bytes, List.length_append, beBytes_length]
  omega

/-- What the resolver does with a record at a position. -/
def Record.flow {limit : Nat} (r : Record limit) (pos : Nat) : Round Nat Ipv4Addr :=
  match r.address with
  | some ip => .done ip
  | none => .again (pos + r.bytes.length)

/-- Four accesses in a row read a four-byte piece. -/
theorem read_address {buf : Bytes} {pos : Nat} (v : Ipv4Addr) (h : At buf pos v.toList) :
    (do
      let a ← index buf pos
      let b ← index buf (pos + 1)
      let c ← index buf (pos + 2)
      let d ← index buf (pos + 3)
      ok (Round.done (⟨[a, b, c, d], rfl⟩ : Ipv4Addr)) : Outcome ProxyPenError (Round Nat Ipv4Addr))
      = ok (.done v) := by
  rcases v with ⟨bytes, hlen⟩
  rcases List.length_eq_four.mp hlen with ⟨a, b, c, d, rfl⟩
  have hsplit : At buf pos ([a] ++ ([b] ++ ([c] ++ [d]))) := h
  simp only [at_append, List.length_singleton, Nat.add_assoc, Nat.reduceAdd] at hsplit
  rcases hsplit with ⟨ha, hb, hc, hd⟩
  rw [index_of_at ha, ok_bind, index_of_at hb, ok_bind, index_of_at hc, ok_bind, index_of_at hd,
    ok_bind]

/-- The resolver reads a record as what it is. -/
theorem readAnswer_of_at {limit : Nat} (hlimit : limit ≤ 191) {buf : Bytes} {pos : Nat}
    (r : Record limit) (h : At buf pos r.bytes) : readAnswer buf pos = ok (r.flow pos) := by
  have hin := h.le
  have hlt := r.rdata_lt
  rw [r.bytes_length] at hin
  simp only [Record.bytes, at_append, beBytes_length] at h
  rcases h with ⟨howner, htype, -, -, hlen, hdata⟩
  -- TYPE, CLASS and TTL take the eight bytes in front of RDLENGTH.
  have hrdlength : u16At buf (pos + r.owner.bytes.length + 8)
      = ok (UInt16.ofNat r.rdata.length) := u16At_of_at _ hlt hlen
  have hnat : (UInt16.ofNat r.rdata.length).toNat = r.rdata.length :=
    UInt16.toNat_ofNat_of_lt' hlt
  have hcond : r.rtype = 1 ∧ UInt16.ofNat r.rdata.length = 4 ↔
      r.rtype = 1 ∧ r.rdata.length = 4 := by
    rw [← UInt16.toNat_inj, ← UInt16.toNat_inj (b := 4), hnat]
    rfl
  rw [readAnswer, skipName_of_at hlimit r.owner howner, ok_bind, if_neg (by omega),
    u16At_word_of_at r.rtype htype, ok_bind, hrdlength, ok_bind, hnat, if_neg (by omega), Record.flow,
    Record.address]
  by_cases ha : r.rtype = 1 ∧ r.rdata.length = 4
  · rw [if_pos (hcond.mpr ha), dif_pos ha]
    exact read_address ⟨r.rdata, ha.2⟩ hdata
  · rw [if_neg (fun hc => ha (hcond.mp hc)), dif_neg ha, r.bytes_length]
    simp only [Nat.add_assoc]

theorem readAnswer_cases (buf : Bytes) (pos : Nat) :
    (∃ e, readAnswer buf pos = err e) ∨
      ∃ r : Record 191, At buf pos r.bytes ∧ readAnswer buf pos = ok (r.flow pos) := by
  rcases skipName_cases buf pos with ⟨e, he⟩ | ⟨n, hn, hskip⟩
  · exact Or.inl ⟨e, by rw [readAnswer, he, err_bind]⟩
  by_cases hroom : pos + n.bytes.length + 10 > buf.length
  · exact Or.inl ⟨_, by rw [readAnswer, hskip, ok_bind, if_pos hroom]; rfl⟩
  -- The ten bytes behind the owner are the fixed fields of a record.
  rcases at_of_u16At buf (pos + n.bytes.length) (by omega)
    with ⟨rtype, htype, hreadType⟩
  rcases at_of_u16At buf (pos + n.bytes.length + 2) (by omega)
    with ⟨rclass, hclass, -⟩
  rcases at_beBytes buf (pos + n.bytes.length + 4) 4 (by omega) with ⟨ttl, httlLt, httl⟩
  rcases at_of_u16At buf (pos + n.bytes.length + 8) (by omega)
    with ⟨rdlength, hrdlength, hreadLen⟩
  by_cases hdata : pos + n.bytes.length + 10 + rdlength.toNat > buf.length
  · refine Or.inl ⟨.invalidConfig "DNS rdata truncated", ?_⟩
    rw [readAnswer, hskip, ok_bind, if_neg hroom, hreadType, ok_bind, hreadLen, ok_bind,
      if_pos hdata]
    rfl
  rcases at_of_le buf (pos + n.bytes.length + 10) rdlength.toNat (by omega) with ⟨hrdata, hrlen⟩
  have hlt : ((buf.drop (pos + n.bytes.length + 10)).take rdlength.toNat).length < 2 ^ 16 := by
    rw [hrlen]
    exact rdlength.toNat_lt
  have hat : At buf pos (⟨n, rtype, rclass, UInt32.ofNat ttl, _, hlt⟩ : Record 191).bytes := by
    simp only [Record.bytes, at_append, beBytes_length, UInt32.toNat_ofNat_of_lt' httlLt, hrlen]
    exact ⟨hn, htype, hclass, httl, hrdlength, hrdata⟩
  exact Or.inr ⟨_, hat, readAnswer_of_at (Nat.le_refl _) _ hat⟩

/-- Scanning a list of records returns the first address among them. -/
theorem scanAnswers_of_at {limit : Nat} (hlimit : limit ≤ 191) {buf : Bytes} {pos : Nat}
    (rs : List (Record limit)) (h : At buf pos (rs.flatMap Record.bytes)) :
    scanAnswers buf rs.length pos = match rs.findSome? Record.address with
      | some ip => ok ip
      | none => invalid "DNS response had no A record" := by
  induction rs generalizing pos with
  | nil => rfl
  | cons r rs ih =>
      rw [List.flatMap_cons, at_append] at h
      rw [List.length_cons, scanAnswers, readAnswer_of_at hlimit r h.1, ok_bind, Record.flow,
        List.findSome?_cons]
      rcases r.address with _ | ip
      · exact ih h.2
      · rfl

theorem scanAnswers_cases (buf : Bytes) (an pos : Nat) (hin : pos ≤ buf.length) :
    (∃ e, scanAnswers buf an pos = err e) ∨
      ∃ (before : List (Record 191)) (r : Record 191) (ip : Ipv4Addr), before.length < an ∧
        At buf pos (before.flatMap Record.bytes ++ r.bytes) ∧
        (∀ r' ∈ before, r'.address = none) ∧ r.address = some ip ∧
        scanAnswers buf an pos = ok ip := by
  induction an generalizing pos with
  | zero => exact Or.inl ⟨_, rfl⟩
  | succ an ih =>
      rw [scanAnswers]
      rcases readAnswer_cases buf pos with ⟨e, he⟩ | ⟨r, hr, hread⟩
      · exact Or.inl ⟨e, by rw [he, err_bind]⟩
      rw [hread, ok_bind, Record.flow]
      rcases haddr : r.address with _ | ip
      · -- A record without an address goes in front of what the rest of the scan finds.
        rcases ih (pos + r.bytes.length) hr.le with herr | ⟨before, r', ip, hlt, hat, hnone, hip, hok⟩
        · exact Or.inl herr
        refine Or.inr ⟨r :: before, r', ip, ?_, ?_, ?_, hip, hok⟩
        · rw [List.length_cons]
          omega
        · rw [List.flatMap_cons, List.append_assoc, at_append]
          exact ⟨hr, hat⟩
        · intro r'' hmem
          rcases List.mem_cons.mp hmem with rfl | hmem
          · exact haddr
          · exact hnone r'' hmem
      · exact Or.inr ⟨[], r, ip, Nat.succ_pos an, hr, fun r' hr' => absurd hr' List.not_mem_nil,
          haddr, rfl⟩

end Dns

end ProxyPen
