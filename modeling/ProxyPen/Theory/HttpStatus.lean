import ProxyPen.Theory.HttpExchange
import ProxyPen.Theory.Lossy

/-!
# Status Lines

Which responses the HTTP/1.1 test takes for a success. `StatusLine` is the
grammar of a status line on the bytes of a response. The parser decodes the
bytes, takes the first line, and cuts it at two spaces; it reads a number off
the second field and never looks at the first.

All of this commutes with decoding, since the ends of line, the space and the
characters of a number are ASCII. What the parser accepts is therefore a
condition on the fields of the bytes, and it is exact on a response unless
such a number stands in it where no status code does.

## Main definitions

* `StatusLine`: The first line of a response is a status line.
* `fields`: The fields of the first line, in bytes.
* `Number`: A field the parser reads as a status.
* `StatusExact`: Parser and test agree with the grammar on a response.
* `NumberOnlyInStatusLine`: The exact condition for it.

## Theorems

* `parseU16_lossyText`: The numbers the parser reads.
* `parseStatusLine_eq_ok_iff`: The responses the parser accepts.
* `statusLine_iff`: The grammar by fields.
* `status_exact_iff`: When the parser agrees with the grammar.
-/

namespace ProxyPen

open Outcome Protocol Http

namespace Http1

/-! ## Grammar -/

def IsDigit (b : UInt8) : Prop := 48 ≤ b.toNat ∧ b.toNat ≤ 57

/-- The decimal digits `ds` behind those that make up `v`. -/
def valueFrom (v : Nat) (ds : Bytes) : Nat := ds.foldl (fun v b => v * 10 + (b.toNat - 48)) v

/-- The first line of the response is `HTTP/`, a version, a space and three
    digits, with nothing or a space and any reason behind them. -/
def StatusLine (buf : Bytes) (status : UInt16) : Prop :=
  ∃ a b d₁ d₂ d₃ tail, IsDigit a ∧ IsDigit b ∧ IsDigit d₁ ∧ IsDigit d₂ ∧ IsDigit d₃ ∧
    (tail = [] ∨ ∃ reason, tail = 32 :: reason) ∧
    Split.firstLine 10 13 buf
      = strBytes "HTTP/" ++ [a, 46, b] ++ 32 :: ([d₁, d₂, d₃] ++ tail) ∧
    status.toNat = valueFrom 0 [d₁, d₂, d₃]

/-- The fields of the first line, in bytes. -/
def fields (buf : Bytes) : List Bytes := Split.splitn 32 3 (Split.firstLine 10 13 buf)

/-- A field behind an optional plus sign. -/
def unsigned (field : Bytes) : Bytes := if field.head? = some 43 then field.tail else field

/-- The field is a number of 16 bits: digits, and perhaps a plus sign. -/
def Number (field : Bytes) (status : UInt16) : Prop :=
  unsigned field ≠ [] ∧ (∀ b ∈ unsigned field, IsDigit b) ∧
    valueFrom 0 (unsigned field) = status.toNat

/-- A protocol and its version. -/
def IsVersion (field : Bytes) : Prop :=
  ∃ a b, IsDigit a ∧ IsDigit b ∧ field = strBytes "HTTP/" ++ [a, 46, b]

/-- Three digits. -/
def IsCode (field : Bytes) : Prop := field.length = 3 ∧ ∀ b ∈ field, IsDigit b

/-! ## Numbers -/

theorem IsDigit.ascii {b : UInt8} (h : IsDigit b) : b < 0x80 := by
  unfold IsDigit at h
  rw [UInt8.lt_iff_toNat_lt]
  simp only [UInt8.reduceToNat]
  omega

theorem IsDigit.ne {b k : UInt8} (h : IsDigit b) (hk : k.toNat < 48) : b ≠ k := by
  intro heq
  rw [heq] at h
  exact absurd h.1 (by omega)

theorem isDigit_byteChar (b : UInt8) : (Char.ofNat b.toNat).isDigit = true ↔ IsDigit b := by
  have hval : (Char.ofNat b.toNat).val.toNat = b.toNat := byteChar_toNat b
  simp only [Char.isDigit, Bool.and_eq_true, decide_eq_true_eq, ge_iff_le, UInt32.le_iff_toNat_le,
    hval, IsDigit]
  rfl

theorem le_valueFrom (v : Nat) (ds : Bytes) : v ≤ valueFrom v ds := by
  induction ds generalizing v with
  | nil => exact Nat.le_refl v
  | cons b ds ih =>
      have h := ih (v * 10 + (b.toNat - 48))
      rw [valueFrom, List.foldl_cons]
      unfold valueFrom at h
      omega

/-- The check against the bound at every digit is a check of the whole. -/
theorem readDigits_map {bound v n : Nat} (hv : v < bound) (ds : Bytes) :
    readDigits bound v (ds.map (fun b => Char.ofNat b.toNat)) = some n ↔
      (∀ b ∈ ds, IsDigit b) ∧ valueFrom v ds = n ∧ n < bound := by
  induction ds generalizing v with
  | nil =>
      rw [List.map_nil, readDigits, Option.some.injEq]
      constructor
      · intro h
        exact ⟨fun b hb => absurd hb List.not_mem_nil, h, h ▸ hv⟩
      · exact fun h => h.2.1
  | cons b ds ih =>
      rw [List.map_cons, readDigits, List.forall_mem_cons, ← isDigit_byteChar b, byteChar_toNat]
      by_cases hdigit : (Char.ofNat b.toNat).isDigit = true
      · rw [if_pos hdigit]
        by_cases hlt : v * 10 + (b.toNat - 48) < bound
        · simp only [if_pos hlt, ih hlt, hdigit, true_and]
          rfl
        · simp only [if_neg hlt, reduceCtorEq, false_iff, not_and]
          intro _ hvalue hbound
          have hle := le_valueFrom (v * 10 + (b.toNat - 48)) ds
          have hcons : valueFrom v (b :: ds) = valueFrom (v * 10 + (b.toNat - 48)) ds := rfl
          omega
      · rw [if_neg hdigit]
        simp only [reduceCtorEq, false_iff, not_and]
        exact fun h => absurd h.1 hdigit

theorem isDigit_of_readDigits {bound v n : Nat} {cs : List Char}
    (h : readDigits bound v cs = some n) : ∀ c ∈ cs, c.isDigit = true := by
  induction cs generalizing v with
  | nil => exact fun c hc => absurd hc List.not_mem_nil
  | cons c cs ih =>
      rw [readDigits, Option.ite_none_right_eq_some] at h
      rcases h with ⟨hdigit, h⟩
      rw [Option.ite_none_right_eq_some] at h
      exact List.forall_mem_cons.mpr ⟨hdigit, ih h.2⟩

/-- A field that is read as a number is ASCII, its sign included. -/
theorem ascii_of_parseU16 {field : Bytes} {status : UInt16}
    (h : parseU16 (lossyText field) = some status) : ∀ b ∈ field, b < 0x80 := by
  apply ascii_of_lossyText
  have hlow : ∀ c : Char, c.isDigit = true → c.toNat < 128 := by
    intro c hc
    simp only [Char.isDigit, Bool.and_eq_true, decide_eq_true_eq, UInt32.le_iff_toNat_le] at hc
    have hle : c.toNat ≤ 57 := hc.2
    omega
  rw [parseU16, Option.ite_none_left_eq_some, Option.map_eq_some_iff] at h
  rcases h with ⟨_, n, hread, _⟩
  have hdigits := isDigit_of_readDigits hread
  by_cases hplus : (lossyText field).head? = some '+'
  · rw [if_pos hplus] at hdigits
    rw [List.eq_cons_of_mem_head? hplus, List.forall_mem_cons]
    exact ⟨by decide, fun c hc => hlow c (hdigits c hc)⟩
  · rw [if_neg hplus] at hdigits
    exact fun c hc => hlow c (hdigits c hc)

theorem ascii_of_number {field : Bytes} {status : UInt16} (h : Number field status) :
    ∀ b ∈ field, b < 0x80 := by
  rcases h with ⟨_, hdigits, _⟩
  unfold unsigned at hdigits
  by_cases hplus : field.head? = some 43
  · rw [if_pos hplus] at hdigits
    rw [List.eq_cons_of_mem_head? hplus, List.forall_mem_cons]
    exact ⟨by decide, fun b hb => (hdigits b hb).ascii⟩
  · rw [if_neg hplus] at hdigits
    exact fun b hb => (hdigits b hb).ascii

/-- A plus sign is stripped in both alphabets at once. -/
theorem unsigned_map (field : Bytes) :
    (if (field.map (fun b => Char.ofNat b.toNat)).head? = some '+'
      then (field.map (fun b => Char.ofNat b.toNat)).tail
      else field.map (fun b => Char.ofNat b.toNat))
      = (unsigned field).map (fun b => Char.ofNat b.toNat) := by
  unfold unsigned
  rcases field with _ | ⟨b, field⟩
  · rfl
  · have hplus : Char.ofNat b.toNat = '+' ↔ b = 43 :=
      ⟨fun h => byteChar_inj (h : _ = Char.ofNat (43 : UInt8).toNat), fun h => by rw [h]; rfl⟩
    simp only [List.map_cons, List.head?_cons, Option.some.injEq, List.tail_cons, hplus]
    split_ifs <;> rfl

/-- The parser reads the numbers of 16 bits off a field, and nothing else. -/
theorem parseU16_lossyText (field : Bytes) (status : UInt16) :
    parseU16 (lossyText field) = some status ↔ Number field status := by
  by_cases hascii : ∀ b ∈ field, b < 0x80
  · rw [lossyText_ascii hascii, parseU16]
    simp only [unsigned_map, List.map_eq_nil_iff, Option.ite_none_left_eq_some,
      Option.map_eq_some_iff, readDigits_map (show 0 < 2 ^ 16 by decide)]
    constructor
    · intro ⟨hne, n, ⟨hdigits, hvalue, hlt⟩, hstatus⟩
      refine ⟨hne, hdigits, ?_⟩
      rw [← hstatus, UInt16.toNat_ofNat_of_lt' hlt, hvalue]
    · intro ⟨hne, hdigits, hvalue⟩
      exact ⟨hne, status.toNat, ⟨hdigits, hvalue, status.toNat_lt⟩, UInt16.ofNat_toNat⟩
  · exact ⟨fun h => absurd (ascii_of_parseU16 h) hascii, fun h => absurd (ascii_of_number h) hascii⟩

/-! ## Lines -/

/-- Lines and fields of the text are those of the bytes. -/
theorem fields_lossyText (buf : Bytes) :
    Split.splitn ' ' 3 (Split.firstLine '\n' '\r' (lossyText buf)) = (fields buf).map lossyText := by
  have hnl : Split.Respects lossyText 10 '\n' := respects_ascii (by decide)
  have hcr : Split.Respects lossyText 13 '\r' := respects_ascii (by decide)
  have hsp : Split.Respects lossyText 32 ' ' := respects_ascii (by decide)
  rw [Split.Respects.firstLine hnl hcr, hsp.splitn, fields]

/-- What the parser accepts: a number in the second field of the first line. -/
theorem parseStatusLine_eq_ok_iff (buf : Bytes) (status : UInt16) :
    (∃ headerEnd, parseStatusLine buf = ok (status, headerEnd)) ↔
      ∃ version code more, fields buf = version :: code :: more ∧ Number code status := by
  have htext : (fromUtf8Lossy buf).toList = lossyText buf := rfl
  by_cases hnil : buf = []
  · subst hnil
    constructor
    · intro ⟨_, h⟩
      exact absurd h (err_ne_ok _ _)
    · intro ⟨version, code, more, h, _⟩
      exact absurd (List.cons.inj h).2 (List.cons_ne_nil _ _).symm
  · have hne : lossyText buf ≠ [] := fun h => hnil (lossyText_eq_nil buf h)
    simp only [parseStatusLine, htext, if_neg hne, fields_lossyText]
    rcases hfields : fields buf with _ | ⟨version, _ | ⟨code, more⟩⟩
    · simp only [List.map_nil, reduceCtorEq, exists_false, false_and]
    · simp only [List.map_cons, List.map_nil, reduceCtorEq, exists_false, List.cons.injEq,
        and_false, false_and]
    · simp only [List.map_cons, List.cons.injEq, ← parseU16_lossyText]
      constructor
      · intro ⟨headerEnd, h⟩
        refine ⟨version, code, more, ⟨rfl, rfl, rfl⟩, ?_⟩
        cases hparse : parseU16 (lossyText code) with
        | none =>
            rw [hparse] at h
            exact absurd h (err_ne_ok _ _)
        | some n =>
            rw [hparse, ok.injEq, Prod.mk.injEq] at h
            rw [h.1]
      · intro ⟨_, _, _, ⟨_, hcode, _⟩, hparse⟩
        rw [hcode, hparse]
        exact ⟨_, rfl⟩

/-! ## Status lines -/

theorem space_notMem {field : Bytes} (h : ∀ b ∈ field, IsDigit b) : 32 ∉ field :=
  fun hmem => (h 32 hmem).ne (by decide) rfl

theorem space_notMem_version {field : Bytes} (h : IsVersion field) : 32 ∉ field := by
  rcases h with ⟨a, b, ha, hb, rfl⟩
  have hname : 32 ∉ strBytes "HTTP/" := by decide
  have hspace : ¬ IsDigit 32 := fun h => h.ne (by decide) rfl
  intro hmem
  simp only [List.mem_append, List.mem_cons, List.not_mem_nil, or_false] at hmem
  rcases hmem with hmem | hmem | hmem | hmem
  · exact hname hmem
  · exact hspace (hmem ▸ ha)
  · exact absurd hmem (by decide)
  · exact hspace (hmem ▸ hb)

/-- Three digits are a number without a sign. -/
theorem IsCode.unsigned_eq {field : Bytes} (h : IsCode field) : unsigned field = field := by
  unfold unsigned
  rw [if_neg]
  intro hplus
  exact (h.2 43 (List.mem_of_mem_head? hplus)).ne (by decide) rfl

theorem IsCode.number_iff {field : Bytes} (h : IsCode field) (status : UInt16) :
    Number field status ↔ status.toNat = valueFrom 0 field := by
  have hne : field ≠ [] := by
    intro hnil
    have hlen := h.1
    rw [hnil] at hlen
    exact absurd hlen (by decide)
  rw [Number, h.unsigned_eq]
  exact ⟨fun hn => hn.2.2.symm, fun hvalue => ⟨hne, h.2, hvalue.symm⟩⟩

/-- The grammar by fields. -/
theorem statusLine_iff (buf : Bytes) (status : UInt16) :
    StatusLine buf status ↔ ∃ version code more, fields buf = version :: code :: more ∧
      IsVersion version ∧ IsCode code ∧ status.toNat = valueFrom 0 code := by
  constructor
  · intro ⟨a, b, d₁, d₂, d₃, tail, ha, hb, h₁, h₂, h₃, htail, hline, hvalue⟩
    have hversion : IsVersion (strBytes "HTTP/" ++ [a, 46, b]) := ⟨a, b, ha, hb, rfl⟩
    have hcode : IsCode [d₁, d₂, d₃] := by
      refine ⟨rfl, ?_⟩
      simp only [List.forall_mem_cons]
      exact ⟨h₁, h₂, h₃, fun b hb => absurd hb List.not_mem_nil⟩
    rcases htail with rfl | ⟨reason, rfl⟩
    · refine ⟨_, _, [], ?_, hversion, hcode, hvalue⟩
      rw [fields, Split.splitn_eq_cons]
      refine ⟨space_notMem_version hversion, Or.inr ⟨_, hline, ?_⟩⟩
      rw [Split.splitn_eq_cons, List.append_nil]
      exact ⟨space_notMem hcode.2, Or.inl ⟨rfl, rfl⟩⟩
    · refine ⟨_, _, [reason], ?_, hversion, hcode, hvalue⟩
      rw [fields, Split.splitn_eq_cons]
      refine ⟨space_notMem_version hversion, Or.inr ⟨_, hline, ?_⟩⟩
      rw [Split.splitn_eq_cons]
      exact ⟨space_notMem hcode.2, Or.inr ⟨reason, rfl, rfl⟩⟩
  · intro ⟨version, code, more, hfields, hversion, hcode, hvalue⟩
    rcases hversion with ⟨a, b, ha, hb, rfl⟩
    rcases List.length_eq_three.mp hcode.1 with ⟨d₁, d₂, d₃, rfl⟩
    have hdigits := hcode.2
    simp only [List.forall_mem_cons] at hdigits
    rw [fields, Split.splitn_eq_cons] at hfields
    rcases hfields.2 with ⟨_, hmore⟩ | ⟨rest, hline, hrest⟩
    · exact absurd hmore (List.cons_ne_nil _ _)
    · rw [Split.splitn_eq_cons] at hrest
      rcases hrest.2 with ⟨hrest, _⟩ | ⟨reason, hrest, _⟩
      · exact ⟨a, b, d₁, d₂, d₃, [], ha, hb, hdigits.1, hdigits.2.1, hdigits.2.2.1, Or.inl rfl,
          by rw [hline, hrest, List.append_nil], hvalue⟩
      · exact ⟨a, b, d₁, d₂, d₃, 32 :: reason, ha, hb, hdigits.1, hdigits.2.1, hdigits.2.2.1,
          Or.inr ⟨reason, rfl⟩, by rw [hline, hrest], hvalue⟩

/-! ## Exactness -/

/-- The test over an exchange reports a success with the status. -/
def Succeeds (target : TestTarget) (x : Exchange) (status : UInt16) : Prop :=
  ∃ r, doTest target x = ok r ∧ r.status = .success ∧ r.httpStatus = some status

/-- On this response the parser and, however the response is cut into reads,
    the test succeed with exactly the status lines of the grammar. -/
def StatusExact (buf : Bytes) : Prop :=
  ∀ status, ((∃ headerEnd, parseStatusLine buf = ok (status, headerEnd)) ↔ StatusLine buf status) ∧
    ∀ target x, Exchange.Delivers x target buf → (Succeeds target x status ↔ StatusLine buf status)

/-- Where the second field of the first line is a number of 16 bits, the first
    is a protocol and its version and the number has three digits. -/
def NumberOnlyInStatusLine (buf : Bytes) : Prop :=
  ∀ version code more status, fields buf = version :: code :: more → Number code status →
    IsVersion version ∧ IsCode code

/-- A test succeeds with what the parser reads. -/
theorem succeeds_iff {target : TestTarget} {x : Exchange} {buf : Bytes}
    (h : x.Delivers target buf) (status : UInt16) :
    Succeeds target x status ↔ ∃ headerEnd, parseStatusLine buf = ok (status, headerEnd) := by
  unfold Succeeds
  constructor
  · intro ⟨r, hr, _, hstatus⟩
    rcases (doTest_eq_ok_iff target x h r).mp hr with ⟨s, headerEnd, hparse, rfl⟩
    have hs : s = status := Option.some.inj hstatus
    exact ⟨headerEnd, hs ▸ hparse⟩
  · intro ⟨headerEnd, hparse⟩
    exact ⟨_, (doTest_eq_ok_iff target x h _).mpr ⟨status, headerEnd, hparse, rfl⟩, rfl, rfl⟩

/-- Every status line is accepted. -/
theorem parseStatusLine_of_statusLine {buf : Bytes} {status : UInt16} (h : StatusLine buf status) :
    ∃ headerEnd, parseStatusLine buf = ok (status, headerEnd) := by
  rcases (statusLine_iff buf status).mp h with ⟨version, code, more, hfields, _, hcode, hvalue⟩
  rw [parseStatusLine_eq_ok_iff]
  exact ⟨version, code, more, hfields, (hcode.number_iff status).mpr hvalue⟩

theorem status_exact_iff (buf : Bytes) : StatusExact buf ↔ NumberOnlyInStatusLine buf := by
  constructor
  · intro h version code more status hfields hnumber
    have hparse := (parseStatusLine_eq_ok_iff buf status).mpr
      ⟨version, code, more, hfields, hnumber⟩
    rcases (statusLine_iff buf status).mp ((h status).1.mp hparse) with
      ⟨version', code', more', hfields', hversion, hcode, _⟩
    rw [hfields, List.cons.injEq, List.cons.injEq] at hfields'
    rw [hfields'.1, hfields'.2.1]
    exact ⟨hversion, hcode⟩
  · intro h status
    have hparse : (∃ headerEnd, parseStatusLine buf = ok (status, headerEnd)) ↔
        StatusLine buf status := by
      refine ⟨fun hok => ?_, parseStatusLine_of_statusLine⟩
      rcases (parseStatusLine_eq_ok_iff buf status).mp hok with
        ⟨version, code, more, hfields, hnumber⟩
      rcases h version code more status hfields hnumber with ⟨hversion, hcode⟩
      exact (statusLine_iff buf status).mpr
        ⟨version, code, more, hfields, hversion, hcode, (hcode.number_iff status).mp hnumber⟩
    exact ⟨hparse, fun target x hx => (succeeds_iff hx status).trans hparse⟩

/-- The answer of another protocol, taken for a success. -/
theorem icy_accepted :
    (∃ headerEnd, parseStatusLine (strBytes "ICY 200 OK\r\n\r\n") = ok (200, headerEnd)) ∧
      ¬ StatusLine (strBytes "ICY 200 OK\r\n\r\n") 200 ∧
      ¬ StatusExact (strBytes "ICY 200 OK\r\n\r\n") := by
  have hparse : ∃ headerEnd, parseStatusLine (strBytes "ICY 200 OK\r\n\r\n")
      = ok (200, headerEnd) := ⟨14, by decide⟩
  have hline : ¬ StatusLine (strBytes "ICY 200 OK\r\n\r\n") 200 := by
    intro ⟨a, b, d₁, d₂, d₃, tail, _, _, _, _, _, _, hline, _⟩
    have hhead : some (73 : UInt8) = some 72 := congrArg List.head? hline
    exact absurd hhead (by decide)
  exact ⟨hparse, hline, fun h => hline ((h 200).1.mp hparse)⟩

end Http1

end ProxyPen
