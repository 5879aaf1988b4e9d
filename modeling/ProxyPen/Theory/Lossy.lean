import ProxyPen.Lib.Split
import ProxyPen.Theory.Text

/-!
# Lossy Text and ASCII

Lossy decoding of bytes that need not be text. Whatever surrounds it, an ASCII
byte decodes to its character: no malformed sequence takes one in, because the
bytes a sequence can go on with are all higher. A byte that is not ASCII never
decodes to an ASCII character. Cutting the decoded text at an ASCII separator
is therefore cutting the bytes.

## Main definitions

* `lossyText`: The characters of a byte string.

## Theorems

* `lossyHead_cases`: What a byte that is not ASCII decodes to.
* `lossyHead_append`: A sequence stops at an ASCII byte.
* `lossy_induction`: Induction along the decoding.
* `lossyText_ascii`, `ascii_of_lossyText`: ASCII text, in both directions.
* `respects_ascii`: Decoding respects ASCII separators.
-/

namespace ProxyPen

namespace Protocol

/-! ## Bytes that do not continue a sequence -/

theorem not_isCont_of_ascii {a : UInt8} (h : a < 0x80) : ¬ isCont a = true := by
  simp only [UInt8.lt_iff_toNat_lt, UInt8.reduceToNat] at h
  simp only [isCont, UInt8.le_iff_toNat_le, UInt8.reduceToNat, Bool.and_eq_true, decide_eq_true_eq]
  omega

/-- What `secondOk` says of the numbers. -/
theorem secondOk_bounds {lead x : UInt8} (h : secondOk lead x = true) :
    128 ≤ x.toNat ∧ x.toNat ≤ 191 ∧ (lead.toNat = 0xE0 → 0xA0 ≤ x.toNat) ∧
      (lead.toNat = 0xED → x.toNat ≤ 0x9F) ∧ (lead.toNat = 0xF0 → 0x90 ≤ x.toNat) ∧
      (lead.toNat = 0xF4 → x.toNat ≤ 0x8F) := by
  simp only [secondOk, isCont, ← UInt8.toNat_inj, UInt8.reduceToNat] at h
  split_ifs at h <;>
    simp only [Bool.and_eq_true, decide_eq_true_eq, UInt8.le_iff_toNat_le,
      UInt8.reduceToNat] at h <;>
    omega

theorem not_secondOk_of_ascii (lead : UInt8) {a : UInt8} (h : a < 0x80) :
    ¬ secondOk lead a = true := by
  intro hsecond
  have hbounds := secondOk_bounds hsecond
  simp only [UInt8.lt_iff_toNat_lt, UInt8.reduceToNat] at h
  omega

/-! ## One character -/

theorem lossyHead_ascii {lead : UInt8} (rest : Bytes) (h : lead < 0x80) :
    lossyHead lead rest = (Char.ofNat lead.toNat, rest) := by
  unfold lossyHead
  rw [if_pos h]

theorem ofNat_high {v : Nat} (h : 128 ≤ v) (hvalid : v < 0xD800 ∨ 0xDFFF < v ∧ v < 0x110000) :
    128 ≤ (Char.ofNat v).toNat := by
  have hv : Nat.isValidChar v := hvalid
  rw [Char.ofNat, dif_pos hv]
  exact h

theorem replacement_high : 128 ≤ replacement.toNat := by decide

theorem two_high {lead x : UInt8} (h : 0xC2 ≤ lead ∧ lead ≤ 0xDF) :
    128 ≤ (Char.ofNat (lead.toNat % 32 * 64 + x.toNat % 64)).toNat := by
  simp only [UInt8.le_iff_toNat_le, UInt8.reduceToNat] at h
  apply ofNat_high <;> omega

theorem three_high {lead x y : UInt8} (h : 0xE0 ≤ lead ∧ lead ≤ 0xEF)
    (hx : secondOk lead x = true) :
    128 ≤ (Char.ofNat (lead.toNat % 16 * 4096 + x.toNat % 64 * 64 + y.toNat % 64)).toNat := by
  have hbounds := secondOk_bounds hx
  simp only [UInt8.le_iff_toNat_le, UInt8.reduceToNat] at h
  apply ofNat_high <;> omega

theorem four_high {lead x y z : UInt8} (h : 0xF0 ≤ lead ∧ lead ≤ 0xF4)
    (hx : secondOk lead x = true) :
    128 ≤ (Char.ofNat (lead.toNat % 8 * 262144 + x.toNat % 64 * 4096 + y.toNat % 64 * 64
      + z.toNat % 64)).toNat := by
  have hbounds := secondOk_bounds hx
  simp only [UInt8.le_iff_toNat_le, UInt8.reduceToNat] at h
  apply ofNat_high <;> omega

/-- A byte that is not ASCII decodes to a character that is not, whether its
    sequence is well formed or replaced, and takes bytes off the front of the
    rest. An ASCII byte behind the rest ends the sequence as the end of the bytes
    does. -/
theorem lossyHead_cases {lead : UInt8} (rest : Bytes) (h : ¬ lead < 0x80) :
    ∃ c back, 128 ≤ c.toNat ∧ back <:+ rest ∧ lossyHead lead rest = (c, back) ∧
      ∀ a ys, a < 0x80 → lossyHead lead (rest ++ a :: ys) = (c, back ++ a :: ys) := by
  unfold lossyHead
  simp only [if_neg h]
  -- The cases are those of the decoder: the length of the sequence, then its bytes.
  by_cases h2 : 0xC2 ≤ lead ∧ lead ≤ 0xDF
  · simp only [if_pos h2]
    rcases rest with _ | ⟨x, rest⟩
    · exact ⟨_, [], replacement_high, List.suffix_refl _, rfl,
        fun a ys ha => if_neg (not_isCont_of_ascii ha)⟩
    by_cases hx : isCont x = true
    · simp only [List.cons_append, if_pos hx]
      exact ⟨_, rest, two_high h2, List.suffix_cons x rest, rfl, fun _ _ _ => rfl⟩
    · simp only [List.cons_append, if_neg hx]
      exact ⟨_, x :: rest, replacement_high, List.suffix_refl _, rfl, fun _ _ _ => rfl⟩
  simp only [if_neg h2]
  by_cases h3 : 0xE0 ≤ lead ∧ lead ≤ 0xEF
  · simp only [if_pos h3]
    rcases rest with _ | ⟨x, rest⟩
    · exact ⟨_, [], replacement_high, List.suffix_refl _, rfl,
        fun a ys ha => if_neg (not_secondOk_of_ascii lead ha)⟩
    by_cases hx : secondOk lead x = true
    · simp only [List.cons_append, if_pos hx]
      rcases rest with _ | ⟨y, rest⟩
      · exact ⟨_, [], replacement_high, List.nil_suffix, rfl,
          fun a ys ha => if_neg (not_isCont_of_ascii ha)⟩
      by_cases hy : isCont y = true
      · simp only [List.cons_append, if_pos hy]
        exact ⟨_, rest, three_high h3 hx, ⟨[x, y], rfl⟩, rfl, fun _ _ _ => rfl⟩
      · simp only [List.cons_append, if_neg hy]
        exact ⟨_, y :: rest, replacement_high, List.suffix_cons x _, rfl, fun _ _ _ => rfl⟩
    · simp only [List.cons_append, if_neg hx]
      exact ⟨_, x :: rest, replacement_high, List.suffix_refl _, rfl, fun _ _ _ => rfl⟩
  simp only [if_neg h3]
  by_cases h4 : 0xF0 ≤ lead ∧ lead ≤ 0xF4
  · simp only [if_pos h4]
    rcases rest with _ | ⟨x, rest⟩
    · exact ⟨_, [], replacement_high, List.suffix_refl _, rfl,
        fun a ys ha => if_neg (not_secondOk_of_ascii lead ha)⟩
    by_cases hx : secondOk lead x = true
    · simp only [List.cons_append, if_pos hx]
      rcases rest with _ | ⟨y, rest⟩
      · exact ⟨_, [], replacement_high, List.nil_suffix, rfl,
          fun a ys ha => if_neg (not_isCont_of_ascii ha)⟩
      by_cases hy : isCont y = true
      · simp only [List.cons_append, if_pos hy]
        rcases rest with _ | ⟨z, rest⟩
        · exact ⟨_, [], replacement_high, List.nil_suffix, rfl,
            fun a ys ha => if_neg (not_isCont_of_ascii ha)⟩
        by_cases hz : isCont z = true
        · simp only [List.cons_append, if_pos hz]
          exact ⟨_, rest, four_high h4 hx, ⟨[x, y, z], rfl⟩, rfl, fun _ _ _ => rfl⟩
        · simp only [List.cons_append, if_neg hz]
          exact ⟨_, z :: rest, replacement_high, ⟨[x, y], rfl⟩, rfl, fun _ _ _ => rfl⟩
      · simp only [List.cons_append, if_neg hy]
        exact ⟨_, y :: rest, replacement_high, List.suffix_cons x _, rfl, fun _ _ _ => rfl⟩
    · simp only [List.cons_append, if_neg hx]
      exact ⟨_, x :: rest, replacement_high, List.suffix_refl _, rfl, fun _ _ _ => rfl⟩
  · simp only [if_neg h4]
    exact ⟨_, rest, replacement_high, List.suffix_refl _, rfl, fun _ _ _ => rfl⟩

theorem lossyHead_high {lead : UInt8} (rest : Bytes) (h : ¬ lead < 0x80) :
    128 ≤ (lossyHead lead rest).1.toNat := by
  rcases lossyHead_cases rest h with ⟨c, back, hhigh, _, heq, _⟩
  rw [heq]
  exact hhigh

theorem lossyHead_suffix (lead : UInt8) (rest : Bytes) : (lossyHead lead rest).2 <:+ rest := by
  by_cases h : lead < 0x80
  · simp only [lossyHead_ascii rest h, List.suffix_refl]
  · rcases lossyHead_cases rest h with ⟨c, back, _, hsuffix, heq, _⟩
    rw [heq]
    exact hsuffix

/-- A sequence stops at an ASCII byte. -/
theorem lossyHead_append (lead : UInt8) (rest ys : Bytes) {a : UInt8} (ha : a < 0x80) :
    lossyHead lead (rest ++ a :: ys)
      = ((lossyHead lead rest).1, (lossyHead lead rest).2 ++ a :: ys) := by
  by_cases h : lead < 0x80
  · rw [lossyHead_ascii _ h, lossyHead_ascii rest h]
  · rcases lossyHead_cases rest h with ⟨c, back, _, _, heq, happend⟩
    rw [happend a ys ha, heq]

/-! ## Texts -/

/-- The characters of a byte string. -/
def lossyText (bs : Bytes) : List Char := (fromUtf8Lossy bs).toList

theorem lossyText_eq (bs : Bytes) : lossyText bs = lossyChars bs.length bs := by
  rw [lossyText, fromUtf8Lossy, String.toList_ofList]

/-- More rounds than there are bytes change nothing. -/
theorem lossyChars_fuel (fuel : Nat) (bs : Bytes) (h : bs.length ≤ fuel) :
    lossyChars fuel bs = lossyText bs := by
  rw [lossyText_eq]
  induction fuel using Nat.strong_induction_on generalizing bs with
  | _ fuel ih =>
      rcases bs with _ | ⟨b, bs⟩
      · rcases fuel with _ | fuel
        · rfl
        · rfl
      rcases fuel with _ | fuel
      · exact absurd h (Nat.not_succ_le_zero _)
      rw [List.length_cons] at h ⊢
      rw [lossyChars, lossyChars]
      have hrest := (lossyHead_suffix b bs).length_le
      -- What is left is shorter, so both amounts are enough for it.
      rw [ih fuel (by omega) _ (by omega), ih bs.length (by omega) _ hrest]

theorem lossyText_nil : lossyText [] = [] := by
  rw [lossyText_eq]
  rfl

theorem lossyText_cons (b : UInt8) (bs : Bytes) :
    lossyText (b :: bs) = (lossyHead b bs).1 :: lossyText (lossyHead b bs).2 := by
  rw [lossyText_eq, List.length_cons, lossyChars,
    lossyChars_fuel bs.length _ (lossyHead_suffix b bs).length_le]

theorem lossyText_eq_nil (bs : Bytes) (h : lossyText bs = []) : bs = [] := by
  rcases bs with _ | ⟨b, bs⟩
  · rfl
  · rw [lossyText_cons] at h
    exact absurd h (List.cons_ne_nil _ _)

/-- Induction along the decoding: a character, then what is left of the bytes. -/
theorem lossy_induction {P : Bytes → Prop} (hnil : P [])
    (hcons : ∀ b bs, P (lossyHead b bs).2 → P (b :: bs)) (bs : Bytes) : P bs := by
  induction hlen : bs.length using Nat.strong_induction_on generalizing bs with
  | _ n ih =>
      rcases bs with _ | ⟨b, bs⟩
      · exact hnil
      · have hrest := (lossyHead_suffix b bs).length_le
        rw [List.length_cons] at hlen
        exact hcons b bs (ih _ (by omega) _ rfl)

theorem lossyText_cons_ascii {b : UInt8} (bs : Bytes) (h : b < 0x80) :
    lossyText (b :: bs) = Char.ofNat b.toNat :: lossyText bs := by
  rw [lossyText_cons, lossyHead_ascii bs h]

theorem lossyText_append (xs ys : Bytes) {a : UInt8} (h : a < 0x80) :
    lossyText (xs ++ a :: ys) = lossyText xs ++ Char.ofNat a.toNat :: lossyText ys := by
  induction xs using lossy_induction with
  | hnil => rw [List.nil_append, lossyText_nil, List.nil_append, lossyText_cons_ascii ys h]
  | hcons b xs ih =>
      rw [List.cons_append, lossyText_cons, lossyHead_append b xs ys h, ih, lossyText_cons b xs,
        List.cons_append]

theorem byteChar_toNat (b : UInt8) : (Char.ofNat b.toNat).toNat = b.toNat := by
  have hlt := b.toNat_lt
  have hv : Nat.isValidChar b.toNat := Or.inl (by omega)
  rw [Char.ofNat, dif_pos hv]
  rfl

theorem byteChar_inj {a b : UInt8} (h : Char.ofNat a.toNat = Char.ofNat b.toNat) : a = b := by
  apply UInt8.toNat_inj.mp
  rw [← byteChar_toNat a, h, byteChar_toNat]

/-- Every ASCII character of the text was a byte. -/
theorem mem_of_mem_lossyText (bs : Bytes) {a : UInt8} (ha : a < 0x80)
    (h : Char.ofNat a.toNat ∈ lossyText bs) : a ∈ bs := by
  induction bs using lossy_induction with
  | hnil =>
      rw [lossyText_nil] at h
      exact absurd h List.not_mem_nil
  | hcons b bs ih =>
      rw [lossyText_cons, List.mem_cons] at h
      rcases h with h | h
      · by_cases hb : b < 0x80
        · rw [lossyHead_ascii bs hb] at h
          exact List.mem_cons.mpr (Or.inl (byteChar_inj h))
        · have hhigh := lossyHead_high bs hb
          rw [← h, byteChar_toNat] at hhigh
          simp only [UInt8.lt_iff_toNat_lt, UInt8.reduceToNat] at ha
          omega
      · exact List.mem_cons_of_mem _ ((lossyHead_suffix b bs).subset (ih h))

theorem lossyText_ascii {bs : Bytes} (h : ∀ b ∈ bs, b < 0x80) :
    lossyText bs = bs.map (fun b => Char.ofNat b.toNat) := by
  induction bs with
  | nil => exact lossyText_nil
  | cons b bs ih =>
      rw [List.forall_mem_cons] at h
      rw [lossyText_cons_ascii bs h.1, ih h.2, List.map_cons]

/-- A text of ASCII characters comes from ASCII bytes. -/
theorem ascii_of_lossyText {bs : Bytes} (h : ∀ c ∈ lossyText bs, c.toNat < 128) :
    ∀ b ∈ bs, b < 0x80 := by
  induction bs using lossy_induction with
  | hnil => exact fun b hb => absurd hb List.not_mem_nil
  | hcons b bs ih =>
      rw [lossyText_cons, List.forall_mem_cons] at h
      have hb : b < 0x80 := by
        by_contra hhigh
        exact absurd (lossyHead_high bs hhigh) (by omega)
      rw [lossyHead_ascii bs hb] at h ih
      exact List.forall_mem_cons.mpr ⟨hb, ih h.2⟩

/-- Decoding respects ASCII separators. -/
theorem respects_ascii {a : UInt8} (h : a < 0x80) :
    Split.Respects lossyText a (Char.ofNat a.toNat) where
  decode_nil := lossyText_nil
  eq_nil := lossyText_eq_nil
  decode_append xs ys := lossyText_append xs ys h
  mem xs := mem_of_mem_lossyText xs h

end Protocol

end ProxyPen
