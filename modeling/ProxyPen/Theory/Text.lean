import ProxyPen.Core.Protocol

/-!
# Text on the Wire

Lossy decoding loses nothing of text that was encoded: the bytes of a
character decode to that character, and decoding goes on behind them.

## Theorems

* `lossyHead_encode`: One character, by the length of its encoding.
* `fromUtf8Lossy_strBytes`: A whole string.
-/

namespace ProxyPen

namespace Protocol

theorem toNat_byte {v : Nat} (h : v < 256) : (UInt8.ofNat v).toNat = v :=
  UInt8.toNat_ofNat_of_lt' h

/-! Comparisons of bytes, as comparisons of the numbers they denote. -/

theorem byte_lt {b : UInt8} {v : Nat} (hb : b.toNat = v) (k : UInt8) : b < k ↔ v < k.toNat := by
  rw [UInt8.lt_iff_toNat_lt, hb]

theorem byte_le {b : UInt8} {v : Nat} (hb : b.toNat = v) (k : UInt8) : b ≤ k ↔ v ≤ k.toNat := by
  rw [UInt8.le_iff_toNat_le, hb]

theorem le_byte {b : UInt8} {v : Nat} (hb : b.toNat = v) (k : UInt8) : k ≤ b ↔ k.toNat ≤ v := by
  rw [UInt8.le_iff_toNat_le, hb]

theorem byte_eq {b : UInt8} {v : Nat} (hb : b.toNat = v) (k : UInt8) : b = k ↔ v = k.toNat := by
  rw [← UInt8.toNat_inj, hb]

theorem isCont_of_toNat {b : UInt8} {v : Nat} (hb : b.toNat = v % 64 + 128) : isCont b = true := by
  simp only [isCont, Bool.and_eq_true, decide_eq_true_eq, le_byte hb, byte_le hb,
    UInt8.reduceToNat]
  omega

/-- The second byte of a character that is neither overlong, nor a surrogate,
    nor past the last code point. -/
theorem secondOk_of_toNat {lead b : UInt8} {l v : Nat} (hl : lead.toNat = l) (hb : b.toNat = v)
    (hlow : 128 ≤ v) (hhigh : v ≤ 191) (he0 : l = 0xE0 → 0xA0 ≤ v) (hed : l = 0xED → v ≤ 0x9F)
    (hf0 : l = 0xF0 → 0x90 ≤ v) (hf4 : l = 0xF4 → v ≤ 0x8F) : secondOk lead b = true := by
  simp only [secondOk, isCont, byte_eq hl, UInt8.reduceToNat]
  split_ifs <;>
    simp only [Bool.and_eq_true, decide_eq_true_eq, le_byte hb, byte_le hb, UInt8.reduceToNat] <;>
    omega

/-! ## One character -/

theorem lossyHead_one {v : Nat} (h : v ≤ 0x7F) (rest : Bytes) :
    lossyHead (UInt8.ofNat v) rest = (Char.ofNat v, rest) := by
  have hb : (UInt8.ofNat v).toNat = v := toNat_byte (by omega)
  unfold lossyHead
  rw [if_pos ((byte_lt hb _).mpr (by simp only [UInt8.reduceToNat]; omega)), hb]

theorem lossyHead_two {v : Nat} (hlow : 0x7F < v) (hhigh : v ≤ 0x7FF) (rest : Bytes) :
    lossyHead (UInt8.ofNat (v / 64 % 32 + 192)) (UInt8.ofNat (v % 64 + 128) :: rest)
      = (Char.ofNat v, rest) := by
  have hlead : (UInt8.ofNat (v / 64 % 32 + 192)).toNat = v / 64 % 32 + 192 := toNat_byte (by omega)
  have hb : (UInt8.ofNat (v % 64 + 128)).toNat = v % 64 + 128 := toNat_byte (by omega)
  have hval : (v / 64 % 32 + 192) % 32 * 64 + (v % 64 + 128) % 64 = v := by omega
  unfold lossyHead
  simp only [byte_lt hlead, le_byte hlead, byte_le hlead, UInt8.reduceToNat, hlead, hb,
    isCont_of_toNat hb, hval]
  rw [if_neg (by omega), if_pos (by omega), if_pos trivial]

theorem lossyHead_three {v : Nat} (hlow : 0x7FF < v) (hhigh : v ≤ 0xFFFF)
    (hsurrogate : v < 0xD800 ∨ 0xDFFF < v) (rest : Bytes) :
    lossyHead (UInt8.ofNat (v / 4096 % 16 + 224))
        (UInt8.ofNat (v / 64 % 64 + 128) :: UInt8.ofNat (v % 64 + 128) :: rest)
      = (Char.ofNat v, rest) := by
  have hlead : (UInt8.ofNat (v / 4096 % 16 + 224)).toNat = v / 4096 % 16 + 224 :=
    toNat_byte (by omega)
  have hb : (UInt8.ofNat (v / 64 % 64 + 128)).toNat = v / 64 % 64 + 128 := toNat_byte (by omega)
  have hc : (UInt8.ofNat (v % 64 + 128)).toNat = v % 64 + 128 := toNat_byte (by omega)
  have hsecond : secondOk (UInt8.ofNat (v / 4096 % 16 + 224)) (UInt8.ofNat (v / 64 % 64 + 128))
      = true := by
    apply secondOk_of_toNat hlead hb <;> omega
  have hval : (v / 4096 % 16 + 224) % 16 * 4096 + (v / 64 % 64 + 128) % 64 * 64 +
      (v % 64 + 128) % 64 = v := by
    omega
  unfold lossyHead
  simp only [byte_lt hlead, le_byte hlead, byte_le hlead, UInt8.reduceToNat, hlead, hb, hc,
    hsecond, isCont_of_toNat hc, hval]
  rw [if_neg (by omega), if_neg (by omega), if_pos (by omega), if_pos trivial, if_pos trivial]

theorem lossyHead_four {v : Nat} (hlow : 0xFFFF < v) (hhigh : v < 0x110000) (rest : Bytes) :
    lossyHead (UInt8.ofNat (v / 262144 % 8 + 240))
        (UInt8.ofNat (v / 4096 % 64 + 128) :: UInt8.ofNat (v / 64 % 64 + 128) ::
          UInt8.ofNat (v % 64 + 128) :: rest)
      = (Char.ofNat v, rest) := by
  have hlead : (UInt8.ofNat (v / 262144 % 8 + 240)).toNat = v / 262144 % 8 + 240 :=
    toNat_byte (by omega)
  have hb : (UInt8.ofNat (v / 4096 % 64 + 128)).toNat = v / 4096 % 64 + 128 :=
    toNat_byte (by omega)
  have hc : (UInt8.ofNat (v / 64 % 64 + 128)).toNat = v / 64 % 64 + 128 := toNat_byte (by omega)
  have hd : (UInt8.ofNat (v % 64 + 128)).toNat = v % 64 + 128 := toNat_byte (by omega)
  have hsecond : secondOk (UInt8.ofNat (v / 262144 % 8 + 240)) (UInt8.ofNat (v / 4096 % 64 + 128))
      = true := by
    apply secondOk_of_toNat hlead hb <;> omega
  have hval : (v / 262144 % 8 + 240) % 8 * 262144 + (v / 4096 % 64 + 128) % 64 * 4096 +
      (v / 64 % 64 + 128) % 64 * 64 + (v % 64 + 128) % 64 = v := by
    omega
  unfold lossyHead
  simp only [byte_lt hlead, le_byte hlead, byte_le hlead, UInt8.reduceToNat, hlead, hb, hc, hd,
    hsecond, isCont_of_toNat hc, isCont_of_toNat hd, hval]
  rw [if_neg (by omega), if_neg (by omega), if_neg (by omega), if_pos (by omega), if_pos trivial,
    if_pos trivial, if_pos trivial]

/-- The encoding of a character decodes to the character, and leaves the rest. -/
theorem lossyHead_encode (c : Char) (rest : Bytes) :
    ∃ b bs, String.utf8EncodeChar c = b :: bs ∧ lossyHead b (bs ++ rest) = (c, rest) := by
  have hback : Char.ofNat c.val.toNat = c := Char.ofNat_toNat c
  have hvalid : c.val.toNat < 0xD800 ∨ 0xDFFF < c.val.toNat ∧ c.val.toNat < 0x110000 := c.valid
  unfold String.utf8EncodeChar
  by_cases h1 : c.val.toNat ≤ 0x7F
  · rw [if_pos h1]
    exact ⟨_, _, rfl, by rw [List.nil_append, lossyHead_one h1, hback]⟩
  rw [if_neg h1]
  by_cases h2 : c.val.toNat ≤ 0x7FF
  · rw [if_pos h2]
    refine ⟨_, _, rfl, ?_⟩
    simp only [List.cons_append, List.nil_append]
    rw [lossyHead_two (by omega) h2, hback]
  rw [if_neg h2]
  by_cases h3 : c.val.toNat ≤ 0xFFFF
  · rw [if_pos h3]
    refine ⟨_, _, rfl, ?_⟩
    simp only [List.cons_append, List.nil_append]
    rw [lossyHead_three (by omega) h3 (by omega), hback]
  · rw [if_neg h3]
    refine ⟨_, _, rfl, ?_⟩
    simp only [List.cons_append, List.nil_append]
    rw [lossyHead_four (by omega) (by omega), hback]

/-! ## Strings -/

theorem strBytes_append (s t : String) : strBytes (s ++ t) = strBytes s ++ strBytes t := by
  rw [strBytes, String.toList_append, List.flatMap_append, strBytes, strBytes]

/-- Every character takes a byte at least, so as many rounds as there are
    bytes decode all characters. -/
theorem lossyChars_encode (cs : List Char) (fuel : Nat)
    (h : (cs.flatMap String.utf8EncodeChar).length ≤ fuel) :
    lossyChars fuel (cs.flatMap String.utf8EncodeChar) = cs := by
  induction cs generalizing fuel with
  | nil =>
      rw [List.flatMap_nil]
      rcases fuel with _ | fuel
      · rfl
      · rfl
  | cons c cs ih =>
      rcases lossyHead_encode c (cs.flatMap String.utf8EncodeChar) with ⟨b, bs, henc, hhead⟩
      rw [List.flatMap_cons, henc, List.cons_append] at h ⊢
      rcases fuel with _ | fuel
      · exact absurd h (Nat.not_succ_le_zero _)
      rw [List.length_cons, List.length_append] at h
      rw [lossyChars, hhead, ih fuel (by omega)]

/-- Lossy decoding is exact on the bytes of a string. -/
theorem fromUtf8Lossy_strBytes (s : String) : fromUtf8Lossy (strBytes s) = s := by
  rw [fromUtf8Lossy, strBytes, lossyChars_encode s.toList _ (Nat.le_refl _), String.ofList_toList]

end Protocol

end ProxyPen
