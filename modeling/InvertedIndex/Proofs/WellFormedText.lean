/-!
Well-formed UTF-8, by the ranges that its bytes may be in.
-/

set_option autoImplicit false
set_option relaxedAutoImplicit false

namespace InvertedIndex.Text

def IsTail (b : UInt8) : Prop :=
  0x80 ≤ b.toNat ∧ b.toNat ≤ 0xBF

/-- The forms of one code point. The leads `0xC0` and `0xC1`, which would be overlong, and those from
`0xF5` on, which would be too large, are in no range. -/
inductive SpellsOne : List UInt8 → Prop
  | one {a : UInt8} (lead : a.toNat ≤ 0x7F) : SpellsOne [a]
  | two {a b : UInt8} (lead : 0xC2 ≤ a.toNat ∧ a.toNat ≤ 0xDF) (second : IsTail b) : SpellsOne [a, b]
  | three {a b c : UInt8} (lead : 0xE0 ≤ a.toNat ∧ a.toNat ≤ 0xEF) (second : IsTail b)
      (notOverlong : a.toNat = 0xE0 → 0xA0 ≤ b.toNat)
      (notSurrogate : a.toNat = 0xED → b.toNat ≤ 0x9F) (third : IsTail c) : SpellsOne [a, b, c]
  | four {a b c d : UInt8} (lead : 0xF0 ≤ a.toNat ∧ a.toNat ≤ 0xF4) (second : IsTail b)
      (notOverlong : a.toNat = 0xF0 → 0x90 ≤ b.toNat)
      (notTooLarge : a.toNat = 0xF4 → b.toNat ≤ 0x8F) (third : IsTail c) (fourth : IsTail d) :
      SpellsOne [a, b, c, d]

inductive WellFormed : List UInt8 → Prop
  | nil : WellFormed []
  | append {form rest : List UInt8} (first : SpellsOne form) (others : WellFormed rest) :
      WellFormed (form ++ rest)

private theorem exists_char {n : Nat} (valid : n < 0xD800 ∨ 0xDFFF < n ∧ n < 0x110000) :
    ∃ c : Char, c.val.toNat = n := by
  have small : (UInt32.ofNat n).toNat = n := by
    rw [UInt32.toNat_ofNat']
    omega
  exact ⟨⟨UInt32.ofNat n, by rwa [UInt32.isValidChar, small]⟩, small⟩

theorem spellsOne_utf8EncodeChar (c : Char) : SpellsOne (String.utf8EncodeChar c) := by
  have valid : c.val.toNat < 0xD800 ∨ 0xDFFF < c.val.toNat ∧ c.val.toNat < 0x110000 := c.valid
  simp only [String.utf8EncodeChar]
  split
  · refine .one ?_
    rw [UInt8.toNat_ofNat']
    omega
  split
  · refine .two ?_ ?_ <;> simp only [IsTail, UInt8.toNat_ofNat'] <;> omega
  split
  · refine .three ?_ ?_ ?_ ?_ ?_ <;> simp only [IsTail, UInt8.toNat_ofNat'] <;> omega
  · refine .four ?_ ?_ ?_ ?_ ?_ ?_ <;> simp only [IsTail, UInt8.toNat_ofNat'] <;> omega

theorem exists_utf8EncodeChar {form : List UInt8} (spells : SpellsOne form) :
    ∃ c : Char, String.utf8EncodeChar c = form := by
  cases spells with
  | @one a lead =>
    obtain ⟨c, value⟩ := exists_char (n := a.toNat) (by omega)
    refine ⟨c, ?_⟩
    rw [String.utf8EncodeChar, value, if_pos lead, UInt8.ofNat_toNat]
  | @two a b lead second =>
    unfold IsTail at second
    obtain ⟨c, value⟩ := exists_char (n := (a.toNat - 0xC0) * 64 + (b.toNat - 0x80)) (by omega)
    refine ⟨c, ?_⟩
    rw [String.utf8EncodeChar, value, if_neg (by omega), if_pos (by omega)]
    simp only [List.cons.injEq, ← UInt8.toNat_inj, UInt8.toNat_ofNat', and_true]
    omega
  | @three a b c lead second notOverlong notSurrogate third =>
    unfold IsTail at second third
    obtain ⟨char, value⟩ := exists_char
      (n := (a.toNat - 0xE0) * 4096 + (b.toNat - 0x80) * 64 + (c.toNat - 0x80)) (by omega)
    refine ⟨char, ?_⟩
    rw [String.utf8EncodeChar, value, if_neg (by omega), if_neg (by omega), if_pos (by omega)]
    simp only [List.cons.injEq, ← UInt8.toNat_inj, UInt8.toNat_ofNat', and_true]
    omega
  | @four a b c d lead second notOverlong notTooLarge third fourth =>
    unfold IsTail at second third fourth
    obtain ⟨char, value⟩ := exists_char
      (n := (a.toNat - 0xF0) * 262144 + (b.toNat - 0x80) * 4096 + (c.toNat - 0x80) * 64 +
        (d.toNat - 0x80)) (by omega)
    refine ⟨char, ?_⟩
    rw [String.utf8EncodeChar, value, if_neg (by omega), if_neg (by omega), if_neg (by omega)]
    simp only [List.cons.injEq, ← UInt8.toNat_inj, UInt8.toNat_ofNat', and_true]
    omega

theorem toList_toUTF8 (text : String) :
    text.toUTF8.data.toList = text.toList.flatMap String.utf8EncodeChar := by
  rw [String.toUTF8_eq_toByteArray, ← String.utf8Encode_toList, List.utf8Encode,
    List.data_toByteArray]

theorem wellFormed_iff {bytes : List UInt8} :
    WellFormed bytes ↔ ∃ text : String, text.toUTF8.data.toList = bytes := by
  constructor
  · intro formed
    induction formed with
    | nil => exact ⟨"", rfl⟩
    | append first _ ih =>
      obtain ⟨c, rfl⟩ := exists_utf8EncodeChar first
      obtain ⟨text, rfl⟩ := ih
      refine ⟨String.ofList (c :: text.toList), ?_⟩
      rw [toList_toUTF8, toList_toUTF8, String.toList_ofList, List.flatMap_cons]
  · rintro ⟨text, rfl⟩
    rw [toList_toUTF8]
    induction text.toList with
    | nil => exact .nil
    | cons c rest ih => exact .append (spellsOne_utf8EncodeChar c) ih

theorem eq_of_toUTF8 {text other : String}
    (same : text.toUTF8.data.toList = other.toUTF8.data.toList) : text = other := by
  rw [String.toUTF8_eq_toByteArray, String.toUTF8_eq_toByteArray, Array.toList_inj,
    ← ByteArray.ext_iff] at same
  exact String.toByteArray_inj.mp same

theorem fromUTF8?_eq_some {bytes : ByteArray} {text : String} :
    String.fromUTF8? bytes = some text ↔ text.toUTF8 = bytes := by
  rw [String.fromUTF8?, String.toUTF8_eq_toByteArray]
  constructor
  · intro decoded
    split at decoded
    · cases decoded
      rfl
    · cases decoded
  · rintro rfl
    rw [dif_pos text.isValidUTF8]
    rfl

theorem fromUTF8?_eq_none {bytes : ByteArray} :
    String.fromUTF8? bytes = none ↔ ¬WellFormed bytes.data.toList := by
  rw [wellFormed_iff, Option.eq_none_iff_forall_not_mem, not_exists]
  refine forall_congr' fun text => not_congr ?_
  rw [Option.mem_def, fromUTF8?_eq_some, Array.toList_inj, ByteArray.ext_iff]

end InvertedIndex.Text
