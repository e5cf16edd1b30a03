set_option autoImplicit false
set_option relaxedAutoImplicit false

namespace InvertedIndex.BigEndian

/-- The number that a run of bytes spells, most significant byte first. -/
def value (bytes : List UInt8) : Nat :=
  bytes.foldl (fun n b => n * 256 + b.toNat) 0

/-- The lowest `width` base-256 digits of a number, most significant first. -/
def digits : Nat → Nat → List UInt8
  | 0, _ => []
  | width + 1, n => digits width (n / 256) ++ [UInt8.ofNat n]

/-- The number spelled by the `width` bytes that start at `start`. -/
def field (bytes : List UInt8) (start width : Nat) : Nat :=
  value ((bytes.drop start).take width)

@[simp]
theorem length_digits (width n : Nat) : (digits width n).length = width := by
  induction width generalizing n with
  | zero => rfl
  | succ width ih => simp [digits, ih]

theorem value_append_singleton (bytes : List UInt8) (b : UInt8) :
    value (bytes ++ [b]) = value bytes * 256 + b.toNat := by
  simp [value]

private theorem digits_value_of_length (width : Nat) :
    ∀ bytes : List UInt8, bytes.length = width → digits width (value bytes) = bytes := by
  induction width with
  | zero =>
    intro bytes h
    rw [List.length_eq_zero_iff.mp h]
    rfl
  | succ width ih =>
    intro bytes h
    obtain rfl | ⟨front, b, rfl⟩ := List.eq_nil_or_concat bytes
    · simp at h
    · have hb := b.toNat_lt
      rw [List.concat_eq_append] at h ⊢
      rw [value_append_singleton, digits,
        show (value front * 256 + b.toNat) / 256 = value front by omega, ih front (by simpa using h)]
      congr 2
      apply UInt8.toNat_inj.mp
      rw [UInt8.toNat_ofNat']
      omega

theorem digits_value (bytes : List UInt8) : digits bytes.length (value bytes) = bytes :=
  digits_value_of_length bytes.length bytes rfl

end InvertedIndex.BigEndian
