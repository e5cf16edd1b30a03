import InvertedIndex.Hash.Crc32
import InvertedIndex.Proofs.DifferWithin
import InvertedIndex.Proofs.StoredRecords

/-!
A bit step is linear in exclusive or and loses nothing, and four bytes meet the remainder as one
word: so a burst of at most four bytes always changes the digest.
-/

set_option autoImplicit false
set_option relaxedAutoImplicit false

namespace InvertedIndex.Crc32

open BigEndian (value value_append_singleton value_lt digits_value)

theorem bitStep_eq (r : UInt32) :
    bitStep r = (r >>> 1) ^^^ if r.toNat % 2 = 1 then polynomial else 0 := by
  have low : r &&& 1 = 1 ↔ r.toNat % 2 = 1 := by
    rw [← UInt32.toNat_inj, UInt32.toNat_and]
    exact Nat.and_one_is_mod r.toNat ▸ Iff.rfl
  rw [bitStep]
  by_cases odd : r.toNat % 2 = 1
  · rw [if_pos (low.mpr odd), if_pos odd]
  · rw [if_neg (mt low.mp odd), if_neg odd, UInt32.xor_zero]

theorem bitStep_xor (r s : UInt32) : bitStep (r ^^^ s) = bitStep r ^^^ bitStep s := by
  have low : (r ^^^ s).toNat % 2 = 1 ↔ ¬(r.toNat % 2 = 1 ↔ s.toNat % 2 = 1) := by
    rw [UInt32.toNat_xor]
    exact Nat.xor_mod_two_eq_one
  have added : (if (r ^^^ s).toNat % 2 = 1 then polynomial else 0) =
      (if r.toNat % 2 = 1 then polynomial else 0) ^^^ if s.toNat % 2 = 1 then polynomial else 0 := by
    rw [if_congr low rfl rfl]
    by_cases first : r.toNat % 2 = 1 <;> by_cases second : s.toNat % 2 = 1 <;> simp [first, second]
  rw [bitStep_eq, bitStep_eq, bitStep_eq, UInt32.shiftRight_xor, added]
  ac_rfl

theorem iterate_bitStep_xor (n : Nat) (r s : UInt32) :
    bitStep^[n] (r ^^^ s) = bitStep^[n] r ^^^ bitStep^[n] s := by
  induction n generalizing r s with
  | zero => rfl
  | succ n ih => rw [Function.iterate_succ_apply, bitStep_xor, ih]; rfl

theorem eq_zero_of_bitStep {r : UInt32} (h : bitStep r = 0) : r = 0 := by
  have half : (r >>> 1).toNat = r.toNat / 2 := by
    rw [UInt32.toNat_shiftRight]
    exact Nat.shiftRight_one _
  rw [bitStep_eq, UInt32.xor_eq_zero_iff, ← UInt32.toNat_inj, half] at h
  have small := r.toNat_lt
  -- Half of a remainder has no top bit, but the polynomial has one.
  split at h
  · next odd =>
    have top : polynomial.toNat = 3988292384 := by decide
    omega
  · next even =>
    have zero : (0 : UInt32).toNat = 0 := rfl
    apply UInt32.toNat_inj.mp
    omega

theorem bitStep_injective : Function.Injective bitStep := by
  intro r s h
  rw [← UInt32.xor_eq_zero_iff] at h ⊢
  exact eq_zero_of_bitStep ((bitStep_xor r s).trans h)

theorem byteStep_eq (r : UInt32) (byte : UInt8) :
    byteStep r byte = bitStep^[8] (r ^^^ byte.toUInt32) :=
  rfl

theorem update_injective (bytes : List UInt8) : Function.Injective (update · bytes) := by
  induction bytes with
  | nil => exact Function.injective_id
  | cons byte rest ih =>
    intro r s h
    have first := ih h
    rw [byteStep_eq, byteStep_eq] at first
    exact (UInt32.xor_left_inj _).mp (bitStep_injective.iterate 8 first)

theorem bitStep_ofNat {number : Nat} (small : 2 * number < 2 ^ 32) :
    bitStep (UInt32.ofNat (2 * number)) = UInt32.ofNat number := by
  have whole : (UInt32.ofNat (2 * number)).toNat = 2 * number := Nat.mod_eq_of_lt small
  have half : (UInt32.ofNat number).toNat = number := Nat.mod_eq_of_lt (by omega)
  have shifted : (UInt32.ofNat (2 * number) >>> 1).toNat = 2 * number / 2 := by
    rw [UInt32.toNat_shiftRight, whole]
    exact Nat.shiftRight_one _
  rw [bitStep_eq, whole, if_neg (by omega), UInt32.xor_zero, ← UInt32.toNat_inj, shifted, half]
  omega

theorem iterate_bitStep_ofNat (n : Nat) {number : Nat} (small : 2 ^ n * number < 2 ^ 32) :
    bitStep^[n] (UInt32.ofNat (2 ^ n * number)) = UInt32.ofNat number := by
  induction n with
  | zero => rw [Nat.pow_zero, Nat.one_mul]; rfl
  | succ n ih =>
    rw [Nat.pow_succ', Nat.mul_assoc] at small ⊢
    rw [Function.iterate_succ_apply, bitStep_ofNat small, ih (by omega)]

/-- The word that up to four bytes make up, the first of them lowest. -/
def window (bytes : List UInt8) : UInt32 :=
  UInt32.ofNat (value bytes.reverse)

theorem value_reverse_lt (bytes : List UInt8) : value bytes.reverse < 256 ^ bytes.length := by
  have bound := value_lt bytes.reverse
  rwa [List.length_reverse] at bound

theorem xor_eq_add {low : Nat} (n high : Nat) (small : low < 2 ^ n) :
    low ^^^ 2 ^ n * high = 2 ^ n * high + low := by
  have positive := Nat.two_pow_pos n
  have quotient : (low ^^^ 2 ^ n * high) / 2 ^ n = high := by
    rw [Nat.xor_div_two_pow, Nat.div_eq_of_lt small, Nat.mul_div_cancel_left _ positive, Nat.zero_xor]
  have remainder : (low ^^^ 2 ^ n * high) % 2 ^ n = low := by
    rw [Nat.xor_mod_two_pow, Nat.mod_eq_of_lt small, Nat.mul_mod_right, Nat.xor_zero]
  calc low ^^^ 2 ^ n * high
    _ = 2 ^ n * ((low ^^^ 2 ^ n * high) / 2 ^ n) + (low ^^^ 2 ^ n * high) % 2 ^ n :=
      (Nat.div_add_mod _ _).symm
    _ = 2 ^ n * high + low := by rw [quotient, remainder]

theorem window_cons (byte : UInt8) (rest : List UInt8) :
    window (byte :: rest) = byte.toUInt32 ^^^ UInt32.ofNat (2 ^ 8 * value rest.reverse) := by
  have first : byte.toUInt32 = UInt32.ofNat byte.toNat := (UInt32.ofNat_uInt8ToNat byte).symm
  rw [window, List.reverse_cons, value_append_singleton, Nat.mul_comm, first, ← UInt32.ofNat_xor,
    xor_eq_add 8 _ byte.toNat_lt]
  rfl

/-- Up to four bytes meet the remainder at once. -/
theorem update_eq_window {bytes : List UInt8} (short : bytes.length ≤ 4) (r : UInt32) :
    update r bytes = bitStep^[8 * bytes.length] (r ^^^ window bytes) := by
  induction bytes generalizing r with
  | nil => exact (UInt32.xor_zero (a := r)).symm
  | cons byte rest ih =>
    -- The other bytes stand above the first one, so its eight steps only move them down.
    have fits : 2 ^ 8 * value rest.reverse < 2 ^ 32 := by
      have bound : value rest.reverse < 256 ^ 3 :=
        (value_reverse_lt rest).trans_le (Nat.pow_le_pow_right (by decide) (Nat.le_of_succ_le_succ short))
      omega
    calc update r (byte :: rest)
      _ = update (byteStep r byte) rest := rfl
      _ = bitStep^[8 * rest.length] (bitStep^[8] (r ^^^ byte.toUInt32) ^^^ window rest) := by
        rw [ih (Nat.le_of_succ_le short), byteStep_eq]
      _ = bitStep^[8 * rest.length] (bitStep^[8] (r ^^^ window (byte :: rest))) := by
        rw [window_cons, ← UInt32.xor_assoc, iterate_bitStep_xor 8 (r ^^^ byte.toUInt32),
          iterate_bitStep_ofNat 8 fits, window]
      _ = bitStep^[8 * (byte :: rest).length] (r ^^^ window (byte :: rest)) := by
        rw [← Function.iterate_add_apply, List.length_cons, Nat.mul_succ]

theorem eq_of_window_eq {bytes others : List UInt8} (length : others.length = bytes.length)
    (short : bytes.length ≤ 4) (same : window others = window bytes) : others = bytes := by
  have room : 256 ^ bytes.length ≤ 2 ^ 32 := Nat.pow_le_pow_right (by decide) short
  have bound := value_reverse_lt bytes
  have bound' := value_reverse_lt others
  rw [length] at bound'
  have numbers : value others.reverse = value bytes.reverse := by
    have reduced := congrArg UInt32.toNat same
    rwa [window, window, UInt32.toNat_ofNat_of_lt' (bound'.trans_le room),
      UInt32.toNat_ofNat_of_lt' (bound.trans_le room)] at reduced
  have runs : others.reverse = bytes.reverse := by
    rw [← digits_value bytes.reverse, ← digits_value others.reverse, numbers, List.length_reverse,
      List.length_reverse, length]
  exact List.reverse_injective runs

theorem digest_ne_of_window {bytes others : List UInt8} (length : others.length = bytes.length)
    (short : bytes.length ≤ 4) (differ : others ≠ bytes) (front back : List UInt8) :
    digest (front ++ (others ++ back)) ≠ digest (front ++ (bytes ++ back)) := by
  intro same
  have remainders : update (update (update start front) others) back =
      update (update (update start front) bytes) back := by
    have digests := (UInt32.xor_left_inj _).mp same
    rwa [update_append, update_append, update_append, update_append] at digests
  have steps := update_injective back remainders
  rw [update_eq_window short, update_eq_window (length ▸ short), length] at steps
  have words := bitStep_injective.iterate _ steps
  exact differ (eq_of_window_eq length short ((UInt32.xor_right_inj _).mp words))

theorem digest_ne_of_differWithin {file other : List UInt8} (h : DifferWithin 4 file other) :
    digest other ≠ digest file := by
  obtain ⟨front, others, bytes, back, rfl, rfl, length, short, differ⟩ := DifferWithin.iff_split.mp h
  exact digest_ne_of_window length short differ front back

end InvertedIndex.Crc32
