import InvertedIndex.Hash.Fnv1a
import InvertedIndex.Proofs.DifferWithin

/-!
The multiplier of the digest is odd, so every step can be undone: bytes that follow a difference
never undo it.
-/

set_option autoImplicit false
set_option relaxedAutoImplicit false

namespace InvertedIndex.Fnv1a

def primeInverse : UInt64 := 0xce965057aff6957b

theorem prime_mul_primeInverse : prime * primeInverse = 1 := by
  decide

theorem mul_prime_injective : Function.Injective fun word : UInt64 => word * prime := by
  intro a b h
  have undone : a * prime * primeInverse = b * prime * primeInverse := congrArg (· * primeInverse) h
  rwa [UInt64.mul_assoc, UInt64.mul_assoc, prime_mul_primeInverse, UInt64.mul_one,
    UInt64.mul_one] at undone

theorem step_left_injective (byte : UInt8) : Function.Injective (step · byte) := by
  intro a b h
  exact (UInt64.xor_left_inj _).mp (mul_prime_injective h)

theorem step_right_injective (state : UInt64) : Function.Injective (step state) := by
  intro a b h
  exact UInt8.toUInt64_inj.mp ((UInt64.xor_right_inj _).mp (mul_prime_injective h))

theorem foldl_step_injective (bytes : List UInt8) : Function.Injective (bytes.foldl step ·) := by
  induction bytes with
  | nil => exact Function.injective_id
  | cons byte rest ih =>
    intro a b h
    exact step_left_injective byte (ih h)

theorem digest_append (front back : List UInt8) : digest (front ++ back) = back.foldl step (digest front) :=
  List.foldl_append

theorem digest_append_inj {a b : List UInt8} (suffix : List UInt8) :
    digest (a ++ suffix) = digest (b ++ suffix) ↔ digest a = digest b := by
  rw [digest_append, digest_append]
  exact (foldl_step_injective suffix).eq_iff

theorem digest_middle_inj {a b : UInt8} (front back : List UInt8) :
    digest (front ++ [a] ++ back) = digest (front ++ [b] ++ back) ↔ a = b := by
  rw [digest_append_inj, digest_append, digest_append]
  exact (step_right_injective (digest front)).eq_iff

theorem exists_middle {a b : List UInt8} (length : a.length = b.length)
    (one : ∃! i : Nat, a[i]? ≠ b[i]?) :
    ∃ front x y back, a = front ++ [x] ++ back ∧ b = front ++ [y] ++ back ∧ x ≠ y := by
  obtain ⟨position, differs, only⟩ := one
  have within : DifferWithin 1 b a := by
    refine ⟨length, fun same => differs (by rw [same]), position, fun i outside => ?_⟩
    by_contra other
    have here := only i other
    omega
  obtain ⟨front, xs, ys, back, rfl, rfl, widths, short, differ⟩ := DifferWithin.iff_split.mp within
  cases ys with
  | nil => exact absurd (List.eq_nil_of_length_eq_zero widths) differ
  | cons y ys =>
    obtain rfl : ys = [] := List.eq_nil_of_length_eq_zero (Nat.le_zero.mp (Nat.le_of_succ_le_succ short))
    obtain ⟨x, rfl⟩ := List.length_eq_one_iff.mp widths
    refine ⟨front, x, y, back, (List.append_assoc ..).symm, (List.append_assoc ..).symm, ?_⟩
    exact fun same => differ (congrArg (fun byte => [byte]) same)

/-- Changing one byte of a run, however long, changes its digest; and appending the same bytes to two runs
keeps their digests apart or together. -/
theorem digest_separates_changed_byte :
    (∀ a b : List UInt8, a.length = b.length → (∃! i : Nat, a[i]? ≠ b[i]?) → digest a ≠ digest b) ∧
    ∀ a b suffix : List UInt8, digest (a ++ suffix) = digest (b ++ suffix) ↔ digest a = digest b := by
  refine ⟨fun a b length one same => ?_, fun a b suffix => digest_append_inj suffix⟩
  obtain ⟨front, x, y, back, rfl, rfl, differ⟩ := exists_middle length one
  exact differ ((digest_middle_inj front back).mp same)

theorem digest_separates_changed_byte_vowel :
    [0x66, 0x6F, 0x78].length = [0x66, 0x69, 0x78].length ∧
      (∃! i : Nat, ([0x66, 0x6F, 0x78] : List UInt8)[i]? ≠ ([0x66, 0x69, 0x78] : List UInt8)[i]?) ∧
      digest [0x66, 0x6F, 0x78] ≠ digest [0x66, 0x69, 0x78] ∧
      digest ([0x66, 0x6F, 0x78] ++ [0x65, 0x73]) ≠ digest ([0x66, 0x69, 0x78] ++ [0x65, 0x73]) := by
  have one : ∃! i : Nat,
      ([0x66, 0x6F, 0x78] : List UInt8)[i]? ≠ ([0x66, 0x69, 0x78] : List UInt8)[i]? := by
    refine ⟨1, by decide, fun i differs => ?_⟩
    match i with
    | 0 | 2 => exact absurd rfl differs
    | 1 => rfl
    | _ + 3 => exact absurd rfl differs
  obtain ⟨separates, composes⟩ := digest_separates_changed_byte
  have apart := separates [0x66, 0x6F, 0x78] [0x66, 0x69, 0x78] rfl one
  exact ⟨rfl, one, apart, fun same => apart ((composes _ _ _).mp same)⟩

end InvertedIndex.Fnv1a
