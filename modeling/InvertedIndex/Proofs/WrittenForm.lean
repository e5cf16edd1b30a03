import Mathlib
import InvertedIndex.Record.Basic

set_option autoImplicit false
set_option relaxedAutoImplicit false

namespace InvertedIndex

namespace BigEndian

theorem value_digits (width n : Nat) : value (digits width n) = n % 256 ^ width := by
  induction width generalizing n with
  | zero => simp [digits, value, Nat.mod_one]
  | succ width ih =>
    have last : (UInt8.ofNat n).toNat = n % 256 := UInt8.toNat_ofNat'
    rw [digits, value_append_singleton, ih, last, Nat.pow_succ', Nat.mod_mul]
    omega

theorem field_append_left (front back : List UInt8) {start width : Nat}
    (inside : start + width ≤ front.length) :
    field (front ++ back) start width = field front start width := by
  have rest : width ≤ (front.drop start).length := by
    rw [List.length_drop]
    omega
  rw [field, field, List.drop_append_of_le_length (by omega), List.take_append_of_le_length rest]

theorem field_append_right (front back : List UInt8) {start width : Nat}
    (behind : front.length ≤ start) :
    field (front ++ back) start width = field back (start - front.length) width := by
  obtain ⟨skipped, rfl⟩ := Nat.exists_eq_add_of_le behind
  rw [field, field, List.drop_length_add_append, Nat.add_sub_cancel_left]

theorem field_digits (width n : Nat) : field (digits width n) 0 width = n % 256 ^ width := by
  have whole : (digits width n).take width = digits width n :=
    List.take_of_length_le (Nat.le_of_eq (length_digits width n))
  rw [field, List.drop_zero, whole, value_digits]

end BigEndian

open BigEndian (field_append_left field_append_right field_digits)

/-- A record whose written form takes its size and is read back as it was. -/
class LawfulRecord (α : Type) [Record α] : Prop where
  length_encode : ∀ record : α, (Record.encode record).length = Record.size α
  decode_encode : ∀ record : α, Record.decode (Record.encode record) = record

instance : LawfulRecord FileHeader where
  length_encode r := by simp [Record.encode, Record.size]
  decode_encode r := by
    simp [Record.encode, Record.decode, field_append_left, field_append_right, field_digits]

instance : LawfulRecord TableHeader where
  length_encode r := by simp [Record.encode, Record.size]
  decode_encode r := by simp [Record.encode, Record.decode, field_digits]

instance : LawfulRecord Slot where
  length_encode r := by simp [Record.encode, Record.size]
  decode_encode r := by
    simp [Record.encode, Record.decode, field_append_left, field_append_right, field_digits]

instance : LawfulRecord Link where
  length_encode r := by simp [Record.encode, Record.size]
  decode_encode r := by simp [Record.encode, Record.decode, field_digits]

instance : LawfulRecord DocumentHeader where
  length_encode r := by simp [Record.encode, Record.size]
  decode_encode r := by
    simp [Record.encode, Record.decode, field_append_left, field_append_right, field_digits]

instance : LawfulRecord WordHeader where
  length_encode r := by simp [Record.encode, Record.size]
  decode_encode r := by
    simp [Record.encode, Record.decode, field_append_left, field_append_right, field_digits]

instance : LawfulRecord Posting where
  length_encode r := by simp [Record.encode, Record.size]
  decode_encode r := by
    simp [Record.encode, Record.decode, field_append_left, field_append_right, field_digits]

variable {α : Type} [Record α] [LawfulRecord α]

theorem length_flatMap_encode (records : List α) :
    (records.flatMap Record.encode).length = records.length * Record.size α := by
  induction records with
  | nil => simp
  | cons record rest ih =>
    rw [List.flatMap_cons, List.length_append, LawfulRecord.length_encode, ih, List.length_cons,
      Nat.succ_mul, Nat.add_comm]

end InvertedIndex
