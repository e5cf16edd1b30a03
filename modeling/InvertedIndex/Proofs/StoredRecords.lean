import InvertedIndex.Proofs.Reading
import InvertedIndex.Proofs.WrittenForm

/-!
What stands at an offset of a file, as big-endian numbers. Nothing is assumed about what the bytes
say.
-/

set_option autoImplicit false
set_option relaxedAutoImplicit false

namespace InvertedIndex

namespace BigEndian

theorem value_lt (bytes : List UInt8) : value bytes < 256 ^ bytes.length := by
  induction bytes using List.reverseRecOn with
  | nil => simp [value]
  | append_singleton front b ih =>
    have digit := b.toNat_lt
    rw [value_append_singleton, List.length_append, List.length_singleton, Nat.pow_succ]
    omega

theorem field_lt (bytes : List UInt8) (start width : Nat) : field bytes start width < 256 ^ width := by
  have short : ((bytes.drop start).take width).length ≤ width := List.length_take_le _ _
  exact (value_lt _).trans_le (Nat.pow_le_pow_right (by decide) short)

theorem field_take (bytes : List UInt8) {start width size : Nat} (inside : start + width ≤ size) :
    field (bytes.take size) start width = field bytes start width := by
  have room : width ≤ size - start := by omega
  rw [field, field, List.drop_take, List.take_take, Nat.min_eq_left room]

theorem field_drop (bytes : List UInt8) (place start width : Nat) :
    field (bytes.drop place) start width = field bytes (place + start) width := by
  rw [field, field, List.drop_drop]

end BigEndian

open BigEndian (field field_lt field_take field_drop)

def recordAt (α : Type) [Record α] (file : List UInt8) (offset : Nat) : α :=
  Record.decode ((file.drop offset).take (Record.size α))

section Fields

variable (file : List UInt8) (offset : Nat)

theorem recordAt_tableHeader :
    recordAt TableHeader file offset = ⟨UInt32.ofNat (field file offset 4)⟩ := by
  simp [recordAt, Record.decode, Record.size, field_take, field_drop]

theorem recordAt_slot :
    recordAt Slot file offset =
      ⟨UInt32.ofNat (field file offset 4), UInt64.ofNat (field file (offset + 4) 8)⟩ := by
  simp [recordAt, Record.decode, Record.size, field_take, field_drop]

theorem recordAt_link : recordAt Link file offset = ⟨UInt64.ofNat (field file offset 8)⟩ := by
  simp [recordAt, Record.decode, Record.size, field_take, field_drop]

theorem recordAt_documentHeader :
    recordAt DocumentHeader file offset =
      ⟨UInt64.ofNat (field file offset 8), UInt16.ofNat (field file (offset + 8) 2)⟩ := by
  simp [recordAt, Record.decode, Record.size, field_take, field_drop]

theorem recordAt_wordHeader :
    recordAt WordHeader file offset =
      ⟨UInt16.ofNat (field file offset 2), UInt32.ofNat (field file (offset + 2) 4)⟩ := by
  simp [recordAt, Record.decode, Record.size, field_take, field_drop]

theorem recordAt_posting :
    recordAt Posting file offset =
      ⟨UInt64.ofNat (field file offset 8), UInt32.ofNat (field file (offset + 8) 4)⟩ := by
  simp [recordAt, Record.decode, Record.size, field_take, field_drop]

theorem toNat_ofNat_field16 : (UInt16.ofNat (field file offset 2)).toNat = field file offset 2 :=
  Nat.mod_eq_of_lt (field_lt file offset 2)

theorem toNat_ofNat_field32 : (UInt32.ofNat (field file offset 4)).toNat = field file offset 4 :=
  Nat.mod_eq_of_lt (field_lt file offset 4)

theorem toNat_ofNat_field64 : (UInt64.ofNat (field file offset 8)).toNat = field file offset 8 :=
  Nat.mod_eq_of_lt (field_lt file offset 8)

end Fields

namespace Source.Covers

variable {source : Source} {disk : Disk} {file : List UInt8}

theorem ensureExtent (whole : source.Covers disk file) (offset : Offset) (length : UInt64) :
    source.ensureExtent offset length =
      if offset.toNat + length.toNat ≤ file.length then .ok () else .error (.truncated offset length) := by
  rw [Source.ensureExtent, whole.length]

theorem toNat_add (whole : source.Covers disk file) {offset : Offset} {length : UInt64}
    (inside : offset.toNat + length.toNat ≤ file.length) :
    (offset + length).toNat = offset.toNat + length.toNat := by
  have short := whole.length ▸ source.length.toNat_lt
  rw [UInt64.toNat_add]
  exact Nat.mod_eq_of_lt (by omega)

theorem fetch (whole : source.Covers disk file) (α : Type) [Record α] (small : Record.size α < 2 ^ 64)
    (offset : Offset) :
    source.fetch α disk offset =
      if offset.toNat + Record.size α ≤ file.length then .ok (recordAt α file offset.toNat)
      else .error (.truncated offset (Record.size α).toUInt64) := by
  rw [Source.fetch_eq whole.intact α small, whole.length, whole.contents]
  rfl

theorem readWithin (whole : source.Covers disk file) (offset : Offset) (length : UInt64) :
    source.readWithin disk offset length =
      if offset.toNat + length.toNat ≤ file.length then
        .ok ((file.drop offset.toNat).take length.toNat).toByteArray
      else .error (.truncated offset length) := by
  rw [readWithin_eq]
  by_cases inside : offset.toNat + length.toNat ≤ file.length
  · obtain ⟨bytes, read, stretch⟩ := read_eq_contents whole.intact (whole.length ▸ inside)
    rw [if_pos inside, read, ← whole.contents, ← stretch, toByteArray_toList]
  · rw [if_neg inside, read_eq whole.intact, whole.length, if_neg inside]

theorem fetchRun (whole : source.Covers disk file) (α : Type) [Record α]
    (small : Record.size α < 2 ^ 64) {start : Offset} {count : Nat}
    (inside : start.toNat + Record.size α * count ≤ file.length) :
    source.fetchRun α disk start count =
      .ok ((List.range count).map fun i => recordAt α file (start.toNat + Record.size α * i)) := by
  rw [Source.fetchRun, Outcome.mapM_eq_ok, List.forall₂_map_right_iff, List.forall₂_same]
  intro i mem
  have before : i < count := List.mem_range.mp mem
  have through : Record.size α * i + Record.size α ≤ Record.size α * count :=
    Nat.mul_succ _ i ▸ Nat.mul_le_mul_left _ before
  have short := whole.length ▸ source.length.toNat_lt
  have place : (start + (i * Record.size α).toUInt64).toNat = start.toNat + Record.size α * i := by
    have reach : (i * Record.size α).toUInt64.toNat = Record.size α * i := by
      rw [Nat.mul_comm]
      exact Nat.mod_eq_of_lt (by omega)
    rw [UInt64.toNat_add, reach]
    exact Nat.mod_eq_of_lt (by omega)
  rw [whole.fetch α small, place, if_pos (by omega)]

end Source.Covers

end InvertedIndex
