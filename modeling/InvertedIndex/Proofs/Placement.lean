import InvertedIndex.Proofs.Reading
import InvertedIndex.Proofs.WrittenForm

/-!
Runs of bytes at their places in a file. Offsets are plain numbers here; in a file of less than `2 ^
63` bytes they are machine words as well.
-/

set_option autoImplicit false
set_option relaxedAutoImplicit false

namespace InvertedIndex

open Outcome (mapM_eq_ok)

def StandsAt (file : List UInt8) (offset : Nat) (run : List UInt8) : Prop :=
  ∃ front back, file = front ++ run ++ back ∧ front.length = offset

namespace StandsAt

variable {file run inner a b : List UInt8} {offset within : Nat}

theorem self : StandsAt file 0 file :=
  ⟨[], [], by simp, rfl⟩

theorem length_le (h : StandsAt file offset run) : offset + run.length ≤ file.length := by
  obtain ⟨front, back, rfl, rfl⟩ := h
  simp

theorem take_drop (h : StandsAt file offset run) : (file.drop offset).take run.length = run := by
  obtain ⟨front, back, rfl, rfl⟩ := h
  rw [List.append_assoc, List.drop_left, List.take_left]

theorem trans (h : StandsAt file offset run) (part : StandsAt run within inner) :
    StandsAt file (offset + within) inner := by
  obtain ⟨front, back, rfl, rfl⟩ := h
  obtain ⟨before, after, rfl, rfl⟩ := part
  exact ⟨front ++ before, after ++ back, by simp, by simp⟩

theorem left (h : StandsAt file offset (a ++ b)) : StandsAt file offset a :=
  h.trans ⟨[], b, rfl, rfl⟩

theorem right (h : StandsAt file offset (a ++ b)) : StandsAt file (offset + a.length) b :=
  h.trans ⟨a, [], by simp, rfl⟩

variable {α : Type} [Record α] [LawfulRecord α]

theorem records {front middle back : List α}
    (h : StandsAt file offset ((front ++ middle ++ back).flatMap Record.encode)) :
    StandsAt file (offset + front.length * Record.size α) (middle.flatMap Record.encode) := by
  rw [List.flatMap_append, List.flatMap_append] at h
  have there := h.left.right
  rwa [length_flatMap_encode] at there

theorem record {front back : List α} {record : α}
    (h : StandsAt file offset ((front ++ record :: back).flatMap Record.encode)) :
    StandsAt file (offset + front.length * Record.size α) (Record.encode record) := by
  have split : front ++ record :: back = front ++ [record] ++ back := by simp
  rw [split] at h
  simpa using h.records

theorem recordAt {records : List α} (h : StandsAt file offset (records.flatMap Record.encode))
    {i : Nat} (hi : i < records.length) :
    StandsAt file (offset + i * Record.size α) (Record.encode records[i]) := by
  have split : records = records.take i ++ records[i] :: records.drop (i + 1) := by
    rw [List.getElem_cons_drop, List.take_append_drop]
  have before : (records.take i).length = i := by
    rw [List.length_take]
    omega
  rw [split] at h
  have there := h.record
  rwa [before] at there

end StandsAt

namespace Source

/-- The source is open on a file of these bytes, and reads all of them. -/
structure Holds (source : Source) (disk : Disk) (file : List UInt8) : Prop where
  bytes : (source.bytes disk).data.toList = file
  length : source.length.toNat = file.length
  short : file.length < 2 ^ 63

variable {source : Source} {disk : Disk} {file run : List UInt8} {offset : Nat}

namespace Holds

theorem intact (h : source.Holds disk file) : source.Intact disk := by
  have size : (source.bytes disk).size = file.length := by
    rw [← h.bytes]
    simp
  have length := h.length
  unfold Intact
  omega

theorem toNat_toUInt64 (h : source.Holds disk file) {n : Nat} (inside : n ≤ file.length) :
    n.toUInt64.toNat = n := by
  have short := h.short
  exact Nat.mod_eq_of_lt (by omega)

theorem ensureExtent (h : source.Holds disk file) {length : Nat}
    (inside : offset + length ≤ file.length) :
    source.ensureExtent offset.toUInt64 length.toUInt64 = .ok () := by
  rw [ensureExtent_eq_ok, h.toNat_toUInt64 (by omega), h.toNat_toUInt64 (by omega), h.length]
  exact inside

theorem read (h : source.Holds disk file) (there : StandsAt file offset run) :
    source.read disk offset.toUInt64 run.length.toUInt64 = .ok run.toByteArray := by
  have inside := there.length_le
  rw [read_eq h.intact, h.toNat_toUInt64 (by omega), h.toNat_toUInt64 (by omega), h.length,
    if_pos inside, Except.ok.injEq]
  apply ByteArray.ext
  apply Array.toList_inj.mp
  rw [toList_extract, h.bytes, there.take_drop, List.data_toByteArray]

theorem readWithin (h : source.Holds disk file) (there : StandsAt file offset run) :
    source.readWithin disk offset.toUInt64 run.length.toUInt64 = .ok run.toByteArray := by
  rw [readWithin_eq, h.read there]

theorem fetch {α : Type} [Record α] [LawfulRecord α] (h : source.Holds disk file) {record : α}
    (there : StandsAt file offset (Record.encode record)) :
    source.fetch α disk offset.toUInt64 = .ok record := by
  have bytes := h.read there
  rw [LawfulRecord.length_encode] at bytes
  rw [Source.fetch, bytes]
  show Except.ok (Record.decode (Record.encode record).toByteArray.data.toList) = Except.ok record
  rw [List.data_toByteArray, LawfulRecord.decode_encode]

theorem fetchRun {α : Type} [Record α] [LawfulRecord α] (h : source.Holds disk file)
    {records : List α} (there : StandsAt file offset (records.flatMap Record.encode)) :
    source.fetchRun α disk offset.toUInt64 records.length = .ok records := by
  rw [Source.fetchRun, mapM_eq_ok, List.forall₂_iff_get]
  refine ⟨List.length_range, fun i hi hi' => ?_⟩
  have record := h.fetch (there.recordAt hi')
  simpa using record

end Holds

end Source

end InvertedIndex
