import InvertedIndex.Proofs.Reading

/-!
Which extents of a file can be read, when the file may have another length than it had when it was
opened.
-/

set_option autoImplicit false
set_option relaxedAutoImplicit false

namespace InvertedIndex.Source

variable {source : Source} {disk : Disk}

theorem read_eq_of_kept (regular : source.Regular) (kept : source.access = .mapped → source.Intact disk)
    (offset : Offset) (length : UInt64) :
    source.read disk offset length =
      if offset.toNat + length.toNat ≤ source.length.toNat ∧
          (length = 0 ∨ offset.toNat + length.toNat ≤ (source.bytes disk).size) then
        .ok ((source.bytes disk).extract offset.toNat (offset.toNat + length.toNat))
      else .error (.truncated offset length) := by
  cases access : source.access with
  | seek =>
    have file : ¬source.stamp.object.isFolder = true := Bool.eq_false_iff.mp regular
    by_cases inside : offset.toNat + length.toNat ≤ source.length.toNat
    · simp only [read, access, readFile, ensureExtent_eq_ok.mpr inside, inside, true_and, if_neg file]
      rfl
    · simp only [read, access, readFile, ensureExtent, inside, false_and, if_false]
      rfl
  | mapped =>
    have intact := kept access
    rw [read_eq intact]
    unfold Intact at intact
    refine if_congr ⟨fun inside => ⟨inside, Or.inr (inside.trans intact)⟩, And.left⟩ rfl rfl

theorem getElem?_extract {bytes : ByteArray} {start length : Nat}
    (inside : length = 0 ∨ start + length ≤ bytes.size) :
    (bytes.extract start (start + length)).size = length ∧
      ∀ i < length, (bytes.extract start (start + length)).data.toList[i]? = bytes.data.toList[start + i]? := by
  constructor
  · rw [ByteArray.size_extract]
    omega
  · intro i before
    rw [toList_extract, List.getElem?_take_of_lt before, List.getElem?_drop]

/-- A file was opened, and holds other bytes now; if it is mapped, it has not become shorter. Then an extent
passes its check where it lay inside the file at opening, and can be read where it does so and, unless it is
empty, lies inside the file as it is now. What is read are the bytes that stand there now; what is refused is
refused by its extent. So nothing is read from behind the end that the file had at opening, and nothing that
the file does not hold. -/
theorem extents_decide_reads {opened now : Disk} {path : String} {location : Location} {id : FileId}
    {access : Access} (found : opened.find path = .ok (location, id))
    (addressable : (opened.bytes id).size < 2 ^ 64)
    (kept : access = .mapped → (opened.bytes id).size ≤ (now.bytes id).size) :
    ∃ source, Source.openPath opened path access = .ok source ∧ ∀ offset length : UInt64,
      let stop := offset.toNat + length.toNat
      let readable := stop ≤ (opened.bytes id).size ∧ (length = 0 ∨ stop ≤ (now.bytes id).size)
      (source.ensureExtent offset length =
        if stop ≤ (opened.bytes id).size then .ok () else .error (.truncated offset length)) ∧
      (source.read now offset length =
        if readable then .ok ((now.bytes id).extract offset.toNat stop)
        else .error (.truncated offset length)) ∧
      source.readWithin now offset length = source.read now offset length ∧
      ∀ bytes, source.read now offset length = .ok bytes →
        bytes.size = length.toNat ∧ ∀ i < length.toNat, offset.toNat + i < (opened.bytes id).size ∧
          ∃ byte, bytes.data.toList[i]? = some byte ∧
            (now.bytes id).data.toList[offset.toNat + i]? = some byte := by
  let source : Source := ⟨path, opened.stamp id, access⟩
  have file : source.Regular := (Disk.target_of_find found).2
  have size : source.length.toNat = (opened.bytes id).size := length_stamp file addressable
  refine ⟨source, openPath_of_find found access, fun offset length => ?_⟩
  have reads : source.read now offset length = _ :=
    read_eq_of_kept file (fun mapped => size.le.trans (kept mapped)) offset length
  rw [size] at reads
  refine ⟨?_, reads, readWithin_eq source now offset length, fun bytes given => ?_⟩
  · rw [ensureExtent, size]
  · rw [reads] at given
    split at given
    · next readable =>
      cases given
      have inside : length.toNat = 0 ∨ offset.toNat + length.toNat ≤ (now.bytes id).size :=
        readable.2.imp_left (congrArg UInt64.toNat)
      obtain ⟨all, each⟩ := getElem?_extract inside
      refine ⟨all, fun i before => ⟨by omega, ?_⟩⟩
      have there : offset.toNat + i < (now.bytes id).data.toList.length := by
        rw [Array.length_toList]
        exact (Nat.add_lt_add_left before _).trans_le (inside.resolve_left (by omega))
      exact ⟨_, (each i before).trans (List.getElem?_eq_getElem there), List.getElem?_eq_getElem there⟩
    · cases given

def noteDisk (bytes : List UInt8) : Disk :=
  { objects := #[⟨bytes.toByteArray, 0⟩]
    folders := []
    names := [(["note"], 0)] }

theorem extents_decide_reads_resized :
    (noteDisk [1, 2, 3, 4]).find "note" = .ok (["note"], .file 0) ∧
      ((noteDisk [1, 2, 3, 4]).bytes (.file 0)).size < 2 ^ 64 ∧
      ((noteDisk [1, 2, 3, 4]).bytes (.file 0)).size ≤
        ((noteDisk [9, 8, 7, 6, 5]).bytes (.file 0)).size ∧
      (∃ source, openPath (noteDisk [1, 2, 3, 4]) "note" .seek = .ok source ∧
        source.ensureExtent 1 2 = .ok () ∧
        source.read (noteDisk [9, 8]) 1 2 = .error (.truncated 1 2) ∧
        source.read (noteDisk [9, 8]) 1 1 = .ok [8].toByteArray ∧
        source.readWithin (noteDisk [9, 8]) 4 0 = .ok ByteArray.empty) ∧
      ∃ source, openPath (noteDisk [1, 2, 3, 4]) "note" .mapped = .ok source ∧
        source.read (noteDisk [9, 8, 7, 6, 5]) 2 2 = .ok [7, 6].toByteArray ∧
        source.readWithin (noteDisk [9, 8, 7, 6, 5]) 2 3 = .error (.truncated 2 3) ∧
        source.ensureExtent 0xFFFFFFFFFFFFFFFF 2 = .error (.truncated 0xFFFFFFFFFFFFFFFF 2) := by
  have found : (noteDisk [1, 2, 3, 4]).find "note" = .ok (["note"], .file 0) := by decide +kernel
  have addressable : ((noteDisk [1, 2, 3, 4]).bytes (.file 0)).size < 2 ^ 64 := by decide +kernel
  have grown : ((noteDisk [1, 2, 3, 4]).bytes (.file 0)).size ≤
      ((noteDisk [9, 8, 7, 6, 5]).bytes (.file 0)).size := by
    decide +kernel
  refine ⟨found, addressable, grown, ?_, ?_⟩
  · obtain ⟨source, opens, reads⟩ :=
      @extents_decide_reads _ (noteDisk [9, 8]) _ _ _ .seek found addressable (by decide)
    refine ⟨source, opens, (reads 1 2).1.trans (by decide +kernel),
      (reads 1 2).2.1.trans (by decide +kernel), (reads 1 1).2.1.trans (by decide +kernel), ?_⟩
    exact (reads 4 0).2.2.1.trans ((reads 4 0).2.1.trans (by decide +kernel))
  · obtain ⟨source, opens, reads⟩ :=
      @extents_decide_reads _ (noteDisk [9, 8, 7, 6, 5]) _ _ _ .mapped found addressable fun _ => grown
    refine ⟨source, opens, (reads 2 2).2.1.trans (by decide +kernel), ?_,
      (reads _ 2).1.trans (by decide +kernel)⟩
    exact (reads 2 3).2.2.1.trans ((reads 2 3).2.1.trans (by decide +kernel))

end InvertedIndex.Source
