import InvertedIndex.Proofs.BurstErrors
import InvertedIndex.Proofs.Flaws

/-!
A file with the length and the header of a sound one can only have a wrong checksum, and has one if
the two differ by a burst of at most four bytes.
-/

set_option autoImplicit false
set_option relaxedAutoImplicit false

namespace InvertedIndex

open Crc32 (digest)

def Disk.HasAt (disk : Disk) (path : String) (file : List UInt8) : Prop :=
  ∃ location id, disk.find path = .ok (location, id) ∧ (disk.bytes id).data.toList = file

theorem firstFault_cons (flaw : Flaw) (rest : List Flaw) :
    firstFault (flaw :: rest) = if flaw.present then some flaw.fault else firstFault rest := by
  cases h : flaw.present <;> simp [firstFault, h]

namespace IndexFile

variable {disk : Disk} {path : String} {file damaged : List UInt8}

theorem result_openPath_of_hasAt (there : disk.HasAt path file) (addressable : file.length < 2 ^ 64)
    (strict : Bool) (access : Access) :
    ∃ stamp, (openPath disk path strict access).result =
      barring (headerFlaws file strict) ⟨path, headerIn file, stamp, access⟩ := by
  obtain ⟨location, id, found, rfl⟩ := there
  rw [Array.length_toList] at addressable
  exact ⟨_, result_openPath_eq found addressable strict access⟩

theorem headerIn_congr (front : damaged.take 24 = file.take 24) : headerIn damaged = headerIn file := by
  rw [← decode_take_fileHeader damaged, ← decode_take_fileHeader file]
  exact congrArg Record.decode front

theorem firstFault_headerFlaws_of_sound (sound : firstFault (headerFlaws file true) = none)
    (length : damaged.length = file.length) (front : damaged.take 24 = file.take 24) (strict : Bool) :
    firstFault (headerFlaws damaged strict) =
      if strict ∧ digest (damaged.drop 24) ≠ digest (file.drop 24) then
        some (.checksumMismatch (headerIn file).checksum (digest (damaged.drop 24)))
      else none := by
  have region : regionFlaw damaged = regionFlaw file := by
    funext region offset
    rw [regionFlaw, regionFlaw, length]
  simp only [firstFault_eq_none, headerFlaws, List.forall_mem_cons] at sound
  obtain ⟨long, numbered, documents, words, summed, -⟩ := sound
  have magic : (headerIn file).magic = magicNumber := by simpa using numbered
  have checksum : digest (file.drop 24) = (headerIn file).checksum := by simpa using summed
  -- Flaw by flaw: each says the same of both files, but for the digest of what is behind the header.
  have still : decide (strict ∧ (headerIn file).magic ≠ magicNumber) = false := by simp [magic]
  simp only [headerFlaws, headerIn_congr front, region, length, firstFault_cons, long, still, documents,
    words, checksum, Bool.false_eq_true, if_false, decide_eq_true_eq]
  rfl

/-- Strict opening notices every burst of at most four bytes behind the header of a file that it accepts,
and says what the checksum should be and what it is; lenient opening goes on with the same header. Neither
depends on where the files are, on the kind of access or on where the chunks of the checksum end. -/
theorem strict_opening_notices_burst {before now : Disk} {path other : String} {access : Access}
    {opened : IndexFile} (was : before.HasAt path file) (addressable : file.length < 2 ^ 64)
    (accepted : (openPath before path true access).result = .ok opened) (is : now.HasAt other damaged)
    (front : damaged.take 24 = file.take 24) (burst : DifferWithin 4 file damaged) (again : Access) :
    opened.header = headerIn damaged ∧
    (openPath now other true again).result =
      .error (.checksumMismatch opened.header.checksum (digest (damaged.drop 24))) ∧
    ∃ reopened, (openPath now other false again).result = .ok reopened ∧
      reopened.header = opened.header := by
  obtain ⟨_, checked⟩ := result_openPath_of_hasAt was addressable true access
  obtain ⟨sound, rfl⟩ := barring_eq_ok.mp (checked.symm.trans accepted)
  have addressable' : damaged.length < 2 ^ 64 := burst.length ▸ addressable
  have fault := firstFault_headerFlaws_of_sound sound burst.length front
  have wrong : digest (damaged.drop 24) ≠ digest (file.drop 24) :=
    Crc32.digest_ne_of_differWithin (burst.drop front)
  refine ⟨(headerIn_congr front).symm, ?_, ?_⟩
  · obtain ⟨_, refused⟩ := result_openPath_of_hasAt is addressable' true again
    rw [refused, barring_eq_error, fault true, if_pos ⟨rfl, wrong⟩]
  · obtain ⟨_, opens⟩ := result_openPath_of_hasAt is addressable' false again
    refine ⟨_, opens.trans (barring_eq_ok.mpr ⟨?_, rfl⟩), headerIn_congr front⟩
    rw [fault false, if_neg (by simp)]

/-- A disk with a file whose only table has one empty bucket, and with the same file after four of its
bytes were changed. -/
def blemishedDisk : Disk :=
  let table := Record.encode (⟨1⟩ : TableHeader) ++ Record.encode (⟨0, 0⟩ : Slot)
  let header := Record.encode (⟨magicNumber, digest table, 24, 24⟩ : FileHeader)
  let blemished := table.take 6 ++ ([1, 2, 3, 4] ++ table.drop 10)
  { objects := #[⟨(header ++ table).toByteArray, 0⟩, ⟨(header ++ blemished).toByteArray, 0⟩]
    folders := []
    names := [(["sound"], 0), (["blemished"], 1)] }

theorem strict_opening_notices_burst_blemished :
    ∃ opened, (openPath blemishedDisk "sound" true .seek).result = .ok opened ∧
      (openPath blemishedDisk "blemished" true .mapped).result =
        .error (.checksumMismatch 0x312D92D0 0x8AD9F298) ∧
      ∃ reopened, (openPath blemishedDisk "blemished" false .mapped).result = .ok reopened ∧
        reopened.header = opened.header := by
  let file := (blemishedDisk.bytes (.file 0)).data.toList
  let damaged := (blemishedDisk.bytes (.file 1)).data.toList
  have accepted : (openPath blemishedDisk "sound" true .seek).result =
      .ok ⟨"sound", headerIn file, blemishedDisk.stamp (.file 0), .seek⟩ := by decide +kernel
  have burst : DifferWithin 4 file damaged :=
    DifferWithin.iff_split.mpr ⟨file.take 30, [1, 2, 3, 4], [0, 0, 0, 0], file.drop 34,
      by decide +kernel, by decide +kernel, rfl, by decide, by decide⟩
  have was : blemishedDisk.HasAt "sound" file := ⟨["sound"], .file 0, by decide +kernel, rfl⟩
  have is : blemishedDisk.HasAt "blemished" damaged := ⟨["blemished"], .file 1, by decide +kernel, rfl⟩
  obtain ⟨-, refused, opens⟩ := strict_opening_notices_burst was (by decide +kernel) accepted is
    (by decide +kernel) burst .mapped
  exact ⟨_, accepted, refused.trans (by decide +kernel), opens⟩

end IndexFile

end InvertedIndex
