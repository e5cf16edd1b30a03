import InvertedIndex.Source
import InvertedIndex.Proofs.Outcome
import InvertedIndex.Proofs.Paths

/-!
From a file that is still as long as when it was opened, both ways of access read the same.
-/

set_option autoImplicit false
set_option relaxedAutoImplicit false

namespace InvertedIndex

theorem toList_extract (bytes : ByteArray) (start length : Nat) :
    (bytes.extract start (start + length)).data.toList =
      (bytes.data.toList.drop start).take length := by
  simp [ByteArray.data_extract, List.extract_eq_take_drop]

theorem toByteArray_toList (bytes : ByteArray) : bytes.data.toList.toByteArray = bytes := by
  apply ByteArray.ext
  rw [List.data_toByteArray, Array.toArray_toList]

theorem toUInt64_of_toNat {n : Nat} {word : UInt64} (h : word.toNat = n) : n.toUInt64 = word := by
  rw [← h]
  exact UInt64.ofNat_toNat

theorem mul_size_lt (count : UInt32) {size : Nat} (small : size < 2 ^ 32) :
    count.toNat * size < 2 ^ 64 := by
  have product : count.toNat * size < 2 ^ 32 * 2 ^ 32 := Nat.mul_lt_mul'' count.toNat_lt small
  omega

theorem toNat_mul_size (count : UInt32) {size : Nat} (small : size < 2 ^ 32) :
    (count.toUInt64 * size.toUInt64).toNat = size * count.toNat := by
  have kept : size.toUInt64.toNat = size := Nat.mod_eq_of_lt (by omega)
  rw [UInt64.toNat_mul, UInt32.toNat_toUInt64, kept, Nat.mod_eq_of_lt (mul_size_lt count small),
    Nat.mul_comm]

namespace Source

def Regular (source : Source) : Prop :=
  source.stamp.object.isFolder = false

instance (source : Source) : Decidable source.Regular :=
  inferInstanceAs (Decidable (_ = _))

/-- The file is at least as long as it was when the source was opened. -/
def Intact (source : Source) (disk : Disk) : Prop :=
  source.length.toNat ≤ (source.bytes disk).size

instance (source : Source) (disk : Disk) : Decidable (source.Intact disk) :=
  inferInstanceAs (Decidable (_ ≤ _))

variable {source : Source} {disk : Disk} {path : String} {access : Access}

theorem ensureExtent_eq_ok {offset : Offset} {length : UInt64} :
    source.ensureExtent offset length = .ok () ↔
      offset.toNat + length.toNat ≤ source.length.toNat := by
  unfold ensureExtent
  split <;> simp_all

theorem read_eq (intact : source.Intact disk) (offset : Offset) (length : UInt64) :
    source.read disk offset length =
      if offset.toNat + length.toNat ≤ source.length.toNat then
        .ok ((source.bytes disk).extract offset.toNat (offset.toNat + length.toNat))
      else .error (.truncated offset length) := by
  unfold Intact at intact
  by_cases fits : offset.toNat + length.toNat ≤ source.length.toNat
  · have now : offset.toNat + length.toNat ≤ (source.bytes disk).size := by omega
    rw [if_pos fits]
    cases h : source.access with
    | seek =>
      simp only [read, h, readFile, ensureExtent_eq_ok.mpr fits]
      rw [if_pos (Or.inr now)]
      rfl
    | mapped =>
      simp only [read, h, readMemory]
      rw [if_pos (by omega)]
  · rw [if_neg fits]
    cases h : source.access with
    | seek =>
      simp only [read, h, readFile, ensureExtent, if_neg fits]
      rfl
    | mapped =>
      simp only [read, h, readMemory]
      rw [if_neg (by omega)]

/-- The bytes that a source can read: those of its file, as far as the file went when it was opened. -/
def contents (source : Source) (disk : Disk) : List UInt8 :=
  (source.bytes disk).data.toList.take source.length.toNat

theorem length_contents (intact : source.Intact disk) :
    (source.contents disk).length = source.length.toNat := by
  have size : (source.bytes disk).data.toList.length = (source.bytes disk).size := by simp
  unfold Intact at intact
  rw [contents, List.length_take, size]
  omega

theorem read_eq_contents (intact : source.Intact disk) {offset : Offset} {length : UInt64}
    (fits : offset.toNat + length.toNat ≤ source.length.toNat) : ∃ bytes,
      source.read disk offset length = .ok bytes ∧
        bytes.data.toList = ((source.contents disk).drop offset.toNat).take length.toNat := by
  refine ⟨_, (read_eq intact offset length).trans (if_pos fits), ?_⟩
  have inside : length.toNat ≤ source.length.toNat - offset.toNat := by omega
  rw [toList_extract, contents, List.drop_take, List.take_take, Nat.min_eq_left inside]

theorem fetch_eq (intact : source.Intact disk) (α : Type) [Record α] (small : Record.size α < 2 ^ 64)
    (offset : Offset) :
    source.fetch α disk offset =
      if offset.toNat + Record.size α ≤ source.length.toNat then
        .ok (Record.decode (((source.contents disk).drop offset.toNat).take (Record.size α)))
      else .error (.truncated offset (Record.size α).toUInt64) := by
  have size : (Record.size α).toUInt64.toNat = Record.size α := UInt64.toNat_ofNat_of_lt' small
  by_cases fits : offset.toNat + Record.size α ≤ source.length.toNat
  · obtain ⟨bytes, hread, hbytes⟩ := read_eq_contents intact (size.symm ▸ fits)
    rw [size] at hbytes
    rw [if_pos fits, fetch, hread, ← hbytes]
    rfl
  · have short : ¬offset.toNat + (Record.size α).toUInt64.toNat ≤ source.length.toNat := by
      rwa [size]
    rw [if_neg fits, fetch, read_eq intact, if_neg short]
    rfl

theorem readWithin_eq (source : Source) (disk : Disk) (offset : Offset) (length : UInt64) :
    source.readWithin disk offset length = source.read disk offset length := by
  by_cases inside : offset.toNat + length.toNat ≤ source.length.toNat
  · rw [readWithin, ensureExtent_eq_ok.mpr inside]
    rfl
  · have outside : source.ensureExtent offset length = .error (.truncated offset length) := if_neg inside
    have refused : source.read disk offset length = .error (.truncated offset length) := by
      cases access : source.access with
      | seek =>
        rw [read, access, readFile, outside]
        rfl
      | mapped =>
        simp only [read, access, readMemory]
        exact if_neg (by omega)
    rw [readWithin, outside, refused]
    rfl

/-- Both ways of access open a path alike, but for a folder that would have to be mapped. -/
theorem openPath_eq (disk : Disk) (path : String) (access : Access) :
    openPath disk path access = match disk.target path with
      | .ok id =>
        if access = .mapped ∧ (disk.stamp id).length ≠ 0 ∧ id.isFolder then .error (.io .noDevice)
        else .ok ⟨path, disk.stamp id, access⟩
      | .error cause => .error (.io cause) := by
  cases target : disk.target path with
  | ok id => cases access <;> simp [openPath, openSeek, openMapped, target]
  | error cause => cases access <;> simp [openPath, openSeek, openMapped, target]

theorem eq_of_openPath (h : openPath disk path access = .ok source) :
    ∃ id, disk.target path = .ok id ∧ source = ⟨path, disk.stamp id, access⟩ := by
  rw [openPath_eq] at h
  split at h
  · next id found =>
    split at h <;> cases h
    exact ⟨id, found, rfl⟩
  · cases h

theorem openPath_eq_error {fault : Fault} (h : openPath disk path access = .error fault) :
    ∃ cause, fault = .io cause := by
  rw [openPath_eq] at h
  split at h
  · split at h <;> cases h
    exact ⟨_, rfl⟩
  · cases h
    exact ⟨_, rfl⟩

theorem openPath_of_target {id : FileId} (found : disk.target path = .ok id)
    (file : id.isFolder = false) (access : Access) :
    openPath disk path access = .ok ⟨path, disk.stamp id, access⟩ := by
  rw [openPath_eq, found]
  exact if_neg (by simp [file])

theorem openPath_of_target_error {cause : IoCause} (missing : disk.target path = .error cause)
    (access : Access) : openPath disk path access = .error (.io cause) := by
  rw [openPath_eq, missing]

theorem openPath_congr {now : Disk} {id : FileId} (found : disk.target path = .ok id)
    (found' : now.target path = .ok id) (same : disk.stamp id = now.stamp id) :
    openPath disk path access = openPath now path access := by
  simp only [openPath_eq, found, found', same]

theorem openPath_of_find {location : Location} {id : FileId}
    (found : disk.find path = .ok (location, id)) (access : Access) :
    openPath disk path access = .ok ⟨path, disk.stamp id, access⟩ := by
  obtain ⟨target, file⟩ := Disk.target_of_find found
  exact openPath_of_target target file access

theorem intact_of_openPath (h : openPath disk path access = .ok source) (regular : source.Regular) :
    source.Intact disk := by
  obtain ⟨id, -, rfl⟩ := eq_of_openPath h
  cases id with
  | file number => exact Nat.mod_le _ _
  | folder location => cases regular

theorem regular_of_openPath (noFolder : ¬disk.LeadsToFolder path)
    (h : openPath disk path access = .ok source) : source.Regular := by
  obtain ⟨id, found, rfl⟩ := eq_of_openPath h
  exact Disk.isFolder_of_target noFolder found

/-- No bytes come from a folder. If it was mapped at all, nothing of it was. -/
theorem read_of_folder (folder : ¬source.Regular) {length : UInt64} (some : length ≠ 0)
    (offset : Offset) :
    source.read disk offset length =
      if source.access = .seek ∧ offset.toNat + length.toNat ≤ source.length.toNat then
        .error (.io .isDirectory)
      else .error (.truncated offset length) := by
  have isFolder : source.stamp.object.isFolder = true := by simpa [Regular] using folder
  have none : (source.bytes disk).size = 0 := by
    unfold Source.bytes
    cases id : source.stamp.object with
    | file number => simp [id, FileId.isFolder] at isFolder
    | folder location => rfl
  have positive : 0 < length.toNat := by
    rw [Nat.pos_iff_ne_zero]
    exact fun zero => some (UInt64.toNat_inj.mp zero)
  cases access : source.access with
  | seek =>
    have outside : ¬(length = 0 ∨ offset.toNat + length.toNat ≤ (source.bytes disk).size) := by
      rintro (zero | inside)
      · exact some zero
      · omega
    by_cases inside : offset.toNat + length.toNat ≤ source.length.toNat
    · simp only [read, access, readFile, ensureExtent_eq_ok.mpr inside]
      rw [if_neg outside, if_pos isFolder, if_pos ⟨trivial, inside⟩]
      rfl
    · simp only [read, access, readFile, ensureExtent, if_neg inside]
      simp [inside]
      rfl
  | mapped =>
    simp only [read, access, readMemory]
    rw [if_neg (by omega), if_neg fun both => nomatch both.1]

theorem fetch_of_folder {α : Type} [Record α] (folder : ¬source.Regular)
    (some : (Record.size α).toUInt64 ≠ 0) (offset : Offset) :
    source.fetch α disk offset =
      if source.access = .seek ∧
          offset.toNat + (Record.size α).toUInt64.toNat ≤ source.length.toNat then
        .error (.io .isDirectory)
      else .error (.truncated offset (Record.size α).toUInt64) := by
  rw [fetch, read_of_folder folder some]
  split <;> rfl

theorem regular_of_fetch {α : Type} [Record α] {offset : Offset} {record : α}
    (h : source.fetch α disk offset = .ok record) (some : (Record.size α).toUInt64 ≠ 0) :
    source.Regular := by
  by_contra folder
  rw [fetch_of_folder folder some] at h
  split at h <;> cases h

/-- A source reads a whole file: all its bytes, and no others. -/
structure Covers (source : Source) (disk : Disk) (file : List UInt8) : Prop where
  intact : source.Intact disk
  contents : source.contents disk = file

theorem Covers.length {file : List UInt8} (h : source.Covers disk file) :
    source.length.toNat = file.length := by
  rw [← h.contents, length_contents h.intact]

theorem length_stamp {id : FileId} (file : id.isFolder = false)
    (addressable : (disk.bytes id).size < 2 ^ 64) :
    (disk.stamp id).length.toNat = (disk.bytes id).size := by
  cases id with
  | file number => exact Nat.mod_eq_of_lt addressable
  | folder location => cases file

theorem covers_stamp (path : String) (access : Access) {id : FileId} (file : id.isFolder = false)
    (addressable : (disk.bytes id).size < 2 ^ 64) :
    (⟨path, disk.stamp id, access⟩ : Source).Covers disk (disk.bytes id).data.toList := by
  have length := length_stamp file addressable
  refine ⟨length.le, List.take_of_length_le ?_⟩
  rw [Array.length_toList]
  exact length.ge

end Source

end InvertedIndex
