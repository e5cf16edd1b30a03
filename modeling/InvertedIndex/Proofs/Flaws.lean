import InvertedIndex.Proofs.CheckedFiles
import InvertedIndex.Proofs.ChunkedChecksum
import InvertedIndex.Proofs.StoredRecords

/-!
What can be wrong with an index file: a list of flaws in the order in which they are noticed, each
read off the bytes of the file.
-/

set_option autoImplicit false
set_option relaxedAutoImplicit false

namespace InvertedIndex

variable {α β : Type}

private theorem check_bind {p : Prop} [Decidable p] {fault : Fault} {f : Unit → Except Fault α} :
    (if p then throw fault >>= f else f ()) =
      (if decide p then .error fault else .ok ()) >>= f := by
  by_cases h : p
  · rw [if_pos h, if_pos (decide_eq_true h)]
    rfl
  · rw [if_neg h, if_neg (by simpa using h)]
    rfl

/-- Something that may be wrong: whether it is, and the fault that stands for it. -/
structure Flaw where
  present : Bool
  fault : Fault

def firstFault (flaws : List Flaw) : Option Fault :=
  (flaws.find? Flaw.present).map Flaw.fault

/-- A value, unless one of some flaws is there: then the fault of the first one. -/
def barring (flaws : List Flaw) (a : α) : Except Fault α :=
  match firstFault flaws with
  | some fault => .error fault
  | none => .ok a

theorem firstFault_append (front back : List Flaw) :
    firstFault (front ++ back) = (firstFault front).or (firstFault back) := by
  simp only [firstFault, List.find?_append]
  cases front.find? Flaw.present <;> rfl

theorem firstFault_eq_none {flaws : List Flaw} :
    firstFault flaws = none ↔ ∀ flaw ∈ flaws, flaw.present = false := by
  simp [firstFault]

theorem barring_eq_error {flaws : List Flaw} {a : α} {fault : Fault} :
    barring flaws a = .error fault ↔ firstFault flaws = some fault := by
  unfold barring
  cases firstFault flaws <;> simp

theorem barring_eq_ok {flaws : List Flaw} {a b : α} :
    barring flaws a = .ok b ↔ firstFault flaws = none ∧ a = b := by
  unfold barring
  cases firstFault flaws <;> simp

/-- A step that fails if a flaw is there, and then others for the flaws behind it. -/
theorem bind_eq_barring {flaw : Flaw} {rest : List Flaw} {x : Except Fault α} {a : α}
    {f : α → Except Fault β} {b : β} (first : x = if flaw.present then .error flaw.fault else .ok a)
    (others : flaw.present = false → f a = barring rest b) :
    x >>= f = barring (flaw :: rest) b := by
  obtain ⟨present, fault⟩ := flaw
  subst first
  cases present with
  | true => rfl
  | false => exact others rfl

theorem barring_bind {front back : List Flaw} {a : α} {f : α → Except Fault β} {b : β}
    (others : firstFault front = none → f a = barring back b) :
    barring front a >>= f = barring (front ++ back) b := by
  unfold barring at others ⊢
  rw [firstFault_append]
  cases h : firstFault front with
  | some fault => rfl
  | none => exact others h

theorem barring_bind_pure {flaws : List Flaw} {a : α} {f : α → β} :
    (barring flaws a >>= fun a => pure (f a)) = barring flaws (f a) := by
  unfold barring
  cases firstFault flaws <;> rfl

namespace IndexFile

def headerIn (file : List UInt8) : FileHeader :=
  Record.decode file

def bucketsAt (file : List UInt8) (base : Offset) : UInt32 :=
  (Record.decode (file.drop base.toNat) : TableHeader).bucketCount

/-- The table of a region does not start behind the file header with room for a header of its own. -/
def regionFlaw (file : List UInt8) (region : Region) (offset : Offset) : Flaw :=
  ⟨¬(24 ≤ offset.toNat ∧ offset.toNat + 4 ≤ file.length),
    .corruption (.regionOutside region offset file.length.toUInt64)⟩

def headerFlaws (file : List UInt8) (strict : Bool) : List Flaw :=
  let header := headerIn file
  let digest := Crc32.digest (file.drop 24)
  [⟨file.length < 24, .truncated 0 24⟩,
    ⟨strict ∧ header.magic ≠ magicNumber, .badMagic header.magic⟩,
    regionFlaw file .documents header.documentTable,
    regionFlaw file .words header.wordTable,
    ⟨strict ∧ digest ≠ header.checksum, .checksumMismatch header.checksum digest⟩]

def tableFlaws (path : String) (file : List UInt8) (base : Offset) : List Flaw :=
  let buckets := bucketsAt file base
  [⟨buckets = 0, .corruption (.zeroBuckets path base)⟩,
    ⟨file.length < base.toNat + 4 + 12 * buckets.toNat,
      .truncated (base + 4) (12 * buckets.toUInt64)⟩]

/-- What can be wrong with an index file: its header first, then its documents, then its words. -/
def flaws (path : String) (file : List UInt8) (strict : Bool) : List Flaw :=
  headerFlaws file strict ++
    (tableFlaws path file (headerIn file).documentTable ++
      tableFlaws path file (headerIn file).wordTable)

variable {disk : Disk} {path : String} {id : FileId} {location : Location} {access : Access}

theorem decode_take_fileHeader (file : List UInt8) :
    (Record.decode (file.take (Record.size FileHeader)) : FileHeader) = headerIn file := by
  simp [headerIn, Record.decode, Record.size, BigEndian.field_take]

theorem bucketCount_recordAt (file : List UInt8) (base : Offset) :
    (recordAt TableHeader file base.toNat).bucketCount = bucketsAt file base := by
  simp [recordAt, bucketsAt, Record.decode, Record.size, BigEndian.field_take]

theorem fetch_header {source : Source} {file : List UInt8} (whole : source.Covers disk file) :
    source.fetch FileHeader disk 0 =
      if decide (file.length < 24) then .error (.truncated 0 24) else .ok (headerIn file) := by
  have size : Record.size FileHeader = 24 := rfl
  have start : (0 : Offset).toNat = 0 := rfl
  have header := Source.fetch_eq whole.intact FileHeader (by decide) 0
  rw [whole.length, whole.contents, start, List.drop_zero, decode_take_fileHeader, size] at header
  rw [header]
  by_cases short : file.length < 24
  · have outside : ¬0 + 24 ≤ file.length := by omega
    rw [if_neg outside, if_pos (decide_eq_true short)]
    rfl
  · have inside : 0 + 24 ≤ file.length := by omega
    rw [if_pos inside, if_neg (by simpa using short)]

theorem result_ensureMagic (header : FileHeader) (strict : Bool) :
    (ensureMagic path header strict).result =
      if decide (strict ∧ header.magic ≠ magicNumber) then .error (.badMagic header.magic)
      else .ok () := by
  unfold ensureMagic
  by_cases magic : header.magic = magicNumber
  · simp [magic]
  · cases strict <;> simp [magic, Logged.fail]

theorem ensureRegion_eq {file : List UInt8} {size : UInt64} (length : size.toNat = file.length)
    (region : Region) (offset : Offset) :
    ensureRegion region offset size =
      if (regionFlaw file region offset).present then .error (regionFlaw file region offset).fault
      else .ok () := by
  have same : file.length.toUInt64 = size := toUInt64_of_toNat length
  have header : Record.size FileHeader = 24 := rfl
  have table : Record.size TableHeader = 4 := rfl
  rw [ensureRegion, regionFlaw, same, length, header, table]
  by_cases inside : 24 ≤ offset.toNat ∧ offset.toNat + 4 ≤ file.length
  · rw [if_pos inside, if_neg (by simpa using inside)]
  · rw [if_neg inside, if_pos (decide_eq_true inside)]

theorem ensureChecksum_eq {source : Source} {file : List UInt8} (whole : source.Covers disk file)
    (header : FileHeader) (strict : Bool) :
    ensureChecksum source disk header strict =
      if decide (strict ∧ Crc32.digest (file.drop 24) ≠ header.checksum) then
        .error (.checksumMismatch header.checksum (Crc32.digest (file.drop 24)))
      else .ok () := by
  cases strict with
  | false => simp [ensureChecksum, pure, Except.pure]
  | true =>
    have digest : source.checksum disk = .ok (Crc32.digest (file.drop 24)) := whole.checksum
    rw [ensureChecksum, if_pos rfl]
    refine (Outcome.bind_of_ok digest _).trans ?_
    by_cases same : Crc32.digest (file.drop 24) = header.checksum
    · simp [same, pure, Except.pure]
    · simp [same, throw, throwThe, MonadExceptOf.throw]

theorem result_openPath_eq (found : disk.find path = .ok (location, id))
    (addressable : (disk.bytes id).size < 2 ^ 64) (strict : Bool) (access : Access) :
    (openPath disk path strict access).result =
      barring (headerFlaws (disk.bytes id).data.toList strict)
        ⟨path, headerIn (disk.bytes id).data.toList, disk.stamp id, access⟩ := by
  have opened : Source.openPath disk path access = .ok ⟨path, disk.stamp id, access⟩ :=
    Source.openPath_of_find found access
  have whole := Source.covers_stamp path access (Disk.target_of_find found).2 addressable
  have length : (disk.stamp id).length.toNat = (disk.bytes id).data.toList.length := whole.length
  simp only [openPath, Logged.result_bind, Logged.result_lift, Logged.result_report,
    Logged.result_pure]
  refine (Outcome.bind_of_ok opened _).trans ?_
  refine bind_eq_barring (fetch_header whole) fun _ => ?_
  refine bind_eq_barring (result_ensureMagic _ strict) fun _ => ?_
  refine bind_eq_barring (ensureRegion_eq length .documents _) fun _ => ?_
  refine bind_eq_barring (ensureRegion_eq length .words _) fun _ => ?_
  exact bind_eq_barring (ensureChecksum_eq whole _ strict) fun _ => rfl

theorem ensureExtent_slots {source : Source} {file : List UInt8} {base : Offset}
    (length : source.length.toNat = file.length) (inside : base.toNat + 4 ≤ file.length)
    (buckets : UInt32) :
    source.ensureExtent (base + (Record.size TableHeader).toUInt64)
        (buckets.toUInt64 * (Record.size Slot).toUInt64) =
      if decide (file.length < base.toNat + 4 + 12 * buckets.toNat) then
        .error (.truncated (base + 4) (12 * buckets.toUInt64))
      else .ok () := by
  have small := source.length.toNat_lt
  have header : (Record.size TableHeader).toUInt64.toNat = 4 := by decide
  have start : (base + (Record.size TableHeader).toUInt64).toNat = base.toNat + 4 := by
    rw [UInt64.toNat_add, header]
    exact Nat.mod_eq_of_lt (by omega)
  have room : (buckets.toUInt64 * (Record.size Slot).toUInt64).toNat = 12 * buckets.toNat :=
    toNat_mul_size buckets (by decide)
  rw [Source.ensureExtent, start, room, length, UInt64.mul_comm]
  by_cases fits : base.toNat + 4 + 12 * buckets.toNat ≤ file.length
  · rw [if_pos fits, if_neg (by simpa using fits)]
  · rw [if_neg fits, if_pos (by simpa using fits)]
    rfl

theorem tables_inside {file : List UInt8} {strict : Bool}
    (sound : firstFault (headerFlaws file strict) = none) :
    (headerIn file).documentTable.toNat + 4 ≤ file.length ∧
      (headerIn file).wordTable.toNat + 4 ≤ file.length := by
  rw [firstFault_eq_none] at sound
  have documents := sound (regionFlaw file .documents (headerIn file).documentTable) (by
    simp [headerFlaws])
  have words := sound (regionFlaw file .words (headerIn file).wordTable) (by simp [headerFlaws])
  have documents := of_decide_eq_false documents
  have words := of_decide_eq_false words
  omega

theorem openAt_eq {source : Source} {file : List UInt8} (whole : source.Covers disk file)
    {base : Offset} (inside : base.toNat + 4 ≤ file.length) :
    ChainTable.openAt source disk base =
      barring (tableFlaws source.path file base) ⟨source, base, bucketsAt file base⟩ := by
  have table := (whole.fetch TableHeader (by decide) base).trans (if_pos inside)
  rw [ChainTable.openAt]
  refine (Outcome.bind_of_ok table _).trans ?_
  rw [bucketCount_recordAt]
  refine check_bind.trans (bind_eq_barring rfl fun _ => ?_)
  exact bind_eq_barring (ensureExtent_slots whole.length inside _) fun _ => rfl

theorem reopen_eq (found : disk.find path = .ok (location, id))
    (addressable : (disk.bytes id).size < 2 ^ 64) (header : FileHeader) (access : Access)
    {base : Offset} (inside : base.toNat + 4 ≤ (disk.bytes id).data.toList.length) :
    reopen ⟨path, header, disk.stamp id, access⟩ disk base =
      barring (tableFlaws path (disk.bytes id).data.toList base)
        ⟨⟨path, disk.stamp id, access⟩, base, bucketsAt (disk.bytes id).data.toList base⟩ := by
  have stands : StandsOn ⟨path, header, disk.stamp id, access⟩ disk := standsOn_of_stamp found rfl
  rw [stands.reopen]
  exact openAt_eq (Source.covers_stamp path access stands.regular addressable) inside

end IndexFile

namespace OpenIndex

open IndexFile (headerIn bucketsAt flaws)

def ofFile (source : Source) (file : List UInt8) : OpenIndex :=
  let header := headerIn file
  { path := source.path
    documents := ⟨⟨source, header.documentTable, bucketsAt file header.documentTable⟩⟩
    words := ⟨⟨source, header.wordTable, bucketsAt file header.wordTable⟩⟩ }

variable {disk : Disk} {path : String} {id : FileId} {location : Location}

theorem result_openPath_eq (found : disk.find path = .ok (location, id))
    (addressable : (disk.bytes id).size < 2 ^ 64) (strict : Bool) (access : Access) :
    (openPath disk path strict access).result =
      barring (flaws path (disk.bytes id).data.toList strict)
        (ofFile ⟨path, disk.stamp id, access⟩ (disk.bytes id).data.toList) := by
  have checked := IndexFile.result_openPath_eq found addressable strict access
  simp only [openPath, Logged.result_bind, Logged.result_lift, Logged.result_pure, checked]
  refine barring_bind fun sound => ?_
  obtain ⟨documents, words⟩ := IndexFile.tables_inside sound
  simp only [IndexFile.openDocuments, IndexFile.openWords]
  rw [IndexFile.reopen_eq found addressable _ access documents,
    IndexFile.reopen_eq found addressable _ access words, barring_bind_pure, barring_bind_pure]
  exact barring_bind fun _ => barring_bind_pure

/-- A folder is opened and then too short or not to be read, or it cannot be mapped unless it is empty. -/
def folderFault (length : UInt64) : Access → Fault
  | .seek => if length.toNat < 24 then .truncated 0 24 else .io .isDirectory
  | .mapped => if length = 0 then .truncated 0 24 else .io .noDevice

/-- What keeps a path from being opened: it leads to no file, or the file has a flaw. -/
def faultAt (disk : Disk) (strict : Bool) (access : Access) (path : String) : Option Fault :=
  match disk.target path with
  | .error cause => some (.io cause)
  | .ok (.folder location) => some (folderFault (disk.folderState location).length access)
  | .ok (.file number) => firstFault (flaws path (disk.bytes (.file number)).data.toList strict)

def FoundAt (disk : Disk) (access : Access) (path : String) (index : OpenIndex) : Prop :=
  ∃ location id, disk.find path = .ok (location, id) ∧
    index = ofFile ⟨path, disk.stamp id, access⟩ (disk.bytes id).data.toList

theorem result_openPath_of_refused {access : Access} {fault : Fault}
    (refused : (Source.openPath disk path access >>= fun source => source.fetch FileHeader disk 0) =
      .error fault) (strict : Bool) : (openPath disk path strict access).result = .error fault := by
  simp only [openPath, IndexFile.openPath, Logged.result_bind, Logged.result_lift]
  cases opened : Source.openPath disk path access with
  | error fault' =>
    rw [opened] at refused
    cases refused
    rfl
  | ok source =>
    rw [opened] at refused
    have refused : source.fetch FileHeader disk 0 = .error fault := refused
    simp only [bind, Except.bind, refused]

theorem fetch_header_of_folder (found : disk.target path = .ok (.folder location)) (access : Access) :
    (Source.openPath disk path access >>= fun source => source.fetch FileHeader disk 0) =
      .error (folderFault (disk.folderState location).length access) := by
  have header : ∀ access, (⟨path, disk.stamp (.folder location), access⟩ : Source).fetch FileHeader
      disk 0 = if access = .seek ∧ 24 ≤ (disk.folderState location).length.toNat then
        .error (.io .isDirectory) else .error (.truncated 0 24) := by
    intro access
    have folder : ¬(⟨path, disk.stamp (.folder location), access⟩ : Source).Regular := by
      simp [Source.Regular, Disk.stamp, FileId.isFolder]
    exact Source.fetch_of_folder folder (by decide) 0
  cases access with
  | seek =>
    rw [Source.openPath, Source.openSeek, found]
    refine (header .seek).trans ?_
    by_cases short : (disk.folderState location).length.toNat < 24
    · rw [folderFault, if_pos short, if_neg (by omega)]
    · rw [folderFault, if_neg short, if_pos ⟨rfl, by omega⟩]
  | mapped =>
    rw [Source.openPath, Source.openMapped, found]
    by_cases empty : (disk.folderState location).length = 0
    · have opened : ¬((disk.stamp (.folder location)).length ≠ 0 ∧
          (FileId.folder location).isFolder) := fun some => some.1 empty
      simp only [if_neg opened, folderFault, if_pos empty]
      exact (header .mapped).trans (if_neg (by simp))
    · have refused : (disk.stamp (.folder location)).length ≠ 0 ∧
          (FileId.folder location).isFolder := ⟨empty, rfl⟩
      simp only [if_pos refused, folderFault, if_neg empty]
      rfl

theorem faultAt_of_find (found : disk.find path = .ok (location, id)) (strict : Bool)
    (access : Access) :
    faultAt disk strict access path = firstFault (flaws path (disk.bytes id).data.toList strict) := by
  obtain ⟨number, place, rfl⟩ := Disk.find_eq_ok.mp found
  rw [faultAt, (Disk.target_of_find found).1]

theorem result_openPath_of_absent (absent : ∀ location id, disk.find path ≠ .ok (location, id))
    (strict : Bool) (access : Access) : ∃ fault, faultAt disk strict access path = some fault ∧
      (openPath disk path strict access).result = .error fault := by
  unfold faultAt
  cases target : disk.target path with
  | error cause =>
    refine ⟨_, rfl, result_openPath_of_refused ?_ strict⟩
    rw [Source.openPath_of_target_error target]
    rfl
  | ok id =>
    cases id with
    | folder location =>
      exact ⟨_, rfl, result_openPath_of_refused (fetch_header_of_folder target access) strict⟩
    | file number =>
      obtain ⟨location, found⟩ := Disk.find_of_target target rfl
      exact absurd found (absent location _)

theorem result_openPath_eq_error (addressable : ∀ id, (disk.bytes id).size < 2 ^ 64) {strict : Bool}
    {access : Access} {fault : Fault} :
    (openPath disk path strict access).result = .error fault ↔
      faultAt disk strict access path = some fault := by
  by_cases there : ∃ location id, disk.find path = .ok (location, id)
  · obtain ⟨location, id, found⟩ := there
    rw [result_openPath_eq found (addressable id), barring_eq_error, faultAt_of_find found]
  · push Not at there
    obtain ⟨fault', at_, failed⟩ := result_openPath_of_absent there strict access
    rw [failed, at_]
    simp

theorem result_openPath_eq_ok (addressable : ∀ id, (disk.bytes id).size < 2 ^ 64) {strict : Bool}
    {access : Access} {index : OpenIndex} :
    (openPath disk path strict access).result = .ok index ↔
      faultAt disk strict access path = none ∧ FoundAt disk access path index := by
  by_cases there : ∃ location id, disk.find path = .ok (location, id)
  · obtain ⟨location, id, found⟩ := there
    rw [result_openPath_eq found (addressable id), barring_eq_ok, faultAt_of_find found]
    simp [FoundAt, found, eq_comm]
  · push Not at there
    obtain ⟨fault, at_, failed⟩ := result_openPath_of_absent there strict access
    rw [failed, at_]
    simp

end OpenIndex

end InvertedIndex
