import InvertedIndex.Disk

/-!
A source stays with the file object that its path led to when it was opened, and with the length
that the object had then. An extent that does not lie inside the source is never read.
-/

set_option autoImplicit false
set_option relaxedAutoImplicit false

namespace InvertedIndex

/-- What tells one state of one file from another. -/
structure FileStamp where
  object : FileId
  modified : Int
  length : UInt64
  deriving DecidableEq, Repr

def Disk.stamp (disk : Disk) (id : FileId) : FileStamp :=
  { object := id
    modified := disk.modified id
    length := disk.length id }

inductive Access
  /-- Each read goes to the file. -/
  | seek
  /-- Reads see the part of memory that the file was mapped to when it was opened. -/
  | mapped
  deriving DecidableEq, Repr

structure Source where
  path : String
  stamp : FileStamp
  access : Access
  deriving DecidableEq, Repr

namespace Source

/-- Opens what a path leads to, to be read where it is. A folder is opened, too. -/
def openSeek (disk : Disk) (path : String) : Except Fault Source :=
  match disk.target path with
  | .ok id => .ok ⟨path, disk.stamp id, .seek⟩
  | .error cause => .error (.io cause)

/-- Opens what a path leads to and maps it to memory. Nothing is mapped if it is empty, and a folder
cannot be mapped. -/
def openMapped (disk : Disk) (path : String) : Except Fault Source :=
  match disk.target path with
  | .ok id =>
    if (disk.stamp id).length ≠ 0 ∧ id.isFolder then .error (.io .noDevice)
    else .ok ⟨path, disk.stamp id, .mapped⟩
  | .error cause => .error (.io cause)

def openPath (disk : Disk) (path : String) : Access → Except Fault Source
  | .seek => openSeek disk path
  | .mapped => openMapped disk path

def length (source : Source) : UInt64 :=
  source.stamp.length

def isEmpty (source : Source) : Bool :=
  source.length = 0

def bytes (source : Source) (disk : Disk) : ByteArray :=
  disk.bytes source.stamp.object

/-- Fails unless an extent lies inside the source. The sum does not wrap. -/
def ensureExtent (source : Source) (offset : Offset) (length : UInt64) : Except Fault Unit :=
  if offset.toNat + length.toNat ≤ source.length.toNat then .ok ()
  else .error (.truncated offset length)

/-- Reads from the file: the extent must lie inside the source, and unless it is empty the file must
still be long enough, and no folder. -/
def readFile (source : Source) (disk : Disk) (offset : Offset) (length : UInt64) :
    Except Fault ByteArray := do
  source.ensureExtent offset length
  let stop := offset.toNat + length.toNat
  if length = 0 ∨ stop ≤ (source.bytes disk).size then
    pure ((source.bytes disk).extract offset.toNat stop)
  else if source.stamp.object.isFolder then throw (.io .isDirectory)
  else throw (.truncated offset length)

/-- Reads from the mapped memory, which ends where the file ended when it was opened. -/
def readMemory (source : Source) (disk : Disk) (offset : Offset) (length : UInt64) :
    Except Fault ByteArray :=
  let memory := min source.length.toNat (source.bytes disk).size
  let stop := offset.toNat + length.toNat
  if stop ≤ memory then .ok ((source.bytes disk).extract offset.toNat stop)
  else .error (.truncated offset length)

def read (source : Source) (disk : Disk) (offset : Offset) (length : UInt64) :
    Except Fault ByteArray :=
  match source.access with
  | .seek => source.readFile disk offset length
  | .mapped => source.readMemory disk offset length

/-- Like `read`, but makes room for the bytes only after the extent was found to lie inside the
source. -/
def readWithin (source : Source) (disk : Disk) (offset : Offset) (length : UInt64) :
    Except Fault ByteArray := do
  source.ensureExtent offset length
  source.read disk offset length

def fetch (α : Type) [Record α] (source : Source) (disk : Disk) (offset : Offset) :
    Except Fault α := do
  let bytes ← source.read disk offset (Record.size α).toUInt64
  pure (Record.decode bytes.data.toList)

def fetchRun (α : Type) [Record α] (source : Source) (disk : Disk) (start : Offset)
    (count : Nat) : Except Fault (List α) :=
  (List.range count).mapM fun i =>
    source.fetch α disk (start + (i * Record.size α).toUInt64)

end Source

end InvertedIndex
