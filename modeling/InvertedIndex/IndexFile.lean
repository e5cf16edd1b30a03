import InvertedIndex.Checksum
import InvertedIndex.DocumentTable
import InvertedIndex.WordTable

/-!
Index files. Opening one checks its header; each table is opened later, through a source of its own,
and only while the path still leads to the very file that was checked.
-/

set_option autoImplicit false
set_option relaxedAutoImplicit false

namespace InvertedIndex

/-- An index file whose header was read. -/
structure IndexFile where
  path : String
  header : FileHeader
  stamp : FileStamp
  access : Access
  deriving DecidableEq, Repr

namespace IndexFile

def length (file : IndexFile) : UInt64 :=
  file.stamp.length

/-- Fails unless a table may start at an offset: behind the file header, with room for the header of
the table. -/
def ensureRegion (region : Region) (offset : Offset) (fileLength : UInt64) : Except Fault Unit :=
  if Record.size FileHeader ≤ offset.toNat ∧
      offset.toNat + Record.size TableHeader ≤ fileLength.toNat then .ok ()
  else .error (.corruption (.regionOutside region offset fileLength))

def ensureMagic (path : String) (header : FileHeader) (strict : Bool) : Logged Unit :=
  if header.magic = magicNumber then pure ()
  else if strict then Logged.fail (.badMagic header.magic)
  else Logged.report (.magicTolerated path header.magic)

/-- Compares the checksum of a file with its header. Only strict mode takes the checksum. -/
def ensureChecksum (source : Source) (disk : Disk) (header : FileHeader) (strict : Bool) :
    Except Fault Unit :=
  if strict then do
    let found ← source.checksum disk
    if found = header.checksum then pure ()
    else throw (.checksumMismatch header.checksum found)
  else pure ()

/-- Opens an index file: reads its header and checks, in this order, the magic number, the place of
the two tables and the checksum. -/
def openPath (disk : Disk) (path : String) (strict : Bool) (access : Access) :
    Logged IndexFile := do
  let source ← Source.openPath disk path access
  let header ← source.fetch FileHeader disk 0
  ensureMagic path header strict
  ensureRegion .documents header.documentTable source.length
  ensureRegion .words header.wordTable source.length
  ensureChecksum source disk header strict
  Logged.report (.fileOpened path source.length header.documentTable header.wordTable)
  pure ⟨path, header, source.stamp, access⟩

/-- Opens a table of the file through a new source. The path must lead to the file that was checked,
in the state in which it was checked. -/
def reopen (file : IndexFile) (disk : Disk) (base : Offset) : Except Fault ChainTable := do
  let source ← Source.openPath disk file.path file.access
  if source.stamp ≠ file.stamp then
    throw (.corruption (.fileChanged file.path))
  ChainTable.openAt source disk base

def openDocuments (file : IndexFile) (disk : Disk) : Except Fault DocumentTable := do
  let buckets ← file.reopen disk file.header.documentTable
  pure ⟨buckets⟩

def openWords (file : IndexFile) (disk : Disk) : Except Fault WordTable := do
  let buckets ← file.reopen disk file.header.wordTable
  pure ⟨buckets⟩

end IndexFile

end InvertedIndex
