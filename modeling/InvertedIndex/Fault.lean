import InvertedIndex.Text.Hex
import InvertedIndex.Text.Quoted
import InvertedIndex.Record.Basic

set_option autoImplicit false
set_option relaxedAutoImplicit false

namespace InvertedIndex

open Text (hexPadded quoted)

/-- Why a file cannot be opened, mapped, read or changed. -/
inductive IoCause
  | notFound
  | notDirectory
  | isDirectory
  | noDevice
  | nameTooLong
  | nulInName
  | other (text : String)
  deriving DecidableEq, Repr

def IoCause.message : IoCause → String
  | notFound => "No such file or directory (os error 2)"
  | notDirectory => "Not a directory (os error 20)"
  | isDirectory => "Is a directory (os error 21)"
  | noDevice => "No such device (os error 19)"
  | nameTooLong => "File name too long (os error 36)"
  | nulInName => "file name contained an unexpected NUL byte"
  | other text => text

inductive Region
  | documents
  | words
  deriving DecidableEq, Repr

def Region.name : Region → String
  | documents => "document"
  | words => "word"

/-- How the contents of a file contradict themselves or what was read from it before. -/
inductive Damage
  | zeroBuckets (path : String) (base : Offset)
  | chainOverrun (path : String) (bucket : UInt64) (links : UInt32) (offset : Offset)
  | undecodablePath (path : String) (id : DocumentId) (offset : Offset)
  | postingsOverrun (path : String) (word : String) (postings : UInt32) (offset : Offset)
  | regionOutside (region : Region) (offset : Offset) (fileLength : UInt64)
  | fileChanged (path : String)
  | other (text : String)
  deriving DecidableEq, Repr

def Damage.message : Damage → String
  | zeroBuckets path base => s!"{path}: hash table at offset {base} has zero buckets"
  | chainOverrun path bucket links offset =>
    s!"{path}: bucket {bucket} chain of {links} entries at offset {offset} overruns the file"
  | undecodablePath path id offset =>
    s!"{path}: document {id} at offset {offset} has a non UTF-8 path"
  | postingsOverrun path word postings offset =>
    s!"{path}: postings of {quoted word} ({postings} entries at offset {offset}) overrun the file"
  | regionOutside region offset fileLength =>
    s!"{region.name} table offset {offset} lies outside the file ({fileLength} bytes)"
  | fileChanged path => s!"{path} was replaced or modified after it was opened"
  | other text => text

inductive SettingsFlaw
  | emptyPath (position : Nat)
  | other (text : String)
  deriving DecidableEq, Repr

def SettingsFlaw.message : SettingsFlaw → String
  | emptyPath position => s!"Index path #{position} is empty"
  | other text => text

/-- Why an operation has no answer. -/
inductive Fault
  | io (cause : IoCause)
  | truncated (offset : Offset) (length : UInt64)
  | badMagic (found : UInt32)
  | checksumMismatch (expected found : UInt32)
  | corruption (damage : Damage)
  | missingDocument (id : DocumentId)
  | emptyQuery
  | noIndexFiles
  | invalidSettings (flaw : SettingsFlaw)
  deriving DecidableEq, Repr

namespace Fault

def message : Fault → String
  | io cause => s!"IO Error: {cause.message}"
  | truncated offset length => s!"Truncated index: cannot read {length} bytes at offset {offset}"
  | badMagic found => s!"Bad magic number: 0x{hexPadded 8 found.toNat}"
  | checksumMismatch expected found =>
    let header := hexPadded 8 expected.toNat
    let contents := hexPadded 8 found.toNat
    s!"Checksum mismatch: header says 0x{header}, contents hash to 0x{contents}"
  | corruption damage => s!"Data corruption detected: {damage.message}"
  | missingDocument id =>
    s!"Document {id} is referenced by postings but missing from the document table"
  | emptyQuery => "Query must contain at least one word"
  | noIndexFiles => "At least one index file is required"
  | invalidSettings flaw => s!"Invalid configuration: {flaw.message}"

/-- Whether a fault speaks of a damaged or inconsistent file. -/
def isDamage : Fault → Bool
  | truncated .. | badMagic .. | checksumMismatch .. | corruption .. | missingDocument .. => true
  | io .. | emptyQuery | noIndexFiles | invalidSettings .. => false

/-- Whether a fault comes from what the caller asked for. -/
def isMisuse : Fault → Bool
  | emptyQuery | noIndexFiles | invalidSettings .. => true
  | io .. | truncated .. | badMagic .. | checksumMismatch .. | corruption ..
  | missingDocument .. => false

def category : Fault → String
  | io .. => "io"
  | truncated .. => "truncated"
  | badMagic .. | checksumMismatch .. => "integrity"
  | corruption .. => "corruption"
  | missingDocument .. => "consistency"
  | emptyQuery | noIndexFiles => "query_shape"
  | invalidSettings .. => "configuration"

end Fault

end InvertedIndex
