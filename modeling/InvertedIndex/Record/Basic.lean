import InvertedIndex.Record.BigEndian

/-!
The fixed-size records of an index file, each a packed run of big-endian integers in the order of
its fields. A file begins with a `FileHeader`; a table is a `TableHeader`, its `Slot`s, and the
chains of `Link`s that they point to.
-/

set_option autoImplicit false
set_option relaxedAutoImplicit false

namespace InvertedIndex

abbrev Offset := UInt64

/-- The number of a document, meaningful within one file. -/
abbrev DocumentId := UInt64

/-- A record of fixed size with one written form. -/
class Record (α : Type) where
  /-- The number of bytes that the written form takes. -/
  size : Nat
  /-- The written form. -/
  encode : α → List UInt8
  /-- The record whose written form is a given run of `size` bytes. -/
  decode : List UInt8 → α

open BigEndian (digits field)

def magicNumber : UInt32 := 0xCAFEF00D

/-- The first record of a file. The checksum covers every byte after this record. -/
structure FileHeader where
  magic : UInt32
  checksum : UInt32
  documentTable : Offset
  wordTable : Offset
  deriving DecidableEq, Repr

instance : Record FileHeader where
  size := 24
  encode r := digits 4 r.magic.toNat ++ digits 4 r.checksum.toNat ++
    digits 8 r.documentTable.toNat ++ digits 8 r.wordTable.toNat
  decode b :=
    { magic := UInt32.ofNat (field b 0 4)
      checksum := UInt32.ofNat (field b 4 4)
      documentTable := UInt64.ofNat (field b 8 8)
      wordTable := UInt64.ofNat (field b 16 8) }

structure TableHeader where
  bucketCount : UInt32
  deriving DecidableEq, Repr

instance : Record TableHeader where
  size := 4
  encode r := digits 4 r.bucketCount.toNat
  decode b := { bucketCount := UInt32.ofNat (field b 0 4) }

/-- One bucket: how many links its chain has and where they start. -/
structure Slot where
  chainLength : UInt32
  chainOffset : Offset
  deriving DecidableEq, Repr

instance : Record Slot where
  size := 12
  encode r := digits 4 r.chainLength.toNat ++ digits 8 r.chainOffset.toNat
  decode b :=
    { chainLength := UInt32.ofNat (field b 0 4)
      chainOffset := UInt64.ofNat (field b 4 8) }

/-- One link of a chain: where an element of the bucket starts. -/
structure Link where
  elementOffset : Offset
  deriving DecidableEq, Repr

instance : Record Link where
  size := 8
  encode r := digits 8 r.elementOffset.toNat
  decode b := { elementOffset := UInt64.ofNat (field b 0 8) }

/-- The fixed part of a document; its path follows, `pathLength` bytes long. -/
structure DocumentHeader where
  id : DocumentId
  pathLength : UInt16
  deriving DecidableEq, Repr

instance : Record DocumentHeader where
  size := 10
  encode r := digits 8 r.id.toNat ++ digits 2 r.pathLength.toNat
  decode b :=
    { id := UInt64.ofNat (field b 0 8)
      pathLength := UInt16.ofNat (field b 8 2) }

/-- The fixed part of a word; `wordLength` bytes of text and then its postings follow. -/
structure WordHeader where
  wordLength : UInt16
  postingCount : UInt32
  deriving DecidableEq, Repr

instance : Record WordHeader where
  size := 6
  encode r := digits 2 r.wordLength.toNat ++ digits 4 r.postingCount.toNat
  decode b :=
    { wordLength := UInt16.ofNat (field b 0 2)
      postingCount := UInt32.ofNat (field b 2 4) }

structure Posting where
  id : DocumentId
  count : UInt32
  deriving DecidableEq, Repr

instance : Record Posting where
  size := 12
  encode r := digits 8 r.id.toNat ++ digits 4 r.count.toNat
  decode b :=
    { id := UInt64.ofNat (field b 0 8)
      count := UInt32.ofNat (field b 8 4) }

def WordHeader.postingBytes (header : WordHeader) : UInt64 :=
  header.postingCount.toUInt64 * UInt64.ofNat (Record.size Posting)

inductive RecordKind
  | fileHeader | tableHeader | slot | link | documentHeader | wordHeader | posting
  deriving DecidableEq, Repr

namespace RecordKind

def Carrier : RecordKind → Type
  | fileHeader => FileHeader
  | tableHeader => TableHeader
  | slot => Slot
  | link => Link
  | documentHeader => DocumentHeader
  | wordHeader => WordHeader
  | posting => Posting

instance (kind : RecordKind) : Record kind.Carrier :=
  match kind with
  | fileHeader => inferInstanceAs (Record FileHeader)
  | tableHeader => inferInstanceAs (Record TableHeader)
  | slot => inferInstanceAs (Record Slot)
  | link => inferInstanceAs (Record Link)
  | documentHeader => inferInstanceAs (Record DocumentHeader)
  | wordHeader => inferInstanceAs (Record WordHeader)
  | posting => inferInstanceAs (Record Posting)

def all : List RecordKind :=
  [fileHeader, tableHeader, slot, link, documentHeader, wordHeader, posting]

def size (kind : RecordKind) : Nat :=
  Record.size kind.Carrier

def maxSize : Nat :=
  all.foldl (fun n kind => max n kind.size) 0

end RecordKind

structure SomeRecord where
  kind : RecordKind
  record : kind.Carrier

def encodeAll (records : List SomeRecord) : List UInt8 :=
  records.flatMap fun r => Record.encode r.record

end InvertedIndex
