import InvertedIndex.Contents.Basic
import InvertedIndex.Hash.Crc32
import InvertedIndex.WordTable

/-!
Contents laid out as the bytes of an index file: the documents and their table, then the words and
their table.
-/

set_option autoImplicit false
set_option relaxedAutoImplicit false

namespace InvertedIndex

namespace ChainTable

/-- The chains of a table: for each bucket the offsets of the elements whose keys belong to it. -/
def chainsOf (bucketCount : Nat) (elements : List (UInt64 × Nat)) : List (List Nat) :=
  (List.range bucketCount).map fun bucket =>
    (elements.filter fun element => element.1.toNat % bucketCount = bucket).map Prod.snd

def slotsFrom (start : Nat) : List (List Nat) → List Slot
  | [] => []
  | chain :: rest =>
    ⟨chain.length.toUInt32, start.toUInt64⟩ ::
      slotsFrom (start + chain.length * Record.size Link) rest

/-- The bytes of a table that starts at `base`, of elements given by key and offset. -/
def image (base : Nat) (bucketCount : UInt32) (elements : List (UInt64 × Nat)) : List UInt8 :=
  let chains := chainsOf bucketCount.toNat elements
  let start := base + Record.size TableHeader + bucketCount.toNat * Record.size Slot
  Record.encode (⟨bucketCount⟩ : TableHeader) ++
    (slotsFrom start chains).flatMap Record.encode ++
    chains.flatten.flatMap fun offset => Record.encode (⟨offset.toUInt64⟩ : Link)

end ChainTable

namespace Contents

def documentImage (document : DocumentId × String) : List UInt8 :=
  Record.encode (⟨document.1, document.2.utf8ByteSize.toUInt16⟩ : DocumentHeader) ++
    document.2.toUTF8.data.toList

def wordImage (word : String × List Posting) : List UInt8 :=
  Record.encode (⟨word.1.utf8ByteSize.toUInt16, word.2.length.toUInt32⟩ : WordHeader) ++
    word.1.toUTF8.data.toList ++ word.2.flatMap Record.encode

def offsetsFrom (start : Nat) : List (List UInt8) → List Nat
  | [] => []
  | run :: rest => start :: offsetsFrom (start + run.length) rest

/-- Elements that start at `start`, and then the table of them. -/
structure Part where
  start : Nat
  elements : List (List UInt8)
  keys : List UInt64
  bucketCount : UInt32

namespace Part

def table (part : Part) : Nat :=
  part.start + part.elements.flatten.length

def image (part : Part) : List UInt8 :=
  part.elements.flatten ++
    ChainTable.image part.table part.bucketCount
      (part.keys.zip (offsetsFrom part.start part.elements))

end Part

def documentPart (contents : Contents) : Part :=
  { start := Record.size FileHeader
    elements := contents.documents.map documentImage
    keys := contents.documents.map fun document => DocumentTable.keyOf document.1
    bucketCount := contents.documentBuckets }

def wordPart (contents : Contents) : Part :=
  { start := Record.size FileHeader + contents.documentPart.image.length
    elements := contents.words.map wordImage
    keys := contents.words.map fun word => WordTable.keyOf word.1
    bucketCount := contents.wordBuckets }

def body (contents : Contents) : List UInt8 :=
  contents.documentPart.image ++ contents.wordPart.image

def header (contents : Contents) : FileHeader :=
  { magic := magicNumber
    checksum := Crc32.digest contents.body
    documentTable := contents.documentPart.table.toUInt64
    wordTable := contents.wordPart.table.toUInt64 }

def image (contents : Contents) : ByteArray :=
  (Record.encode contents.header ++ contents.body).toByteArray

/-- One document and three words, two of which share a bucket; a posting occurs twice, and another is
for a document that is not there. -/
def sample : Contents :=
  { documents := [(1, "x")]
    words := [("a", [⟨1, 3⟩, ⟨1, 9⟩]), ("b", [⟨1, 4⟩, ⟨7, 2⟩]), ("c", [])]
    documentBuckets := 2
    wordBuckets := 2 }

end Contents

/-- A disk with the sample and a copy that ends before the last link of the sample. -/
def sampleDisk : Disk :=
  { objects := #[⟨Contents.sample.image, 0⟩, ⟨Contents.sample.image.extract 0 184, 0⟩]
    folders := []
    names := [(["whole"], 0), (["cut"], 1)] }

theorem sampleDisk_addressable (id : FileId) : (sampleDisk.bytes id).size < UInt64.size := by
  match id with
  | .file 0 | .file 1 => decide +kernel
  | .file (_ + 2) | .folder _ => simp [sampleDisk, Disk.bytes, Disk.object?, UInt64.size]

end InvertedIndex
