import InvertedIndex.Engine
import InvertedIndex.Proofs.ChunkedChecksum
import InvertedIndex.Proofs.ElementLayout

/-!
A file of some contents passes every check when it is opened, and its two tables answer what the
contents say.
-/

set_option autoImplicit false
set_option relaxedAutoImplicit false

namespace InvertedIndex

open Outcome (bind_of_ok)

namespace Source.Holds

variable {source : Source} {disk : Disk} {file : List UInt8}

theorem covers (h : source.Holds disk file) : source.Covers disk file := by
  refine ⟨h.intact, ?_⟩
  rw [contents, h.bytes]
  exact List.take_of_length_le h.length.ge

end Source.Holds

namespace Contents

namespace Part

structure Fits (part : Part) : Prop where
  buckets : part.bucketCount ≠ 0
  chains : ∀ chain ∈ ChainTable.chainsOf part.bucketCount.toNat
    (part.keys.zip (offsetsFrom part.start part.elements)), chain.length < 2 ^ 32

variable {part : Part} {file : List UInt8}

theorem elements_standAt (there : StandsAt file part.start part.image) :
    StandsAt file part.start part.elements.flatten :=
  there.left

theorem table_standsAt (there : StandsAt file part.start part.image) :
    StandsAt file part.table (ChainTable.image part.table part.bucketCount
      (part.keys.zip (offsetsFrom part.start part.elements))) :=
  there.right

theorem Fits.result_lookup (fits : part.Fits) {source : Source} {disk : Disk}
    (h : source.Holds disk file) (there : StandsAt file part.start part.image) {α : Type}
    {items : List α} {image : α → List UInt8} {keyOf : α → UInt64}
    (elements : part.elements = items.map image) (keys : part.keys = items.map keyOf)
    (key : UInt64) :
    ∃ entries : List (α × Nat),
      ((⟨source, part.table.toUInt64, part.bucketCount⟩ : ChainTable).lookup disk key).result =
        .ok (entries.map fun entry => entry.2.toUInt64) ∧
      (∀ entry ∈ entries, entry.1 ∈ items ∧ StandsAt file entry.2 (image entry.1)) ∧
      entries.map Prod.fst =
        items.filter fun item => ChainTable.sameBucket part.bucketCount key (keyOf item) := by
  let near : α → Bool := fun item => ChainTable.sameBucket part.bucketCount key (keyOf item)
  refine ⟨(located image part.start items).filter fun entry => near entry.1, ?_, ?_, ?_⟩
  · have offsets := ChainTable.lookup_image h (table_standsAt there) fits.buckets fits.chains key
    rw [offsets, elements, keys, map_sharing]
  · intro entry mem
    have run := elements_standAt there
    rw [elements] at run
    have whole := (List.mem_filter.mp mem).1
    have item := List.mem_map_of_mem (f := Prod.fst) whole
    rw [map_fst_located] at item
    exact ⟨item, standsAt_located run entry whole⟩
  · exact map_fst_filter_located image part.start items near

end Part

/-- Every length of the contents, of their chains and of their image can be written down. -/
structure Fits (contents : Contents) : Prop where
  paths : ∀ document ∈ contents.documents, document.2.utf8ByteSize ≤ 65535
  words : ∀ word ∈ contents.words, word.1.utf8ByteSize ≤ 65535
  postings : ∀ word ∈ contents.words, word.2.length < 2 ^ 32
  documentPart : contents.documentPart.Fits
  wordPart : contents.wordPart.Fits
  size : contents.image.size < 2 ^ 63

def file (contents : Contents) : List UInt8 :=
  Record.encode contents.header ++ contents.body

variable {contents : Contents}

theorem header_standsAt : StandsAt contents.file 0 (Record.encode contents.header) :=
  StandsAt.self.left

theorem body_standsAt : StandsAt contents.file (Record.size FileHeader) contents.body := by
  have there : StandsAt contents.file (0 + (Record.encode contents.header).length) contents.body :=
    StandsAt.self.right
  rwa [LawfulRecord.length_encode, Nat.zero_add] at there

theorem documentPart_standsAt :
    StandsAt contents.file contents.documentPart.start contents.documentPart.image :=
  body_standsAt.left

theorem wordPart_standsAt :
    StandsAt contents.file contents.wordPart.start contents.wordPart.image :=
  body_standsAt.right

theorem length_file : contents.file.length = contents.image.size := by
  rw [image, List.size_toByteArray]
  rfl

variable {source : Source} {disk : Disk} {path : String} {access : Access} {id : FileId}

theorem Fits.holds (fits : contents.Fits) (file : id.isFolder = false)
    (stored : disk.bytes id = contents.image) (path : String) (access : Access) :
    (⟨path, disk.stamp id, access⟩ : Source).Holds disk contents.file := by
  have size := fits.size
  refine ⟨?_, ?_, ?_⟩
  · show (disk.bytes id).data.toList = contents.file
    rw [stored, image, List.data_toByteArray]
    rfl
  · have addressable : (disk.bytes id).size < 2 ^ 64 := by rw [stored]; omega
    have length := Source.length_stamp file addressable
    rw [stored] at length
    exact length.trans length_file.symm
  · rw [length_file]
    exact size

def documentsIn (contents : Contents) (source : Source) : DocumentTable :=
  ⟨⟨source, contents.header.documentTable, contents.documentBuckets⟩⟩

def wordsIn (contents : Contents) (source : Source) : WordTable :=
  ⟨⟨source, contents.header.wordTable, contents.wordBuckets⟩⟩

theorem Fits.result_lookup_document (fits : contents.Fits) (h : source.Holds disk contents.file)
    (id : DocumentId) :
    ((contents.documentsIn source).lookup disk id).result = .ok (contents.path? id) := by
  obtain ⟨entries, found, there, items⟩ :=
    fits.documentPart.result_lookup h contents.documentPart_standsAt rfl rfl (DocumentTable.keyOf id)
  have short : ∀ entry ∈ entries, entry.1.2.utf8ByteSize < 2 ^ 16 := by
    intro entry mem
    have size := fits.paths entry.1 (there entry mem).1
    omega
  simp only [DocumentTable.lookup, Logged.result_bind, Logged.result_lift]
  refine (bind_of_ok found _).trans ?_
  have standing := fun entry mem => (there entry mem).2
  rw [DocumentTable.search_of_standsAt h _ rfl id standing short, items, lookup_filter, path?]
  intro document _ same
  simp [ChainTable.sameBucket, same]

theorem Fits.result_lookup_word (fits : contents.Fits) (h : source.Holds disk contents.file)
    (word : String) :
    ((contents.wordsIn source).lookup disk word).result = .ok (contents.postings? word) := by
  obtain ⟨entries, found, there, items⟩ :=
    fits.wordPart.result_lookup h contents.wordPart_standsAt rfl rfl (WordTable.keyOf word)
  have short : ∀ entry ∈ entries, entry.1.1.utf8ByteSize < 2 ^ 16 := by
    intro entry mem
    have size := fits.words entry.1 (there entry mem).1
    omega
  have few : ∀ entry ∈ entries, entry.1.2.length < 2 ^ 32 :=
    fun entry mem => fits.postings entry.1 (there entry mem).1
  simp only [WordTable.lookup, Logged.result_bind, Logged.result_lift]
  refine (bind_of_ok found _).trans ?_
  have standing := fun entry mem => (there entry mem).2
  rw [WordTable.search_of_standsAt h _ rfl word standing short few, items, lookup_filter, postings?]
  intro entry _ same
  simp [ChainTable.sameBucket, same]

theorem Part.ensureRegion {part : Part} (there : StandsAt contents.file part.start part.image)
    (h : source.Holds disk contents.file) (behind : Record.size FileHeader ≤ part.start)
    (region : Region) :
    IndexFile.ensureRegion region part.table.toUInt64 source.length = .ok () := by
  have header := (ChainTable.parts_standAt (table_standsAt there)).1
  have inside := header.length_le
  rw [LawfulRecord.length_encode] at inside
  have start : part.start ≤ part.table := Nat.le_add_right _ _
  have place := h.toNat_toUInt64 (n := part.table) (by omega)
  have room : Record.size FileHeader ≤ part.table.toUInt64.toNat ∧
      part.table.toUInt64.toNat + Record.size TableHeader ≤ source.length.toNat := by
    rw [place, h.length]
    omega
  exact if_pos room

theorem Fits.result_openPath (fits : contents.Fits) {location : Location}
    (found : disk.find path = .ok (location, id)) (stored : disk.bytes id = contents.image)
    (strict : Bool) (access : Access) :
    (IndexFile.openPath disk path strict access).result =
      .ok ⟨path, contents.header, disk.stamp id, access⟩ := by
  have h := fits.holds (Disk.target_of_find found).2 stored path access
  have opened : Source.openPath disk path access = .ok ⟨path, disk.stamp id, access⟩ :=
    Source.openPath_of_find found access
  have header := h.fetch header_standsAt
  have magic : IndexFile.ensureMagic path contents.header strict = pure () := if_pos rfl
  have documents : IndexFile.ensureRegion .documents contents.header.documentTable
      (Source.length ⟨path, disk.stamp id, access⟩) = .ok () :=
    Part.ensureRegion documentPart_standsAt h (Nat.le_refl _) .documents
  have words : IndexFile.ensureRegion .words contents.header.wordTable
      (Source.length ⟨path, disk.stamp id, access⟩) = .ok () :=
    Part.ensureRegion wordPart_standsAt h (Nat.le_add_right _ _) .words
  have body : contents.file.drop (Record.size FileHeader) = contents.body := by
    have length := LawfulRecord.length_encode contents.header
    rw [file, ← length, List.drop_left]
  have checksum : IndexFile.ensureChecksum ⟨path, disk.stamp id, access⟩ disk contents.header strict =
      .ok () := by
    have taken := h.covers.checksum
    rw [body] at taken
    unfold IndexFile.ensureChecksum
    cases strict with
    | false => rfl
    | true =>
      refine (bind_of_ok taken _).trans ?_
      exact if_pos rfl
  simp only [IndexFile.openPath, Logged.result_bind, Logged.result_lift, Logged.result_report,
    Logged.result_pure]
  refine (bind_of_ok opened _).trans ?_
  refine (bind_of_ok header _).trans ?_
  rw [magic]
  refine (bind_of_ok documents _).trans ?_
  refine (bind_of_ok words _).trans ?_
  exact bind_of_ok checksum _

theorem Part.reopen {part : Part} (fits : part.Fits) {index : IndexFile}
    (there : StandsAt contents.file part.start part.image) {location : Location}
    (found : disk.find index.path = .ok (location, id)) (unchanged : index.stamp = disk.stamp id)
    (h : (⟨index.path, disk.stamp id, index.access⟩ : Source).Holds disk contents.file) :
    index.reopen disk part.table.toUInt64 =
      .ok ⟨⟨index.path, disk.stamp id, index.access⟩, part.table.toUInt64, part.bucketCount⟩ := by
  have opened : Source.openPath disk index.path index.access =
      .ok ⟨index.path, disk.stamp id, index.access⟩ :=
    Source.openPath_of_find found index.access
  have same : ¬disk.stamp id ≠ index.stamp := fun changed => changed unchanged.symm
  refine (bind_of_ok opened _).trans ?_
  simp only [if_neg same]
  exact ChainTable.openAt_image h (table_standsAt there) fits.buckets

end Contents

namespace OpenIndex

variable {contents : Contents} {disk : Disk} {path : String} {id : FileId}

structure Serves (index : OpenIndex) (disk : Disk) (contents : Contents) : Prop where
  documents : ∀ id, (index.documents.lookup disk id).result = .ok (contents.path? id)
  words : ∀ word, (index.words.lookup disk word).result = .ok (contents.postings? word)

theorem serves_of_openPath (fits : contents.Fits) {location : Location}
    (found : disk.find path = .ok (location, id)) (stored : disk.bytes id = contents.image)
    (strict : Bool) (access : Access) :
    ∃ index, (openPath disk path strict access).result = .ok index ∧
      index.Serves disk contents := by
  have h := fits.holds (Disk.target_of_find found).2 stored path access
  let file : IndexFile := ⟨path, contents.header, disk.stamp id, access⟩
  let source : Source := ⟨path, disk.stamp id, access⟩
  have checked := fits.result_openPath found stored strict access
  have reopen : ∀ part : Contents.Part, part.Fits →
      StandsAt contents.file part.start part.image →
      file.reopen disk part.table.toUInt64 =
        .ok ⟨source, part.table.toUInt64, part.bucketCount⟩ :=
    fun part hpart there => Contents.Part.reopen hpart there found rfl h
  have documents : file.openDocuments disk = .ok (contents.documentsIn source) :=
    bind_of_ok (reopen contents.documentPart fits.documentPart Contents.documentPart_standsAt) _
  have words : file.openWords disk = .ok (contents.wordsIn source) :=
    bind_of_ok (reopen contents.wordPart fits.wordPart Contents.wordPart_standsAt) _
  refine ⟨⟨path, contents.documentsIn source, contents.wordsIn source⟩, ?_, ?_, ?_⟩
  · simp only [openPath, Logged.result_bind, Logged.result_lift, Logged.result_pure]
    refine (bind_of_ok checked _).trans ?_
    refine (bind_of_ok documents _).trans ?_
    exact bind_of_ok words _
  · exact fits.result_lookup_document h
  · exact fits.result_lookup_word h

end OpenIndex

end InvertedIndex
