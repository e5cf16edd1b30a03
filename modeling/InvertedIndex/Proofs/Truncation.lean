import InvertedIndex.Proofs.Query
import InvertedIndex.Proofs.SameReads

/-!
What is read from a file whose end is missing is what the whole file holds there, or a fault; every
step from there on goes by what was read.
-/

set_option autoImplicit false
set_option relaxedAutoImplicit false

namespace InvertedIndex

open Outcome (Leads)

/-- The same names lead to files that hold beginnings of what they hold on the whole disk. The length
of a file is a machine word there. -/
structure Disk.CutFrom (cut whole : Disk) : Prop where
  names : cut.names = whole.names
  folders : cut.folders = whole.folders
  home : cut.home = whole.home
  folderState : cut.folderState = whole.folderState
  begins : ∀ id, (cut.bytes id).data.toList <+: (whole.bytes id).data.toList
  addressable : ∀ id, (whole.bytes id).size < 2 ^ 64

/-- What is read from a part is read from the whole source as well. -/
structure Source.PartOf (part : Source) (cut : Disk) (source : Source) (whole : Disk) : Prop where
  length_le : part.length.toNat ≤ source.length.toNat
  read : ∀ offset length, Leads Eq (part.read cut offset length) (source.read whole offset length)

/-- Two tables of one place and one number of buckets, on a part and on the whole of a source. -/
structure ChainTable.PartOf (part : ChainTable) (cut : Disk) (table : ChainTable) (whole : Disk) :
    Prop where
  source : part.source.PartOf cut table.source whole
  base : part.base = table.base
  bucketCount : part.bucketCount = table.bucketCount

variable {cut whole : Disk}

private theorem extract_eq {small large : ByteArray} (h : small.data.toList <+: large.data.toList)
    {start length : Nat} (fits : start + length ≤ small.size) :
    small.extract start (start + length) = large.extract start (start + length) := by
  obtain ⟨rest, hrest⟩ := h
  have hsize : small.data.toList.length = small.size := by simp
  apply ByteArray.ext
  apply Array.toList_inj.mp
  rw [toList_extract, toList_extract, ← hrest, List.drop_append_of_le_length (by omega),
    List.take_append_of_le_length (by rw [List.length_drop]; omega)]

namespace Source.PartOf

variable {part source : Source}

theorem of_begins (cutIntact : part.Intact cut) (wholeIntact : source.Intact whole)
    (length_le : part.length.toNat ≤ source.length.toNat)
    (begins : (part.bytes cut).data.toList <+: (source.bytes whole).data.toList) :
    part.PartOf cut source whole := by
  refine ⟨length_le, fun offset length bytes hbytes => ?_⟩
  rw [read_eq cutIntact] at hbytes
  rw [read_eq wholeIntact]
  by_cases fits : offset.toNat + length.toNat ≤ part.length.toNat
  · rw [if_pos fits, Except.ok.injEq] at hbytes
    rw [if_pos (by omega), ← hbytes]
    refine ⟨_, rfl, ?_⟩
    have now : offset.toNat + length.toNat ≤ (part.bytes cut).size := by
      unfold Intact at cutIntact
      omega
    exact extract_eq begins now
  · rw [if_neg fits] at hbytes
    cases hbytes

theorem ensureExtent (h : part.PartOf cut source whole) (offset : Offset) (length : UInt64) :
    Leads Eq (part.ensureExtent offset length) (source.ensureExtent offset length) := by
  intro u hu
  have hle := h.length_le
  have fits := ensureExtent_eq_ok.mp hu
  exact ⟨u, ensureExtent_eq_ok.mpr (by omega), rfl⟩

theorem readWithin (h : part.PartOf cut source whole) (offset : Offset) (length : UInt64) :
    Leads Eq (part.readWithin cut offset length) (source.readWithin whole offset length) :=
  (h.ensureExtent offset length).bind_eq fun _ => h.read offset length

theorem fetch (h : part.PartOf cut source whole) (α : Type) [Record α] (offset : Offset) :
    Leads Eq (part.fetch α cut offset) (source.fetch α whole offset) :=
  (h.read offset _).bind_eq fun _ => Leads.refl

theorem fetchRun (h : part.PartOf cut source whole) (α : Type) [Record α] (start : Offset)
    (count : Nat) : Leads Eq (part.fetchRun α cut start count) (source.fetchRun α whole start count) :=
  Leads.mapM_eq fun _ => h.fetch α _

/-- A check that names a fault of its own goes through on the whole source if it does on the part. -/
theorem ensuring (h : part.PartOf cut source whole) {α : Type} {offset : Offset} {length : UInt64}
    {fault other : Fault} {x y : Except Fault α} (rest : Leads Eq x y) :
    Leads Eq
      (match part.ensureExtent offset length with
        | .error _ => .error fault
        | .ok () => x)
      (match source.ensureExtent offset length with
        | .error _ => .error other
        | .ok () => y) := by
  rcases Outcome.error_or_ok (part.ensureExtent offset length) with ⟨truncated, hpart⟩ | ⟨u, hpart⟩
  · rw [hpart]
    exact Leads.error _ _
  · obtain ⟨v, hsource, -⟩ := h.ensureExtent offset length u hpart
    rw [hpart, hsource]
    exact rest

end Source.PartOf

namespace ChainTable.PartOf

variable {part table : ChainTable}

theorem openAt {part source : Source} (h : part.PartOf cut source whole) (base : Offset) :
    Leads (fun part table => part.PartOf cut table whole) (ChainTable.openAt part cut base)
      (ChainTable.openAt source whole base) := by
  unfold ChainTable.openAt
  refine (h.fetch TableHeader base).bind fun header header' same => ?_
  subst same
  by_cases zero : header.bucketCount = 0
  · simp only [zero, if_true]
    exact Leads.error _ _
  · simp only [if_neg zero]
    refine (h.ensureExtent _ _).bind fun _ _ _ => ?_
    exact Leads.ok ⟨h, rfl, rfl⟩

theorem chain (h : part.PartOf cut table whole) (bucket : UInt64) (slot : Slot) :
    Leads Eq (part.chain cut bucket slot) (table.chain whole bucket slot) := by
  unfold ChainTable.chain
  by_cases empty : slot.chainLength = 0
  · simp only [empty, if_true]
    exact Leads.refl
  · simp only [if_neg empty]
    apply h.source.ensuring
    exact (h.source.fetchRun Link _ _).bind_eq fun _ => Leads.refl

theorem lookup (h : part.PartOf cut table whole) (key : UInt64) :
    Leads Eq (part.lookup cut key).result (table.lookup whole key).result := by
  have bucket : part.bucketOf key = table.bucketOf key := by
    rw [bucketOf, bucketOf, h.bucketCount]
  have place : part.slotAt (table.bucketOf key) = table.slotAt (table.bucketOf key) := by
    rw [slotAt, slotAt, h.base]
  simp only [ChainTable.lookup, Logged.result_bind, Logged.result_lift, Logged.result_report, bucket,
    place]
  refine (h.source.fetch Slot _).bind_eq fun slot => ?_
  exact h.chain _ slot

end ChainTable.PartOf

namespace DocumentTable

variable {part table : DocumentTable}

theorem search_partOf (h : part.buckets.PartOf cut table.buckets whole) (id : DocumentId)
    (offsets : List Offset) :
    Leads Eq (part.search cut id offsets) (table.search whole id offsets) := by
  induction offsets with
  | nil => exact Leads.refl
  | cons offset rest ih =>
    unfold search
    refine (h.source.fetch DocumentHeader offset).bind_eq fun header => ?_
    by_cases other : header.id ≠ id
    · simp only [if_pos other]
      exact ih
    · simp only [if_neg other]
      refine (h.source.readWithin _ _).bind_eq fun bytes => ?_
      cases String.fromUTF8? bytes with
      | none => exact Leads.error _ _
      | some path => exact Leads.refl

theorem lookup_partOf (h : part.buckets.PartOf cut table.buckets whole) (id : DocumentId) :
    Leads Eq (part.lookup cut id).result (table.lookup whole id).result := by
  simp only [lookup, Logged.result_bind, Logged.result_lift]
  exact (h.lookup _).bind_eq fun offsets => search_partOf h id offsets

theorem resolve_partOf (h : part.buckets.PartOf cut table.buckets whole) (id : DocumentId)
    (strict : Bool) :
    Leads Eq (part.resolve cut id strict).result (table.resolve whole id strict).result := by
  simp only [resolve, Logged.result_bind]
  exact (lookup_partOf h id).bind_eq fun _ => Leads.refl

end DocumentTable

namespace WordTable

variable {part table : WordTable}

theorem search_partOf (h : part.buckets.PartOf cut table.buckets whole) (word : String)
    (offsets : List Offset) :
    Leads Eq (part.search cut word offsets) (table.search whole word offsets) := by
  induction offsets with
  | nil => exact Leads.refl
  | cons offset rest ih =>
    unfold search
    refine (h.source.fetch WordHeader offset).bind_eq fun header => ?_
    by_cases shape : header.wordLength.toNat ≠ word.utf8ByteSize
    · simp only [if_pos shape]
      exact ih
    · simp only [if_neg shape]
      refine (h.source.readWithin _ _).bind_eq fun stored => ?_
      by_cases other : stored ≠ word.toUTF8
      · simp only [if_pos other]
        exact ih
      · simp only [if_neg other]
        apply h.source.ensuring
        exact (h.source.fetchRun Posting _ _).bind_eq fun _ => Leads.refl

theorem lookup_partOf (h : part.buckets.PartOf cut table.buckets whole) (word : String) :
    Leads Eq (part.lookup cut word).result (table.lookup whole word).result := by
  simp only [lookup, Logged.result_bind, Logged.result_lift]
  exact (h.lookup _).bind_eq fun offsets => search_partOf h word offsets

theorem narrowBy_partOf (h : part.buckets.PartOf cut table.buckets whole) (candidates : List Match)
    (words : List String) :
    Leads Eq (part.narrowBy cut candidates words).result
      (table.narrowBy whole candidates words).result := by
  induction words generalizing candidates with
  | nil =>
    simp only [narrowBy]
    exact Leads.refl
  | cons word rest ih =>
    by_cases left : candidates = []
    · subst left
      rw [result_narrowBy_nil, result_narrowBy_nil]
      exact Leads.refl
    · rw [result_narrowBy_cons left, result_narrowBy_cons left]
      refine (lookup_partOf h word).bind_eq fun found => ?_
      cases found with
      | none => exact Leads.refl
      | some postings => exact ih _

theorem matching_partOf (h : part.buckets.PartOf cut table.buckets whole) (words : List String) :
    Leads Eq (part.matching cut words).result (table.matching whole words).result := by
  cases words with
  | nil => exact Leads.refl
  | cons word rest =>
    rw [result_matching_cons, result_matching_cons]
    refine (lookup_partOf h word).bind_eq fun found => ?_
    cases found with
    | none => exact Leads.refl
    | some postings => exact narrowBy_partOf h _ rest

end WordTable

namespace Disk.CutFrom

theorem refl {disk : Disk} (addressable : ∀ id, (disk.bytes id).size < 2 ^ 64) :
    disk.CutFrom disk :=
  ⟨rfl, rfl, rfl, rfl, fun _ => List.prefix_rfl, addressable⟩

theorem store (h : cut.CutFrom whole) {number : Nat} {bytes : ByteArray} (modified : Int)
    (begins : bytes.data.toList <+: (whole.bytes (.file number)).data.toList) :
    (cut.store number ⟨bytes, modified⟩).CutFrom whole := by
  refine ⟨h.names, h.folders, h.home, h.folderState, fun id => ?_, h.addressable⟩
  cases id with
  | folder location => exact List.nil_prefix
  | file other =>
    have now := h.begins (.file other)
    rw [Disk.bytes, Disk.object?, Disk.store, Array.getElem?_setIfInBounds]
    by_cases same : number = other
    · subst same
      rw [if_pos rfl]
      split
      · exact begins
      · exact List.nil_prefix
    · rw [if_neg same]
      exact now

private theorem walk_eq (h : cut.CutFrom whole) (here : Location) (parts : List String) :
    cut.walk here parts = whole.walk here parts := by
  induction parts generalizing here with
  | nil => rfl
  | cons part rest ih => simp only [walk, h.names, h.folders, ih]

theorem target_eq (h : cut.CutFrom whole) (path : String) : cut.target path = whole.target path := by
  have same : cut.place path = whole.place path := by
    simp only [place, origin, h.home, h.walk_eq]
  simp only [target, same]

private theorem stamp_folder (h : cut.CutFrom whole) (location : Location) :
    cut.stamp (.folder location) = whole.stamp (.folder location) := by
  simp only [Disk.stamp, Disk.modified, Disk.length, h.folderState]

private theorem stamp_length_le (h : cut.CutFrom whole) (number : Nat) :
    (cut.stamp (.file number)).length.toNat ≤ (whole.stamp (.file number)).length.toNat := by
  have hle : (cut.bytes (.file number)).size ≤ (whole.bytes (.file number)).size := by
    simpa using (h.begins (.file number)).length_le
  have hlt := h.addressable (.file number)
  rwa [Source.length_stamp rfl (by omega), Source.length_stamp rfl hlt]

theorem openPath (h : cut.CutFrom whole) (path : String) (access : Access) :
    Leads (fun part source => part.PartOf cut source whole ∧ ∃ id, cut.target path = .ok id ∧
        part.stamp = cut.stamp id ∧ source.stamp = whole.stamp id)
      (Source.openPath cut path access) (Source.openPath whole path access) := by
  intro part hpart
  obtain ⟨id, htarget, rfl⟩ := Source.eq_of_openPath hpart
  cases id with
  | file number =>
    have hwhole : Source.openPath whole path access = .ok ⟨path, whole.stamp (.file number), access⟩ :=
      Source.openPath_of_target (h.target_eq path ▸ htarget) rfl access
    refine ⟨_, hwhole, ?_, .file number, htarget, rfl, rfl⟩
    exact Source.PartOf.of_begins (Source.intact_of_openPath hpart rfl)
      (Source.intact_of_openPath hwhole rfl) (h.stamp_length_le number) (h.begins _)
  | folder location =>
    have hstamp := h.stamp_folder location
    have hwhole : Source.openPath whole path access = Source.openPath cut path access :=
      Source.openPath_congr (h.target_eq path ▸ htarget) htarget hstamp.symm
    refine ⟨_, hwhole.trans hpart, ⟨Nat.le_refl _, fun offset length => ?_⟩, .folder location, htarget,
      rfl, hstamp⟩
    have reads : Source.ReadsAs ⟨path, cut.stamp (.folder location), access⟩ cut
        ⟨path, cut.stamp (.folder location), access⟩ whole := .of_bytes rfl
    rw [reads.read]
    exact Leads.refl

end Disk.CutFrom

namespace IndexFile

structure PartOf (part : IndexFile) (cut : Disk) (file : IndexFile) (whole : Disk) : Prop where
  path : part.path = file.path
  access : part.access = file.access
  header : part.header = file.header
  stamp : ∃ id, cut.target part.path = .ok id ∧ file.stamp = whole.stamp id

variable {part file : IndexFile}

theorem result_openPath (disk : Disk) (path : String) (access : Access) :
    (openPath disk path false access).result =
      Source.openPath disk path access >>= fun source =>
        source.fetch FileHeader disk 0 >>= fun header =>
          ensureRegion .documents header.documentTable source.length >>= fun _ =>
            ensureRegion .words header.wordTable source.length >>= fun _ =>
              .ok ⟨path, header, source.stamp, access⟩ := by
  have magic : ∀ header, (ensureMagic path header false).result = .ok () := by
    intro header
    unfold ensureMagic
    split <;> rfl
  simp only [openPath, Logged.result_bind, Logged.result_lift, Logged.result_report,
    Logged.result_pure, magic]
  rfl

theorem ensureRegion_partOf {shorter longer : UInt64} (hle : shorter.toNat ≤ longer.toNat)
    (region : Region) (offset : Offset) :
    Leads Eq (ensureRegion region offset shorter) (ensureRegion region offset longer) := by
  unfold ensureRegion
  by_cases inside : Record.size FileHeader ≤ offset.toNat ∧
      offset.toNat + Record.size TableHeader ≤ shorter.toNat
  · rw [if_pos inside, if_pos ⟨inside.1, by omega⟩]
    exact Leads.refl
  · rw [if_neg inside]
    exact Leads.error _ _

theorem openPath_partOf (h : cut.CutFrom whole) (path : String) (access : Access) :
    Leads (fun part file => part.PartOf cut file whole) (openPath cut path false access).result
      (openPath whole path false access).result := by
  rw [result_openPath, result_openPath]
  refine (h.openPath path access).bind fun part source hpart => ?_
  obtain ⟨hread, id, htarget, -, hstamp⟩ := hpart
  refine (hread.fetch FileHeader 0).bind fun header header' same => ?_
  subst same
  refine (ensureRegion_partOf hread.length_le _ _).bind fun _ _ _ => ?_
  refine (ensureRegion_partOf hread.length_le _ _).bind fun _ _ _ => ?_
  exact Leads.ok ⟨rfl, rfl, rfl, id, htarget, hstamp⟩

theorem reopen_partOf (h : cut.CutFrom whole) (hfile : part.PartOf cut file whole) (base : Offset) :
    Leads (fun part table => part.PartOf cut table whole) (part.reopen cut base)
      (file.reopen whole base) := by
  unfold reopen
  rw [← hfile.path, ← hfile.access]
  refine (h.openPath part.path part.access).bind fun source source' hsource => ?_
  obtain ⟨hread, id, htarget, -, hstamp⟩ := hsource
  obtain ⟨id', htarget', hstamp'⟩ := hfile.stamp
  cases htarget.symm.trans htarget'
  -- The whole file has not changed since it was checked, whatever became of the cut one.
  have unchanged : ¬source'.stamp ≠ file.stamp := by
    rw [hstamp, hstamp']
    exact fun changed => changed rfl
  by_cases changed : source.stamp ≠ part.stamp
  · simp only [if_pos changed]
    exact Leads.error _ _
  · simp only [if_neg changed, if_neg unchanged]
    exact ChainTable.PartOf.openAt hread base

theorem openDocuments_partOf (h : cut.CutFrom whole) (hfile : part.PartOf cut file whole) :
    Leads (fun part table => part.buckets.PartOf cut table.buckets whole) (part.openDocuments cut)
      (file.openDocuments whole) := by
  unfold openDocuments
  rw [← hfile.header]
  exact (reopen_partOf h hfile _).bind fun _ _ htable => Leads.ok htable

theorem openWords_partOf (h : cut.CutFrom whole) (hfile : part.PartOf cut file whole) :
    Leads (fun part table => part.buckets.PartOf cut table.buckets whole) (part.openWords cut)
      (file.openWords whole) := by
  unfold openWords
  rw [← hfile.header]
  exact (reopen_partOf h hfile _).bind fun _ _ htable => Leads.ok htable

end IndexFile

/-- Whatever a table on the cut disk answers, be it asked for a chain, a document, a name or a word,
the table on the whole disk answers too. -/
structure ChainTable.AnswersAs (part : ChainTable) (cut : Disk) (table : ChainTable) (whole : Disk) :
    Prop where
  base : part.base = table.base
  bucketCount : part.bucketCount = table.bucketCount
  chain : ∀ key, Leads Eq (part.lookup cut key).result (table.lookup whole key).result
  document : ∀ id, Leads Eq ((⟨part⟩ : DocumentTable).lookup cut id).result
    ((⟨table⟩ : DocumentTable).lookup whole id).result
  name : ∀ id strict, Leads Eq ((⟨part⟩ : DocumentTable).resolve cut id strict).result
    ((⟨table⟩ : DocumentTable).resolve whole id strict).result
  postings : ∀ word, Leads Eq ((⟨part⟩ : WordTable).lookup cut word).result
    ((⟨table⟩ : WordTable).lookup whole word).result

theorem ChainTable.PartOf.answersAs {part table : ChainTable} (h : part.PartOf cut table whole) :
    part.AnswersAs cut table whole :=
  { base := h.base
    bucketCount := h.bucketCount
    chain := h.lookup
    document := DocumentTable.lookup_partOf h
    name := DocumentTable.resolve_partOf h
    postings := WordTable.lookup_partOf h }

namespace OpenIndex

structure PartOf (part : OpenIndex) (cut : Disk) (index : OpenIndex) (whole : Disk) : Prop where
  documents : part.documents.buckets.PartOf cut index.documents.buckets whole
  words : part.words.buckets.PartOf cut index.words.buckets whole

theorem openPath_partOf (h : cut.CutFrom whole) (path : String) (access : Access) :
    Leads (fun part index => part.PartOf cut index whole) (openPath cut path false access).result
      (openPath whole path false access).result := by
  simp only [openPath, Logged.result_bind, Logged.result_lift, Logged.result_pure]
  refine (IndexFile.openPath_partOf h path access).bind fun part file hfile => ?_
  refine (IndexFile.openDocuments_partOf h hfile).bind fun _ _ hdocuments => ?_
  refine (IndexFile.openWords_partOf h hfile).bind fun _ _ hwords => ?_
  exact Leads.ok ⟨hdocuments, hwords⟩

theorem rows_partOf {part index : OpenIndex} (h : part.PartOf cut index whole) (strict : Bool)
    (words : List String) :
    Leads Eq (part.rows cut strict words).result (index.rows whole strict words).result := by
  rw [result_rows, result_rows]
  refine (WordTable.matching_partOf h.words words).bind_eq fun found => ?_
  refine Leads.mapM_eq fun entry => ?_
  rw [result_row, result_row]
  exact (DocumentTable.resolve_partOf h.documents entry.id strict).bind_eq fun _ => Leads.refl

end OpenIndex

namespace Engine

structure PartOf (part : Engine) (cut : Disk) (engine : Engine) (whole : Disk) : Prop where
  indexes : List.Forall₂ (fun (part index : OpenIndex) => part.PartOf cut index whole) part.indexes
    engine.indexes
  strict : part.strict = engine.strict

theorem start_partOf (h : cut.CutFrom whole) (paths : List String) (mapped : Bool) :
    Leads (fun part engine => part.PartOf cut engine whole) (start cut ⟨paths, false, mapped⟩).result
      (start whole ⟨paths, false, mapped⟩).result := by
  simp only [start, Logged.result_bind, Logged.result_lift, Logged.result_report, Logged.result_mapM]
  refine Leads.refl.bind fun _ _ _ => ?_
  refine (Leads.mapM_same fun path => ?_).bind fun _ _ hindexes => Leads.ok ⟨hindexes, rfl⟩
  exact OpenIndex.openPath_partOf h path _

theorem query_partOf {part engine : Engine} (h : part.PartOf cut engine whole)
    (words : List String) :
    Leads Eq (part.query cut words).result (engine.query whole words).result := by
  by_cases nonempty : words = []
  · subst nonempty
    exact Leads.error _ _
  · rw [result_query part cut nonempty, result_query engine whole nonempty, h.strict]
    have answered := Leads.mapM h.indexes fun _ _ hindex =>
      OpenIndex.rows_partOf hindex engine.strict words
    rw [List.forall₂_eq_eq_eq] at answered
    exact answered.bind_eq fun _ => Leads.refl

/-- Where files are cut off, lenient opening and every answer is what it is with the whole files, or
a fault. -/
theorem cut_files_never_answer_differently (truncated : cut.CutFrom whole) :
    (∀ path access base, Leads (fun part table => part.AnswersAs cut table whole)
      (Source.openPath cut path access >>= fun source => ChainTable.openAt source cut base)
      (Source.openPath whole path access >>= fun source => ChainTable.openAt source whole base)) ∧
    (∀ path access, Leads (fun part file => part.header = file.header ∧
        Leads (fun part table => part.buckets.AnswersAs cut table.buckets whole)
          (part.openDocuments cut) (file.openDocuments whole) ∧
        Leads (fun part table => part.buckets.AnswersAs cut table.buckets whole)
          (part.openWords cut) (file.openWords whole))
      (IndexFile.openPath cut path false access).result
      (IndexFile.openPath whole path false access).result) ∧
    (∀ paths mapped, Leads (fun part engine => ∀ words,
        Leads Eq (part.query cut words).result (engine.query whole words).result)
      (start cut ⟨paths, false, mapped⟩).result (start whole ⟨paths, false, mapped⟩).result) := by
  refine ⟨?_, ?_, ?_⟩
  · intro path access base
    refine (truncated.openPath path access).bind fun part source hsource => ?_
    exact (ChainTable.PartOf.openAt hsource.1 base).imp fun _ _ htable => htable.answersAs
  · intro path access
    refine (IndexFile.openPath_partOf truncated path access).imp fun part file hfile => ?_
    refine ⟨hfile.header, ?_, ?_⟩
    · exact (IndexFile.openDocuments_partOf truncated hfile).imp fun _ _ htable => htable.answersAs
    · exact (IndexFile.openWords_partOf truncated hfile).imp fun _ _ htable => htable.answersAs
  · intro paths mapped
    exact (start_partOf truncated paths mapped).imp fun _ _ hengine words =>
      query_partOf hengine words

theorem cut_files_never_answer_differently_sample :
    ∃ cut part engine, cut.CutFrom sampleDisk ∧
      (start cut ⟨["whole"], false, true⟩).result = .ok part ∧
      (start sampleDisk ⟨["whole"], false, true⟩).result = .ok engine ∧
      (part.query cut ["a"]).result = .ok [⟨"x", 3⟩] ∧
      (engine.query sampleDisk ["a"]).result = .ok [⟨"x", 3⟩] ∧
      (part.query cut ["b"]).result = .error (.corruption (.chainOverrun "whole" 1 1 184)) := by
  let cut := sampleDisk.store 0 ⟨(sampleDisk.bytes (.file 0)).extract 0 184, 0⟩
  have truncated : cut.CutFrom sampleDisk := by
    apply (Disk.CutFrom.refl sampleDisk_addressable).store
    rw [← Nat.zero_add 184, toList_extract, List.drop_zero]
    exact List.take_prefix _ _
  have answered : ((start cut ⟨["whole"], false, true⟩).result >>= fun part =>
      .ok ((part.query cut ["a"]).result, (part.query cut ["b"]).result)) =
        .ok (.ok [⟨"x", 3⟩], .error (.corruption (.chainOverrun "whole" 1 1 184))) := by
    decide +kernel
  obtain ⟨part, hpart, answers⟩ := Outcome.bind_eq_ok.mp answered
  obtain ⟨hfound, hlost⟩ := Prod.mk.inj (Except.ok.inj answers)
  obtain ⟨engine, hengine, kept⟩ :=
    (cut_files_never_answer_differently truncated).2.2 ["whole"] true part hpart
  obtain ⟨rows, hrows, rfl⟩ := kept ["a"] _ hfound
  exact ⟨cut, part, engine, truncated, hpart, hengine, hfound, hrows, hlost⟩

end Engine

end InvertedIndex
