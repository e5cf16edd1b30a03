import InvertedIndex.Session
import InvertedIndex.Proofs.Reading

/-!
If two sources go by one path and all their reads agree, so do the tables, engines and handles that
are built on them, down to the events and the faults.
-/

set_option autoImplicit false
set_option relaxedAutoImplicit false

namespace InvertedIndex

variable {disk now : Disk}

/-- A source gives on a disk what another one gives now. -/
structure Source.ReadsAs (source : Source) (disk : Disk) (other : Source) (now : Disk) : Prop where
  path : source.path = other.path
  length : source.length = other.length
  read : source.read disk = other.read now

namespace Source.ReadsAs

variable {source other : Source}

theorem of_bytes (same : source.bytes disk = source.bytes now) : source.ReadsAs disk source now := by
  refine ⟨rfl, rfl, ?_⟩
  funext offset length
  simp only [Source.read, readFile, readMemory, same]

theorem of_intact (path : source.path = other.path) (length : source.length = other.length)
    (bytes : source.bytes disk = other.bytes now) (intact : source.Intact disk) :
    source.ReadsAs disk other now := by
  have intact' : other.Intact now := by
    unfold Intact at intact ⊢
    rwa [← length, ← bytes]
  refine ⟨path, length, ?_⟩
  funext offset count
  rw [read_eq intact, read_eq intact', length, bytes]

variable (h : source.ReadsAs disk other now)
include h

theorem ensureExtent : source.ensureExtent = other.ensureExtent := by
  funext offset length
  rw [Source.ensureExtent, Source.ensureExtent, h.length]

theorem readWithin : source.readWithin disk = other.readWithin now := by
  funext offset length
  rw [Source.readWithin, Source.readWithin, h.ensureExtent, h.read]

theorem fetch (α : Type) [Record α] : source.fetch α disk = other.fetch α now := by
  funext offset
  rw [Source.fetch, Source.fetch, h.read]

theorem fetchRun (α : Type) [Record α] : source.fetchRun α disk = other.fetchRun α now := by
  funext start count
  rw [Source.fetchRun, Source.fetchRun, h.fetch]

theorem foldChunks (chunk : UInt64) (count : Nat) (offset : Offset) (remainder : UInt32) :
    source.foldChunks disk chunk count offset remainder =
      other.foldChunks now chunk count offset remainder := by
  induction count generalizing offset remainder with
  | zero => rfl
  | succ count ih => simp only [Source.foldChunks, chunkLength, h.length, h.read, ih]

theorem checksum : source.checksum disk = other.checksum now := by
  simp only [Source.checksum, checksumBy, chunkCount, h.length, h.foldChunks]

end Source.ReadsAs

structure ChainTable.ReadsAs (table : ChainTable) (disk : Disk) (other : ChainTable) (now : Disk) :
    Prop where
  source : table.source.ReadsAs disk other.source now
  base : table.base = other.base
  bucketCount : table.bucketCount = other.bucketCount

theorem ChainTable.ReadsAs.lookup {table other : ChainTable} (h : table.ReadsAs disk other now)
    (key : UInt64) : table.lookup disk key = other.lookup now key := by
  have chains : table.chain disk = other.chain now := by
    funext bucket slot
    simp only [chain, h.source.ensureExtent, h.source.fetchRun, h.source.path]
  have bucket : table.bucketOf key = other.bucketOf key := by
    rw [bucketOf, bucketOf, h.bucketCount]
  simp only [ChainTable.lookup, slotAt, bucket, h.base, h.source.fetch, chains]

namespace DocumentTable

variable {table other : DocumentTable} (h : table.buckets.ReadsAs disk other.buckets now)
include h

theorem search_eq (id : DocumentId) (offsets : List Offset) :
    table.search disk id offsets = other.search now id offsets := by
  induction offsets with
  | nil => rfl
  | cons offset rest ih =>
    simp only [search, ih, h.source.fetch, h.source.readWithin, h.source.path]

theorem lookup_eq (id : DocumentId) : table.lookup disk id = other.lookup now id := by
  simp only [lookup, h.lookup, search_eq h]

theorem resolve_eq (id : DocumentId) (strict : Bool) :
    table.resolve disk id strict = other.resolve now id strict := by
  rw [resolve, resolve, lookup_eq h]

end DocumentTable

namespace WordTable

variable {table other : WordTable} (h : table.buckets.ReadsAs disk other.buckets now)
include h

theorem search_eq (word : String) (offsets : List Offset) :
    table.search disk word offsets = other.search now word offsets := by
  induction offsets with
  | nil => rfl
  | cons offset rest ih =>
    simp only [search, ih, h.source.fetch, h.source.readWithin, h.source.ensureExtent,
      h.source.fetchRun, h.source.path]

theorem lookup_eq (word : String) : table.lookup disk word = other.lookup now word := by
  simp only [lookup, h.lookup, search_eq h]

theorem narrowBy_eq (candidates : List Match) (words : List String) :
    table.narrowBy disk candidates words = other.narrowBy now candidates words := by
  induction words generalizing candidates with
  | nil => cases candidates <;> rfl
  | cons word rest ih =>
    cases candidates with
    | nil => rfl
    | cons found candidates => simp only [narrowBy, lookup_eq h, ih]

theorem matching_eq (words : List String) : table.matching disk words = other.matching now words := by
  cases words with
  | nil => rfl
  | cons word rest => simp only [matching, lookup_eq h, narrowBy_eq h]

end WordTable

structure OpenIndex.ReadsAs (index : OpenIndex) (disk : Disk) (other : OpenIndex) (now : Disk) :
    Prop where
  path : index.path = other.path
  documents : index.documents.buckets.ReadsAs disk other.documents.buckets now
  words : index.words.buckets.ReadsAs disk other.words.buckets now

theorem OpenIndex.ReadsAs.rows {index other : OpenIndex} (h : index.ReadsAs disk other now)
    (strict : Bool) (words : List String) :
    index.rows disk strict words = other.rows now strict words := by
  have each : index.row disk strict = other.row now strict := by
    funext found
    rw [row, row, DocumentTable.resolve_eq h.documents]
  rw [OpenIndex.rows, OpenIndex.rows, WordTable.matching_eq h.words, h.path, each]

structure Engine.ReadsAs (engine : Engine) (disk : Disk) (other : Engine) (now : Disk) : Prop where
  strict : engine.strict = other.strict
  indexes : List.Forall₂ (fun index other => OpenIndex.ReadsAs index disk other now) engine.indexes
    other.indexes

theorem Engine.ReadsAs.query {engine other : Engine} (h : engine.ReadsAs disk other now)
    (words : List String) : engine.query disk words = other.query now words := by
  have rows : (engine.indexes.mapM fun index => index.rows disk engine.strict words) =
      other.indexes.mapM fun index => index.rows now other.strict words := by
    rw [h.strict]
    exact Logged.mapM_congr h.indexes fun _ _ same => same.rows _ words
  rw [Engine.query, Engine.query, rows]

inductive Handle.ReadsAs (disk now : Disk) : Handle → Handle → Prop
  | source {source other : Source} (reads : source.ReadsAs disk other now)
      (stamp : source.stamp = other.stamp) : ReadsAs disk now (.source source) (.source other)
  | buckets {table other : ChainTable} (reads : table.ReadsAs disk other now) :
      ReadsAs disk now (.buckets table) (.buckets other)
  | documents {table other : DocumentTable} (reads : table.buckets.ReadsAs disk other.buckets now) :
      ReadsAs disk now (.documents table) (.documents other)
  | words {table other : WordTable} (reads : table.buckets.ReadsAs disk other.buckets now) :
      ReadsAs disk now (.words table) (.words other)
  | file (file other : IndexFile) : ReadsAs disk now (.file file) (.file other)
  | engine {engine other : Engine} (reads : engine.ReadsAs disk other now) :
      ReadsAs disk now (.engine engine) (.engine other)

def Handle.stampUnder (handles : List (HandleName × Handle)) (name : HandleName) :
    Option FileStamp :=
  match handles.lookup name with
  | some (.source held) => some held.stamp
  | _ => none

private theorem Handle.answer_sameFile (disk : Disk) (handles : List (HandleName × Handle))
    (held : Source) (name : HandleName) :
    (Handle.source held).answer disk handles (.sameFile name) =
      (stampUnder handles name).map fun stamp => pure (.same (held.stamp = stamp)) := by
  rw [answer, stampUnder]
  cases handles.lookup name with
  | none => rfl
  | some handle => cases handle <;> rfl

/-- The handles of a session matter to an answer only where the question names one of them. -/
theorem Handle.ReadsAs.answer {handle other : Handle} (h : Handle.ReadsAs disk now handle other)
    {handles handles' : List (HandleName × Handle)} {question : Question}
    (named : ∀ name, question = .sameFile name → stampUnder handles name = stampUnder handles' name) :
    handle.answer disk handles question = other.answer now handles' question := by
  cases h with
  | @source source other reads stamp =>
    cases question with
    | sameFile name => rw [answer_sameFile, answer_sameFile, stamp, named name rfl]
    | _ =>
      simp only [Handle.answer, reads.length, reads.read, reads.readWithin, reads.fetch,
        reads.ensureExtent]
  | buckets reads => cases question <;> simp only [Handle.answer, reads.lookup]
  | documents reads =>
    cases question <;>
      simp only [Handle.answer, DocumentTable.lookup_eq reads, DocumentTable.resolve_eq reads]
  | words reads => cases question <;> simp only [Handle.answer, WordTable.lookup_eq reads]
  | file file other => cases question <;> rfl
  | engine reads => cases question <;> simp only [Handle.answer, reads.query]

end InvertedIndex
