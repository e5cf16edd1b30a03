import InvertedIndex.Engine
import InvertedIndex.Proofs.Agreement
import InvertedIndex.Proofs.ChunkedChecksum
import InvertedIndex.Proofs.Procedure

/-!
Every reader of the library as a procedure of the same name.
-/

set_option autoImplicit false
set_option relaxedAutoImplicit false

namespace InvertedIndex

theorem Source.chunkCount_eq_zero_or (source : Source) (chunk : UInt64) (offset : Offset) :
    source.chunkCount chunk offset = 0 ∨ offset.toNat ≤ source.length.toNat := by
  by_cases short : source.length.toNat < offset.toNat
  · have none : source.length.toNat - offset.toNat = 0 := by omega
    have positive : chunk.toNat - 1 < chunk.toNat ∨ chunk.toNat = 0 := by omega
    left
    rw [chunkCount, none, Nat.zero_add]
    rcases positive with less | zero
    · exact Nat.div_eq_of_lt less
    · rw [zero]
  · right
    omega

namespace Procedure

def fetch (α : Type) [Record α] (source : Source) (offset : Nat) : Procedure α := do
  let bytes ← bytes source offset (Record.size α)
  pure (Record.decode bytes.data.toList)

def fetchRun (α : Type) [Record α] (source : Source) : Nat → Nat → Procedure (List α)
  | 0, _ => pure []
  | count + 1, offset => do
    let record ← fetch α source offset
    let next ← number (offset + Record.size α)
    let records ← fetchRun α source count next
    pure (record :: records)

def readWithin (source : Source) (offset length : Nat) : Procedure ByteArray := do
  ofResult (source.ensureExtentAt offset length)
  room length source
  bytes source offset length

def openTable (source : Source) (base : Offset) : Procedure ChainTable := do
  let header ← fetch TableHeader source base.toNat
  if header.bucketCount = 0 then
    stop (.corruption (.zeroBuckets source.path base))
  else
    let length ← number (header.bucketCount.toNat * Record.size Slot)
    let start ← number (base.toNat + Record.size TableHeader)
    ofResult (source.ensureExtentAt start length)
    pure ⟨source, base, header.bucketCount⟩

def chain (table : ChainTable) (bucket : UInt64) (slot : Slot) : Procedure (List Offset) :=
  if slot.chainLength = 0 then pure []
  else do
    let length ← number (slot.chainLength.toNat * Record.size Link)
    match table.source.ensureExtentAt slot.chainOffset.toNat length with
    | .error _ =>
      stop (.corruption
        (.chainOverrun table.source.path bucket slot.chainLength slot.chainOffset))
    | .ok () =>
      room slot.chainLength.toNat table.source
      let links ← fetchRun Link table.source slot.chainLength.toNat slot.chainOffset.toNat
      pure (links.map Link.elementOffset)

def lookupChain (table : ChainTable) (key : UInt64) : Procedure (List Offset) := do
  let bucket := table.bucketOf key
  let slots ← number (table.base.toNat + Record.size TableHeader)
  let before ← number (bucket.toNat * Record.size Slot)
  let place ← number (slots + before)
  let slot ← fetch Slot table.source place
  report (.bucketVisited bucket table.base slot) (chain table bucket slot)

def searchDocument (source : Source) (id : DocumentId) : List Offset → Procedure (Option String)
  | [] => pure none
  | offset :: rest => do
    let header ← fetch DocumentHeader source offset.toNat
    if header.id ≠ id then
      searchDocument source id rest
    else
      let start ← number (offset.toNat + Record.size DocumentHeader)
      let bytes ← readWithin source start header.pathLength.toNat
      match String.fromUTF8? bytes with
      | some path => pure (some path)
      | none => stop (.corruption (.undecodablePath source.path id offset))

def lookupDocument (table : DocumentTable) (id : DocumentId) : Procedure (Option String) := do
  let offsets ← lookupChain table.buckets (DocumentTable.keyOf id)
  searchDocument table.buckets.source id offsets

def resolve (table : DocumentTable) (id : DocumentId) (strict : Bool) : Procedure String := do
  match ← lookupDocument table id with
  | some path => pure path
  | none =>
    if strict then stop (.missingDocument id)
    else report (.placeholderUsed id) (pure (placeholderName id))

def searchWord (source : Source) (word : String) : List Offset → Procedure (Option Postings)
  | [] => pure none
  | offset :: rest => do
    let header ← fetch WordHeader source offset.toNat
    if header.wordLength.toNat ≠ word.utf8ByteSize then
      searchWord source word rest
    else
      let wordOffset ← number (offset.toNat + Record.size WordHeader)
      let stored ← readWithin source wordOffset header.wordLength.toNat
      if stored ≠ word.toUTF8 then
        searchWord source word rest
      else
        let start ← number (wordOffset + header.wordLength.toNat)
        let length ← number (header.postingCount.toNat * Record.size Posting)
        match source.ensureExtentAt start length with
        | .error _ =>
          stop (.corruption
            (.postingsOverrun source.path word header.postingCount start.toUInt64))
        | .ok () =>
          room header.postingCount.toNat source
          let entries ← fetchRun Posting source header.postingCount.toNat start
          pure (some ⟨word, entries⟩)

def lookupWord (table : WordTable) (word : String) : Procedure (Option Postings) := do
  let offsets ← lookupChain table.buckets (WordTable.keyOf word)
  searchWord table.buckets.source word offsets

def foldChunks (source : Source) (chunk : Nat) : Nat → Nat → UInt32 → Procedure UInt32
  | 0, _, remainder => pure remainder
  | count + 1, offset, remainder => do
    let length := min (source.length.toNat - offset) chunk
    let bytes ← bytes source offset length
    let next ← number (offset + length)
    foldChunks source chunk count next (Crc32.update remainder bytes.data.toList)

def checksum (source : Source) : Procedure UInt32 := do
  let start := (Record.size FileHeader).toUInt64
  let chunks := source.chunkCount checksumChunk start
  let remainder ← foldChunks source checksumChunk.toNat chunks start.toNat Crc32.start
  pure (Crc32.finish remainder)

def ensureChecksum (source : Source) (header : FileHeader) (strict : Bool) : Procedure Unit :=
  if strict then do
    let found ← checksum source
    if found = header.checksum then pure ()
    else stop (.checksumMismatch header.checksum found)
  else pure ()

def openFile (path : String) (strict : Bool) (access : Access) : Procedure IndexFile :=
  find path access fun source => do
    let header ← fetch FileHeader source 0
    ofLogged (IndexFile.ensureMagic path header strict)
    ofResult (IndexFile.ensureRegion .documents header.documentTable source.length)
    ofResult (IndexFile.ensureRegion .words header.wordTable source.length)
    ensureChecksum source header strict
    report (.fileOpened path source.length header.documentTable header.wordTable)
      (pure ⟨path, header, source.stamp, access⟩)

def reopen (file : IndexFile) (base : Offset) : Procedure ChainTable :=
  find file.path file.access fun source =>
    if source.stamp ≠ file.stamp then stop (.corruption (.fileChanged file.path))
    else openTable source base

def openIndex (path : String) (strict : Bool) (access : Access) : Procedure OpenIndex := do
  let file ← openFile path strict access
  let documents ← reopen file file.header.documentTable
  let words ← reopen file file.header.wordTable
  pure ⟨path, ⟨documents⟩, ⟨words⟩⟩

def start (settings : Settings) : Procedure Engine := do
  ofResult settings.check
  let indexes ← settings.paths.mapM fun path => openIndex path settings.strict settings.access
  report (.engineReady indexes.length settings.strict) (pure ⟨indexes, settings.strict⟩)

def narrow (counts : Std.TreeMap DocumentId UInt32) :
    List (DocumentId × Nat) → Procedure (List (DocumentId × Nat))
  | [] => pure []
  | (id, rank) :: rest =>
    match counts[id]? with
    | none => narrow counts rest
    | some count => do
      let sum ← number (rank + count.toNat)
      let others ← narrow counts rest
      pure ((id, sum) :: others)

def narrowBy (table : WordTable) :
    List (DocumentId × Nat) → List String → Procedure (List (DocumentId × Nat))
  | candidates, [] => pure candidates
  | [], _ :: _ => pure []
  | candidates, word :: rest => do
    match ← lookupWord table word with
    | none => pure []
    | some postings =>
      room postings.length table.buckets.source
      let left ← narrow (Match.firstCounts postings.entries) candidates
      narrowBy table left rest

def matching (table : WordTable) : List String → Procedure (List (DocumentId × Nat))
  | [] => pure []
  | first :: rest => do
    match ← lookupWord table first with
    | none => pure []
    | some postings =>
      room postings.length table.buckets.source
      narrowBy table ((Match.ofEntries postings.entries).map Match.exact) rest

def rows (index : OpenIndex) (strict : Bool) (words : List String) : Procedure (List Row) := do
  let found ← matching index.words words
  report (.documentsMatched index.path found.length words.length)
    (found.mapM fun entry => do
      let name ← resolve index.documents entry.1 strict
      pure ⟨name, entry.2.toUInt64⟩)

def query (engine : Engine) (words : List String) : Procedure (List Row) :=
  if words = [] then stop .emptyQuery
  else do
    let rows ← engine.indexes.mapM fun index => rows index engine.strict words
    pure (Row.sort rows.flatten)

section OnDisk

variable (disk : Disk)

theorem onDisk_behind (α : Type) [Record α] (small : Record.size α < 2 ^ 64) (offset : Offset) :
    (number (offset.toNat + Record.size α)).onDisk disk =
      pure (offset + (Record.size α).toUInt64).toNat := by
  have size : (Record.size α).toUInt64.toNat = Record.size α := UInt64.toNat_ofNat_of_lt' small
  rw [← onDisk_number_add, size]

theorem onDisk_extent (α : Type) [Record α] (small : Record.size α < 2 ^ 64) (count : UInt64) :
    (number (count.toNat * Record.size α)).onDisk disk =
      pure (count * (Record.size α).toUInt64).toNat := by
  have size : (Record.size α).toUInt64.toNat = Record.size α := UInt64.toNat_ofNat_of_lt' small
  rw [← onDisk_number_mul, size]

theorem onDisk_fetch (α : Type) [Record α] (small : Record.size α < 2 ^ 64) (source : Source)
    (offset : Offset) :
    (fetch α source offset.toNat).onDisk disk = liftM (source.fetch α disk offset) := by
  have size : (Record.size α).toUInt64.toNat = Record.size α := UInt64.toNat_ofNat_of_lt' small
  rw [fetch, onDisk_bind, ← size, onDisk_bytes, Source.fetch, Logged.lift_bind]
  rfl

theorem fetchRun_succ (α : Type) [Record α] (source : Source) (start : Offset) (count : Nat) :
    source.fetchRun α disk start (count + 1) =
      source.fetch α disk start >>= fun record =>
        source.fetchRun α disk (start + (Record.size α).toUInt64) count >>= fun records =>
          .ok (record :: records) := by
  have further : ∀ i : Nat, start + ((i + 1) * Record.size α).toUInt64 =
      start + (Record.size α).toUInt64 + (i * Record.size α).toUInt64 := by
    intro i
    rw [Nat.succ_mul, Nat.add_comm, UInt64.add_assoc]
    exact congrArg (start + ·) (UInt64.ofNat_add _ _)
  have first : start + (0 * Record.size α).toUInt64 = start := by
    rw [Nat.zero_mul]
    exact UInt64.add_zero start
  rw [Source.fetchRun, List.range_succ_eq_map, List.mapM_cons, List.mapM_map, first]
  simp only [Function.comp_def, Nat.succ_eq_add_one, further]
  rfl

theorem onDisk_fetchRun (α : Type) [Record α] (small : Record.size α < 2 ^ 64) (source : Source)
    (count : Nat) (start : Offset) :
    (fetchRun α source count start.toNat).onDisk disk =
      liftM (source.fetchRun α disk start count) := by
  induction count generalizing start with
  | zero => rfl
  | succ count ih =>
    simp only [fetchRun, onDisk_bind, onDisk_fetch disk α small, onDisk_behind disk α small, pure_bind,
      ih, onDisk_pure]
    simp only [fetchRun_succ, Logged.lift_bind]
    rfl

theorem onDisk_readWithin (source : Source) (offset : Offset) (length : UInt64) :
    (readWithin source offset.toNat length.toNat).onDisk disk =
      liftM (source.readWithin disk offset length) := by
  simp only [readWithin, onDisk_bind, onDisk_ofResult, onDisk_room, pure_bind, onDisk_bytes,
    Source.ensureExtentAt_toNat, Source.readWithin, Logged.lift_bind]

theorem onDisk_openTable (source : Source) (base : Offset) :
    (openTable source base).onDisk disk = liftM (ChainTable.openAt source disk base) := by
  rw [openTable, ChainTable.openAt, onDisk_bind, onDisk_fetch disk TableHeader (by decide),
    Logged.lift_bind]
  congr 1
  funext header
  by_cases zero : header.bucketCount = 0
  · simp only [if_pos zero]
    rfl
  · have length := onDisk_extent disk Slot (by decide) header.bucketCount.toUInt64
    rw [UInt32.toNat_toUInt64] at length
    simp only [if_neg zero, onDisk_bind, length, onDisk_behind disk TableHeader (by decide), pure_bind,
      onDisk_ofResult, Source.ensureExtentAt_toNat, onDisk_pure, Logged.lift_bind]
    rfl

theorem onDisk_chain (table : ChainTable) (bucket : UInt64) (slot : Slot) :
    (chain table bucket slot).onDisk disk = liftM (table.chain disk bucket slot) := by
  unfold chain ChainTable.chain
  by_cases empty : slot.chainLength = 0
  · simp only [if_pos empty]
    rfl
  · have length := onDisk_extent disk Link (by decide) slot.chainLength.toUInt64
    rw [UInt32.toNat_toUInt64] at length
    simp only [if_neg empty, onDisk_bind, length, pure_bind, Source.ensureExtentAt_toNat]
    cases table.source.ensureExtent slot.chainOffset
        (slot.chainLength.toUInt64 * (Record.size Link).toUInt64) with
    | error fault => rfl
    | ok u =>
      simp only [onDisk_bind, onDisk_room, pure_bind, onDisk_fetchRun disk Link (by decide), onDisk_pure,
        Logged.lift_bind]
      rfl

theorem onDisk_lookupChain (table : ChainTable) (key : UInt64) :
    (lookupChain table key).onDisk disk = table.lookup disk key := by
  simp only [lookupChain, onDisk_bind, onDisk_behind disk TableHeader (by decide),
    onDisk_extent disk Slot (by decide), pure_bind, onDisk_number_add,
    onDisk_fetch disk Slot (by decide), onDisk_report, onDisk_chain]
  rfl

theorem onDisk_searchDocument (table : DocumentTable) (id : DocumentId) (offsets : List Offset) :
    (searchDocument table.buckets.source id offsets).onDisk disk =
      liftM (table.search disk id offsets) := by
  induction offsets with
  | nil => rfl
  | cons offset rest ih =>
    rw [searchDocument, DocumentTable.search, onDisk_bind, onDisk_fetch disk DocumentHeader (by decide),
      Logged.lift_bind]
    congr 1
    funext header
    by_cases other : header.id ≠ id
    · simp only [if_pos other]
      exact ih
    · have start := onDisk_behind disk DocumentHeader (by decide) offset
      have within := onDisk_readWithin disk table.buckets.source
        (offset + (Record.size DocumentHeader).toUInt64) header.pathLength.toUInt64
      rw [UInt16.toNat_toUInt64] at within
      simp only [if_neg other, onDisk_bind, start, pure_bind, within, Logged.lift_bind]
      congr 1
      funext bytes
      cases String.fromUTF8? bytes <;> rfl

theorem onDisk_lookupDocument (table : DocumentTable) (id : DocumentId) :
    (lookupDocument table id).onDisk disk = table.lookup disk id := by
  simp only [lookupDocument, onDisk_bind, onDisk_lookupChain, onDisk_searchDocument]
  rfl

theorem onDisk_resolve (table : DocumentTable) (id : DocumentId) (strict : Bool) :
    (resolve table id strict).onDisk disk = table.resolve disk id strict := by
  rw [resolve, DocumentTable.resolve, onDisk_bind, onDisk_lookupDocument]
  congr 1
  funext found
  cases found with
  | some path => rfl
  | none => cases strict <;> rfl

theorem onDisk_searchWord (table : WordTable) (word : String) (offsets : List Offset) :
    (searchWord table.buckets.source word offsets).onDisk disk =
      liftM (table.search disk word offsets) := by
  induction offsets with
  | nil => rfl
  | cons offset rest ih =>
    rw [searchWord, WordTable.search, onDisk_bind, onDisk_fetch disk WordHeader (by decide),
      Logged.lift_bind]
    congr 1
    funext header
    by_cases shape : header.wordLength.toNat ≠ word.utf8ByteSize
    · simp only [if_pos shape]
      exact ih
    · have first := onDisk_behind disk WordHeader (by decide) offset
      have within := onDisk_readWithin disk table.buckets.source
        (offset + (Record.size WordHeader).toUInt64) header.wordLength.toUInt64
      rw [UInt16.toNat_toUInt64] at within
      simp only [if_neg shape, onDisk_bind, first, pure_bind, within, Logged.lift_bind]
      congr 1
      funext stored
      by_cases other : stored ≠ word.toUTF8
      · simp only [if_pos other]
        exact ih
      · have start := onDisk_number_add disk (offset + (Record.size WordHeader).toUInt64)
          header.wordLength.toUInt64
        rw [UInt16.toNat_toUInt64] at start
        have length : (number (header.postingCount.toNat * Record.size Posting)).onDisk disk =
            pure header.postingBytes.toNat :=
          onDisk_number_mul disk header.postingCount.toUInt64 (Record.size Posting).toUInt64
        simp only [if_neg other, onDisk_bind, start, length, pure_bind, Source.ensureExtentAt_toNat]
        cases table.buckets.source.ensureExtent (offset + (Record.size WordHeader).toUInt64 +
            header.wordLength.toUInt64) header.postingBytes with
        | error fault =>
          simp only [onDisk_stop, Nat.toUInt64_eq, UInt64.ofNat_toNat]
          rfl
        | ok u =>
          simp only [onDisk_bind, onDisk_room, pure_bind, onDisk_fetchRun disk Posting (by decide),
            onDisk_pure, Logged.lift_bind]
          rfl

theorem onDisk_lookupWord (table : WordTable) (word : String) :
    (lookupWord table word).onDisk disk = table.lookup disk word := by
  simp only [lookupWord, onDisk_bind, onDisk_lookupChain, onDisk_searchWord]
  rfl

theorem onDisk_foldChunks (source : Source) (chunk : UInt64) {count : Nat} {offset : Offset}
    (inside : count = 0 ∨ offset.toNat ≤ source.length.toNat) (remainder : UInt32) :
    (foldChunks source chunk.toNat count offset.toNat remainder).onDisk disk =
      liftM (source.foldChunks disk chunk count offset remainder) := by
  induction count generalizing offset remainder with
  | zero => rfl
  | succ count ih =>
    have here : offset.toNat ≤ source.length.toNat := inside.resolve_left (Nat.succ_ne_zero count)
    have length := source.toNat_chunkLength chunk here
    have behind := source.toNat_add_chunkLength chunk here
    have next : (offset + source.chunkLength chunk offset).toNat ≤ source.length.toNat := by
      omega
    simp only [foldChunks, ← length, onDisk_bind, onDisk_bytes, onDisk_number_add, pure_bind,
      ih (Or.inr next), Source.foldChunks, Logged.lift_bind]

theorem onDisk_checksum (source : Source) :
    (checksum source).onDisk disk = liftM (source.checksum disk) := by
  have chunks := onDisk_foldChunks disk source checksumChunk
    (source.chunkCount_eq_zero_or checksumChunk (Record.size FileHeader).toUInt64) Crc32.start
  simp only [checksum, onDisk_bind, chunks, onDisk_pure, Source.checksum, Source.checksumBy,
    Logged.lift_bind]
  rfl

theorem onDisk_ensureChecksum (source : Source) (header : FileHeader) (strict : Bool) :
    (ensureChecksum source header strict).onDisk disk =
      liftM (IndexFile.ensureChecksum source disk header strict) := by
  cases strict with
  | false => rfl
  | true =>
    simp only [ensureChecksum, IndexFile.ensureChecksum, if_true, onDisk_bind, onDisk_checksum,
      Logged.lift_bind]
    congr 1
    funext found
    split <;> rfl

theorem onDisk_openFile (path : String) (strict : Bool) (access : Access) :
    (openFile path strict access).onDisk disk = IndexFile.openPath disk path strict access := by
  rw [openFile, onDisk_find, IndexFile.openPath]
  congr 1
  funext source
  have header : (fetch FileHeader source 0).onDisk disk = liftM (source.fetch FileHeader disk 0) :=
    onDisk_fetch disk FileHeader (by decide) source 0
  simp only [onDisk_bind, header, onDisk_ofLogged, onDisk_ofResult, onDisk_ensureChecksum,
    onDisk_report, onDisk_pure]

theorem onDisk_reopen (file : IndexFile) (base : Offset) :
    (reopen file base).onDisk disk = liftM (file.reopen disk base) := by
  rw [reopen, onDisk_find, IndexFile.reopen, Logged.lift_bind]
  congr 1
  funext source
  by_cases changed : source.stamp ≠ file.stamp
  · simp only [if_pos changed]
    rfl
  · simp only [if_neg changed, onDisk_openTable]

theorem onDisk_openIndex (path : String) (strict : Bool) (access : Access) :
    (openIndex path strict access).onDisk disk = OpenIndex.openPath disk path strict access := by
  simp only [openIndex, onDisk_bind, onDisk_openFile, onDisk_reopen, onDisk_pure, OpenIndex.openPath,
    IndexFile.openDocuments, IndexFile.openWords, Logged.lift_bind, bind_assoc]
  rfl

theorem onDisk_start (settings : Settings) :
    (start settings).onDisk disk = Engine.start disk settings := by
  simp only [start, onDisk_bind, onDisk_ofResult, onDisk_mapM, onDisk_openIndex, onDisk_report,
    onDisk_pure]
  rfl

theorem onDisk_narrow (candidates : List Match) (entries : List Posting) :
    (narrow (Match.firstCounts entries) (candidates.map Match.exact)).onDisk disk =
      pure ((Match.narrow candidates entries).map Match.exact) := by
  induction candidates with
  | nil => rfl
  | cons candidate rest ih =>
    simp only [List.map_cons, Match.exact, narrow, Match.narrow, List.filterMap_cons] at ih ⊢
    cases (Match.firstCounts entries)[candidate.id]? with
    | none => exact ih
    | some count =>
      have sum := onDisk_number_add disk candidate.rank count.toUInt64
      rw [UInt32.toNat_toUInt64] at sum
      simp only [onDisk_bind, sum, pure_bind, ih, onDisk_pure]
      rfl

theorem onDisk_narrowBy (table : WordTable) (candidates : List Match) (words : List String) :
    (narrowBy table (candidates.map Match.exact) words).onDisk disk =
      List.map Match.exact <$> table.narrowBy disk candidates words := by
  induction words generalizing candidates with
  | nil =>
    simp only [narrowBy, WordTable.narrowBy, onDisk_pure, map_pure]
  | cons word rest ih =>
    cases candidates with
    | nil => rfl
    | cons candidate candidates =>
      have step := onDisk_narrow disk (candidate :: candidates)
      simp only [List.map_cons] at step ⊢
      simp only [narrowBy, WordTable.narrowBy, onDisk_bind, onDisk_lookupWord, map_bind]
      congr 1
      funext found
      cases found with
      | none => rfl
      | some postings => simp only [onDisk_bind, onDisk_room, pure_bind, step, ih]

theorem onDisk_matching (table : WordTable) (words : List String) :
    (matching table words).onDisk disk = List.map Match.exact <$> table.matching disk words := by
  cases words with
  | nil => rfl
  | cons word rest =>
    simp only [matching, WordTable.matching, onDisk_bind, onDisk_lookupWord, map_bind]
    congr 1
    funext found
    cases found with
    | none => rfl
    | some postings => simp only [onDisk_bind, onDisk_room, pure_bind, onDisk_narrowBy]

theorem onDisk_rows (index : OpenIndex) (strict : Bool) (words : List String) :
    (rows index strict words).onDisk disk = index.rows disk strict words := by
  simp only [rows, OpenIndex.rows, onDisk_bind, onDisk_matching, onDisk_report, onDisk_mapM,
    bind_map_left, List.length_map, List.mapM_map, onDisk_resolve, onDisk_pure]
  congr 1
  funext found
  congr 1
  funext _
  congr 1
  funext candidate
  simp only [Function.comp_apply, Match.exact, Nat.toUInt64_eq, UInt64.ofNat_toNat]
  rfl

theorem onDisk_query (engine : Engine) (words : List String) :
    (query engine words).onDisk disk = engine.query disk words := by
  by_cases nonempty : words = []
  · subst nonempty
    rfl
  · simp only [query, Engine.query, if_neg nonempty, onDisk_bind, onDisk_mapM, onDisk_rows,
      onDisk_pure]

end OnDisk

end Procedure

end InvertedIndex
