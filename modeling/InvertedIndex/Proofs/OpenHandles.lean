import InvertedIndex.Session
import InvertedIndex.Proofs.Reading

/-!
The files that the handles of a session hold open, and how long they are.
-/

set_option autoImplicit false
set_option relaxedAutoImplicit false

namespace InvertedIndex

open Outcome (bind_eq_ok exists_of_mem_mapM)

variable {disk : Disk}

/-- The sources that a handle reads from. An index file that was checked holds none. -/
def Handle.sources : Handle → List Source
  | .source s => [s]
  | .buckets table => [table.source]
  | .documents table => [table.buckets.source]
  | .words table => [table.buckets.source]
  | .file _ => []
  | .engine e => e.indexes.flatMap fun index =>
      [index.documents.buckets.source, index.words.buckets.source]

def Handle.tables : Handle → List ChainTable
  | .source _ => []
  | .buckets table => [table]
  | .documents table => [table.buckets]
  | .words table => [table.buckets]
  | .file _ => []
  | .engine e => e.indexes.flatMap fun index => [index.documents.buckets, index.words.buckets]

def Source.OpenedOn (source : Source) (disk : Disk) : Prop :=
  Source.openPath disk source.path source.access = .ok source

/-- A table is what its place in a source gives that was opened on a disk. -/
structure ChainTable.OpenedOn (table : ChainTable) (disk : Disk) : Prop where
  source : table.source.OpenedOn disk
  header : ChainTable.openAt table.source disk table.base = .ok table

structure Handle.OpenedOn (handle : Handle) (disk : Disk) : Prop where
  sources : ∀ source ∈ handle.sources, source.OpenedOn disk
  tables : ∀ table ∈ handle.tables, table.OpenedOn disk

theorem Source.openedOn_of_openPath {path : String} {access : Access} {source : Source}
    (h : Source.openPath disk path access = .ok source) : source.OpenedOn disk := by
  obtain ⟨id, -, rfl⟩ := Source.eq_of_openPath h
  exact h

theorem ChainTable.regular_of_openAt {source : Source} {base : Offset} {table : ChainTable}
    (h : ChainTable.openAt source disk base = .ok table) : source.Regular := by
  obtain ⟨header, fetched, -⟩ := bind_eq_ok.mp h
  exact Source.regular_of_fetch fetched (by decide)

theorem ChainTable.eq_of_openAt {source : Source} {base : Offset} {table : ChainTable}
    (h : ChainTable.openAt source disk base = .ok table) :
    table = ⟨source, base, table.bucketCount⟩ := by
  unfold openAt at h
  obtain ⟨header, -, h⟩ := bind_eq_ok.mp h
  split at h
  · cases h
  · obtain ⟨-, -, h⟩ := bind_eq_ok.mp h
    cases h
    rfl

theorem ChainTable.openedOn_of_openAt {source : Source} {base : Offset} {table : ChainTable}
    (hsource : source.OpenedOn disk) (h : ChainTable.openAt source disk base = .ok table) :
    table.OpenedOn disk := by
  have place := ChainTable.eq_of_openAt h
  have hbase : table.base = base := congrArg ChainTable.base place
  have held : table.source = source := congrArg ChainTable.source place
  exact ⟨held ▸ hsource, by rw [held, hbase, h]⟩

theorem ChainTable.OpenedOn.intact {table : ChainTable} (h : table.OpenedOn disk) :
    table.source.Intact disk :=
  Source.intact_of_openPath h.source (ChainTable.regular_of_openAt h.header)

theorem IndexFile.openedOn_of_reopen {file : IndexFile} {base : Offset} {table : ChainTable}
    (h : file.reopen disk base = .ok table) :
    table.OpenedOn disk ∧ table.source = ⟨file.path, file.stamp, file.access⟩ := by
  unfold reopen at h
  obtain ⟨source, hsource, h⟩ := bind_eq_ok.mp h
  split at h
  · cases h
  · next same =>
    have place := ChainTable.eq_of_openAt h
    refine ⟨ChainTable.openedOn_of_openAt (Source.openedOn_of_openPath hsource) h, ?_⟩
    obtain ⟨id, -, rfl⟩ := Source.eq_of_openPath hsource
    have stamp : disk.stamp id = file.stamp := not_not.mp same
    rw [place, stamp]

theorem IndexFile.reopen_of_openDocuments {file : IndexFile} {table : DocumentTable}
    (h : file.openDocuments disk = .ok table) :
    file.reopen disk file.header.documentTable = .ok table.buckets := by
  obtain ⟨buckets, hbuckets, h⟩ := bind_eq_ok.mp h
  cases h
  exact hbuckets

theorem IndexFile.reopen_of_openWords {file : IndexFile} {table : WordTable}
    (h : file.openWords disk = .ok table) :
    file.reopen disk file.header.wordTable = .ok table.buckets := by
  obtain ⟨buckets, hbuckets, h⟩ := bind_eq_ok.mp h
  cases h
  exact hbuckets

theorem OpenIndex.openedOn_of_openPath {path : String} {strict : Bool} {access : Access}
    {index : OpenIndex} (h : (OpenIndex.openPath disk path strict access).result = .ok index) :
    index.documents.buckets.OpenedOn disk ∧ index.words.buckets.OpenedOn disk := by
  simp only [openPath, Logged.result_bind, Logged.result_lift, Logged.result_pure] at h
  obtain ⟨file, -, h⟩ := bind_eq_ok.mp h
  obtain ⟨documents, hdocuments, h⟩ := bind_eq_ok.mp h
  obtain ⟨words, hwords, h⟩ := bind_eq_ok.mp h
  cases h
  exact ⟨(IndexFile.openedOn_of_reopen (IndexFile.reopen_of_openDocuments hdocuments)).1,
    (IndexFile.openedOn_of_reopen (IndexFile.reopen_of_openWords hwords)).1⟩

theorem Engine.openedOn_of_start {settings : Settings} {engine : Engine}
    (h : (Engine.start disk settings).result = .ok engine) :
    (Handle.engine engine).OpenedOn disk := by
  simp only [start, Logged.result_bind, Logged.result_lift, Logged.result_mapM,
    Logged.result_report, Logged.result_pure] at h
  obtain ⟨-, -, h⟩ := bind_eq_ok.mp h
  obtain ⟨indexes, hindexes, h⟩ := bind_eq_ok.mp h
  obtain ⟨-, -, h⟩ := bind_eq_ok.mp h
  cases h
  have each : ∀ index ∈ indexes,
      index.documents.buckets.OpenedOn disk ∧ index.words.buckets.OpenedOn disk := by
    intro index mem
    obtain ⟨path, -, hpath⟩ := exists_of_mem_mapM hindexes mem
    exact OpenIndex.openedOn_of_openPath hpath
  constructor
  · intro source mem
    simp only [Handle.sources, List.mem_flatMap, List.mem_pair] at mem
    obtain ⟨index, hindex, rfl | rfl⟩ := mem
    · exact (each index hindex).1.source
    · exact (each index hindex).2.source
  · intro table mem
    simp only [Handle.tables, List.mem_flatMap, List.mem_pair] at mem
    obtain ⟨index, hindex, rfl | rfl⟩ := mem
    · exact (each index hindex).1
    · exact (each index hindex).2

private theorem openedOn_of_table {handle : Handle} {table : ChainTable}
    (sources : handle.sources = [table.source]) (tables : handle.tables = [table])
    (h : table.OpenedOn disk) : handle.OpenedOn disk := by
  constructor
  · rw [sources]
    simpa using h.source
  · rw [tables]
    simpa using h

private theorem openedOn_of_perform_table {wrap : ChainTable → Handle}
    (sources : ∀ table, (wrap table).sources = [table.source])
    (tables : ∀ table, (wrap table).tables = [table]) {path : String} {base : Offset}
    {access : Access} {handle : Handle}
    (hok : (do pure (wrap (← ChainTable.openAt (← Source.openPath disk path access) disk base)) :
      Logged Handle).result = .ok handle) : handle.OpenedOn disk := by
  simp only [Logged.result_bind, Logged.result_lift, Logged.result_pure] at hok
  obtain ⟨source, hsource, hok⟩ := bind_eq_ok.mp hok
  obtain ⟨table, htable, hok⟩ := bind_eq_ok.mp hok
  cases hok
  exact openedOn_of_table (sources table) (tables table)
    (ChainTable.openedOn_of_openAt (Source.openedOn_of_openPath hsource) htable)

theorem Opening.openedOn_of_perform {handles : List (HandleName × Handle)} {opening : Opening}
    {outcome : Logged Handle} (h : opening.perform disk handles = some outcome) {handle : Handle}
    (hok : outcome.result = .ok handle) : handle.OpenedOn disk := by
  cases opening with
  | source path access =>
    cases h
    simp only [Logged.result_bind, Logged.result_lift, Logged.result_pure] at hok
    obtain ⟨source, hsource, hok⟩ := bind_eq_ok.mp hok
    cases hok
    constructor
    · simpa [Handle.sources] using Source.openedOn_of_openPath hsource
    · simp [Handle.tables]
  | buckets path base access =>
    cases h
    exact openedOn_of_perform_table (fun _ => rfl) (fun _ => rfl) hok
  | documentsAt path base access =>
    cases h
    exact openedOn_of_perform_table (fun _ => rfl) (fun _ => rfl) hok
  | wordsAt path base access =>
    cases h
    exact openedOn_of_perform_table (fun _ => rfl) (fun _ => rfl) hok
  | file path strict access =>
    cases h
    simp only [Logged.result_bind, Logged.result_pure] at hok
    obtain ⟨file, -, hok⟩ := bind_eq_ok.mp hok
    cases hok
    constructor
    · simp [Handle.sources]
    · simp [Handle.tables]
  | documentsOf name =>
    simp only [perform] at h
    split at h
    · cases h
      simp only [Logged.result_bind, Logged.result_lift, Logged.result_pure] at hok
      obtain ⟨table, htable, hok⟩ := bind_eq_ok.mp hok
      cases hok
      exact openedOn_of_table rfl rfl
        (IndexFile.openedOn_of_reopen (IndexFile.reopen_of_openDocuments htable)).1
    · cases h
  | wordsOf name =>
    simp only [perform] at h
    split at h
    · cases h
      simp only [Logged.result_bind, Logged.result_lift, Logged.result_pure] at hok
      obtain ⟨table, htable, hok⟩ := bind_eq_ok.mp hok
      cases hok
      exact openedOn_of_table rfl rfl
        (IndexFile.openedOn_of_reopen (IndexFile.reopen_of_openWords htable)).1
    · cases h
  | engine settings =>
    cases h
    simp only [Logged.result_bind, Logged.result_pure] at hok
    obtain ⟨engine, hengine, hok⟩ := bind_eq_ok.mp hok
    cases hok
    exact Engine.openedOn_of_start hengine

def Opening.paths (handles : List (HandleName × Handle)) : Opening → List String
  | source path _ | buckets path _ _ | documentsAt path _ _ | wordsAt path _ _ | file path _ _ => [path]
  | documentsOf name | wordsOf name =>
    match handles.lookup name with
    | some (.file index) => [index.path]
    | _ => []
  | engine settings => settings.paths

private theorem Opening.eq_source_of_perform {handles : List (HandleName × Handle)}
    {opening : Opening} {outcome : Logged Handle} (h : opening.perform disk handles = some outcome)
    {s : Source} (hok : outcome.result = .ok (.source s)) : opening = .source s.path s.access := by
  cases opening with
  | source path access =>
    cases h
    simp only [Logged.result_bind, Logged.result_lift, Logged.result_pure] at hok
    obtain ⟨source, hsource, hok⟩ := bind_eq_ok.mp hok
    cases hok
    obtain ⟨id, -, rfl⟩ := Source.eq_of_openPath hsource
    rfl
  | documentsOf name | wordsOf name =>
    simp only [perform] at h
    split at h
    · cases h
      obtain ⟨table, -, hok⟩ := bind_eq_ok.mp ((Logged.result_bind _ _).symm.trans hok)
      cases hok
    · cases h
  | buckets | documentsAt | wordsAt =>
    cases h
    obtain ⟨source, -, hok⟩ := bind_eq_ok.mp ((Logged.result_bind _ _).symm.trans hok)
    obtain ⟨table, -, hok⟩ := bind_eq_ok.mp ((Logged.result_bind _ _).symm.trans hok)
    cases hok
  | file | engine =>
    cases h
    obtain ⟨held, -, hok⟩ := bind_eq_ok.mp ((Logged.result_bind _ _).symm.trans hok)
    cases hok

theorem Opening.regular_of_perform {handles : List (HandleName × Handle)} {opening : Opening}
    (noFolder : ∀ path ∈ opening.paths handles, ¬disk.LeadsToFolder path) {outcome : Logged Handle}
    (h : opening.perform disk handles = some outcome) {handle : Handle}
    (hok : outcome.result = .ok handle) : ∀ source ∈ handle.sources, source.Regular := by
  have opened := Opening.openedOn_of_perform h hok
  have tables : ∀ table ∈ handle.tables, table.source.Regular :=
    fun table mem => ChainTable.regular_of_openAt (opened.tables table mem).header
  cases handle with
  | source s =>
    rw [Opening.eq_source_of_perform h hok] at noFolder
    intro source mem
    obtain rfl := List.mem_singleton.mp mem
    exact Source.regular_of_openPath (noFolder source.path (List.mem_singleton_self _))
      (opened.sources source mem)
  | buckets t => simpa [Handle.sources, Handle.tables] using tables
  | documents t => simpa [Handle.sources, Handle.tables] using tables
  | words t => simpa [Handle.sources, Handle.tables] using tables
  | file f => simp [Handle.sources]
  | engine e =>
    simp only [Handle.sources, Handle.tables, List.mem_flatMap, List.mem_pair] at tables ⊢
    rintro source ⟨index, mem, rfl | rfl⟩
    · exact tables _ ⟨index, mem, Or.inl rfl⟩
    · exact tables _ ⟨index, mem, Or.inr rfl⟩

namespace Session

def sources (session : Session) : List Source :=
  session.handles.flatMap fun entry => entry.2.sources

/-- Every open file is at least as long as when it was opened. -/
def Intact (session : Session) : Prop :=
  ∀ source ∈ session.sources, source.Intact session.disk

def opened (session : Session) : Step → List String
  | .opening _ opening => opening.paths session.handles
  | _ => []

/-- No path that is opened in a run leads to a folder at that moment. -/
def NeverOpensFolders : Session → List Step → Prop
  | _, [] => True
  | session, next :: rest =>
    (∀ path ∈ session.opened next, ¬session.disk.LeadsToFolder path) ∧
      (session.step next).1.NeverOpensFolders rest

/-- No step of a run shrinks, in place, a file that is open at that moment. -/
def NeverShrinks : Session → List Step → Prop
  | _, [] => True
  | session, next :: rest =>
    (∀ source ∈ session.sources,
      (source.bytes session.disk).size ≤ (source.bytes (session.step next).1.disk).size) ∧
      (session.step next).1.NeverShrinks rest

instance (session : Session) : Decidable session.Intact :=
  inferInstanceAs (Decidable (∀ source ∈ session.sources, source.Intact session.disk))

instance decidableNeverShrinks :
    (session : Session) → (steps : List Step) → Decidable (session.NeverShrinks steps)
  | _, [] => isTrue trivial
  | session, next :: rest =>
    have := decidableNeverShrinks (session.step next).1 rest
    inferInstanceAs (Decidable (_ ∧ _))

instance decidableNeverOpensFolders :
    (session : Session) → (steps : List Step) → Decidable (session.NeverOpensFolders steps)
  | _, [] => isTrue trivial
  | session, next :: rest =>
    have := decidableNeverOpensFolders (session.step next).1 rest
    inferInstanceAs (Decidable (_ ∧ _))

theorem sources_without_subset (session : Session) (name : HandleName) :
    ∀ source ∈ (Session.mk session.disk (session.without name)).sources,
      source ∈ session.sources := by
  intro source mem
  obtain ⟨entry, hentry, hsource⟩ := List.mem_flatMap.mp mem
  exact List.mem_flatMap.mpr ⟨entry, (List.mem_filter.mp hentry).1, hsource⟩

/-- A step keeps the open sources or drops some; one that opens a file adds what is as it is now, on
a disk that stays the same. -/
theorem mem_sources_step (session : Session) (next : Step) :
    ∀ source ∈ (session.step next).1.sources, source ∈ session.sources ∨
      (session.step next).1.disk = session.disk ∧ source.OpenedOn session.disk ∧
        ((∀ path ∈ session.opened next, ¬session.disk.LeadsToFolder path) → source.Regular) := by
  intro source mem
  cases next with
  | change change =>
    simp only [step] at mem ⊢
    split at mem <;> exact Or.inl mem
  | drop name =>
    exact Or.inl (session.sources_without_subset name source mem)
  | opening name opening =>
    simp only [step] at mem ⊢
    cases h : opening.perform session.disk session.handles with
    | none =>
      rw [h] at mem
      exact Or.inl (session.sources_without_subset name source mem)
    | some outcome =>
      rw [h] at mem
      cases hok : outcome.result with
      | error fault =>
        simp only [hok] at mem
        exact Or.inl (session.sources_without_subset name source mem)
      | ok handle =>
        simp only [hok] at mem ⊢
        simp only [sources, List.flatMap_cons, List.mem_append] at mem
        rcases mem with mem | mem
        · exact Or.inr ⟨trivial, (Opening.openedOn_of_perform h hok).sources source mem,
            fun noFolder => Opening.regular_of_perform noFolder h hok source mem⟩
        · exact Or.inl (session.sources_without_subset name source mem)
  | ask name question =>
    simp only [step] at mem ⊢
    split at mem <;> exact Or.inl mem

theorem intact_step {session : Session} (intact : session.Intact) {next : Step}
    (noFolder : ∀ path ∈ session.opened next, ¬session.disk.LeadsToFolder path)
    (kept : ∀ source ∈ session.sources,
      (source.bytes session.disk).size ≤ (source.bytes (session.step next).1.disk).size) :
    (session.step next).1.Intact := by
  intro source mem
  rcases session.mem_sources_step next source mem with old | ⟨same, new, regular⟩
  · exact Nat.le_trans (intact source old) (kept source old)
  · rw [same]
    exact Source.intact_of_openPath new (regular noFolder)

end Session

end InvertedIndex
