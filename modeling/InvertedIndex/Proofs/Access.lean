import InvertedIndex.Proofs.SameReads

/-!
Whether files are mapped or read where they are makes no difference to tables, files and engines:
`via` exchanges the way of access, and everything else commutes with it.
-/

set_option autoImplicit false
set_option relaxedAutoImplicit false

namespace InvertedIndex

variable {disk : Disk} {access : Access} {path : String}

namespace Source

def via (access : Access) (source : Source) : Source :=
  { source with access := access }

theorem readsAs_via {source : Source} (intact : source.Intact disk) :
    (source.via access).ReadsAs disk source disk :=
  .of_intact rfl rfl rfl intact

theorem openPath_via (noFolder : ¬disk.LeadsToFolder path) (access other : Access) :
    openPath disk path access = via access <$> openPath disk path other := by
  cases found : disk.target path with
  | error cause =>
    rw [openPath_of_target_error found, openPath_of_target_error found]
    rfl
  | ok id =>
    have file := Disk.isFolder_of_target noFolder found
    rw [openPath_of_target found file, openPath_of_target found file]
    rfl

end Source

namespace ChainTable

def via (access : Access) (table : ChainTable) : ChainTable :=
  { table with source := table.source.via access }

theorem openAt_via {source : Source} (intact : source.Intact disk) (base : Offset) :
    openAt (source.via access) disk base = via access <$> openAt source disk base := by
  simp only [openAt, (Source.readsAs_via intact).fetch, map_bind]
  congr 1
  funext header
  split
  · rfl
  · rw [map_bind]
    rfl

theorem readsAs_via {table : ChainTable} (intact : table.source.Intact disk) :
    (table.via access).ReadsAs disk table disk :=
  ⟨Source.readsAs_via intact, rfl, rfl⟩

end ChainTable

def DocumentTable.via (access : Access) (table : DocumentTable) : DocumentTable :=
  ⟨table.buckets.via access⟩

def WordTable.via (access : Access) (table : WordTable) : WordTable :=
  ⟨table.buckets.via access⟩

namespace IndexFile

def via (access : Access) (file : IndexFile) : IndexFile :=
  { file with access := access }

theorem openPath_via (noFolder : ¬disk.LeadsToFolder path) (strict : Bool) (access other : Access) :
    openPath disk path strict access = via access <$> openPath disk path strict other := by
  unfold openPath
  rw [Source.openPath_via noFolder access other]
  cases h : Source.openPath disk path other with
  | error fault => rfl
  | ok source =>
    have intact := Source.intact_of_openPath h (Source.regular_of_openPath noFolder h)
    have check : ∀ header, ensureChecksum (source.via access) disk header strict =
        ensureChecksum source disk header strict := by
      intro header
      rw [ensureChecksum, ensureChecksum, (Source.readsAs_via intact).checksum]
    simp only [Logged.lift_ok, Logged.lift_map, map_bind, map_pure, pure_bind,
      (Source.readsAs_via intact).fetch, check]
    rfl

theorem path_of_openPath {strict : Bool} {file : IndexFile}
    (h : (openPath disk path strict access).result = .ok file) : file.path = path := by
  simp only [openPath, Logged.result_bind, Logged.result_lift, Logged.result_pure] at h
  obtain ⟨source, -, h⟩ := Outcome.bind_eq_ok.mp h
  obtain ⟨header, -, h⟩ := Outcome.bind_eq_ok.mp h
  obtain ⟨-, -, h⟩ := Outcome.bind_eq_ok.mp h
  obtain ⟨-, -, h⟩ := Outcome.bind_eq_ok.mp h
  obtain ⟨-, -, h⟩ := Outcome.bind_eq_ok.mp h
  obtain ⟨-, -, h⟩ := Outcome.bind_eq_ok.mp h
  obtain ⟨-, -, h⟩ := Outcome.bind_eq_ok.mp h
  cases h
  rfl

variable {file : IndexFile} (noFolder : ¬disk.LeadsToFolder file.path) (access : Access)
include noFolder

theorem reopen_via (base : Offset) :
    (file.via access).reopen disk base = ChainTable.via access <$> file.reopen disk base := by
  have sources : Source.openPath disk file.path access = _ :=
    Source.openPath_via noFolder access file.access
  simp only [reopen, via, sources]
  cases h : Source.openPath disk file.path file.access with
  | error fault => rfl
  | ok source =>
    have table : ChainTable.openAt (source.via access) disk base = _ :=
      ChainTable.openAt_via
        (Source.intact_of_openPath h (Source.regular_of_openPath noFolder h)) base
    show (if (source.via access).stamp ≠ file.stamp then _ else _) =
      Except.map (ChainTable.via access) (if source.stamp ≠ file.stamp then _ else _)
    by_cases changed : source.stamp ≠ file.stamp
    · have changed' : (source.via access).stamp ≠ file.stamp := changed
      rw [if_pos changed', if_pos changed]
      rfl
    · have changed' : ¬(source.via access).stamp ≠ file.stamp := changed
      rw [if_neg changed', if_neg changed]
      exact table

theorem openDocuments_via :
    (file.via access).openDocuments disk = DocumentTable.via access <$> file.openDocuments disk := by
  simp only [openDocuments, via, map_bind]
  have h : (file.via access).reopen disk file.header.documentTable = _ :=
    reopen_via noFolder access file.header.documentTable
  rw [via] at h
  rw [h, bind_map_left]
  rfl

theorem openWords_via :
    (file.via access).openWords disk = WordTable.via access <$> file.openWords disk := by
  simp only [openWords, via, map_bind]
  have h : (file.via access).reopen disk file.header.wordTable = _ :=
    reopen_via noFolder access file.header.wordTable
  rw [via] at h
  rw [h, bind_map_left]
  rfl

end IndexFile

namespace OpenIndex

def via (access : Access) (index : OpenIndex) : OpenIndex :=
  ⟨index.path, index.documents.via access, index.words.via access⟩

theorem openPath_via (noFolder : ¬disk.LeadsToFolder path) (strict : Bool) (access other : Access) :
    openPath disk path strict access = via access <$> openPath disk path strict other := by
  simp only [openPath, IndexFile.openPath_via noFolder strict access other, map_bind, bind_map_left]
  refine Logged.bind_congr_of_ok fun file opened => ?_
  have noFolder' : ¬disk.LeadsToFolder file.path := IndexFile.path_of_openPath opened ▸ noFolder
  simp only [IndexFile.openDocuments_via noFolder', IndexFile.openWords_via noFolder',
    Logged.lift_map, bind_map_left]
  rfl

theorem readsAs_via {index : OpenIndex} (documents : index.documents.buckets.source.Intact disk)
    (words : index.words.buckets.source.Intact disk) : (index.via access).ReadsAs disk index disk :=
  ⟨rfl, ChainTable.readsAs_via documents, ChainTable.readsAs_via words⟩

end OpenIndex

namespace Settings

def via (access : Access) (settings : Settings) : Settings :=
  { settings with mapped := access = .mapped }

theorem access_via (access : Access) (settings : Settings) :
    (settings.via access).access = access := by
  cases access <;> rfl

end Settings

namespace Engine

def via (access : Access) (engine : Engine) : Engine :=
  ⟨engine.indexes.map (OpenIndex.via access), engine.strict⟩

theorem start_via {settings : Settings}
    (noFolder : ∀ path ∈ settings.paths, ¬disk.LeadsToFolder path) (access : Access) :
    start disk (settings.via access) = via access <$> start disk settings := by
  have opened : ((settings.via access).paths.mapM fun path =>
      OpenIndex.openPath disk path (settings.via access).strict (settings.via access).access) =
      List.map (OpenIndex.via access) <$> settings.paths.mapM fun path =>
        OpenIndex.openPath disk path settings.strict settings.access := by
    rw [← Logged.mapM_map_result, Settings.access_via]
    have paths : List.Forall₂ (fun path path' => path = path' ∧ ¬disk.LeadsToFolder path)
        settings.paths settings.paths :=
      List.forall₂_same.mpr fun path mem => ⟨rfl, noFolder path mem⟩
    refine Logged.mapM_congr paths ?_
    rintro path _ ⟨rfl, noFolder⟩
    exact OpenIndex.openPath_via noFolder settings.strict access settings.access
  have check : (settings.via access).check = settings.check := rfl
  simp only [start, opened, check, bind_map_left, map_bind, map_pure, List.length_map]
  rfl

theorem readsAs_via {engine : Engine}
    (documents : ∀ index ∈ engine.indexes, index.documents.buckets.source.Intact disk)
    (words : ∀ index ∈ engine.indexes, index.words.buckets.source.Intact disk) :
    (engine.via access).ReadsAs disk engine disk := by
  refine ⟨rfl, List.forall₂_map_left_iff.mpr (List.forall₂_same.mpr ?_)⟩
  intro index mem
  exact OpenIndex.readsAs_via (documents index mem) (words index mem)

end Engine

end InvertedIndex
