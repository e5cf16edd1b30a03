import InvertedIndex.Proofs.Access
import InvertedIndex.Proofs.OpenHandles

/-!
Sessions with mapped files and sessions with files that are read where they are. Folders are another
matter: one can be opened, though not read, but not be mapped.
-/

set_option autoImplicit false
set_option relaxedAutoImplicit false

namespace InvertedIndex

variable {disk : Disk} {access : Access}

def Handle.via (access : Access) : Handle → Handle
  | .source s => .source (s.via access)
  | .buckets t => .buckets (t.via access)
  | .documents t => .documents (t.via access)
  | .words t => .words (t.via access)
  | .file f => .file (f.via access)
  | .engine e => .engine (e.via access)

def Handle.allVia (access : Access) (handles : List (HandleName × Handle)) :
    List (HandleName × Handle) :=
  handles.map fun entry => (entry.1, entry.2.via access)

def Opening.via (access : Access) : Opening → Opening
  | .source path _ => .source path access
  | .buckets path base _ => .buckets path base access
  | .documentsAt path base _ => .documentsAt path base access
  | .wordsAt path base _ => .wordsAt path base access
  | .file path strict _ => .file path strict access
  | .documentsOf name => .documentsOf name
  | .wordsOf name => .wordsOf name
  | .engine settings => .engine (settings.via access)

def Step.via (access : Access) : Step → Step
  | .change c => .change c
  | .drop name => .drop name
  | .opening name o => .opening name (o.via access)
  | .ask name question => .ask name question

def Answer.via (access : Access) : Answer → Answer
  | .opened handle => .opened (handle.via access)
  | answer => answer

def Reply.via (access : Access) : Reply → Reply
  | .noHandle => .noHandle
  | .outcome o => .outcome ⟨o.events, o.result.map (Answer.via access)⟩

def Session.via (access : Access) (session : Session) : Session :=
  ⟨session.disk, Handle.allVia access session.handles⟩

theorem Handle.lookup_allVia (handles : List (HandleName × Handle)) (name : HandleName) :
    (allVia access handles).lookup name = (handles.lookup name).map (via access) := by
  induction handles with
  | nil => rfl
  | cons entry rest ih =>
    obtain ⟨name', handle⟩ := entry
    rw [allVia] at ih ⊢
    simp only [List.map_cons, List.lookup_cons, ih]
    cases name == name' <;> rfl

private theorem perform_table_via (wrap : ChainTable → Handle)
    (wrap_via : ∀ table, (wrap table).via access = wrap (table.via access)) {path : String}
    (noFolder : ¬disk.LeadsToFolder path) (base : Offset) (other : Access) :
    (do pure (wrap (← ChainTable.openAt (← Source.openPath disk path access) disk base)) :
        Logged Handle) =
      Handle.via access <$>
        (do pure (wrap (← ChainTable.openAt (← Source.openPath disk path other) disk base))) := by
  rw [Source.openPath_via noFolder access other]
  cases h : Source.openPath disk path other with
  | error fault => rfl
  | ok source =>
    have table : ChainTable.openAt (source.via access) disk base = _ :=
      ChainTable.openAt_via (Source.intact_of_openPath h (Source.regular_of_openPath noFolder h)) base
    simp only [Logged.lift_ok, Logged.lift_map, map_pure, pure_bind, table, bind_map_left, map_bind,
      wrap_via]

theorem Handle.sources_via (handle : Handle) :
    (handle.via access).sources = handle.sources.map (Source.via access) := by
  cases handle with
  | engine e => simp only [via, Engine.via, sources, List.flatMap_map, List.map_flatMap]; rfl
  | _ => rfl

theorem Opening.perform_via {handles : List (HandleName × Handle)} {opening : Opening}
    (noFolder : ∀ path ∈ opening.paths handles, ¬disk.LeadsToFolder path) :
    (opening.via access).perform disk (Handle.allVia access handles) =
      (opening.perform disk handles).map (Handle.via access <$> ·) := by
  cases opening with
  | source path other =>
    have noFolder := noFolder path (List.mem_singleton_self _)
    simp only [via, perform, Option.map_some, Source.openPath_via noFolder access other,
      Logged.lift_map, bind_map_left, map_bind, map_pure]
    rfl
  | buckets path base other =>
    have noFolder := noFolder path (List.mem_singleton_self _)
    exact congrArg some (perform_table_via Handle.buckets (fun _ => rfl) noFolder base other)
  | documentsAt path base other =>
    have noFolder := noFolder path (List.mem_singleton_self _)
    exact congrArg some
      (perform_table_via (fun t => .documents ⟨t⟩) (fun _ => rfl) noFolder base other)
  | wordsAt path base other =>
    have noFolder := noFolder path (List.mem_singleton_self _)
    exact congrArg some (perform_table_via (fun t => .words ⟨t⟩) (fun _ => rfl) noFolder base other)
  | file path strict other =>
    have noFolder := noFolder path (List.mem_singleton_self _)
    simp only [via, perform, Option.map_some, IndexFile.openPath_via noFolder strict access other,
      bind_map_left, map_bind, map_pure]
    rfl
  | documentsOf name =>
    simp only [via, perform, Handle.lookup_allVia, paths] at noFolder ⊢
    cases held : handles.lookup name with
    | none => rfl
    | some handle =>
      cases handle with
      | file f =>
        rw [held] at noFolder
        have noFolder := noFolder f.path (List.mem_singleton_self _)
        simp only [Option.map_some, Handle.via, IndexFile.openDocuments_via noFolder,
          Logged.lift_map, bind_map_left, map_bind, map_pure]
      | _ => rfl
  | wordsOf name =>
    simp only [via, perform, Handle.lookup_allVia, paths] at noFolder ⊢
    cases held : handles.lookup name with
    | none => rfl
    | some handle =>
      cases handle with
      | file f =>
        rw [held] at noFolder
        have noFolder := noFolder f.path (List.mem_singleton_self _)
        simp only [Option.map_some, Handle.via, IndexFile.openWords_via noFolder, Logged.lift_map,
          bind_map_left, map_bind, map_pure]
      | _ => rfl
  | engine settings =>
    simp only [via, perform, Option.map_some, Engine.start_via noFolder, bind_map_left, map_bind,
      map_pure]
    rfl

theorem Opening.paths_via (handles : List (HandleName × Handle)) (opening : Opening) :
    (opening.via access).paths (Handle.allVia access handles) = opening.paths handles := by
  cases opening with
  | documentsOf name | wordsOf name =>
    simp only [via, paths, Handle.lookup_allVia]
    cases handles.lookup name with
    | none => rfl
    | some handle => cases handle <;> rfl
  | _ => rfl

theorem Handle.readsAs_via {handle : Handle}
    (intact : ∀ source ∈ handle.sources, source.Intact disk) :
    Handle.ReadsAs disk disk (handle.via access) handle := by
  cases handle with
  | source s => exact .source (Source.readsAs_via (intact s (by simp [sources]))) rfl
  | buckets t => exact .buckets (ChainTable.readsAs_via (intact _ (by simp [sources])))
  | documents t => exact .documents (ChainTable.readsAs_via (intact _ (by simp [sources])))
  | words t => exact .words (ChainTable.readsAs_via (intact _ (by simp [sources])))
  | file f => exact .file _ f
  | engine e =>
    refine .engine (Engine.readsAs_via ?_ ?_)
    · exact fun index mem => intact _ (List.mem_flatMap.mpr ⟨index, mem, by simp⟩)
    · exact fun index mem => intact _ (List.mem_flatMap.mpr ⟨index, mem, by simp⟩)

theorem Handle.stampUnder_allVia (handles : List (HandleName × Handle)) (name : HandleName) :
    stampUnder (allVia access handles) name = stampUnder handles name := by
  rw [stampUnder, stampUnder, lookup_allVia]
  cases handles.lookup name with
  | none => rfl
  | some handle => cases handle <;> rfl

theorem Handle.map_via_answer (handles : List (HandleName × Handle)) (handle : Handle)
    (question : Question) :
    (handle.answer disk handles question).map (Answer.via access <$> ·) =
      handle.answer disk handles question := by
  cases handle <;> cases question <;>
    simp only [answer, Option.map_some, Option.map_none, map_bind, map_pure, Answer.via]
  case source.sameFile s name => split <;> rfl

theorem Handle.answer_via {handle : Handle} (intact : ∀ source ∈ handle.sources, source.Intact disk)
    (handles : List (HandleName × Handle)) (question : Question) :
    (handle.via access).answer disk (allVia access handles) question =
      (handle.answer disk handles question).map (Answer.via access <$> ·) := by
  rw [map_via_answer]
  exact (readsAs_via intact).answer fun name _ => stampUnder_allVia handles name

namespace Session

theorem without_via (session : Session) (name : HandleName) :
    (session.via access).without name = Handle.allVia access (session.without name) := by
  simp only [without, via, Handle.allVia, List.filter_map]
  rfl

theorem opened_via (session : Session) (next : Step) :
    (session.via access).opened (next.via access) = session.opened next := by
  cases next with
  | opening name o => exact Opening.paths_via session.handles o
  | _ => rfl

theorem step_via {session : Session} (intact : session.Intact) {next : Step}
    (noFolder : ∀ path ∈ session.opened next, ¬session.disk.LeadsToFolder path) :
    (session.via access).step (next.via access) =
      ((session.step next).1.via access, (session.step next).2.via access) := by
  cases next with
  | change c =>
    simp only [step, via, Step.via]
    cases c.apply session.disk <;> rfl
  | drop name =>
    simp only [step, Step.via, without_via]
    rfl
  | opening name o =>
    simp only [step, Step.via, without_via]
    simp only [via, Opening.perform_via noFolder]
    cases o.perform session.disk session.handles with
    | none => rfl
    | some outcome =>
      simp only [Option.map_some, Logged.map_eq]
      cases outcome.result <;> rfl
  | ask name question =>
    simp only [step, Step.via]
    simp only [via, Handle.lookup_allVia]
    cases h : session.handles.lookup name with
    | none => rfl
    | some handle =>
      have mem : (name, handle) ∈ session.handles := by
        obtain ⟨front, back, split, -⟩ := List.lookup_eq_some_iff.mp h
        simp [split]
      have held : ∀ source ∈ handle.sources, source.Intact session.disk :=
        fun source hsource => intact source (List.mem_flatMap.mpr ⟨_, mem, hsource⟩)
      have same : (handle.via access).answer session.disk (Handle.allVia access session.handles)
          question = _ := Handle.answer_via held session.handles question
      simp only [Option.map_some, Option.bind_some, same]
      cases handle.answer session.disk session.handles question with
      | none => rfl
      | some outcome =>
        simp only [Option.map_some, Logged.map_eq]
        rfl

theorem run_via {session : Session} (intact : session.Intact) {steps : List Step}
    (noFolder : session.NeverOpensFolders steps) (steady : session.NeverShrinks steps) :
    (session.via access).run (steps.map (Step.via access)) =
      ((session.run steps).1.via access, (session.run steps).2.map (Reply.via access)) := by
  induction steps generalizing session with
  | nil => rfl
  | cons next rest ih =>
    have intact' := intact_step intact noFolder.1 steady.1
    simp only [List.map_cons, run, step_via intact noFolder.1, ih intact' noFolder.2 steady.2]

theorem sources_via (session : Session) :
    (session.via access).sources = session.sources.map (Source.via access) := by
  simp only [sources, via, Handle.allVia, List.flatMap_map, List.map_flatMap, Handle.sources_via]

theorem steady_via {session : Session} (intact : session.Intact) {steps : List Step} :
    (session.via access).NeverOpensFolders (steps.map (Step.via access)) ∧
        (session.via access).NeverShrinks (steps.map (Step.via access)) ↔
      session.NeverOpensFolders steps ∧ session.NeverShrinks steps := by
  induction steps generalizing session with
  | nil => rfl
  | cons next rest ih =>
    simp only [List.map_cons, NeverOpensFolders, NeverShrinks, opened_via, and_assoc]
    refine and_congr_right fun noFolder => ?_
    simp only [step_via intact noFolder, sources_via, List.forall_mem_map]
    rw [and_left_comm, and_left_comm (a := NeverOpensFolders _ rest)]
    refine and_congr_right fun kept => ?_
    exact ih (intact_step intact noFolder kept)

/-- Runs whose steps differ only in how files are accessed, on any disk and with any open handles, as
long as no folder is opened and no open file is shrunk in place. -/
theorem replies_do_not_depend_on_access {session : Session} (intact : session.Intact)
    {steps steps' : List Step} (same : steps.map (Step.via .seek) = steps'.map (Step.via .seek))
    (noFolder : session.NeverOpensFolders steps) (steady : session.NeverShrinks steps) :
    (session.run steps).2.map (Reply.via .seek) = (session.run steps').2.map (Reply.via .seek) ∧
      (session.run steps).1.disk = (session.run steps').1.disk := by
  obtain ⟨noFolder', steady'⟩ : session.NeverOpensFolders steps' ∧ session.NeverShrinks steps' := by
    have seek : (session.via .seek).NeverOpensFolders (steps.map (Step.via .seek)) ∧
        (session.via .seek).NeverShrinks (steps.map (Step.via .seek)) :=
      (steady_via intact).mpr ⟨noFolder, steady⟩
    rw [same] at seek
    exact (steady_via intact).mp seek
  have left : (session.via .seek).run (steps.map (Step.via .seek)) = _ :=
    run_via intact noFolder steady
  have right : (session.via .seek).run (steps'.map (Step.via .seek)) = _ :=
    run_via intact noFolder' steady'
  rw [same, right] at left
  have sessions := congrArg (fun outcome => outcome.1.disk) left
  have replies := congrArg Prod.snd left
  exact ⟨replies.symm, sessions.symm⟩

/-- A disk with a file of three bytes, an empty one, and a folder. -/
def twoFiles : Disk :=
  { objects := #[⟨⟨#[1, 2, 3]⟩, 0⟩, ⟨⟨#[]⟩, 0⟩]
    folders := [["d"]]
    names := [(["a"], 0), (["b"], 1)] }

/-- An engine over a folder: it is opened and cannot be read, or cannot be mapped. -/
def folderSteps (access : Access) : List Step :=
  [.opening "q" (.engine ((Settings.strictOver ["d"]).via access))]

theorem replies_depend_on_access_in_folder :
    (⟨twoFiles, []⟩ : Session).Intact ∧
      (folderSteps .mapped).map (Step.via .seek) = (folderSteps .seek).map (Step.via .seek) ∧
      (⟨twoFiles, []⟩ : Session).NeverShrinks (folderSteps .mapped) ∧
      (⟨twoFiles, []⟩ : Session).NeverShrinks (folderSteps .seek) ∧
      ((⟨twoFiles, []⟩ : Session).run (folderSteps .mapped)).2 =
        [.outcome (Logged.fail (.io .noDevice))] ∧
      ((⟨twoFiles, []⟩ : Session).run (folderSteps .seek)).2 =
        [.outcome (Logged.fail (.io .isDirectory))] ∧
      (Fault.io .noDevice).message ≠ (Fault.io .isDirectory).message := by
  have reply : ∀ access cause,
      (Engine.start twoFiles ((Settings.strictOver ["d"]).via access)).events = [] →
      (Engine.start twoFiles ((Settings.strictOver ["d"]).via access)).result = .error (.io cause) →
      ((⟨twoFiles, []⟩ : Session).run (folderSteps access)).2 =
        [.outcome (Logged.fail (.io cause))] := by
    intro access cause events result
    have start : Engine.start twoFiles ((Settings.strictOver ["d"]).via access) =
        Logged.fail (.io cause) := Logged.ext events result
    simp only [folderSteps, run, step, Opening.perform, start]
    rfl
  refine ⟨by decide, rfl, by decide +kernel, by decide +kernel, ?_, ?_, by decide⟩
  · exact reply .mapped .noDevice (by decide +kernel) (by decide +kernel)
  · exact reply .seek .isDirectory (by decide +kernel) (by decide +kernel)

/-- Reads before and after an open file grows and another takes over its name. -/
def growingSteps (access : Access) : List Step :=
  [.opening "s" (.source "a" access), .ask "s" (.read 1 2), .ask "s" (.fetch .link 0),
    .change (.overwrite "a" ⟨#[4, 5, 6, 7]⟩ 1), .ask "s" (.read 1 2), .ask "s" (.read 1 3),
    .opening "t" (.source "b" access), .ask "t" (.read 0 0), .ask "t" (.read 1 0),
    .change (.rename "b" "a"), .ask "s" (.readWithin 0 3), .ask "s" (.sameFile "t")]

theorem replies_do_not_depend_on_access_growing :
    (⟨twoFiles, []⟩ : Session).Intact ∧
      (growingSteps .mapped).map (Step.via .seek) = (growingSteps .seek).map (Step.via .seek) ∧
      (⟨twoFiles, []⟩ : Session).NeverOpensFolders (growingSteps .mapped) ∧
      (⟨twoFiles, []⟩ : Session).NeverShrinks (growingSteps .mapped) ∧
      ((⟨twoFiles, []⟩ : Session).run (growingSteps .mapped)).2.map (Reply.via .seek) =
        ((⟨twoFiles, []⟩ : Session).run (growingSteps .seek)).2.map (Reply.via .seek) := by
  have intact : (⟨twoFiles, []⟩ : Session).Intact := by decide
  have same : (growingSteps .mapped).map (Step.via .seek) =
      (growingSteps .seek).map (Step.via .seek) := rfl
  have noFolder : (⟨twoFiles, []⟩ : Session).NeverOpensFolders (growingSteps .mapped) := by
    decide +kernel
  have steady : (⟨twoFiles, []⟩ : Session).NeverShrinks (growingSteps .mapped) := by decide +kernel
  exact ⟨intact, same, noFolder, steady,
    (replies_do_not_depend_on_access intact same noFolder steady).1⟩

end Session

end InvertedIndex
