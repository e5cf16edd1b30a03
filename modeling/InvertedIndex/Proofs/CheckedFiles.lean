import InvertedIndex.Proofs.MachineWords
import InvertedIndex.Proofs.NamedHandles
import InvertedIndex.Proofs.SameReads

/-!
All tables of a checked file sit on the file object that was checked, in the state that it had then,
though the path is followed again for each of them.
-/

set_option autoImplicit false
set_option relaxedAutoImplicit false

namespace InvertedIndex

variable {disk now : Disk}

theorem Source.ReadsAs.openAt {source : Source} (h : source.ReadsAs disk source now) (base : Offset) :
    ChainTable.openAt source disk base = ChainTable.openAt source now base := by
  rw [ChainTable.openAt, ChainTable.openAt, h.fetch]

namespace IndexFile

variable {file : IndexFile} {base : Offset} {location : Location} {id : FileId}

/-- The path of a file leads to the file object that was checked, and that has the time and the length
that it had then. -/
structure StandsOn (file : IndexFile) (disk : Disk) : Prop where
  object : ∃ location, disk.find file.path = .ok (location, file.stamp.object)
  modified : disk.modified file.stamp.object = file.stamp.modified
  length : (disk.stamp file.stamp.object).length = file.stamp.length

theorem StandsOn.stamp (h : file.StandsOn disk) : disk.stamp file.stamp.object = file.stamp := by
  rw [Disk.stamp, h.modified]
  exact congrArg (FileStamp.mk file.stamp.object file.stamp.modified) h.length

theorem standsOn_of_stamp (found : disk.find file.path = .ok (location, id))
    (same : disk.stamp id = file.stamp) : file.StandsOn disk := by
  have object : id = file.stamp.object := congrArg FileStamp.object same
  refine ⟨⟨location, ?_⟩, ?_, ?_⟩
  · rw [found, object]
  · rw [← object]
    exact congrArg FileStamp.modified same
  · rw [← object, same]

theorem standsOn_of_source {source : Source} {access : Access}
    (opened : Source.openPath disk file.path access = .ok source) (regular : source.Regular)
    (same : source.stamp = file.stamp) : file.StandsOn disk := by
  obtain ⟨id, target, rfl⟩ := Source.eq_of_openPath opened
  obtain ⟨location, found⟩ := Disk.find_of_target target regular
  exact standsOn_of_stamp found same

theorem StandsOn.openPath (h : file.StandsOn disk) :
    Source.openPath disk file.path file.access = .ok ⟨file.path, file.stamp, file.access⟩ := by
  obtain ⟨location, found⟩ := h.object
  rw [Source.openPath_of_find found, h.stamp]

theorem StandsOn.regular (h : file.StandsOn disk) : file.stamp.object.isFolder = false := by
  obtain ⟨location, found⟩ := h.object
  exact (Disk.target_of_find found).2

theorem standsOn_of_openPath {path : String} {strict : Bool} {access : Access}
    (h : (openPath disk path strict access).result = .ok file) :
    file.path = path ∧ file.access = access ∧ file.StandsOn disk := by
  simp only [IndexFile.openPath, Logged.result_bind, Logged.result_lift, Logged.result_pure] at h
  obtain ⟨source, hsource, h⟩ := Outcome.bind_eq_ok.mp h
  obtain ⟨header, hheader, h⟩ := Outcome.bind_eq_ok.mp h
  obtain ⟨-, -, h⟩ := Outcome.bind_eq_ok.mp h
  obtain ⟨-, -, h⟩ := Outcome.bind_eq_ok.mp h
  obtain ⟨-, -, h⟩ := Outcome.bind_eq_ok.mp h
  obtain ⟨-, -, h⟩ := Outcome.bind_eq_ok.mp h
  obtain ⟨-, -, h⟩ := Outcome.bind_eq_ok.mp h
  cases h
  exact ⟨rfl, rfl, standsOn_of_source hsource (Source.regular_of_fetch hheader (by decide)) rfl⟩

theorem reopen_of_missing {fault : Fault}
    (h : Source.openPath disk file.path file.access = .error fault) :
    file.reopen disk base = .error fault := by
  rw [reopen, h]
  rfl

theorem reopen_of_changed {source : Source}
    (opened : Source.openPath disk file.path file.access = .ok source)
    (changed : source.stamp ≠ file.stamp) :
    file.reopen disk base = .error (.corruption (.fileChanged file.path)) := by
  rw [reopen, opened]
  show (if source.stamp ≠ file.stamp then _ else _) = _
  rw [if_pos changed]
  rfl

theorem StandsOn.reopen (h : file.StandsOn disk) (base : Offset) :
    file.reopen disk base = ChainTable.openAt ⟨file.path, file.stamp, file.access⟩ disk base := by
  rw [IndexFile.reopen, h.openPath]
  show (if file.stamp ≠ file.stamp then _ else _) = _
  rw [if_neg (not_not.mpr rfl)]

theorem run_reopen_of_missing {arithmetic : Arithmetic} {disks : Nat → Disk} {fault : Fault}
    (h : Source.openPath (disks 0) file.path file.access = .error fault) :
    (Procedure.reopen file base).run arithmetic disks = ⟨[], [], [], Logged.fail fault⟩ := by
  rw [Procedure.reopen, Procedure.run, h]

/-- A changed file is refused before a byte of it is read, whatever becomes of the disk then. -/
theorem run_reopen_of_changed {arithmetic : Arithmetic} {disks : Nat → Disk} {source : Source}
    (opened : Source.openPath (disks 0) file.path file.access = .ok source)
    (changed : source.stamp ≠ file.stamp) :
    (Procedure.reopen file base).run arithmetic disks =
      ⟨[], [], [], Logged.fail (.corruption (.fileChanged file.path))⟩ := by
  rw [Procedure.reopen, Procedure.run, opened]
  show (if source.stamp ≠ file.stamp then _ else _ : Procedure _).run arithmetic _ = _
  rw [if_pos changed]
  rfl

theorem openPath_again {path : String} {strict : Bool} {access : Access} {location' : Location}
    (found : disk.find path = .ok (location, id)) (found' : now.find path = .ok (location', id))
    (stamp : disk.stamp id = now.stamp id) (bytes : disk.bytes id = now.bytes id) :
    openPath disk path strict access = openPath now path strict access := by
  have reads : Source.ReadsAs ⟨path, now.stamp id, access⟩ disk ⟨path, now.stamp id, access⟩ now :=
    .of_bytes bytes
  have check : ∀ header, ensureChecksum ⟨path, now.stamp id, access⟩ disk header strict =
      ensureChecksum ⟨path, now.stamp id, access⟩ now header strict := by
    intro header
    rw [ensureChecksum, ensureChecksum, reads.checksum]
  simp only [IndexFile.openPath, Source.openPath_of_find found, Source.openPath_of_find found', stamp,
    Logged.lift_ok, pure_bind, reads.fetch, check]

/-- What becomes of the opening of a table of a file that was checked before. Whatever can be opened and
is not that file as it was checked, is refused before a byte of it is read, and a table reads from the
file that was checked even if the disk goes on changing while it is opened. -/
structure Guards (file : IndexFile) (disk : Disk) (reply : Reply) : Prop where
  missing : ∀ fault, Source.openPath disk file.path file.access = .error fault →
    (∃ cause, fault = .io cause) ∧ reply = .outcome (Logged.fail fault)
  changed : ∀ source, Source.openPath disk file.path file.access = .ok source → ¬file.StandsOn disk →
    reply = .outcome (Logged.fail (.corruption (.fileChanged file.path))) ∧
      ∀ base arithmetic disks, disks 0 = disk →
        (Procedure.reopen file base).run arithmetic disks =
          ⟨[], [], [], Logged.fail (.corruption (.fileChanged file.path))⟩
  stands : file.StandsOn disk → ∀ base, file.reopen disk base =
    ChainTable.openAt ⟨file.path, file.stamp, file.access⟩ disk base
  opened : ∀ events handle, reply = .outcome ⟨events, .ok (.opened handle)⟩ →
    file.StandsOn disk ∧ handle.sources = [⟨file.path, file.stamp, file.access⟩]
  meanwhile : ∀ base disks table, disks 0 = disk →
    ((Procedure.reopen file base).run .machine disks).outcome.result = .ok table →
      file.StandsOn disk ∧ table.source = ⟨file.path, file.stamp, file.access⟩

theorem guards_of_reopen {wrap : ChainTable → Handle}
    (sources : ∀ table, (wrap table).sources = [table.source])
    (regular : file.stamp.object.isFolder = false) :
    file.Guards disk (.ofAnswer (some
      (Answer.opened <$> wrap <$> (liftM (file.reopen disk base) : Logged ChainTable)))) := by
  have again : ∀ {disk : Disk} {source : Source},
      Source.openPath disk file.path file.access = .ok source → source.stamp = file.stamp →
        file.StandsOn disk := by
    intro disk source opened same
    have file : source.Regular := by rwa [Source.Regular, same]
    exact standsOn_of_source opened file same
  refine ⟨?_, ?_, StandsOn.reopen, ?_, ?_⟩
  · intro fault missing
    refine ⟨Source.openPath_eq_error missing, ?_⟩
    rw [reopen_of_missing missing]
    rfl
  · intro source opened differs
    have changed : source.stamp ≠ file.stamp := fun same => differs (again opened same)
    refine ⟨?_, ?_⟩
    · rw [reopen_of_changed opened changed]
      rfl
    · rintro base arithmetic disks rfl
      exact run_reopen_of_changed opened changed
  · intro events handle reply
    cases result : file.reopen disk base with
    | error fault =>
      rw [result] at reply
      cases reply
    | ok table =>
      obtain ⟨opened, held⟩ := openedOn_of_reopen result
      have source := opened.source
      rw [result] at reply
      cases reply
      rw [held] at source
      refine ⟨again source rfl, ?_⟩
      rw [sources, held]
  · rintro base disks table rfl opened
    have reader := (((Procedure.ensures_reopen file base).run disks).2 table opened).1
    cases found : Source.openPath (disks 0) file.path file.access with
    | error fault =>
      rw [run_reopen_of_missing found] at opened
      cases opened
    | ok source =>
      by_cases same : source.stamp = file.stamp
      · exact ⟨again found same, reader⟩
      · rw [run_reopen_of_changed found same] at opened
        cases opened

end IndexFile

namespace Session

variable {session now : Session} {name : HandleName} {path : String} {strict : Bool}
  {access : Access} {file : IndexFile} {which : Opening}

def moments : Session → List Step → List Disk
  | session, [] => [session.disk]
  | session, next :: rest => session.disk :: moments (session.step next).1 rest

theorem disk_mem_moments (session : Session) (steps : List Step) :
    session.disk ∈ session.moments steps := by
  cases steps <;> exact List.mem_cons_self

theorem disk_run_mem_moments (session : Session) (steps : List Step) :
    (session.run steps).1.disk ∈ session.moments steps := by
  induction steps generalizing session with
  | nil => exact List.mem_cons_self
  | cons next rest ih => exact List.mem_cons_of_mem _ (ih (session.step next).1)

/-- At any two moments of a run a file object that has the same time and length has the same bytes. -/
def StampsTell (session : Session) (steps : List Step) : Prop :=
  ∀ before ∈ session.moments steps, ∀ after ∈ session.moments steps, ∀ id,
    before.stamp id = after.stamp id → before.bytes id = after.bytes id

private theorem perform_table {handles : List (HandleName × Handle)}
    (held : handles.lookup name = some (.file file))
    (table : which = .documentsOf name ∨ which = .wordsOf name) :
    ∃ (base : Offset) (wrap : ChainTable → Handle),
      (∀ table, (wrap table).sources = [table.source]) ∧
      ∀ disk, which.perform disk handles =
        some (wrap <$> (liftM (file.reopen disk base) : Logged ChainTable)) := by
  rcases table with rfl | rfl
  · refine ⟨file.header.documentTable, fun table => .documents ⟨table⟩, fun _ => rfl, ?_⟩
    intro disk
    simp only [Opening.perform, held, IndexFile.openDocuments]
    cases file.reopen disk file.header.documentTable <;> rfl
  · refine ⟨file.header.wordTable, fun table => .words ⟨table⟩, fun _ => rfl, ?_⟩
    intro disk
    simp only [Opening.perform, held, IndexFile.openWords]
    cases file.reopen disk file.header.wordTable <;> rfl

/-- Whatever happens between the check of an index file and the opening of one of its tables: the
table is opened only if the path leads again to the file object that was checked, in the state in which
it was checked, and then it reads that object. Where stamps tell the states of a file apart, such a file
passes the same checks again, and the table opens as it would have at once. -/
theorem tables_come_from_the_checked_file {events : List Event}
    (opened : (session.step (.opening name (.file path strict access))).2 =
      .outcome ⟨events, .ok (.opened (.file file))⟩)
    {steps : List Step} (kept : ∀ step ∈ steps, ¬step.Rebinds name)
    (later : now = ((session.step (.opening name (.file path strict access))).1.run steps).1)
    (table : which = .documentsOf name ∨ which = .wordsOf name) (other : HandleName) :
    file.path = path ∧ file.StandsOn session.disk ∧
    file.Guards now.disk (now.step (.opening other which)).2 ∧
    (session.StampsTell (.opening name (.file path strict access) :: steps) →
      file.StandsOn now.disk →
        now.disk.bytes file.stamp.object = session.disk.bytes file.stamp.object ∧
        IndexFile.openPath now.disk path strict access =
          IndexFile.openPath session.disk path strict access ∧
        which.perform now.disk now.handles = which.perform session.disk now.handles) := by
  have performed := opened_iff.mp opened
  have held : now.handles.lookup name = some (.file file) := by
    rw [later, lookup_run kept, lookup_opening, performed]
    rfl
  have checked : (IndexFile.openPath session.disk path strict access).result = .ok file := by
    have outcome := congrArg Logged.result (Option.some.inj performed)
    simp only [Logged.result_bind, Logged.result_pure] at outcome
    obtain ⟨found, hfound, same⟩ := Outcome.bind_eq_ok.mp outcome
    cases same
    exact hfound
  obtain ⟨rfl, rfl, before⟩ := IndexFile.standsOn_of_openPath checked
  obtain ⟨base, wrap, sources, performs⟩ := perform_table held table
  have guards : file.Guards now.disk (now.step (.opening other which)).2 := by
    rw [reply_opening, performs now.disk]
    exact IndexFile.guards_of_reopen sources before.regular
  refine ⟨rfl, before, guards, ?_⟩
  intro tell after
  have bytes : now.disk.bytes file.stamp.object = session.disk.bytes file.stamp.object := by
    refine tell now.disk ?_ session.disk (disk_mem_moments _ _) _ (after.stamp.trans before.stamp.symm)
    rw [later]
    exact disk_run_mem_moments session (_ :: steps)
  obtain ⟨location, found⟩ := before.object
  obtain ⟨location', found'⟩ := after.object
  have reads : Source.ReadsAs ⟨file.path, file.stamp, file.access⟩ now.disk
      ⟨file.path, file.stamp, file.access⟩ session.disk := .of_bytes bytes
  refine ⟨bytes, ?_, ?_⟩
  · exact IndexFile.openPath_again found' found (after.stamp.trans before.stamp.symm) bytes
  · rw [performs, performs, after.reopen, before.reopen, reads.openAt]

/-- An index file whose two tables are one, with one bucket and nothing in it. -/
def emptyIndex : ByteArray :=
  ⟨#[0xCA, 0xFE, 0xF0, 0x0D, 0x31, 0x2D, 0x92, 0xD0, 0, 0, 0, 0, 0, 0, 0, 24, 0, 0, 0, 0, 0, 0, 0, 24,
    0, 0, 0, 1, 0, 0, 0, 0, 0, 0, 0, 0, 0, 0, 0, 0]⟩

def emptyIndexSession : Session :=
  start [("index", emptyIndex)] 0

def checkedSession : Session :=
  (emptyIndexSession.step (.opening "f" (.file "index" true .seek))).1

def returningSteps : List Step :=
  [.change (.rename "index" "away"), .change (.rename "away" "index")]

def copyingSteps : List Step :=
  [.change (.replace "index" emptyIndex 0)]

theorem tables_come_from_the_checked_file_moved :
    ((checkedSession.run copyingSteps).1.step (.opening "w" (.wordsOf "f"))).2 =
        .outcome (Logged.fail (.corruption (.fileChanged "index"))) ∧
      ∃ events handle,
        ((checkedSession.run returningSteps).1.step (.opening "w" (.wordsOf "f"))).2 =
            .outcome ⟨events, .ok (.opened handle)⟩ ∧
          handle.sources = [⟨"index", ⟨.file 0, 0, 40⟩, .seek⟩] ∧
          IndexFile.openPath (checkedSession.run returningSteps).1.disk "index" true .seek =
            IndexFile.openPath emptyIndexSession.disk "index" true .seek := by
  let file : IndexFile := ⟨"index", ⟨magicNumber, 0x312D92D0, 24, 24⟩, ⟨.file 0, 0, 40⟩, .seek⟩
  have checks : (Opening.perform emptyIndexSession.disk emptyIndexSession.handles
      (.file "index" true .seek)).map Logged.result = some (.ok (.file file)) := by
    decide +kernel
  obtain ⟨⟨events, result⟩, performed, checked⟩ := Option.map_eq_some_iff.mp checks
  obtain rfl : result = .ok (.file file) := checked
  have opened : (emptyIndexSession.step (.opening "f" (.file "index" true .seek))).2 =
      .outcome ⟨events, .ok (.opened (.file file))⟩ := opened_iff.mpr performed
  have copied : ∀ step ∈ copyingSteps, ¬step.Rebinds "f" := by decide
  have returned : ∀ step ∈ returningSteps, ¬step.Rebinds "f" := by decide
  have copy : (checkedSession.run copyingSteps).1.disk.find "index" =
      .ok (["work", "index"], .file 1) := by
    decide +kernel
  have after : ∀ steps, (checkedSession.run steps).1 =
      ((emptyIndexSession.step (.opening "f" (.file "index" true .seek))).1.run steps).1 :=
    fun _ => rfl
  obtain ⟨-, -, refusing, -⟩ :=
    tables_come_from_the_checked_file opened copied (after copyingSteps) (Or.inr rfl) "w"
  obtain ⟨-, -, guards, again⟩ :=
    tables_come_from_the_checked_file opened returned (after returningSteps) (Or.inr rfl) "w"
  have elsewhere : ¬file.StandsOn (checkedSession.run copyingSteps).1.disk := by
    rintro ⟨⟨location, found⟩, -, -⟩
    cases copy.symm.trans found
  refine ⟨(refusing.changed _ (Source.openPath_of_find copy .seek) elsewhere).1, ?_⟩
  let words : Handle := .words ⟨⟨⟨"index", ⟨.file 0, 0, 40⟩, .seek⟩, 24, 1⟩⟩
  have opens : (Opening.perform (checkedSession.run returningSteps).1.disk
      (checkedSession.run returningSteps).1.handles (.wordsOf "f")).map Logged.result =
      some (.ok words) := by
    decide +kernel
  obtain ⟨⟨more, result⟩, performed, reader⟩ := Option.map_eq_some_iff.mp opens
  obtain rfl : result = .ok words := reader
  have reply : ((checkedSession.run returningSteps).1.step (.opening "w" (.wordsOf "f"))).2 =
      .outcome ⟨more, .ok (.opened words)⟩ := opened_iff.mpr performed
  obtain ⟨stands, sources⟩ := guards.opened _ _ reply
  refine ⟨more, _, reply, sources, ?_⟩
  have objects : ∀ disk ∈ emptyIndexSession.moments
      (.opening "f" (.file "index" true .seek) :: returningSteps),
      disk.objects = emptyIndexSession.disk.objects := by
    decide +kernel
  refine (again ?_ stands).2.1
  rintro before hbefore after hafter (number | location) _
  · rw [Disk.bytes, Disk.bytes, Disk.object?, Disk.object?, objects before hbefore,
      objects after hafter]
  · rfl

end Session

end InvertedIndex
