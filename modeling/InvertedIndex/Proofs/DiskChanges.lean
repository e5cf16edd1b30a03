import InvertedIndex.Proofs.OpenHandles

/-!
What becomes of file objects: a number means one file for as long as a session lasts, and its bytes
stay unless it is overwritten in place.
-/

set_option autoImplicit false
set_option relaxedAutoImplicit false

namespace InvertedIndex

variable {disk later : Disk}

namespace Disk

def Sound (disk : Disk) : Prop :=
  ∀ entry ∈ disk.names, entry.2 < disk.objects.size

/-- A file object has a number that was given out. Folders stay once they are there. -/
def Exists (disk : Disk) : FileId → Prop
  | .file number => number < disk.objects.size
  | .folder _ => True

/-- All file objects of a disk are there later, and all but one hold the same bytes. -/
structure KeepsBytes (disk later : Disk) (overwritten : Option FileId) : Prop where
  size_le : disk.objects.size ≤ later.objects.size
  bytes : ∀ id, disk.Exists id → overwritten ≠ some id → later.bytes id = disk.bytes id
  sound : disk.Sound → later.Sound

theorem KeepsBytes.exists {overwritten : Option FileId} (kept : disk.KeepsBytes later overwritten)
    {id : FileId} (there : disk.Exists id) : later.Exists id := by
  cases id with
  | file number => exact Nat.lt_of_lt_of_le there kept.size_le
  | folder location => trivial

theorem KeepsBytes.refl (disk : Disk) (overwritten : Option FileId) :
    disk.KeepsBytes disk overwritten :=
  ⟨Nat.le_refl _, fun _ _ _ => rfl, id⟩

theorem KeepsBytes.trans {last : Disk} {overwritten : Option FileId}
    (first : disk.KeepsBytes later none) (rest : later.KeepsBytes last overwritten) :
    disk.KeepsBytes last overwritten := by
  refine ⟨first.size_le.trans rest.size_le, ?_, fun sound => rest.sound (first.sound sound)⟩
  intro id there other
  rw [rest.bytes id (first.exists there) other, first.bytes id there (by simp)]

private theorem mem_names_of_walk {parts : List String} {here location : Location} {number : Nat}
    (h : disk.walk here parts = .ok (.file location number)) : (location, number) ∈ disk.names := by
  induction parts generalizing here with
  | nil => simp [walk] at h
  | cons part rest ih =>
    unfold walk at h
    dsimp only at h
    split at h
    · exact ih h
    split at h
    · exact ih h
    split at h
    · cases h
    cases found : disk.names.lookup (here ++ [part]) with
    | some there =>
      rw [found] at h
      dsimp only at h
      split at h
      · cases h
        obtain ⟨front, back, named, -⟩ := List.lookup_eq_some_iff.mp found
        simp [named]
      · cases h
    | none =>
      rw [found] at h
      dsimp only at h
      split at h
      · exact ih h
      · split at h <;> cases h

theorem lt_of_place {path : String} {location : Location} {number : Nat} (sound : disk.Sound)
    (h : disk.place path = .ok (.file location number)) : number < disk.objects.size := by
  unfold place at h
  split at h
  · cases h
  split at h
  · cases h
  split at h
  · cases h
  · exact sound _ (mem_names_of_walk h)

theorem place_of_fileAt {path : String} {location : Location} {number : Nat}
    (h : disk.fileAt path = .ok (location, number)) :
    disk.place path = .ok (.file location number) := by
  unfold fileAt at h
  split at h
  · next found =>
    cases h
    exact found
  · cases h
  · cases h
  · cases h

theorem exists_of_target {path : String} {id : FileId} (sound : disk.Sound)
    (h : disk.target path = .ok id) : disk.Exists id := by
  unfold target at h
  split at h
  · next found =>
    cases h
    exact lt_of_place sound found
  · cases h
    trivial
  · cases h
  · cases h

theorem keepsBytes_store (disk : Disk) (number : Nat) (object : FileObject) :
    disk.KeepsBytes (disk.store number object) (some (.file number)) := by
  refine ⟨?_, ?_, ?_⟩
  · simp [store]
  · rintro (other | location) _ differ
    · have differ : number ≠ other := fun same => differ (congrArg (some ∘ FileId.file) same)
      simp [bytes, object?, store, differ]
    · rfl
  · intro sound entry mem
    simpa [store] using sound entry mem

theorem keepsBytes_store_bytes (disk : Disk) (number : Nat) (modified : Int) :
    disk.KeepsBytes (disk.store number ⟨disk.bytes (.file number), modified⟩) none := by
  obtain ⟨size_le, others, sound⟩ :=
    disk.keepsBytes_store number ⟨disk.bytes (.file number), modified⟩
  refine ⟨size_le, ?_, sound⟩
  intro other there _
  by_cases same : .file number = other
  · subst same
    have there : number < disk.objects.size := there
    simp [bytes, object?, store, there]
  · exact others other there (by simpa using same)

theorem keepsBytes_unlink (disk : Disk) (location : Location) :
    disk.KeepsBytes (disk.unlink location) none := by
  refine ⟨Nat.le_refl _, fun _ _ _ => rfl, ?_⟩
  intro sound entry mem
  exact sound entry (List.mem_filter.mp mem).1

theorem keepsBytes_link (disk : Disk) (location : Location) {number : Nat}
    (there : number < disk.objects.size) : disk.KeepsBytes (disk.link location number) none := by
  refine ⟨Nat.le_refl _, fun _ _ _ => rfl, ?_⟩
  intro sound entry mem
  rcases List.mem_cons.mp mem with rfl | mem
  · exact there
  · exact sound entry (List.mem_filter.mp mem).1

theorem keepsBytes_create (disk : Disk) (location : Location) (object : FileObject) :
    disk.KeepsBytes (disk.create location object) none := by
  have pushed : disk.KeepsBytes { disk with objects := disk.objects.push object } none := by
    refine ⟨?_, ?_, ?_⟩
    · simp
    · rintro (number | location) there _
      · have there : number < disk.objects.size := there
        simp [bytes, object?, Array.getElem?_push, Nat.ne_of_lt there]
      · rfl
    · intro sound entry mem
      have there : entry.2 < disk.objects.size := sound entry mem
      show entry.2 < (disk.objects.push object).size
      rw [Array.size_push]
      exact Nat.lt_succ_of_lt there
  refine pushed.trans (keepsBytes_link _ location ?_)
  simp

theorem keepsBytes_makeFolders (disk : Disk) (path : String) :
    disk.KeepsBytes (disk.makeFolders path) none := by
  have folder : ∀ (disk : Disk) (location : Location),
      disk.KeepsBytes (disk.makeFolder location) none := by
    intro disk location
    unfold makeFolder
    split
    · exact KeepsBytes.refl disk none
    · exact ⟨Nat.le_refl _, fun _ _ _ => rfl, id⟩
  have folders : ∀ (parts : List String) (disk : Disk) (here : Location),
      disk.KeepsBytes (disk.makeFoldersFrom here parts) none := by
    intro parts
    induction parts with
    | nil => exact fun disk _ => KeepsBytes.refl disk none
    | cons part rest ih =>
      intro disk here
      cases rest with
      | nil => exact KeepsBytes.refl disk none
      | cons second rest =>
        unfold makeFoldersFrom
        dsimp only
        split
        · exact ih disk here
        · split
          · exact ih disk _
          · split
            · exact KeepsBytes.refl disk none
            · exact (folder disk _).trans (ih _ _)
  exact folders _ disk _

end Disk

def DiskChange.overwritten (disk : Disk) : DiskChange → Option FileId
  | .overwrite path _ _ =>
    match (disk.makeFolders path).place path with
    | .ok (.file _ number) => some (.file number)
    | _ => none
  | _ => none

/-- Replacing, touching, removing and renaming keep the bytes of all file objects, and overwriting
those of all but one. -/
theorem DiskChange.keepsBytes_of_apply {change : DiskChange} (sound : disk.Sound)
    (h : change.apply disk = .ok later) : disk.KeepsBytes later (change.overwritten disk) := by
  cases change with
  | overwrite path bytes modified =>
    have folders := disk.keepsBytes_makeFolders path
    simp only [apply, Disk.overwrite, overwritten] at h ⊢
    generalize (disk.makeFolders path).place path = there at h ⊢
    split at h
    · cases h
      exact folders.trans (Disk.keepsBytes_store _ _ _)
    · cases h
      exact folders.trans (Disk.keepsBytes_create _ _ _)
    · cases h
    · cases h
  | replace path bytes modified =>
    have folders := disk.keepsBytes_makeFolders path
    simp only [apply, Disk.replace] at h
    split at h
    · cases h
      exact folders.trans (Disk.keepsBytes_create _ _ _)
    · cases h
      exact folders.trans (Disk.keepsBytes_create _ _ _)
    · cases h
    · cases h
  | touch path modified =>
    obtain ⟨⟨location, number⟩, -, h⟩ := Outcome.bind_eq_ok.mp h
    cases h
    exact disk.keepsBytes_store_bytes number modified
  | remove path =>
    obtain ⟨⟨location, number⟩, -, h⟩ := Outcome.bind_eq_ok.mp h
    cases h
    exact disk.keepsBytes_unlink location
  | rename path target =>
    obtain ⟨⟨location, number⟩, found, h⟩ := Outcome.bind_eq_ok.mp h
    have folders := disk.keepsBytes_makeFolders target
    have there : number < (disk.makeFolders target).objects.size :=
      (Disk.lt_of_place sound (Disk.place_of_fileAt found)).trans_le folders.size_le
    have moved : ∀ place, (disk.makeFolders target).KeepsBytes
        (((disk.makeFolders target).unlink location).link place number) none :=
      fun place => (Disk.keepsBytes_unlink _ location).trans (Disk.keepsBytes_link _ place there)
    dsimp only at h
    split at h
    · cases h
      exact folders.trans (moved _)
    · cases h
      exact folders.trans (moved _)
    · cases h
    · cases h
  | noteFolder location state =>
    cases h
    exact ⟨Nat.le_refl _, fun id _ _ => by cases id <;> rfl, id⟩

namespace Session

def overwritten (session : Session) : Step → Option FileId
  | .change change => change.overwritten session.disk
  | _ => none

structure Sound (session : Session) : Prop where
  disk : session.disk.Sound
  sources : ∀ source ∈ session.sources, session.disk.Exists source.stamp.object

theorem keepsBytes_step {session : Session} (sound : session.disk.Sound) (next : Step) :
    session.disk.KeepsBytes (session.step next).1.disk (session.overwritten next) := by
  cases next with
  | change change =>
    simp only [step]
    cases h : change.apply session.disk with
    | error cause => exact Disk.KeepsBytes.refl _ _
    | ok disk => exact DiskChange.keepsBytes_of_apply sound h
  | drop name => exact Disk.KeepsBytes.refl _ _
  | opening name opening =>
    simp only [step]
    split
    · exact Disk.KeepsBytes.refl _ _
    · split <;> exact Disk.KeepsBytes.refl _ _
  | ask name question =>
    simp only [step]
    split <;> exact Disk.KeepsBytes.refl _ _

theorem sound_step {session : Session} (sound : session.Sound) (next : Step) :
    (session.step next).1.Sound := by
  have kept := session.keepsBytes_step sound.disk next
  refine ⟨kept.sound sound.disk, ?_⟩
  intro source mem
  rcases session.mem_sources_step next source mem with old | ⟨same, opened, -⟩
  · exact kept.exists (sound.sources source old)
  · obtain ⟨id, found, held⟩ := Source.eq_of_openPath opened
    rw [same, held]
    exact Disk.exists_of_target sound.disk found

theorem sound_run {session : Session} (sound : session.Sound) (steps : List Step) :
    (session.run steps).1.Sound := by
  induction steps generalizing session with
  | nil => exact sound
  | cons next rest ih => exact ih (sound_step sound next)

private theorem sound_foldl {α : Type} {write : Disk → α → Disk}
    (each : ∀ disk file, disk.Sound → (write disk file).Sound) (files : List α) {disk : Disk}
    (sound : disk.Sound) : (files.foldl write disk).Sound := by
  induction files generalizing disk with
  | nil => exact sound
  | cons file rest ih => exact ih (each disk file sound)

theorem sound_start (files : List (String × ByteArray)) (modified : Int) :
    (start files modified).Sound := by
  constructor
  · refine sound_foldl ?_ files ?_
    · intro disk file sound
      cases written : disk.overwrite file.1 file.2 modified with
      | error cause => exact sound
      | ok later =>
        have applied : (DiskChange.overwrite file.1 file.2 modified).apply disk = .ok later := written
        exact (DiskChange.keepsBytes_of_apply sound applied).sound sound
    · intro entry mem
      cases mem
  · intro source mem
    cases mem

/-- A session that some steps lead to from a start on some files. -/
def Reachable (session : Session) : Prop :=
  ∃ files modified steps, session = ((start files modified).run steps).1

theorem Reachable.sound {session : Session} (h : session.Reachable) : session.Sound := by
  obtain ⟨files, modified, steps, rfl⟩ := h
  exact sound_run (sound_start files modified) steps

end Session

end InvertedIndex
