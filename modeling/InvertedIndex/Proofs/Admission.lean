import InvertedIndex.Contents.Image
import InvertedIndex.Engine
import InvertedIndex.Proofs.Flaws

/-!
Which settings give an engine, and the first fault on the way through the paths of the others.
-/

set_option autoImplicit false
set_option relaxedAutoImplicit false

namespace InvertedIndex

open Outcome (bind_eq_ok bind_eq_error mapM_eq_ok mapM_eq_error_iff_findSome?)

namespace Settings

variable {settings : Settings}

theorem check_of_no_paths (none : settings.paths = []) : settings.check = .error .noIndexFiles := by
  rw [check, if_pos none]

theorem check_of_first_empty {position : Nat} (empty : settings.paths[position]? = some "")
    (first : ∀ earlier < position, settings.paths[earlier]? ≠ some "") :
    settings.check = .error (.invalidSettings (.emptyPath position)) := by
  have files : settings.paths ≠ [] := by
    intro none
    simp [none] at empty
  have found : (settings.paths.findIdx? fun path => path = "") = some position := by
    obtain ⟨inside, here⟩ := List.getElem?_eq_some_iff.mp empty
    rw [List.findIdx?_eq_some_iff_getElem]
    refine ⟨inside, decide_eq_true here, fun earlier before => ?_⟩
    intro also
    refine first earlier before (List.getElem?_eq_some_iff.mpr ⟨before.trans inside, ?_⟩)
    exact of_decide_eq_true also
  rw [check, if_neg files, found]

theorem check_eq_ok :
    settings.check = .ok () ↔ settings.paths ≠ [] ∧ "" ∉ settings.paths := by
  have named : (settings.paths.findIdx? fun path => path = "") = none ↔ "" ∉ settings.paths := by
    rw [List.findIdx?_eq_none_iff]
    constructor
    · intro each mem
      exact of_decide_eq_false (each "" mem) rfl
    · intro absent path mem
      apply decide_eq_false
      rintro rfl
      exact absent mem
  rw [← named, check]
  split
  · simp_all
  · split <;> simp_all

end Settings

namespace Engine

open OpenIndex (faultAt FoundAt)

variable {disk : Disk} {settings : Settings}

theorem start_of_check {fault : Fault} (refused : settings.check = .error fault) :
    start disk settings = Logged.fail fault := by
  rw [start, refused]
  rfl

theorem result_start (disk : Disk) (settings : Settings) :
    (start disk settings).result =
      settings.check >>= fun _ =>
        (settings.paths.mapM fun path =>
            (OpenIndex.openPath disk path settings.strict settings.access).result) >>= fun indexes =>
          .ok ⟨indexes, settings.strict⟩ := by
  simp only [start, Logged.result_bind, Logged.result_lift, Logged.result_mapM,
    Logged.result_report, Logged.result_pure]
  rfl

theorem result_start_eq_ok {engine : Engine} :
    (start disk settings).result = .ok engine ↔
      settings.check = .ok () ∧ engine.strict = settings.strict ∧
        (settings.paths.mapM fun path =>
          (OpenIndex.openPath disk path settings.strict settings.access).result) =
            .ok engine.indexes := by
  rw [result_start, bind_eq_ok]
  simp only [bind_eq_ok]
  constructor
  · rintro ⟨passed, checked, indexes, opened, started⟩
    cases started
    exact ⟨checked, rfl, opened⟩
  · rintro ⟨checked, strict, opened⟩
    refine ⟨(), checked, engine.indexes, opened, ?_⟩
    rw [← strict]

theorem result_start_eq_error (checked : settings.check = .ok ()) {fault : Fault} :
    (start disk settings).result = .error fault ↔
      (settings.paths.mapM fun path =>
        (OpenIndex.openPath disk path settings.strict settings.access).result) = .error fault := by
  rw [result_start, checked]
  refine bind_eq_error.trans ?_
  simp [bind_eq_error]

/-- Which settings give an engine, and with what fault the others fail. The list of paths is looked at
first, without the disk. Then each path is opened in its turn, and the first that cannot be opened, or
leads to a file with a flaw, ends the attempt with the fault of its first flaw. -/
theorem starts_over_sound_files (disk : Disk) (settings : Settings) :
    (settings.paths = [] → start disk settings = Logged.fail .noIndexFiles) ∧
    (∀ position, settings.paths[position]? = some "" →
      (∀ earlier < position, settings.paths[earlier]? ≠ some "") →
        start disk settings = Logged.fail (.invalidSettings (.emptyPath position))) ∧
    ((∀ id, (disk.bytes id).size < 2 ^ 64) → settings.paths ≠ [] → "" ∉ settings.paths →
      (∀ fault, (start disk settings).result = .error fault ↔
        settings.paths.findSome? (faultAt disk settings.strict settings.access) = some fault) ∧
      ∀ engine, (start disk settings).result = .ok engine ↔
        engine.strict = settings.strict ∧
          List.Forall₂ (fun path index =>
            faultAt disk settings.strict settings.access path = none ∧
              FoundAt disk settings.access path index) settings.paths engine.indexes) := by
  refine ⟨fun none => start_of_check (Settings.check_of_no_paths none),
    fun position empty first => start_of_check (Settings.check_of_first_empty empty first), ?_⟩
  intro addressable files named
  have checked : settings.check = .ok () := Settings.check_eq_ok.mpr ⟨files, named⟩
  constructor
  · intro fault
    rw [result_start_eq_error checked]
    exact mapM_eq_error_iff_findSome? fun path fault =>
      OpenIndex.result_openPath_eq_error addressable
  · intro engine
    rw [result_start_eq_ok, mapM_eq_ok]
    simp only [OpenIndex.result_openPath_eq_ok addressable, checked, true_and]

/-- A disk with one file: its header points both regions to one table without buckets, and does not have
the checksum of that. -/
def bareDisk : Disk :=
  let header : FileHeader := ⟨magicNumber, 0, 24, 24⟩
  { objects := #[⟨(Record.encode header ++ [0, 0, 0, 0]).toByteArray, 0⟩]
    folders := []
    names := [(["bare"], 0)] }

theorem bareDisk_addressable (id : FileId) : (bareDisk.bytes id).size < 2 ^ 64 := by
  match id with
  | .file 0 => decide +kernel
  | .file (_ + 1) => simp [bareDisk, Disk.bytes, Disk.object?]
  | .folder _ => exact Nat.two_pow_pos 64

/-- The sample files open where no checksum is asked for. The bare file fails for its checksum or for its
table, and paths behind it are not looked at. -/
theorem starts_over_sound_files_sample :
    start sampleDisk (.strictOver []) = Logged.fail .noIndexFiles ∧
      start sampleDisk (.strictOver ["none", "", ""]) =
        Logged.fail (.invalidSettings (.emptyPath 1)) ∧
      (∀ id, (sampleDisk.bytes id).size < 2 ^ 64) ∧ (∀ id, (bareDisk.bytes id).size < 2 ^ 64) ∧
      (start sampleDisk (.lenientOver ["whole", "none"])).result = .error (.io .notFound) ∧
      (start bareDisk (.strictOver ["bare", "none"])).result =
        .error (.checksumMismatch 0 558161692) ∧
      (start bareDisk (.lenientOver ["bare", "none"])).result =
        .error (.corruption (.zeroBuckets "bare" 24)) ∧
      ∃ engine, (start sampleDisk (.lenientOver ["whole", "cut"])).result = .ok engine ∧
        engine.indexes.map OpenIndex.path = ["whole", "cut"] := by
  refine ⟨(starts_over_sound_files _ _).1 rfl, (starts_over_sound_files _ _).2.1 1 rfl (by decide),
    sampleDisk_addressable, bareDisk_addressable, ?_, ?_, ?_, ?_⟩
  · apply (((starts_over_sound_files _ _).2.2 sampleDisk_addressable (by decide) (by decide)).1 _).mpr
    decide +kernel
  · apply (((starts_over_sound_files _ _).2.2 bareDisk_addressable (by decide) (by decide)).1 _).mpr
    decide +kernel
  · apply (((starts_over_sound_files _ _).2.2 bareDisk_addressable (by decide) (by decide)).1 _).mpr
    decide +kernel
  · let index (id : FileId) (path : String) : OpenIndex :=
      .ofFile ⟨path, sampleDisk.stamp id, .seek⟩ (sampleDisk.bytes id).data.toList
    have found : ∀ path id, faultAt sampleDisk false .seek path = none →
        sampleDisk.find path = .ok ([path], id) → faultAt sampleDisk false .seek path = none ∧
          FoundAt sampleDisk .seek path (index id path) :=
      fun path id sound found => ⟨sound, [path], id, found, rfl⟩
    refine ⟨⟨[index (.file 0) "whole", index (.file 1) "cut"], false⟩, ?_, rfl⟩
    apply (((starts_over_sound_files _ _).2.2 sampleDisk_addressable (by decide) (by decide)).2 _).mpr
    refine ⟨rfl, .cons (found _ _ ?_ ?_) (.cons (found _ _ ?_ ?_) .nil)⟩
    · decide +kernel
    · decide +kernel
    · decide +kernel
    · decide +kernel

end Engine

end InvertedIndex
