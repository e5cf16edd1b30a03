import InvertedIndex.Disk

set_option autoImplicit false
set_option relaxedAutoImplicit false

namespace InvertedIndex.Disk

variable {disk : Disk} {path : String} {location : Location} {id : FileId}

def LeadsToFolder (disk : Disk) (path : String) : Prop :=
  ∃ location, disk.target path = .ok (.folder location)

instance (disk : Disk) (path : String) : Decidable (disk.LeadsToFolder path) :=
  match h : disk.target path with
  | .ok (.folder location) => isTrue ⟨location, h⟩
  | .ok (.file _) => isFalse (by simp [LeadsToFolder, h])
  | .error _ => isFalse (by simp [LeadsToFolder, h])

theorem find_eq_ok :
    disk.find path = .ok (location, id) ↔
      ∃ number, disk.place path = .ok (.file location number) ∧ id = .file number := by
  unfold find fileAt
  cases disk.place path with
  | error cause => simp [bind, Except.bind]
  | ok place =>
    cases place with
    | file location' number => simp [bind, Except.bind, pure, Except.pure, eq_comm, and_assoc]
    | folder location' => simp [bind, Except.bind]
    | vacant location' => simp [bind, Except.bind]

theorem target_of_find (found : disk.find path = .ok (location, id)) :
    disk.target path = .ok id ∧ id.isFolder = false := by
  obtain ⟨number, place, rfl⟩ := find_eq_ok.mp found
  exact ⟨by rw [target, place], rfl⟩

theorem find_of_target (found : disk.target path = .ok id) (file : id.isFolder = false) :
    ∃ location, disk.find path = .ok (location, id) := by
  unfold target at found
  split at found
  · next location number place =>
    cases found
    exact ⟨location, find_eq_ok.mpr ⟨number, place, rfl⟩⟩
  · cases found
    cases file
  · cases found
  · cases found

theorem isFolder_of_target (noFolder : ¬disk.LeadsToFolder path)
    (found : disk.target path = .ok id) : id.isFolder = false := by
  cases id with
  | file number => rfl
  | folder location => exact absurd ⟨location, found⟩ noFolder

end InvertedIndex.Disk
