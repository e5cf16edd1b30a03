import InvertedIndex.Fault

/-!
A disk of files in folders. A file object keeps its number whatever happens to the names that lead
to it, and no number is used twice. Folders are made and stay.
-/

set_option autoImplicit false
set_option relaxedAutoImplicit false

namespace InvertedIndex

/-- Names of nested folders, outermost first, and then of the folder or file itself. -/
abbrev Location := List String

/-- What a path may be opened on: a file object, by its number, or a folder. -/
inductive FileId
  | file (number : Nat)
  | folder (location : Location)
  deriving DecidableEq, Repr

def FileId.isFolder : FileId → Bool
  | file _ => false
  | folder _ => true

/-- Bytes are compared one by one, whatever other comparison is there. -/
instance (priority := 1100) decidableEqBytes : DecidableEq ByteArray := ByteArray.instDecidableEq

structure FileObject where
  bytes : ByteArray
  modified : Int
  deriving DecidableEq

/-- The length and the time that the system gives for a folder itself. -/
structure FolderState where
  modified : Int := 0
  length : UInt64 := 4096
  deriving DecidableEq

/-- All file objects, the folders, and the names that lead to files. Paths go from `home`, those that
begin with a slash from the outermost folder. -/
structure Disk where
  objects : Array FileObject
  folders : List Location
  names : List (Location × Nat)
  home : Location := []
  folderState : Location → FolderState := fun _ => {}

inductive Place
  | folder (location : Location)
  | file (location : Location) (number : Nat)
  | vacant (location : Location)
  deriving DecidableEq, Repr

def longestName : Nat := 255

def longestPath : Nat := 4095

def pathParts (path : String) : List String :=
  (path.toList.splitOn '/').map String.ofList

namespace Disk

def empty : Disk :=
  { objects := #[], folders := [["work"]], names := [], home := ["work"] }

def object? (disk : Disk) : FileId → Option FileObject
  | .file number => disk.objects[number]?
  | .folder _ => none

def bytes (disk : Disk) (id : FileId) : ByteArray :=
  ((disk.object? id).map FileObject.bytes).getD ByteArray.empty

def modified (disk : Disk) : FileId → Int
  | .file number => (disk.objects[number]?.map FileObject.modified).getD 0
  | .folder location => (disk.folderState location).modified

def length (disk : Disk) : FileId → UInt64
  | .file number => (disk.bytes (.file number)).size.toUInt64
  | .folder location => (disk.folderState location).length

/-- Follows the parts of a path from a folder. Empty parts and `.` stay where they are, `..` goes
up, but not out of the outermost folder; only the last part may name something that does not exist,
and only folders have parts. -/
def walk (disk : Disk) (here : Location) : List String → Except IoCause Place
  | [] => .ok (.folder here)
  | part :: rest =>
    if part = "" ∨ part = "." then disk.walk here rest
    else if part = ".." then disk.walk here.dropLast rest
    else if longestName < part.utf8ByteSize then .error .nameTooLong
    else
      let there := here ++ [part]
      match disk.names.lookup there with
      | some number => if rest = [] then .ok (.file there number) else .error .notDirectory
      | none =>
        if there ∈ disk.folders then disk.walk there rest
        else if rest = [] then .ok (.vacant there)
        else .error .notFound

def origin (disk : Disk) (path : String) : Location :=
  if path.toList.head? = some '/' then [] else disk.home

def place (disk : Disk) (path : String) : Except IoCause Place :=
  if '\x00' ∈ path.toList then .error .nulInName
  else if path = "" then .error .notFound
  else if longestPath < path.utf8ByteSize then .error .nameTooLong
  else disk.walk (disk.origin path) (pathParts path)

def fileAt (disk : Disk) (path : String) : Except IoCause (Location × Nat) :=
  match disk.place path with
  | .ok (.file location number) => .ok (location, number)
  | .ok (.folder _) => .error .isDirectory
  | .ok (.vacant _) => .error .notFound
  | .error cause => .error cause

/-- The location and the file object that a path leads to. -/
def find (disk : Disk) (path : String) : Except IoCause (Location × FileId) := do
  let (location, number) ← disk.fileAt path
  pure (location, .file number)

/-- What a path is opened on. A folder is opened like a file. -/
def target (disk : Disk) (path : String) : Except IoCause FileId :=
  match disk.place path with
  | .ok (.file _ number) => .ok (.file number)
  | .ok (.folder location) => .ok (.folder location)
  | .ok (.vacant _) => .error .notFound
  | .error cause => .error cause

/-- Lets a location lead to a file object, and to nothing else. -/
def link (disk : Disk) (location : Location) (number : Nat) : Disk :=
  { disk with names := (location, number) :: disk.names.filter fun entry => entry.1 ≠ location }

def unlink (disk : Disk) (location : Location) : Disk :=
  { disk with names := disk.names.filter fun entry => entry.1 ≠ location }

def create (disk : Disk) (location : Location) (object : FileObject) : Disk :=
  let number := disk.objects.size
  { disk with objects := disk.objects.push object }.link location number

def store (disk : Disk) (number : Nat) (object : FileObject) : Disk :=
  { disk with objects := disk.objects.setIfInBounds number object }

def makeFolder (disk : Disk) (location : Location) : Disk :=
  if location ∈ disk.folders then disk
  else { disk with folders := disk.folders ++ [location] }

/-- Makes the folders that parts of a path run through from a folder on: for all parts but the last,
up to one that names a file or is no name for a folder. -/
def makeFoldersFrom (disk : Disk) (here : Location) : List String → Disk
  | [] | [_] => disk
  | part :: rest =>
    if part = "" ∨ part = "." then disk.makeFoldersFrom here rest
    else if part = ".." then disk.makeFoldersFrom here.dropLast rest
    else
      let there := here ++ [part]
      if longestName < part.utf8ByteSize ∨ (disk.names.lookup there).isSome then disk
      else (disk.makeFolder there).makeFoldersFrom there rest

def makeFolders (disk : Disk) (path : String) : Disk :=
  disk.makeFoldersFrom (disk.origin path) (pathParts path)

/-- Gives a file new contents: in place where the path leads to one, else in a new file object. -/
def overwrite (disk : Disk) (path : String) (bytes : ByteArray) (modified : Int) :
    Except IoCause Disk :=
  let disk := disk.makeFolders path
  match disk.place path with
  | .ok (.file _ number) => .ok (disk.store number ⟨bytes, modified⟩)
  | .ok (.vacant location) => .ok (disk.create location ⟨bytes, modified⟩)
  | .ok (.folder _) => .error .isDirectory
  | .error cause => .error cause

/-- Puts a new file object where a path leads; one that was there lives on without that name. -/
def replace (disk : Disk) (path : String) (bytes : ByteArray) (modified : Int) :
    Except IoCause Disk :=
  let disk := disk.makeFolders path
  match disk.place path with
  | .ok (.file location _) | .ok (.vacant location) =>
    .ok (disk.create location ⟨bytes, modified⟩)
  | .ok (.folder _) => .error .isDirectory
  | .error cause => .error cause

def touch (disk : Disk) (path : String) (modified : Int) : Except IoCause Disk := do
  let (_, number) ← disk.fileAt path
  pure (disk.store number ⟨disk.bytes (.file number), modified⟩)

/-- Takes the name of a file away; its file object lives on. -/
def remove (disk : Disk) (path : String) : Except IoCause Disk := do
  let (location, _) ← disk.fileAt path
  pure (disk.unlink location)

def rename (disk : Disk) (path target : String) : Except IoCause Disk := do
  let (location, number) ← disk.fileAt path
  let disk := disk.makeFolders target
  match disk.place target with
  | .ok (.file there _) | .ok (.vacant there) => pure ((disk.unlink location).link there number)
  | .ok (.folder _) => throw .isDirectory
  | .error cause => throw cause

/-- Gives a folder another length and time, as the system does when something in it changes. -/
def noteFolder (disk : Disk) (location : Location) (state : FolderState) : Disk :=
  { disk with
    folderState := fun other => if other = location then state else disk.folderState other }

end Disk

end InvertedIndex
