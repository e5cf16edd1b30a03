import InvertedIndex.Engine

/-!
A disk that changes, and handles that were opened on it under names of the caller's choice.
-/

set_option autoImplicit false
set_option relaxedAutoImplicit false

namespace InvertedIndex

abbrev HandleName := String

/-- Something that was opened and can be asked. -/
inductive Handle
  | source (source : Source)
  | buckets (table : ChainTable)
  | documents (table : DocumentTable)
  | words (table : WordTable)
  | file (file : IndexFile)
  | engine (engine : Engine)
  deriving DecidableEq, Repr

inductive DiskChange
  | overwrite (path : String) (bytes : ByteArray) (modified : Int)
  | replace (path : String) (bytes : ByteArray) (modified : Int)
  | touch (path : String) (modified : Int)
  | remove (path : String)
  | rename (path target : String)
  | noteFolder (location : Location) (state : FolderState)

def DiskChange.apply (disk : Disk) : DiskChange → Except IoCause Disk
  | overwrite path bytes modified => disk.overwrite path bytes modified
  | replace path bytes modified => disk.replace path bytes modified
  | touch path modified => disk.touch path modified
  | remove path => disk.remove path
  | rename path target => disk.rename path target
  | noteFolder location state => .ok (disk.noteFolder location state)

inductive Opening
  | source (path : String) (access : Access)
  | buckets (path : String) (base : Offset) (access : Access)
  | documentsAt (path : String) (base : Offset) (access : Access)
  | wordsAt (path : String) (base : Offset) (access : Access)
  | file (path : String) (strict : Bool) (access : Access)
  | documentsOf (file : HandleName)
  | wordsOf (file : HandleName)
  | engine (settings : Settings)
  deriving DecidableEq, Repr

inductive Question
  | length
  | read (offset : Offset) (length : UInt64)
  | readWithin (offset : Offset) (length : UInt64)
  | fetch (kind : RecordKind) (offset : Offset)
  | ensureExtent (offset : Offset) (length : UInt64)
  | sameFile (other : HandleName)
  | chain (key : UInt64)
  | document (id : DocumentId)
  | resolve (id : DocumentId) (strict : Bool)
  | postings (word : String)
  | query (words : List String)
  deriving DecidableEq, Repr

inductive Step
  | change (change : DiskChange)
  | drop (name : HandleName)
  | opening (name : HandleName) (opening : Opening)
  | ask (name : HandleName) (question : Question)

inductive Answer
  | done
  | opened (handle : Handle)
  | length (length : UInt64)
  | bytes (bytes : ByteArray)
  | record (record : SomeRecord)
  | same (same : Bool)
  | offsets (offsets : List Offset)
  | path (path : Option String)
  | name (name : String)
  | postings (postings : Option Postings)
  | rows (rows : List Row)

/-- What comes of a step: nothing, if there is no handle of the right kind under a name it uses. -/
inductive Reply
  | noHandle
  | outcome (outcome : Logged Answer)

/-- The disk now and the open handles, newest first. -/
structure Session where
  disk : Disk
  handles : List (HandleName × Handle)

/-- The handle that an opening gives; `none` if it builds on a handle that is not there. -/
def Opening.perform (disk : Disk) (handles : List (HandleName × Handle)) :
    Opening → Option (Logged Handle)
  | source path access => some do
    pure (.source (← Source.openPath disk path access))
  | buckets path base access => some do
    pure (.buckets (← ChainTable.openAt (← Source.openPath disk path access) disk base))
  | documentsAt path base access => some do
    pure (.documents ⟨← ChainTable.openAt (← Source.openPath disk path access) disk base⟩)
  | wordsAt path base access => some do
    pure (.words ⟨← ChainTable.openAt (← Source.openPath disk path access) disk base⟩)
  | file path strict access => some do
    pure (.file (← IndexFile.openPath disk path strict access))
  | documentsOf name =>
    match handles.lookup name with
    | some (.file index) => some do
      pure (.documents (← index.openDocuments disk))
    | _ => none
  | wordsOf name =>
    match handles.lookup name with
    | some (.file index) => some do
      pure (.words (← index.openWords disk))
    | _ => none
  | engine settings => some do
    pure (.engine (← Engine.start disk settings))

/-- What a handle answers; `none` if it is of the wrong kind for the question. -/
def Handle.answer (disk : Disk) (handles : List (HandleName × Handle)) :
    Handle → Question → Option (Logged Answer)
  | source s, .length => some (pure (.length s.length))
  | source s, .read offset length => some do
    pure (.bytes (← s.read disk offset length))
  | source s, .readWithin offset length => some do
    pure (.bytes (← s.readWithin disk offset length))
  | source s, .fetch kind offset => some do
    pure (.record ⟨kind, ← s.fetch kind.Carrier disk offset⟩)
  | source s, .ensureExtent offset length => some do
    s.ensureExtent offset length
    pure .done
  | source s, .sameFile other =>
    match handles.lookup other with
    | some (.source t) => some (pure (.same (s.stamp = t.stamp)))
    | _ => none
  | buckets table, .chain key => some do
    pure (.offsets (← table.lookup disk key))
  | documents table, .document id => some do
    pure (.path (← table.lookup disk id))
  | documents table, .resolve id strict => some do
    pure (.name (← table.resolve disk id strict))
  | words table, .postings word => some do
    pure (.postings (← table.lookup disk word))
  | engine e, .query sought => some do
    pure (.rows (← e.query disk sought))
  | _, _ => none

namespace Session

def without (session : Session) (name : HandleName) : List (HandleName × Handle) :=
  session.handles.filter fun entry => entry.1 ≠ name

/-- Takes one step. A handle takes the place of one of the same name; an opening that gives none, be it
for a fault or for want of a handle to build on, leaves none of that name. -/
def step (session : Session) : Step → Session × Reply
  | .change change =>
    match change.apply session.disk with
    | .ok disk => ({ session with disk := disk }, .outcome (pure .done))
    | .error cause => (session, .outcome (Logged.fail (.io cause)))
  | .drop name => ({ session with handles := session.without name }, .outcome (pure .done))
  | .opening name opening =>
    let others := session.without name
    match opening.perform session.disk session.handles with
    | none => ({ session with handles := others }, .noHandle)
    | some outcome =>
      match outcome.result with
      | .ok handle =>
        ({ session with handles := (name, handle) :: others },
          .outcome ⟨outcome.events, .ok (.opened handle)⟩)
      | .error fault =>
        ({ session with handles := others }, .outcome ⟨outcome.events, .error fault⟩)
  | .ask name question =>
    match (session.handles.lookup name).bind fun handle =>
        handle.answer session.disk session.handles question with
    | none => (session, .noHandle)
    | some outcome => (session, .outcome outcome)

def run (session : Session) : List Step → Session × List Reply
  | [] => (session, [])
  | next :: rest =>
    let (session, reply) := session.step next
    let (session, replies) := session.run rest
    (session, reply :: replies)

def start (files : List (String × ByteArray)) (modified : Int) : Session :=
  let disk := files.foldl (fun (disk : Disk) file =>
    match disk.overwrite file.1 file.2 modified with
    | .ok disk => disk
    | .error _ => disk) Disk.empty
  ⟨disk, []⟩

end Session

end InvertedIndex
