import InvertedIndex.Source

set_option autoImplicit false
set_option relaxedAutoImplicit false

namespace InvertedIndex

/-- The files to search, in order; whether anomalies are faults; whether files are mapped. -/
structure Settings where
  paths : List String
  strict : Bool
  mapped : Bool
  deriving DecidableEq, Repr

namespace Settings

protected def default : Settings :=
  { paths := [], strict := true, mapped := false }

instance : Inhabited Settings := ⟨Settings.default⟩

def strictOver (paths : List String) : Settings :=
  { Settings.default with paths := paths, strict := true }

def lenientOver (paths : List String) : Settings :=
  { Settings.default with paths := paths, strict := false }

def access (settings : Settings) : Access :=
  if settings.mapped then .mapped else .seek

/-- Fails unless there are files, and each has a path. The first empty path is named. -/
def check (settings : Settings) : Except Fault Unit :=
  if settings.paths = [] then .error .noIndexFiles
  else
    match settings.paths.findIdx? fun path => path = "" with
    | some position => .error (.invalidSettings (.emptyPath position))
    | none => .ok ()

end Settings

end InvertedIndex
