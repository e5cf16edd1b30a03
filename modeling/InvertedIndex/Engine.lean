import InvertedIndex.IndexFile
import InvertedIndex.Match
import InvertedIndex.Row
import InvertedIndex.Settings

/-!
Queries over several index files. Each file is searched on its own, so equal names from different
files stay different rows.
-/

set_option autoImplicit false
set_option relaxedAutoImplicit false

namespace InvertedIndex

/-- The tables of one index file, open for searching. -/
structure OpenIndex where
  path : String
  documents : DocumentTable
  words : WordTable
  deriving DecidableEq, Repr

namespace OpenIndex

def openPath (disk : Disk) (path : String) (strict : Bool) (access : Access) :
    Logged OpenIndex := do
  let file ← IndexFile.openPath disk path strict access
  let documents ← file.openDocuments disk
  let words ← file.openWords disk
  pure ⟨path, documents, words⟩

def row (index : OpenIndex) (disk : Disk) (strict : Bool) (found : Match) : Logged Row := do
  let name ← index.documents.resolve disk found.id strict
  pure ⟨name, found.rank⟩

/-- The rows of the documents that contain every word, in the order of the postings of the first
word. -/
def rows (index : OpenIndex) (disk : Disk) (strict : Bool) (words : List String) :
    Logged (List Row) := do
  let found ← index.words.matching disk words
  Logged.report (.documentsMatched index.path found.length words.length)
  found.mapM (index.row disk strict)

end OpenIndex

structure Engine where
  indexes : List OpenIndex
  strict : Bool
  deriving DecidableEq, Repr

namespace Engine

/-- Opens every file of some settings, in order. The first fault ends the attempt. -/
def start (disk : Disk) (settings : Settings) : Logged Engine := do
  settings.check
  let indexes ← settings.paths.mapM fun path =>
    OpenIndex.openPath disk path settings.strict settings.access
  Logged.report (.engineReady indexes.length settings.strict)
  pure ⟨indexes, settings.strict⟩

/-- The documents that contain every word, best first. There must be a word to look for. -/
def query (engine : Engine) (disk : Disk) (words : List String) : Logged (List Row) := do
  if words = [] then
    Logged.fail .emptyQuery
  let rows ← engine.indexes.mapM fun index => index.rows disk engine.strict words
  pure (Row.sort rows.flatten)

end Engine

end InvertedIndex
