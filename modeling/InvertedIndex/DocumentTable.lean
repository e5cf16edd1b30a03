import InvertedIndex.ChainTable

set_option autoImplicit false
set_option relaxedAutoImplicit false

namespace InvertedIndex

/-- The name that stands for a document that a file does not hold. -/
def placeholderName (id : DocumentId) : String :=
  s!"<missing document {id}>"

structure DocumentTable where
  buckets : ChainTable
  deriving DecidableEq, Repr

namespace DocumentTable

def keyOf (id : DocumentId) : UInt64 :=
  id

/-- The path of the first element that carries a number. Elements with another number only share the
bucket and are passed over; what follows the first match is not looked at. -/
def search (table : DocumentTable) (disk : Disk) (id : DocumentId) :
    List Offset → Except Fault (Option String)
  | [] => .ok none
  | offset :: rest => do
    let source := table.buckets.source
    let header ← source.fetch DocumentHeader disk offset
    if header.id ≠ id then
      table.search disk id rest
    else
      let bytes ← source.readWithin disk (offset + (Record.size DocumentHeader).toUInt64)
        header.pathLength.toUInt64
      match String.fromUTF8? bytes with
      | some path => pure (some path)
      | none => throw (.corruption (.undecodablePath source.path id offset))

def lookup (table : DocumentTable) (disk : Disk) (id : DocumentId) : Logged (Option String) := do
  let offsets ← table.buckets.lookup disk (keyOf id)
  table.search disk id offsets

/-- A name for a document that some posting mentions. Where the table does not hold it, that is a
fault in strict mode, and otherwise a placeholder is used and reported. -/
def resolve (table : DocumentTable) (disk : Disk) (id : DocumentId) (strict : Bool) :
    Logged String := do
  match ← table.lookup disk id with
  | some path => pure path
  | none =>
    if strict then Logged.fail (.missingDocument id)
    else
      Logged.report (.placeholderUsed id)
      pure (placeholderName id)

end DocumentTable

end InvertedIndex
