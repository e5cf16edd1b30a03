import InvertedIndex.Text.Hex
import InvertedIndex.Record.Basic

set_option autoImplicit false
set_option relaxedAutoImplicit false

namespace InvertedIndex

open Text (hexPadded)

inductive Level
  | trace
  | debug
  | info
  | warn
  deriving DecidableEq, Repr

/-- Something worth reporting. -/
inductive Event
  | magicTolerated (path : String) (found : UInt32)
  | fileOpened (path : String) (length : UInt64) (documentTable wordTable : Offset)
  | bucketVisited (bucket : UInt64) (base : Offset) (slot : Slot)
  | documentsMatched (path : String) (documents words : Nat)
  | placeholderUsed (id : DocumentId)
  | engineReady (files : Nat) (strict : Bool)
  deriving DecidableEq, Repr

namespace Event

def level : Event → Level
  | magicTolerated .. | placeholderUsed .. => .warn
  | fileOpened .. | engineReady .. => .info
  | documentsMatched .. => .debug
  | bucketVisited .. => .trace

def text : Event → String
  | magicTolerated path found =>
    let magic := hexPadded 8 found.toNat
    s!"{path}: bad magic number 0x{magic}, continuing without validation"
  | fileOpened path length documentTable wordTable =>
    s!"Opened index {path} ({length} bytes, doc table @{documentTable}, word table @{wordTable})"
  | bucketVisited bucket base slot =>
    s!"bucket {bucket} of table @{base}: {slot.chainLength} element(s) at {slot.chainOffset}"
  | documentsMatched path documents words =>
    s!"{path}: {documents} document(s) match {words} word(s)"
  | placeholderUsed id => s!"Document {id} missing from document table, using placeholder"
  | engineReady files strict =>
    s!"Query processor ready over {files} index file(s), validate={strict}"

def line (event : Event) : Level × String :=
  (event.level, event.text)

end Event

end InvertedIndex
