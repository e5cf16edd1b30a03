import InvertedIndex.ChainTable
import InvertedIndex.Hash.Fnv1a
import InvertedIndex.Postings

set_option autoImplicit false
set_option relaxedAutoImplicit false

namespace InvertedIndex

structure WordTable where
  buckets : ChainTable
  deriving DecidableEq, Repr

namespace WordTable

def keyOf (word : String) : UInt64 :=
  Fnv1a.digest word.toUTF8.data.toList

/-- The postings of the first element that carries a word. Elements of another length are passed
over by their length alone, elements of equal length by their bytes. -/
def search (table : WordTable) (disk : Disk) (word : String) :
    List Offset → Except Fault (Option Postings)
  | [] => .ok none
  | offset :: rest => do
    let source := table.buckets.source
    let header ← source.fetch WordHeader disk offset
    if header.wordLength.toNat ≠ word.utf8ByteSize then
      table.search disk word rest
    else
      let wordOffset := offset + (Record.size WordHeader).toUInt64
      let stored ← source.readWithin disk wordOffset header.wordLength.toUInt64
      if stored ≠ word.toUTF8 then
        table.search disk word rest
      else
        let start := wordOffset + header.wordLength.toUInt64
        match source.ensureExtent start header.postingBytes with
        | .error _ =>
          throw (.corruption (.postingsOverrun source.path word header.postingCount start))
        | .ok () =>
          let entries ← source.fetchRun Posting disk start header.postingCount.toNat
          pure (some ⟨word, entries⟩)

def lookup (table : WordTable) (disk : Disk) (word : String) : Logged (Option Postings) := do
  let offsets ← table.buckets.lookup disk (keyOf word)
  table.search disk word offsets

end WordTable

end InvertedIndex
