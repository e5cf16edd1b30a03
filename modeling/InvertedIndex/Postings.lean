import InvertedIndex.Record.Basic

set_option autoImplicit false
set_option relaxedAutoImplicit false

namespace InvertedIndex

/-- A word and its postings, in the order of the file. -/
structure Postings where
  word : String
  entries : List Posting
  deriving DecidableEq, Repr

namespace Postings

def length (postings : Postings) : Nat :=
  postings.entries.length

def isEmpty (postings : Postings) : Bool :=
  postings.entries.isEmpty

/-- How often the word occurs in a document, by the first posting for it. -/
def countIn (postings : Postings) (id : DocumentId) : Option UInt32 :=
  (postings.entries.find? fun p => p.id = id).map Posting.count

def total (postings : Postings) : UInt64 :=
  postings.entries.foldl (fun sum p => sum + p.count.toUInt64) 0

end Postings

end InvertedIndex
