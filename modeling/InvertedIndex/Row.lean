/-!
Rows of an answer: higher ranks first, and rows of equal rank by name, byte by byte in UTF-8.
-/

set_option autoImplicit false
set_option relaxedAutoImplicit false

namespace InvertedIndex

/-- A document of an answer. The rank is the sum of the counts of every word of the query. -/
structure Row where
  name : String
  rank : UInt64
  deriving DecidableEq, Repr

namespace Row

/-- Compares two names by the bytes of their UTF-8 form. -/
def compareNames (a b : String) : Ordering :=
  compare a.toUTF8.data.toList b.toUTF8.data.toList

protected def compare (a b : Row) : Ordering :=
  (compare b.rank a.rank).then (compareNames a.name b.name)

instance : Ord Row := ⟨Row.compare⟩

def isBefore (a b : Row) : Bool :=
  (a.compare b).isLE

def sort (rows : List Row) : List Row :=
  rows.mergeSort isBefore

end Row

end InvertedIndex
