import InvertedIndex.Postings
import InvertedIndex.WordTable
import Std.Data.TreeMap

/-!
The documents of one file that contain every word of a list. Words are looked up only as long as a
candidate is left.
-/

set_option autoImplicit false
set_option relaxedAutoImplicit false

namespace InvertedIndex

/-- A document and the sum of the counts found for it so far. -/
structure Match where
  id : DocumentId
  rank : UInt64
  deriving DecidableEq, Repr

namespace Match

def firstCounts (entries : List Posting) : Std.TreeMap DocumentId UInt32 :=
  entries.foldl (fun counts p => counts.insertIfNew p.id p.count) ∅

private theorem getElem?_foldl_insertIfNew (entries : List Posting)
    (counts : Std.TreeMap DocumentId UInt32) (id : DocumentId) :
    (entries.foldl (fun counts p => counts.insertIfNew p.id p.count) counts)[id]? =
      counts[id]?.or ((entries.find? fun p => p.id = id).map Posting.count) := by
  induction entries generalizing counts with
  | nil => simp
  | cons p rest ih =>
    rw [List.foldl_cons, ih, Std.TreeMap.getElem?_insertIfNew]
    by_cases h : p.id = id
    · subst h
      by_cases hm : p.id ∈ counts
      · obtain ⟨count, hc⟩ := Option.isSome_iff_exists.mp
          (Std.TreeMap.mem_iff_isSome_getElem?.mp hm)
        rw [hc]
        simp [hm]
      · simp [hm]
    · simp [h]

theorem getElem?_firstCounts (postings : Postings) (id : DocumentId) :
    (firstCounts postings.entries)[id]? = postings.countIn id := by
  rw [firstCounts, getElem?_foldl_insertIfNew]
  simp [Postings.countIn]

/-- The first posting of each document that was not seen before, as a match. -/
def distinctAfter (seen : Std.TreeMap DocumentId Unit) : List Posting → List Match
  | [] => []
  | p :: rest =>
    if seen.contains p.id then distinctAfter seen rest
    else ⟨p.id, p.count.toUInt64⟩ :: distinctAfter (seen.insert p.id ()) rest

/-- The documents of a list of postings, each once, in the order of their first postings. -/
def ofEntries (entries : List Posting) : List Match :=
  distinctAfter ∅ entries

/-- Keeps the candidates that have a posting and adds its count to their ranks. -/
def narrow (candidates : List Match) (entries : List Posting) : List Match :=
  let counts := firstCounts entries
  candidates.filterMap fun m =>
    counts[m.id]?.map fun count => { m with rank := m.rank + count.toUInt64 }

end Match

namespace WordTable

/-- Narrows candidates by one word after the other, as long as there are any. A word that the table
does not hold leaves none. -/
def narrowBy (table : WordTable) (disk : Disk) : List Match → List String → Logged (List Match)
  | candidates, [] => pure candidates
  | [], _ :: _ => pure []
  | candidates, word :: rest => do
    match ← table.lookup disk word with
    | none => pure []
    | some postings => table.narrowBy disk (Match.narrow candidates postings.entries) rest

/-- The documents that contain every word, in the order of the postings of the first word. -/
def matching (table : WordTable) (disk : Disk) : List String → Logged (List Match)
  | [] => pure []
  | first :: rest => do
    match ← table.lookup disk first with
    | none => pure []
    | some postings => table.narrowBy disk (Match.ofEntries postings.entries) rest

end WordTable

end InvertedIndex
