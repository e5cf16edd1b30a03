import InvertedIndex.Postings
import InvertedIndex.Row
import InvertedIndex.DocumentTable

/-!
What an index file says, apart from how it is laid out, and the rows of a query as a reader of such
contents would work them out by hand.
-/

set_option autoImplicit false
set_option relaxedAutoImplicit false

namespace InvertedIndex

/-- Documents with their paths, words with their postings, and the sizes of the two tables. -/
structure Contents where
  documents : List (DocumentId × String)
  words : List (String × List Posting)
  documentBuckets : UInt32
  wordBuckets : UInt32
  deriving DecidableEq, Repr

namespace Contents

def postings? (contents : Contents) (word : String) : Option Postings :=
  (contents.words.lookup word).map fun entries => ⟨word, entries⟩

def countIn (contents : Contents) (word : String) (id : DocumentId) : Option UInt32 :=
  (contents.postings? word).bind fun postings => postings.countIn id

/-- The sum of the counts of all words in a document, if each occurs in it. -/
def rank? (contents : Contents) (words : List String) (id : DocumentId) : Option Nat :=
  (words.mapM fun word => contents.countIn word id).map fun counts =>
    counts.foldl (fun sum count => sum + count.toNat) 0

/-- The documents that the postings of a word mention, each once, by first mention. -/
def mentioned (contents : Contents) (word : String) : List DocumentId :=
  match contents.postings? word with
  | some postings => (postings.entries.map Posting.id).eraseDups
  | none => []

def path? (contents : Contents) (id : DocumentId) : Option String :=
  contents.documents.lookup id

/-- The row of a document: `none` if some word does not occur in it. -/
def row (contents : Contents) (strict : Bool) (words : List String) (id : DocumentId) :
    Except Fault (Option Row) :=
  match contents.rank? words id with
  | none => .ok none
  | some rank =>
    match contents.path? id with
    | some path => .ok (some ⟨path, rank.toUInt64⟩)
    | none =>
      if strict then .error (.missingDocument id)
      else .ok (some ⟨placeholderName id, rank.toUInt64⟩)

def rows (contents : Contents) (strict : Bool) (words : List String) :
    Except Fault (List Row) := do
  let found ← ((words.head?.map contents.mentioned).getD []).mapM (contents.row strict words)
  pure (found.filterMap id)

def listing (files : List Contents) (strict : Bool) (words : List String) :
    Except Fault (List Row) := do
  let found ← files.mapM fun contents => contents.rows strict words
  pure found.flatten

end Contents

end InvertedIndex
