import InvertedIndex.Proofs.ChainLookup
import InvertedIndex.Proofs.MachineWords
import InvertedIndex.Proofs.OpenHandles
import InvertedIndex.Proofs.RowOrder
import InvertedIndex.Proofs.Tolerance

/-!
In a file that has not become shorter each lookup reports its bucket and nothing else. The log of a
query is put together from that, and counts the rows of the answer and those without a stored name.
-/

set_option autoImplicit false
set_option relaxedAutoImplicit false

namespace InvertedIndex

open Outcome (bind_eq_ok bind_eq_error mapM_eq_ok mapM_eq_error)

theorem exists_map_eq {α β : Type} (g : β → α) {P : β → Prop} {as : List α}
    (each : ∀ a ∈ as, ∃ b, g b = a ∧ P b) : ∃ bs : List β, bs.map g = as ∧ ∀ b ∈ bs, P b := by
  induction as with
  | nil => exact ⟨[], rfl, by simp⟩
  | cons a as ih =>
    obtain ⟨b, hb, sound⟩ := each a (List.mem_cons_self ..)
    obtain ⟨bs, hbs, rest⟩ := ih fun a' mem => each a' (List.mem_cons_of_mem a mem)
    exact ⟨b :: bs, by rw [List.map_cons, hb, hbs], List.forall_mem_cons.mpr ⟨sound, rest⟩⟩

namespace Logged

variable {α β : Type}

theorem events_bind_of_ok {x : Logged α} {a : α} (h : x.result = .ok a) (f : α → Logged β) :
    (x >>= f).events = x.events ++ (f a).events := by
  rw [events_bind, h]

theorem events_bind_of_error {x : Logged α} {fault : Fault} (h : x.result = .error fault)
    (f : α → Logged β) : (x >>= f).events = x.events := by
  rw [events_bind, h, List.append_nil]

theorem events_mapM_append {f : α → Logged β} {front : List α}
    (passed : ∀ a ∈ front, ∃ b, (f a).result = .ok b) (back : List α) :
    ((front ++ back).mapM f).events =
      (front.flatMap fun a => (f a).events) ++ (back.mapM f).events := by
  induction front with
  | nil => rfl
  | cons a front ih =>
    obtain ⟨b, first⟩ := passed a (List.mem_cons_self ..)
    have rest := ih fun a' mem => passed a' (List.mem_cons_of_mem a mem)
    rw [List.cons_append, List.mapM_cons, events_bind_of_ok first, events_bind, rest,
      List.flatMap_cons, List.append_assoc, List.append_assoc]
    cases ((front ++ back).mapM f).result <;> exact congrArg _ (congrArg _ (List.append_nil _))

theorem events_mapM_of_ok {f : α → Logged β} {as : List α}
    (passed : ∀ a ∈ as, ∃ b, (f a).result = .ok b) :
    (as.mapM f).events = as.flatMap fun a => (f a).events := by
  have all := events_mapM_append passed []
  rw [List.append_nil] at all
  exact all.trans (List.append_nil _)

theorem events_mapM_of_error {f : α → Logged β} {front : List α}
    (passed : ∀ a ∈ front, ∃ b, (f a).result = .ok b) {a : α} {fault : Fault}
    (failed : (f a).result = .error fault) (back : List α) :
    ((front ++ a :: back).mapM f).events =
      (front.flatMap fun a => (f a).events) ++ (f a).events := by
  rw [events_mapM_append passed, List.mapM_cons, events_bind_of_error failed]

end Logged

theorem map_filterMap_of_keys {α κ : Type} {key : α → κ} {keep : α → Option α} {said : κ → Bool}
    (each : ∀ a, (keep a).map key = Option.guard said (key a)) (as : List α) :
    (as.filterMap keep).map key = (as.map key).filter said := by
  rw [List.map_filterMap, ← List.filterMap_eq_filter, List.filterMap_map]
  exact List.filterMap_congr fun a _ => each a

namespace Match

theorem ids_narrow {candidates : List Match} {lists : List Postings} (nonempty : lists ≠ [])
    (h : candidates.map id = (Postings.agreement lists).map Prod.fst) (postings : Postings) :
    (narrow candidates postings.entries).map id =
      (Postings.agreement (lists ++ [postings])).map Prod.fst := by
  have narrowed : (narrow candidates postings.entries).map id =
      (candidates.map id).filter fun id => (postings.countIn id).isSome := by
    refine map_filterMap_of_keys (fun found => ?_) candidates
    rw [getElem?_firstCounts, Option.guard_apply]
    cases postings.countIn found.id <;> rfl
  have agreed : (Postings.agreement (lists ++ [postings])).map Prod.fst =
      ((Postings.agreement lists).map Prod.fst).filter fun id => (postings.countIn id).isSome := by
    rw [Postings.agreement_append nonempty]
    refine map_filterMap_of_keys (fun found => ?_) _
    rw [Option.guard_apply]
    cases postings.countIn found.1 <;> rfl
  rw [narrowed, agreed, h]

theorem ids_ofEntries (postings : Postings) :
    (ofEntries postings.entries).map id = (Postings.agreement [postings]).map Prod.fst := by
  rw [← exact_ofEntries, List.map_map]
  rfl

end Match

namespace ChainTable

/-- All slots of a table can be read: they lie inside its source, and the file is as long as it was. -/
structure Readable (table : ChainTable) (disk : Disk) : Prop where
  roomy : table.Roomy
  intact : table.source.Intact disk

/-- The event that reports a lookup: the bucket of the key, the table, and the slot that stands in the
file for this bucket. -/
def visit (table : ChainTable) (disk : Disk) (key : UInt64) : Event :=
  .bucketVisited (table.bucketOf key) table.base
    (recordAt Slot (table.source.contents disk)
      (table.base.toNat + 4 + 12 * (key.toNat % table.bucketCount.toNat)))

def visitLine (table : ChainTable) (disk : Disk) (key : UInt64) : Level × String :=
  let bucket := key.toNat % table.bucketCount.toNat
  let slot := recordAt Slot (table.source.contents disk) (table.base.toNat + 4 + 12 * bucket)
  (.trace, "bucket " ++ toString bucket ++ " of table @" ++ toString table.base.toNat ++ ": " ++
    toString slot.chainLength.toNat ++ " element(s) at " ++ toString slot.chainOffset.toNat)

theorem line_visit (table : ChainTable) (disk : Disk) (key : UInt64) :
    (table.visit disk key).line = table.visitLine disk key := by
  rw [visitLine, ← table.toNat_bucketOf key]
  rfl

variable {table : ChainTable} {disk now : Disk}

theorem OpenedOn.readable (h : table.OpenedOn disk)
    (kept : (table.source.bytes disk).size ≤ (table.source.bytes now).size) : table.Readable now :=
  ⟨(opened_of_openAt h.header).roomy, h.intact.trans kept⟩

theorem Readable.events_lookup (h : table.Readable disk) (key : UInt64) :
    (table.lookup disk key).events = [table.visit disk key] := by
  have whole : table.source.Covers disk (table.source.contents disk) := ⟨h.intact, rfl⟩
  have slots : table.base.toNat + 4 + 12 * table.bucketCount.toNat ≤
      (table.source.contents disk).length := by
    rw [← whole.length, Nat.mul_comm]
    exact h.roomy.slots
  have slot := fetch_slot whole h.roomy.bucketCount slots key
  rw [lookup, slot, Logged.lift_ok, pure_bind, Logged.events_bind_of_ok (Logged.result_report _)]
  cases table.chain disk (table.bucketOf key) _ <;> rfl

theorem Readable.events_search {γ : Type} (h : table.Readable disk) (key : UInt64)
    (search : List Offset → Except Fault γ) :
    (table.lookup disk key >>= fun offsets => liftM (search offsets)).events =
      [table.visit disk key] := by
  rw [Logged.events_bind, h.events_lookup]
  cases (table.lookup disk key).result <;> rfl

end ChainTable

namespace WordTable

def visit (table : WordTable) (disk : Disk) (word : String) : Event :=
  table.buckets.visit disk (keyOf word)

def visitLine (table : WordTable) (disk : Disk) (word : String) : Level × String :=
  table.buckets.visitLine disk (keyOf word)

/-- These words are looked up one after the other: each is reached by those before it. -/
def LooksUp (table : WordTable) (disk : Disk) (looked : List String) : Prop :=
  ∀ front word, front ++ [word] <+: looked → table.Reaches disk front

/-- How the search for some words ends, after which of them, and with what result. -/
inductive Ends (table : WordTable) (disk : Disk) (words : List String) :
    List String → Except Fault (List Match) → Prop
  /-- All words are found, and the matches are the documents on which they agree. -/
  | found {lists : List Postings} {matched : List Match} (all : table.Finds disk words lists)
      (ids : matched.map Match.id = (Postings.agreement lists).map Prod.fst) :
      Ends table disk words words (.ok matched)
  /-- The last word is found, and no document is left. -/
  | noneLeft {looked : List String} {lists : List Postings} (found : table.Finds disk looked lists)
      (some : lists ≠ []) (none : Postings.agreement lists = []) :
      Ends table disk words looked (.ok [])
  /-- The last word is absent. -/
  | absent {front : List String} {word : String}
      (absent : (table.lookup disk word).result = .ok none) :
      Ends table disk words (front ++ [word]) (.ok [])
  /-- The lookup of the last word fails. -/
  | failed {front : List String} {word : String} {fault : Fault}
      (failed : (table.lookup disk word).result = .error fault) :
      Ends table disk words (front ++ [word]) (.error fault)

variable {table : WordTable} {disk : Disk}

theorem events_lookup (readable : table.buckets.Readable disk) (word : String) :
    (table.lookup disk word).events = [table.visit disk word] :=
  readable.events_search (keyOf word) (table.search disk word)

theorem LooksUp.nil : table.LooksUp disk [] := by
  intro front word part
  simp at part

theorem LooksUp.snoc {looked : List String} (h : table.LooksUp disk looked)
    (reached : table.Reaches disk looked) (word : String) : table.LooksUp disk (looked ++ [word]) := by
  intro front other part
  rcases List.prefix_concat_iff.mp part with whole | part
  · obtain ⟨rfl, -⟩ := List.append_inj' whole rfl
    exact reached
  · exact h front other part

/-- A run looks up some more words, from the first on, behind words that were looked up before; it reports
these lookups and no others, and ends as the search for all the words does. -/
def SearchesOn (table : WordTable) (disk : Disk) (before words : List String)
    (run : Logged (List Match)) : Prop :=
  ∃ more, more <+: words ∧ table.LooksUp disk (before ++ more) ∧
    run.events = more.map (table.visit disk) ∧
    table.Ends disk (before ++ words) (before ++ more) run.result

theorem SearchesOn.word (readable : table.buckets.Readable disk) {before rest : List String} {word : String}
    (reached : table.LooksUp disk (before ++ [word])) {next : Postings → Logged (List Match)}
    (goesOn : ∀ postings, (table.lookup disk word).result = .ok (some postings) →
      table.SearchesOn disk (before ++ [word]) rest (next postings)) :
    table.SearchesOn disk before (word :: rest) (do
      match ← table.lookup disk word with
      | none => pure []
      | some postings => next postings) := by
  have visited := events_lookup readable word
  have alone : [word] <+: word :: rest := ⟨rest, rfl⟩
  unfold SearchesOn
  rw [Logged.result_bind]
  cases looked : (table.lookup disk word).result with
  | error fault =>
    rw [Logged.events_bind_of_error looked, visited]
    exact ⟨[word], alone, reached, rfl, .failed looked⟩
  | ok found =>
    rw [Logged.events_bind_of_ok looked, visited, Outcome.bind_of_ok rfl]
    cases found with
    | none => exact ⟨[word], alone, reached, rfl, .absent looked⟩
    | some postings =>
      obtain ⟨more, part, all, events, ends⟩ := goesOn postings looked
      simp only [List.append_assoc, List.singleton_append] at all ends
      exact ⟨word :: more, List.cons_prefix_cons.mpr ⟨rfl, part⟩, all, congrArg _ events, ends⟩

theorem searchesOn_narrowBy (readable : table.buckets.Readable disk) {before : List String}
    {lists : List Postings} (found : table.Finds disk before lists) (some : lists ≠ [])
    (reached : table.LooksUp disk before) {candidates : List Match}
    (ids : candidates.map Match.id = (Postings.agreement lists).map Prod.fst) (rest : List String) :
    table.SearchesOn disk before rest (table.narrowBy disk candidates rest) := by
  -- Each word that is found joins the words before; the candidates stay those on which all agree.
  induction rest generalizing before lists candidates with
  | nil =>
    have run : table.narrowBy disk candidates [] = pure candidates := by rw [narrowBy]
    rw [run]
    refine ⟨[], List.prefix_rfl, ?_, rfl, ?_⟩
    · rwa [List.append_nil]
    · exact .found (by rwa [List.append_nil]) ids
  | cons word rest ih =>
    cases candidates with
    | nil =>
      have none : Postings.agreement lists = [] := List.map_eq_nil_iff.mp ids.symm
      refine ⟨[], List.nil_prefix, ?_, rfl, ?_⟩
      · rwa [List.append_nil]
      · exact .noneLeft (by rwa [List.append_nil]) some none
    | cons candidate others =>
      have left : Postings.agreement lists ≠ [] := by
        rintro none
        rw [none] at ids
        cases ids
      have next := reached.snoc ⟨lists, found, fun _ => left⟩ word
      refine SearchesOn.word readable next fun postings looked => ?_
      have more : table.Finds disk (before ++ [word]) (lists ++ [postings]) :=
        List.rel_append found (.cons looked .nil)
      exact ih more (by simp) next (Match.ids_narrow some ids postings)

theorem searchesOn_matching (readable : table.buckets.Readable disk) (words : List String) :
    table.SearchesOn disk [] words (table.matching disk words) := by
  cases words with
  | nil => exact ⟨[], List.prefix_rfl, .nil, rfl, .found .nil rfl⟩
  | cons first rest =>
    have start : table.LooksUp disk [first] :=
      LooksUp.nil.snoc ⟨[], .nil, fun some => absurd rfl some⟩ first
    refine SearchesOn.word readable start fun postings looked => ?_
    exact searchesOn_narrowBy readable (.cons looked .nil) (by simp) start (Match.ids_ofEntries postings) rest

theorem mapM_postings?_of_finds {words : List String} {lists : List Postings}
    (all : table.Finds disk words lists) : words.mapM (table.postings? disk) = some lists :=
  Outcome.mapM_eq_some.mpr (all.imp fun _ _ => postings?_eq_some.mpr)

theorem Ends.ids {words looked : List String} {matched : List Match} {result : Except Fault (List Match)}
    (h : table.Ends disk words looked result) (part : looked <+: words) (ok : result = .ok matched) :
    matched.map Match.id = (table.agreement disk words).map Prod.fst := by
  cases h with
  | found all ids =>
    cases ok
    rw [agreement, mapM_postings?_of_finds all, ids]
    rfl
  | @noneLeft _ lists found some none =>
    cases ok
    obtain ⟨rest, rfl⟩ := part
    rw [agreement, List.mapM_append, mapM_postings?_of_finds found]
    cases rest.mapM (table.postings? disk) with
    | none => rfl
    | some more =>
      have nowhere := Postings.agreement_append_eq_nil some none more
      simp [nowhere]
  | @absent front word absent =>
    cases ok
    have lacking : table.postings? disk word = none := by rw [postings?, absent]
    rw [agreement_eq_nil_of_absent (part.subset (by simp)) lacking]
    rfl
  | failed => cases ok

end WordTable

namespace DocumentTable

variable {table : DocumentTable} {disk : Disk} {id : DocumentId} {strict : Bool}

def visit (table : DocumentTable) (disk : Disk) (id : DocumentId) : Event :=
  table.buckets.visit disk (keyOf id)

def visitLine (table : DocumentTable) (disk : Disk) (id : DocumentId) : Level × String :=
  table.buckets.visitLine disk (keyOf id)

def account (table : DocumentTable) (disk : Disk) (id : DocumentId) : Option String → List Event
  | some _ => [table.visit disk id]
  | none => [table.visit disk id, .placeholderUsed id]

theorem events_lookup (readable : table.buckets.Readable disk) (id : DocumentId) :
    (table.lookup disk id).events = [table.visit disk id] :=
  readable.events_search (keyOf id) (table.search disk id)

theorem resolve_of_ok (readable : table.buckets.Readable disk) {name : String}
    (h : (table.resolve disk id strict).result = .ok name) :
    ∃ path, (table.lookup disk id).result = .ok path ∧ name = path.getD (placeholderName id) ∧
      (strict = true → path.isSome) ∧
      (table.resolve disk id strict).events = table.account disk id path := by
  have visited := events_lookup readable id
  rw [resolve, Logged.result_bind] at h
  obtain ⟨path, looked, h⟩ := bind_eq_ok.mp h
  refine ⟨path, looked, ?_⟩
  rw [resolve, Logged.events_bind_of_ok looked, visited]
  cases path with
  | some path =>
    cases h
    exact ⟨rfl, fun _ => rfl, rfl⟩
  | none =>
    cases strict with
    | true => cases h
    | false =>
      cases h
      exact ⟨rfl, fun strict => absurd strict (by decide), rfl⟩

theorem resolve_of_error (readable : table.buckets.Readable disk) {fault : Fault}
    (h : (table.resolve disk id strict).result = .error fault) :
    (table.resolve disk id strict).events = [table.visit disk id] ∧
      ((table.lookup disk id).result = .error fault ∨
        strict = true ∧ (table.lookup disk id).result = .ok none ∧ fault = .missingDocument id) := by
  have visited := events_lookup readable id
  rw [resolve, Logged.result_bind] at h
  rcases bind_eq_error.mp h with failed | ⟨path, looked, h⟩
  · rw [resolve, Logged.events_bind_of_error failed]
    exact ⟨visited, .inl failed⟩
  · rw [resolve, Logged.events_bind_of_ok looked, visited]
    cases path with
    | some path => cases h
    | none =>
      cases strict with
      | true =>
        cases h
        exact ⟨rfl, .inr ⟨rfl, looked, rfl⟩⟩
      | false => cases h

end DocumentTable

/-- What a query has done in one file: the words that it has looked up, the matches that it has looked up
in the table of documents, each with what it found there, and the matches behind these. -/
structure FileWork where
  index : OpenIndex
  words : List String
  named : List (Match × Option String)
  unnamed : List Match

def FileWork.row (found : Match × Option String) : Row :=
  ⟨found.2.getD (placeholderName found.1.id), found.1.rank⟩

def FileWork.events (disk : Disk) (wordCount : Nat) (work : FileWork) : List Event :=
  work.words.map (work.index.words.visit disk) ++
    .documentsMatched work.index.path (work.named.length + work.unnamed.length) wordCount ::
    work.named.flatMap fun found => work.index.documents.account disk found.1.id found.2

def FileWork.lines (disk : Disk) (wordCount : Nat) (work : FileWork) : List (Level × String) :=
  work.words.map (work.index.words.visitLine disk) ++
    (.debug, work.index.path ++ ": " ++ toString (work.named.length + work.unnamed.length) ++
      " document(s) match " ++ toString wordCount ++ " word(s)") ::
    work.named.flatMap fun found => work.index.documents.visitLine disk found.1.id ::
      if found.2.isSome then [] else
        [(.warn, "Document " ++ toString found.1.id.toNat ++
          " missing from document table, using placeholder")]

namespace OpenIndex

structure Readable (index : OpenIndex) (disk : Disk) : Prop where
  documents : index.documents.buckets.Readable disk
  words : index.words.buckets.Readable disk

structure Resolved (index : OpenIndex) (disk : Disk) (strict : Bool) (found : Match × Option String) :
    Prop where
  looked : (index.documents.lookup disk found.1.id).result = .ok found.2
  present : strict = true → found.2.isSome

end OpenIndex

/-- The work of a query in one file is sound: its words are those up to which the search goes, and its
matches are the documents that contain every word of the query, in their order. -/
structure FileWork.Sound (work : FileWork) (disk : Disk) (strict : Bool) (words : List String) : Prop where
  part : work.words <+: words
  reached : work.index.words.LooksUp disk work.words
  ended : work.index.words.Ends disk words work.words (.ok (work.named.map Prod.fst ++ work.unnamed))
  agreed : (work.named.map Prod.fst ++ work.unnamed).map Match.id =
    (work.index.words.agreement disk words).map Prod.fst
  resolved : ∀ found ∈ work.named, work.index.Resolved disk strict found

namespace OpenIndex

/-- A query fails in a file, with this log of what it did there before, which reads like this: a word that
it reaches cannot be looked up, or a match cannot be named. The failing lookup itself still reports its
bucket. -/
inductive BreaksOff (index : OpenIndex) (disk : Disk) (strict : Bool) (words : List String) :
    List Event → List (Level × String) → Fault → Prop
  | lookup {looked : List String} {fault : Fault} (part : looked <+: words)
      (reached : index.words.LooksUp disk looked)
      (ended : index.words.Ends disk words looked (.error fault)) :
      BreaksOff index disk strict words (looked.map (index.words.visit disk))
        (looked.map (index.words.visitLine disk)) fault
  | resolution {work : FileWork} {last : Match} {rest : List Match} {fault : Fault}
      (here : work.index = index) (sound : work.Sound disk strict words)
      (next : work.unnamed = last :: rest)
      (failed : (index.documents.lookup disk last.id).result = .error fault ∨
        strict = true ∧ (index.documents.lookup disk last.id).result = .ok none ∧
          fault = .missingDocument last.id) :
      BreaksOff index disk strict words
        (work.events disk words.length ++ [index.documents.visit disk last.id])
        (work.lines disk words.length ++ [index.documents.visitLine disk last.id]) fault

variable {index : OpenIndex} {disk : Disk} {strict : Bool} {words : List String}

theorem events_row (found : Match) :
    (index.row disk strict found).events = (index.documents.resolve disk found.id strict).events := by
  rw [row, Logged.events_bind]
  cases (index.documents.resolve disk found.id strict).result <;> exact List.append_nil _

theorem exists_named (readable : index.Readable disk) {front : List Match}
    (passed : ∀ found ∈ front, ∃ row, (index.row disk strict found).result = .ok row) :
    ∃ named : List (Match × Option String), named.map Prod.fst = front ∧
      (∀ found ∈ named, index.Resolved disk strict found) ∧
      (front.flatMap fun found => (index.row disk strict found).events) =
        (named.flatMap fun found => index.documents.account disk found.1.id found.2) ∧
      (front.mapM fun found => (index.row disk strict found).result) = .ok (named.map FileWork.row) := by
  have lookedUp : ∀ found ∈ front, ∃ named : Match × Option String, named.1 = found ∧
      index.Resolved disk strict named ∧
      (index.row disk strict named.1).result = .ok (FileWork.row named) ∧
      (index.row disk strict named.1).events =
        index.documents.account disk named.1.id named.2 := by
    intro found mem
    obtain ⟨row, passed⟩ := passed found mem
    rw [result_row] at passed
    obtain ⟨name, resolved, passed⟩ := bind_eq_ok.mp passed
    obtain ⟨path, looked, rfl, present, events⟩ :=
      DocumentTable.resolve_of_ok readable.documents resolved
    refine ⟨(found, path), rfl, ⟨looked, present⟩, ?_, (events_row found).trans events⟩
    rw [result_row, resolved]
    rfl
  obtain ⟨named, rfl, each⟩ := exists_map_eq Prod.fst lookedUp
  refine ⟨named, rfl, fun found mem => (each found mem).1, ?_, ?_⟩
  · rw [List.flatMap_map]
    exact List.flatMap_congr fun found mem => (each found mem).2.2
  · rw [mapM_eq_ok, List.forall₂_map_left_iff, List.forall₂_map_right_iff, List.forall₂_same]
    exact fun found mem => (each found mem).2.1

theorem events_rows_of_matching {found : List Match}
    (matched : (index.words.matching disk words).result = .ok found) :
    (index.rows disk strict words).events =
      (index.words.matching disk words).events ++
        .documentsMatched index.path found.length words.length ::
          (found.mapM (index.row disk strict)).events := by
  rw [rows, Logged.events_bind_of_ok matched, Logged.events_bind_of_ok (Logged.result_report _)]
  rfl

theorem rows_of_ok (readable : index.Readable disk) {rows : List Row}
    (h : (index.rows disk strict words).result = .ok rows) :
    ∃ work : FileWork, work.index = index ∧ (work.Sound disk strict words ∧ work.unnamed = []) ∧
      (index.rows disk strict words).events = work.events disk words.length ∧
      rows = work.named.map FileWork.row := by
  rw [result_rows] at h
  obtain ⟨found, matched, named⟩ := bind_eq_ok.mp h
  have passed := Outcome.exists_ok_of_mapM named
  obtain ⟨looked, part, reached, searched, ended⟩ := WordTable.searchesOn_matching readable.words words
  obtain ⟨named', rfl, resolved, events, rows'⟩ := exists_named readable passed
  rw [matched] at ended
  refine ⟨⟨index, looked, named', []⟩, rfl, ⟨⟨part, reached, ?_, ?_, resolved⟩, rfl⟩, ?_, ?_⟩
  · rwa [List.append_nil]
  · rw [List.append_nil]
    exact ended.ids part rfl
  · rw [events_rows_of_matching matched, searched, Logged.events_mapM_of_ok passed, events]
    simp [FileWork.events]
  · exact Except.ok.inj (named.symm.trans rows')

theorem breaksOff_of_error (readable : index.Readable disk) {fault : Fault}
    (h : (index.rows disk strict words).result = .error fault) :
    ∃ printed, index.BreaksOff disk strict words (index.rows disk strict words).events printed fault := by
  obtain ⟨looked, part, reached, searched, ended⟩ := WordTable.searchesOn_matching readable.words words
  rw [result_rows] at h
  rcases bind_eq_error.mp h with failed | ⟨found, matched, h⟩
  · rw [failed] at ended
    rw [rows, Logged.events_bind_of_error failed, searched]
    exact ⟨_, .lookup part reached ended⟩
  · obtain ⟨front, last, rest, rfl, passed, failed⟩ := mapM_eq_error.mp h
    obtain ⟨named, rfl, resolved, events, -⟩ := exists_named readable passed
    have unnamed := failed
    rw [result_row] at unnamed
    have unresolved : (index.documents.resolve disk last.id strict).result = .error fault := by
      rcases bind_eq_error.mp unnamed with unresolved | ⟨name, -, impossible⟩
      · exact unresolved
      · cases impossible
    obtain ⟨visited, reason⟩ := DocumentTable.resolve_of_error readable.documents unresolved
    rw [matched] at ended
    have log : (index.rows disk strict words).events =
        FileWork.events disk words.length ⟨index, looked, named, last :: rest⟩ ++
          [index.documents.visit disk last.id] := by
      rw [events_rows_of_matching matched, searched, Logged.events_mapM_of_error passed failed, events,
        events_row, visited]
      simp [FileWork.events]
    rw [log]
    exact ⟨_, .resolution rfl ⟨part, reached, ended, ended.ids part rfl, resolved⟩ rfl reason⟩

end OpenIndex

def Event.matched : Event → Option Nat
  | .documentsMatched _ documents _ => some documents
  | _ => none

namespace FileWork

variable (disk : Disk) (wordCount : Nat)

theorem matched_events (work : FileWork) :
    (work.events disk wordCount).filterMap Event.matched = [work.named.length + work.unnamed.length] := by
  have words : (work.words.map (work.index.words.visit disk)).filterMap Event.matched = [] := by
    rw [List.filterMap_map, List.filterMap_eq_nil_iff]
    exact fun word _ => rfl
  have documents : (work.named.flatMap fun found =>
      work.index.documents.account disk found.1.id found.2).filterMap Event.matched = [] := by
    rw [List.filterMap_flatMap, List.flatMap_eq_nil_iff]
    rintro ⟨found, path | path⟩ - <;> rfl
  rw [events, List.filterMap_append, words, List.filterMap_cons, documents]
  rfl

theorem warnings_events (work : FileWork) :
    (work.events disk wordCount).countP (fun event => event.level = .warn) =
      work.named.countP fun found => found.2.isNone := by
  have words : (work.words.map (work.index.words.visit disk)).countP
      (fun event => event.level = .warn) = 0 := by
    rw [List.countP_map, List.countP_eq_zero]
    exact fun word _ => Bool.false_ne_true
  have documents : (work.named.flatMap fun found =>
      work.index.documents.account disk found.1.id found.2).countP (fun event => event.level = .warn) =
        work.named.countP fun found => found.2.isNone := by
    induction work.named with
    | nil => rfl
    | cons found rest ih =>
      rw [List.flatMap_cons, List.countP_append, ih, List.countP_cons, Nat.add_comm]
      obtain ⟨found, path | path⟩ := found <;> rfl
  rw [events, List.countP_append, words, List.countP_cons, documents]
  exact Nat.zero_add _

theorem line_events (work : FileWork) :
    (work.events disk wordCount).map Event.line = work.lines disk wordCount := by
  have words : (work.words.map (work.index.words.visit disk)).map Event.line =
      work.words.map (work.index.words.visitLine disk) := by
    rw [List.map_map]
    exact List.map_congr_left fun word _ => ChainTable.line_visit _ disk _
  have matched : Event.line (.documentsMatched work.index.path
      (work.named.length + work.unnamed.length) wordCount) = (.debug, work.index.path ++ ": " ++
        toString (work.named.length + work.unnamed.length) ++ " document(s) match " ++
          toString wordCount ++ " word(s)") := rfl
  rw [events, lines, List.map_append, words, List.map_cons, matched, List.map_flatMap]
  refine congrArg (_ ++ _ :: ·) (List.flatMap_congr ?_)
  rintro ⟨found, path | path⟩ -
  · exact congrArg (· :: _) (ChainTable.line_visit _ disk _)
  · exact congrArg (· :: _) (ChainTable.line_visit _ disk _)

theorem line_breaksOff {index : OpenIndex} {strict : Bool} {words : List String} {events : List Event}
    {printed : List (Level × String)} {fault : Fault}
    (broken : index.BreaksOff disk strict words events printed fault) :
    events.map Event.line = printed := by
  cases broken with
  | lookup =>
    rw [List.map_map]
    exact List.map_congr_left fun word _ => ChainTable.line_visit _ disk _
  | resolution =>
    rw [List.map_append, line_events]
    exact congrArg (_ ++ [·]) (ChainTable.line_visit _ disk _)

theorem line_flatMap_events (works : List FileWork) :
    (works.flatMap (events disk wordCount)).map Event.line = works.flatMap (lines disk wordCount) := by
  rw [List.map_flatMap]
  exact List.flatMap_congr fun work _ => work.line_events disk wordCount

theorem matched_flatMap_events {works : List FileWork} (finished : ∀ work ∈ works, work.unnamed = []) :
    (works.flatMap (events disk wordCount)).filterMap Event.matched =
      works.map fun work => work.named.length := by
  rw [List.filterMap_flatMap, List.map_eq_flatMap]
  refine List.flatMap_congr fun work mem => ?_
  rw [work.matched_events, finished work mem]
  rfl

theorem warnings_flatMap_events (works : List FileWork) :
    (works.flatMap (events disk wordCount)).countP (fun event => event.level = .warn) =
      (works.flatMap named).countP fun found => found.2.isNone := by
  rw [List.countP_flatMap, List.countP_flatMap]
  congr 1
  exact List.map_congr_left fun work _ => work.warnings_events disk wordCount

end FileWork

namespace Engine

theorem events_query (engine : Engine) (disk : Disk) {words : List String} (nonempty : words ≠ []) :
    (engine.query disk words).events =
      (engine.indexes.mapM fun (index : OpenIndex) => index.rows disk engine.strict words).events := by
  simp only [query, if_neg nonempty]
  rw [Logged.events_bind]
  cases (engine.indexes.mapM fun (index : OpenIndex) => index.rows disk engine.strict words).result <;>
    exact List.append_nil _

theorem readable_of_start {disk now : Disk} {settings : Settings} {engine : Engine}
    (started : (start disk settings).result = .ok engine)
    (kept : ∀ source ∈ (Handle.engine engine).sources,
      (source.bytes disk).size ≤ (source.bytes now).size) :
    ∀ index ∈ engine.indexes, index.Readable now := by
  intro index mem
  have opened := openedOn_of_start started
  have readable : ∀ table ∈ [index.documents.buckets, index.words.buckets], table.Readable now := by
    intro table held
    have source : table.source ∈ (Handle.engine engine).sources := by
      apply List.mem_flatMap.mpr
      refine ⟨index, mem, ?_⟩
      simpa [eq_comm] using List.mem_map_of_mem (f := ChainTable.source) held
    have table' : table ∈ (Handle.engine engine).tables := List.mem_flatMap.mpr ⟨index, mem, held⟩
    exact (opened.tables table table').readable (kept table.source source)
  exact ⟨readable _ (by simp), readable _ (by simp)⟩

theorem exists_works {disk : Disk} {strict : Bool} {words : List String} {indexes : List OpenIndex}
    (readable : ∀ index ∈ indexes, index.Readable disk)
    (passed : ∀ index ∈ indexes, ∃ rows, (index.rows disk strict words).result = .ok rows) :
    ∃ works : List FileWork, works.map FileWork.index = indexes ∧
      (∀ work ∈ works, work.Sound disk strict words ∧ work.unnamed = []) ∧
      (indexes.flatMap fun index => (index.rows disk strict words).events) =
        works.flatMap (FileWork.events disk words.length) ∧
      (indexes.mapM fun index => (index.rows disk strict words).result) =
        .ok (works.map fun work => work.named.map FileWork.row) := by
  have worked : ∀ index ∈ indexes, ∃ work : FileWork, work.index = index ∧
      (work.Sound disk strict words ∧ work.unnamed = []) ∧
      (work.index.rows disk strict words).events = work.events disk words.length ∧
      (work.index.rows disk strict words).result = .ok (work.named.map FileWork.row) := by
    intro index mem
    obtain ⟨rows, passed⟩ := passed index mem
    obtain ⟨work, rfl, sound, events, rfl⟩ := OpenIndex.rows_of_ok (readable index mem) passed
    exact ⟨work, rfl, sound, events, passed⟩
  obtain ⟨works, rfl, each⟩ := exists_map_eq FileWork.index worked
  refine ⟨works, rfl, fun work mem => (each work mem).1, ?_, ?_⟩
  · rw [List.flatMap_map]
    exact List.flatMap_congr fun work mem => (each work mem).2.1
  · rw [mapM_eq_ok, List.forall₂_map_left_iff, List.forall₂_map_right_iff, List.forall₂_same]
    exact fun work mem => (each work mem).2.2

/-- The log of a query over files that have not become shorter since the engine was started. If there is
an answer, it is the log of the work in each file, in their order, and reads like that; the numbers of
matches in it add up to the number of rows, and it has a warning for each row that is named by a
placeholder. If the query fails, it is the log of the files before, and of what was done in the file that
fails. -/
theorem query_log_accounts_for_work {disk now : Disk} {settings : Settings} {engine : Engine}
    (started : (start disk settings).result = .ok engine)
    (kept : ∀ source ∈ (Handle.engine engine).sources,
      (source.bytes disk).size ≤ (source.bytes now).size)
    {words : List String} (nonempty : words ≠ []) :
    let log := (engine.query now words).events
    (∀ answer, (engine.query now words).result = .ok answer → ∃ works : List FileWork,
      works.map FileWork.index = engine.indexes ∧
      (∀ work ∈ works, work.Sound now engine.strict words ∧ work.unnamed = []) ∧
      log = works.flatMap (FileWork.events now words.length) ∧
      log.map Event.line = works.flatMap (FileWork.lines now words.length) ∧
      answer.Perm ((works.flatMap FileWork.named).map FileWork.row) ∧
      (log.filterMap Event.matched).sum = answer.length ∧
      log.countP (fun event => event.level = .warn) =
        (works.flatMap FileWork.named).countP fun found => found.2.isNone) ∧
    ∀ fault, (engine.query now words).result = .error fault →
      ∃ (works : List FileWork) (index : OpenIndex) (after : List OpenIndex) (rest : List Event)
          (printed : List (Level × String)),
        engine.indexes = works.map FileWork.index ++ index :: after ∧
        (∀ work ∈ works, work.Sound now engine.strict words ∧ work.unnamed = []) ∧
        log = works.flatMap (FileWork.events now words.length) ++ rest ∧
        log.map Event.line = works.flatMap (FileWork.lines now words.length) ++ printed ∧
        index.BreaksOff now engine.strict words rest printed fault := by
  intro log
  have readable := readable_of_start started kept
  refine ⟨fun answer answered => ?_, fun fault failed => ?_⟩
  · rw [result_query engine now nonempty] at answered
    obtain ⟨contributions, each, sorted⟩ := bind_eq_ok.mp answered
    have passed := Outcome.exists_ok_of_mapM each
    obtain ⟨works, indexes, sound, events, rows⟩ := exists_works readable passed
    have logged : log = works.flatMap (FileWork.events now words.length) := by
      rw [← events, ← Logged.events_mapM_of_ok passed]
      exact events_query engine now nonempty
    have same : answer.Perm ((works.flatMap FileWork.named).map FileWork.row) := by
      cases each.symm.trans rows
      cases sorted
      rw [List.map_flatMap]
      exact Row.sort_perm _
    have printed : log.map Event.line = works.flatMap (FileWork.lines now words.length) := by
      rw [logged, FileWork.line_flatMap_events]
    refine ⟨works, indexes, sound, logged, printed, same, ?_, ?_⟩
    · rw [logged, FileWork.matched_flatMap_events now words.length fun work mem => (sound work mem).2,
        same.length_eq, List.length_map, List.length_flatMap]
    · rw [logged, FileWork.warnings_flatMap_events]
  · obtain ⟨before, index, after, split, passed, failed⟩ := (result_query_eq_error nonempty).mp failed
    rw [split] at readable
    obtain ⟨works, rfl, sound, events, -⟩ :=
      exists_works (fun earlier mem => readable earlier (List.mem_append_left _ mem)) passed
    let rest := (index.rows now engine.strict words).events
    have logged : log = works.flatMap (FileWork.events now words.length) ++ rest := by
      rw [← events, ← Logged.events_mapM_of_error passed failed after, ← split]
      exact events_query engine now nonempty
    obtain ⟨printed, broken⟩ := OpenIndex.breaksOff_of_error (readable index (by simp)) failed
    refine ⟨works, index, after, rest, printed, split, sound, logged, ?_, broken⟩
    rw [logged, List.map_append, FileWork.line_flatMap_events, FileWork.line_breaksOff now broken]

/-- A placeholder for one of two documents; and the same word where it cannot be looked up in a second file. -/
theorem query_log_accounts_for_work_sample :
    (∃ (engine : Engine) (answer : List Row) (works : List FileWork),
      (start sampleDisk ⟨["whole"], false, true⟩).result = .ok engine ∧
      (engine.query sampleDisk ["b"]).result = .ok answer ∧ answer.length = 2 ∧
      (engine.query sampleDisk ["b"]).events =
        [.bucketVisited 1 140 ⟨1, 184⟩, .documentsMatched "whole" 2 1, .bucketVisited 1 35 ⟨1, 63⟩,
          .bucketVisited 1 35 ⟨1, 63⟩, .placeholderUsed 7] ∧
      (engine.query sampleDisk ["b"]).events = works.flatMap (FileWork.events sampleDisk 1) ∧
      works.flatMap (FileWork.lines sampleDisk 1) =
        [(.trace, "bucket 1 of table @140: 1 element(s) at 184"),
          (.debug, "whole: 2 document(s) match 1 word(s)"),
          (.trace, "bucket 1 of table @35: 1 element(s) at 63"),
          (.trace, "bucket 1 of table @35: 1 element(s) at 63"),
          (.warn, "Document 7 missing from document table, using placeholder")] ∧
      ((works.flatMap FileWork.named).countP fun found => found.2.isNone) = 1) ∧
    ∃ (engine : Engine) (works : List FileWork) (index : OpenIndex) (after : List OpenIndex)
      (rest : List Event) (printed : List (Level × String)),
      (start sampleDisk ⟨["whole", "cut"], false, true⟩).result = .ok engine ∧
      engine.indexes = works.map FileWork.index ++ index :: after ∧
      (engine.query sampleDisk ["b"]).events =
        works.flatMap (FileWork.events sampleDisk 1) ++ rest ∧
      (engine.query sampleDisk ["b"]).events.map Event.line =
        works.flatMap (FileWork.lines sampleDisk 1) ++ printed ∧
      index.BreaksOff sampleDisk engine.strict ["b"] rest printed
        (.corruption (.chainOverrun "cut" 1 1 184)) := by
  constructor
  · have asked : ((start sampleDisk ⟨["whole"], false, true⟩).result >>= fun engine =>
        .ok ((engine.query sampleDisk ["b"]).result.toOption.isSome,
          (engine.query sampleDisk ["b"]).events)) =
        .ok (true, [.bucketVisited 1 140 ⟨1, 184⟩, .documentsMatched "whole" 2 1,
          .bucketVisited 1 35 ⟨1, 63⟩, .bucketVisited 1 35 ⟨1, 63⟩, .placeholderUsed 7]) := by
      decide +kernel
    obtain ⟨engine, started, asked⟩ := bind_eq_ok.mp asked
    rw [Except.ok.injEq, Prod.mk.injEq] at asked
    obtain ⟨there, log⟩ := asked
    obtain ⟨fault, failed⟩ | ⟨answer, answered⟩ :=
      Outcome.error_or_ok (engine.query sampleDisk ["b"]).result
    · rw [failed] at there
      cases there
    · obtain ⟨accounts, -⟩ :=
        query_log_accounts_for_work started (fun _ _ => le_rfl) (by decide : ["b"] ≠ [])
      obtain ⟨works, -, -, logged, printed, -, counted, warned⟩ := accounts answer answered
      rw [log] at counted warned
      rw [log] at printed
      exact ⟨engine, answer, works, started, answered, counted.symm, log, logged,
        printed.symm.trans (by decide +kernel), warned.symm⟩
  · have asked : ((start sampleDisk ⟨["whole", "cut"], false, true⟩).result >>= fun engine =>
        .ok (engine.query sampleDisk ["b"]).result) =
        .ok (.error (.corruption (.chainOverrun "cut" 1 1 184))) := by
      decide +kernel
    obtain ⟨engine, started, failed⟩ := bind_eq_ok.mp asked
    obtain ⟨-, accounts⟩ :=
      query_log_accounts_for_work started (fun _ _ => le_rfl) (by decide : ["b"] ≠ [])
    obtain ⟨works, index, after, rest, printed, split, -, logged, shown, broken⟩ :=
      accounts _ (Except.ok.inj failed)
    exact ⟨engine, works, index, after, rest, printed, started, split, logged, shown, broken⟩

end Engine

end InvertedIndex
