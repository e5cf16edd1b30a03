import InvertedIndex.Proofs.Query
import InvertedIndex.Proofs.Reading

/-!
Strict and lenient runs of one query take the same steps up to the first document that a file does
not hold.
-/

set_option autoImplicit false
set_option relaxedAutoImplicit false

namespace InvertedIndex

open Outcome (Leads bind_eq_ok mapM_eq_ok exists_of_mem_right)

variable {α β : Type}

/-- The first document of a log that a placeholder was used for. -/
def Event.firstMissing (events : List Event) : Option DocumentId :=
  events.findSome? fun
    | .placeholderUsed id => some id
    | _ => none

namespace Logged

def Complete (x : Logged α) : Prop :=
  Event.firstMissing x.events = none

/-- One run ends as the other, unless that one used a placeholder: then it ends with the fault that
the first document is missing for which the other used one. -/
def StopsWhere (strict lenient : Logged α) : Prop :=
  strict.result =
    match Event.firstMissing lenient.events with
    | none => lenient.result
    | some id => .error (.missingDocument id)

theorem events_bind (x : Logged α) (f : α → Logged β) :
    (x >>= f).events = x.events ++
      match x.result with
      | .ok a => (f a).events
      | .error _ => [] := by
  rcases x with ⟨events, fault | a⟩
  · exact (List.append_nil events).symm
  · rfl

theorem firstMissing_bind (x : Logged α) (f : α → Logged β) :
    Event.firstMissing (x >>= f).events =
      (Event.firstMissing x.events).or
        (match x.result with
          | .ok a => Event.firstMissing (f a).events
          | .error _ => none) := by
  rw [events_bind, Event.firstMissing, List.findSome?_append]
  cases x.result <;> rfl

namespace Complete

theorem ofResult (result : Except Fault α) : (liftM result : Logged α).Complete := rfl

theorem ofValue (a : α) : (pure a : Logged α).Complete := rfl

theorem bind {x : Logged α} {f : α → Logged β} (first : x.Complete) (rest : ∀ a, (f a).Complete) :
    (x >>= f).Complete := by
  have hx : Event.firstMissing x.events = none := first
  rw [Complete, firstMissing_bind, hx, Option.none_or]
  cases x.result with
  | error fault => rfl
  | ok a => exact rest a

theorem stopsWhere {x : Logged α} (h : x.Complete) : x.StopsWhere x := by
  have hx : Event.firstMissing x.events = none := h
  rw [StopsWhere, hx]

end Complete

namespace StopsWhere

theorem bind {strict lenient : Logged α} {f g : α → Logged β} (first : strict.StopsWhere lenient)
    (rest : ∀ a, (f a).StopsWhere (g a)) : (strict >>= f).StopsWhere (lenient >>= g) := by
  unfold StopsWhere at first ⊢
  rw [result_bind, firstMissing_bind, result_bind, first]
  cases Event.firstMissing lenient.events with
  | some id => rfl
  | none =>
    rw [Option.none_or]
    cases lenient.result with
    | error fault => rfl
    | ok a => exact rest a

theorem mapM {f g : α → Logged β} (each : ∀ a, (f a).StopsWhere (g a)) (as : List α) :
    (as.mapM f).StopsWhere (as.mapM g) := by
  induction as with
  | nil => exact (Complete.ofValue []).stopsWhere
  | cons a as ih =>
    rw [List.mapM_cons, List.mapM_cons]
    refine (each a).bind fun b => ?_
    refine ih.bind fun bs => ?_
    exact (Complete.ofValue (b :: bs)).stopsWhere

end StopsWhere

end Logged

open Logged (Complete StopsWhere)

theorem ChainTable.complete_lookup (table : ChainTable) (disk : Disk) (key : UInt64) :
    (table.lookup disk key).Complete := by
  refine (Complete.ofResult _).bind fun slot => ?_
  have visited : (Logged.report (.bucketVisited (table.bucketOf key) table.base slot)).Complete := rfl
  exact visited.bind fun _ => Complete.ofResult _

namespace DocumentTable

variable (table : DocumentTable) (disk : Disk) (id : DocumentId)

theorem complete_lookup : (table.lookup disk id).Complete :=
  (table.buckets.complete_lookup disk (keyOf id)).bind fun _ => Complete.ofResult _

theorem stopsWhere_resolve :
    (table.resolve disk id true).StopsWhere (table.resolve disk id false) := by
  refine (table.complete_lookup disk id).stopsWhere.bind fun found => ?_
  cases found with
  | some path => exact (Complete.ofValue path).stopsWhere
  | none => rfl

theorem lookup_of_resolve {table : DocumentTable} {disk : Disk} {id : DocumentId} {name : String}
    (h : (table.resolve disk id true).result = .ok name) :
    (table.lookup disk id).result = .ok (some name) := by
  rw [resolve, Logged.result_bind] at h
  obtain ⟨found, hfound, h⟩ := bind_eq_ok.mp h
  cases found with
  | none => cases h
  | some path =>
    cases h
    exact hfound

end DocumentTable

namespace WordTable

variable (table : WordTable) (disk : Disk)

theorem complete_lookup (word : String) : (table.lookup disk word).Complete :=
  (table.buckets.complete_lookup disk (keyOf word)).bind fun _ => Complete.ofResult _

theorem complete_narrowBy (candidates : List Match) (words : List String) :
    (table.narrowBy disk candidates words).Complete := by
  induction words generalizing candidates with
  | nil => cases candidates <;> exact Complete.ofValue _
  | cons word rest ih =>
    cases candidates with
    | nil => exact Complete.ofValue []
    | cons candidate candidates =>
      refine (table.complete_lookup disk word).bind fun found => ?_
      cases found with
      | none => exact Complete.ofValue []
      | some postings => exact ih _

theorem complete_matching (words : List String) : (table.matching disk words).Complete := by
  cases words with
  | nil => exact Complete.ofValue []
  | cons word rest =>
    refine (table.complete_lookup disk word).bind fun found => ?_
    cases found with
    | none => exact Complete.ofValue []
    | some postings => exact table.complete_narrowBy disk _ rest

end WordTable

namespace OpenIndex

variable (index : OpenIndex) (disk : Disk)

theorem stopsWhere_rows (words : List String) :
    (index.rows disk true words).StopsWhere (index.rows disk false words) := by
  refine (index.words.complete_matching disk words).stopsWhere.bind fun found => ?_
  have counted : (Logged.report
    (.documentsMatched index.path found.length words.length)).Complete := rfl
  refine counted.stopsWhere.bind fun _ => ?_
  refine StopsWhere.mapM (fun candidate => ?_) found
  refine (index.documents.stopsWhere_resolve disk candidate.id).bind fun name => ?_
  exact (Complete.ofValue _).stopsWhere

/-- A row stands for a match, under a name that the table of documents holds for it. -/
def Names (words : List String) (row : Row) : Prop :=
  ∃ matched found, (index.words.matching disk words).result = .ok matched ∧ found ∈ matched ∧
    row.rank = found.rank ∧ (index.documents.lookup disk found.id).result = .ok (some row.name)

theorem names_of_rows {index : OpenIndex} {disk : Disk} {words : List String} {rows : List Row}
    (h : (index.rows disk true words).result = .ok rows) :
    ∀ row ∈ rows, index.Names disk words row := by
  intro row mem
  rw [result_rows] at h
  obtain ⟨matched, hmatched, h⟩ := bind_eq_ok.mp h
  obtain ⟨found, hfound, hrow⟩ := Outcome.exists_of_mem_mapM h mem
  rw [result_row] at hrow
  obtain ⟨name, hname, hrow⟩ := bind_eq_ok.mp hrow
  cases hrow
  exact ⟨matched, found, hmatched, hfound, rfl, DocumentTable.lookup_of_resolve hname⟩

end OpenIndex

namespace IndexFile

variable {disk : Disk}

theorem openPath_lenient (path : String) (access : Access) :
    Leads Eq (openPath disk path true access).result (openPath disk path false access).result := by
  simp only [openPath, Logged.result_bind, Logged.result_lift, Logged.result_report]
  refine Leads.refl.bind_eq fun source => ?_
  refine Leads.refl.bind_eq fun header => ?_
  have magic : Leads Eq (ensureMagic path header true).result (ensureMagic path header false).result := by
    unfold ensureMagic
    by_cases known : header.magic = magicNumber
    · simp only [if_pos known]
      exact Leads.refl
    · simp only [if_neg known, if_true]
      exact Leads.error _ _
  refine magic.bind_eq fun _ => ?_
  refine Leads.refl.bind_eq fun _ => ?_
  refine Leads.refl.bind_eq fun _ => ?_
  have checksum : Leads Eq (ensureChecksum source disk header true)
      (ensureChecksum source disk header false) :=
    fun _ _ => ⟨(), rfl, rfl⟩
  exact checksum.bind_eq fun _ => Leads.refl

end IndexFile

theorem OpenIndex.openPath_lenient {disk : Disk} (path : String) (access : Access) :
    Leads Eq (OpenIndex.openPath disk path true access).result
      (OpenIndex.openPath disk path false access).result := by
  simp only [openPath, Logged.result_bind]
  exact (IndexFile.openPath_lenient path access).bind_eq fun _ => Leads.refl

namespace Engine

def lenient (engine : Engine) : Engine :=
  { engine with strict := false }

theorem start_lenient {disk : Disk} {paths : List String} {mapped : Bool} {engine : Engine}
    (h : (start disk ⟨paths, true, mapped⟩).result = .ok engine) :
    engine.strict = true ∧ (start disk ⟨paths, false, mapped⟩).result = .ok engine.lenient := by
  simp only [start, Logged.result_bind, Logged.result_lift, Logged.result_report,
    Logged.result_mapM, Logged.result_pure] at h ⊢
  obtain ⟨_, hcheck, h⟩ := bind_eq_ok.mp h
  obtain ⟨indexes, hindexes, h⟩ := bind_eq_ok.mp h
  cases h
  have opened : Leads Eq _ (paths.mapM fun path =>
      (OpenIndex.openPath disk path false (Settings.access ⟨paths, false, mapped⟩)).result) :=
    Leads.mapM_eq fun path => OpenIndex.openPath_lenient path _
  obtain ⟨_, hlenient, rfl⟩ := opened indexes hindexes
  refine ⟨rfl, bind_eq_ok.mpr ⟨_, hcheck, bind_eq_ok.mpr ⟨indexes, hlenient, rfl⟩⟩⟩

theorem stopsWhere_query {engine : Engine} (strict : engine.strict = true) (disk : Disk)
    (words : List String) :
    (engine.query disk words).StopsWhere (engine.lenient.query disk words) := by
  by_cases nonempty : words = []
  · subst nonempty
    rfl
  · simp only [query, if_neg nonempty, strict, lenient]
    refine StopsWhere.bind ?_ fun rows => (Complete.ofValue _).stopsWhere
    exact StopsWhere.mapM (fun index => index.stopsWhere_rows disk words) engine.indexes

theorem names_of_query {engine : Engine} (strict : engine.strict = true) {disk : Disk}
    {words : List String} {answer : List Row} (h : (engine.query disk words).result = .ok answer) :
    ∀ row ∈ answer, ∃ index ∈ engine.indexes, index.Names disk words row := by
  intro row mem
  have nonempty : words ≠ [] := by
    rintro rfl
    cases h
  rw [result_query engine disk nonempty] at h
  obtain ⟨rows, hrows, h⟩ := bind_eq_ok.mp h
  cases h
  rw [Row.sort, List.mem_mergeSort] at mem
  obtain ⟨contribution, hcontribution, hrow⟩ := List.mem_flatten.mp mem
  obtain ⟨index, hindex, hopened⟩ := Outcome.exists_of_mem_mapM hrows hcontribution
  rw [strict] at hopened
  exact ⟨index, hindex, OpenIndex.names_of_rows hopened row hrow⟩

/-- Over any files, what can be opened in strict mode can be opened in lenient mode. A query in
strict mode then ends as the lenient one does if that one finds every document, and otherwise with
the first document that it misses. -/
theorem strict_stops_at_first_missing_document {disk : Disk} {paths : List String} {mapped : Bool}
    {engine : Engine} (opened : (start disk ⟨paths, true, mapped⟩).result = .ok engine) :
    ∃ tolerant, (start disk ⟨paths, false, mapped⟩).result = .ok tolerant ∧
      ∀ (now : Disk) (words : List String),
        (Event.firstMissing (tolerant.query now words).events = none →
          (engine.query now words).result = (tolerant.query now words).result) ∧
        (∀ id, Event.firstMissing (tolerant.query now words).events = some id →
          (engine.query now words).result = .error (.missingDocument id)) ∧
        (∀ answer, (engine.query now words).result = .ok answer →
          (tolerant.query now words).result = .ok answer ∧
            ∀ row ∈ answer, ∃ index ∈ engine.indexes, index.Names now words row) := by
  obtain ⟨strict, lenient⟩ := start_lenient opened
  refine ⟨engine.lenient, lenient, fun now words => ?_⟩
  have stops := stopsWhere_query strict now words
  unfold StopsWhere at stops
  refine ⟨?_, ?_, ?_⟩
  · intro complete
    rw [stops, complete]
  · intro id missing
    rw [stops, missing]
  · intro answer hanswer
    refine ⟨?_, names_of_query strict hanswer⟩
    cases missing : Event.firstMissing (engine.lenient.query now words).events with
    | none =>
      rw [missing] at stops
      exact stops.symm.trans hanswer
    | some id =>
      rw [missing, hanswer] at stops
      cases stops

set_option maxRecDepth 20000 in
theorem strict_stops_at_first_missing_document_sample :
    ∃ engine tolerant, (start sampleDisk ⟨["whole"], true, false⟩).result = .ok engine ∧
      (start sampleDisk ⟨["whole"], false, false⟩).result = .ok tolerant ∧
      Event.firstMissing (tolerant.query sampleDisk ["b"]).events = some 7 ∧
      (engine.query sampleDisk ["b"]).result = .error (.missingDocument 7) ∧
      (engine.query sampleDisk ["a"]).result = .ok [⟨"x", 3⟩] ∧
      (tolerant.query sampleDisk ["a"]).result = .ok [⟨"x", 3⟩] := by
  have started : (start sampleDisk ⟨["whole"], true, false⟩).result.toOption.isSome := by
    decide +kernel
  obtain ⟨engine, hengine⟩ := Option.isSome_iff_exists.mp started
  have opened : (start sampleDisk ⟨["whole"], true, false⟩).result = .ok engine := by
    revert hengine
    cases (start sampleDisk ⟨["whole"], true, false⟩).result <;> simp [Except.toOption]
  obtain ⟨tolerant, htolerant, related⟩ := strict_stops_at_first_missing_document opened
  have answers : ((start sampleDisk ⟨["whole"], false, false⟩).result >>= fun tolerant =>
      .ok (Event.firstMissing (tolerant.query sampleDisk ["b"]).events,
        Event.firstMissing (tolerant.query sampleDisk ["a"]).events,
        (tolerant.query sampleDisk ["a"]).result)) =
      .ok (some 7, none, .ok [⟨"x", 3⟩]) := by
    decide +kernel
  rw [Outcome.bind_of_ok htolerant, Except.ok.injEq, Prod.mk.injEq, Prod.mk.injEq] at answers
  obtain ⟨missing, complete, found⟩ := answers
  refine ⟨engine, tolerant, opened, htolerant, missing, ?_, ?_, found⟩
  · exact (related sampleDisk ["b"]).2.1 7 missing
  · rw [(related sampleDisk ["a"]).1 complete, found]

end Engine

end InvertedIndex
