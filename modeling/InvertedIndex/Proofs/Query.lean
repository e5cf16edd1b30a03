import InvertedIndex.Contents.Image
import InvertedIndex.Engine
import InvertedIndex.Proofs.Agreement
import InvertedIndex.Proofs.RowOrder

set_option autoImplicit false
set_option relaxedAutoImplicit false

namespace InvertedIndex

open Outcome (bind_eq_ok bind_eq_error mapM_eq_ok mapM_eq_error)

namespace OpenIndex

/-- No lookup that is reached fails, and there is a row with name and exact rank for each document
that contains every word, in their order. -/
def Contributes (index : OpenIndex) (disk : Disk) (strict : Bool) (words : List String)
    (rows : List Row) : Prop :=
  (∀ fault, ¬index.words.FailsWith disk words fault) ∧
    List.Forall₂ (fun found row =>
      (index.documents.resolve disk found.1 strict).result = .ok row.name ∧
        row.rank.toNat = found.2) (index.words.agreement disk words) rows

/-- A lookup that is reached fails; or none does, and the fault is that of the first document for
which there is no name. -/
def FailsWith (index : OpenIndex) (disk : Disk) (strict : Bool) (words : List String)
    (fault : Fault) : Prop :=
  index.words.FailsWith disk words fault ∨
    (∀ other, ¬index.words.FailsWith disk words other) ∧
      ∃ front found back, index.words.agreement disk words = front ++ found :: back ∧
        (∀ earlier ∈ front, ∃ name,
          (index.documents.resolve disk earlier.1 strict).result = .ok name) ∧
        (index.documents.resolve disk found.1 strict).result = .error fault

variable {index : OpenIndex} {disk : Disk} {strict : Bool} {words : List String}

theorem result_row (found : Match) :
    (index.row disk strict found).result =
      (index.documents.resolve disk found.id strict).result >>= fun name => .ok ⟨name, found.rank⟩ := by
  rw [row, Logged.result_bind]
  rfl

theorem result_rows :
    (index.rows disk strict words).result =
      (index.words.matching disk words).result >>= fun found =>
        found.mapM fun found => (index.row disk strict found).result := by
  simp only [rows, Logged.result_bind, Logged.result_report, Logged.result_mapM]
  rfl

private theorem result_row_eq_ok {found : Match} {row : Row} :
    (index.row disk strict found).result = .ok row ↔
      (index.documents.resolve disk found.exact.1 strict).result = .ok row.name ∧
        row.rank.toNat = found.exact.2 := by
  rw [result_row, bind_eq_ok]
  simp only [Except.ok.injEq, Match.exact, UInt64.toNat_inj]
  constructor
  · rintro ⟨name, hname, rfl⟩
    exact ⟨hname, rfl⟩
  · rintro ⟨hname, hrank⟩
    exact ⟨row.name, hname, by rw [← hrank]⟩

private theorem result_row_eq_error {found : Match} {fault : Fault} :
    (index.row disk strict found).result = .error fault ↔
      (index.documents.resolve disk found.exact.1 strict).result = .error fault := by
  rw [result_row, bind_eq_error]
  simp [Match.exact]

theorem result_rows_eq_ok (room : words.length ≤ longestQuery) {rows : List Row} :
    (index.rows disk strict words).result = .ok rows ↔
      index.Contributes disk strict words rows := by
  rw [result_rows, bind_eq_ok]
  simp only [mapM_eq_ok, result_row_eq_ok]
  constructor
  · rintro ⟨found, hfound, hrows⟩
    have sound := WordTable.not_failsWith_of_result_matching room hfound
    obtain ⟨found', hfound', hexact⟩ := WordTable.exact_matching room sound
    cases hfound.symm.trans hfound'
    refine ⟨sound, ?_⟩
    rw [← hexact, List.forall₂_map_left_iff]
    exact hrows
  · rintro ⟨sound, hrows⟩
    obtain ⟨found, hfound, hexact⟩ := WordTable.exact_matching room sound
    rw [← hexact, List.forall₂_map_left_iff] at hrows
    exact ⟨found, hfound, hrows⟩

theorem result_rows_eq_error (room : words.length ≤ longestQuery) {fault : Fault} :
    (index.rows disk strict words).result = .error fault ↔
      index.FailsWith disk strict words fault := by
  rw [result_rows, bind_eq_error, WordTable.result_matching_eq_error room, FailsWith]
  apply or_congr_right
  simp only [mapM_eq_error, result_row_eq_error, result_row_eq_ok]
  constructor
  · rintro ⟨matched, hmatched, front, found, back, rfl, hfront, hfault⟩
    have sound := WordTable.not_failsWith_of_result_matching room hmatched
    obtain ⟨matched', hmatched', hexact⟩ := WordTable.exact_matching room sound
    cases hmatched.symm.trans hmatched'
    refine ⟨sound, front.map Match.exact, found.exact, back.map Match.exact, ?_, ?_, hfault⟩
    · rw [← hexact, List.map_append, List.map_cons]
    · intro earlier hmem
      obtain ⟨match', hmatch', rfl⟩ := List.mem_map.mp hmem
      obtain ⟨row, hname, -⟩ := hfront match' hmatch'
      exact ⟨row.name, hname⟩
  · rintro ⟨sound, front, found, back, split, hfront, hfault⟩
    obtain ⟨matched, hmatched, hexact⟩ := WordTable.exact_matching room sound
    rw [split] at hexact
    obtain ⟨front', rest', rfl, rfl, hrest⟩ := List.map_eq_append_iff.mp hexact
    obtain ⟨found', back', rfl, rfl, -⟩ := List.map_eq_cons_iff.mp hrest
    refine ⟨_, hmatched, front', found', back', rfl, ?_, hfault⟩
    intro earlier hmem
    obtain ⟨name, hname⟩ := hfront earlier.exact (List.mem_map_of_mem hmem)
    exact ⟨⟨name, earlier.rank⟩, hname, rfl⟩

end OpenIndex

namespace Engine

theorem result_query (engine : Engine) (disk : Disk) {words : List String} (nonempty : words ≠ []) :
    (engine.query disk words).result =
      (engine.indexes.mapM fun index => (index.rows disk engine.strict words).result) >>= fun rows =>
        .ok (Row.sort rows.flatten) := by
  simp only [query, if_neg nonempty, Logged.result_bind, Logged.result_mapM]
  rfl

theorem result_query_eq_ok {engine : Engine} {disk : Disk} {words : List String} (nonempty : words ≠ [])
    {answer : List Row} :
    (engine.query disk words).result = .ok answer ↔ ∃ contributions,
      List.Forall₂ (fun (index : OpenIndex) rows =>
        (index.rows disk engine.strict words).result = .ok rows) engine.indexes contributions ∧
      Row.sort contributions.flatten = answer := by
  rw [result_query engine disk nonempty, bind_eq_ok]
  simp only [mapM_eq_ok, Except.ok.injEq]

theorem result_query_eq_error {engine : Engine} {disk : Disk} {words : List String}
    (nonempty : words ≠ []) {fault : Fault} :
    (engine.query disk words).result = .error fault ↔ ∃ before index after,
      engine.indexes = before ++ index :: after ∧
        (∀ earlier ∈ before, ∃ rows, (earlier.rows disk engine.strict words).result = .ok rows) ∧
        (index.rows disk engine.strict words).result = .error fault := by
  rw [result_query engine disk nonempty, bind_eq_error]
  simp only [mapM_eq_error, reduceCtorEq, and_false, exists_false, or_false]

theorem nonempty_of_query {engine : Engine} {disk : Disk} {words : List String} {answer : List Row}
    (answered : (engine.query disk words).result = .ok answer) : words ≠ [] := by
  rintro rfl
  cases answered

/-- Queries on any files, damaged or not, for words that are looked up only as long as a document is
left. -/
theorem query_refines_agreement (engine : Engine) (disk : Disk) {words : List String}
    (nonempty : words ≠ []) (room : words.length ≤ 2 ^ 32 + 1) :
    (∀ table : WordTable,
      (∀ fault, (table.matching disk words).result = .error fault ↔
        table.FailsWith disk words fault) ∧
      ((∀ fault, ¬table.FailsWith disk words fault) → ∃ found,
        (table.matching disk words).result = .ok found ∧
          found.map Match.exact = table.agreement disk words) ∧
      (∀ id rank, (id, rank) ∈ table.agreement disk words ↔ ∃ lists counts,
        table.Finds disk words lists ∧
          List.Forall₂ (fun postings count => postings.countIn id = some count) lists counts ∧
          rank = (counts.map UInt32.toNat).sum) ∧
      ((∀ word ∈ words, ∃ found, (table.lookup disk word).result = .ok found) →
        ∃ found, (table.matching disk words).result = .ok found ∧
          found.map Match.exact = table.agreement disk words ∧
          ((∃ word ∈ words, (table.lookup disk word).result = .ok none) → found = []))) ∧
    (∀ answer, (engine.query disk words).result = .ok answer ↔ ∃ contributions,
      List.Forall₂ (fun (index : OpenIndex) rows =>
        index.Contributes disk engine.strict words rows) engine.indexes contributions ∧
      answer.Perm contributions.flatten ∧ answer.Pairwise Row.Precedes) ∧
    (∀ fault, (engine.query disk words).result = .error fault ↔ ∃ before index after,
      engine.indexes = before ++ index :: after ∧
        (∀ earlier ∈ before, ∃ rows, earlier.Contributes disk engine.strict words rows) ∧
        index.FailsWith disk engine.strict words fault) := by
  refine ⟨fun table => ⟨?_, ?_, ?_, ?_⟩, ?_, ?_⟩
  · exact fun fault => WordTable.result_matching_eq_error room
  · exact fun sound => WordTable.exact_matching room sound
  · exact fun id rank => WordTable.mem_agreement_iff nonempty
  · intro answered
    have sound : ∀ fault, ¬table.FailsWith disk words fault := by
      rintro fault ⟨front, word, back, rfl, -, hfault⟩
      obtain ⟨found, hfound⟩ := answered word (by simp)
      rw [hfault] at hfound
      cases hfound
    obtain ⟨found, hfound, hexact⟩ := WordTable.exact_matching room sound
    refine ⟨found, hfound, hexact, ?_⟩
    rintro ⟨word, hmem, habsent⟩
    have absent : table.postings? disk word = none := by
      rw [WordTable.postings?, habsent]
    rw [WordTable.agreement_eq_nil_of_absent hmem absent] at hexact
    exact List.map_eq_nil_iff.mp hexact
  · intro answer
    rw [result_query engine disk nonempty, bind_eq_ok]
    simp only [mapM_eq_ok, OpenIndex.result_rows_eq_ok room, Except.ok.injEq, Row.sort_eq_iff]
  · intro fault
    rw [result_query engine disk nonempty, bind_eq_error]
    simp only [mapM_eq_error, OpenIndex.result_rows_eq_ok room,
      OpenIndex.result_rows_eq_error room, reduceCtorEq, and_false, exists_false, or_false]

theorem query_refines_agreement_sample :
    (∃ engine contributions,
      (start sampleDisk ⟨["whole"], false, false⟩).result = .ok engine ∧
        List.Forall₂ (fun (index : OpenIndex) rows =>
          index.Contributes sampleDisk engine.strict ["a", "b"] rows) engine.indexes contributions ∧
        [⟨"x", 7⟩].Perm contributions.flatten ∧ [⟨"x", 7⟩].Pairwise Row.Precedes) ∧
    ∃ engine before index after,
      (start sampleDisk ⟨["whole", "cut"], false, true⟩).result = .ok engine ∧
        engine.indexes = before ++ index :: after ∧
        (∀ earlier ∈ before, ∃ rows,
          earlier.Contributes sampleDisk engine.strict ["a", "b"] rows) ∧
        index.FailsWith sampleDisk engine.strict ["a", "b"]
          (.corruption (.chainOverrun "cut" 1 1 184)) := by
  have sought : ["a", "b"] ≠ [] := by decide
  have room : ["a", "b"].length ≤ 2 ^ 32 + 1 := by decide
  constructor
  · have answered : ((start sampleDisk ⟨["whole"], false, false⟩).result >>= fun engine =>
        (engine.query sampleDisk ["a", "b"]).result) = .ok [⟨"x", 7⟩] := by
      decide +kernel
    obtain ⟨engine, hstart, hquery⟩ := bind_eq_ok.mp answered
    have refined := (query_refines_agreement engine sampleDisk sought room).2.1
    obtain ⟨contributions, hrows, same, ordered⟩ := (refined _).mp hquery
    exact ⟨engine, contributions, hstart, hrows, same, ordered⟩
  · have failed : ((start sampleDisk ⟨["whole", "cut"], false, true⟩).result >>= fun engine =>
        .ok (engine.query sampleDisk ["a", "b"]).result) =
          .ok (.error (.corruption (.chainOverrun "cut" 1 1 184))) := by
      decide +kernel
    obtain ⟨engine, hstart, hquery⟩ := bind_eq_ok.mp failed
    have refined := (query_refines_agreement engine sampleDisk sought room).2.2
    obtain ⟨before, index, after, split, hbefore, hfails⟩ := (refined _).mp (Except.ok.inj hquery)
    exact ⟨engine, before, index, after, hstart, split, hbefore, hfails⟩

end Engine

end InvertedIndex
