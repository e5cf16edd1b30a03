import InvertedIndex.Proofs.Query
import InvertedIndex.Proofs.RowOrder

/-!
The words of a query may come in any order: agreement does not depend on it, only how far a list of
words is read.
-/

set_option autoImplicit false
set_option relaxedAutoImplicit false

namespace InvertedIndex

open Outcome (bind_eq_ok mapM_eq_some)

theorem nodup_eraseDups {α : Type} [DecidableEq α] (as : List α) : as.eraseDups.Nodup := by
  match as with
  | [] => simp
  | a :: rest =>
    rw [List.eraseDups_cons, List.nodup_cons]
    refine ⟨?_, nodup_eraseDups (rest.filter fun b => !b == a)⟩
    simp [List.mem_eraseDups]
termination_by as.length
decreasing_by exact Nat.lt_succ_of_le (List.length_filter_le _ _)

namespace Postings

variable {lists others : List Postings}

theorem rankIn_of_perm (same : others.Perm lists) {id : DocumentId} {rank : Nat}
    (ranked : rankIn lists id = some rank) : rankIn others id = some rank := by
  rw [rankIn_eq_some] at ranked ⊢
  obtain ⟨counts, each, rfl⟩ := ranked
  obtain ⟨counts', each', same'⟩ := List.perm_comp_forall₂ same each
  exact ⟨counts', each', ((same'.map UInt32.toNat).sum_eq).symm⟩

theorem nodup_agreement (lists : List Postings) : (agreement lists).Nodup := by
  cases lists with
  | nil => exact List.nodup_nil
  | cons first rest =>
    refine List.Nodup.filterMap ?_ (nodup_eraseDups _)
    intro id id' found mem mem'
    obtain ⟨rank, -, rfl⟩ := Option.map_eq_some_iff.mp mem
    obtain ⟨rank', -, same⟩ := Option.map_eq_some_iff.mp mem'
    exact (Prod.mk.inj same).1.symm

theorem agreement_perm (same : others.Perm lists) : (agreement others).Perm (agreement lists) := by
  by_cases none : lists = []
  · rw [none] at same ⊢
    rw [List.perm_nil.mp same]
  · have none' : others ≠ [] := fun e => none (List.nil_perm.mp (e ▸ same))
    -- The first list decides the order, so the two agreements are compared by what is in them.
    apply (List.perm_ext_iff_of_nodup (nodup_agreement others) (nodup_agreement lists)).mpr
    intro ⟨id, rank⟩
    rw [mem_agreement_iff none, mem_agreement_iff none']
    exact ⟨rankIn_of_perm same.symm, rankIn_of_perm same⟩

end Postings

namespace WordTable

variable {table : WordTable} {disk : Disk} {words others : List String}

private theorem mapM_of_perm (same : others.Perm words) {lists : List Postings}
    (found : words.mapM (table.postings? disk) = some lists) :
    ∃ lists', others.mapM (table.postings? disk) = some lists' ∧ lists'.Perm lists := by
  obtain ⟨lists', found', same'⟩ := List.perm_comp_forall₂ same (mapM_eq_some.mp found)
  exact ⟨lists', mapM_eq_some.mpr found', same'⟩

theorem agreement_perm (same : others.Perm words) :
    (table.agreement disk others).Perm (table.agreement disk words) := by
  unfold agreement
  cases found : words.mapM (table.postings? disk) with
  | some lists =>
    obtain ⟨lists', found', same'⟩ := mapM_of_perm same found
    rw [found']
    exact Postings.agreement_perm same'
  | none =>
    cases found' : others.mapM (table.postings? disk) with
    | none => exact List.Perm.refl _
    | some lists' =>
      obtain ⟨lists, found'', -⟩ := mapM_of_perm same.symm found'
      rw [found''] at found
      cases found

theorem FailsWith.append {fault : Fault} (fails : table.FailsWith disk words fault)
    (back : List String) : table.FailsWith disk (words ++ back) fault := by
  obtain ⟨front, word, rest, rfl, reached, failed⟩ := fails
  refine ⟨front, word, rest ++ back, ?_, reached, failed⟩
  rw [List.append_assoc, List.cons_append]

theorem reaches_of_agreement_ne_nil (left : table.agreement disk words ≠ []) :
    table.Reaches disk words := by
  unfold agreement at left
  cases found : words.mapM (table.postings? disk) with
  | none => simp [found] at left
  | some lists =>
    rw [found] at left
    simp only [mapM_eq_some, postings?_eq_some] at found
    exact ⟨lists, found, fun _ => left⟩

theorem matching_append_of_nil {front : List String} (some : front ≠ [])
    (none : (table.matching disk front).result = .ok []) (back : List String) :
    table.matching disk (front ++ back) = table.matching disk front := by
  have idle : ∀ left, (table.matching disk front).result = .ok left →
      table.narrowBy disk left back = pure left := by
    intro left hleft
    obtain rfl : [] = left := Except.ok.inj (none.symm.trans hleft)
    exact narrowBy_nil back
  rw [matching_append some, Logged.bind_congr_of_ok idle, bind_pure]

/-- Where matching succeeds though the lookup of a word fails, it stops ahead of that word: the words in
front of it leave no document, and matching does nothing else than for these. -/
theorem matching_stops_before {word : String} {fault : Fault} {found : List Match}
    (room : words.length ≤ longestQuery) (mem : word ∈ words)
    (failed : (table.lookup disk word).result = .error fault)
    (passed : (table.matching disk words).result = .ok found) :
    ∃ front back, words = front ++ word :: back ∧ word ∉ front ∧
      table.matching disk words = table.matching disk front := by
  obtain ⟨front, back, rfl, first⟩ := List.eq_append_cons_of_mem mem
  refine ⟨front, back, rfl, first, ?_⟩
  have sound := not_failsWith_of_result_matching room passed
  -- Had a document been left for the word, its lookup would have ended the whole in a fault.
  have behind : ¬table.Reaches disk front := fun reached =>
    sound fault ⟨front, word, back, rfl, reached, failed⟩
  have some : front ≠ [] := by
    rintro rfl
    exact behind ⟨[], .nil, fun nonempty => absurd rfl nonempty⟩
  have room' : front.length ≤ longestQuery := by
    rw [List.length_append] at room
    omega
  obtain ⟨left, hleft, agreed⟩ := exact_matching room' fun fault fails =>
    sound fault (fails.append (word :: back))
  have none : table.agreement disk front = [] := by
    by_contra left
    exact behind (reaches_of_agreement_ne_nil left)
  rw [none, List.map_eq_nil_iff] at agreed
  rw [agreed] at hleft
  exact matching_append_of_nil some hleft (word :: back)

theorem agreement_eq_nil_of_failed {word : String} {fault : Fault} (mem : word ∈ words)
    (failed : (table.lookup disk word).result = .error fault) : table.agreement disk words = [] := by
  apply agreement_eq_nil_of_absent mem
  rw [postings?, failed]

end WordTable

namespace OpenIndex

variable {index : OpenIndex} {disk : Disk} {strict : Bool} {words others : List String}

theorem Contributes.perm {rows rows' : List Row} (given : index.Contributes disk strict words rows)
    (given' : index.Contributes disk strict others rows') (same : words.Perm others) :
    rows.Perm rows' := by
  obtain ⟨rows'', each, same'⟩ :=
    List.perm_comp_forall₂ (WordTable.agreement_perm same.symm) given.2
  have unique : rows'' = rows' := by
    refine List.right_unique_forall₂' ?_ each given'.2
    rintro found ⟨name, rank⟩ ⟨name', rank'⟩ ⟨hname, hrank⟩ ⟨hname', hrank'⟩
    cases hname.symm.trans hname'
    cases UInt64.toNat_inj.mp (hrank.trans hrank'.symm)
    rfl
  exact unique ▸ same'.symm

/-- Where a file contributes rows for some order of words and fails for another, the lookup of a word
fails; the former order stops ahead of it and has no rows. -/
theorem exists_failed_lookup {rows : List Row} {fault : Fault} (room : words.length ≤ longestQuery)
    (given : index.Contributes disk strict words rows)
    (failed : index.FailsWith disk strict others fault) (same : words.Perm others) :
    rows = [] ∧ ∃ word ∈ words, (index.words.lookup disk word).result = .error fault ∧
      ∃ front back, words = front ++ word :: back ∧ word ∉ front ∧
        index.words.matching disk words = index.words.matching disk front := by
  obtain ⟨sound, named⟩ := given
  rcases failed with ⟨front, word, back, rfl, -, failed⟩ | ⟨-, front, found, back, split, -, unnamed⟩
  · have mem : word ∈ words := same.mem_iff.mpr (by simp)
    obtain ⟨matched, hmatched, -⟩ := WordTable.exact_matching room sound
    rw [WordTable.agreement_eq_nil_of_failed mem failed] at named
    exact ⟨List.forall₂_nil_left_iff.mp named, word, mem, failed,
      WordTable.matching_stops_before room mem failed hmatched⟩
  · -- Every document of the agreement has a name, in whichever order it is found.
    have mem : found ∈ index.words.agreement disk words :=
      (WordTable.agreement_perm same).mem_iff.mpr (split ▸ by simp)
    obtain ⟨row, -, hname, -⟩ := Outcome.exists_of_mem_right named.flip mem
    rw [hname] at unnamed
    cases unnamed

end OpenIndex

namespace Engine

variable {engine : Engine} {disk : Disk} {words others : List String}

theorem answer_of_perm (nonempty : words ≠ []) (room : words.length ≤ longestQuery)
    (same : words.Perm others) {answer answer' : List Row}
    (answered : (engine.query disk words).result = .ok answer)
    (answered' : (engine.query disk others).result = .ok answer') : answer = answer' := by
  have nonempty' : others ≠ [] := fun e => nonempty (List.perm_nil.mp (e ▸ same))
  have room' : others.length ≤ longestQuery := same.length_eq ▸ room
  simp only [result_query_eq_ok nonempty, OpenIndex.result_rows_eq_ok room] at answered
  simp only [result_query_eq_ok nonempty', OpenIndex.result_rows_eq_ok room'] at answered'
  obtain ⟨contributions, each, rfl⟩ := answered
  obtain ⟨contributions', each', rfl⟩ := answered'
  have alike : List.Forall₂ List.Perm contributions contributions' :=
    Outcome.forall₂_of_common each each' fun _ _ _ given given' => given.perm given' same
  exact Row.sort_eq_of_perm (List.Perm.flatten_congr alike)

theorem exists_failed_lookup (nonempty : words ≠ []) (room : words.length ≤ longestQuery)
    (same : words.Perm others) {answer : List Row} {fault : Fault}
    (answered : (engine.query disk words).result = .ok answer)
    (failed : (engine.query disk others).result = .error fault) :
    ∃ index ∈ engine.indexes, (index.rows disk engine.strict words).result = .ok [] ∧
      ∃ word ∈ words, (index.words.lookup disk word).result = .error fault ∧
        ∃ front back, words = front ++ word :: back ∧ word ∉ front ∧
          index.words.matching disk words = index.words.matching disk front := by
  have nonempty' : others ≠ [] := fun e => nonempty (List.perm_nil.mp (e ▸ same))
  have room' : others.length ≤ longestQuery := same.length_eq ▸ room
  obtain ⟨contributions, each, -⟩ := (result_query_eq_ok nonempty).mp answered
  obtain ⟨before, index, after, split, -, fails⟩ := (result_query_eq_error nonempty').mp failed
  have mem : index ∈ engine.indexes := split ▸ by simp
  obtain ⟨rows, -, passed⟩ := Outcome.exists_of_mem_right each.flip mem
  obtain ⟨rfl, skipped⟩ := OpenIndex.exists_failed_lookup room
    ((OpenIndex.result_rows_eq_ok room).mp passed) ((OpenIndex.result_rows_eq_error room').mp fails)
    same
  exact ⟨index, mem, passed, skipped⟩

theorem exists_answer_of_perm (nonempty : words ≠ []) (room : words.length ≤ longestQuery)
    (same : words.Perm others)
    (sound : ∀ index ∈ engine.indexes, ∀ word ∈ words, ∃ found,
      (index.words.lookup disk word).result = .ok found)
    (given : ∃ answer, (engine.query disk words).result = .ok answer) :
    ∃ answer, (engine.query disk others).result = .ok answer := by
  obtain ⟨answer, answered⟩ := given
  rcases Outcome.error_or_ok (engine.query disk others).result with ⟨fault, failed⟩ | passed
  · obtain ⟨index, mem, -, word, inside, lost, -⟩ :=
      exists_failed_lookup nonempty room same answered failed
    obtain ⟨found, hfound⟩ := sound index mem word inside
    cases hfound.symm.trans lost
  · exact passed

/-- The words of a query commute. Answers to two orders of the same words are equal. Where one order
gives an answer and another does not, the lookup of a word fails in some file: there the first order
stops ahead of that word, and finds no row. So where no lookup fails, either both orders give an answer
or neither does. -/
theorem query_words_commute (engine : Engine) (disk : Disk) (same : words.Perm others)
    (nonempty : words ≠ []) (room : words.length ≤ 2 ^ 32 + 1) :
    (∀ answer answer', (engine.query disk words).result = .ok answer →
      (engine.query disk others).result = .ok answer' → answer = answer') ∧
    (∀ answer fault, (engine.query disk words).result = .ok answer →
      (engine.query disk others).result = .error fault →
        ∃ index ∈ engine.indexes, (index.rows disk engine.strict words).result = .ok [] ∧
          ∃ word ∈ words, (index.words.lookup disk word).result = .error fault ∧
            ∃ front back, words = front ++ word :: back ∧ word ∉ front ∧
              index.words.matching disk words = index.words.matching disk front) ∧
    ((∀ index ∈ engine.indexes, ∀ word ∈ words, ∃ found,
        (index.words.lookup disk word).result = .ok found) →
      ((∃ answer, (engine.query disk words).result = .ok answer) ↔
        ∃ answer, (engine.query disk others).result = .ok answer)) := by
  have nonempty' : others ≠ [] := fun e => nonempty (List.perm_nil.mp (e ▸ same))
  have room' : others.length ≤ longestQuery := same.length_eq ▸ room
  refine ⟨fun answer answer' => answer_of_perm nonempty room same,
    fun answer fault => exists_failed_lookup nonempty room same, fun sound => ⟨?_, ?_⟩⟩
  · exact exists_answer_of_perm nonempty room same sound
  · refine exists_answer_of_perm nonempty' room' same.symm fun index mem word inside => ?_
    exact sound index mem word (same.mem_iff.mpr inside)

/-- In the copy of the sample that was cut one word has no postings and another has lost its chain: which
of them comes first decides whether there is an answer. -/
theorem query_words_commute_sample : ∃ engine,
    (start sampleDisk (.lenientOver ["cut"])).result = .ok engine ∧
      (engine.query sampleDisk ["c", "b"]).result = .ok [] ∧
      (engine.query sampleDisk ["b", "c"]).result =
        .error (.corruption (.chainOverrun "cut" 1 1 184)) ∧
      ∃ index ∈ engine.indexes, ∃ word ∈ ["c", "b"],
        (index.words.lookup sampleDisk word).result =
          .error (.corruption (.chainOverrun "cut" 1 1 184)) := by
  have asked : ((start sampleDisk (.lenientOver ["cut"])).result >>= fun engine =>
      .ok ((engine.query sampleDisk ["c", "b"]).result,
        (engine.query sampleDisk ["b", "c"]).result)) =
          .ok (.ok [], .error (.corruption (.chainOverrun "cut" 1 1 184))) := by
    decide +kernel
  obtain ⟨engine, hengine, answers⟩ := bind_eq_ok.mp asked
  obtain ⟨answered, failed⟩ := Prod.mk.inj (Except.ok.inj answers)
  obtain ⟨index, mem, -, word, inside, lost, -⟩ :=
    (query_words_commute engine sampleDisk (List.Perm.swap "b" "c" []) (by decide) (by decide)).2.1
      _ _ answered failed
  exact ⟨engine, hengine, answered, failed, index, mem, word, inside, lost⟩

end Engine

end InvertedIndex
