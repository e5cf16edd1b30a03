import InvertedIndex.Proofs.Admission
import InvertedIndex.Proofs.Query
import InvertedIndex.Proofs.RowOrder

/-!
An engine over two lists of files is the engines over each of them put together.
-/

set_option autoImplicit false
set_option relaxedAutoImplicit false

namespace InvertedIndex

open Outcome (bind_eq_ok bind_of_ok mapM_eq_ok)

def Settings.over (settings : Settings) (paths : List String) : Settings :=
  { settings with paths := paths }

namespace Engine

/-- The files of two engines, one after the other, treated as in the first engine. -/
def append (one other : Engine) : Engine :=
  ⟨one.indexes ++ other.indexes, one.strict⟩

variable {disk now : Disk} {settings : Settings} {one other : Engine} {words : List String}

theorem pairwise_of_query {rows : List Row} (answered : (one.query now words).result = .ok rows) :
    rows.Pairwise Row.Precedes := by
  obtain ⟨contributions, -, rfl⟩ := (result_query_eq_ok (nonempty_of_query answered)).mp answered
  exact Row.pairwise_sort _

theorem result_query_append (alike : other.strict = one.strict) (now : Disk) (nonempty : words ≠ []) :
    ((one.append other).query now words).result =
      (one.query now words).result >>= fun rows =>
        (other.query now words).result >>= fun more => .ok (Row.sort (rows ++ more)) := by
  let rows (index : OpenIndex) := (index.rows now one.strict words).result
  have both : (one.indexes ++ other.indexes).mapM rows =
      one.indexes.mapM rows >>= fun front => other.indexes.mapM rows >>= fun back =>
        .ok (front ++ back) := List.mapM_append
  rw [result_query _ now nonempty, result_query _ now nonempty, result_query _ now nonempty, alike]
  change (one.indexes ++ other.indexes).mapM rows >>= _ = (one.indexes.mapM rows >>= _) >>= fun _ =>
    (other.indexes.mapM rows >>= _) >>= _
  rw [both]
  -- A fault of the first files hides what the others do, as it does in one engine over all of them.
  rcases Outcome.error_or_ok (one.indexes.mapM rows) with ⟨fault, failed⟩ | ⟨front, passed⟩
  · rw [failed]
    rfl
  · rcases Outcome.error_or_ok (other.indexes.mapM rows) with ⟨fault, failed⟩ | ⟨back, passed'⟩
    · rw [passed, failed]
      rfl
    · rw [passed, passed']
      change Except.ok (Row.sort (front ++ back).flatten) = .ok (Row.sort (Row.sort _ ++ Row.sort _))
      rw [Row.sort_append_sort, List.flatten_append]

theorem start_append {front back : List String}
    (opened : (start disk (settings.over front)).result = .ok one)
    (opened' : (start disk (settings.over back)).result = .ok other) :
    (start disk (settings.over (front ++ back))).result = .ok (one.append other) ∧
      other.strict = one.strict := by
  rw [result_start_eq_ok, Settings.check_eq_ok] at opened opened'
  obtain ⟨⟨files, named⟩, strict, indexes⟩ := opened
  obtain ⟨⟨-, named'⟩, strict', indexes'⟩ := opened'
  refine ⟨result_start_eq_ok.mpr ⟨Settings.check_eq_ok.mpr ⟨?_, ?_⟩, strict, ?_⟩,
    strict'.trans strict.symm⟩
  · exact List.append_ne_nil_of_left_ne_nil files back
  · exact fun mem => (List.mem_append.mp mem).elim named named'
  · exact List.mapM_append.trans ((bind_of_ok indexes _).trans (bind_of_ok indexes' _))

theorem start_of_perm {paths shuffled : List String}
    (opened : (start disk (settings.over paths)).result = .ok one) (same : shuffled.Perm paths) :
    ∃ other, (start disk (settings.over shuffled)).result = .ok other ∧
      other.strict = one.strict ∧ other.indexes.Perm one.indexes := by
  rw [result_start_eq_ok, Settings.check_eq_ok, mapM_eq_ok] at opened
  obtain ⟨⟨files, named⟩, strict, indexes⟩ := opened
  obtain ⟨others, opened', same'⟩ := List.perm_comp_forall₂ same indexes
  refine ⟨⟨others, settings.strict⟩, result_start_eq_ok.mpr ⟨Settings.check_eq_ok.mpr ⟨?_, ?_⟩, rfl,
    mapM_eq_ok.mpr opened'⟩, strict.symm, same'⟩
  · exact fun none => files (List.nil_perm.mp (none ▸ same))
  · exact fun mem => named (same.mem_iff.mp mem)

theorem query_of_perm (alike : other.strict = one.strict) (same : other.indexes.Perm one.indexes)
    {answer : List Row} (answered : (one.query now words).result = .ok answer) :
    (other.query now words).result = .ok answer := by
  have nonempty := nonempty_of_query answered
  rw [result_query_eq_ok nonempty] at answered ⊢
  obtain ⟨contributions, each, rfl⟩ := answered
  rw [alike]
  obtain ⟨others, each', same'⟩ := List.perm_comp_forall₂ same each
  exact ⟨others, each', Row.sort_eq_of_perm same'.flatten⟩

theorem start_replicate {paths : List String}
    (opened : (start disk (settings.over paths)).result = .ok one) (m : Nat) :
    ∃ many, (start disk (settings.over (List.replicate (m + 1) paths).flatten)).result = .ok many ∧
      ∀ now words rows, (one.query now words).result = .ok rows → ∃ answer,
        (many.query now words).result = .ok answer ∧
          ∀ row, answer.count row = (m + 1) * rows.count row := by
  induction m with
  | zero =>
    refine ⟨one, by simpa using opened, fun now words rows answered => ⟨rows, answered, ?_⟩⟩
    intro row
    rw [Nat.zero_add, Nat.one_mul]
  | succ m ih =>
    obtain ⟨many, hmany, counted⟩ := ih
    obtain ⟨more, alike⟩ := start_append opened hmany
    rw [List.replicate_succ, List.flatten_cons]
    refine ⟨one.append many, more, fun now words rows answered => ?_⟩
    obtain ⟨answer, hanswer, counts⟩ := counted now words rows answered
    refine ⟨Row.sort (rows ++ answer), ?_, fun row => ?_⟩
    · rw [result_query_append alike now (nonempty_of_query answered), answered, hanswer]
      rfl
    · rw [(Row.sort_perm _).count_eq, List.count_append, counts, Nat.succ_mul (m + 1), Nat.add_comm]

theorem exists_append {paths rest : List String} {both : Engine}
    (opened : (start disk (settings.over paths)).result = .ok one)
    (opened' : (start disk (settings.over (paths ++ rest))).result = .ok both) :
    ∃ other : Engine, other.strict = one.strict ∧ both = one.append other := by
  obtain ⟨-, strict, indexes⟩ := result_start_eq_ok.mp opened
  obtain ⟨-, strict', indexes'⟩ := result_start_eq_ok.mp opened'
  have split := List.mapM_append.symm.trans indexes'
  obtain ⟨more, -, joined⟩ := bind_eq_ok.mp ((bind_of_ok indexes _).symm.trans split)
  refine ⟨⟨more, one.strict⟩, rfl, ?_⟩
  have all : one.indexes ++ more = both.indexes := Except.ok.inj joined
  have alike : both.strict = one.strict := strict'.trans strict.symm
  rw [append, all, ← alike]

theorem sublist_of_subperm {paths more : List String} {larger : Engine}
    (opened : (start disk (settings.over paths)).result = .ok one)
    (opened' : (start disk (settings.over more)).result = .ok larger) (fewer : paths.Subperm more)
    {answer : List Row} (answered : (larger.query now words).result = .ok answer) :
    ∃ rows, (one.query now words).result = .ok rows ∧ rows.Sublist answer := by
  obtain ⟨some, same, inside⟩ := fewer
  obtain ⟨rest, split⟩ := inside.exists_perm_append
  have shuffled : (paths ++ rest).Perm more := (same.symm.append_right rest).trans split.symm
  obtain ⟨both, hboth, alike, indexes⟩ := start_of_perm opened' shuffled
  obtain ⟨other, alike', rfl⟩ := exists_append opened hboth
  have nonempty := nonempty_of_query answered
  have joined := query_of_perm alike indexes answered
  rw [result_query_append alike' now nonempty, bind_eq_ok] at joined
  obtain ⟨rows, hrows, joined⟩ := joined
  obtain ⟨others, -, merged⟩ := bind_eq_ok.mp joined
  cases merged
  refine ⟨rows, hrows, ?_⟩
  have ordered : Row.sort rows = rows :=
    (Row.eq_sort_of_perm (pairwise_of_query hrows) (List.Perm.refl rows)).symm
  have among := Row.sort_sublist_sort (List.sublist_append_left rows others).subperm
  rwa [ordered] at among

/-- What files contribute to the answers of an engine. Over two lists of files an engine fails as the
engine over the first list, else as the one over the second, and else merges the rows of both. Its answer
is the same in every order of the files, has the rows of files that are listed several times as many
times, and keeps the rows that it would have over fewer files, in their order. -/
theorem files_contribute_independently {paths : List String}
    (opened : (start disk (settings.over paths)).result = .ok one) :
    (∀ back other, (start disk (settings.over back)).result = .ok other → ∃ both,
      (start disk (settings.over (paths ++ back))).result = .ok both ∧
        ∀ now words, words ≠ [] →
          (∀ fault, (one.query now words).result = .error fault →
            (both.query now words).result = .error fault) ∧
          ∀ rows, (one.query now words).result = .ok rows →
            (∀ fault, (other.query now words).result = .error fault →
              (both.query now words).result = .error fault) ∧
            ∀ more, (other.query now words).result = .ok more → ∃ answer,
              (both.query now words).result = .ok answer ∧ answer.Perm (rows ++ more) ∧
                answer.Pairwise Row.Precedes) ∧
    (∀ shuffled, shuffled.Perm paths → ∃ other,
      (start disk (settings.over shuffled)).result = .ok other ∧
        ∀ now words answer, (one.query now words).result = .ok answer →
          (other.query now words).result = .ok answer) ∧
    (∀ m, m ≠ 0 → ∃ many,
      (start disk (settings.over (List.replicate m paths).flatten)).result = .ok many ∧
        ∀ now words rows, (one.query now words).result = .ok rows → ∃ answer,
          (many.query now words).result = .ok answer ∧
            ∀ row, answer.count row = m * rows.count row) ∧
    ∀ more larger, paths.Subperm more → (start disk (settings.over more)).result = .ok larger →
      ∀ now words answer, (larger.query now words).result = .ok answer → ∃ rows,
        (one.query now words).result = .ok rows ∧ rows.Sublist answer := by
  refine ⟨?_, ?_, ?_, ?_⟩
  · intro back other opened'
    obtain ⟨both, alike⟩ := start_append opened opened'
    refine ⟨one.append other, both, fun now words nonempty => ?_⟩
    have joined := result_query_append alike now nonempty
    refine ⟨fun fault failed => ?_, fun rows passed => ⟨fun fault failed => ?_, fun more passed' => ?_⟩⟩
    · rw [joined, failed]
      rfl
    · rw [joined, passed, failed]
      rfl
    · rw [joined, passed, passed']
      exact ⟨_, rfl, Row.sort_perm _, Row.pairwise_sort _⟩
  · intro shuffled same
    obtain ⟨other, opened', alike, indexes⟩ := start_of_perm opened same
    exact ⟨other, opened', fun now words answer answered => query_of_perm alike indexes answered⟩
  · intro m positive
    obtain ⟨m, rfl⟩ := Nat.exists_eq_succ_of_ne_zero positive
    exact start_replicate opened m
  · intro more larger fewer opened' now words answer answered
    exact sublist_of_subperm opened opened' fewer answered

/-- The sample beside its cut copy: a row of each for a word that both hold, and the fault of the copy
for words of which it has lost one. -/
theorem files_contribute_independently_sample : ∃ one other both,
    (start sampleDisk ((Settings.lenientOver []).over ["whole"])).result = .ok one ∧
      (start sampleDisk ((Settings.lenientOver []).over ["cut"])).result = .ok other ∧
      (start sampleDisk ((Settings.lenientOver []).over (["whole"] ++ ["cut"]))).result = .ok both ∧
      (both.query sampleDisk ["a"]).result = .ok [⟨"x", 3⟩, ⟨"x", 3⟩] ∧
      (one.query sampleDisk ["a", "b"]).result = .ok [⟨"x", 7⟩] ∧
      (both.query sampleDisk ["a", "b"]).result =
        .error (.corruption (.chainOverrun "cut" 1 1 184)) := by
  have whole : ((start sampleDisk ((Settings.lenientOver []).over ["whole"])).result >>= fun one =>
      .ok ((one.query sampleDisk ["a"]).result, (one.query sampleDisk ["a", "b"]).result)) =
        .ok (.ok [⟨"x", 3⟩], .ok [⟨"x", 7⟩]) := by
    decide +kernel
  have cut : ((start sampleDisk ((Settings.lenientOver []).over ["cut"])).result >>= fun other =>
      .ok ((other.query sampleDisk ["a"]).result, (other.query sampleDisk ["a", "b"]).result)) =
        .ok (.ok [⟨"x", 3⟩], .error (.corruption (.chainOverrun "cut" 1 1 184))) := by
    decide +kernel
  obtain ⟨one, hone, answers⟩ := bind_eq_ok.mp whole
  obtain ⟨found, found'⟩ := Prod.mk.inj (Except.ok.inj answers)
  obtain ⟨other, hother, answers⟩ := bind_eq_ok.mp cut
  obtain ⟨kept, lost⟩ := Prod.mk.inj (Except.ok.inj answers)
  obtain ⟨both, hboth, merged⟩ := (files_contribute_independently hone).1 ["cut"] other hother
  obtain ⟨answer, hanswer, same, -⟩ :=
    ((merged sampleDisk ["a"] (by decide)).2 _ found).2 _ kept
  obtain rfl : answer = List.replicate 2 ⟨"x", 3⟩ := List.perm_replicate.mp same
  refine ⟨one, other, both, hone, hother, hboth, hanswer, found', ?_⟩
  exact ((merged sampleDisk ["a", "b"] (by decide)).2 _ found').1 _ lost

end Engine

end InvertedIndex
