import InvertedIndex.Proofs.Query
import InvertedIndex.Proofs.RowOrder

/-!
Sums of counts. The ranks of the documents of one word leave out the counts of repeated postings and
nothing else.
-/

set_option autoImplicit false
set_option relaxedAutoImplicit false

namespace InvertedIndex

open Outcome (bind_eq_ok mapM_eq_ok exists_mapM)

namespace Postings

def countSum (entries : List Posting) : Nat :=
  (entries.map fun p => p.count.toNat).sum

/-- The postings for documents that an earlier posting is for already. -/
def repeats (entries : List Posting) : List Posting :=
  (List.range entries.length).filterMap fun i =>
    entries[i]?.filter fun p => (entries.take i).any fun earlier => earlier.id = p.id

@[simp]
theorem countSum_nil : countSum [] = 0 := rfl

@[simp]
theorem countSum_append (front back : List Posting) :
    countSum (front ++ back) = countSum front + countSum back := by
  simp [countSum]

theorem countSum_le (entries : List Posting) : countSum entries ≤ entries.length * (2 ^ 32 - 1) := by
  have each : ∀ count ∈ entries.map fun p => p.count.toNat, count ≤ 2 ^ 32 - 1 := by
    intro count mem
    obtain ⟨p, -, rfl⟩ := List.mem_map.mp mem
    exact Nat.le_pred_of_lt p.count.toNat_lt
  have bound := List.sum_le_card_nsmul _ _ each
  rwa [List.length_map, smul_eq_mul] at bound

theorem countSum_lt {entries : List Posting} (short : entries.length < 2 ^ 32) :
    countSum entries < 2 ^ 64 := by
  calc countSum entries
    _ ≤ entries.length * (2 ^ 32 - 1) := countSum_le entries
    _ ≤ 2 ^ 32 * (2 ^ 32 - 1) := Nat.mul_le_mul_right _ short.le
    _ < 2 ^ 64 := by decide

private theorem toNat_foldl_count (entries : List Posting) (sum : UInt64)
    (small : sum.toNat + countSum entries < 2 ^ 64) :
    (entries.foldl (fun sum p => sum + p.count.toUInt64) sum).toNat = sum.toNat + countSum entries := by
  induction entries generalizing sum with
  | nil => rfl
  | cons p rest ih =>
    have first : countSum (p :: rest) = p.count.toNat + countSum rest := rfl
    have added : (sum + p.count.toUInt64).toNat = sum.toNat + p.count.toNat := by
      rw [UInt64.toNat_add, UInt32.toNat_toUInt64, Nat.mod_eq_of_lt (by omega)]
    rw [List.foldl_cons, ih _ (by omega), added]
    omega

theorem toNat_total {postings : Postings} (small : countSum postings.entries < 2 ^ 64) :
    postings.total.toNat = countSum postings.entries := by
  have zero : (0 : UInt64).toNat = 0 := rfl
  rw [total, toNat_foldl_count _ _ (by omega)]
  omega

theorem repeats_append_singleton (entries : List Posting) (p : Posting) :
    repeats (entries ++ [p]) =
      repeats entries ++ if entries.any fun earlier => earlier.id = p.id then [p] else [] := by
  have before : ∀ i ∈ List.range entries.length,
      ((entries ++ [p])[i]?.filter fun q => ((entries ++ [p]).take i).any fun earlier => earlier.id = q.id) =
        entries[i]?.filter fun q => (entries.take i).any fun earlier => earlier.id = q.id := by
    intro i mem
    have inside := List.mem_range.mp mem
    rw [List.getElem?_append_left inside, List.take_append_of_le_length inside.le]
  rw [repeats, List.length_append, List.length_singleton, List.range_succ, List.filterMap_append,
    List.filterMap_congr before, List.filterMap_cons, List.getElem?_concat_length, List.take_left' rfl,
    Option.filter_some, repeats]
  by_cases repeated : entries.any fun earlier => earlier.id = p.id
  · rw [if_pos repeated, if_pos repeated]
    rfl
  · rw [if_neg repeated, if_neg repeated]
    rfl

end Postings

namespace Match

private theorem distinctAfter_append_singleton (seen : Std.TreeMap DocumentId Unit) (entries : List Posting)
    (p : Posting) :
    distinctAfter seen (entries ++ [p]) =
      distinctAfter seen entries ++
        if seen.contains p.id || entries.any (fun earlier => earlier.id = p.id) then []
        else [⟨p.id, p.count.toUInt64⟩] := by
  induction entries generalizing seen with
  | nil => simp [distinctAfter]
  | cons q rest ih =>
    by_cases old : seen.contains q.id
    · by_cases same : q.id = p.id
      · simp [distinctAfter, ih, same ▸ old]
      · simp [distinctAfter, ih, old, same]
    · by_cases same : q.id = p.id
      · have fresh : ¬seen.contains p.id := same ▸ old
        simp [distinctAfter, ih, fresh, same]
      · have other : (compare q.id p.id == .eq) = false :=
          beq_false_of_ne fun e => same (Std.LawfulEqOrd.eq_of_compare e)
        simp [distinctAfter, ih, old, same, Std.TreeMap.contains_insert, other]

theorem ofEntries_append_singleton (entries : List Posting) (p : Posting) :
    ofEntries (entries ++ [p]) =
      ofEntries entries ++
        if entries.any fun earlier => earlier.id = p.id then [] else [⟨p.id, p.count.toUInt64⟩] := by
  have first := distinctAfter_append_singleton ∅ entries p
  simpa [ofEntries] using first

/-- Ranks and repeats share the counts of all postings out among themselves. -/
theorem sum_ofEntries (entries : List Posting) :
    ((ofEntries entries).map fun found => found.rank.toNat).sum + Postings.countSum (Postings.repeats entries) =
      Postings.countSum entries := by
  -- From the end, where a posting has all those before it that may make it a repeat.
  induction entries using List.reverseRecOn with
  | nil => rfl
  | append_singleton entries p ih =>
    have last : Postings.countSum [p] = p.count.toNat := Nat.add_zero _
    rw [ofEntries_append_singleton, Postings.repeats_append_singleton, Postings.countSum_append,
      Postings.countSum_append, last, ← ih]
    split
    · rw [List.append_nil, last, Nat.add_assoc]
    · rw [List.map_append, List.sum_append, List.map_singleton, List.sum_singleton,
        UInt32.toNat_toUInt64, Postings.countSum_nil]
      omega

theorem exists_posting_of_mem_ofEntries {entries : List Posting} {found : Match}
    (mem : found ∈ ofEntries entries) : ∃ p ∈ entries, p.id = found.id := by
  induction entries using List.reverseRecOn with
  | nil => cases mem
  | append_singleton entries p ih =>
    rw [ofEntries_append_singleton, List.mem_append] at mem
    rcases mem with mem | mem
    · obtain ⟨q, hq, same⟩ := ih mem
      exact ⟨q, List.mem_append_left _ hq, same⟩
    · split at mem
      · cases mem
      · rw [List.mem_singleton.mp mem]
        exact ⟨p, by simp, rfl⟩

end Match

namespace WordTable

variable {table : WordTable} {disk : Disk}

theorem length_lt_of_search {word : String} {offsets : List Offset} {postings : Postings}
    (h : table.search disk word offsets = .ok (some postings)) : postings.entries.length < 2 ^ 32 := by
  induction offsets with
  | nil => cases h
  | cons offset rest ih =>
    obtain ⟨header, -, h⟩ := bind_eq_ok.mp h
    dsimp only at h
    split at h
    · exact ih h
    · obtain ⟨stored, -, h⟩ := bind_eq_ok.mp h
      split at h
      · exact ih h
      · split at h
        · cases h
        · obtain ⟨entries, fetched, h⟩ := bind_eq_ok.mp h
          cases h
          have length := (mapM_eq_ok.mp fetched).length_eq
          rw [List.length_range] at length
          exact length ▸ header.postingCount.toNat_lt

theorem length_lt_of_lookup {word : String} {postings : Postings}
    (h : (table.lookup disk word).result = .ok (some postings)) : postings.entries.length < 2 ^ 32 := by
  rw [lookup, Logged.result_bind] at h
  obtain ⟨offsets, -, h⟩ := bind_eq_ok.mp h
  exact length_lt_of_search h

theorem countSum_take_lt {word : String} {postings : Postings}
    (found : (table.lookup disk word).result = .ok (some postings)) (n : Nat) :
    Postings.countSum (postings.entries.take n) < 2 ^ 64 :=
  Postings.countSum_lt ((List.length_take_le' n _).trans_lt (length_lt_of_lookup found))

theorem toNat_total_of_lookup {word : String} {postings : Postings}
    (found : (table.lookup disk word).result = .ok (some postings)) :
    postings.total.toNat = Postings.countSum postings.entries :=
  Postings.toNat_total (Postings.countSum_lt (length_lt_of_lookup found))

theorem result_matching_append {front : List String} (some : front ≠ []) (back : List String) :
    (table.matching disk (front ++ back)).result =
      (table.matching disk front).result >>= fun left => (table.narrowBy disk left back).result := by
  rw [matching_append some, Logged.result_bind]

/-- The candidates that are left when words have been gone through, with ranks as plain numbers. The first word
gives a candidate for each of its documents, with its count; each further word that is found keeps the candidates
that it has a posting for, and adds its count. -/
inductive Accumulates (table : WordTable) (disk : Disk) : List String → List (DocumentId × Nat) → Prop
  | first {word : String} {postings : Postings}
      (found : (table.lookup disk word).result = .ok (some postings)) :
      Accumulates table disk [word] ((Match.ofEntries postings.entries).map Match.exact)
  | next {front : List String} {candidates : List (DocumentId × Nat)} {word : String} {postings : Postings}
      (before : Accumulates table disk front candidates) (left : candidates ≠ [])
      (found : (table.lookup disk word).result = .ok (some postings)) :
      Accumulates table disk (front ++ [word]) (candidates.filterMap fun candidate =>
        (postings.countIn candidate.1).map fun count => (candidate.1, candidate.2 + count.toNat))

namespace Accumulates

variable {words : List String} {candidates : List (DocumentId × Nat)}

theorem agreement (h : table.Accumulates disk words candidates) :
    ∃ lists : List Postings, lists ≠ [] ∧ lists.length = words.length ∧
      candidates = Postings.agreement lists := by
  induction h with
  | first found => exact ⟨_, List.cons_ne_nil _ _, rfl, Match.exact_ofEntries _⟩
  | next before left found ih =>
    obtain ⟨lists, nonempty, length, rfl⟩ := ih
    refine ⟨lists ++ [_], by simp, ?_, (Postings.agreement_append nonempty _).symm⟩
    rw [List.length_append, List.length_append, length, List.length_singleton, List.length_singleton]

theorem nonempty (h : table.Accumulates disk words candidates) : words ≠ [] := by
  cases h <;> simp

theorem rank_lt (h : table.Accumulates disk words candidates) (room : words.length ≤ longestQuery)
    {candidate : DocumentId × Nat} (mem : candidate ∈ candidates) : candidate.2 < 2 ^ 64 := by
  obtain ⟨lists, -, length, rfl⟩ := h.agreement
  calc candidate.2
    _ ≤ lists.length * (2 ^ 32 - 1) := Postings.rank_le_of_mem_agreement mem
    _ ≤ longestQuery * (2 ^ 32 - 1) := Nat.mul_le_mul_right _ (length ▸ room)
    _ < 2 ^ 64 := by decide

theorem narrow (h : table.Accumulates disk words candidates) (room : words.length < longestQuery)
    {found : List Match} (exact : found.map Match.exact = candidates) (postings : Postings) :
    (Match.narrow found postings.entries).map Match.exact =
      candidates.filterMap fun candidate =>
        (postings.countIn candidate.1).map fun count => (candidate.1, candidate.2 + count.toNat) := by
  obtain ⟨lists, nonempty, length, agreed⟩ := h.agreement
  rw [Match.exact_narrow nonempty (exact.trans agreed) (length ▸ room), agreed,
    Postings.agreement_append nonempty]

theorem exists_matching (h : table.Accumulates disk words candidates) (room : words.length ≤ longestQuery) :
    ∃ found, (table.matching disk words).result = .ok found ∧ found.map Match.exact = candidates := by
  induction h with
  | first found =>
    refine ⟨_, ?_, rfl⟩
    rw [result_matching_cons, found]
    rfl
  | @next front candidates word postings before left looked ih =>
    rw [List.length_append, List.length_singleton] at room
    obtain ⟨found, matched, exact⟩ := ih (Nat.le_of_succ_le room)
    have some : found ≠ [] := by
      rintro rfl
      exact left exact.symm
    refine ⟨Match.narrow found postings.entries, ?_, before.narrow room exact postings⟩
    rw [result_matching_append before.nonempty, matched, Outcome.bind_of_ok rfl, result_narrowBy_cons some,
      looked]
    rfl

theorem of_matching {found : List Match} (room : words.length ≤ longestQuery)
    (matched : (table.matching disk words).result = .ok found) (left : found ≠ []) :
    table.Accumulates disk words (found.map Match.exact) := by
  -- From the end: the last word narrows what the words before it have left.
  induction words using List.reverseRecOn generalizing found with
  | nil =>
    cases matched
    exact absurd rfl left
  | append_singleton front word ih =>
    rw [List.length_append, List.length_singleton] at room
    by_cases alone : front = []
    · subst alone
      rw [List.nil_append, result_matching_cons] at matched
      obtain ⟨answer, looked, rest⟩ := bind_eq_ok.mp matched
      cases answer with
      | none =>
        cases rest
        exact absurd rfl left
      | some postings =>
        cases rest
        exact .first looked
    · rw [result_matching_append alone] at matched
      obtain ⟨before, earlier, rest⟩ := bind_eq_ok.mp matched
      have some : before ≠ [] := by
        rintro rfl
        rw [result_narrowBy_nil] at rest
        cases rest
        exact left rfl
      have accumulated := ih (Nat.le_of_succ_le room) earlier some
      rw [result_narrowBy_cons some] at rest
      obtain ⟨answer, looked, rest⟩ := bind_eq_ok.mp rest
      cases answer with
      | none =>
        cases rest
        exact absurd rfl left
      | some postings =>
        cases rest
        rw [accumulated.narrow room rfl postings]
        exact .next accumulated (by simpa using some) looked

end Accumulates

end WordTable

namespace Postings

theorem sum_ranks {index : OpenIndex} {disk : Disk} {strict : Bool} {word : String} {postings : Postings}
    (found : (index.words.lookup disk word).result = .ok (some postings))
    (named : ∀ p ∈ postings.entries, ∃ name, (index.documents.resolve disk p.id strict).result = .ok name) :
    ∃ rows, ((Engine.mk [index] strict).query disk [word]).result = .ok rows ∧
      (rows.map fun row => row.rank.toNat).sum + countSum (repeats postings.entries) =
        countSum postings.entries := by
  have matched : (index.words.matching disk [word]).result = .ok (Match.ofEntries postings.entries) := by
    rw [WordTable.result_matching_cons, found]
    rfl
  have inputs : List.Forall₂ (fun m m' => m = m' ∧ m ∈ Match.ofEntries postings.entries)
      (Match.ofEntries postings.entries) (Match.ofEntries postings.entries) :=
    List.forall₂_same.mpr fun m mem => ⟨rfl, mem⟩
  obtain ⟨rows, resolved, ranks⟩ := exists_mapM (f := fun m => (index.row disk strict m).result)
      (R := fun (row : Row) m => row.rank = m.rank) inputs (by
    rintro m _ ⟨rfl, mem⟩
    obtain ⟨p, hp, same⟩ := Match.exists_posting_of_mem_ofEntries mem
    obtain ⟨name, hname⟩ := named p hp
    refine ⟨⟨name, m.rank⟩, ?_, rfl⟩
    rw [OpenIndex.result_row, ← same, hname]
    rfl)
  have sums : (rows.map fun row => row.rank.toNat) =
      (Match.ofEntries postings.entries).map fun m => m.rank.toNat := by
    rw [← List.forall₂_eq_eq_eq, List.forall₂_map_left_iff, List.forall₂_map_right_iff]
    exact ranks.imp fun row m same => congrArg UInt64.toNat same
  refine ⟨Row.sort rows, ?_, ?_⟩
  · rw [Engine.result_query_eq_ok (List.cons_ne_nil _ _)]
    refine ⟨[rows], .cons ?_ .nil, by simp⟩
    rw [OpenIndex.result_rows, matched]
    exact resolved
  · rw [((Row.sort_perm rows).map _).sum_eq, sums]
    exact Match.sum_ofEntries postings.entries

/-- Whatever the files hold: the total of the postings that a lookup finds is exact, and so is every partial
sum on the way to it. The ranks that one word has in one file add up to this total less the counts of repeated
postings; so to all of it exactly if none of these counts anything. And whatever candidates are left after some
words of a query, their ranks are exact sums, which fit into machine words. -/
theorem totals_account_for_every_posting :
    (∀ (table : WordTable) (disk : Disk) (word : String) (postings : Postings),
      (table.lookup disk word).result = .ok (some postings) →
        postings.total.toNat = countSum postings.entries ∧
        ∀ n, countSum (postings.entries.take n) < 2 ^ 64 ∧
          (Postings.mk word (postings.entries.take n)).total.toNat = countSum (postings.entries.take n)) ∧
    (∀ (index : OpenIndex) (disk : Disk) (strict : Bool) (word : String) (postings : Postings),
      (index.words.lookup disk word).result = .ok (some postings) →
      (∀ p ∈ postings.entries, ∃ name, (index.documents.resolve disk p.id strict).result = .ok name) →
        ∃ rows, ((Engine.mk [index] strict).query disk [word]).result = .ok rows ∧
          countSum (repeats postings.entries) ≤ postings.total.toNat ∧
          (rows.map fun row => row.rank.toNat).sum =
            postings.total.toNat - countSum (repeats postings.entries) ∧
          ((rows.map fun row => row.rank.toNat).sum = postings.total.toNat ↔
            ∀ p ∈ repeats postings.entries, p.count = 0)) ∧
    ∀ (table : WordTable) (disk : Disk) (front back : List String),
      (front ++ back).length ≤ 2 ^ 32 + 1 → front ≠ [] →
        (table.matching disk (front ++ back)).result =
          ((table.matching disk front).result >>= fun left => (table.narrowBy disk left back).result) ∧
        (∀ found, (table.matching disk front).result = .ok found → found ≠ [] →
          table.Accumulates disk front (found.map Match.exact)) ∧
        ∀ candidates, table.Accumulates disk front candidates →
          (∀ candidate ∈ candidates, candidate.2 < 2 ^ 64) ∧
          ∃ found, (table.matching disk front).result = .ok found ∧ found.map Match.exact = candidates := by
  refine ⟨?_, ?_, ?_⟩
  · intro table disk word postings found
    have bounded (n : Nat) := WordTable.countSum_take_lt found n
    exact ⟨WordTable.toNat_total_of_lookup found, fun n => ⟨bounded n, toNat_total (bounded n)⟩⟩
  · intro index disk strict word postings found named
    obtain ⟨rows, answered, sum⟩ := sum_ranks found named
    have nothing : countSum (repeats postings.entries) = 0 ↔ ∀ p ∈ repeats postings.entries, p.count = 0 := by
      simp [countSum, List.sum_eq_zero_iff, ← UInt32.toNat_inj]
    rw [WordTable.toNat_total_of_lookup found, ← nothing]
    exact ⟨rows, answered, by omega, by omega, by omega⟩
  · intro table disk front back room nonempty
    have room : front.length ≤ longestQuery := by
      rw [List.length_append] at room
      exact (Nat.le_add_right _ _).trans room
    exact ⟨WordTable.result_matching_append nonempty back,
      fun found matched left => .of_matching room matched left,
      fun candidates h => ⟨fun candidate mem => h.rank_lt room mem, h.exists_matching room⟩⟩

def sampleIndex : OpenIndex :=
  let source : Source := ⟨"whole", sampleDisk.stamp (.file 0), .seek⟩
  ⟨"whole", ⟨⟨source, 35, 2⟩⟩, ⟨⟨source, 140, 2⟩⟩⟩

theorem totals_account_for_every_posting_sample :
    (sampleIndex.words.lookup sampleDisk "a").result = .ok (some ⟨"a", [⟨1, 3⟩, ⟨1, 9⟩]⟩) ∧
      (∀ p ∈ [⟨1, 3⟩, (⟨1, 9⟩ : Posting)], ∃ name,
        (sampleIndex.documents.resolve sampleDisk p.id true).result = .ok name) ∧
      (Postings.mk "a" [⟨1, 3⟩, ⟨1, 9⟩]).total.toNat = 12 ∧
      (∃ rows, ((Engine.mk [sampleIndex] true).query sampleDisk ["a"]).result = .ok rows ∧
        (rows.map fun row => row.rank.toNat).sum = 3) ∧
      ["a", "b"].length ≤ 2 ^ 32 + 1 ∧
      ∃ candidates, sampleIndex.words.Accumulates sampleDisk ["a", "b"] candidates ∧
        candidates = [(1, 7)] ∧ ∀ candidate ∈ candidates, candidate.2 < 2 ^ 64 := by
  obtain ⟨totals, ranks, rounds⟩ := totals_account_for_every_posting
  have found : (sampleIndex.words.lookup sampleDisk "a").result =
      .ok (some ⟨"a", [⟨1, 3⟩, ⟨1, 9⟩]⟩) := by decide +kernel
  have resolved : (sampleIndex.documents.resolve sampleDisk 1 true).result = .ok "x" := by decide +kernel
  have named : ∀ p ∈ [⟨1, 3⟩, (⟨1, 9⟩ : Posting)], ∃ name,
      (sampleIndex.documents.resolve sampleDisk p.id true).result = .ok name := by
    simp [resolved]
  have room : ["a", "b"].length ≤ 2 ^ 32 + 1 := by decide
  have matched : (sampleIndex.words.matching sampleDisk ["a", "b"]).result = .ok [⟨1, 7⟩] := by
    decide +kernel
  have total := (totals _ _ _ _ found).1
  obtain ⟨rows, answered, -, sum, -⟩ := ranks _ _ _ _ _ found named
  obtain ⟨-, reached, bounded⟩ := rounds sampleIndex.words sampleDisk ["a", "b"] [] room (by decide)
  have accumulated := reached _ matched (by decide)
  refine ⟨found, named, total.trans (by decide), ⟨rows, answered, ?_⟩, room, _, accumulated, by decide,
    (bounded _ accumulated).1⟩
  rw [sum]
  decide

end Postings

end InvertedIndex
