import InvertedIndex.Match
import InvertedIndex.Proofs.Outcome

/-!
What it means that several words occur in one document, without an early stop and with ranks that
are plain numbers; and that matching finds exactly that.
-/

set_option autoImplicit false
set_option relaxedAutoImplicit false

namespace InvertedIndex

open Outcome (mapM_eq_some)

/-- The number of words up to which the rank of a document fits into a machine word. -/
def longestQuery : Nat := 2 ^ 32 + 1

namespace Postings

/-- The sum of the counts that some posting lists give for a document, if each mentions it. -/
def rankIn (lists : List Postings) (id : DocumentId) : Option Nat :=
  (lists.mapM fun (postings : Postings) => postings.countIn id).map fun counts =>
    (counts.map UInt32.toNat).sum

/-- The documents that every list mentions, each once, in the order in which the first list mentions
them, with the sums of their counts. -/
def agreement : List Postings → List (DocumentId × Nat)
  | [] => []
  | first :: rest =>
    (first.entries.map Posting.id).eraseDups.filterMap fun id =>
      (rankIn (first :: rest) id).map fun rank => (id, rank)

theorem rankIn_eq_some {lists : List Postings} {id : DocumentId} {rank : Nat} :
    rankIn lists id = some rank ↔
      ∃ counts, List.Forall₂ (fun postings count => postings.countIn id = some count) lists counts ∧
        rank = (counts.map UInt32.toNat).sum := by
  rw [rankIn, Option.map_eq_some_iff]
  simp only [mapM_eq_some, eq_comm (b := rank)]

theorem rankIn_append (lists : List Postings) (postings : Postings) (id : DocumentId) :
    rankIn (lists ++ [postings]) id =
      (rankIn lists id).bind fun rank => (postings.countIn id).map fun count => rank + count.toNat := by
  unfold rankIn
  rw [List.mapM_append]
  cases lists.mapM (fun (postings : Postings) => postings.countIn id) with
  | none => rfl
  | some counts =>
    cases h : postings.countIn id with
    | none => simp [h]
    | some count => simp [h]

theorem rankIn_singleton (postings : Postings) (id : DocumentId) :
    rankIn [postings] id = (postings.countIn id).map UInt32.toNat := by
  have h := rankIn_append [] postings id
  simpa [rankIn] using h

theorem rankIn_le {lists : List Postings} {id : DocumentId} {rank : Nat}
    (h : rankIn lists id = some rank) : rank ≤ lists.length * (2 ^ 32 - 1) := by
  induction lists using List.reverseRecOn generalizing rank with
  | nil =>
    have zero : (0 : Nat) = rank := by simpa [rankIn] using h
    omega
  | append_singleton lists postings ih =>
    rw [rankIn_append] at h
    obtain ⟨before, hbefore, h⟩ := Option.bind_eq_some_iff.mp h
    obtain ⟨count, -, rfl⟩ := Option.map_eq_some_iff.mp h
    have hle := ih hbefore
    have hcount := count.toNat_lt
    simp only [List.length_append, List.length_singleton]
    omega

theorem agreement_append {lists : List Postings} (nonempty : lists ≠ []) (postings : Postings) :
    agreement (lists ++ [postings]) =
      (agreement lists).filterMap fun found =>
        (postings.countIn found.1).map fun count => (found.1, found.2 + count.toNat) := by
  cases lists with
  | nil => exact absurd rfl nonempty
  | cons first rest =>
    have split : ∀ id, rankIn (first :: (rest ++ [postings])) id =
        (rankIn (first :: rest) id).bind fun rank =>
          (postings.countIn id).map fun count => rank + count.toNat :=
      fun id => rankIn_append (first :: rest) postings id
    simp only [List.cons_append, agreement, List.filterMap_filterMap, split]
    apply List.filterMap_congr
    intro id _
    cases rankIn (first :: rest) id with
    | none => rfl
    | some rank => cases h : postings.countIn id <;> simp [h]

theorem agreement_append_eq_nil {lists : List Postings} (nonempty : lists ≠ [])
    (none : agreement lists = []) (more : List Postings) : agreement (lists ++ more) = [] := by
  induction more using List.reverseRecOn with
  | nil => simpa using none
  | append_singleton more postings ih =>
    rw [← List.append_assoc, agreement_append (by simp [nonempty]), ih]
    rfl

theorem mem_agreement_iff {lists : List Postings} (nonempty : lists ≠ []) {id : DocumentId}
    {rank : Nat} : (id, rank) ∈ agreement lists ↔ rankIn lists id = some rank := by
  cases lists with
  | nil => exact absurd rfl nonempty
  | cons first rest =>
    simp only [agreement, List.mem_filterMap, List.mem_eraseDups, Option.map_eq_some_iff,
      Prod.mk.injEq]
    constructor
    · rintro ⟨id', -, rank', hrank, rfl, rfl⟩
      exact hrank
    · intro hrank
      refine ⟨id, ?_, rank, hrank, rfl, rfl⟩
      obtain ⟨counts, hcounts, -⟩ := rankIn_eq_some.mp hrank
      cases hcounts with
      | cons hfirst _ =>
        obtain ⟨p, hp, -⟩ := Option.map_eq_some_iff.mp hfirst
        have hid := List.find?_some hp
        exact List.mem_map.mpr ⟨p, List.mem_of_find?_eq_some hp, by simpa using hid⟩

theorem rank_le_of_mem_agreement {lists : List Postings} {found : DocumentId × Nat}
    (h : found ∈ agreement lists) : found.2 ≤ lists.length * (2 ^ 32 - 1) := by
  cases lists with
  | nil => simp [agreement] at h
  | cons first rest =>
    obtain ⟨id, -, hid⟩ := List.mem_filterMap.mp h
    obtain ⟨rank, hrank, rfl⟩ := Option.map_eq_some_iff.mp hid
    exact rankIn_le hrank

end Postings

namespace Match

def exact (found : Match) : DocumentId × Nat :=
  (found.id, found.rank.toNat)

private theorem map_id_distinctAfter (entries : List Posting)
    (seen : Std.TreeMap DocumentId Unit) :
    (distinctAfter seen entries).map Match.id =
      ((entries.map Posting.id).filter fun id => !seen.contains id).eraseDups := by
  induction entries generalizing seen with
  | nil => simp [distinctAfter]
  | cons p rest ih =>
    by_cases h : seen.contains p.id
    · simp [distinctAfter, h, ih]
    · have drop : (fun id => !(seen.insert p.id ()).contains id) =
          fun id => (!id == p.id) && !seen.contains id := by
        funext id
        by_cases same : p.id = id
        · simp [Std.TreeMap.contains_insert, same]
        · have differ : (compare p.id id == .eq) = false :=
            beq_false_of_ne fun e => same (Std.LawfulEqOrd.eq_of_compare e)
          have other : (id == p.id) = false := beq_false_of_ne fun e => same e.symm
          rw [Std.TreeMap.contains_insert, differ, other, Bool.false_or, Bool.not_false,
            Bool.true_and]
      simp only [distinctAfter, h, Bool.false_eq_true, if_false, List.map_cons, ih, drop,
        List.filter_cons, Bool.not_false, if_true, List.eraseDups_cons, List.filter_filter]

private theorem count_of_mem_distinctAfter {entries : List Posting}
    {seen : Std.TreeMap DocumentId Unit} {found : Match} (h : found ∈ distinctAfter seen entries) :
    ∃ p, entries.find? (fun p => p.id = found.id) = some p ∧ found.rank = p.count.toUInt64 := by
  induction entries generalizing seen with
  | nil => simp [distinctAfter] at h
  | cons p rest ih =>
    have unseen : ∀ seen, found ∈ distinctAfter seen rest → found.id ∉ seen := by
      intro seen hmem
      have hid := List.mem_map_of_mem (f := Match.id) hmem
      rw [map_id_distinctAfter] at hid
      have hid := (List.mem_filter.mp (List.mem_eraseDups.mp hid)).2
      rw [← Std.TreeMap.contains_iff_mem, Bool.not_eq_true]
      simpa only [Bool.not_eq_true'] using hid
    by_cases hp : seen.contains p.id
    · rw [distinctAfter, if_pos hp] at h
      have other : p.id ≠ found.id := by
        intro e
        exact unseen seen h (e ▸ Std.TreeMap.contains_iff_mem.mp hp)
      obtain ⟨q, hq, hrank⟩ := ih h
      exact ⟨q, by simpa [other] using hq, hrank⟩
    · rw [distinctAfter, if_neg hp] at h
      rcases List.mem_cons.mp h with rfl | h
      · exact ⟨p, by simp, rfl⟩
      · have other : p.id ≠ found.id := by
          intro e
          exact unseen _ h (e ▸ Std.TreeMap.mem_insert_self)
        obtain ⟨q, hq, hrank⟩ := ih h
        exact ⟨q, by simpa [other] using hq, hrank⟩

private theorem filterMap_map_id {g : DocumentId → Option (DocumentId × Nat)}
    {matches' : List Match} (h : ∀ found ∈ matches', g found.id = some found.exact) :
    (matches'.map Match.id).filterMap g = matches'.map exact := by
  rw [List.filterMap_map, ← List.filterMap_eq_map]
  exact List.filterMap_congr fun found hfound => h found hfound

theorem exact_ofEntries (postings : Postings) :
    (ofEntries postings.entries).map exact = Postings.agreement [postings] := by
  have ids := map_id_distinctAfter postings.entries ∅
  simp only [Std.TreeMap.contains_emptyc, Bool.not_false, List.filter_true] at ids
  rw [Postings.agreement, ← ids]
  symm
  apply filterMap_map_id
  intro found hfound
  obtain ⟨p, hp, hrank⟩ := count_of_mem_distinctAfter hfound
  rw [Postings.rankIn_singleton, Postings.countIn, hp]
  simp [exact, hrank]

theorem exact_narrow {candidates : List Match} {lists : List Postings} (nonempty : lists ≠ [])
    (h : candidates.map exact = Postings.agreement lists) (room : lists.length < longestQuery)
    (postings : Postings) :
    (narrow candidates postings.entries).map exact = Postings.agreement (lists ++ [postings]) := by
  rw [Postings.agreement_append nonempty, ← h, narrow, List.map_filterMap, List.filterMap_map]
  apply List.filterMap_congr
  intro found hfound
  have mem : found.exact ∈ Postings.agreement lists := h ▸ List.mem_map_of_mem hfound
  have hle : found.rank.toNat ≤ lists.length * (2 ^ 32 - 1) :=
    Postings.rank_le_of_mem_agreement mem
  rw [getElem?_firstCounts]
  cases hcount : postings.countIn found.id with
  | none => simp [exact, hcount]
  | some count =>
    have hlt := count.toNat_lt
    have sum : found.rank.toNat + count.toNat < 2 ^ 64 := by
      have : lists.length * (2 ^ 32 - 1) ≤ 2 ^ 32 * (2 ^ 32 - 1) :=
        Nat.mul_le_mul_right _ (by unfold longestQuery at room; omega)
      omega
    have added : (found.rank + count.toUInt64).toNat = found.rank.toNat + count.toNat := by
      rw [UInt64.toNat_add, UInt32.toNat_toUInt64, Nat.mod_eq_of_lt sum]
    simp [exact, hcount, added]

end Match

namespace WordTable

/-- The words of a list are all found, with some posting lists. -/
def Finds (table : WordTable) (disk : Disk) : List String → List Postings → Prop :=
  List.Forall₂ fun word postings => (table.lookup disk word).result = .ok (some postings)

/-- The word behind `front` is looked up: all words before it are found and, if there are any, some
document is left. -/
def Reaches (table : WordTable) (disk : Disk) (front : List String) : Prop :=
  ∃ lists, table.Finds disk front lists ∧ (lists ≠ [] → Postings.agreement lists ≠ [])

def FailsWith (table : WordTable) (disk : Disk) (words : List String) (fault : Fault) : Prop :=
  ∃ front word back, words = front ++ word :: back ∧ table.Reaches disk front ∧
    (table.lookup disk word).result = .error fault

def postings? (table : WordTable) (disk : Disk) (word : String) : Option Postings :=
  match (table.lookup disk word).result with
  | .ok found => found
  | .error _ => none

/-- The documents that contain every word, with their exact ranks, when every word is looked up. -/
def agreement (table : WordTable) (disk : Disk) (words : List String) : List (DocumentId × Nat) :=
  ((words.mapM (table.postings? disk)).map Postings.agreement).getD []

/-- `FailsWith` for words that follow others, which were found with the given lists. -/
private def FailsAfter (table : WordTable) (disk : Disk) (lists : List Postings)
    (words : List String) (fault : Fault) : Prop :=
  ∃ front word back more, words = front ++ word :: back ∧ table.Finds disk front more ∧
    (lists ++ more ≠ [] → Postings.agreement (lists ++ more) ≠ []) ∧
    (table.lookup disk word).result = .error fault

/-- `agreement` for words that follow others, which were found with the given lists. -/
private def agreementAfter (table : WordTable) (disk : Disk) (lists : List Postings)
    (words : List String) : List (DocumentId × Nat) :=
  ((words.mapM (table.postings? disk)).map fun more => Postings.agreement (lists ++ more)).getD []

variable {table : WordTable} {disk : Disk}

private theorem failsAfter_nil_iff {words : List String} {fault : Fault} :
    table.FailsAfter disk [] words fault ↔ table.FailsWith disk words fault := by
  constructor
  · rintro ⟨front, word, back, more, split, hfound, hleft, hfault⟩
    exact ⟨front, word, back, split, ⟨more, hfound, hleft⟩, hfault⟩
  · rintro ⟨front, word, back, split, ⟨more, hfound, hleft⟩, hfault⟩
    exact ⟨front, word, back, more, split, hfound, hleft, hfault⟩

private theorem failsAfter_cons_iff {lists : List Postings} {word : String} {rest : List String}
    {fault : Fault} :
    table.FailsAfter disk lists (word :: rest) fault ↔
      ((lists ≠ [] → Postings.agreement lists ≠ []) ∧
        (table.lookup disk word).result = .error fault) ∨
      ∃ postings, (table.lookup disk word).result = .ok (some postings) ∧
        table.FailsAfter disk (lists ++ [postings]) rest fault := by
  constructor
  · rintro ⟨front, word', back, more, split, hfound, hleft, hfault⟩
    cases hfound with
    | nil =>
      obtain ⟨rfl, rfl⟩ := List.cons.inj split
      exact Or.inl ⟨by simpa using hleft, hfault⟩
    | cons hfirst hrest =>
      obtain ⟨rfl, rfl⟩ := List.cons.inj split
      exact Or.inr ⟨_, hfirst, _, word', back, _, rfl, hrest, by simpa using hleft, hfault⟩
  · rintro (⟨hleft, hfault⟩ | ⟨postings, hfirst, front, word', back, more, rfl, hrest, hleft, hfault⟩)
    · exact ⟨[], word, rest, [], rfl, .nil, by simpa using hleft, hfault⟩
    · exact ⟨word :: front, word', back, postings :: more, rfl, .cons hfirst hrest,
        by simpa using hleft, hfault⟩

private theorem not_failsAfter_of_agreement_eq_nil {lists : List Postings} (nonempty : lists ≠ [])
    (none : Postings.agreement lists = []) {words : List String} {fault : Fault} :
    ¬table.FailsAfter disk lists words fault := by
  rintro ⟨front, word, back, more, -, -, some, -⟩
  exact some (by simp [nonempty]) (Postings.agreement_append_eq_nil nonempty none more)

private theorem agreementAfter_eq_nil {lists : List Postings} (nonempty : lists ≠ [])
    (none : Postings.agreement lists = []) (words : List String) :
    table.agreementAfter disk lists words = [] := by
  unfold agreementAfter
  cases words.mapM (table.postings? disk) with
  | none => rfl
  | some more => simp [Postings.agreement_append_eq_nil nonempty none more]

private theorem agreementAfter_cons (lists : List Postings) {word : String} (rest : List String)
    {found : Option Postings} (hword : (table.lookup disk word).result = .ok found) :
    table.agreementAfter disk lists (word :: rest) =
      match found with
      | none => []
      | some postings => table.agreementAfter disk (lists ++ [postings]) rest := by
  have hpostings : table.postings? disk word = found := by
    rw [postings?, hword]
  unfold agreementAfter
  rw [List.mapM_cons, hpostings]
  cases found with
  | none => rfl
  | some postings => cases rest.mapM (table.postings? disk) <;> simp

theorem narrowBy_nil (words : List String) : table.narrowBy disk [] words = pure [] := by
  cases words <;> rfl

theorem result_narrowBy_nil (words : List String) :
    (table.narrowBy disk [] words).result = .ok [] := by
  rw [narrowBy_nil]
  rfl

theorem result_narrowBy_cons {candidates : List Match} (left : candidates ≠ [])
    (word : String) (rest : List String) :
    (table.narrowBy disk candidates (word :: rest)).result =
      (table.lookup disk word).result >>= fun found =>
        match found with
        | none => .ok []
        | some postings =>
          (table.narrowBy disk (Match.narrow candidates postings.entries) rest).result := by
  rw [narrowBy, Logged.result_bind]
  · congr 1
    funext found
    cases found <;> rfl
  · exact fun e => left e

theorem result_matching_cons (word : String) (rest : List String) :
    (table.matching disk (word :: rest)).result =
      (table.lookup disk word).result >>= fun found =>
        match found with
        | none => .ok []
        | some postings =>
          (table.narrowBy disk (Match.ofEntries postings.entries) rest).result := by
  rw [matching, Logged.result_bind]
  congr 1
  funext found
  cases found <;> rfl

theorem narrowBy_append (candidates : List Match) (front back : List String) :
    table.narrowBy disk candidates (front ++ back) =
      (table.narrowBy disk candidates front >>= fun left => table.narrowBy disk left back) := by
  induction front generalizing candidates with
  | nil => rw [List.nil_append, narrowBy, pure_bind]
  | cons word rest ih =>
    cases candidates with
    | nil => rw [narrowBy_nil, narrowBy_nil, pure_bind, narrowBy_nil]
    | cons candidate others =>
      rw [List.cons_append, narrowBy, narrowBy, bind_assoc]
      · congr 1
        funext found
        cases found with
        | none => rw [pure_bind, narrowBy_nil]
        | some postings => exact ih _
      all_goals exact List.cons_ne_nil _ _

theorem matching_append {front : List String} (some : front ≠ []) (back : List String) :
    table.matching disk (front ++ back) =
      (table.matching disk front >>= fun left => table.narrowBy disk left back) := by
  cases front with
  | nil => exact absurd rfl some
  | cons word rest =>
    rw [List.cons_append, matching, matching, bind_assoc]
    congr 1
    funext found
    cases found with
    | none => rw [pure_bind, narrowBy_nil]
    | some postings => exact narrowBy_append _ rest back

/-- What narrowing makes of candidates that some lists agree on: it fails where a lookup fails while
a document is left, and else finds the agreement of all words. -/
private theorem result_narrowBy {candidates : List Match} {lists : List Postings}
    (nonempty : lists ≠ []) (h : candidates.map Match.exact = Postings.agreement lists)
    {words : List String} (room : lists.length + words.length ≤ longestQuery) :
    (∀ fault, (table.narrowBy disk candidates words).result = .error fault ↔
      table.FailsAfter disk lists words fault) ∧
    ∀ found, (table.narrowBy disk candidates words).result = .ok found →
      found.map Match.exact = table.agreementAfter disk lists words := by
  -- With each word that is found the lists grow by one, and the candidates stay their agreement.
  induction words generalizing candidates lists with
  | nil =>
    have ok : (table.narrowBy disk candidates []).result = .ok candidates := by
      simp [narrowBy]
    refine ⟨fun fault => ?_, fun found hok => ?_⟩
    · simp [ok, FailsAfter]
    · cases ok.symm.trans hok
      simpa [agreementAfter] using h
  | cons word rest ih =>
    by_cases left : candidates = []
    · subst left
      have none : Postings.agreement lists = [] := h.symm
      rw [result_narrowBy_nil]
      refine ⟨fun fault => ?_, fun found hok => ?_⟩
      · simp [not_failsAfter_of_agreement_eq_nil nonempty none]
      · cases hok
        exact (agreementAfter_eq_nil nonempty none _).symm
    · have some : Postings.agreement lists ≠ [] := by
        rw [← h]
        simpa using left
      rw [result_narrowBy_cons left]
      simp only [failsAfter_cons_iff]
      cases hword : (table.lookup disk word).result with
      | error other => simp [bind, Except.bind, some]
      | ok found =>
        rw [agreementAfter_cons lists rest hword]
        cases found with
        | none => simp [bind, Except.bind]
        | some postings =>
          simp only [List.length_cons] at room
          have step := ih (by simp) (Match.exact_narrow nonempty h (by omega) postings)
            (by simp only [List.length_append, List.length_singleton]; omega)
          simpa [bind, Except.bind] using step

private theorem result_matching {words : List String} (room : words.length ≤ longestQuery) :
    (∀ fault, (table.matching disk words).result = .error fault ↔
      table.FailsWith disk words fault) ∧
    ∀ found, (table.matching disk words).result = .ok found →
      found.map Match.exact = table.agreement disk words := by
  have start : table.agreement disk words = table.agreementAfter disk [] words := rfl
  simp only [start, ← failsAfter_nil_iff]
  cases words with
  | nil =>
    have ok : (table.matching disk []).result = .ok [] := by
      simp [matching]
    refine ⟨fun fault => ?_, fun found hok => ?_⟩
    · simp [ok, FailsAfter]
    · cases ok.symm.trans hok
      rfl
  | cons word rest =>
    rw [result_matching_cons]
    simp only [failsAfter_cons_iff]
    cases hword : (table.lookup disk word).result with
    | error other => simp [bind, Except.bind]
    | ok found =>
      rw [agreementAfter_cons [] rest hword]
      cases found with
      | none => simp [bind, Except.bind]
      | some postings =>
        simp only [List.length_cons] at room
        have room' : [postings].length + rest.length ≤ longestQuery := by
          simp only [List.length_singleton]
          omega
        have step := @result_narrowBy table disk _ [postings] (by simp)
          (Match.exact_ofEntries postings) rest room'
        simpa [bind, Except.bind] using step

theorem result_matching_eq_error {words : List String} (room : words.length ≤ longestQuery)
    {fault : Fault} :
    (table.matching disk words).result = .error fault ↔ table.FailsWith disk words fault :=
  (result_matching room).1 fault

theorem exact_matching {words : List String} (room : words.length ≤ longestQuery)
    (sound : ∀ fault, ¬table.FailsWith disk words fault) :
    ∃ found, (table.matching disk words).result = .ok found ∧
      found.map Match.exact = table.agreement disk words := by
  rcases Outcome.error_or_ok (table.matching disk words).result with ⟨fault, h⟩ | ⟨found, h⟩
  · exact absurd ((result_matching_eq_error room).mp h) (sound fault)
  · exact ⟨found, h, (result_matching room).2 found h⟩

theorem not_failsWith_of_result_matching {words : List String} (room : words.length ≤ longestQuery)
    {found : List Match} (h : (table.matching disk words).result = .ok found) (fault : Fault) :
    ¬table.FailsWith disk words fault := by
  intro fails
  rw [(result_matching_eq_error room).mpr fails] at h
  cases h

theorem postings?_eq_some {word : String} {postings : Postings} :
    table.postings? disk word = some postings ↔
      (table.lookup disk word).result = .ok (some postings) := by
  unfold postings?
  cases (table.lookup disk word).result <;> simp

theorem mem_agreement_iff {words : List String} (nonempty : words ≠ []) {id : DocumentId}
    {rank : Nat} :
    (id, rank) ∈ table.agreement disk words ↔
      ∃ lists counts, table.Finds disk words lists ∧
        List.Forall₂ (fun postings count => postings.countIn id = some count) lists counts ∧
        rank = (counts.map UInt32.toNat).sum := by
  have found : ∀ lists, words.mapM (table.postings? disk) = some lists ↔
      table.Finds disk words lists := by
    intro lists
    simp only [mapM_eq_some, postings?_eq_some, Finds]
  constructor
  · intro mem
    unfold agreement at mem
    cases hlists : words.mapM (table.postings? disk) with
    | none => simp [hlists] at mem
    | some lists =>
      have hfound := (found lists).mp hlists
      have some : lists ≠ [] := by
        intro e
        rw [e] at hfound
        cases hfound
        exact nonempty rfl
      rw [hlists] at mem
      obtain ⟨counts, hcounts, hrank⟩ :=
        Postings.rankIn_eq_some.mp ((Postings.mem_agreement_iff some).mp mem)
      exact ⟨lists, counts, hfound, hcounts, hrank⟩
  · rintro ⟨lists, counts, hfound, hcounts, hrank⟩
    have some : lists ≠ [] := by
      intro e
      rw [e] at hfound
      cases hfound
      exact nonempty rfl
    rw [agreement, (found lists).mpr hfound]
    exact (Postings.mem_agreement_iff some).mpr
      (Postings.rankIn_eq_some.mpr ⟨counts, hcounts, hrank⟩)

theorem agreement_eq_nil_of_absent {words : List String} {word : String} (mem : word ∈ words)
    (absent : table.postings? disk word = none) : table.agreement disk words = [] := by
  obtain ⟨front, back, rfl⟩ := List.append_of_mem mem
  unfold agreement
  rw [List.mapM_append, List.mapM_cons, absent]
  cases front.mapM (table.postings? disk) <;> rfl

end WordTable

end InvertedIndex
