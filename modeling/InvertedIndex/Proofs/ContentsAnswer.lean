import InvertedIndex.Proofs.FileLayout
import InvertedIndex.Proofs.Query

/-!
An engine over files that are laid out from some contents answers as a reader of the contents would.
-/

set_option autoImplicit false
set_option relaxedAutoImplicit false

namespace InvertedIndex

open Outcome (bind_of_ok exists_mapM exists_of_mem_right mapM_eq_mapM mapM_eq_some)

theorem mapM_filterMap {α β γ : Type} {g : α → Option β} {h : β → Except Fault γ}
    {step : α → Except Fault (Option γ)} (idle : ∀ a, g a = none → step a = .ok none)
    (busy : ∀ a b, g a = some b → step a = h b >>= fun c => .ok (some c)) (as : List α) :
    (as.mapM step >>= fun found => .ok (found.filterMap id)) = (as.filterMap g).mapM h := by
  induction as with
  | nil => rfl
  | cons a rest ih =>
    rw [List.mapM_cons]
    cases hg : g a with
    | none =>
      rw [List.filterMap_cons_none hg, ← ih, idle a hg]
      cases rest.mapM step <;> rfl
    | some b =>
      rw [List.filterMap_cons_some hg, List.mapM_cons, ← ih, busy a b hg]
      cases h b with
      | error fault => rfl
      | ok c => cases rest.mapM step <;> rfl

namespace Contents

variable {contents : Contents} {words : List String}

theorem rank?_eq (contents : Contents) (words : List String) (id : DocumentId) :
    contents.rank? words id =
      (words.mapM contents.postings?).bind fun lists => Postings.rankIn lists id := by
  -- Going through the words once, or for their postings first and then through these for the counts.
  have counts : (words.mapM fun word => contents.countIn word id) =
      (words.mapM contents.postings?).bind fun lists =>
        lists.mapM fun (postings : Postings) => postings.countIn id := by
    induction words with
    | nil => rfl
    | cons word rest ih =>
      rw [List.mapM_cons, List.mapM_cons, ih, countIn]
      cases contents.postings? word with
      | none => rfl
      | some postings =>
        cases rest.mapM contents.postings? with
        | none => cases h : postings.countIn id <;> simp [h]
        | some lists => simp
  have sums : (fun counts : List UInt32 => counts.foldl (fun sum count => sum + count.toNat) 0) =
      fun counts => (counts.map UInt32.toNat).sum := by
    funext counts
    rw [List.sum_eq_foldl, List.foldl_map]
  rw [rank?, counts, sums]
  cases words.mapM contents.postings? <;> rfl

/-- What the contents say of the documents that contain every word, with their ranks. -/
def agreement (contents : Contents) (words : List String) : List (DocumentId × Nat) :=
  ((words.head?.map contents.mentioned).getD []).filterMap fun id =>
    (contents.rank? words id).map fun rank => (id, rank)

theorem agreement_eq (contents : Contents) {words : List String} (nonempty : words ≠ []) :
    contents.agreement words =
      ((words.mapM contents.postings?).map Postings.agreement).getD [] := by
  obtain ⟨first, rest, rfl⟩ := List.exists_cons_of_ne_nil nonempty
  unfold agreement
  simp only [rank?_eq, List.head?_cons, Option.map_some, Option.getD_some]
  cases hlists : (first :: rest).mapM contents.postings? with
  | none => simp
  | some lists =>
    have found := mapM_eq_some.mp hlists
    cases found with
    | @cons _ postings _ others hfirst _ =>
      have mentioned_eq : contents.mentioned first =
          (postings.entries.map Posting.id).eraseDups := by
        rw [mentioned, hfirst]
      rw [mentioned_eq]
      rfl

def name (contents : Contents) (strict : Bool) (id : DocumentId) : Except Fault String :=
  match contents.path? id with
  | some path => .ok path
  | none => if strict then .error (.missingDocument id) else .ok (placeholderName id)

theorem rows_eq (contents : Contents) (strict : Bool) (words : List String) :
    contents.rows strict words =
      (contents.agreement words).mapM fun found =>
        contents.name strict found.1 >>= fun name => .ok ⟨name, found.2.toUInt64⟩ := by
  apply mapM_filterMap
  · intro id absent
    rw [Option.map_eq_none_iff] at absent
    rw [row, absent]
  · intro id found some
    obtain ⟨rank, hrank, rfl⟩ := Option.map_eq_some_iff.mp some
    rw [row, hrank, name]
    cases contents.path? id with
    | some path => rfl
    | none => cases strict <;> rfl

theorem rank_lt_of_rank? {words : List String} (room : words.length ≤ 2 ^ 32 + 1)
    {id : DocumentId} {rank : Nat} (h : contents.rank? words id = some rank) : rank < 2 ^ 64 := by
  rw [rank?_eq] at h
  obtain ⟨lists, hlists, hrank⟩ := Option.bind_eq_some_iff.mp h
  have same := (mapM_eq_some.mp hlists).length_eq
  have le := Postings.rankIn_le hrank
  rw [← same] at le
  calc rank ≤ words.length * (2 ^ 32 - 1) := le
    _ ≤ (2 ^ 32 + 1) * (2 ^ 32 - 1) := Nat.mul_le_mul_right _ room
    _ < 2 ^ 64 := by decide

end Contents

namespace OpenIndex.Serves

variable {index : OpenIndex} {disk : Disk} {contents : Contents}

theorem result_resolve (h : index.Serves disk contents) (id : DocumentId) (strict : Bool) :
    (index.documents.resolve disk id strict).result = contents.name strict id := by
  rw [DocumentTable.resolve, Logged.result_bind, h.documents, Contents.name]
  cases contents.path? id with
  | some path => rfl
  | none => cases strict <;> rfl

theorem agreement_eq (h : index.Serves disk contents) {words : List String} (nonempty : words ≠ []) :
    index.words.agreement disk words = contents.agreement words := by
  have postings_eq : index.words.postings? disk = contents.postings? := by
    funext word
    rw [WordTable.postings?, h.words]
  rw [contents.agreement_eq nonempty, WordTable.agreement, postings_eq]

theorem result_rows (h : index.Serves disk contents) (strict : Bool) {words : List String}
    (nonempty : words ≠ []) (room : words.length ≤ 2 ^ 32 + 1) :
    (index.rows disk strict words).result = contents.rows strict words := by
  have sound : ∀ fault, ¬index.words.FailsWith disk words fault := by
    rintro fault ⟨front, word, back, -, -, hfault⟩
    rw [h.words] at hfault
    cases hfault
  obtain ⟨found, hfound, hexact⟩ := WordTable.exact_matching room sound
  have row_eq : ∀ found : Match, (index.row disk strict found).result =
      contents.name strict found.exact.1 >>= fun name => .ok ⟨name, found.exact.2.toUInt64⟩ := by
    intro found
    rw [OpenIndex.result_row, h.result_resolve, Match.exact, Nat.toUInt64_eq, UInt64.ofNat_toNat]
  rw [OpenIndex.result_rows]
  refine (bind_of_ok hfound _).trans ?_
  simp only [row_eq]
  rw [contents.rows_eq, ← h.agreement_eq nonempty, ← hexact, List.mapM_map]
  rfl

end OpenIndex.Serves

def Disk.Stores (disk : Disk) (path : String) (contents : Contents) : Prop :=
  ∃ location id, disk.find path = .ok (location, id) ∧ disk.bytes id = contents.image

theorem Disk.find_empty (disk : Disk) : disk.find "" = .error .notFound := by
  have place : disk.place "" = .error .notFound := by simp [Disk.place]
  rw [find, fileAt, place]
  rfl

namespace Engine

variable {disk : Disk} {settings : Settings} {files : List Contents}

theorem check_of_stores (nonempty : files ≠ [])
    (stored : List.Forall₂ disk.Stores settings.paths files) : settings.check = .ok () := by
  have some : settings.paths ≠ [] := by
    intro none
    rw [none] at stored
    cases stored
    exact nonempty rfl
  have named : settings.paths.findIdx? (fun path => path = "") = none := by
    rw [List.findIdx?_eq_none_iff]
    intro path mem
    obtain ⟨contents, -, location, id, found, -⟩ := exists_of_mem_right stored.flip mem
    rw [decide_eq_false_iff_not]
    rintro rfl
    rw [disk.find_empty] at found
    cases found
  rw [Settings.check, if_neg some, named]

private theorem query_of_listing {engine : Engine} {words : List String} {strict : Bool}
    (sought : words ≠ [])
    (rows_eq : (engine.indexes.mapM fun index => (index.rows disk engine.strict words).result) =
      files.mapM fun contents => contents.rows strict words) :
    (∀ fault, (engine.query disk words).result = .error fault ↔
      Contents.listing files strict words = .error fault) ∧
    ∀ answer, (engine.query disk words).result = .ok answer ↔ ∃ rows,
      Contents.listing files strict words = .ok rows ∧
        answer.Perm rows ∧ answer.Pairwise Row.Precedes := by
  rw [result_query _ disk sought, rows_eq, Contents.listing]
  cases files.mapM fun contents => contents.rows strict words with
  | error fault => simp [bind, Except.bind]
  | ok found => simp [bind, Except.bind, pure, Except.pure, Row.sort_eq_iff]

/-- Files that are laid out from contents open, and queries over them give the rows that the contents
have, better ones first, with ranks that no machine word is too small for; or they fail as the contents
do. -/
theorem query_answers_contents (nonempty : files ≠ []) (fits : ∀ contents ∈ files, contents.Fits)
    (stored : List.Forall₂ disk.Stores settings.paths files) :
    ∃ engine, (start disk settings).result = .ok engine ∧
      ∀ words : List String, words ≠ [] → words.length ≤ 2 ^ 32 + 1 →
        (∀ fault, (engine.query disk words).result = .error fault ↔
          Contents.listing files settings.strict words = .error fault) ∧
        (∀ answer, (engine.query disk words).result = .ok answer ↔ ∃ rows,
          Contents.listing files settings.strict words = .ok rows ∧
            answer.Perm rows ∧ answer.Pairwise Row.Precedes) ∧
        ∀ contents ∈ files, ∀ id rank, contents.rank? words id = some rank → rank < 2 ^ 64 := by
  have opened : ∃ indexes, (settings.paths.mapM fun path =>
        (OpenIndex.openPath disk path settings.strict settings.access).result) = .ok indexes ∧
      List.Forall₂ (fun (index : OpenIndex) contents => index.Serves disk contents) indexes files := by
    have inputs := (List.forall₂_and_left files settings.paths).mpr ⟨fits, stored.flip⟩
    refine exists_mapM inputs.flip fun path contents h => ?_
    obtain ⟨hfits, location, id, found, image⟩ := h
    exact OpenIndex.serves_of_openPath hfits found image settings.strict settings.access
  obtain ⟨indexes, hindexes, serves⟩ := opened
  let engine : Engine := ⟨indexes, settings.strict⟩
  refine ⟨engine, ?_, ?_⟩
  · simp only [start, Logged.result_bind, Logged.result_lift, Logged.result_report,
      Logged.result_mapM, Logged.result_pure]
    refine (bind_of_ok (check_of_stores nonempty stored) _).trans ?_
    exact bind_of_ok hindexes _
  · intro words sought room
    have rows_eq : (engine.indexes.mapM fun index => (index.rows disk engine.strict words).result) =
        files.mapM fun contents => contents.rows settings.strict words :=
      mapM_eq_mapM serves fun index contents h => h.result_rows settings.strict sought room
    obtain ⟨fails, answers⟩ := query_of_listing sought rows_eq
    exact ⟨fails, answers, fun contents mem id rank => Contents.rank_lt_of_rank? room⟩

theorem query_answers_contents_sample :
    Contents.sample.Fits ∧ sampleDisk.Stores "whole" Contents.sample ∧
      ∃ engine, (start sampleDisk ⟨["whole"], true, true⟩).result = .ok engine ∧
        (engine.query sampleDisk ["a", "b"]).result = .ok [⟨"x", 7⟩] ∧
        (engine.query sampleDisk ["c", "b"]).result = .ok [] ∧
        (engine.query sampleDisk ["b"]).result = .error (.missingDocument 7) := by
  have fits : Contents.sample.Fits :=
    { paths := by decide
      words := by decide
      postings := by decide
      documentPart := ⟨by decide, by decide +kernel⟩
      wordPart := ⟨by decide, by decide +kernel⟩
      size := by decide +kernel }
  have stored : sampleDisk.Stores "whole" Contents.sample := by
    refine ⟨["whole"], .file 0, by decide +kernel, ?_⟩
    simp [Disk.bytes, Disk.object?, sampleDisk]
  have every : ∀ contents ∈ [Contents.sample], contents.Fits := by
    intro contents mem
    rw [List.mem_singleton.mp mem]
    exact fits
  have files : List.Forall₂ sampleDisk.Stores ["whole"] [Contents.sample] := .cons stored .nil
  obtain ⟨engine, hstart, answers⟩ :=
    @query_answers_contents sampleDisk ⟨["whole"], true, true⟩ _ (by decide) every files
  refine ⟨fits, stored, engine, hstart, ?_, ?_, ?_⟩
  · refine ((answers ["a", "b"] (by decide) (by decide)).2.1 _).mpr ⟨[⟨"x", 7⟩], ?_, .rfl, ?_⟩
    · decide +kernel
    · exact List.pairwise_singleton _ _
  · refine ((answers ["c", "b"] (by decide) (by decide)).2.1 _).mpr ⟨[], ?_, .rfl, .nil⟩
    decide +kernel
  · apply ((answers ["b"] (by decide) (by decide)).1 _).mpr
    decide +kernel

end Engine

end InvertedIndex
