import InvertedIndex.Proofs.TableLayout
import InvertedIndex.Proofs.WellFormedText

/-!
Documents and words that stand one after the other are found by their table, each by its first
entry, whatever else shares the bucket.
-/

set_option autoImplicit false
set_option relaxedAutoImplicit false

namespace InvertedIndex

open Outcome (bind_of_ok)

variable {α β : Type}

theorem lookup_filter [BEq α] [LawfulBEq α] {key : α} {keep : α × β → Bool}
    {entries : List (α × β)} (kept : ∀ entry ∈ entries, entry.1 = key → keep entry = true) :
    (entries.filter keep).lookup key = entries.lookup key := by
  induction entries with
  | nil => rfl
  | cons entry rest ih =>
    have rest_kept := ih fun other mem => kept other (List.mem_cons_of_mem _ mem)
    obtain ⟨first, value⟩ := entry
    by_cases same : first = key
    · subst same
      rw [List.filter_cons_of_pos (kept _ (List.mem_cons_self ..) rfl), List.lookup_cons_self,
        List.lookup_cons_self]
    · have differs : (key == first) = false := beq_false_of_ne fun e => same e.symm
      rw [List.lookup_cons, differs, ← rest_kept, List.filter_cons]
      split
      · rw [List.lookup_cons, differs]
      · rfl

/-- A search that stops at the first element with a key, and passes over the others, finds the first
entry for the key. -/
theorem search_eq_lookup [DecidableEq α] [BEq α] [LawfulBEq α] {γ : Type}
    {search : List Offset → Except Fault (Option γ)} (nowhere : search [] = .ok none) (key : α)
    (value : β → γ) {entries : List ((α × β) × Nat)}
    (step : ∀ entry ∈ entries, ∀ rest, search (entry.2.toUInt64 :: rest) =
      if entry.1.1 = key then .ok (some (value entry.1.2)) else search rest) :
    search (entries.map fun entry => entry.2.toUInt64) =
      .ok (((entries.map Prod.fst).lookup key).map value) := by
  induction entries with
  | nil => exact nowhere
  | cons entry rest ih =>
    have found := ih fun other mem => step other (List.mem_cons_of_mem _ mem)
    rw [List.map_cons, step entry (List.mem_cons_self ..), found, List.map_cons, List.lookup_cons]
    by_cases same : entry.1.1 = key
    · rw [if_pos same, same, beq_self_eq_true]
      rfl
    · have differs : (key == entry.1.1) = false := beq_false_of_ne fun e => same e.symm
      rw [if_neg same, differs]

theorem length_utf8 (text : String) : text.toUTF8.data.toList.length = text.utf8ByteSize := by
  rw [Array.length_toList]
  rfl

theorem toUInt64_toUInt16 {n : Nat} (short : n < 2 ^ 16) : n.toUInt16.toUInt64 = n.toUInt64 := by
  have small : n.toUInt16.toNat = n := Nat.mod_eq_of_lt short
  exact (toUInt64_of_toNat (n.toUInt16.toNat_toUInt64.trans small)).symm

namespace Contents

variable {file : List UInt8} {start : Nat}

/-- Some items with the places of their written forms, which stand one after the other. -/
def located (image : α → List UInt8) (start : Nat) (items : List α) : List (α × Nat) :=
  items.zip (offsetsFrom start (items.map image))

theorem length_offsetsFrom (start : Nat) (runs : List (List UInt8)) :
    (offsetsFrom start runs).length = runs.length := by
  induction runs generalizing start with
  | nil => rfl
  | cons run rest ih => rw [offsetsFrom, List.length_cons, ih, List.length_cons]

theorem map_fst_located (image : α → List UInt8) (start : Nat) (items : List α) :
    (located image start items).map Prod.fst = items := by
  apply List.map_fst_zip
  exact Nat.le_of_eq (by rw [length_offsetsFrom, List.length_map])

theorem zip_offsetsFrom (key : α → UInt64) (image : α → List UInt8) (start : Nat)
    (items : List α) :
    (items.map key).zip (offsetsFrom start (items.map image)) =
      (located image start items).map fun entry => (key entry.1, entry.2) := by
  rw [located, List.zip_map_left]
  rfl

theorem standsAt_located {image : α → List UInt8} {items : List α}
    (there : StandsAt file start (items.map image).flatten) :
    ∀ entry ∈ located image start items, StandsAt file entry.2 (image entry.1) := by
  induction items generalizing start with
  | nil => simp [located]
  | cons item rest ih =>
    rw [List.map_cons, List.flatten_cons] at there
    intro entry mem
    rw [located, List.map_cons, offsetsFrom, List.zip_cons_cons] at mem
    rcases List.mem_cons.mp mem with rfl | mem
    · exact there.left
    · exact ih there.right entry mem

theorem map_sharing (bucketCount : UInt32) (keyOf : α → UInt64) (image : α → List UInt8)
    (start : Nat) (items : List α) (key : UInt64) :
    (ChainTable.sharing bucketCount
        ((items.map keyOf).zip (offsetsFrom start (items.map image))) key).map
      (fun element => element.2.toUInt64) =
    ((located image start items).filter fun entry =>
        ChainTable.sameBucket bucketCount key (keyOf entry.1)).map
      fun entry => entry.2.toUInt64 := by
  rw [zip_offsetsFrom, ChainTable.sharing, List.filter_map, List.map_map]
  rfl

theorem map_fst_filter_located (image : α → List UInt8) (start : Nat) (items : List α)
    (keep : α → Bool) :
    ((located image start items).filter fun entry => keep entry.1).map Prod.fst =
      items.filter keep := by
  have all := map_fst_located image start items
  rw [← all, List.filter_map]
  rw [all]
  rfl

end Contents

namespace DocumentTable

variable {source : Source} {disk : Disk} {file : List UInt8} {offset : Nat}

theorem search_cons_of_standsAt (h : source.Holds disk file) (table : DocumentTable)
    (same : table.buckets.source = source) {document : DocumentId × String}
    (short : document.2.utf8ByteSize < 2 ^ 16)
    (there : StandsAt file offset (Contents.documentImage document)) (id : DocumentId)
    (rest : List Offset) :
    table.search disk id (offset.toUInt64 :: rest) =
      if document.1 = id then .ok (some document.2) else table.search disk id rest := by
  have header := h.fetch there.left
  have path := h.readWithin there.right
  rw [LawfulRecord.length_encode, length_utf8, toByteArray_toList] at path
  have place : offset.toUInt64 + (Record.size DocumentHeader).toUInt64 =
      (offset + Record.size DocumentHeader).toUInt64 := (UInt64.ofNat_add _ _).symm
  subst same
  rw [search]
  refine (bind_of_ok header _).trans ?_
  by_cases found : document.1 = id
  · have stay : ¬document.1 ≠ id := fun other => other found
    rw [if_pos found]
    refine (if_neg stay).trans ?_
    rw [toUInt64_toUInt16 short, place]
    refine (bind_of_ok path _).trans ?_
    rw [Text.fromUTF8?_eq_some.mpr rfl]
    rfl
  · rw [if_neg found]
    exact if_pos found

theorem search_of_standsAt (h : source.Holds disk file) (table : DocumentTable)
    (same : table.buckets.source = source) (id : DocumentId)
    {entries : List ((DocumentId × String) × Nat)}
    (there : ∀ entry ∈ entries, StandsAt file entry.2 (Contents.documentImage entry.1))
    (short : ∀ entry ∈ entries, entry.1.2.utf8ByteSize < 2 ^ 16) :
    table.search disk id (entries.map fun entry => entry.2.toUInt64) =
      .ok ((entries.map Prod.fst).lookup id) := by
  have found : table.search disk id (entries.map fun entry => entry.2.toUInt64) =
      .ok (((entries.map Prod.fst).lookup id).map fun path => path) := by
    apply search_eq_lookup (by rfl) id fun path => path
    intro entry mem rest
    exact search_cons_of_standsAt h table same (short entry mem) (there entry mem) id rest
  rwa [Option.map_id'] at found

end DocumentTable

namespace WordTable

variable {source : Source} {disk : Disk} {file : List UInt8} {offset : Nat}

theorem search_cons_of_standsAt (h : source.Holds disk file) (table : WordTable)
    (same : table.buckets.source = source) {entry : String × List Posting}
    (short : entry.1.utf8ByteSize < 2 ^ 16) (few : entry.2.length < 2 ^ 32)
    (there : StandsAt file offset (Contents.wordImage entry)) (word : String)
    (rest : List Offset) :
    table.search disk word (offset.toUInt64 :: rest) =
      if entry.1 = word then .ok (some ⟨word, entry.2⟩) else table.search disk word rest := by
  have header := h.fetch there.left.left
  have text := h.readWithin there.left.right
  have postings := there.right
  rw [LawfulRecord.length_encode, length_utf8, toByteArray_toList] at text
  rw [List.length_append, LawfulRecord.length_encode, length_utf8] at postings
  have place : offset.toUInt64 + (Record.size WordHeader).toUInt64 =
      (offset + Record.size WordHeader).toUInt64 := (UInt64.ofNat_add _ _).symm
  have size : entry.1.utf8ByteSize.toUInt16.toNat = entry.1.utf8ByteSize := Nat.mod_eq_of_lt short
  subst same
  rw [search]
  refine (bind_of_ok header _).trans ?_
  by_cases shape : entry.1.utf8ByteSize.toUInt16.toNat ≠ word.utf8ByteSize
  · have other : entry.1 ≠ word := by
      rintro rfl
      exact shape size
    rw [if_neg other]
    exact if_pos shape
  · refine (if_neg shape).trans ?_
    rw [toUInt64_toUInt16 short, place]
    refine (bind_of_ok text _).trans ?_
    by_cases other : entry.1.toUTF8 ≠ word.toUTF8
    · have differ : entry.1 ≠ word := by
        rintro rfl
        exact other rfl
      rw [if_neg differ]
      exact if_pos other
    · have found : entry.1 = word := by
        rw [ne_eq, not_not, String.toUTF8_eq_toByteArray, String.toUTF8_eq_toByteArray] at other
        exact String.toByteArray_inj.mp other
      rw [if_pos found]
      refine (if_neg other).trans ?_
      have count : entry.2.length.toUInt32.toNat = entry.2.length := Nat.mod_eq_of_lt few
      have start : (offset + Record.size WordHeader).toUInt64 + entry.1.utf8ByteSize.toUInt64 =
          (offset + (Record.size WordHeader + entry.1.utf8ByteSize)).toUInt64 := by
        rw [← Nat.add_assoc]
        exact (UInt64.ofNat_add _ _).symm
      have room : WordHeader.postingBytes
            ⟨entry.1.utf8ByteSize.toUInt16, entry.2.length.toUInt32⟩ =
          (entry.2.length * Record.size Posting).toUInt64 := by
        rw [WordHeader.postingBytes, ← UInt64.ofNat_uInt32ToNat, count, Nat.toUInt64_eq,
          UInt64.ofNat_mul]
      have inside := postings.length_le
      rw [length_flatMap_encode] at inside
      have entries := h.fetchRun postings
      rw [start, room]
      dsimp only
      rw [h.ensureExtent inside, count]
      exact bind_of_ok entries _

theorem search_of_standsAt (h : source.Holds disk file) (table : WordTable)
    (same : table.buckets.source = source) (word : String)
    {entries : List ((String × List Posting) × Nat)}
    (there : ∀ entry ∈ entries, StandsAt file entry.2 (Contents.wordImage entry.1))
    (short : ∀ entry ∈ entries, entry.1.1.utf8ByteSize < 2 ^ 16)
    (few : ∀ entry ∈ entries, entry.1.2.length < 2 ^ 32) :
    table.search disk word (entries.map fun entry => entry.2.toUInt64) =
      .ok (((entries.map Prod.fst).lookup word).map fun postings => ⟨word, postings⟩) := by
  apply search_eq_lookup (by rfl) word fun postings => (⟨word, postings⟩ : Postings)
  intro entry mem rest
  exact search_cons_of_standsAt h table same (short entry mem) (few entry mem) (there entry mem) word
    rest

end WordTable

end InvertedIndex
