import InvertedIndex.Proofs.ChainLookup

/-!
What a table of words answers, by the bytes of its file: the first element that holds the word, as
far as it lies inside the file, decides.
-/

set_option autoImplicit false
set_option relaxedAutoImplicit false

namespace InvertedIndex

open BigEndian (field)

namespace WordTable

/-- An element whose header lies inside the file and that holds another word: one of another length, or one
that lies inside the file and has other bytes. -/
def PassesOver (file : List UInt8) (word : String) (offset : Offset) : Prop :=
  let start := offset.toNat + 6
  let length := field file offset.toNat 2
  start ≤ file.length ∧
    (length ≠ word.utf8ByteSize ∨
      start + length ≤ file.length ∧ (file.drop start).take length ≠ word.toUTF8.data.toList)

instance (file : List UInt8) (word : String) (offset : Offset) :
    Decidable (PassesOver file word offset) :=
  inferInstanceAs (Decidable (_ ∧ _))

/-- The postings of an element for a word, or what is wrong with the element. -/
def verdict (path : String) (file : List UInt8) (word : String) (offset : Offset) :
    Except Fault Postings :=
  let start := offset.toNat + 6
  let length := field file offset.toNat 2
  let count := field file (offset.toNat + 2) 4
  if file.length < start then .error (.truncated offset 6)
  else if file.length < start + length then .error (.truncated start.toUInt64 length.toUInt64)
  else if file.length < start + length + 12 * count then
    .error (.corruption
      (.postingsOverrun path word count.toUInt32 (start + length).toUInt64))
  else .ok ⟨word, (List.range count).map fun j => recordAt Posting file (start + length + 12 * j)⟩

variable {table : WordTable} {disk : Disk} {file : List UInt8} {word : String}

theorem holds_word_of_not_passesOver {offset : Offset} (decided : ¬PassesOver file word offset) :
    let start := offset.toNat + 6
    let length := field file offset.toNat 2
    (start ≤ file.length → length = word.utf8ByteSize) ∧
      (start + length ≤ file.length →
        (file.drop start).take length = word.toUTF8.data.toList) := by
  refine ⟨fun inside => ?_, fun inside => ?_⟩
  · by_contra other
    exact decided ⟨inside, Or.inl other⟩
  · by_contra differs
    exact decided ⟨by omega, Or.inr ⟨inside, differs⟩⟩

theorem verdict_of_inside (path : String) (word : String) {offset : Offset} :
    let count := field file (offset.toNat + 2) 4
    let postings := offset.toNat + 6 + field file offset.toNat 2
    postings + 12 * count ≤ file.length → ∃ entries,
      verdict path file word offset = .ok ⟨word, entries⟩ ∧
        entries.map (fun entry => (entry.id.toNat, entry.count.toNat)) =
          (List.range count).map fun j =>
            (field file (postings + 12 * j) 8, field file (postings + 12 * j + 8) 4) := by
  intro count postings inside
  rw [verdict, if_neg (by omega), if_neg (by omega), if_neg (Nat.not_lt.mpr inside)]
  refine ⟨_, rfl, ?_⟩
  rw [List.map_map]
  refine List.map_congr_left fun j _ => ?_
  simp only [Function.comp_apply, recordAt_posting, toNat_ofNat_field64, toNat_ofNat_field32]
  rfl

theorem read_postings (whole : table.buckets.source.Covers disk file) {offset start : Offset}
    (place : start.toNat = offset.toNat + 6 + field file offset.toNat 2)
    (inside : start.toNat ≤ file.length) :
    (match table.buckets.source.ensureExtent start
        (recordAt WordHeader file offset.toNat).postingBytes with
      | .error _ => throw (.corruption (.postingsOverrun table.buckets.source.path word
          (recordAt WordHeader file offset.toNat).postingCount start))
      | .ok () => do
        let entries ← table.buckets.source.fetchRun Posting disk start
          (recordAt WordHeader file offset.toNat).postingCount.toNat
        pure (some ⟨word, entries⟩)) =
    (verdict table.buckets.source.path file word offset).map some := by
  have count : (recordAt WordHeader file offset.toNat).postingCount =
      UInt32.ofNat (field file (offset.toNat + 2) 4) := by
    rw [recordAt_wordHeader]
  have room : (recordAt WordHeader file offset.toNat).postingBytes.toNat =
      12 * field file (offset.toNat + 2) 4 := by
    rw [WordHeader.postingBytes, count]
    exact (toNat_mul_size _ (by decide)).trans (congrArg (12 * ·) (toNat_ofNat_field32 file _))
  have word64 : (offset.toNat + 6 + field file offset.toNat 2).toUInt64 = start :=
    toUInt64_of_toNat place
  rw [verdict, if_neg (by omega), if_neg (by omega), whole.ensureExtent, room, word64, ← place]
  by_cases fits : start.toNat + 12 * field file (offset.toNat + 2) 4 ≤ file.length
  · have entries := whole.fetchRun Posting (by decide) fits
    rw [if_pos fits, if_neg (Nat.not_lt.mpr fits), count, toNat_ofNat_field32]
    exact Outcome.bind_of_ok entries _
  · rw [if_neg fits, if_pos (Nat.lt_of_not_le fits), count]
    rfl

theorem search_cons (whole : table.buckets.source.Covers disk file) {offset : Offset}
    (inside : offset.toNat + 6 ≤ file.length) (rest : List Offset) :
    let start := offset.toNat + 6
    let length := field file offset.toNat 2
    table.search disk word (offset :: rest) =
      if length ≠ word.utf8ByteSize then table.search disk word rest
      else if file.length < start + length then
        .error (.truncated start.toUInt64 length.toUInt64)
      else if (file.drop start).take length ≠ word.toUTF8.data.toList then
        table.search disk word rest
      else (verdict table.buckets.source.path file word offset).map some := by
  intro start length
  have header := (whole.fetch WordHeader (by decide) offset).trans (if_pos inside)
  have wordLength : (recordAt WordHeader file offset.toNat).wordLength = UInt16.ofNat length := by
    rw [recordAt_wordHeader]
  have size : (UInt16.ofNat length).toNat = length := toNat_ofNat_field16 file offset.toNat
  have size64 : (UInt16.ofNat length).toUInt64.toNat = length := by rw [UInt16.toNat_toUInt64, size]
  have wordOffset : (offset + (Record.size WordHeader).toUInt64).toNat = start :=
    whole.toNat_add inside
  rw [search]
  refine (Outcome.bind_of_ok header _).trans ?_
  simp only [wordLength, size]
  by_cases shape : length ≠ word.utf8ByteSize
  · rw [if_pos shape, if_pos shape]
  · -- Only now are the bytes of the word read, and only now can their end be missing.
    rw [if_neg shape, if_neg shape, whole.readWithin, wordOffset, size64]
    by_cases fits : start + length ≤ file.length
    · have room : (offset + (Record.size WordHeader).toUInt64).toNat +
          (UInt16.ofNat length).toUInt64.toNat ≤ file.length := by
        rwa [wordOffset, size64]
      have place := whole.toNat_add room
      rw [wordOffset, size64] at place
      have same : ((file.drop start).take length).toByteArray ≠ word.toUTF8 ↔
          (file.drop start).take length ≠ word.toUTF8.data.toList := by
        refine not_congr ?_
        rw [ByteArray.ext_iff, ← Array.toList_inj, List.data_toByteArray]
      rw [if_pos fits, if_neg (Nat.not_lt.mpr fits), ← read_postings whole place (by omega)]
      exact (Outcome.bind_of_ok rfl _).trans (if_congr same rfl rfl)
    · have words : start.toUInt64 = offset + (Record.size WordHeader).toUInt64 :=
        toUInt64_of_toNat wordOffset
      have bytes : length.toUInt64 = (UInt16.ofNat length).toUInt64 := toUInt64_of_toNat size64
      rw [if_neg fits, if_pos (Nat.lt_of_not_le fits), words, bytes]
      rfl

theorem searchedBy (whole : table.buckets.source.Covers disk file) (word : String) :
    SearchedBy (table.search disk word) (PassesOver file word)
      (verdict table.buckets.source.path file word) := by
  refine ⟨rfl, fun offset rest passed => ?_, fun offset rest decided => ?_⟩
  · obtain ⟨inside, other⟩ := passed
    refine (search_cons whole inside rest).trans ?_
    by_cases shape : field file offset.toNat 2 ≠ word.utf8ByteSize
    · exact if_pos shape
    · obtain ⟨fits, differs⟩ := other.resolve_left shape
      exact (if_neg shape).trans ((if_neg (Nat.not_lt.mpr fits)).trans (if_pos differs))
  · by_cases inside : offset.toNat + 6 ≤ file.length
    · have shape : ¬field file offset.toNat 2 ≠ word.utf8ByteSize := fun other =>
        decided ⟨inside, Or.inl other⟩
      refine (search_cons whole inside rest).trans ((if_neg shape).trans ?_)
      by_cases fits : offset.toNat + 6 + field file offset.toNat 2 ≤ file.length
      · have equal : ¬(file.drop (offset.toNat + 6)).take (field file offset.toNat 2) ≠
            word.toUTF8.data.toList := fun differs => decided ⟨inside, Or.inr ⟨fits, differs⟩⟩
        exact (if_neg (Nat.not_lt.mpr fits)).trans (if_neg equal)
      · have short := Nat.lt_of_not_le fits
        rw [if_pos short, verdict, if_neg (Nat.not_lt.mpr inside), if_pos short]
        rfl
    · have header := (whole.fetch WordHeader (by decide) offset).trans (if_neg inside)
      rw [search, verdict, if_pos (Nat.lt_of_not_le inside), header]
      rfl

theorem result_lookup (table : WordTable) (disk : Disk) (word : String) :
    (table.lookup disk word).result =
      (table.buckets.lookup disk (keyOf word)).result >>= table.search disk word := by
  simp only [lookup, Logged.result_bind, Logged.result_lift]

/-- What a lookup of a word answers, whatever the file holds. The chain is that of the digest of the word,
and the first element of it that is not passed over decides. -/
theorem first_fitting_word_decides (whole : table.buckets.source.Covers disk file)
    (word : String) :
    let chain := (table.buckets.lookup disk (Fnv1a.digest word.toUTF8.data.toList)).result
    let answer := (table.lookup disk word).result
    (∀ fault, chain = .error fault → answer = .error fault) ∧
    ∀ offsets, chain = .ok offsets →
      (answer = .ok none ↔ ∀ offset ∈ offsets, PassesOver file word offset) ∧
      ∀ front offset back, offsets = front ++ offset :: back →
        (∀ earlier ∈ front, PassesOver file word earlier) → ¬PassesOver file word offset →
        let start := offset.toNat + 6
        let length := field file offset.toNat 2
        let count := field file (offset.toNat + 2) 4
        let postings := start + length
        (file.length < start → answer = .error (.truncated offset 6)) ∧
        (start ≤ file.length → length = word.utf8ByteSize) ∧
        (start ≤ file.length → file.length < postings →
          answer = .error (.truncated start.toUInt64 length.toUInt64)) ∧
        (postings ≤ file.length → (file.drop start).take length = word.toUTF8.data.toList) ∧
        (postings ≤ file.length → file.length < postings + 12 * count →
          answer = .error (.corruption (.postingsOverrun table.buckets.source.path word
            count.toUInt32 postings.toUInt64))) ∧
        (postings + 12 * count ≤ file.length → ∃ entries, answer = .ok (some ⟨word, entries⟩) ∧
          entries.map (fun entry => (entry.id.toNat, entry.count.toNat)) =
            (List.range count).map fun j =>
              (field file (postings + 12 * j) 8, field file (postings + 12 * j + 8) 4)) := by
  intro chain answer
  have search := searchedBy whole word
  refine ⟨fun fault failed => ?_, fun offsets found => ?_⟩
  · show (table.lookup disk word).result = _
    rw [result_lookup]
    exact congrArg (· >>= table.search disk word) failed
  · have searched : answer = table.search disk word offsets := by
      show (table.lookup disk word).result = _
      rw [result_lookup]
      exact congrArg (· >>= table.search disk word) found
    rw [searched]
    refine ⟨search.eq_none_iff, ?_⟩
    rintro front offset back rfl before decided start length count postings
    obtain ⟨sameLength, sameBytes⟩ := holds_word_of_not_passesOver decided
    rw [search.append_of_decided before decided]
    refine ⟨fun short => ?_, sameLength, fun inside short => ?_, sameBytes,
      fun inside short => ?_, fun inside => ?_⟩
    · rw [verdict, if_pos short]
      rfl
    · rw [verdict, if_neg (Nat.not_lt.mpr inside), if_pos short]
      rfl
    · rw [verdict, if_neg (by omega), if_neg (Nat.not_lt.mpr inside), if_pos short]
      rfl
    · obtain ⟨entries, held, numbers⟩ :=
        verdict_of_inside table.buckets.source.path word inside
      exact ⟨entries, congrArg _ held, numbers⟩

/-- A disk with one file: a table of two buckets, one of which is empty. The elements of the other one are
a longer word than the file, a word with a posting, one with more postings than the file holds, one that
is cut off behind its header, and one that is nowhere near the file. -/
def brokenDisk : Disk :=
  let header : TableHeader := ⟨2⟩
  let slots : List Slot := [⟨5, 28⟩, ⟨0, 0⟩]
  let links : List Link := [⟨68⟩, ⟨74⟩, ⟨94⟩, ⟨103⟩, ⟨2 ^ 64 - 4⟩]
  let elements : List (WordHeader × String × List Posting) :=
    [(⟨65535, 0⟩, "", []), (⟨2, 1⟩, "fo", [⟨1, 9⟩]), (⟨3, 2 ^ 32 - 1⟩, "fix", []), (⟨2, 0⟩, "", [])]
  { objects := #[⟨(Record.encode header ++ slots.flatMap Record.encode ++
      links.flatMap Record.encode ++
      elements.flatMap fun element => Record.encode element.1 ++ element.2.1.toUTF8.data.toList ++
        element.2.2.flatMap Record.encode).toByteArray, 0⟩]
    folders := []
    names := [(["words"], 0)] }

theorem first_fitting_word_decides_broken :
    let table : WordTable := ⟨⟨⟨"words", brokenDisk.stamp (.file 0), .mapped⟩, 0, 2⟩⟩
    table.buckets.source.Covers brokenDisk (brokenDisk.bytes (.file 0)).data.toList ∧
      (∃ entries, (table.lookup brokenDisk "fo").result = .ok (some ⟨"fo", entries⟩) ∧
        entries.map (fun entry => (entry.id.toNat, entry.count.toNat)) = [(1, 9)]) ∧
      (table.lookup brokenDisk "fix").result =
        .error (.corruption (.postingsOverrun "words" "fix" (2 ^ 32 - 1) 103)) ∧
      (table.lookup brokenDisk "ox").result = .error (.truncated 109 2) ∧
      (table.lookup brokenDisk "goat").result = .error (.truncated (2 ^ 64 - 4) 6) ∧
      (table.lookup brokenDisk "b").result = .ok none := by
  intro table
  have whole : table.buckets.source.Covers brokenDisk (brokenDisk.bytes (.file 0)).data.toList :=
    Source.covers_stamp "words" .mapped rfl (by decide +kernel)
  have ends (word : String)
      (chain : (table.buckets.lookup brokenDisk (Fnv1a.digest word.toUTF8.data.toList)).result =
        .ok [68, 74, 94, 103, 2 ^ 64 - 4])
      (front : List Offset) (offset : Offset) (back : List Offset)
      (split : [68, 74, 94, 103, 2 ^ 64 - 4] = front ++ offset :: back)
      (before : front.all fun earlier =>
        PassesOver (brokenDisk.bytes (.file 0)).data.toList word earlier) :=
    ((first_fitting_word_decides whole word).2 _ chain).2 front offset back split
      (by simpa using before)
  refine ⟨whole, ?_, ?_, ?_, ?_, ?_⟩
  · obtain ⟨-, -, -, -, -, found⟩ := ends "fo" (by decide +kernel) [68] 74 _ rfl
      (by decide +kernel) (by decide +kernel)
    obtain ⟨entries, answer, same⟩ := found (by decide +kernel)
    exact ⟨entries, answer, same.trans (by decide +kernel)⟩
  · obtain ⟨-, -, -, -, overrun, -⟩ := ends "fix" (by decide +kernel) [68, 74] 94 _ rfl
      (by decide +kernel) (by decide +kernel)
    exact (overrun (by decide +kernel) (by decide +kernel)).trans (by decide +kernel)
  · obtain ⟨-, -, short, -⟩ := ends "ox" (by decide +kernel) [68, 74, 94] 103 _ rfl
      (by decide +kernel) (by decide +kernel)
    exact (short (by decide +kernel) (by decide +kernel)).trans (by decide +kernel)
  · obtain ⟨short, -⟩ := ends "goat" (by decide +kernel) [68, 74, 94, 103] _ [] rfl
      (by decide +kernel) (by decide +kernel)
    exact short (by decide +kernel)
  · exact ((first_fitting_word_decides whole "b").2 [] (by decide +kernel)).1.mpr (by simp)

end WordTable

end InvertedIndex
