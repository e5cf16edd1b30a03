import InvertedIndex.Proofs.ChainLookup
import InvertedIndex.Proofs.WellFormedText

/-!
What a table of documents answers, by the bytes of its file: the first element that carries the
number decides.
-/

set_option autoImplicit false
set_option relaxedAutoImplicit false

namespace InvertedIndex

open BigEndian (field)
open Text (WellFormed)

namespace DocumentTable

/-- An element whose header lies inside the file and carries another number. -/
def PassesOver (file : List UInt8) (id : DocumentId) (offset : Offset) : Prop :=
  offset.toNat + 10 ≤ file.length ∧ field file offset.toNat 8 ≠ id.toNat

instance (file : List UInt8) (id : DocumentId) (offset : Offset) :
    Decidable (PassesOver file id offset) :=
  inferInstanceAs (Decidable (_ ∧ _))

/-- The path of an element, or what is wrong with the element. -/
def verdict (path : String) (file : List UInt8) (id : DocumentId) (offset : Offset) :
    Except Fault String :=
  let start := offset.toNat + 10
  let length := field file (offset.toNat + 8) 2
  if file.length < start then .error (.truncated offset 10)
  else if file.length < start + length then .error (.truncated start.toUInt64 length.toUInt64)
  else
    match String.fromUTF8? ((file.drop start).take length).toByteArray with
    | some text => .ok text
    | none => .error (.corruption (.undecodablePath path id offset))

variable {table : DocumentTable} {disk : Disk} {file : List UInt8}

theorem verdict_of_malformed (path : String) (id : DocumentId) {offset : Offset} :
    let start := offset.toNat + 10
    let length := field file (offset.toNat + 8) 2
    start + length ≤ file.length → ¬WellFormed ((file.drop start).take length) →
      verdict path file id offset = .error (.corruption (.undecodablePath path id offset)) := by
  intro start length inside malformed
  have undecoded : String.fromUTF8? ((file.drop start).take length).toByteArray = none := by
    rw [Text.fromUTF8?_eq_none, List.data_toByteArray]
    exact malformed
  rw [verdict, if_neg (by omega), if_neg (Nat.not_lt.mpr inside), undecoded]

theorem verdict_of_wellFormed (path : String) (id : DocumentId) {offset : Offset} :
    let start := offset.toNat + 10
    let length := field file (offset.toNat + 8) 2
    start + length ≤ file.length → WellFormed ((file.drop start).take length) → ∃ text : String,
      text.toUTF8.data.toList = (file.drop start).take length ∧
        verdict path file id offset = .ok text := by
  intro start length inside formed
  obtain ⟨text, encodes⟩ := Text.wellFormed_iff.mp formed
  have decoded : String.fromUTF8? ((file.drop start).take length).toByteArray = some text := by
    rw [Text.fromUTF8?_eq_some, ← encodes, toByteArray_toList]
  refine ⟨text, encodes, ?_⟩
  rw [verdict, if_neg (by omega), if_neg (Nat.not_lt.mpr inside), decoded]

theorem read_path (whole : table.buckets.source.Covers disk file) {id : DocumentId} {offset : Offset}
    (inside : offset.toNat + 10 ≤ file.length) :
    (table.buckets.source.readWithin disk (offset + 10)
        (UInt16.ofNat (field file (offset.toNat + 8) 2)).toUInt64 >>= fun bytes =>
      match String.fromUTF8? bytes with
      | some path => pure (some path)
      | none => throw (.corruption (.undecodablePath table.buckets.source.path id offset))) =
    (verdict table.buckets.source.path file id offset).map some := by
  have start : (offset + 10).toNat = offset.toNat + 10 := whole.toNat_add inside
  have place : (offset.toNat + 10).toUInt64 = offset + 10 := toUInt64_of_toNat start
  have length : (UInt16.ofNat (field file (offset.toNat + 8) 2)).toUInt64.toNat =
      field file (offset.toNat + 8) 2 := by
    rw [UInt16.toNat_toUInt64, toNat_ofNat_field16]
  have word : (field file (offset.toNat + 8) 2).toUInt64 =
      (UInt16.ofNat (field file (offset.toNat + 8) 2)).toUInt64 := toUInt64_of_toNat length
  rw [verdict, if_neg (Nat.not_lt.mpr inside), whole.readWithin, start, length, place, word]
  by_cases fits : offset.toNat + 10 + field file (offset.toNat + 8) 2 ≤ file.length
  · rw [if_pos fits, if_neg (Nat.not_lt.mpr fits)]
    refine (Outcome.bind_of_ok rfl _).trans ?_
    cases String.fromUTF8? ((file.drop (offset.toNat + 10)).take
      (field file (offset.toNat + 8) 2)).toByteArray <;> rfl
  · rw [if_neg fits, if_pos (Nat.lt_of_not_le fits)]
    rfl

theorem searchedBy (whole : table.buckets.source.Covers disk file) (id : DocumentId) :
    SearchedBy (table.search disk id) (PassesOver file id)
      (verdict table.buckets.source.path file id) := by
  have step : ∀ offset : Offset, ∀ rest, offset.toNat + 10 ≤ file.length →
      table.search disk id (offset :: rest) =
        if field file offset.toNat 8 ≠ id.toNat then table.search disk id rest
        else (verdict table.buckets.source.path file id offset).map some := by
    intro offset rest inside
    have header := (whole.fetch DocumentHeader (by decide) offset).trans (if_pos inside)
    have number : UInt64.ofNat (field file offset.toNat 8) ≠ id ↔
        field file offset.toNat 8 ≠ id.toNat := by
      rw [ne_eq, ← UInt64.toNat_inj, toNat_ofNat_field64]
    rw [search]
    refine (Outcome.bind_of_ok header _).trans ?_
    rw [recordAt_documentHeader, ← read_path whole inside]
    exact if_congr number rfl rfl
  refine ⟨rfl, fun offset rest passed => ?_, fun offset rest decided => ?_⟩
  · rw [step offset rest passed.1, if_pos passed.2]
  · by_cases inside : offset.toNat + 10 ≤ file.length
    · rw [step offset rest inside, if_neg fun other => decided ⟨inside, other⟩]
    · have header := (whole.fetch DocumentHeader (by decide) offset).trans (if_neg inside)
      rw [search, verdict, if_pos (Nat.lt_of_not_le inside), header]
      rfl

theorem result_lookup (table : DocumentTable) (disk : Disk) (id : DocumentId) :
    (table.lookup disk id).result =
      (table.buckets.lookup disk id).result >>= table.search disk id := by
  simp only [lookup, Logged.result_bind, Logged.result_lift]
  rfl

theorem result_resolve (table : DocumentTable) (disk : Disk) (id : DocumentId) (strict : Bool) :
    (table.resolve disk id strict).result =
      (table.lookup disk id).result >>= fun
        | some path => .ok path
        | none => if strict then .error (.missingDocument id) else .ok (placeholderName id) := by
  rw [resolve, Logged.result_bind]
  refine congrArg _ (funext fun found => ?_)
  cases found with
  | some path => rfl
  | none => cases strict <;> rfl

/-- What a lookup of a document answers, whatever the file holds. The first element of the chain that is
not passed over decides. A name is the path that was found, and a fault of the lookup is kept. -/
theorem first_fitting_document_decides (whole : table.buckets.source.Covers disk file)
    (id : DocumentId) :
    (∀ fault, (table.buckets.lookup disk id).result = .error fault →
      (table.lookup disk id).result = .error fault) ∧
    (∀ offsets, (table.buckets.lookup disk id).result = .ok offsets →
      ((table.lookup disk id).result = .ok none ↔ ∀ offset ∈ offsets, PassesOver file id offset) ∧
      ∀ front offset back, offsets = front ++ offset :: back →
        (∀ earlier ∈ front, PassesOver file id earlier) → ¬PassesOver file id offset →
        let start := offset.toNat + 10
        let length := field file (offset.toNat + 8) 2
        let path := (file.drop start).take length
        (file.length < start → (table.lookup disk id).result = .error (.truncated offset 10)) ∧
        (start ≤ file.length → file.length < start + length →
          (table.lookup disk id).result =
            .error (.truncated start.toUInt64 length.toUInt64)) ∧
        (start + length ≤ file.length → ¬WellFormed path →
          (table.lookup disk id).result =
            .error (.corruption (.undecodablePath table.buckets.source.path id offset))) ∧
        (start + length ≤ file.length → WellFormed path → ∃ text : String,
          text.toUTF8.data.toList = path ∧ (table.lookup disk id).result = .ok (some text))) ∧
    ∀ strict,
      (∀ text, (table.lookup disk id).result = .ok (some text) →
        (table.resolve disk id strict).result = .ok text) ∧
      (∀ fault, (table.lookup disk id).result = .error fault →
        (table.resolve disk id strict).result = .error fault) ∧
      ((table.lookup disk id).result = .ok none →
        (table.resolve disk id strict).result =
          if strict then .error (.missingDocument id) else .ok (placeholderName id)) := by
  have search := searchedBy whole id
  refine ⟨fun fault failed => ?_, fun offsets chain => ?_, fun strict => ?_⟩
  · rw [result_lookup, failed]
    rfl
  · have found : (table.lookup disk id).result = table.search disk id offsets := by
      rw [result_lookup, chain]
      rfl
    rw [found]
    refine ⟨search.eq_none_iff, ?_⟩
    rintro front offset back rfl before decided start length path
    rw [search.append_of_decided before decided]
    refine ⟨fun short => ?_, fun inside short => ?_, fun inside malformed => ?_,
      fun inside formed => ?_⟩
    · rw [verdict, if_pos short]
      rfl
    · rw [verdict, if_neg (Nat.not_lt.mpr inside), if_pos short]
      rfl
    · rw [verdict_of_malformed _ id inside malformed]
      rfl
    · obtain ⟨text, encodes, held⟩ :=
        verdict_of_wellFormed table.buckets.source.path id inside formed
      exact ⟨text, encodes, congrArg _ held⟩
  · rw [result_resolve]
    refine ⟨fun text found => ?_, fun fault failed => ?_, fun missing => ?_⟩
    · rw [found]
      rfl
    · rw [failed]
      rfl
    · rw [missing]
      rfl

/-- A disk with one file: a table of two buckets, one of which is empty. The elements of the other one are a
document, one with a longer path than the file, one with half of a surrogate pair for a path, and one
that is nowhere near the file. -/
def motleyDisk : Disk :=
  let header : TableHeader := ⟨2⟩
  let slots : List Slot := [⟨0, 0⟩, ⟨4, 28⟩]
  let links : List Link := [⟨60⟩, ⟨72⟩, ⟨82⟩, ⟨2 ^ 64 - 4⟩]
  let elements : List (DocumentHeader × List UInt8) :=
    [(⟨3, 2⟩, [0xC3, 0xA9]), (⟨9, 65535⟩, []), (⟨7, 3⟩, [0xED, 0xA0, 0x80])]
  { objects := #[⟨(Record.encode header ++ slots.flatMap Record.encode ++
      links.flatMap Record.encode ++
      elements.flatMap fun element => Record.encode element.1 ++ element.2).toByteArray, 0⟩]
    folders := []
    names := [(["docs"], 0)] }

theorem first_fitting_document_decides_motley :
    let table : DocumentTable := ⟨⟨⟨"docs", motleyDisk.stamp (.file 0), .seek⟩, 0, 2⟩⟩
    table.buckets.source.Covers motleyDisk (motleyDisk.bytes (.file 0)).data.toList ∧
      (table.lookup motleyDisk 3).result = .ok (some "é") ∧
      (table.lookup motleyDisk 9).result = .error (.truncated 82 65535) ∧
      (table.lookup motleyDisk 7).result =
        .error (.corruption (.undecodablePath "docs" 7 82)) ∧
      (table.lookup motleyDisk 5).result = .error (.truncated (2 ^ 64 - 4) 10) ∧
      (table.resolve motleyDisk 2 true).result = .error (.missingDocument 2) ∧
      (table.resolve motleyDisk 2 false).result = .ok "<missing document 2>" := by
  intro table
  have whole : table.buckets.source.Covers motleyDisk (motleyDisk.bytes (.file 0)).data.toList :=
    Source.covers_stamp "docs" .seek rfl (by decide +kernel)
  have ends (id : DocumentId)
      (chain : (table.buckets.lookup motleyDisk id).result = .ok [60, 72, 82, 2 ^ 64 - 4])
      (front : List Offset) (offset : Offset) (back : List Offset)
      (split : [60, 72, 82, 2 ^ 64 - 4] = front ++ offset :: back)
      (before : front.all fun earlier => PassesOver (motleyDisk.bytes (.file 0)).data.toList id earlier) :=
    ((first_fitting_document_decides whole id).2.1 _ chain).2 front offset back split
      (by simpa using before)
  have missing : (table.lookup motleyDisk 2).result = .ok none :=
    ((first_fitting_document_decides whole 2).2.1 [] (by decide +kernel)).1.mpr (by simp)
  refine ⟨whole, ?_, ?_, ?_, ?_, ?_, ?_⟩
  · obtain ⟨-, -, -, found⟩ := ends 3 (by decide +kernel) [] 60 _ rfl (by decide +kernel)
      (by decide +kernel)
    obtain ⟨text, encodes, answer⟩ := found (by decide +kernel)
      (Text.wellFormed_iff.mpr ⟨"é", by decide +kernel⟩)
    have same : text.toUTF8.data.toList = "é".toUTF8.data.toList := encodes.trans (by decide +kernel)
    rw [answer, Text.eq_of_toUTF8 same]
  · obtain ⟨-, short, -⟩ := ends 9 (by decide +kernel) [60] 72 _ rfl
      (by decide +kernel) (by decide +kernel)
    exact (short (by decide +kernel) (by decide +kernel)).trans (by decide +kernel)
  · obtain ⟨-, -, malformed, -⟩ := ends 7 (by decide +kernel) [60, 72] 82 _ rfl
      (by decide +kernel) (by decide +kernel)
    have surrogate : ¬WellFormed [0xED, 0xA0, 0x80] := by
      have undecoded : String.fromUTF8? [0xED, 0xA0, 0x80].toByteArray = none := by decide +kernel
      rwa [Text.fromUTF8?_eq_none, List.data_toByteArray] at undecoded
    refine malformed (by decide +kernel) fun formed => surrogate ?_
    exact (congrArg WellFormed (by decide +kernel)).mp formed
  · obtain ⟨short, -⟩ := ends 5 (by decide +kernel) [60, 72, 82] _ [] rfl
      (by decide +kernel) (by decide +kernel)
    exact short (by decide +kernel)
  · exact ((first_fitting_document_decides whole 2).2.2 true).2.2 missing
  · exact ((first_fitting_document_decides whole 2).2.2 false).2.2 missing

end DocumentTable

end InvertedIndex
