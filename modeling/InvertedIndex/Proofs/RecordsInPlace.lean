import InvertedIndex.Proofs.Placement
import InvertedIndex.Proofs.StoredRecords

/-!
Records and their bytes, for every kind of record at once: a kind is a list of fields of some
widths, and records one after the other are found again by adding up their sizes.
-/

set_option autoImplicit false
set_option relaxedAutoImplicit false

namespace InvertedIndex

namespace BigEndian

theorem value_eq_ofDigits (bytes : List UInt8) :
    value bytes = Nat.ofDigits 256 (bytes.reverse.map UInt8.toNat) := by
  induction bytes using List.reverseRecOn with
  | nil => rfl
  | append_singleton front last ih =>
    rw [value_append_singleton, ih, List.reverse_append, List.reverse_singleton, List.singleton_append,
      List.map_cons, Nat.ofDigits_cons, Nat.mul_comm, Nat.add_comm]

end BigEndian

open BigEndian (digits value digits_value value_eq_ofDigits field)

namespace RecordKind

def widths : RecordKind → List Nat
  | fileHeader => [4, 4, 8, 8]
  | tableHeader => [4]
  | slot => [4, 8]
  | link => [8]
  | documentHeader => [8, 2]
  | wordHeader => [2, 4]
  | posting => [8, 4]

def numbers : (kind : RecordKind) → kind.Carrier → List Nat
  | fileHeader, (r : FileHeader) =>
    [r.magic.toNat, r.checksum.toNat, r.documentTable.toNat, r.wordTable.toNat]
  | tableHeader, (r : TableHeader) => [r.bucketCount.toNat]
  | slot, (r : Slot) => [r.chainLength.toNat, r.chainOffset.toNat]
  | link, (r : Link) => [r.elementOffset.toNat]
  | documentHeader, (r : DocumentHeader) => [r.id.toNat, r.pathLength.toNat]
  | wordHeader, (r : WordHeader) => [r.wordLength.toNat, r.postingCount.toNat]
  | posting, (r : Posting) => [r.id.toNat, r.count.toNat]

def write (kind : RecordKind) (out : List UInt8) (record : kind.Carrier) : List UInt8 :=
  (kind.widths.zip (kind.numbers record)).foldl (fun out field => out ++ digits field.1 field.2) out

instance (kind : RecordKind) : LawfulRecord kind.Carrier :=
  match kind with
  | fileHeader => inferInstanceAs (LawfulRecord FileHeader)
  | tableHeader => inferInstanceAs (LawfulRecord TableHeader)
  | slot => inferInstanceAs (LawfulRecord Slot)
  | link => inferInstanceAs (LawfulRecord Link)
  | documentHeader => inferInstanceAs (LawfulRecord DocumentHeader)
  | wordHeader => inferInstanceAs (LawfulRecord WordHeader)
  | posting => inferInstanceAs (LawfulRecord Posting)

theorem size_eq_sum (kind : RecordKind) : kind.size = kind.widths.sum := by
  cases kind <;> rfl

theorem encode_eq (kind : RecordKind) (record : kind.Carrier) :
    Record.encode record =
      (kind.widths.zip (kind.numbers record)).flatMap fun field => digits field.1 field.2 := by
  cases kind <;>
  · simp only [widths, numbers, List.zip_cons_cons, List.zip_nil_left, List.flatMap_cons, List.flatMap_nil,
      List.append_nil, ← List.append_assoc]
    rfl

theorem write_eq (kind : RecordKind) (out : List UInt8) (record : kind.Carrier) :
    kind.write out record = out ++ Record.encode record := by
  have append (fields : List (Nat × Nat)) :
      fields.foldl (fun out field => out ++ digits field.1 field.2) out =
        out ++ fields.flatMap fun field => digits field.1 field.2 := by
    induction fields generalizing out with
    | nil => simp
    | cons field fields ih => rw [List.foldl_cons, ih, List.flatMap_cons, List.append_assoc]
  rw [write, append, encode_eq]

theorem numbers_decode (kind : RecordKind) (bytes : List UInt8) :
    kind.numbers (Record.decode bytes) = (kind.widths.splitLengths bytes).map value := by
  have word16 (start : Nat) :
      (UInt16.ofNat (field bytes start 2)).toNat = value ((bytes.drop start).take 2) :=
    toNat_ofNat_field16 bytes start
  have word32 (start : Nat) :
      (UInt32.ofNat (field bytes start 4)).toNat = value ((bytes.drop start).take 4) :=
    toNat_ofNat_field32 bytes start
  have word64 (start : Nat) :
      (UInt64.ofNat (field bytes start 8)).toNat = value ((bytes.drop start).take 8) :=
    toNat_ofNat_field64 bytes start
  cases kind <;>
    simp only [widths, numbers, List.splitLengths_cons, List.splitLengths_nil, List.map_cons,
      List.map_nil, List.drop_drop, Nat.reduceAdd]
  case fileHeader =>
    show [(UInt32.ofNat (field bytes 0 4)).toNat, (UInt32.ofNat (field bytes 4 4)).toNat,
      (UInt64.ofNat (field bytes 8 8)).toNat, (UInt64.ofNat (field bytes 16 8)).toNat] = _
    rw [word32, word32, word64, word64]
    rfl
  case tableHeader => exact congrArg (fun n => [n]) (word32 0)
  case slot => exact congrArg₂ (fun m n => [m, n]) (word32 0) (word64 4)
  case link => exact congrArg (fun n => [n]) (word64 0)
  case documentHeader => exact congrArg₂ (fun m n => [m, n]) (word64 0) (word16 8)
  case wordHeader => exact congrArg₂ (fun m n => [m, n]) (word16 0) (word32 2)
  case posting => exact congrArg₂ (fun m n => [m, n]) (word64 0) (word32 8)

theorem encode_decode (kind : RecordKind) {bytes : List UInt8} (long : bytes.length = kind.size) :
    Record.encode (Record.decode bytes : kind.Carrier) = bytes := by
  have enough : kind.widths.sum = bytes.length := by rw [long, size_eq_sum]
  have lengths := List.map_splitLengths_length bytes kind.widths enough.le
  have whole := List.flatten_splitLengths bytes kind.widths enough.ge
  rw [encode_eq, numbers_decode]
  generalize kind.widths.splitLengths bytes = parts at lengths whole
  rw [← lengths, List.zip_map', List.flatMap_map]
  simp only [digits_value]
  rw [List.flatMap_id', whole]

theorem size_lt (kind : RecordKind) : kind.size < 2 ^ 64 := by
  cases kind <;> decide

end RecordKind

def writeAll (out : List UInt8) (records : List SomeRecord) : List UInt8 :=
  records.foldl (fun out r => r.kind.write out r.record) out

theorem writeAll_eq (out : List UInt8) (records : List SomeRecord) :
    writeAll out records = out ++ encodeAll records := by
  induction records generalizing out with
  | nil => simp [writeAll, encodeAll]
  | cons r rest ih =>
    rw [writeAll, List.foldl_cons, ← writeAll, ih, RecordKind.write_eq, List.append_assoc]
    rfl

/-- Where a record of a list starts among the written forms: the sizes of those before it, added up. -/
def recordStart (records : List SomeRecord) (i : Nat) : Nat :=
  ((records.take i).map fun r => r.kind.size).sum

theorem length_encodeAll (records : List SomeRecord) :
    (encodeAll records).length = (records.map fun r => r.kind.size).sum := by
  rw [encodeAll, List.length_flatMap]
  congr 1
  exact List.map_congr_left fun r _ => LawfulRecord.length_encode r.record

theorem standsAt_encodeAll (records : List SomeRecord) {i : Nat} (h : i < records.length) :
    StandsAt (encodeAll records) (recordStart records i) (Record.encode records[i].record) := by
  refine ⟨encodeAll (records.take i), encodeAll (records.drop (i + 1)), ?_, length_encodeAll _⟩
  have split : records = records.take i ++ records[i] :: records.drop (i + 1) := by
    rw [List.getElem_cons_drop, List.take_append_drop]
  calc encodeAll records
      = encodeAll (records.take i ++ records[i] :: records.drop (i + 1)) := congrArg encodeAll split
    _ = encodeAll (records.take i) ++ Record.encode records[i].record ++
          encodeAll (records.drop (i + 1)) := by
        simp only [encodeAll, List.flatMap_append, List.flatMap_cons, List.append_assoc]

namespace Source.Covers

variable {source : Source} {disk : Disk} {file : List UInt8}

theorem fetch_standing (whole : source.Covers disk file) {kind : RecordKind} {record : kind.Carrier}
    {offset : Nat} (there : StandsAt file offset (Record.encode record)) :
    source.fetch kind.Carrier disk offset.toUInt64 = .ok record := by
  have inside := there.length_le
  have size := LawfulRecord.length_encode record
  have short := whole.length ▸ source.length.toNat_lt
  have place : offset.toUInt64.toNat = offset := Nat.mod_eq_of_lt (by omega)
  have stretch := there.take_drop
  rw [size] at inside stretch
  rw [whole.fetch _ kind.size_lt, place, if_pos inside, recordAt, stretch, LawfulRecord.decode_encode]

end Source.Covers

/-- Records in place. A record of any kind is written behind what is there, as many bytes as its kind says,
and is read back from there in any file that goes on in any way. The written forms are the runs of bytes of
that length, each of one record, whose fields are the numbers that its bytes spell to the base 256. Records
of several kinds, written one behind the other, are read back each at the sum of the sizes before it. -/
theorem records_round_trip_in_place (front back : List UInt8) :
    (∀ (kind : RecordKind) (record : kind.Carrier),
      kind.write front record = front ++ Record.encode record ∧
      (Record.encode record).length = kind.size ∧
      ∀ source disk, Source.Covers source disk (kind.write front record ++ back) →
        source.fetch kind.Carrier disk front.length.toUInt64 = .ok record) ∧
    (∀ kind : RecordKind,
      let runs := {bytes : List UInt8 | bytes.length = kind.size}
      Set.BijOn (Record.encode (α := kind.Carrier)) Set.univ runs ∧
      Set.InvOn (Record.decode (α := kind.Carrier)) Record.encode Set.univ runs ∧
      ∀ bytes ∈ runs, kind.numbers (Record.decode bytes) =
        (kind.widths.splitLengths bytes).map fun field =>
          Nat.ofDigits 256 (field.reverse.map UInt8.toNat)) ∧
    ∀ records : List SomeRecord,
      writeAll front records = front ++ encodeAll records ∧
      (encodeAll records).length = recordStart records records.length ∧
      ∀ source disk, Source.Covers source disk (writeAll front records ++ back) →
        ∀ (i : Nat) (h : i < records.length),
          source.fetch records[i].kind.Carrier disk
            (front.length + recordStart records i).toUInt64 = .ok records[i].record := by
  refine ⟨fun kind record => ⟨kind.write_eq front record, LawfulRecord.length_encode record, ?_⟩,
    fun kind => ?_,
    fun records => ⟨writeAll_eq front records, ?_, ?_⟩⟩
  · intro source disk whole
    rw [kind.write_eq] at whole
    exact whole.fetch_standing ⟨front, back, rfl, rfl⟩
  · intro runs
    have inverse : Set.InvOn (Record.decode (α := kind.Carrier)) Record.encode Set.univ runs :=
      ⟨fun record _ => LawfulRecord.decode_encode record, fun bytes long => kind.encode_decode long⟩
    refine ⟨inverse.bijOn (fun record _ => LawfulRecord.length_encode record)
      (fun _ _ => Set.mem_univ _), inverse, fun bytes _ => ?_⟩
    rw [kind.numbers_decode]
    exact List.map_congr_left fun field _ => value_eq_ofDigits field
  · rw [length_encodeAll, recordStart, List.take_length]
  · intro source disk whole i h
    have written : StandsAt (front ++ encodeAll records ++ back) front.length (encodeAll records) :=
      ⟨front, back, rfl, rfl⟩
    rw [writeAll_eq] at whole
    exact whole.fetch_standing (written.trans (standsAt_encodeAll records h))

def slotThenDocument : List SomeRecord :=
  [⟨.slot, (⟨2, 0x8000000000000001⟩ : Slot)⟩,
    ⟨.documentHeader, (⟨0xFFFFFFFFFFFFFFFF, 0x8000⟩ : DocumentHeader)⟩]

/-- A disk with one file: these records, between two bytes and one. -/
def wedgedDisk : Disk :=
  { objects := #[⟨(writeAll [1, 2] slotThenDocument ++ [3]).toByteArray, 0⟩]
    folders := []
    names := [(["wedged"], 0)] }

theorem records_round_trip_in_place_wedged :
    let source : Source := ⟨"wedged", wedgedDisk.stamp (.file 0), .mapped⟩
    let header : List UInt8 := [0xFF, 0xFF, 0xFF, 0xFF, 0xFF, 0xFF, 0xFF, 0xFF, 0x80, 0]
    source.Covers wedgedDisk ([1, 2, 0, 0, 0, 2, 0x80, 0, 0, 0, 0, 0, 0, 1] ++ header ++ [3]) ∧
      source.fetch Slot wedgedDisk 2 = .ok ⟨2, 0x8000000000000001⟩ ∧
      source.fetch DocumentHeader wedgedDisk 14 = .ok ⟨0xFFFFFFFFFFFFFFFF, 0x8000⟩ ∧
      RecordKind.numbers .documentHeader (Record.decode header) = [2 ^ 64 - 1, 2 ^ 15] := by
  intro source header
  have whole : source.Covers wedgedDisk (writeAll [1, 2] slotThenDocument ++ [3]) := by
    have bytes : (wedgedDisk.bytes (.file 0)).data.toList = writeAll [1, 2] slotThenDocument ++ [3] := by
      decide +kernel
    rw [← bytes]
    exact Source.covers_stamp "wedged" .mapped rfl (by decide +kernel)
  have spelled : writeAll [1, 2] slotThenDocument =
      [1, 2, 0, 0, 0, 2, 0x80, 0, 0, 0, 0, 0, 0, 1] ++ header := by decide +kernel
  have single : writeAll [1, 2] slotThenDocument ++ [3] =
      RecordKind.write .slot [1, 2] (⟨2, 0x8000000000000001⟩ : Slot) ++ (header ++ [3]) := by
    decide +kernel
  obtain ⟨alone, -, -⟩ := records_round_trip_in_place [1, 2] (header ++ [3])
  obtain ⟨-, runs, places⟩ := records_round_trip_in_place [1, 2] [3]
  obtain ⟨-, -, readSlot⟩ := alone .slot (⟨2, 0x8000000000000001⟩ : Slot)
  obtain ⟨-, -, readEach⟩ := places slotThenDocument
  obtain ⟨-, -, spells⟩ := runs .documentHeader
  exact ⟨spelled ▸ whole, readSlot source wedgedDisk (single ▸ whole),
    readEach source wedgedDisk whole 1 (by decide), (spells header rfl).trans (by decide +kernel)⟩

end InvertedIndex
