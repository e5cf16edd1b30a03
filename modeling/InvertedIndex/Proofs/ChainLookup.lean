import InvertedIndex.Proofs.Flaws

/-!
What a hash table answers, by the bytes of its file, and how the elements of a chain are searched.
-/

set_option autoImplicit false
set_option relaxedAutoImplicit false

namespace InvertedIndex

open BigEndian (field)

namespace ChainTable

variable {source : Source} {disk : Disk} {file : List UInt8} {base : Offset} {table : ChainTable}

theorem slots_inside_of_openAt (whole : source.Covers disk file)
    (opened : openAt source disk base = .ok table) :
    table.source = source ∧ table.base = base ∧ table.bucketCount.toNat = field file base.toNat 4 ∧
      table.bucketCount ≠ 0 ∧ base.toNat + 4 + 12 * table.bucketCount.toNat ≤ file.length := by
  by_cases inside : base.toNat + 4 ≤ file.length
  · rw [IndexFile.openAt_eq whole inside, barring_eq_ok] at opened
    obtain ⟨sound, rfl⟩ := opened
    simp only [firstFault_eq_none, IndexFile.tableFlaws, List.mem_cons, List.not_mem_nil, or_false,
      forall_eq_or_imp, forall_eq, decide_eq_false_iff_not, not_lt] at sound
    have stands : IndexFile.bucketsAt file base = UInt32.ofNat (field file base.toNat 4) := by
      rw [← IndexFile.bucketCount_recordAt, recordAt_tableHeader]
    refine ⟨rfl, rfl, ?_, sound.1, sound.2⟩
    show (IndexFile.bucketsAt file base).toNat = _
    rw [stands, toNat_ofNat_field32]
  · have short := (whole.fetch TableHeader (by decide) base).trans (if_neg inside)
    rw [openAt, short] at opened
    cases opened

theorem toNat_slotAt (positive : table.bucketCount ≠ 0)
    (slots : table.base.toNat + 4 + 12 * table.bucketCount.toNat < 2 ^ 64) (key : UInt64) :
    (table.slotAt (table.bucketOf key)).toNat =
      table.base.toNat + 4 + 12 * (key.toNat % table.bucketCount.toNat) := by
  have before := toNat_bucketOf_lt positive key
  rw [toNat_bucketOf] at before
  have header : (Record.size TableHeader).toUInt64.toNat = 4 := by decide
  have slot : (Record.size Slot).toUInt64.toNat = 12 := by decide
  rw [slotAt, UInt64.toNat_add, UInt64.toNat_add, UInt64.toNat_mul, toNat_bucketOf, header, slot]
  omega

theorem fetch_slot (whole : table.source.Covers disk file) (positive : table.bucketCount ≠ 0)
    (slots : table.base.toNat + 4 + 12 * table.bucketCount.toNat ≤ file.length) (key : UInt64) :
    table.source.fetch Slot disk (table.slotAt (table.bucketOf key)) =
      .ok (recordAt Slot file (table.base.toNat + 4 + 12 * (key.toNat % table.bucketCount.toNat))) := by
  have before := toNat_bucketOf_lt positive key
  rw [toNat_bucketOf] at before
  have short := whole.length ▸ table.source.length.toNat_lt
  have place := toNat_slotAt positive (by omega) key
  have size : Record.size Slot = 12 := rfl
  rw [whole.fetch Slot (by decide), place, if_pos (by omega)]

theorem result_lookup (whole : table.source.Covers disk file) (positive : table.bucketCount ≠ 0)
    (slots : table.base.toNat + 4 + 12 * table.bucketCount.toNat ≤ file.length) (key : UInt64) :
    (table.lookup disk key).result =
      table.chain disk (table.bucketOf key)
        (recordAt Slot file (table.base.toNat + 4 + 12 * (key.toNat % table.bucketCount.toNat))) := by
  simp only [lookup, Logged.result_bind, Logged.result_lift, Logged.result_report]
  exact Outcome.bind_of_ok (fetch_slot whole positive slots key) _

theorem chain_eq (whole : table.source.Covers disk file) (bucket : UInt64) (slot : Slot) :
    table.chain disk bucket slot =
      if slot.chainLength = 0 then .ok []
      else if slot.chainOffset.toNat + 8 * slot.chainLength.toNat ≤ file.length then
        .ok ((List.range slot.chainLength.toNat).map fun j =>
          UInt64.ofNat (field file (slot.chainOffset.toNat + 8 * j) 8))
      else .error (.corruption
        (.chainOverrun table.source.path bucket slot.chainLength slot.chainOffset)) := by
  have room : (slot.chainLength.toUInt64 * (Record.size Link).toUInt64).toNat =
      8 * slot.chainLength.toNat := toNat_mul_size slot.chainLength (by decide)
  rw [chain, whole.ensureExtent, room]
  by_cases empty : slot.chainLength = 0
  · rw [if_pos empty, if_pos empty]
  · rw [if_neg empty, if_neg empty]
    by_cases inside : slot.chainOffset.toNat + 8 * slot.chainLength.toNat ≤ file.length
    · rw [if_pos inside, if_pos inside]
      refine (Outcome.bind_of_ok (whole.fetchRun Link (by decide) inside) _).trans ?_
      rw [List.map_map]
      refine congrArg Except.ok (List.map_congr_left fun j _ => ?_)
      exact congrArg Link.elementOffset (recordAt_link file _)
    · rw [if_neg inside, if_neg inside]

theorem result_lookup_eq (whole : table.source.Covers disk file) (positive : table.bucketCount ≠ 0)
    (slots : table.base.toNat + 4 + 12 * table.bucketCount.toNat ≤ file.length) (key : UInt64) :
    let bucket := key.toNat % table.bucketCount.toNat
    let slot := table.base.toNat + 4 + 12 * bucket
    let links := field file slot 4
    let start := field file (slot + 4) 8
    (table.lookup disk key).result =
      if links = 0 then .ok []
      else if start + 8 * links ≤ file.length then
        .ok ((List.range links).map fun j => UInt64.ofNat (field file (start + 8 * j) 8))
      else .error (.corruption
        (.chainOverrun table.source.path bucket.toUInt64 links.toUInt32 start.toUInt64)) := by
  intro bucket slot links start
  have count : (UInt32.ofNat links).toNat = links := toNat_ofNat_field32 file slot
  have place : (UInt64.ofNat start).toNat = start := toNat_ofNat_field64 file (slot + 4)
  have none : UInt32.ofNat links = 0 ↔ links = 0 := by
    rw [← UInt32.toNat_inj, count]
    rfl
  have number : bucket.toUInt64 = table.bucketOf key := toUInt64_of_toNat (toNat_bucketOf table key)
  have found := result_lookup whole positive slots key
  rw [recordAt_slot, chain_eq whole] at found
  dsimp only at found
  rw [count, place, if_congr none rfl rfl, ← number] at found
  exact found

theorem lookup_congr (table : ChainTable) (disk : Disk) {key other : UInt64}
    (same : other.toNat % table.bucketCount.toNat = key.toNat % table.bucketCount.toNat) :
    table.lookup disk other = table.lookup disk key := by
  have shared : table.bucketOf other = table.bucketOf key := by
    apply UInt64.toNat_inj.mp
    rw [toNat_bucketOf, toNat_bucketOf, same]
  simp only [lookup, shared]

/-- What a lookup answers in a file that is as it was when the table was opened. The slot of the bucket of
a key is `links` and `start`: the chain is empty, or it is all links from `start` on, or the file has no
room for it. Keys of one bucket are answered alike. -/
theorem lookup_reads_chain {before now : Disk} (was : source.Covers before file)
    (opened : openAt source before base = .ok table) (still : source.Covers now file) (key : UInt64) :
    let buckets := table.bucketCount.toNat
    let bucket := key.toNat % buckets
    let slot := base.toNat + 4 + 12 * bucket
    let links := field file slot 4
    let start := field file (slot + 4) 8
    buckets = field file base.toNat 4 ∧ 1 ≤ buckets ∧
      base.toNat + 4 + 12 * buckets ≤ file.length ∧
    (links = 0 → (table.lookup now key).result = .ok []) ∧
    (0 < links → start + 8 * links ≤ file.length → ∃ offsets,
      (table.lookup now key).result = .ok offsets ∧
        offsets.map UInt64.toNat = (List.range links).map fun j => field file (start + 8 * j) 8) ∧
    (0 < links → file.length < start + 8 * links →
      (table.lookup now key).result =
        .error (.corruption
          (.chainOverrun source.path bucket.toUInt64 links.toUInt32 start.toUInt64))) ∧
    ∀ other : UInt64, other.toNat % buckets = bucket →
      table.lookup now other = table.lookup now key := by
  intro buckets bucket slot links start
  obtain ⟨rfl, rfl, stands, positive, slots⟩ := slots_inside_of_openAt was opened
  have some : 1 ≤ buckets := (Nat.zero_le _).trans_lt (toNat_bucketOf_lt positive key)
  have found := result_lookup_eq still positive slots key
  refine ⟨stands, some, slots, fun empty => ?_, fun filled inside => ?_, fun filled outside => ?_,
    fun other same => lookup_congr table now same⟩
  · exact found.trans (if_pos empty)
  · refine ⟨_, found.trans ((if_neg filled.ne').trans (if_pos inside)), ?_⟩
    rw [List.map_map]
    exact List.map_congr_left fun j _ => toNat_ofNat_field64 file (start + 8 * j)
  · exact found.trans ((if_neg filled.ne').trans (if_neg (Nat.not_le.mpr outside)))

/-- A disk with one file, which is a table of two buckets. The chain of the first one runs through the
table itself, that of the second one ends a byte behind the end of the file. -/
def knottedDisk : Disk :=
  let header : TableHeader := ⟨2⟩
  let slots : List Slot := [⟨2, 0⟩, ⟨1, 21⟩]
  { objects := #[⟨(Record.encode header ++ slots.flatMap Record.encode).toByteArray, 0⟩]
    folders := []
    names := [(["knot"], 0)] }

theorem lookup_reads_chain_knotted :
    let source : Source := ⟨"knot", knottedDisk.stamp (.file 0), .mapped⟩
    ∃ table, openAt source knottedDisk 0 = .ok table ∧
      (∃ offsets, (table.lookup knottedDisk 4).result = .ok offsets ∧
        offsets.map UInt64.toNat = [0x200000002, 0]) ∧
      (table.lookup knottedDisk (2 ^ 64 - 1)).result =
        .error (.corruption (.chainOverrun "knot" 1 1 21)) := by
  intro source
  have whole : source.Covers knottedDisk (knottedDisk.bytes (.file 0)).data.toList :=
    Source.covers_stamp "knot" .mapped rfl (by decide +kernel)
  have opened : openAt source knottedDisk 0 = .ok ⟨source, 0, 2⟩ := by decide +kernel
  obtain ⟨-, -, -, -, links, -⟩ := lookup_reads_chain whole opened whole 4
  obtain ⟨-, -, -, -, -, overrun, -⟩ := lookup_reads_chain whole opened whole (2 ^ 64 - 1)
  refine ⟨_, opened, ?_, ?_⟩
  · obtain ⟨offsets, found, places⟩ := links (by decide +kernel) (by decide +kernel)
    exact ⟨offsets, found, places.trans (by decide +kernel)⟩
  · exact (overrun (by decide +kernel) (by decide +kernel)).trans (by decide +kernel)

end ChainTable

/-- How a search goes through the elements of a chain: it passes over some of them, and any other one ends
it with a verdict. -/
structure SearchedBy {γ : Type} (search : List Offset → Except Fault (Option γ)) (passed : Offset → Prop)
    (verdict : Offset → Except Fault γ) : Prop where
  nowhere : search [] = .ok none
  passes : ∀ offset rest, passed offset → search (offset :: rest) = search rest
  decides : ∀ offset rest, ¬passed offset → search (offset :: rest) = (verdict offset).map some

namespace SearchedBy

variable {γ : Type} {search : List Offset → Except Fault (Option γ)} {passed : Offset → Prop}
  {verdict : Offset → Except Fault γ}

theorem append_of_passed (h : SearchedBy search passed verdict) {front : List Offset}
    (all : ∀ offset ∈ front, passed offset) (rest : List Offset) :
    search (front ++ rest) = search rest := by
  induction front with
  | nil => rfl
  | cons offset front ih =>
    rw [List.cons_append, h.passes _ _ (all offset (List.mem_cons_self ..))]
    exact ih fun other mem => all other (List.mem_cons_of_mem _ mem)

theorem append_of_decided (h : SearchedBy search passed verdict) {front : List Offset}
    (all : ∀ offset ∈ front, passed offset) {offset : Offset} (decided : ¬passed offset)
    (back : List Offset) : search (front ++ offset :: back) = (verdict offset).map some := by
  rw [h.append_of_passed all, h.decides _ _ decided]

theorem eq_none_iff (h : SearchedBy search passed verdict) {offsets : List Offset} :
    search offsets = .ok none ↔ ∀ offset ∈ offsets, passed offset := by
  induction offsets with
  | nil => simp [h.nowhere]
  | cons offset rest ih =>
    rw [List.forall_mem_cons, ← ih]
    by_cases skipped : passed offset
    · rw [h.passes _ _ skipped, and_iff_right skipped]
    · rw [h.decides _ _ skipped]
      cases verdict offset <;> simp [Except.map, skipped]

end SearchedBy

end InvertedIndex
