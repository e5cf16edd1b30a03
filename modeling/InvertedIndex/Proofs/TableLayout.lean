import InvertedIndex.Contents.Image
import InvertedIndex.Proofs.Placement

/-!
A table that stands in a file can be opened there, and gives the offsets of the elements whose keys
share a bucket.
-/

set_option autoImplicit false
set_option relaxedAutoImplicit false

namespace InvertedIndex

open Outcome (bind_eq_ok)

namespace ChainTable

variable {source : Source} {disk : Disk} {file : List UInt8} {base : Nat} {bucketCount : UInt32}
  {elements : List (UInt64 × Nat)}

def sameBucket (bucketCount : UInt32) (key other : UInt64) : Bool :=
  other.toNat % bucketCount.toNat = key.toNat % bucketCount.toNat

/-- The elements whose keys belong to the bucket of a key. -/
def sharing (bucketCount : UInt32) (elements : List (UInt64 × Nat)) (key : UInt64) :
    List (UInt64 × Nat) :=
  elements.filter fun element => sameBucket bucketCount key element.1

theorem length_slotsFrom (start : Nat) (chains : List (List Nat)) :
    (slotsFrom start chains).length = chains.length := by
  induction chains generalizing start with
  | nil => rfl
  | cons chain rest ih => rw [slotsFrom, List.length_cons, ih, List.length_cons]

theorem slotsFrom_append (start : Nat) (front back : List (List Nat)) :
    slotsFrom start (front ++ back) =
      slotsFrom start front ++
        slotsFrom (start + front.flatten.length * Record.size Link) back := by
  induction front generalizing start with
  | nil => simp [slotsFrom]
  | cons chain rest ih =>
    have next : start + (chain :: rest).flatten.length * Record.size Link =
        start + chain.length * Record.size Link + rest.flatten.length * Record.size Link := by
      rw [List.flatten_cons, List.length_append, Nat.add_mul, Nat.add_assoc]
    rw [List.cons_append, slotsFrom, ih, slotsFrom, next, List.cons_append]

theorem length_chainsOf (count : Nat) (elements : List (UInt64 × Nat)) :
    (chainsOf count elements).length = count := by
  rw [chainsOf, List.length_map, List.length_range]

theorem chainsOf_eq (elements : List (UInt64 × Nat)) (positive : bucketCount ≠ 0) (key : UInt64) :
    ∃ front back, chainsOf bucketCount.toNat elements =
        front ++ (sharing bucketCount elements key).map Prod.snd :: back ∧
      front.length = key.toNat % bucketCount.toNat := by
  have count : 0 < bucketCount.toNat := by
    apply Nat.pos_of_ne_zero
    intro zero
    exact positive (UInt32.toNat_inj.mp zero)
  let chains := chainsOf bucketCount.toNat elements
  let bucket := key.toNat % bucketCount.toNat
  have inside : bucket < chains.length := by
    rw [length_chainsOf]
    exact Nat.mod_lt _ count
  have chain : chains[bucket] = (sharing bucketCount elements key).map Prod.snd := by
    simp only [chains, chainsOf, List.getElem_map, List.getElem_range, sharing, sameBucket, bucket]
  refine ⟨chains.take bucket, chains.drop (bucket + 1), ?_, ?_⟩
  · rw [← chain, List.getElem_cons_drop, List.take_append_drop]
  · rw [List.length_take]
    omega

theorem parts_standAt (there : StandsAt file base (image base bucketCount elements)) :
    let chains := chainsOf bucketCount.toNat elements
    let start := base + Record.size TableHeader + bucketCount.toNat * Record.size Slot
    StandsAt file base (Record.encode (⟨bucketCount⟩ : TableHeader)) ∧
      StandsAt file (base + Record.size TableHeader)
        ((slotsFrom start chains).flatMap Record.encode) ∧
      StandsAt file start
        ((chains.flatten.map fun offset => (⟨offset.toUInt64⟩ : Link)).flatMap Record.encode) := by
  intro chains start
  have header := there.left.left
  have slots := there.left.right
  have links := there.right
  rw [LawfulRecord.length_encode] at slots
  rw [List.length_append, LawfulRecord.length_encode, length_flatMap_encode, length_slotsFrom,
    length_chainsOf, ← Nat.add_assoc] at links
  refine ⟨header, slots, ?_⟩
  rw [List.flatMap_map]
  exact links

theorem bucketOf_eq (table : ChainTable) (key : UInt64) :
    table.bucketOf key = (key.toNat % table.bucketCount.toNat).toUInt64 :=
  (toUInt64_of_toNat (toNat_bucketOf table key)).symm

theorem openAt_image (h : source.Holds disk file)
    (there : StandsAt file base (image base bucketCount elements)) (positive : bucketCount ≠ 0) :
    openAt source disk base.toUInt64 = .ok ⟨source, base.toUInt64, bucketCount⟩ := by
  obtain ⟨header, slots, -⟩ := parts_standAt there
  have inside := slots.length_le
  rw [length_flatMap_encode, length_slotsFrom, length_chainsOf] at inside
  have start : base.toUInt64 + (Record.size TableHeader).toUInt64 =
      (base + Record.size TableHeader).toUInt64 := (UInt64.ofNat_add _ _).symm
  have room : bucketCount.toUInt64 * (Record.size Slot).toUInt64 =
      (bucketCount.toNat * Record.size Slot).toUInt64 := by
    rw [Nat.toUInt64_eq, Nat.toUInt64_eq, UInt64.ofNat_mul, UInt64.ofNat_uInt32ToNat]
  refine bind_eq_ok.mpr ⟨_, h.fetch header, ?_⟩
  simp only [if_neg positive]
  rw [start, room]
  exact bind_eq_ok.mpr ⟨(), h.ensureExtent inside, rfl⟩

theorem chain_of_standsAt (h : source.Holds disk file) (table : ChainTable)
    (same : table.source = source) {start : Nat} {offsets : List Nat} (bucket : UInt64)
    (short : offsets.length < 2 ^ 32)
    (there : StandsAt file start
      ((offsets.map fun offset => (⟨offset.toUInt64⟩ : Link)).flatMap Record.encode)) :
    table.chain disk bucket ⟨offsets.length.toUInt32, start.toUInt64⟩ =
      .ok (offsets.map Nat.toUInt64) := by
  have count : offsets.length.toUInt32.toNat = offsets.length := Nat.mod_eq_of_lt short
  unfold chain
  by_cases empty : offsets.length.toUInt32 = 0
  · have none : offsets = [] := by
      rw [empty] at count
      exact List.length_eq_zero_iff.mp count.symm
    rw [if_pos empty, none]
    rfl
  · have inside := there.length_le
    rw [length_flatMap_encode, List.length_map] at inside
    have room : offsets.length.toUInt32.toUInt64 * (Record.size Link).toUInt64 =
        (offsets.length * Record.size Link).toUInt64 := by
      rw [← UInt64.ofNat_uInt32ToNat, count, Nat.toUInt64_eq, Nat.toUInt64_eq, UInt64.ofNat_mul]
    have links := h.fetchRun there
    rw [List.length_map] at links
    rw [if_neg empty, same, room, h.ensureExtent inside, count, links]
    show Except.ok _ = Except.ok _
    rw [List.map_map]
    rfl

theorem lookup_image (h : source.Holds disk file)
    (there : StandsAt file base (image base bucketCount elements)) (positive : bucketCount ≠ 0)
    (short : ∀ chain ∈ chainsOf bucketCount.toNat elements, chain.length < 2 ^ 32) (key : UInt64) :
    ((⟨source, base.toUInt64, bucketCount⟩ : ChainTable).lookup disk key).result =
      .ok ((sharing bucketCount elements key).map fun element => element.2.toUInt64) := by
  let table : ChainTable := ⟨source, base.toUInt64, bucketCount⟩
  obtain ⟨front, back, split, before⟩ := chainsOf_eq elements positive key
  obtain ⟨-, slots, links⟩ := parts_standAt there
  let offsets := (sharing bucketCount elements key).map Prod.snd
  let start := base + Record.size TableHeader + bucketCount.toNat * Record.size Slot +
    front.flatten.length * Record.size Link
  have slot : source.fetch Slot disk (table.slotAt (table.bucketOf key)) =
      .ok ⟨offsets.length.toUInt32, start.toUInt64⟩ := by
    rw [split, slotsFrom_append, slotsFrom] at slots
    have there := h.fetch slots.record
    rw [length_slotsFrom, before] at there
    have place : table.slotAt (table.bucketOf key) =
        (base + Record.size TableHeader +
          key.toNat % bucketCount.toNat * Record.size Slot).toUInt64 := by
      rw [bucketOf_eq, slotAt]
      simp only [Nat.toUInt64_eq, UInt64.ofNat_add, UInt64.ofNat_mul, table]
    rw [place, there]
  have chain : table.chain disk (table.bucketOf key) ⟨offsets.length.toUInt32, start.toUInt64⟩ =
      .ok (offsets.map Nat.toUInt64) := by
    rw [split, List.flatten_append, List.flatten_cons, List.map_append, List.map_append,
      ← List.append_assoc] at links
    have there := links.records
    rw [List.length_map] at there
    apply chain_of_standsAt h table rfl _ _ there
    apply short
    rw [split]
    simp
  show (table.lookup disk key).result = _
  simp only [lookup, Logged.result_bind, Logged.result_lift, Logged.result_report]
  rw [show table.source = source from rfl, slot]
  show table.chain disk (table.bucketOf key) _ = _
  rw [chain, List.map_map]
  rfl

end ChainTable

end InvertedIndex
