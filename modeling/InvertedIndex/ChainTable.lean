import InvertedIndex.Logged
import InvertedIndex.Source

/-!
A chained hash table in a file: the remainder of a key modulo the number of buckets picks a slot,
and the slot says where the chain of its elements is.
-/

set_option autoImplicit false
set_option relaxedAutoImplicit false

namespace InvertedIndex

/-- A hash table that starts at `base`. -/
structure ChainTable where
  source : Source
  base : Offset
  bucketCount : UInt32
  deriving DecidableEq, Repr

namespace ChainTable

/-- Reads the header of a table. A table has at least one bucket, and all its slots lie inside the
source. -/
def openAt (source : Source) (disk : Disk) (base : Offset) : Except Fault ChainTable := do
  let header ← source.fetch TableHeader disk base
  if header.bucketCount = 0 then
    throw (.corruption (.zeroBuckets source.path base))
  source.ensureExtent (base + (Record.size TableHeader).toUInt64)
    (header.bucketCount.toUInt64 * (Record.size Slot).toUInt64)
  pure ⟨source, base, header.bucketCount⟩

def bucketOf (table : ChainTable) (key : UInt64) : UInt64 :=
  key % table.bucketCount.toUInt64

theorem toNat_bucketOf (table : ChainTable) (key : UInt64) :
    (table.bucketOf key).toNat = key.toNat % table.bucketCount.toNat := by
  rw [bucketOf, UInt64.toNat_mod, UInt32.toNat_toUInt64]

theorem toNat_bucketOf_lt {table : ChainTable} (positive : table.bucketCount ≠ 0) (key : UInt64) :
    (table.bucketOf key).toNat < table.bucketCount.toNat := by
  rw [toNat_bucketOf]
  apply Nat.mod_lt
  exact Nat.pos_of_ne_zero fun zero => positive (UInt32.toNat_inj.mp zero)

def slotAt (table : ChainTable) (bucket : UInt64) : Offset :=
  table.base + (Record.size TableHeader).toUInt64 +
    bucket * (Record.size Slot).toUInt64

/-- Reads the chain of a bucket. An empty chain is nowhere, so its offset does not matter. -/
def chain (table : ChainTable) (disk : Disk) (bucket : UInt64) (slot : Slot) :
    Except Fault (List Offset) :=
  if slot.chainLength = 0 then .ok []
  else
    match table.source.ensureExtent slot.chainOffset
        (slot.chainLength.toUInt64 * (Record.size Link).toUInt64) with
    | .error _ =>
      .error (.corruption
        (.chainOverrun table.source.path bucket slot.chainLength slot.chainOffset))
    | .ok () => do
      let links ← table.source.fetchRun Link disk slot.chainOffset slot.chainLength.toNat
      pure (links.map Link.elementOffset)

/-- Where the elements are whose keys share a bucket with a key, in the order of the chain. -/
def lookup (table : ChainTable) (disk : Disk) (key : UInt64) : Logged (List Offset) := do
  let bucket := table.bucketOf key
  let slot ← table.source.fetch Slot disk (table.slotAt bucket)
  Logged.report (.bucketVisited bucket table.base slot)
  table.chain disk bucket slot

end ChainTable

end InvertedIndex
