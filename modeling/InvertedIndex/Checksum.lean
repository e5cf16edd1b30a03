import InvertedIndex.Hash.Crc32
import InvertedIndex.Source

set_option autoImplicit false
set_option relaxedAutoImplicit false

namespace InvertedIndex

def checksumChunk : UInt64 := 65536

namespace Source

/-- The length of the chunk that starts at an offset: the rest of the source, if that is shorter. -/
def chunkLength (source : Source) (chunk : UInt64) (offset : Offset) : UInt64 :=
  if source.length - offset < chunk then source.length - offset else chunk

def chunkCount (source : Source) (chunk : UInt64) (offset : Offset) : Nat :=
  (source.length.toNat - offset.toNat + (chunk.toNat - 1)) / chunk.toNat

def foldChunks (source : Source) (disk : Disk) (chunk : UInt64) :
    Nat → Offset → UInt32 → Except Fault UInt32
  | 0, _, remainder => .ok remainder
  | count + 1, offset, remainder => do
    let length := source.chunkLength chunk offset
    let bytes ← source.read disk offset length
    source.foldChunks disk chunk count (offset + length)
      (Crc32.update remainder bytes.data.toList)

/-- The checksum of everything after the file header, taken in chunks of some length. -/
def checksumBy (source : Source) (disk : Disk) (chunk : UInt64) : Except Fault UInt32 := do
  let start := (Record.size FileHeader).toUInt64
  let remainder ← source.foldChunks disk chunk (source.chunkCount chunk start) start Crc32.start
  pure (Crc32.finish remainder)

def checksum (source : Source) (disk : Disk) : Except Fault UInt32 :=
  source.checksumBy disk checksumChunk

end Source

end InvertedIndex
