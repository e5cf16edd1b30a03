/-!
The CRC-32 of IEEE 802.3, lowest bit first, with the remainder complemented before and after.
-/

set_option autoImplicit false
set_option relaxedAutoImplicit false

namespace InvertedIndex.Crc32

/-- The generator polynomial, lowest power in the highest bit. -/
def polynomial : UInt32 := 0xEDB88320

def bitStep (remainder : UInt32) : UInt32 :=
  if remainder &&& 1 = 1 then (remainder >>> 1) ^^^ polynomial else remainder >>> 1

def byteStep (remainder : UInt32) (byte : UInt8) : UInt32 :=
  let r := bitStep (bitStep (bitStep (bitStep (remainder ^^^ byte.toUInt32))))
  bitStep (bitStep (bitStep (bitStep r)))

def start : UInt32 := 0xFFFFFFFF

def update (remainder : UInt32) (bytes : List UInt8) : UInt32 :=
  bytes.foldl byteStep remainder

def finish (remainder : UInt32) : UInt32 :=
  remainder ^^^ 0xFFFFFFFF

def digest (bytes : List UInt8) : UInt32 :=
  finish (update start bytes)

/-- The digest of the nine characters `123456789`, by which kinds of CRC-32 are told apart. -/
example : digest [0x31, 0x32, 0x33, 0x34, 0x35, 0x36, 0x37, 0x38, 0x39] = 0xCBF43926 := by
  decide +kernel

theorem update_append (remainder : UInt32) (front back : List UInt8) :
    update remainder (front ++ back) = update (update remainder front) back :=
  List.foldl_append

end InvertedIndex.Crc32
