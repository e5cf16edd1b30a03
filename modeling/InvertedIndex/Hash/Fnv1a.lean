/-!
FNV-1a with 64 bits.
-/

set_option autoImplicit false
set_option relaxedAutoImplicit false

namespace InvertedIndex.Fnv1a

def basis : UInt64 := 0xcbf29ce484222325

def prime : UInt64 := 0x100000001b3

def step (state : UInt64) (byte : UInt8) : UInt64 :=
  (state ^^^ byte.toUInt64) * prime

def digest (bytes : List UInt8) : UInt64 :=
  bytes.foldl step basis

end InvertedIndex.Fnv1a
