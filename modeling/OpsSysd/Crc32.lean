import Mathlib.Data.Nat.Notation

/-!
The CRC-32 that zlib computes: the reflected polynomial, all ones at the start
and a final complement. Nothing here is about a particular program.
-/

namespace OpsSysd.Crc32

def polynomial : UInt32 := 0xEDB88320

def shift (c : UInt32) : UInt32 :=
  if c &&& 1 = 1 then (c >>> 1) ^^^ polynomial else c >>> 1

def shifts : ℕ → UInt32 → UInt32
  | 0, c => c
  | n + 1, c => shifts n (shift c)

/-- The register after the bytes. -/
def update : UInt32 → List UInt8 → UInt32
  | c, [] => c
  | c, b :: rest => update (shifts 8 (c ^^^ b.toUInt32)) rest

def crc32 (bytes : List UInt8) : UInt32 := update 0xFFFFFFFF bytes ^^^ 0xFFFFFFFF

/-- The check value of the algorithm. -/
example : crc32 [49, 50, 51, 52, 53, 54, 55, 56, 57] = 0xCBF43926 := by decide +kernel

end OpsSysd.Crc32
