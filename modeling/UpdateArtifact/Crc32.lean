import UpdateArtifact.Bytes

/-!
# CRC-32

The checksum of gzip streams: the remainder of the bytes, taken as a polynomial
with the lowest bit of each byte first, on division by the IEEE polynomial.
-/

namespace UpdateArtifact

namespace Crc32

/-- The IEEE polynomial, lowest bit first. -/
def polynomial : UInt32 := 0xedb88320

/-- Shifts one bit out of the remainder. -/
def shift (remainder : UInt32) : UInt32 :=
  if remainder &&& 1 = 1 then (remainder >>> 1) ^^^ polynomial else remainder >>> 1

def step (remainder : UInt32) (byte : UInt8) : UInt32 :=
  Nat.repeat shift 8 (remainder ^^^ byte.toUInt32)

def ofBytes (data : Bytes) : UInt32 :=
  ~~~ (data.foldl step (~~~ 0))

end Crc32

end UpdateArtifact
