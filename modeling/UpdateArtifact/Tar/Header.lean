import UpdateArtifact.Tar.Numeral

/-!
# Tar headers

A header is one block of 512 bytes in the GNU format.  All headers are fixed
but for the name, the size, the type and the owner: mode 0644, user and group 0
and modification time 0, so that equal entries have equal headers.
-/

namespace UpdateArtifact

namespace Tar

def blockSize : Nat := 512

/-- The number of bytes that fill a length up to whole blocks. -/
def gap (length : Nat) : Nat :=
  (blockSize - length % blockSize) % blockSize

inductive EntryType where
  | file
  /-- The path of the next entry. -/
  | longName
  deriving DecidableEq

def EntryType.code : EntryType → UInt8
  | .file => 48
  | .longName => 76

/-- The parts of a header that vary. -/
structure Header where
  name : Bytes
  size : Nat
  type : EntryType
  /-- The user and group name. -/
  owner : Bytes
  deriving DecidableEq

namespace Header

def sum (bytes : Bytes) : Nat :=
  bytes.foldl (fun total byte => total + byte.toNat) 0

/-- The format and version marks of GNU headers. -/
def gnuMagic : Bytes := Bytes.utf8 "ustar  \x00"

/-- The format and version marks of POSIX headers. -/
def posixMagic : Bytes := Bytes.utf8 "ustar\x0000"

def front (header : Header) : Bytes :=
  Bytes.field 100 header.name ++ (Numeral.octal 7 0o644 ++ [0]) ++
    (Numeral.octal 7 0 ++ [0]) ++ (Numeral.octal 7 0 ++ [0]) ++
    Numeral.size header.size ++ (Numeral.octal 11 0 ++ [0])

def back (header : Header) : Bytes :=
  [header.type.code] ++ Bytes.zeros 100 ++ Bytes.field 8 gnuMagic ++
    Bytes.field 32 header.owner ++ Bytes.field 32 header.owner ++ Bytes.zeros 183

/-- The checksum of a header from the fields around it: their sum, with the
checksum field itself counted as eight spaces. -/
def checksum (front back : Bytes) : Nat :=
  sum front + 8 * 32 + sum back

def encode (header : Header) : Bytes :=
  header.front ++ (Numeral.octal 7 (checksum header.front header.back) ++ [0]) ++ header.back

@[simp] theorem length_front (header : Header) : header.front.length = 148 := by
  simp [front]

@[simp] theorem length_back (header : Header) : header.back.length = 356 := by
  simp [back]

@[simp] theorem length_encode (header : Header) : header.encode.length = blockSize := by
  simp [encode, blockSize]

end Header

end Tar

end UpdateArtifact
