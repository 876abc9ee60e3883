import UpdateArtifact.Bytes

/-!
# Numbers in tar headers

A number is written as octal digits.  A size too large for its eleven digits is
written in base 256 instead, marked by the top bit of the first byte.
-/

namespace UpdateArtifact

namespace Tar

namespace Numeral

/-- The lowest `width` octal digits of a number, as text. -/
def octal : Nat → Nat → Bytes
  | 0, _ => []
  | width + 1, value => octal width (value / 8) ++ [UInt8.ofNat (48 + value % 8)]

def ofOctal (digits : Bytes) : Nat :=
  digits.foldl (fun value digit => value * 8 + (digit.toNat - 48)) 0

def isOctal (byte : UInt8) : Bool :=
  48 ≤ byte && byte ≤ 55

/-- The first size that eleven octal digits cannot hold. -/
def sizeLimit : Nat := 0x200000000

def size (value : Nat) : Bytes :=
  if value < sizeLimit then octal 11 value ++ [0]
  else 0x80 :: Bytes.zeros 3 ++ Bytes.bigEndian 8 value

/-- The blank characters in UTF-8, those of Unicode's `White_Space`. -/
def blanks : List Bytes :=
  ['\t', '\n', '\x0b', '\x0c', '\r', ' ', '\u0085', '\u00a0', '\u1680', '\u2000', '\u2001',
    '\u2002', '\u2003', '\u2004', '\u2005', '\u2006', '\u2007', '\u2008', '\u2009', '\u200a',
    '\u2028', '\u2029', '\u202f', '\u205f', '\u3000'].map String.utf8EncodeChar

/-- Removes leading occurrences of the given words, at most `fuel` of them. -/
def strip (words : List Bytes) : Nat → Bytes → Bytes
  | 0, text => text
  | fuel + 1, text =>
      match words.find? (·.isPrefixOf text) with
      | some word => strip words fuel (text.drop word.length)
      | none => text

def trim (text : Bytes) : Bytes :=
  let front := strip blanks text.length text
  (strip (blanks.map List.reverse) front.length front.reverse).reverse

/-- Reads the octal digits of a field up to its first zero byte.  Blanks around
them and a plus sign before them are allowed. -/
def readOctal? (field : Bytes) : Option Nat :=
  let text := trim (field.takeWhile (· ≠ 0))
  let digits := if text.head? = some 43 then text.drop 1 else text
  if digits ≠ [] ∧ digits.all isOctal then some (ofOctal digits) else none

/-- The bound of positions and sizes, which are words of 64 bits. -/
def wordLimit : Nat := 0x10000000000000000

def ofDecimal (digits : Bytes) : Nat :=
  digits.foldl (fun value digit => value * 10 + (digit.toNat - 48)) 0

/-- Reads a text of decimal digits, which a plus sign may precede. -/
def readDecimal? (text : Bytes) : Option Nat :=
  let digits := if text.head? = some 43 then text.drop 1 else text
  if digits ≠ [] ∧ digits.all (fun byte => 48 ≤ byte && byte ≤ 57) ∧
      ofDecimal digits < wordLimit then some (ofDecimal digits) else none

def readSize? (field : Bytes) : Option Nat :=
  match field with
  | [] => none
  | mark :: _ =>
      if 128 ≤ mark then some (Bytes.ofBigEndian (field.drop 4)) else readOctal? field

@[simp] theorem length_octal (width value : Nat) : (octal width value).length = width := by
  induction width generalizing value with
  | zero => rfl
  | succ width ih => simp [octal, ih]

@[simp] theorem length_size (value : Nat) : (size value).length = 12 := by
  unfold size
  split <;> simp

end Numeral

end Tar

end UpdateArtifact
