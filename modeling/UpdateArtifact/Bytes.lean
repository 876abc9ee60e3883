/-!
# Bytes

Everything that is hashed, compressed or stored in an archive is a finite list
of bytes.  This file holds the few encodings the binary formats share: texts in
UTF-8, fields of a fixed width, and numbers in big- and little-endian order.
-/

namespace UpdateArtifact

abbrev Bytes := List UInt8

namespace Bytes

def utf8 (text : String) : Bytes :=
  text.toList.flatMap String.utf8EncodeChar

def zeros (count : Nat) : Bytes :=
  List.replicate count 0

/-- A field of exactly `width` bytes: the content, cut or filled up with zeros. -/
def field (width : Nat) (content : Bytes) : Bytes :=
  (content ++ zeros width).take width

/-- The `count` bytes that start at a position, as far as they are there. -/
def slice (start count : Nat) (bytes : Bytes) : Bytes :=
  (bytes.drop start).take count

/-- The lowest `width` bytes of a number, most significant byte first. -/
def bigEndian : Nat → Nat → Bytes
  | 0, _ => []
  | width + 1, value => bigEndian width (value / 256) ++ [UInt8.ofNat (value % 256)]

/-- The number whose digits in base 256 are the given bytes, most significant first. -/
def ofBigEndian (bytes : Bytes) : Nat :=
  bytes.foldl (fun value byte => value * 256 + byte.toNat) 0

/-- The lowest `width` bytes of a number, least significant byte first. -/
def littleEndian : Nat → Nat → Bytes
  | 0, _ => []
  | width + 1, value => UInt8.ofNat (value % 256) :: littleEndian width (value / 256)

/-- The number whose digits in base 256 are the given bytes, least significant first. -/
def ofLittleEndian : Bytes → Nat
  | [] => 0
  | byte :: rest => byte.toNat + 256 * ofLittleEndian rest

@[simp] theorem utf8_append (left right : String) :
    utf8 (left ++ right) = utf8 left ++ utf8 right := by
  simp [utf8]

@[simp] theorem length_zeros (count : Nat) : (zeros count).length = count := by
  simp [zeros]

@[simp] theorem length_field (width : Nat) (content : Bytes) :
    (field width content).length = width := by
  simp [field]

@[simp] theorem length_bigEndian (width value : Nat) :
    (bigEndian width value).length = width := by
  induction width generalizing value with
  | zero => rfl
  | succ width ih => simp [bigEndian, ih]

@[simp] theorem length_littleEndian (width value : Nat) :
    (littleEndian width value).length = width := by
  induction width generalizing value with
  | zero => rfl
  | succ width ih => simp [littleEndian, ih]

theorem ofLittleEndian_littleEndian (width value : Nat) :
    ofLittleEndian (littleEndian width value) = value % Nat.pow 256 width := by
  induction width generalizing value with
  | zero => exact (Nat.mod_one value).symm
  | succ width ih =>
      have digit : (UInt8.ofNat (value % 256)).toNat = value % 256 := by
        simp
      have power : Nat.pow 256 (width + 1) = 256 * Nat.pow 256 width := Nat.pow_succ'
      rw [littleEndian, ofLittleEndian, ih, digit, power, Nat.mod_mul]

theorem ofBigEndian_bigEndian (width value : Nat) :
    ofBigEndian (bigEndian width value) = value % Nat.pow 256 width := by
  induction width generalizing value with
  | zero => exact (Nat.mod_one value).symm
  | succ width ih =>
      have digit : (UInt8.ofNat (value % 256)).toNat = value % 256 := by
        simp
      have split : ofBigEndian (bigEndian (width + 1) value) =
          ofBigEndian (bigEndian width (value / 256)) * 256 + value % 256 := by
        simp [bigEndian, ofBigEndian]
      have power : Nat.pow 256 (width + 1) = 256 * Nat.pow 256 width := Nat.pow_succ'
      rw [split, ih, power, Nat.mod_mul]
      omega

end Bytes

end UpdateArtifact
