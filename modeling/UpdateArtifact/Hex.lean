import UpdateArtifact.Bytes

/-!
# Hexadecimal text

Two lowercase digits a byte, the high half first.  A digit is read in either case.
-/

namespace UpdateArtifact

namespace Hex

/-- The lowercase digit of a number below sixteen. -/
def digit (value : Nat) : Char :=
  if value < 10 then Char.ofNat (48 + value) else Char.ofNat (87 + value)

/-- The value of a digit of either case. -/
def digitValue? (character : Char) : Option Nat :=
  let code := character.toNat
  if 48 ≤ code ∧ code ≤ 57 then some (code - 48)
  else if 97 ≤ code ∧ code ≤ 102 then some (code - 87)
  else if 65 ≤ code ∧ code ≤ 70 then some (code - 55)
  else none

/-- The two digits of each byte in turn. -/
def encode (bytes : Bytes) : List Char :=
  bytes.flatMap fun byte => [digit (byte.toNat / 16), digit (byte.toNat % 16)]

theorem digitValue?_digit {value : Nat} (small : value < 16) :
    digitValue? (digit value) = some value := by
  have all : ∀ value < 16, digitValue? (digit value) = some value := by decide
  exact all value small

end Hex

end UpdateArtifact
