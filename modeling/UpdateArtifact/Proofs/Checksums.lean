import UpdateArtifact.Checksum
import UpdateArtifact.Proofs.Characters

/-!
# The bytes of a checksum's text

The digits of a checksum are single bytes, so that the text is as wide in bytes
as in characters and holds nothing that ends a line.
-/

namespace UpdateArtifact

namespace Hex

def IsLower (byte : UInt8) : Prop :=
  (48 ≤ byte ∧ byte ≤ 57) ∨ (97 ≤ byte ∧ byte ≤ 102)

instance : DecidablePred IsLower := by
  intro byte
  unfold IsLower
  infer_instance

theorem utf8EncodeChar_digit {value : Nat} (small : value < 16) :
    ∃ byte, String.utf8EncodeChar (digit value) = [byte] ∧ IsLower byte := by
  have all : ∀ value < 16, ∃ byte ∈ (String.utf8EncodeChar (digit value)),
      String.utf8EncodeChar (digit value) = [byte] ∧ IsLower byte := by
    decide
  obtain ⟨byte, _, single, lower⟩ := all value small
  exact ⟨byte, single, lower⟩

theorem utf8_encode (bytes : Bytes) :
    (Bytes.utf8 (String.ofList (encode bytes))).length = 2 * bytes.length ∧
      ∀ byte ∈ Bytes.utf8 (String.ofList (encode bytes)), IsLower byte := by
  induction bytes with
  | nil => simp [encode, Bytes.utf8]
  | cons first rest ih =>
      have bound := first.toNat_lt
      obtain ⟨high, highSingle, highLower⟩ :=
        utf8EncodeChar_digit (show first.toNat / 16 < 16 by omega)
      obtain ⟨low, lowSingle, lowLower⟩ :=
        utf8EncodeChar_digit (show first.toNat % 16 < 16 by omega)
      have step : Bytes.utf8 (String.ofList (encode (first :: rest))) =
          high :: low :: Bytes.utf8 (String.ofList (encode rest)) := by
        simp [Bytes.utf8, encode, highSingle, lowSingle]
      obtain ⟨length, lower⟩ := ih
      rw [step]
      constructor
      · simp only [List.length_cons, length]
        omega
      · intro byte member
        rcases List.mem_cons.mp member with rfl | member
        · exact highLower
        · rcases List.mem_cons.mp member with rfl | member
          · exact lowLower
          · exact lower byte member

end Hex

namespace Checksum

theorem length_utf8_hex (checksum : Checksum) :
    (Bytes.utf8 checksum.hex).length = textWidth := by
  rw [hex, (Hex.utf8_encode checksum.bytes).1, checksum.length_bytes]
  rfl

theorem isLower_of_mem_hex (checksum : Checksum) :
    ∀ byte ∈ Bytes.utf8 checksum.hex, Hex.IsLower byte :=
  (Hex.utf8_encode checksum.bytes).2

end Checksum

end UpdateArtifact
