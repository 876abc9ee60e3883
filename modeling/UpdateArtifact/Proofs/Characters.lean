import UpdateArtifact.Bytes
import UpdateArtifact.Tar.Path

/-!
# Characters as bytes

A character below 128 is the one byte with its code, and no other character has
such a byte.  What is said of separators and zero bytes in texts therefore holds
of their bytes as well.
-/

namespace UpdateArtifact

namespace Bytes

theorem mem_utf8EncodeChar {byte : UInt8} (ascii : byte.toNat < 128) (character : Char) :
    byte ∈ String.utf8EncodeChar character ↔ character.toNat = byte.toNat := by
  have code : character.toNat = character.val.toNat := rfl
  have low : ∀ value, value < 256 → (byte = UInt8.ofNat value ↔ value = byte.toNat) := by
    intro value small
    rw [← UInt8.toNat_inj, UInt8.toNat_ofNat', Nat.mod_eq_of_lt small, eq_comm]
  unfold String.utf8EncodeChar
  simp only [code]
  split
  · next one =>
      rw [List.mem_singleton, low _ (by omega)]
  · split
    · simp only [List.mem_cons, List.not_mem_nil, or_false]
      rw [low _ (by omega), low _ (by omega)]
      omega
    · split
      · simp only [List.mem_cons, List.not_mem_nil, or_false]
        rw [low _ (by omega), low _ (by omega), low _ (by omega)]
        omega
      · simp only [List.mem_cons, List.not_mem_nil, or_false]
        rw [low _ (by omega), low _ (by omega), low _ (by omega), low _ (by omega)]
        omega

theorem mem_utf8 {byte : UInt8} (ascii : byte.toNat < 128) (text : String) :
    byte ∈ utf8 text ↔ Char.ofNat byte.toNat ∈ text.toList := by
  have valid : byte.toNat.isValidChar := Or.inl (by omega)
  have code : (Char.ofNat byte.toNat).toNat = byte.toNat := by
    rw [Char.ofNat, dif_pos valid]
    rfl
  simp only [utf8, List.mem_flatMap, mem_utf8EncodeChar ascii]
  constructor
  · rintro ⟨character, member, same⟩
    rw [← same, Char.ofNat_toNat]
    exact member
  · intro member
    exact ⟨_, member, code⟩

theorem utf8_injective : Function.Injective utf8 := by
  intro left right same
  apply String.toByteArray_inj.mp
  rw [← String.ofList_toList (s := left), ← String.ofList_toList (s := right),
    String.toByteArray_ofList, String.toByteArray_ofList]
  exact congrArg List.toByteArray same

theorem length_flatMap_utf8EncodeChar (characters : List Char) :
    (characters.flatMap String.utf8EncodeChar).length = Tar.Path.size characters := by
  induction characters with
  | nil => rfl
  | cons character rest ih => simp [Tar.Path.size, ih]

theorem length_utf8 (text : String) : (utf8 text).length = Tar.Path.size text.toList :=
  length_flatMap_utf8EncodeChar text.toList

end Bytes

end UpdateArtifact
