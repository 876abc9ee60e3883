import UpdateArtifact.Manifest
import UpdateArtifact.Proofs.Tar.Paths

/-!
# Names of entries

The number in a payload's names determines its index, and no payload is named
like one of the files before the payloads.
-/

namespace UpdateArtifact

theorem toList_fourDigits (index : Nat) :
    (fourDigits index).toList =
      List.replicate (4 - (Nat.toDigits 10 index).length) '0' ++ Nat.toDigits 10 index := by
  simp [fourDigits, Decimal.numeral]

theorem ofDigitChars_fourDigits (index : Nat) :
    Nat.ofDigitChars 10 (fourDigits index).toList 0 = index := by
  rw [toList_fourDigits, Nat.ofDigitChars_append, Nat.ofDigitChars_replicate_zero,
    Nat.mul_zero, Nat.ofDigitChars_toDigits (by decide) (by decide)]

theorem fourDigits_injective : Function.Injective fourDigits := by
  intro left right same
  rw [← ofDigitChars_fourDigits left, same, ofDigitChars_fourDigits right]

theorem isDigit_of_mem_fourDigits {index : Nat} {character : Char}
    (member : character ∈ (fourDigits index).toList) : character.isDigit = true := by
  rw [toList_fourDigits, List.mem_append] at member
  rcases member with filled | digit
  · rw [List.eq_of_mem_replicate filled]
    decide
  · exact Nat.isDigit_of_mem_toDigits (by decide) (by decide) digit

namespace PayloadEntry

theorem toList_entryName (entry : PayloadEntry) :
    entry.entryName.toList =
      "data/".toList ++ ((fourDigits entry.index).toList ++ '/' :: entry.basename.toList) := by
  simp [entryName, directory]

theorem toList_archiveName (entry : PayloadEntry) :
    entry.archiveName.toList =
      "data".toList ++ '/' :: ((fourDigits entry.index).toList ++ ".tar.gz".toList) := by
  simp [archiveName, directory]

theorem entryName_ne (entry : PayloadEntry) {name : String}
    (outside : ¬ "data/".toList <+: name.toList) : entry.entryName ≠ name := by
  rintro rfl
  rw [toList_entryName] at outside
  exact outside (List.prefix_append _ _)

theorem plain_archiveName (entry : PayloadEntry) : Tar.Path.Plain entry.archiveName := by
  have noSlash : '/' ∉ (fourDigits entry.index).toList ++ ".tar.gz".toList := by
    rw [List.mem_append, not_or]
    exact ⟨fun member => absurd (isDigit_of_mem_fourDigits member) (by decide), by decide⟩
  intro component member
  rw [toList_archiveName, pieces_append_cons, pieces_of_not_mem noSlash,
    pieces_of_not_mem (by decide : '/' ∉ "data".toList)] at member
  have long : ∀ start : List Char, start ++ ".tar.gz".toList ≠ [] ∧
      start ++ ".tar.gz".toList ≠ Tar.Path.here := by
    intro start
    constructor
    · simp
    · intro same
      have length := congrArg List.length same
      simp [Tar.Path.here] at length
  simp only [List.cons_append, List.nil_append, List.mem_cons, List.not_mem_nil, or_false]
    at member
  rcases member with rfl | rfl
  · decide
  · exact long _

end PayloadEntry

namespace Manifest

theorem nodup_order {entries : List PayloadEntry}
    (distinct : (entries.map PayloadEntry.entryName).Nodup) :
    (order (entries.map PayloadEntry.entryName)).Nodup := by
  rw [order, List.nodup_append]
  refine ⟨(List.reverse_perm _).nodup_iff.mpr distinct, by decide, ?_⟩
  intro name payload other fixed same
  obtain ⟨entry, _, rfl⟩ := List.mem_map.mp (List.mem_reverse.mp payload)
  simp only [List.mem_cons, List.not_mem_nil, or_false] at fixed
  rcases fixed with rfl | rfl
  · exact entry.entryName_ne (by decide) same
  · exact entry.entryName_ne (by decide) same

end Manifest

end UpdateArtifact
