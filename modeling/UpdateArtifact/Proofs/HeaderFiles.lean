import UpdateArtifact.Proofs.Reading

/-!
# Reading the header archive

The files of the header archive have names that a reader takes as they are, so that the
files come back from its compressed form.
-/

namespace UpdateArtifact

theorem ScriptState.path_injective : Function.Injective ScriptState.path := by
  intro left right same
  have names : left.name = right.name := by
    simpa [path] using same
  have found := ofName?_name left
  rw [names, ofName?_name] at found
  exact (Option.some.inj found).symm

theorem ScriptState.plain_path (state : ScriptState) : Tar.Path.Plain state.path := by
  cases state <;> decide

theorem PayloadEntry.plain_headerFile (entry : PayloadEntry) {name : String}
    (plain : Tar.Path.Plain name) : Tar.Path.Plain (entry.headerDirectory ++ "/" ++ name) := by
  have characters : (entry.headerDirectory ++ "/" ++ name).toList =
      "headers".toList ++ '/' :: ((fourDigits entry.index).toList ++ '/' :: name.toList) := by
    simp [headerDirectory]
  have noSlash : '/' ∉ (fourDigits entry.index).toList :=
    fun member => absurd (isDigit_of_mem_fourDigits member) (by decide)
  intro component member
  rw [characters, pieces_append_cons, pieces_append_cons, pieces_of_not_mem noSlash,
    pieces_of_not_mem (by decide : '/' ∉ "headers".toList)] at member
  simp only [List.cons_append, List.nil_append, List.mem_cons] at member
  rcases member with rfl | rfl | inName
  · decide
  · constructor
    · rw [toList_fourDigits]
      exact List.append_ne_nil_of_right_ne_nil _ Nat.toDigits_ne_nil
    · intro dot
      have digit : '.' ∈ (fourDigits entry.index).toList := by
        rw [dot]
        exact List.mem_singleton.mpr rfl
      exact absurd (isDigit_of_mem_fourDigits digit) (by decide)
  · exact plain component inName

namespace Tar.Container

variable [Deflate]

/-- A compressed archive with some files, and nothing else in it. -/
def Holds (archive : Bytes) (files : List (String × Bytes)) : Prop :=
  ∃ inner, Gzip.decode? archive = some inner ∧
    (inner.length < Numeral.wordLimit →
      unpack? inner = some (files.map fun file => (Bytes.utf8 file.1, file.2)))

theorem Holds.unique {archive : Bytes} {files others : List (String × Bytes)}
    (fits : ∀ inner ∈ Gzip.decode? archive, inner.length < Numeral.wordLimit)
    (holds : Holds archive files) (also : Holds archive others) : files = others := by
  obtain ⟨inner, decoded, unpacked⟩ := holds
  obtain ⟨same, again, unpackedToo⟩ := also
  rw [decoded] at again
  cases again
  have short := fits inner decoded
  have injective : Function.Injective fun file : String × Bytes => (Bytes.utf8 file.1, file.2) := by
    rintro ⟨name, data⟩ ⟨other, content⟩ same
    rw [Prod.mk.injEq] at same
    exact Prod.ext (Bytes.utf8_injective same.1) same.2
  exact List.map_injective_iff.mpr injective
    (Option.some.inj ((unpacked short).symm.trans (unpackedToo short)))

theorem HoldsOnly.holds {archive : Bytes} {name : String} {data : Bytes}
    (only : HoldsOnly archive name data) : Holds archive [(name, data)] := only

end Tar.Container

namespace HeaderArchive

theorem plain_files (header : HeaderArchive) : ∀ file ∈ header.files, Tar.Path.Plain file.1 := by
  intro file member
  simp only [files, List.cons_append, List.mem_cons, List.mem_append, List.mem_map,
    List.mem_flatMap] at member
  rcases member with rfl | ⟨script, _, rfl⟩ | ⟨staged, _, member⟩
  · exact (by decide : Tar.Path.Plain "header-info")
  · exact script.1.plain_path
  · have typeInfo : "/type-info" = "/" ++ "type-info" := by decide
    have metaData : "/meta-data" = "/" ++ "meta-data" := by decide
    rcases member with rfl | rfl | none
    · rw [typeInfo, ← String.append_assoc]
      exact staged.1.plain_headerFile (by decide)
    · rw [metaData, ← String.append_assoc]
      exact staged.1.plain_headerFile (by decide)
    · cases none

theorem holds_of_assemble [Deflate] {header : HeaderArchive} {options : BuildOptions}
    {bytes : Bytes} (distinct : (header.payloads.map fun (entry, _) => entry.entryName).Nodup)
    (assembled : header.assemble options = .ok bytes) :
    Tar.Container.Holds bytes header.files := by
  rw [assemble_eq options distinct] at assembled
  cases encoded : Tar.Container.encodeAll options.ownerName header.files with
  | error fault =>
      rw [encoded] at assembled
      contradiction
  | ok written =>
      rw [encoded] at assembled
      cases assembled
      refine ⟨_, Tar.Container.decode?_compress _ _, ?_⟩
      rw [Tar.Container.close_extend_start]
      intro fits
      rw [List.length_append] at fits
      exact Tar.unpack?_of_encodeAll header.plain_files encoded (by omega)

end HeaderArchive

end UpdateArtifact
