import Mathlib.Data.List.Nodup
import UpdateArtifact.Proofs.Building

/-!
# What a reader finds in an artifact

The entries of an artifact stand in a fixed order under fixed names, whatever
the payloads are called.  Their names come with the payloads only in the
manifest, and in the archives inside.
-/

namespace UpdateArtifact

open Tar (Container)

def archiveNameOf (index : Nat) : String :=
  "data/" ++ fourDigits index ++ ".tar.gz"

def outerNames (count : Nat) : List String :=
  ["version", "manifest", "header.tar.gz"] ++ (List.range count).map archiveNameOf

theorem nodup_outerNames (count : Nat) : (outerNames count).Nodup := by
  have injective : Function.Injective archiveNameOf := by
    intro left right same
    apply fourDigits_injective
    simpa [archiveNameOf] using same
  have outside : ∀ index, ∀ name ∈ ["version", "manifest", "header.tar.gz"],
      archiveNameOf index ≠ name := by
    intro index name fixed same
    have start : "data/".toList <+: name.toList := by
      rw [← same, archiveNameOf]
      simp
    revert start
    simp only [List.mem_cons, List.not_mem_nil, or_false] at fixed
    rcases fixed with rfl | rfl | rfl <;> decide
  rw [outerNames, List.nodup_append]
  refine ⟨by decide, List.Nodup.map injective List.nodup_range, ?_⟩
  intro name fixed other numbered same
  obtain ⟨index, _, rfl⟩ := List.mem_map.mp numbered
  exact outside index name fixed same.symm

namespace Artifact

def lineText (content : Bytes) (name : String) : String :=
  (Checksum.ofBytes content).hex ++ "  " ++ name ++ "\n"

def payloadLine (staged : StagedPayload) (index : Nat) : String :=
  lineText staged.payload.content
    ("data/" ++ fourDigits index ++ "/" ++ staged.entry.basename)

/-- The manifest: the payloads from the last to the first, then the header archive
and the format descriptor. -/
def manifestText (artifact : Artifact) (header : Bytes) : List String :=
  (artifact.payloads.zipIdx.map fun (staged, index) => payloadLine staged index).reverse ++
    [lineText header "header.tar.gz",
      lineText (HeaderArchive.document artifact.version) "version"]

theorem Addressed.index_eq {artifact : Artifact} (addressed : artifact.Addressed) {index : Nat}
    (inRange : index < artifact.payloads.length) :
    artifact.payloads[index].entry.index = index := by
  have same := congrArg (·[index]?) addressed.indices
  simpa [List.getElem?_range inRange, List.getElem?_eq_getElem inRange] using same

private theorem lineWith_eq (content : Bytes) (name : String) :
    Manifest.lineWith (Bytes.utf8 (Checksum.ofBytes content).hex) name =
      Bytes.utf8 (lineText content name) := by
  simp [Manifest.lineWith, lineText]

private theorem payloadLines_eq {artifact : Artifact} (addressed : artifact.Addressed) :
    (artifact.payloads.map fun staged =>
        lineText staged.payload.content staged.entry.entryName) =
      artifact.payloads.zipIdx.map fun (staged, index) => payloadLine staged index := by
  apply List.ext_getElem
  · simp
  · intro index inRange _
    rw [List.length_map] at inRange
    have place := addressed.index_eq inRange
    simp only [List.getElem_map, List.getElem_zipIdx, Nat.zero_add]
    rw [payloadLine, PayloadEntry.entryName, PayloadEntry.directory, place]

theorem encode_lines {artifact : Artifact} (addressed : artifact.Addressed) (header : Bytes) :
    Manifest.encode (artifact.lines header) =
      (artifact.manifestText header).flatMap Bytes.utf8 := by
  rw [manifestText, ← payloadLines_eq addressed, ← List.map_reverse]
  simp only [Manifest.encode, lines, List.flatMap_append, ← List.map_reverse, List.flatMap_map,
    StagedPayload.line, lineWith_eq, List.flatMap_cons, List.flatMap_nil]
  rfl

theorem archiveNames_eq {artifact : Artifact} (addressed : artifact.Addressed) :
    artifact.payloads.map (·.entry.archiveName) =
      (List.range artifact.payloads.length).map archiveNameOf := by
  rw [← addressed.indices, List.map_map]
  rfl

/-- What a reader finds, given the header archive and the archives of the payloads. -/
def contents (artifact : Artifact) (header : Bytes) (archives : List Bytes) :
    List (Bytes × Bytes) :=
  ((outerNames artifact.payloads.length).map Bytes.utf8).zip
    ([HeaderArchive.document artifact.version,
      (artifact.manifestText header).flatMap Bytes.utf8, header] ++ archives)

theorem contents_eq {artifact : Artifact} (addressed : artifact.Addressed) (header : Bytes)
    (archives : List Bytes) :
    ((artifact.outerFiles header archives).map fun file => (Bytes.utf8 file.1, file.2)) =
      artifact.contents header archives := by
  have payloads : (archiveFiles artifact.payloads archives).map
      (fun file => (Bytes.utf8 file.1, file.2)) =
        (((List.range artifact.payloads.length).map archiveNameOf).map Bytes.utf8).zip
          archives := by
    rw [archiveFiles, archiveNames_eq addressed]
    exact List.zip_map_left.symm
  rw [outerFiles, List.map_append, payloads, openingFiles, encode_lines addressed, contents,
    outerNames, List.map_append]
  rfl

theorem plain_outerFiles (artifact : Artifact) (header : Bytes) (archives : List Bytes) :
    ∀ file ∈ artifact.outerFiles header archives, Tar.Path.Plain file.1 := by
  intro file member
  rcases List.mem_append.mp member with opening | payload
  · simp only [openingFiles, List.mem_cons, List.not_mem_nil, or_false] at opening
    rcases opening with rfl | rfl | rfl
    · exact (by decide : Tar.Path.Plain Manifest.versionName)
    · exact (by decide : Tar.Path.Plain Manifest.entryName)
    · exact (by decide : Tar.Path.Plain Manifest.headerName)
  · obtain ⟨name, data⟩ := file
    obtain ⟨staged, _, rfl⟩ := List.mem_map.mp (List.of_mem_zip payload).1
    exact staged.entry.plain_archiveName

variable [Deflate]

/-- A reader finds the entries of the artifact in the archive that was built, and in
the archive of each payload the bytes that were copied. -/
theorem unpack?_of_build {artifact : Artifact} (addressed : artifact.Addressed)
    {archive : Bytes} (built : artifact.build.1 = .ok archive)
    (fits : archive.length < Tar.Numeral.wordLimit) :
    ∃ header archives, artifact.header.assemble artifact.options = .ok header ∧
      Tar.unpack? archive = some (artifact.contents header archives) ∧
      List.Forall₂
        (fun staged inner =>
          Container.HoldsOnly inner staged.entry.basename staged.payload.copied)
        artifact.payloads archives ∧
      ∀ staged ∈ artifact.payloads,
        staged.payload.copied.length = staged.payload.content.length := by
  obtain ⟨header, archives, bytes, assembled, packs, encoded, rfl, whole⟩ :=
    build_ok addressed built fits
  refine ⟨header, archives, assembled, ?_, ?_, whole⟩
  · rw [List.length_append] at fits
    rw [Tar.unpack?_of_encodeAll (artifact.plain_outerFiles header archives) encoded (by omega),
      contents_eq addressed]
  · exact packs.imp fun staged inner packed =>
      Container.holdsOnly_of_packed staged.entry.validName.plain packed

end Artifact

end UpdateArtifact
