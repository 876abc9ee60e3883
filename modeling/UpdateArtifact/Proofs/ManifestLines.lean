import UpdateArtifact.Proofs.Reading
import UpdateArtifact.Proofs.SinglePayload

/-!
# Reading a manifest line by line

A reader cuts the manifest at its newlines and expects a checksum, two spaces and
a name in every line.  It finds the names that were listed, as long as none of
them holds a newline itself.
-/

namespace UpdateArtifact

namespace Manifest

def newline : UInt8 := 10

/-- The pieces of a text between newlines, without the empty one after the last. -/
def linesOf (text : Bytes) : List Bytes :=
  let all := pieces newline text
  if all.getLast? = some [] then all.dropLast else all

/-- A line with a checksum, two spaces and a name. -/
def IsLine (line name : Bytes) : Prop :=
  ∃ digits, digits.length = Checksum.textWidth ∧ (∀ digit ∈ digits, Hex.IsLower digit) ∧
    line = digits ++ Bytes.utf8 "  " ++ name

def Line.bytes (line : Line) : Bytes :=
  Bytes.utf8 line.checksum.hex ++ Bytes.utf8 "  " ++ Bytes.utf8 line.name

theorem isLine_bytes (line : Line) : IsLine line.bytes (Bytes.utf8 line.name) :=
  ⟨_, line.checksum.length_utf8_hex, line.checksum.isLower_of_mem_hex, rfl⟩

theorem pieces_encode (lines : List Line) :
    pieces newline (encode lines) =
      (lines.flatMap fun line => pieces newline line.bytes) ++ [[]] := by
  induction lines with
  | nil => rfl
  | cons line rest ih =>
      have ending : Bytes.utf8 "\n" = [newline] := by decide
      have step : encode (line :: rest) = line.bytes ++ newline :: encode rest := by
        simp [encode, lineWith, ending, Line.bytes]
      rw [step, pieces_append_cons, ih, List.flatMap_cons, List.append_assoc]

theorem linesOf_encode (lines : List Line) :
    linesOf (encode lines) = lines.flatMap fun line => pieces newline line.bytes := by
  simp [linesOf, pieces_encode]

theorem count_newline (line : Line) :
    line.bytes.count newline = (Bytes.utf8 line.name).count newline := by
  have digits : (Bytes.utf8 line.checksum.hex).count newline = 0 := by
    apply List.count_eq_zero.mpr
    intro member
    exact absurd (line.checksum.isLower_of_mem_hex _ member) (by decide)
  have spaces : (Bytes.utf8 "  ").count newline = 0 := by decide
  rw [Line.bytes, List.count_append, List.count_append, digits, spaces, Nat.zero_add]

theorem length_linesOf (lines : List Line) :
    (linesOf (encode lines)).length =
      (lines.map fun line => (Bytes.utf8 line.name).count newline + 1).sum := by
  simp [linesOf_encode, List.length_flatMap, length_pieces, count_newline]

theorem length_le_linesOf (lines : List Line) :
    lines.length ≤ (linesOf (encode lines)).length := by
  rw [length_linesOf]
  induction lines with
  | nil => exact Nat.le_refl _
  | cons line rest ih =>
      simp only [List.length_cons, List.map_cons, List.sum_cons]
      omega

theorem length_linesOf_eq_iff (lines : List Line) :
    (linesOf (encode lines)).length = lines.length ↔
      ∀ line ∈ lines, newline ∉ Bytes.utf8 line.name := by
  induction lines with
  | nil => simp [length_linesOf]
  | cons line rest ih =>
      have atLeast := length_le_linesOf rest
      have cut : (linesOf (encode (line :: rest))).length =
          (Bytes.utf8 line.name).count newline + 1 + (linesOf (encode rest)).length := by
        simp [length_linesOf]
      rw [List.forall_mem_cons, ← ih, ← List.count_eq_zero, cut, List.length_cons]
      constructor
      · intro total
        constructor <;> omega
      · rintro ⟨first, later⟩
        omega

/-- A reader finds the lines with their names exactly if no name holds a newline. -/
theorem isLine_linesOf_iff (lines : List Line) :
    List.Forall₂ IsLine (linesOf (encode lines)) (lines.map fun line => Bytes.utf8 line.name) ↔
      ∀ line ∈ lines, newline ∉ Bytes.utf8 line.name := by
  constructor
  · intro reads
    rw [← length_linesOf_eq_iff, reads.length_eq, List.length_map]
  · intro absent
    have whole : linesOf (encode lines) = lines.map Line.bytes := by
      have single : ∀ line ∈ lines, pieces newline line.bytes = [line.bytes] := by
        intro line member
        apply pieces_of_not_mem
        rw [← List.count_eq_zero, count_newline, List.count_eq_zero]
        exact absent line member
      rw [linesOf_encode, List.flatMap_congr single]
      exact List.flatMap_pure_eq_map _ _
    rw [whole, List.forall₂_map_left_iff, List.forall₂_map_right_iff, List.forall₂_same]
    exact fun line _ => isLine_bytes line

theorem newline_mem_utf8 (text : String) : newline ∈ Bytes.utf8 text ↔ '\n' ∈ text.toList :=
  Bytes.mem_utf8 (by decide) text

theorem newline_mem_entryName (entry : PayloadEntry) :
    newline ∈ Bytes.utf8 entry.entryName ↔ '\n' ∈ entry.basename.toList := by
  have noDigit : '\n' ∉ (fourDigits entry.index).toList := by
    intro member
    exact absurd (isDigit_of_mem_fourDigits member) (by decide)
  simp [newline_mem_utf8, PayloadEntry.toList_entryName, noDigit]

end Manifest

namespace Artifact

theorem lookup_manifest (artifact : Artifact) (header : Bytes) (archives : List Bytes) :
    (artifact.contents header archives).lookup (Bytes.utf8 "manifest") =
      some ((artifact.manifestText header).flatMap Bytes.utf8) := by
  rfl

/-- The manifest of an artifact reads line by line exactly if no file name holds a
newline. -/
theorem reads_lines_iff (artifact : Artifact) (header : Bytes) :
    List.Forall₂ Manifest.IsLine (Manifest.linesOf (Manifest.encode (artifact.lines header)))
        ((Manifest.order artifact.entryNames).map Bytes.utf8) ↔
      ∀ staged ∈ artifact.payloads, '\n' ∉ staged.entry.basename.toList := by
  have names : (artifact.lines header).map (fun line => Bytes.utf8 line.name) =
      (Manifest.order artifact.entryNames).map Bytes.utf8 := by
    rw [← artifact.names_lines header, List.map_map]
    rfl
  rw [← names, Manifest.isLine_linesOf_iff]
  have header : Manifest.newline ∉ Bytes.utf8 Manifest.headerName := by decide
  have version : Manifest.newline ∉ Bytes.utf8 Manifest.versionName := by decide
  simp [lines, or_imp, forall_and, StagedPayload.line, Manifest.newline_mem_entryName, header,
    version]

section

variable [Deflate]

/-- In an artifact that was built, the manifest has a line for each payload, the
header archive and the format descriptor, and no other line, exactly if no file name
holds a newline. -/
theorem manifest_lines_iff {artifact : Artifact} (reachable : artifact.Reachable)
    {archive : Bytes} (built : artifact.build.1 = .ok archive)
    (fits : archive.length < Tar.Numeral.wordLimit) :
    ∃ entries manifest, Tar.unpack? archive = some entries ∧
      entries.lookup (Bytes.utf8 "manifest") = some manifest ∧
      ((Manifest.linesOf manifest).length = artifact.payloads.length + 2 ∧
          List.Forall₂ Manifest.IsLine (Manifest.linesOf manifest)
            ((Manifest.order artifact.entryNames).map Bytes.utf8) ↔
        ∀ staged ∈ artifact.payloads, '\n' ∉ staged.entry.basename.toList) := by
  obtain ⟨header, archives, _, unpacked, _, _⟩ :=
    unpack?_of_build reachable.addressed built fits
  refine ⟨_, _, unpacked, artifact.lookup_manifest header archives, ?_⟩
  rw [← encode_lines reachable.addressed, ← artifact.reads_lines_iff header]
  constructor
  · exact fun both => both.2
  · intro reads
    refine ⟨?_, reads⟩
    rw [reads.length_eq]
    simp [Manifest.order, entryNames]

end

theorem manifest_lines_iff_image :
    ∃ archive entries manifest,
      (single single.pieced single.valid_image).build.1 = .ok archive ∧
        Tar.unpack? archive = some entries ∧
        entries.lookup (Bytes.utf8 "manifest") = some manifest ∧
        (Manifest.linesOf manifest).length = 3 ∧
        List.Forall₂ Manifest.IsLine (Manifest.linesOf manifest)
          (["data/0000/image", "header.tar.gz", "version"].map Bytes.utf8) := by
  obtain ⟨readable, _, copied⟩ := single.read_pieced "image"
  obtain ⟨archive, built, fits⟩ := single.builds single.pieced single.valid_image readable
    (by decide) (by decide) (by rw [copied]; decide)
  obtain ⟨entries, manifest, unpacked, found, condition⟩ :=
    manifest_lines_iff (single.reachable _ _) built fits
  have free : ∀ staged ∈ (single single.pieced single.valid_image).payloads,
      '\n' ∉ staged.entry.basename.toList := by
    intro staged member
    rw [List.mem_singleton.mp member]
    exact (by decide : '\n' ∉ "image".toList)
  have names : Manifest.order (single single.pieced single.valid_image).entryNames =
    ["data/0000/image", "header.tar.gz", "version"] := by decide
  obtain ⟨count, reads⟩ := condition.mpr free
  rw [names] at reads
  exact ⟨archive, entries, manifest, built, unpacked, found, count, reads⟩

theorem valid_split : PayloadEntry.ValidName "a\nb" := by
  decide

/-- A file name with a newline is accepted, and gives the manifest a line too many. -/
theorem manifest_lines_of_split :
    (single single.pieced valid_split).Reachable ∧
      (single single.pieced valid_split).payloads.length = 1 ∧
      ∃ archive entries manifest,
        (single single.pieced valid_split).build.1 = .ok archive ∧
          Tar.unpack? archive = some entries ∧
          entries.lookup (Bytes.utf8 "manifest") = some manifest ∧
          (Manifest.linesOf manifest).length = 4 := by
  obtain ⟨readable, _, copied⟩ := single.read_pieced "a\nb"
  obtain ⟨archive, built, fits⟩ := single.builds single.pieced valid_split readable
    (by decide) (by decide) (by rw [copied]; decide)
  have reachable := single.reachable single.pieced valid_split
  obtain ⟨header, archives, _, unpacked, _, _⟩ :=
    unpack?_of_build reachable.addressed built fits
  refine ⟨reachable, rfl, archive, _, _, built, unpacked, lookup_manifest _ _ _, ?_⟩
  have names : ((single single.pieced valid_split).lines header).map Manifest.Line.name =
      ["data/0000/a\nb", "header.tar.gz", "version"] := by
    rw [names_lines]
    decide
  have counts : ((single single.pieced valid_split).lines header).map
      (fun line => (Bytes.utf8 line.name).count Manifest.newline + 1) =
        ["data/0000/a\nb", "header.tar.gz", "version"].map
          (fun name => (Bytes.utf8 name).count Manifest.newline + 1) := by
    rw [← names, List.map_map]
    rfl
  rw [← encode_lines reachable.addressed, Manifest.length_linesOf, counts]
  decide

end Artifact

end UpdateArtifact
