import UpdateArtifact.Proofs.Manifest
import UpdateArtifact.Proofs.Names
import UpdateArtifact.Proofs.Reachable
import UpdateArtifact.Proofs.Sources
import UpdateArtifact.Artifact.Direct

/-!
# What stands before the payloads

The names of the files before the payloads are accepted with every owner that
fits, so that the opening fails exactly where the header archive does, and with
the same error.
-/

namespace UpdateArtifact

namespace HeaderArchive

theorem firstRepeated?_of_nodup {seen names : List String} (distinct : names.Nodup)
    (apart : ∀ name ∈ names, name ∉ seen) : firstRepeated? seen names = none := by
  induction names generalizing seen with
  | nil => rfl
  | cons name rest ih =>
      obtain ⟨absent, later⟩ := List.nodup_cons.mp distinct
      rw [firstRepeated?, if_neg (apart name List.mem_cons_self)]
      apply ih later
      intro other member
      rw [List.mem_cons, not_or]
      constructor
      · rintro rfl
        exact absent member
      · exact apart other (List.mem_cons_of_mem _ member)

/-- The header archive fails only as the container of its files does. -/
theorem assemble_eq [Deflate] {header : HeaderArchive} (options : BuildOptions)
    (distinct : (header.payloads.map fun (entry, _) => entry.entryName).Nodup) :
    header.assemble options =
      match Tar.Container.encodeAll options.ownerName header.files with
      | .error fault => .error (.write fault)
      | .ok bytes =>
          .ok (((Tar.Container.start options).extend bytes).compress options) := by
  have first : firstRepeated? [] (header.payloads.map fun (entry, _) => entry.entryName) =
      none :=
    firstRepeated?_of_nodup distinct fun _ _ => List.not_mem_nil
  rw [assemble, first, Tar.Container.writeAll_eq, Tar.Container.owner_start]
  simp only
  cases Tar.Container.encodeAll options.ownerName header.files with
  | error fault => rfl
  | ok bytes => rfl

end HeaderArchive

open Tar (Container)

namespace Artifact

/-- The manifest lines known before the payloads are written. -/
def openingLines (artifact : Artifact) (header : Bytes) : List Manifest.Line :=
  [{ checksum := Checksum.ofBytes header, name := Manifest.headerName },
    { checksum := Checksum.ofBytes (HeaderArchive.document artifact.version)
      name := Manifest.versionName }]

/-- The files before the payloads, with some data as the manifest. -/
def filesWith (artifact : Artifact) (manifest header : Bytes) : List (String × Bytes) :=
  [(Manifest.versionName, HeaderArchive.document artifact.version),
    (Manifest.entryName, manifest), (Manifest.headerName, header)]

theorem names_lines (artifact : Artifact) (header : Bytes) :
    (artifact.lines header).map Manifest.Line.name = Manifest.order artifact.entryNames := by
  simp [lines, Manifest.order, entryNames, StagedPayload.line, Function.comp_def]

theorem nodup_names (artifact : Artifact) (addressed : artifact.Addressed) :
    (Manifest.order artifact.entryNames).Nodup := by
  have entries : artifact.entryNames =
      (artifact.payloads.map StagedPayload.entry).map PayloadEntry.entryName := by
    simp [entryNames, Function.comp_def]
  have distinct := addressed.distinct
  rw [entries] at distinct ⊢
  exact Manifest.nodup_order distinct

/-- The names of the files before the payloads are accepted with every owner that
fits. -/
theorem encodeFile_fixed {owner : String} (fit : Container.ownerFault? owner = none)
    (name : String)
    (fixed : name ∈ [Manifest.versionName, Manifest.entryName, Manifest.headerName])
    (data : Bytes) : ∃ bytes, Container.encodeFile owner name data = .ok bytes := by
  have placed : ∃ placement, Tar.Path.place name = .ok placement := by
    simp only [List.mem_cons, List.not_mem_nil, or_false] at fixed
    rcases fixed with rfl | rfl | rfl <;> exact ⟨_, rfl⟩
  obtain ⟨placement, accepted⟩ := placed
  exact ⟨_, Container.encodeFile_of_placed fit accepted data⟩

theorem encodeAll_filesWith (artifact : Artifact) {owner : String}
    (fit : Container.ownerFault? owner = none) (manifest header : Bytes) :
    ∃ bytes, Container.encodeAll owner (artifact.filesWith manifest header) = .ok bytes := by
  obtain ⟨first, versionWritten⟩ := encodeFile_fixed fit Manifest.versionName (by simp)
    (HeaderArchive.document artifact.version)
  obtain ⟨second, manifestWritten⟩ := encodeFile_fixed fit Manifest.entryName (by simp) manifest
  obtain ⟨third, headerWritten⟩ := encodeFile_fixed fit Manifest.headerName (by simp) header
  refine ⟨first ++ (second ++ (third ++ [])), ?_⟩
  simp only [filesWith, Container.encodeAll, versionWritten, manifestWritten, headerWritten,
    Except.map]

theorem entryNames_header (artifact : Artifact) :
    (artifact.header.payloads.map fun (entry, _) => entry.entryName) = artifact.entryNames := by
  simp [header, entryNames, Function.comp_def]

def draft (artifact : Artifact) : Bytes :=
  Manifest.draftBody (Manifest.order artifact.entryNames)

/-- The files of an archive up to its drafted manifest. -/
def draftFiles (artifact : Artifact) : List (String × Bytes) :=
  [(Manifest.versionName, HeaderArchive.document artifact.version),
    (Manifest.entryName, artifact.draft)]

/-- The archive up to its drafted manifest is short enough for positions to be words. -/
def DraftFits (artifact : Artifact) : Prop :=
  ∀ opened, Container.encodeAll artifact.options.ownerName artifact.draftFiles = .ok opened →
    opened.length < Tar.Numeral.wordLimit

theorem length_encode_lines (artifact : Artifact) (header : Bytes) :
    (Manifest.encode (artifact.lines header)).length = artifact.draft.length := by
  rw [Manifest.length_encode, names_lines, draft]

/-- The draft fits if what stands before the payloads does, with the draft in it or with
anything as long. -/
theorem draftFits_of_length_lt {artifact : Artifact} {manifest header front : Bytes}
    (width : manifest.length = artifact.draft.length)
    (written : Container.encodeAll artifact.options.ownerName
      (artifact.filesWith manifest header) = .ok front)
    (fits : front.length < Tar.Numeral.wordLimit) : artifact.DraftFits := by
  intro opened encoded
  let version := (Manifest.versionName, HeaderArchive.document artifact.version)
  obtain ⟨first, second, beginning, _, rfl⟩ := Container.encodeAll_append_ok
    (show Container.encodeAll artifact.options.ownerName
      ([version] ++ [(Manifest.entryName, manifest)] ++ [(Manifest.headerName, header)]) =
        .ok front from written)
  have length := Container.length_encodeAll_of_length width beginning
    (show Container.encodeAll artifact.options.ownerName
      ([version] ++ [(Manifest.entryName, artifact.draft)]) = .ok opened from encoded)
  rw [List.length_append] at fits
  omega

/-- The checksums collected for some lines of an artifact's manifest. -/
def collected (artifact : Artifact) (lines : List Manifest.Line) : Manifest.Pending :=
  .ofLines (Manifest.slotsFrom 0 (Manifest.order artifact.entryNames)) lines

theorem names_collected (artifact : Artifact) (lines : List Manifest.Line) :
    (artifact.collected lines).slots.map Manifest.Slot.name =
      Manifest.order artifact.entryNames :=
  Manifest.names_slotsFrom 0 _

theorem drafted {artifact : Artifact} (addressed : artifact.Addressed) :
    ∃ draft, Manifest.Draft.ofNames (Manifest.order artifact.entryNames) = .ok draft ∧
      draft.body = artifact.draft ∧ draft.pending = artifact.collected [] :=
  ⟨_, Manifest.Draft.ofNames_of_nodup (artifact.nodup_names addressed), rfl, rfl⟩

theorem record_collected (artifact : Artifact) (lines : List Manifest.Line) (name : String)
    (listed : name ∈ Manifest.order artifact.entryNames)
    (fresh : name ∉ lines.map Manifest.Line.name) (checksum : Checksum) :
    (artifact.collected lines).record name checksum =
      (.ok (), artifact.collected ({ checksum, name } :: lines)) := by
  rw [← artifact.names_collected lines] at listed
  exact Manifest.Pending.record_ofLines listed fresh checksum

variable [Deflate]

theorem ownerFault?_of_assemble {artifact : Artifact} (addressed : artifact.Addressed)
    {header : Bytes} (assembled : artifact.header.assemble artifact.options = .ok header) :
    Container.ownerFault? artifact.options.ownerName = none := by
  rw [HeaderArchive.assemble_eq _ (artifact.entryNames_header ▸ addressed.distinct)] at assembled
  cases fit : Container.ownerFault? artifact.options.ownerName with
  | none => rfl
  | some fault =>
      simp [HeaderArchive.files, Container.encodeAll, Container.encodeFile_of_ownerFault fit]
        at assembled

theorem opening_of_large {artifact : Artifact} (large : ¬ artifact.options.BlockFits) :
    artifact.opening = .error .panic := by
  simp only [opening, Source.digestBytes_of_large (Nat.not_le.mp large), ArtifactError.ofDigest]

theorem blockFits_of_opening {artifact : Artifact} {start : Container × Manifest.Pending}
    (opened : artifact.opening = .ok start) : artifact.options.BlockFits := by
  by_contra large
  rw [opening_of_large large] at opened
  contradiction

/-- An owner that does not fit is reported first by the format descriptor, and would
be by the header archive. -/
private theorem opening_of_ownerFault {artifact : Artifact} (addressed : artifact.Addressed)
    (block : artifact.options.BlockFits) {fault : Tar.OwnerFault}
    (refused : Container.ownerFault? artifact.options.ownerName = some fault) :
    artifact.header.assemble artifact.options = .error (.write (.owner fault)) ∧
      artifact.opening = .error (.write (.owner fault)) := by
  have refuse := Container.encodeFile_of_ownerFault refused
  constructor
  · rw [HeaderArchive.assemble_eq _ (artifact.entryNames_header ▸ addressed.distinct)]
    simp [HeaderArchive.files, Container.encodeAll, refuse]
  · simp [opening, Source.digestBytes_of_le block, Container.writeBytes_eq, refuse]

private theorem opening_of_fit {artifact : Artifact} (addressed : artifact.Addressed)
    (block : artifact.options.BlockFits)
    (fit : Container.ownerFault? artifact.options.ownerName = none) :
    ∃ first second, Container.encodeFile artifact.options.ownerName Manifest.versionName
        (HeaderArchive.document artifact.version) = .ok first ∧
      Container.encodeFile artifact.options.ownerName Manifest.entryName artifact.draft =
        .ok second ∧
      artifact.opening =
        artifact.writeHeader ((Container.start artifact.options).extend (first ++ second))
          (artifact.collected
            [{ checksum := Checksum.ofBytes (HeaderArchive.document artifact.version)
               name := Manifest.versionName }]) := by
  obtain ⟨first, versionWritten⟩ := encodeFile_fixed fit Manifest.versionName (by simp)
    (HeaderArchive.document artifact.version)
  obtain ⟨second, draftWritten⟩ := encodeFile_fixed fit Manifest.entryName (by simp)
    artifact.draft
  obtain ⟨draft, named, body, pending⟩ := drafted addressed
  have recorded := artifact.record_collected [] Manifest.versionName
    (by simp [Manifest.order]) (by simp)
    (Checksum.ofBytes (HeaderArchive.document artifact.version))
  refine ⟨first, second, versionWritten, draftWritten, ?_⟩
  simp only [opening, Source.digestBytes_of_le block, Container.writeBytes_eq,
    Container.owner_start, versionWritten, named, body, pending, Container.owner_extend,
    draftWritten, recorded, Container.extend_extend]

/-- If a block fits into a buffer, the opening fails only where the header archive does.  Else
it leaves the files before the payloads and the checksums of the two that are listed. -/
theorem opening_eq {artifact : Artifact} (addressed : artifact.Addressed)
    (block : artifact.options.BlockFits) :
    (∃ error, artifact.header.assemble artifact.options = .error error ∧
      artifact.opening = .error error) ∨
    ∃ header bytes, artifact.header.assemble artifact.options = .ok header ∧
      Container.encodeAll artifact.options.ownerName
        (artifact.filesWith artifact.draft header) = .ok bytes ∧
      artifact.opening =
        .ok ((Container.start artifact.options).extend bytes,
          artifact.collected (artifact.openingLines header)) := by
  cases fit : Container.ownerFault? artifact.options.ownerName with
  | some fault =>
      obtain ⟨assembled, opened⟩ := opening_of_ownerFault addressed block fit
      exact .inl ⟨_, assembled, opened⟩
  | none =>
      obtain ⟨first, second, versionWritten, draftWritten, opened⟩ :=
        opening_of_fit addressed block fit
      cases assembled : artifact.header.assemble artifact.options with
      | error error =>
          left
          refine ⟨error, rfl, ?_⟩
          rw [opened, writeHeader, assembled]
      | ok header =>
          right
          obtain ⟨third, headerWritten⟩ := encodeFile_fixed fit Manifest.headerName (by simp)
            header
          have recorded := artifact.record_collected
            [{ checksum := Checksum.ofBytes (HeaderArchive.document artifact.version)
               name := Manifest.versionName }]
            Manifest.headerName (by simp [Manifest.order])
            (by simp [Manifest.headerName, Manifest.versionName])
            (Checksum.ofBytes header)
          refine ⟨header, first ++ (second ++ (third ++ [])), rfl, ?_, ?_⟩
          · simp only [filesWith, Container.encodeAll, versionWritten, draftWritten,
              headerWritten, Except.map]
          · rw [opened, writeHeader, assembled]
            simp only [Source.digestBytes_of_le block, Container.writeBytes_eq,
              Container.owner_extend, Container.owner_start, headerWritten, recorded,
              Container.extend_extend, List.append_nil, List.append_assoc]
            rfl

end Artifact

end UpdateArtifact
