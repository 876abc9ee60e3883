import UpdateArtifact.Proofs.Building

/-!
# Artifacts with one payload

The smallest artifacts that hold anything.  Written with stored blocks, they are
built from every source that can be read twice, under every file name that the
name field of a header holds.
-/

namespace UpdateArtifact

open Tar (Container)

/-- Stored blocks make an archive at most twice as long, up to its frame. -/
theorem Tar.Container.length_compress_le (container : Container) (options : BuildOptions) :
    (container.compress options).length ≤ 2 * container.written.length + 3000 := by
  have body := Deflate.Stored.length_body_le container.close
  have closed : container.close.length = container.written.length + 1024 := by
    simp [close, blockSize]
  have encoded : (container.compress options).length =
      10 + (Deflate.Stored.body container.close).length + 8 := by
    simp only [compress, Gzip.encode, Gzip.trailer, List.length_append, Gzip.length_header,
      Bytes.length_littleEndian]
    rfl
  omega

theorem HeaderArchive.assemble_of_short {header : HeaderArchive} {options : BuildOptions}
    (distinct : (header.payloads.map fun (entry, _) => entry.entryName).Nodup)
    (fit : Container.ownerFault? options.ownerName = none)
    (short : ∀ file ∈ header.files, Container.Short file.1) :
    ∃ bytes, header.assemble options = .ok bytes ∧
      bytes.length ≤ 2 * (header.files.map fun file => file.2.length + 1024).sum + 3000 := by
  obtain ⟨bytes, encoded, bound⟩ := Container.encodeAll_of_short fit short
  rw [assemble_eq options distinct, encoded]
  refine ⟨_, rfl, ?_⟩
  have compressed := Container.length_compress_le
    ((Container.start options).extend bytes) options
  have written : ((Container.start options).extend bytes).written = bytes := rfl
  rw [written] at compressed
  omega

def PayloadEntry.first {name : String} (valid : PayloadEntry.ValidName name) : PayloadEntry :=
  { index := 0, basename := name, index_le := Nat.zero_le _, validName := valid }

/-- The artifact that holds one payload of that name, and says little about it. -/
def single (source : Source) {name : String} (valid : PayloadEntry.ValidName name) : Artifact :=
  { name := "release"
    deviceTypes := ["device"]
    payloads := [{ entry := .first valid, payload := { source, name := some name } }] }

namespace single

variable (source : Source) {name : String} (valid : PayloadEntry.ValidName name)

theorem reachable [Deflate] : (single source valid).Reachable := by
  refine ⟨"release", ["device"], [.payload { source, name := some name }], ?_⟩
  simp [Artifact.performAll, Artifact.perform, Artifact.settle, Artifact.addPayload,
    Artifact.entryFor, PayloadEntry.make, valid, Artifact.clash?, Payload.keys,
    Payload.metadata, Except.map, single, PayloadEntry.first]

theorem accepted_of_owner {options : BuildOptions} (owner : options.ownerName = "root") :
    ((single source valid).withOptions options).validate = .ok () := by
  have fits : ¬ Container.ownerWidth < (Bytes.utf8 "root").length := by decide
  simp [Artifact.validate, Artifact.withOptions, single, owner, fits, Artifact.conflict?,
    Artifact.reserved, Artifact.extra, Payload.keys, Payload.metadata, Metadata.keys,
    Metadata.empty]

theorem accepted : (single source valid).validate = .ok () :=
  accepted_of_owner source valid rfl

def info : Json :=
  .object
    [("payloads", .array [.object [("type", .string "rootfs-image")]]),
      ("artifact_provides",
        (Metadata.empty.insert "artifact_name" (.string "release")).toJson),
      ("artifact_depends",
        (Metadata.empty.insert "device_type" (.array [.string "device"])).toJson)]

theorem files : (single source valid).header.files =
    [("header-info", HeaderArchive.document info),
      ("headers/0000/type-info",
        HeaderArchive.document (.object [("type", .string "rootfs-image")])),
      ("headers/0000/meta-data", [])] := by
  have directory : "headers/" ++ fourDigits 0 = "headers/0000" := by decide
  have extended (metadata : Metadata) : metadata.extend .empty = metadata := rfl
  simp [HeaderArchive.files, HeaderArchive.info, HeaderArchive.typeInfo,
    HeaderArchive.optionalMember, Artifact.header, single, PayloadEntry.first,
    PayloadEntry.headerDirectory, directory, info, Artifact.allProvides, Artifact.allDepends,
    extended]

theorem assembled_of_owner {options : BuildOptions} (owner : options.ownerName = "root") :
    ∃ header, (single source valid).header.assemble options = .ok header ∧
      header.length ≤ 20000 := by
  have distinct := (reachable source valid).addressed.distinct
  have short : ∀ file ∈ (single source valid).header.files, Container.Short file.1 := by
    intro file member
    simp only [files, List.mem_cons, List.not_mem_nil, or_false] at member
    rcases member with rfl | rfl | rfl
    · exact (by decide : Container.Short "header-info")
    · exact (by decide : Container.Short "headers/0000/type-info")
    · exact (by decide : Container.Short "headers/0000/meta-data")
  have fit : Container.ownerFault? options.ownerName = none := by
    rw [owner]
    decide
  obtain ⟨bytes, assembled, bound⟩ := HeaderArchive.assemble_of_short
    (Artifact.entryNames_header _ ▸ distinct) fit short
  have infoBound : (HeaderArchive.document info).length ≤ 200 := by decide +kernel
  have typeBound : (HeaderArchive.document
      (.object [("type", .string "rootfs-image")])).length ≤ 200 := by decide +kernel
  have total : ((single source valid).header.files.map fun file => file.2.length + 1024).sum ≤
      4000 := by
    simp only [files, List.map_cons, List.map_nil, List.sum_cons, List.sum_nil, List.length_nil]
    exact Nat.le_trans (Nat.add_le_add (Nat.add_le_add_right infoBound _)
      (Nat.add_le_add_right (Nat.add_le_add_right typeBound _) _)) (by decide)
  exact ⟨bytes, assembled, by omega⟩

theorem assembled : ∃ header,
    (single source valid).header.assemble (single source valid).options = .ok header ∧
      header.length ≤ 20000 :=
  assembled_of_owner source valid rfl

theorem archiveName_first : (PayloadEntry.first valid).archiveName = "data/0000.tar.gz" := by
  have digits : "data/" ++ fourDigits 0 ++ ".tar.gz" = "data/0000.tar.gz" := by decide
  exact digits

theorem embedded_of_owner {options : BuildOptions} (owner : options.ownerName = "root")
    (data : Bytes) (short : Container.Short name) :
    ∃ archive bytes, Container.packed options name data = .ok archive ∧
      Container.encodeFile "root" "data/0000.tar.gz" archive = .ok bytes ∧
      Payload.encodeEmbedded (.first valid) options "root" data = .ok bytes ∧
      bytes.length ≤ 2 * data.length + 10000 := by
  have fit : Container.ownerFault? "root" = none := by decide
  have archiveShort : Container.Short "data/0000.tar.gz" := by decide
  obtain ⟨file, fileEncoded, fileBound⟩ := Container.encodeFile_of_short fit short data
  let archive := ((Container.start options).extend file).compress options
  have archiveBound : archive.length ≤ 2 * file.length + 3000 :=
    Container.length_compress_le _ _
  obtain ⟨bytes, encoded, bound⟩ := Container.encodeFile_of_short fit archiveShort archive
  have packed : Container.packed options name data = .ok archive := by
    rw [Container.packed, owner, fileEncoded]
    rfl
  have basename : (PayloadEntry.first valid).basename = name := rfl
  refine ⟨archive, bytes, packed, encoded, ?_, by omega⟩
  simp only [Payload.encodeEmbedded, basename, packed, archiveName_first, encoded]

theorem embedded (data : Bytes) (short : Container.Short name) :
    ∃ archive bytes, Container.packed {} name data = .ok archive ∧
      Container.encodeFile "root" "data/0000.tar.gz" archive = .ok bytes ∧
      Payload.encodeEmbedded (.first valid) {} "root" data = .ok bytes ∧
      bytes.length ≤ 2 * data.length + 10000 :=
  embedded_of_owner valid rfl data short

theorem length_version_le :
    (HeaderArchive.document (single source valid).version).length ≤ 200 := by
  show (HeaderArchive.document
    (.object [("format", .string "mender"), ("version", .whole 3)])).length ≤ 200
  decide +kernel

theorem length_draft_le (smallName : (Bytes.utf8 name).length ≤ 1000) :
    (single source valid).draft.length ≤ 2000 := by
  have directory : (Bytes.utf8 ("data/" ++ fourDigits 0 ++ "/")).length = 10 := by decide
  have names : Manifest.order (single source valid).entryNames =
    ["data/" ++ fourDigits 0 ++ "/" ++ name, "header.tar.gz", "version"] := rfl
  rw [Artifact.draft, names]
  simp only [Manifest.draftBody, Manifest.lineWith, List.flatMap_cons, List.flatMap_nil,
    List.length_append, Bytes.utf8_append _ name, directory, List.length_nil]
  have placeholder : Manifest.placeholder.length = 64 := by decide
  have spaces : (Bytes.utf8 "  ").length = 2 := by decide
  have ending : (Bytes.utf8 "\n").length = 1 := by decide
  have headerName : (Bytes.utf8 "header.tar.gz").length = 13 := by decide
  have versionName : (Bytes.utf8 "version").length = 7 := by decide
  omega

theorem opening (smallName : (Bytes.utf8 name).length ≤ 1000) {header : Bytes}
    (smallHeader : header.length ≤ 20000) :
    ∃ bytes, Container.encodeAll "root" ((single source valid).openingFiles header) =
        .ok bytes ∧ bytes.length ≤ 25272 := by
  have fit : Container.ownerFault? "root" = none := by decide
  have short : ∀ file ∈ (single source valid).openingFiles header,
      Container.Short file.1 := by
    intro file member
    simp only [Artifact.openingFiles, List.mem_cons, List.not_mem_nil, or_false] at member
    rcases member with rfl | rfl | rfl
    · exact (by decide : Container.Short Manifest.versionName)
    · exact (by decide : Container.Short Manifest.entryName)
    · exact (by decide : Container.Short Manifest.headerName)
  obtain ⟨bytes, encoded, bound⟩ := Container.encodeAll_of_short fit short
  refine ⟨bytes, encoded, ?_⟩
  have version := length_version_le source valid
  have manifest := length_draft_le source valid smallName
  rw [← Artifact.length_encode_lines _ header] at manifest
  simp only [Artifact.openingFiles, List.map_cons, List.map_nil, List.sum_cons,
    List.sum_nil] at bound
  exact Nat.le_trans bound (Nat.add_le_add (Nat.add_le_add_right version _)
    (Nat.add_le_add (Nat.add_le_add_right manifest _) (Nat.add_le_add_right smallHeader _)))

/-- Behind a header archive that is not too long, nothing is refused of an artifact with
that payload, whatever it says. -/
theorem written_of_owner {artifact : Artifact} (owner : artifact.options.ownerName = "root")
    (format : artifact.options.formatVersion = 3)
    (payloads : artifact.payloads = (single source valid).payloads) {header : Bytes}
    (smallHeader : header.length ≤ 20000) (short : Container.Short name)
    (smallName : (Bytes.utf8 name).length ≤ 1000)
    (small : (Payload.copied { source, name := some name }).length ≤ 1000) :
    ∃ front back,
      Container.encodeAll artifact.options.ownerName (artifact.openingFiles header) = .ok front ∧
        encodePayloads artifact.options artifact.options.ownerName Payload.copied
          artifact.payloads = .ok back ∧
        artifact.DraftFits ∧
        (front ++ back ++ Bytes.zeros (2 * Tar.blockSize)).length < Tar.Numeral.wordLimit := by
  have sameFiles : artifact.openingFiles header = (single source valid).openingFiles header := by
    rw [Artifact.openingFiles, Artifact.openingFiles, Artifact.lines, Artifact.lines,
      Artifact.version, Artifact.version, format, payloads]
    rfl
  obtain ⟨front, opening, frontBound⟩ := opening source valid smallName smallHeader
  obtain ⟨_, back, _, _, embedded, backBound⟩ :=
    embedded_of_owner valid owner (Payload.copied { source, name := some name }) short
  rw [← sameFiles, ← owner] at opening
  have draftFits : artifact.DraftFits :=
    Artifact.draftFits_of_length_lt (Artifact.length_encode_lines _ header) opening
      (by rw [Tar.Numeral.wordLimit]; omega)
  refine ⟨front, back ++ [], opening, ?_, draftFits, ?_⟩
  · rw [owner, payloads]
    simp only [encodePayloads, single, embedded, Except.map]
  · simp only [List.length_append, List.length_nil, Bytes.length_zeros, Tar.blockSize,
      Tar.Numeral.wordLimit]
    omega

theorem written_of_header {artifact : Artifact} (options : artifact.options = {})
    (payloads : artifact.payloads = (single source valid).payloads) {header : Bytes}
    (smallHeader : header.length ≤ 20000) (short : Container.Short name)
    (smallName : (Bytes.utf8 name).length ≤ 1000)
    (small : (Payload.copied { source, name := some name }).length ≤ 1000) :
    ∃ front back,
      Container.encodeAll artifact.options.ownerName (artifact.openingFiles header) = .ok front ∧
        encodePayloads artifact.options artifact.options.ownerName Payload.copied
          artifact.payloads = .ok back ∧
        artifact.DraftFits ∧
        (front ++ back ++ Bytes.zeros (2 * Tar.blockSize)).length < Tar.Numeral.wordLimit :=
  written_of_owner source valid (by rw [options]) (by rw [options]) payloads smallHeader short
    smallName small

theorem written (short : Container.Short name) (smallName : (Bytes.utf8 name).length ≤ 1000)
    (small : (Payload.copied { source, name := some name }).length ≤ 1000) :
    ∃ header front back,
      (single source valid).header.assemble (single source valid).options = .ok header ∧
        Container.encodeAll (single source valid).options.ownerName
          ((single source valid).openingFiles header) = .ok front ∧
        encodePayloads (single source valid).options (single source valid).options.ownerName
          Payload.copied (single source valid).payloads = .ok back ∧
        (single source valid).DraftFits ∧
        (front ++ back ++ Bytes.zeros (2 * Tar.blockSize)).length < Tar.Numeral.wordLimit := by
  obtain ⟨header, assembled, smallHeader⟩ := assembled source valid
  obtain ⟨front, back, rest⟩ :=
    written_of_header source valid rfl rfl smallHeader short smallName small
  exact ⟨header, front, back, assembled, rest⟩

/-- Such an artifact is built from every source that can be read twice, with all options
that leave the owner and the format as they are, if a block fits into a buffer. -/
theorem builds_of_owner {options : BuildOptions} (owner : options.ownerName = "root")
    (block : options.BlockFits) (format : options.formatVersion = 3)
    (readable : Payload.Readable { source, name := some name }) (short : Container.Short name)
    (smallName : (Bytes.utf8 name).length ≤ 1000)
    (small : (Payload.copied { source, name := some name }).length ≤ 1000) :
    ∃ archive, ((single source valid).withOptions options).build.1 = .ok archive ∧
      archive.length < Tar.Numeral.wordLimit := by
  have addressed := (reachable source valid).addressed.withOptions options
  have named : ((single source valid).withOptions options).options.ownerName = "root" := owner
  obtain ⟨header, assembled, smallHeader⟩ := assembled_of_owner source valid owner
  obtain ⟨front, back, opening, written, draftFits, fits⟩ :=
    written_of_owner source valid named format rfl smallHeader short smallName small
  exact ⟨_, Artifact.build_of_written addressed block (accepted_of_owner source valid owner)
    assembled (by simpa [single, Artifact.withOptions] using readable) opening written
    draftFits, fits⟩

theorem builds (readable : Payload.Readable { source, name := some name })
    (short : Container.Short name) (smallName : (Bytes.utf8 name).length ≤ 1000)
    (small : (Payload.copied { source, name := some name }).length ≤ 1000) :
    ∃ archive, (single source valid).build.1 = .ok archive ∧
      archive.length < Tar.Numeral.wordLimit :=
  builds_of_owner source valid rfl (by decide) rfl readable short smallName small

/-- A source that is read in pieces and with an interruption. -/
def pieced : Source :=
  { passes := [[.data [1], .interrupt, .data [2, 3]]] }

theorem delivers_pieced : pieced.Delivers [1, 2, 3] := by
  simp [Source.Delivers, pieced, Pass.delivered, Pass.failure?]

theorem valid_image : PayloadEntry.ValidName "image" := by
  decide

/-- The artifact with more said about it. -/
def described : Artifact :=
  { single pieced valid_image with
    group := some "testing"
    scripts := [(.installEnter, [1])]
    provides := Metadata.empty.insert "channel" (.string "beta") }

theorem reachable_described [Deflate] : described.Reachable :=
  ⟨"release", ["device"],
    [.payload { source := pieced, name := some "image" }, .group "testing",
      .script .installEnter [1], .provides "channel" (.string "beta")], rfl⟩

theorem accepted_described : described.validate = .ok () := by
  have owner : ¬ Container.ownerWidth < (Bytes.utf8 "root").length := by decide
  simp [Artifact.validate, described, single, owner, Artifact.conflict?, Artifact.reserved,
    Artifact.extra, Payload.keys, Payload.metadata, Metadata.keys, Metadata.empty,
    Metadata.insert, Metadata.put]

theorem read_pieced (name : String) :
    Payload.Readable { source := pieced, name := some name } ∧
      Payload.content { source := pieced, name := some name } = [1, 2, 3] ∧
      Payload.copied { source := pieced, name := some name } = [1, 2, 3] :=
  Payload.readable_of_delivers delivers_pieced

end single

end UpdateArtifact
