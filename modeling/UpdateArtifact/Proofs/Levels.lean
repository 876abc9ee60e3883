import UpdateArtifact.Proofs.Locality

/-!
# Compression levels

The level decides how long the archives inside an artifact are, and so where everything
behind them stands.  What the archives hold does not depend on it, and nothing is refused
for its length.  The manifest lists the header archive as it is compressed but the payloads
as they are, so that the level shows in no line but that of the header archive.
-/

namespace UpdateArtifact

open Tar (Container)

/-- Options that agree in all but the compression level. -/
def BuildOptions.SameButLevel (left right : BuildOptions) : Prop :=
  ∃ level, left = { right with compressionLevel := level }

theorem BuildOptions.SameButLevel.symm {left right : BuildOptions}
    (same : left.SameButLevel right) : right.SameButLevel left := by
  obtain ⟨level, rfl⟩ := same
  exact ⟨right.compressionLevel, rfl⟩

section

variable [Deflate]

/-- Streams that decompress to the same bytes. -/
def Gzip.SameContent (left right : Bytes) : Prop :=
  ∃ content, decode? left = some content ∧ decode? right = some content

theorem Gzip.sameContent_compress (container : Container) (left right : BuildOptions) :
    SameContent (container.compress left) (container.compress right) :=
  ⟨container.close, container.decode?_compress left, container.decode?_compress right⟩

theorem Tar.Container.sameContent_of_packed {left right : BuildOptions}
    (same : left.SameButLevel right) {path : String} {data archive other : Bytes}
    (packs : packed left path data = .ok archive)
    (again : packed right path data = .ok other) : Gzip.SameContent archive other := by
  obtain ⟨level, rfl⟩ := same
  unfold packed at packs again
  cases encoded : encodeFile right.ownerName path data with
  | error fault =>
      rw [encoded] at again
      contradiction
  | ok bytes =>
      rw [encoded] at packs again
      cases packs
      cases again
      exact Gzip.sameContent_compress _ _ _

theorem HeaderArchive.assemble_of_level {header : HeaderArchive} {left right : BuildOptions}
    (distinct : (header.payloads.map fun (entry, _) => entry.entryName).Nodup)
    (same : left.SameButLevel right) {bytes : Bytes}
    (assembled : header.assemble left = .ok bytes) :
    ∃ other, header.assemble right = .ok other ∧ Gzip.SameContent bytes other := by
  obtain ⟨level, rfl⟩ := same
  rw [assemble_eq _ distinct] at assembled ⊢
  cases encoded : Container.encodeAll right.ownerName header.files with
  | error fault =>
      simp only [encoded] at assembled
      contradiction
  | ok written =>
      simp only [encoded, Except.ok.injEq] at assembled ⊢
      exact ⟨_, rfl, assembled ▸ Gzip.sameContent_compress _ _ _⟩

/-- A payload that is embedded at one level is embedded at each, with the same checksum,
and its source is left as it is then. -/
theorem Payload.embed_of_level {payload after : Payload} {entry : PayloadEntry}
    {left right : BuildOptions} {outer other grown : Container} {checksum : Checksum}
    (same : left.SameButLevel right) (owner : other.owner = outer.owner)
    (embedded : payload.embed entry left outer = (.ok checksum, grown, after)) :
    ∃ otherGrown, payload.embed entry right other = (.ok checksum, otherGrown, after) ∧
      otherGrown.owner = grown.owner := by
  obtain ⟨level, rfl⟩ := same
  have start : Container.start { right with compressionLevel := level } =
      Container.start right := rfl
  unfold embed at embedded ⊢
  simp only [start, Container.writeBytes_eq, owner] at embedded ⊢
  rcases digested : payload.source.digest right.readBlockSize with ⟨_ | ⟨sum, length⟩, hashed⟩
  · simp [digested] at embedded
  rcases copied : (Container.start right).writeEntry entry.basename hashed length with
    ⟨_ | _, inner, rest⟩
  · simp [digested, copied] at embedded
  rcases rewound : rest.rewind with ⟨_ | _, source⟩
  · simp [digested, copied, rewound] at embedded
  simp only [digested, copied, rewound] at embedded ⊢
  cases written : Container.encodeFile outer.owner entry.archiveName
      (inner.compress { right with compressionLevel := level }) with
  | error fault => simp [written] at embedded
  | ok bytes =>
      obtain ⟨otherBytes, otherWritten⟩ :=
        Container.encodeFile_of_ok written (inner.compress right)
      simp only [written, Prod.mk.injEq, Except.ok.injEq] at embedded
      obtain ⟨rfl, rfl, rfl⟩ := embedded
      exact ⟨other.extend otherBytes, by simp only [otherWritten], owner⟩

namespace Artifact

/-- The loop over the payloads gets to its end at one level if it does at another, and
leaves the sources in the same state.  What it had recorded before may differ. -/
theorem embedAll_of_level {artifact : Artifact} {left right : BuildOptions}
    (same : left.SameButLevel right) {payloads after : List StagedPayload}
    (listed : ∀ staged ∈ payloads, staged ∈ artifact.payloads) {lines : List Manifest.Line}
    (distinct : ((linesOver lines payloads).map Manifest.Line.name).Nodup)
    {outer other grown : Container} {manifest pending : Manifest.Pending}
    (owner : other.owner = outer.owner)
    (embedded : embedAll left outer manifest payloads = (.ok (grown, pending), after)) :
    ∃ otherGrown, embedAll right other (artifact.collected lines) payloads =
      (.ok (otherGrown, artifact.collected (linesOver lines payloads)), after) := by
  induction payloads generalizing outer other manifest lines after with
  | nil =>
      cases embedded
      exact ⟨other, rfl⟩
  | cons staged rest ih =>
      rcases first : staged.payload.embed staged.entry left outer with
        ⟨_ | checksum, next, payload⟩
      · simp [embedAll, first] at embedded
      obtain ⟨rfl, _⟩ := Payload.embed_ok first
      obtain ⟨otherNext, otherFirst, nextOwner⟩ := Payload.embed_of_level same owner first
      have otherRecorded := record_line (listed staged List.mem_cons_self) distinct
      rcases recorded : manifest.record staged.entry.entryName
        (Checksum.ofBytes staged.payload.content) with ⟨_ | _, collected⟩
      · simp [embedAll, first, recorded] at embedded
      rcases later : embedAll left next collected rest with ⟨outcome, others⟩
      simp only [embedAll, first, recorded, later, Prod.mk.injEq] at embedded
      obtain ⟨rfl, rfl⟩ := embedded
      obtain ⟨otherGrown, otherLater⟩ := ih
        (fun other member => listed other (List.mem_cons_of_mem _ member))
        (linesOver_cons lines staged rest ▸ distinct) nextOwner later
      refine ⟨otherGrown, ?_⟩
      simp only [embedAll, otherFirst, otherRecorded, otherLater, linesOver_cons]

omit [Deflate] in
theorem validate_of_level {artifact : Artifact} {left right : BuildOptions}
    (same : left.SameButLevel right) :
    (artifact.withOptions left).validate = (artifact.withOptions right).validate := by
  obtain ⟨level, rfl⟩ := same
  rfl

theorem build_of_level {artifact : Artifact} (addressed : artifact.Addressed)
    {left right : BuildOptions} (same : left.SameButLevel right)
    (fits : (artifact.withOptions right).DraftFits) {archive : Bytes}
    (built : (artifact.withOptions left).build.1 = .ok archive) :
    ∃ other, (artifact.withOptions right).build.1 = .ok other := by
  have leftAddressed := addressed.withOptions left
  have rightAddressed := addressed.withOptions right
  obtain ⟨valid, block⟩ := blockFits_of_build built
  have alsoValid := (validate_of_level same).symm.trans valid
  have alsoBlock : (artifact.withOptions right).options.BlockFits := by
    obtain ⟨level, rfl⟩ := same
    exact block
  rcases opening_eq leftAddressed block with
    ⟨error, _, opened⟩ | ⟨header, front, assembled, _, opened⟩
  · simp [build, valid, opened] at built
  obtain ⟨_, alsoAssembled, _⟩ := HeaderArchive.assemble_of_level
    ((artifact.withOptions left).entryNames_header ▸ leftAddressed.distinct) same assembled
  rcases opening_eq rightAddressed alsoBlock with
    ⟨error, failed, _⟩ | ⟨otherHeader, otherFront, _, otherDrafted, otherOpened⟩
  · cases failed.symm.trans alsoAssembled
  rw [build_of_opening valid opened] at built
  rw [build_of_opening alsoValid otherOpened]
  rcases embedded : embedAll (artifact.withOptions left).options
    ((Container.start (artifact.withOptions left).options).extend front)
    ((artifact.withOptions left).collected ((artifact.withOptions left).openingLines header))
    (artifact.withOptions left).payloads with ⟨_ | ⟨grown, manifest⟩, after⟩
  · rw [embedded] at built
    contradiction
  · have owner : ((Container.start (artifact.withOptions right).options).extend
        otherFront).owner =
          ((Container.start (artifact.withOptions left).options).extend front).owner := by
      obtain ⟨level, rfl⟩ := same
      rfl
    have listed : ∀ staged ∈ (artifact.withOptions right).payloads,
        staged ∈ (artifact.withOptions right).payloads := fun _ member => member
    obtain ⟨otherGrown, otherEmbedded⟩ := embedAll_of_level same listed
      (nodup_linesOver rightAddressed otherHeader) owner embedded
    obtain ⟨_, ⟨back, written, rfl⟩, _⟩ :=
      embedAll_ok listed (nodup_linesOver rightAddressed otherHeader) otherEmbedded
    obtain ⟨archives, _, more⟩ := encodePayloads_ok written
    obtain ⟨complete, _, done⟩ := finalize_close rightAddressed otherDrafted more fits
    have otherLoop : embedAll (artifact.withOptions right).options
        ((Container.start (artifact.withOptions right).options).extend otherFront)
        ((artifact.withOptions right).collected
          ((artifact.withOptions right).openingLines otherHeader))
        (artifact.withOptions right).payloads = _ := otherEmbedded
    rw [otherLoop]
    simp only [Container.extend_extend, Container.close_extend_start, done]
    exact ⟨_, rfl⟩

/-- A manifest line is right for an archive: its checksum is that of the entry it names, or
of the one file in the archive of the payload it names. -/
inductive RightFor (archive : Bytes) (line : Manifest.Line) : Prop
  | entry {header data : Bytes} (found : Tar.entry? archive line.name = some (header, data))
      (sum : line.checksum = Checksum.ofBytes data)
  | payload {index : Nat} {basename : String} {header packed data : Bytes}
      (named : line.name = "data/" ++ fourDigits index ++ "/" ++ basename)
      (found : Tar.entry? archive (archiveNameOf index) = some (header, packed))
      (holds : Container.HoldsOnly packed basename data)
      (sum : line.checksum = Checksum.ofBytes data)

/-- Archives that hold the same files, each compressed in its own way: apart from that they
differ in one checksum of the manifest, and each manifest is right for its archive. -/
structure SameMeaning (names lines : List String) (left right : Bytes) : Prop where
  left_names : (Tar.unpack? left).map (·.map Prod.fst) = some (names.map Bytes.utf8)
  right_names : (Tar.unpack? right).map (·.map Prod.fst) = some (names.map Bytes.utf8)
  version : ∃ content, Tar.entry? left Manifest.versionName = some content ∧
    Tar.entry? right Manifest.versionName = some content
  compressed : ∀ name ∈ names, name ≠ Manifest.versionName → name ≠ Manifest.entryName →
    ∃ leftHeader former rightHeader latter,
      Tar.entry? left name = some (leftHeader, former) ∧
      Tar.entry? right name = some (rightHeader, latter) ∧ Gzip.SameContent former latter
  manifest : ∃ header front former latter back,
    Tar.entry? left Manifest.entryName =
        some (header, Manifest.encode
          (front ++ { checksum := former, name := Manifest.headerName } :: back)) ∧
      Tar.entry? right Manifest.entryName =
        some (header, Manifest.encode
          (front ++ { checksum := latter, name := Manifest.headerName } :: back)) ∧
      front.map Manifest.Line.name ++ Manifest.headerName :: back.map Manifest.Line.name =
        lines ∧
      (∀ line ∈ front ++ { checksum := former, name := Manifest.headerName } :: back,
        RightFor left line) ∧
      ∀ line ∈ front ++ { checksum := latter, name := Manifest.headerName } :: back,
        RightFor right line

theorem mem_archiveFiles {options : BuildOptions} {data : Payload → Bytes}
    {payloads : List StagedPayload} {archives : List Bytes}
    (packs : Packs options data payloads archives) {staged : StagedPayload}
    (member : staged ∈ payloads) :
    ∃ archive,
      Container.packed options staged.entry.basename (data staged.payload) = .ok archive ∧
      (staged.entry.archiveName, archive) ∈ archiveFiles payloads archives := by
  induction packs with
  | nil => cases member
  | @cons first archive _ _ head _ ih =>
      rcases List.mem_cons.mp member with rfl | inRest
      · exact ⟨archive, head, List.mem_cons_self⟩
      · obtain ⟨found, packed, inFiles⟩ := ih inRest
        exact ⟨found, packed, List.mem_cons_of_mem _ inFiles⟩

/-- The container of an artifact, written with the contents of its payloads. -/
structure WrittenAs (artifact : Artifact) (header : Bytes) (archives : List Bytes)
    (bytes : Bytes) : Prop where
  addressed : artifact.Addressed
  packs : Packs artifact.options Payload.content artifact.payloads archives
  encoded : Container.encodeAll artifact.options.ownerName
    (artifact.outerFiles header archives) = .ok bytes
  fits : bytes.length < Tar.Numeral.wordLimit

section

variable {artifact : Artifact} {header bytes : Bytes} {archives : List Bytes}

theorem WrittenAs.names (written : artifact.WrittenAs header archives bytes) :
    (Tar.unpack? (bytes ++ Bytes.zeros (2 * Tar.blockSize))).map (·.map Prod.fst) =
      some ((outerNames artifact.payloads.length).map Bytes.utf8) := by
  rw [Tar.unpack?_of_encodeAll (artifact.plain_outerFiles header archives) written.encoded
    written.fits, Option.map_some, List.map_map, ← names_outerFiles written.addressed
    written.packs header, List.map_map]
  rfl

theorem WrittenAs.entry (written : artifact.WrittenAs header archives bytes) {name : String}
    {data : Bytes} (member : (name, data) ∈ artifact.outerFiles header archives) :
    ∃ preamble, Container.accept artifact.options.ownerName name data.length = .ok preamble ∧
      Tar.entry? (bytes ++ Bytes.zeros (2 * Tar.blockSize)) name =
        some (Container.headerOf preamble, data) := by
  have distinct : ((artifact.outerFiles header archives).map Prod.fst).Nodup := by
    rw [names_outerFiles written.addressed written.packs]
    exact nodup_outerNames _
  exact Tar.entry?_of_encodeAll (artifact.plain_outerFiles header archives) distinct
    written.encoded written.fits member

omit [Deflate] in
theorem mem_outerFiles_version :
    (Manifest.versionName, HeaderArchive.document artifact.version) ∈
      artifact.outerFiles header archives :=
  List.mem_append_left _ List.mem_cons_self

omit [Deflate] in
theorem mem_outerFiles_manifest :
    (Manifest.entryName, Manifest.encode (artifact.lines header)) ∈
      artifact.outerFiles header archives :=
  List.mem_append_left _ (List.mem_cons_of_mem _ List.mem_cons_self)

omit [Deflate] in
theorem mem_outerFiles_header :
    (Manifest.headerName, header) ∈ artifact.outerFiles header archives :=
  List.mem_append_left _ (List.mem_cons_of_mem _ (List.mem_cons_of_mem _ List.mem_cons_self))

theorem WrittenAs.rightFor (written : artifact.WrittenAs header archives bytes) :
    ∀ line ∈ artifact.lines header,
      RightFor (bytes ++ Bytes.zeros (2 * Tar.blockSize)) line := by
  intro line member
  rw [lines, List.mem_append, List.mem_reverse] at member
  rcases member with payload | fixed
  · obtain ⟨staged, inPayloads, rfl⟩ := List.mem_map.mp payload
    obtain ⟨archive, packed, inFiles⟩ := mem_archiveFiles written.packs inPayloads
    obtain ⟨_, _, found⟩ := written.entry (List.mem_append_right _ inFiles)
    exact .payload rfl found
      (Container.holdsOnly_of_packed staged.entry.validName.plain packed) rfl
  · simp only [List.mem_cons, List.not_mem_nil, or_false] at fixed
    rcases fixed with rfl | rfl
    · obtain ⟨_, _, found⟩ := written.entry mem_outerFiles_header
      exact .entry found rfl
    · obtain ⟨_, _, found⟩ := written.entry mem_outerFiles_version
      exact .entry found rfl

theorem BuiltAs.written {archive : Bytes} (built : artifact.BuiltAs archive) :
    ∃ header archives bytes, artifact.header.assemble artifact.options = .ok header ∧
      artifact.WrittenAs header archives bytes ∧
      archive = bytes ++ Bytes.zeros (2 * Tar.blockSize) := by
  obtain ⟨header, archives, bytes, assembled, packs, encoded, fits, rfl⟩ := built.parts
  exact ⟨header, archives, bytes, assembled,
    ⟨built.reachable.addressed, packs, encoded, fits⟩, rfl⟩

end

/-- Files of one name and length take the same header block in both containers. -/
theorem WrittenAs.sameBlock {first second : Artifact}
    {firstHeader secondHeader firstBytes secondBytes : Bytes}
    {firstArchives secondArchives : List Bytes}
    (written : first.WrittenAs firstHeader firstArchives firstBytes)
    (again : second.WrittenAs secondHeader secondArchives secondBytes)
    (owner : first.options.ownerName = second.options.ownerName)
    {name : String} {data other : Bytes}
    (member : (name, data) ∈ first.outerFiles firstHeader firstArchives)
    (memberToo : (name, other) ∈ second.outerFiles secondHeader secondArchives)
    (length : data.length = other.length) :
    ∃ block,
      Tar.entry? (firstBytes ++ Bytes.zeros (2 * Tar.blockSize)) name = some (block, data) ∧
      Tar.entry? (secondBytes ++ Bytes.zeros (2 * Tar.blockSize)) name = some (block, other) := by
  obtain ⟨preamble, accepted, found⟩ := written.entry member
  obtain ⟨preambleToo, acceptedToo, foundToo⟩ := again.entry memberToo
  rw [owner, length, acceptedToo, Except.ok.injEq] at accepted
  rw [← accepted] at found
  exact ⟨_, found, foundToo⟩

omit [Deflate] in
/-- The checksum of the header archive stands in one line of the manifest. -/
theorem lines_split (artifact : Artifact) (header : Bytes) :
    artifact.lines header =
      (artifact.payloads.map StagedPayload.line).reverse ++
        { checksum := Checksum.ofBytes header, name := Manifest.headerName } ::
          [{ checksum := Checksum.ofBytes (HeaderArchive.document artifact.version)
             name := Manifest.versionName }] :=
  rfl

section

variable {artifact : Artifact} {left right : BuildOptions}
  {leftHeader rightHeader leftBytes rightBytes : Bytes} {leftArchives rightArchives : List Bytes}

theorem WrittenAs.sameContents (same : left.SameButLevel right)
    (leftWritten : (artifact.withOptions left).WrittenAs leftHeader leftArchives leftBytes)
    (rightWritten : (artifact.withOptions right).WrittenAs rightHeader rightArchives rightBytes)
    (headers : Gzip.SameContent leftHeader rightHeader) {name : String}
    (listed : name ∈ outerNames artifact.payloads.length)
    (notVersion : name ≠ Manifest.versionName) (notManifest : name ≠ Manifest.entryName) :
    ∃ leftBlock former rightBlock latter,
      Tar.entry? (leftBytes ++ Bytes.zeros (2 * Tar.blockSize)) name =
        some (leftBlock, former) ∧
      Tar.entry? (rightBytes ++ Bytes.zeros (2 * Tar.blockSize)) name =
        some (rightBlock, latter) ∧
      Gzip.SameContent former latter := by
  have addressed : artifact.Addressed :=
    ⟨leftWritten.addressed.indices, leftWritten.addressed.distinct⟩
  rw [outerNames, ← archiveNames_eq addressed, List.mem_append] at listed
  rcases listed with fixed | numbered
  · simp only [List.mem_cons, List.not_mem_nil, or_false] at fixed
    rcases fixed with rfl | rfl | rfl
    · exact (notVersion rfl).elim
    · exact (notManifest rfl).elim
    · obtain ⟨_, _, found⟩ := leftWritten.entry mem_outerFiles_header
      obtain ⟨_, _, foundToo⟩ := rightWritten.entry mem_outerFiles_header
      exact ⟨_, _, _, _, found, foundToo, headers⟩
  · obtain ⟨staged, inPayloads, rfl⟩ := List.mem_map.mp numbered
    obtain ⟨_, packed, inFiles⟩ := mem_archiveFiles leftWritten.packs inPayloads
    obtain ⟨_, packedToo, inFilesToo⟩ := mem_archiveFiles rightWritten.packs inPayloads
    obtain ⟨_, _, found⟩ := leftWritten.entry (List.mem_append_right _ inFiles)
    obtain ⟨_, _, foundToo⟩ := rightWritten.entry (List.mem_append_right _ inFilesToo)
    exact ⟨_, _, _, _, found, foundToo, Container.sameContent_of_packed same packed packedToo⟩

theorem WrittenAs.sameMeaning (same : left.SameButLevel right)
    (leftWritten : (artifact.withOptions left).WrittenAs leftHeader leftArchives leftBytes)
    (rightWritten : (artifact.withOptions right).WrittenAs rightHeader rightArchives rightBytes)
    (headers : Gzip.SameContent leftHeader rightHeader) :
    SameMeaning (outerNames artifact.payloads.length) (Manifest.order artifact.entryNames)
      (leftBytes ++ Bytes.zeros (2 * Tar.blockSize))
      (rightBytes ++ Bytes.zeros (2 * Tar.blockSize)) := by
  have owner : (artifact.withOptions left).options.ownerName =
      (artifact.withOptions right).options.ownerName := by
    obtain ⟨level, rfl⟩ := same
    rfl
  have version : (artifact.withOptions left).version = (artifact.withOptions right).version := by
    obtain ⟨level, rfl⟩ := same
    rfl
  have sameLength : (Manifest.encode ((artifact.withOptions left).lines leftHeader)).length =
      (Manifest.encode ((artifact.withOptions right).lines rightHeader)).length := by
    rw [Manifest.length_encode, Manifest.length_encode, names_lines, names_lines]
    rfl
  obtain ⟨_, versionFound, versionFoundToo⟩ := leftWritten.sameBlock rightWritten owner
    mem_outerFiles_version mem_outerFiles_version (congrArg _ (congrArg _ version))
  obtain ⟨_, found, foundToo⟩ := leftWritten.sameBlock rightWritten owner
    mem_outerFiles_manifest mem_outerFiles_manifest sameLength
  have names := names_lines (artifact.withOptions right) rightHeader
  have leftRight := leftWritten.rightFor
  have rightRight := rightWritten.rightFor
  rw [lines_split, version] at found leftRight
  rw [lines_split] at foundToo rightRight
  rw [lines_split, List.map_append, List.map_cons] at names
  rw [version] at versionFound
  exact ⟨leftWritten.names, rightWritten.names, ⟨_, versionFound, versionFoundToo⟩,
    fun _ listed notVersion notManifest =>
      leftWritten.sameContents same rightWritten headers listed notVersion notManifest,
    ⟨_, _, _, _, _, found, foundToo, names, leftRight, rightRight⟩⟩

end

omit [Deflate] in
/-- The documents before the header archive say nothing of the level. -/
theorem FitsMemory.of_level {artifact : Artifact} {left right : BuildOptions}
    (same : left.SameButLevel right) (fits : (artifact.withOptions right).FitsMemory) :
    (artifact.withOptions left).FitsMemory := by
  obtain ⟨level, rfl⟩ := same
  exact fits

/-- The compression level never changes the meaning: an artifact is built at one level
exactly if it is built at the other, and the archives then hold the same. -/
theorem level_keeps_meaning {artifact : Artifact} (reachable : artifact.Reachable)
    (steady : ∀ staged ∈ artifact.payloads, staged.payload.source.Steady)
    {left right : BuildOptions} (same : left.SameButLevel right)
    (fits : (artifact.withOptions right).FitsMemory) :
    ((∃ archive, (artifact.withOptions left).build.1 = .ok archive) ↔
      ∃ archive, (artifact.withOptions right).build.1 = .ok archive) ∧
    ∀ leftArchive rightArchive, (artifact.withOptions left).build.1 = .ok leftArchive →
      (artifact.withOptions right).build.1 = .ok rightArchive →
      leftArchive.length < Tar.Numeral.wordLimit →
      rightArchive.length < Tar.Numeral.wordLimit →
      SameMeaning (outerNames artifact.payloads.length) (Manifest.order artifact.entryNames)
        leftArchive rightArchive := by
  have reached (options : BuildOptions) : (artifact.withOptions options).Reachable := by
    obtain ⟨name, deviceTypes, calls, rfl⟩ := reachable
    exact ⟨name, deviceTypes, calls ++ [.options options], by simp [performAll, perform]⟩
  refine ⟨⟨?_, ?_⟩, ?_⟩
  · rintro ⟨archive, built⟩
    exact build_of_level reachable.addressed same fits.draftFits built
  · rintro ⟨archive, built⟩
    exact build_of_level reachable.addressed same.symm (fits.of_level same).draftFits built
  · intro leftArchive rightArchive leftBuilt rightBuilt leftFits rightFits
    have leftAs : (artifact.withOptions left).BuiltAs leftArchive :=
      ⟨reached left, steady, leftBuilt, leftFits⟩
    have rightAs : (artifact.withOptions right).BuiltAs rightArchive :=
      ⟨reached right, steady, rightBuilt, rightFits⟩
    obtain ⟨leftHeader, leftArchives, leftBytes, leftAssembled, leftWritten, rfl⟩ :=
      leftAs.written
    obtain ⟨rightHeader, rightArchives, rightBytes, rightAssembled, rightWritten, rfl⟩ :=
      rightAs.written
    obtain ⟨other, again, headers⟩ := HeaderArchive.assemble_of_level
      ((artifact.withOptions left).entryNames_header ▸ leftWritten.addressed.distinct) same
      leftAssembled
    cases rightAssembled.symm.trans again
    exact WrittenAs.sameMeaning same leftWritten rightWritten headers

end Artifact

end

namespace Artifact

theorem level_keeps_meaning_image :
    ∃ fast small,
      ((single single.pieced single.valid_image).withOptions { compressionLevel := 1 }).build.1 =
        .ok fast ∧
      ((single single.pieced single.valid_image).withOptions { compressionLevel := 9 }).build.1 =
        .ok small ∧
      SameMeaning ["version", "manifest", "header.tar.gz", "data/0000.tar.gz"]
        ["data/0000/image", "header.tar.gz", "version"] fast small := by
  obtain ⟨readable, _, copied⟩ := single.read_pieced "image"
  have little : (Payload.copied
      { source := single.pieced, name := some "image" }).length ≤ 1000 := by
    rw [copied]
    decide
  have built (level : Nat) := single.builds_of_owner single.pieced single.valid_image
    (show ({ compressionLevel := level } : BuildOptions).ownerName = "root" from rfl)
    (by decide : BuildOptions.BlockFits {}) rfl readable (by decide) (by decide) little
  obtain ⟨fast, fastBuilt, fastFits⟩ := built 1
  obtain ⟨small, smallBuilt, smallFits⟩ := built 9
  have steady : ∀ staged ∈ (single single.pieced single.valid_image).payloads,
      staged.payload.source.Steady := by
    intro staged member
    rw [List.mem_singleton.mp member]
    exact single.delivers_pieced.steady
  have same : ({ compressionLevel := 1 } : BuildOptions).SameButLevel { compressionLevel := 9 } :=
    ⟨1, rfl⟩
  have fits : ((single single.pieced single.valid_image).withOptions
      { compressionLevel := 9 }).FitsMemory :=
    fitsMemory_single single.pieced single.valid_image (by decide)
  have meaning := (level_keeps_meaning (single.reachable _ _) steady same fits).2 fast small
    fastBuilt smallBuilt fastFits smallFits
  have names : outerNames 1 = ["version", "manifest", "header.tar.gz", "data/0000.tar.gz"] := by
    decide
  have lines : Manifest.order [(PayloadEntry.first single.valid_image).entryName] =
      ["data/0000/image", "header.tar.gz", "version"] := by
    decide
  have counted : SameMeaning (outerNames 1)
      (Manifest.order [(PayloadEntry.first single.valid_image).entryName]) fast small := meaning
  rw [names, lines] at counted
  exact ⟨fast, small, fastBuilt, smallBuilt, counted⟩

end Artifact

end UpdateArtifact
