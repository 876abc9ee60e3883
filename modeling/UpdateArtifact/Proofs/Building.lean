import Mathlib.Data.List.Forall2
import UpdateArtifact.Proofs.Embedding
import UpdateArtifact.Proofs.Opening

/-!
# What a build writes

Payloads are embedded one after the other, and each adds its own bytes to the
archive and its own line to the manifest.  A build that succeeds therefore is the
container of its files, with the manifest complete, as if all checksums had been
known.
-/

namespace UpdateArtifact

variable [Deflate]

open Tar (Container)

/-- The bytes that payloads add to the outer container when each embeds some
data, up to the first that is refused. -/
def encodePayloads (options : BuildOptions) (owner : String) (data : Payload → Bytes) :
    List StagedPayload → Except Tar.WriteFault Bytes
  | [] => .ok []
  | staged :: rest =>
      match Payload.encodeEmbedded staged.entry options owner (data staged.payload) with
      | .error fault => .error fault
      | .ok bytes => (encodePayloads options owner data rest).map (bytes ++ ·)

theorem encodePayloads_congr {options : BuildOptions} {owner : String}
    {left right : Payload → Bytes} {payloads : List StagedPayload}
    (same : ∀ staged ∈ payloads, left staged.payload = right staged.payload) :
    encodePayloads options owner left payloads = encodePayloads options owner right payloads := by
  induction payloads with
  | nil => rfl
  | cons staged rest ih =>
      rw [encodePayloads, encodePayloads, same staged List.mem_cons_self,
        ih fun other member => same other (List.mem_cons_of_mem _ member)]

/-- The archives of some payloads, each with the data that the payload embeds. -/
def Packs (options : BuildOptions) (data : Payload → Bytes) (payloads : List StagedPayload)
    (archives : List Bytes) : Prop :=
  List.Forall₂
    (fun staged archive =>
      Container.packed options staged.entry.basename (data staged.payload) = .ok archive)
    payloads archives

def archiveFiles (payloads : List StagedPayload) (archives : List Bytes) :
    List (String × Bytes) :=
  (payloads.map (·.entry.archiveName)).zip archives

theorem encodePayloads_ok {options : BuildOptions} {owner : String} {data : Payload → Bytes}
    {payloads : List StagedPayload} {bytes : Bytes}
    (encoded : encodePayloads options owner data payloads = .ok bytes) :
    ∃ archives, Packs options data payloads archives ∧
      Container.encodeAll owner (archiveFiles payloads archives) = .ok bytes := by
  induction payloads generalizing bytes with
  | nil =>
      cases encoded
      exact ⟨[], .nil, rfl⟩
  | cons staged rest ih =>
      simp only [encodePayloads, Payload.encodeEmbedded] at encoded
      cases pack : Container.packed options staged.entry.basename (data staged.payload) with
      | error fault => simp [pack] at encoded
      | ok archive =>
          cases first : Container.encodeFile owner staged.entry.archiveName archive with
          | error fault => simp [pack, first] at encoded
          | ok front =>
              cases later : encodePayloads options owner data rest with
              | error fault => simp [pack, first, later, Except.map] at encoded
              | ok back =>
                  simp only [pack, first, later, Except.map, Except.ok.injEq] at encoded
                  obtain ⟨archives, packs, all⟩ := ih later
                  refine ⟨archive :: archives, .cons pack packs, ?_⟩
                  simp only [archiveFiles] at all
                  simp [archiveFiles, Container.encodeAll, first, all, Except.map, encoded]

omit [Deflate] in
/-- The lines of payloads on top of others, the last payload first. -/
def linesOver (lines : List Manifest.Line) (payloads : List StagedPayload) :
    List Manifest.Line :=
  (payloads.map StagedPayload.line).reverse ++ lines

omit [Deflate] in
theorem linesOver_cons (lines : List Manifest.Line) (staged : StagedPayload)
    (rest : List StagedPayload) :
    linesOver lines (staged :: rest) = linesOver (staged.line :: lines) rest := by
  simp [linesOver]

namespace Artifact

omit [Deflate] in
theorem record_payload {artifact : Artifact} {lines : List Manifest.Line}
    {staged : StagedPayload} {rest : List StagedPayload}
    (member : staged ∈ artifact.payloads)
    (distinct : ((linesOver lines (staged :: rest)).map Manifest.Line.name).Nodup)
    (checksum : Checksum) :
    (artifact.collected lines).record staged.entry.entryName checksum =
      (.ok (), artifact.collected ({ checksum, name := staged.entry.entryName } :: lines)) := by
  apply artifact.record_collected lines
  · rw [Manifest.order, List.mem_append, List.mem_reverse]
    exact .inl (List.mem_map_of_mem member)
  · rw [linesOver_cons, linesOver, List.map_append, List.map_cons] at distinct
    exact (List.nodup_cons.mp (List.nodup_append.mp distinct).2.1).1

omit [Deflate] in
theorem record_line {artifact : Artifact} {lines : List Manifest.Line}
    {staged : StagedPayload} {rest : List StagedPayload}
    (member : staged ∈ artifact.payloads)
    (distinct : ((linesOver lines (staged :: rest)).map Manifest.Line.name).Nodup) :
    (artifact.collected lines).record staged.entry.entryName
        (Checksum.ofBytes staged.payload.content) =
      (.ok (), artifact.collected (staged.line :: lines)) :=
  record_payload member distinct _

/-- Payloads that were embedded: each has its line, and each added as many bytes of
its second pass as the first one had. -/
theorem embedAll_ok {artifact : Artifact} {options : BuildOptions} {outer grown : Container}
    {manifest : Manifest.Pending} {payloads after : List StagedPayload}
    {lines : List Manifest.Line} (listed : ∀ staged ∈ payloads, staged ∈ artifact.payloads)
    (distinct : ((linesOver lines payloads).map Manifest.Line.name).Nodup)
    (embedded : embedAll options outer (artifact.collected lines) payloads =
      (.ok (grown, manifest), after)) :
    manifest = artifact.collected (linesOver lines payloads) ∧
      (∃ bytes, encodePayloads options outer.owner Payload.copied payloads = .ok bytes ∧
        grown = outer.extend bytes) ∧
      ∀ staged ∈ payloads, staged.payload.copied.length = staged.payload.content.length := by
  induction payloads generalizing outer lines after with
  | nil =>
      simp only [embedAll, Prod.mk.injEq, Except.ok.injEq] at embedded
      obtain ⟨⟨rfl, rfl⟩, rfl⟩ := embedded
      exact ⟨rfl, ⟨[], rfl, (Container.extend_nil _).symm⟩, by simp⟩
  | cons staged rest ih =>
      have recorded := record_line (listed staged List.mem_cons_self) distinct
      rcases first : staged.payload.embed staged.entry options outer with
        ⟨outcome, next, payload⟩
      cases outcome with
      | error error => simp [embedAll, first] at embedded
      | ok checksum =>
          obtain ⟨rfl, whole, front, written, rfl⟩ := Payload.embed_ok first
          rcases later : embedAll options (outer.extend front)
            (artifact.collected (staged.line :: lines)) rest with ⟨outcome, others⟩
          simp only [embedAll, first, recorded, later, Prod.mk.injEq] at embedded
          obtain ⟨rfl, _⟩ := embedded
          obtain ⟨rfl, ⟨back, all, rfl⟩, wholes⟩ := ih
            (fun other member => listed other (List.mem_cons_of_mem _ member))
            (linesOver_cons lines staged rest ▸ distinct) later
          refine ⟨by rw [linesOver_cons], ⟨front ++ back, ?_, ?_⟩, ?_⟩
          · rw [Container.owner_extend] at all
            simp [encodePayloads, written, all, Except.map]
          · exact Container.extend_extend _ _ _
          · intro other member
            rcases List.mem_cons.mp member with rfl | inRest
            · exact whole
            · exact wholes other inRest

theorem embedAll_of_readable {artifact : Artifact} {options : BuildOptions}
    (block : options.BlockFits) {payloads : List StagedPayload}
    (readable : ∀ staged ∈ payloads, staged.payload.Readable)
    (listed : ∀ staged ∈ payloads, staged ∈ artifact.payloads) {lines : List Manifest.Line}
    (distinct : ((linesOver lines payloads).map Manifest.Line.name).Nodup)
    (outer : Container) :
    ∃ after, embedAll options outer (artifact.collected lines) payloads =
      match encodePayloads options outer.owner Payload.copied payloads with
      | .error fault => (.error (.write fault), after)
      | .ok bytes =>
          (.ok (outer.extend bytes, artifact.collected (linesOver lines payloads)), after) := by
  induction payloads generalizing outer lines with
  | nil => exact ⟨[], by simp [embedAll, encodePayloads, Container.extend_nil, linesOver]⟩
  | cons staged rest ih =>
      have recorded := record_line (listed staged List.mem_cons_self) distinct
      obtain ⟨payload, first⟩ := Payload.embed_of_readable
        (readable staged List.mem_cons_self) staged.entry block outer
      cases written : Payload.encodeEmbedded staged.entry options outer.owner
          staged.payload.copied with
      | error fault =>
          rw [written] at first
          exact ⟨_, by simp only [embedAll, first, encodePayloads, written]; rfl⟩
      | ok front =>
          rw [written] at first
          obtain ⟨after, later⟩ := ih
            (fun other member => readable other (List.mem_cons_of_mem _ member))
            (fun other member => listed other (List.mem_cons_of_mem _ member))
            (linesOver_cons lines staged rest ▸ distinct) (outer.extend front)
          refine ⟨{ staged with payload } :: after, ?_⟩
          simp only [embedAll, first, recorded, later, encodePayloads, written,
            Container.owner_extend, linesOver_cons]
          cases encodePayloads options outer.owner Payload.copied rest with
          | error fault => rfl
          | ok back => simp [Except.map, Container.extend_extend]

def outerFiles (artifact : Artifact) (header : Bytes) (archives : List Bytes) :
    List (String × Bytes) :=
  artifact.openingFiles header ++ archiveFiles artifact.payloads archives

omit [Deflate] in
theorem nodup_linesOver {artifact : Artifact} (addressed : artifact.Addressed)
    (header : Bytes) :
    ((linesOver (artifact.openingLines header) artifact.payloads).map
      Manifest.Line.name).Nodup := by
  have distinct := artifact.nodup_names addressed
  rw [← artifact.names_lines header] at distinct
  exact distinct

omit [Deflate] in
theorem collected_lines (artifact : Artifact) (header : Bytes) :
    artifact.collected (linesOver (artifact.openingLines header) artifact.payloads) =
      .ofLines (Manifest.slotsFrom 0 ((artifact.lines header).map Manifest.Line.name))
        (artifact.lines header) := by
  rw [names_lines]
  rfl

omit [Deflate] in
theorem draft_eq (artifact : Artifact) (header : Bytes) :
    artifact.draft = Manifest.draftBody ((artifact.lines header).map Manifest.Line.name) := by
  rw [names_lines]
  rfl

omit [Deflate] in
theorem plain_version (artifact : Artifact) :
    (∀ file ∈ [(Manifest.versionName, HeaderArchive.document artifact.version)],
      Tar.Path.Plain file.1) ∧
    ∀ file ∈ [(Manifest.versionName, HeaderArchive.document artifact.version)],
      file.1 ≠ Manifest.entryName := by
  constructor
  · intro file member
    rw [List.mem_singleton.mp member]
    exact (by decide : Tar.Path.Plain Manifest.versionName)
  · intro file member
    rw [List.mem_singleton.mp member]
    exact (by decide : Manifest.versionName ≠ Manifest.entryName)

omit [Deflate] in
theorem split_of_drafted {artifact : Artifact} (fits : artifact.DraftFits)
    {header opening : Bytes}
    (drafted : Container.encodeAll artifact.options.ownerName
      (artifact.filesWith artifact.draft header) = .ok opening) :
    ∃ front preamble rest,
      Container.encodeAll artifact.options.ownerName
          [(Manifest.versionName, HeaderArchive.document artifact.version)] = .ok front ∧
        Container.accept artifact.options.ownerName Manifest.entryName artifact.draft.length =
          .ok preamble ∧
        Container.encodeAll artifact.options.ownerName [(Manifest.headerName, header)] =
          .ok rest ∧
        opening = front ++ (preamble ++ artifact.draft ++
          Bytes.zeros (Tar.gap artifact.draft.length) ++ rest) ∧
        front.length + preamble.length +
          (artifact.draft.length + Tar.gap artifact.draft.length) < Tar.Numeral.wordLimit := by
  let version := (Manifest.versionName, HeaderArchive.document artifact.version)
  obtain ⟨front, preamble, rest, first, accepted, later, shape⟩ :=
    Container.encodeAll_split (show Container.encodeAll artifact.options.ownerName
      ([version] ++ (Manifest.entryName, artifact.draft) :: [(Manifest.headerName, header)]) =
        .ok opening from drafted)
  have opened := fits _ (show Container.encodeAll artifact.options.ownerName
    ([version] ++ [(Manifest.entryName, artifact.draft)]) = _ from
      Container.encodeAll_join first accepted rfl)
  simp only [List.length_append, Bytes.length_zeros, List.length_nil] at opened
  exact ⟨front, preamble, rest, first, accepted, later, shape, by omega⟩

omit [Deflate] in
/-- Completing the manifest of a finished archive gives the archive with the manifest
complete from the start. -/
theorem finalize_close {artifact : Artifact} (addressed : artifact.Addressed)
    {header front back : Bytes} {more : List (String × Bytes)}
    (drafted : Container.encodeAll artifact.options.ownerName
      (artifact.filesWith artifact.draft header) = .ok front)
    (written : Container.encodeAll artifact.options.ownerName more = .ok back)
    (fits : artifact.DraftFits) :
    ∃ complete,
      Container.encodeAll artifact.options.ownerName (artifact.openingFiles header ++ more) =
          .ok complete ∧
        (artifact.collected (linesOver (artifact.openingLines header) artifact.payloads)).finalize
            (front ++ back ++ Bytes.zeros (2 * Tar.blockSize)) =
          (.ok (artifact.lines header), complete ++ Bytes.zeros (2 * Tar.blockSize)) := by
  obtain ⟨plain, others⟩ := artifact.plain_version
  obtain ⟨first, preamble, rest, encoded, accepted, later, rfl, room⟩ :=
    split_of_drafted fits drafted
  have distinct : ((artifact.lines header).map Manifest.Line.name).Nodup :=
    nodup_linesOver addressed header
  have following : Container.encodeAll artifact.options.ownerName
      ((Manifest.headerName, header) :: more) = .ok (rest ++ back) := by
    show Container.encodeAll artifact.options.ownerName
      ([(Manifest.headerName, header)] ++ more) = .ok (rest ++ back)
    rw [Container.encodeAll_append, later, written]
    rfl
  have complete := Container.encodeAll_join encoded
    (artifact.length_encode_lines header ▸ accepted) following
  refine ⟨_, complete, ?_⟩
  rw [artifact.length_encode_lines header, artifact.collected_lines header]
  rw [artifact.draft_eq header] at accepted room ⊢
  simpa only [List.append_assoc] using
    Manifest.Pending.finalize_of_split plain others distinct encoded accepted room
      (rest ++ back ++ Bytes.zeros (2 * Tar.blockSize))

theorem build_of_refusal {artifact : Artifact} {refusal : Refusal}
    (invalid : artifact.validate = .error refusal) :
    artifact.build = (.error (.validation refusal), artifact) := by
  simp only [build, invalid]

theorem build_of_large {artifact : Artifact} (valid : artifact.validate = .ok ())
    (large : ¬ artifact.options.BlockFits) : artifact.build = (.error .panic, artifact) := by
  simp only [build, valid, opening_of_large large]

theorem blockFits_of_build {artifact : Artifact} {archive : Bytes}
    (built : artifact.build.1 = .ok archive) :
    artifact.validate = .ok () ∧ artifact.options.BlockFits := by
  cases valid : artifact.validate with
  | error refusal => simp [build, valid] at built
  | ok done =>
      refine ⟨rfl, ?_⟩
      by_contra large
      rw [build_of_large valid large] at built
      contradiction

theorem build_of_opening {artifact : Artifact} {header front : Bytes}
    (valid : artifact.validate = .ok ())
    (opened : artifact.opening =
      .ok ((Container.start artifact.options).extend front,
        artifact.collected (artifact.openingLines header))) :
    artifact.build.1 =
      match embedAll artifact.options ((Container.start artifact.options).extend front)
        (artifact.collected (artifact.openingLines header)) artifact.payloads with
      | (.error error, _) => .error error
      | (.ok (outer, manifest), _) =>
          (manifest.finalize outer.close).1.map fun _ => (manifest.finalize outer.close).2 := by
  simp only [build, valid, opened]
  rcases embedAll artifact.options ((Container.start artifact.options).extend front)
    (artifact.collected (artifact.openingLines header)) artifact.payloads with
    ⟨_ | ⟨outer, manifest⟩, after⟩
  · rfl
  · rfl

/-- A build that succeeds gives the container of the files of the artifact, with the
manifest complete. -/
theorem build_ok {artifact : Artifact} (addressed : artifact.Addressed) {archive : Bytes}
    (built : artifact.build.1 = .ok archive)
    (fits : archive.length < Tar.Numeral.wordLimit) :
    ∃ header archives bytes,
      artifact.header.assemble artifact.options = .ok header ∧
        Packs artifact.options Payload.copied artifact.payloads archives ∧
        Container.encodeAll artifact.options.ownerName
          (artifact.outerFiles header archives) = .ok bytes ∧
        archive = bytes ++ Bytes.zeros (2 * Tar.blockSize) ∧
        ∀ staged ∈ artifact.payloads,
          staged.payload.copied.length = staged.payload.content.length := by
  obtain ⟨valid, block⟩ := blockFits_of_build built
  rcases opening_eq addressed block with
    ⟨error, _, opened⟩ | ⟨header, front, assembled, drafted, opened⟩
  · simp [build, valid, opened] at built
  · rw [build_of_opening valid opened] at built
    rcases embedded : embedAll artifact.options
      ((Container.start artifact.options).extend front)
      (artifact.collected (artifact.openingLines header)) artifact.payloads with
      ⟨_ | ⟨grown, manifest⟩, after⟩
    · rw [embedded] at built
      contradiction
    · rw [embedded] at built
      obtain ⟨rfl, ⟨back, written, rfl⟩, whole⟩ := embedAll_ok (fun _ member => member)
        (nodup_linesOver addressed header) embedded
      obtain ⟨archives, packs, more⟩ := encodePayloads_ok written
      simp only [Container.extend_extend, Container.close_extend_start] at built
      obtain ⟨rfl, length⟩ := Manifest.Pending.finalize_ok built
      rw [List.length_append, List.length_append] at length
      obtain ⟨complete, all, done⟩ := finalize_close addressed drafted more
        (draftFits_of_length_lt rfl drafted (by omega))
      exact ⟨header, archives, complete, assembled, packs, all, congrArg Prod.snd done, whole⟩

theorem encodeAll_openingFiles {artifact : Artifact} (addressed : artifact.Addressed)
    {header : Bytes} (assembled : artifact.header.assemble artifact.options = .ok header) :
    ∃ opening, Container.encodeAll artifact.options.ownerName (artifact.openingFiles header) =
      .ok opening :=
  artifact.encodeAll_filesWith (ownerFault?_of_assemble addressed assembled) _ header

/-- The only thing left to fail, if payloads can be read, is the name of a payload. -/
theorem build_of_refused {artifact : Artifact} (addressed : artifact.Addressed)
    (block : artifact.options.BlockFits) {header : Bytes} {fault : Tar.WriteFault}
    (valid : artifact.validate = .ok ())
    (assembled : artifact.header.assemble artifact.options = .ok header)
    (readable : ∀ staged ∈ artifact.payloads, staged.payload.Readable)
    (refused : encodePayloads artifact.options artifact.options.ownerName Payload.copied
      artifact.payloads = .error fault) :
    artifact.build.1 = .error (.write fault) := by
  rcases opening_eq addressed block with
    ⟨error, failed, _⟩ | ⟨same, front, again, drafted, opened⟩
  · rw [assembled] at failed
    contradiction
  · obtain ⟨after, embedded⟩ := embedAll_of_readable block readable
      (fun _ member => member) (nodup_linesOver addressed same)
      ((Container.start artifact.options).extend front)
    rw [Container.owner_extend, Container.owner_start, refused] at embedded
    rw [build_of_opening valid opened, embedded]

theorem build_of_written {artifact : Artifact} (addressed : artifact.Addressed)
    (block : artifact.options.BlockFits) {header front back : Bytes}
    (valid : artifact.validate = .ok ())
    (assembled : artifact.header.assemble artifact.options = .ok header)
    (readable : ∀ staged ∈ artifact.payloads, staged.payload.Readable)
    (opening : Container.encodeAll artifact.options.ownerName (artifact.openingFiles header) =
      .ok front)
    (written : encodePayloads artifact.options artifact.options.ownerName Payload.copied
      artifact.payloads = .ok back)
    (fits : artifact.DraftFits) :
    artifact.build.1 = .ok (front ++ back ++ Bytes.zeros (2 * Tar.blockSize)) := by
  rcases opening_eq addressed block with
    ⟨error, failed, _⟩ | ⟨same, draft, again, drafted, opened⟩
  · rw [assembled] at failed
    contradiction
  · rw [assembled] at again
    cases again
    obtain ⟨after, embedded⟩ := embedAll_of_readable block readable
      (fun _ member => member) (nodup_linesOver addressed header)
      ((Container.start artifact.options).extend draft)
    obtain ⟨archives, _, more⟩ := encodePayloads_ok written
    have complete : Container.encodeAll artifact.options.ownerName
        (artifact.openingFiles header ++ archiveFiles artifact.payloads archives) =
          .ok (front ++ back) := by
      rw [Container.encodeAll_append, opening, more]
      rfl
    obtain ⟨final, all, done⟩ := finalize_close addressed drafted more fits
    rw [complete] at all
    cases all
    rw [Container.owner_extend, Container.owner_start, written] at embedded
    rw [build_of_opening valid opened, embedded]
    simp only [Container.extend_extend, Container.close_extend_start, done]
    rfl

end Artifact

end UpdateArtifact
