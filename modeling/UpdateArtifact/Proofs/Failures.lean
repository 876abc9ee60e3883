import UpdateArtifact.Proofs.SinglePayload

/-!
# How a build can fail

The names of an artifact never meet, every checksum has a line of its own, and the
draft stands as it was written where the manifest is found.  So a build ends with
what validation refuses or with the failure of a stream or an archive, and never
with a fault of its own making.
-/

namespace UpdateArtifact

open Tar (Container)

namespace Manifest.Pending

/-- A manifest that can be completed: it is found in the archive, and every slot has a
checksum, lies inside and holds the placeholder. -/
def Ready (pending : Pending) (archive : Bytes) : Prop :=
  ∃ start, Tar.dataOffset archive entryName = .ok (some start) ∧
    ∀ slot ∈ pending.slots, (pending.checksum? slot.name).isSome ∧
      start + slot.offset + Checksum.textWidth ≤ archive.length ∧
      Bytes.slice (start + slot.offset) Checksum.textWidth archive = placeholder

theorem kind_of_patch {pending : Pending} {start : Nat} {buffer : Bytes} {slots : List Slot}
    {error : ArtifactError} (failed : (pending.patch start buffer slots).1 = .error error) :
    error.kind = .backpatch := by
  induction slots generalizing buffer with
  | nil => cases failed
  | cons slot rest ih =>
      simp only [patch] at failed
      split at failed
      · cases failed
        rfl
      · next checksum _ =>
          split at failed
          · cases failed
            rfl
          · split at failed
            · cases failed
              rfl
            · cases later : (pending.patch start (overwrite buffer (start + slot.offset)
                (Bytes.utf8 checksum.hex)) rest).1 with
              | ok lines => simp [later, Except.map] at failed
              | error cause =>
                  rw [later] at failed
                  cases failed
                  exact ih later

theorem finalize_ne_panic (pending : Pending) (archive : Bytes) :
    (pending.finalize archive).1 ≠ .error .panic := by
  intro panics
  unfold finalize at panics
  split at panics
  · cases panics
  · cases panics
  · cases kind_of_patch panics

theorem ready_of_split {owner : String} {before : List (String × Bytes)}
    {lines : List Line} {front preamble : Bytes}
    (plain : ∀ file ∈ before, Tar.Path.Plain file.1)
    (others : ∀ file ∈ before, file.1 ≠ entryName) (distinct : (lines.map Line.name).Nodup)
    (first : Container.encodeAll owner before = .ok front)
    (accepted : Container.accept owner entryName
      (draftBody (lines.map Line.name)).length = .ok preamble)
    (room : front.length + preamble.length +
        ((draftBody (lines.map Line.name)).length +
          Tar.gap (draftBody (lines.map Line.name)).length) < Tar.Numeral.wordLimit)
    (rest : Bytes) :
    (ofLines (slotsFrom 0 (lines.map Line.name)) lines).Ready
      (front ++ (preamble ++ draftBody (lines.map Line.name) ++
        Bytes.zeros (Tar.gap (draftBody (lines.map Line.name)).length) ++ rest)) := by
  have found := Tar.dataOffset_of_split plain first others (by decide) accepted rest room
  refine ⟨front.length + preamble.length, found, ?_⟩
  intro slot member
  constructor
  · have named : slot.name ∈ lines.map Line.name := by
      rw [← names_slotsFrom 0 (lines.map Line.name)]
      exact List.mem_map_of_mem member
    obtain ⟨line, inLines, same⟩ := List.mem_map.mp named
    rw [← same, checksum?_ofLines _ distinct line inLines]
    rfl
  · have place : front.length + preamble.length + 0 = (front ++ preamble).length := by
      rw [List.length_append]
      rfl
    have unfilled := open_of_mem_slotsFrom place
      (Bytes.zeros (Tar.gap (draftBody (lines.map Line.name)).length) ++ rest) slot member
    simpa only [List.append_assoc] using unfilled

end Manifest.Pending

theorem linesOver_append (lines : List Manifest.Line) (front back : List StagedPayload) :
    linesOver lines (front ++ back) = linesOver (linesOver lines front) back := by
  simp [linesOver]

theorem Payload.kind_of_embed [Deflate] {payload after : Payload} {entry : PayloadEntry}
    {options : BuildOptions} (block : options.BlockFits) {outer grown : Container}
    {error : ArtifactError}
    (failed : payload.embed entry options outer = (.error error, grown, after)) :
    error.kind = .io := by
  unfold embed at failed
  split at failed
  · next digested =>
      obtain ⟨_, rfl⟩ := Source.source_of_digest_error block digested
      cases failed
      rfl
  · split at failed
    · cases failed
      rfl
    · split at failed
      · cases failed
        rfl
      · split at failed
        · cases failed
          rfl
        · simp at failed

namespace Artifact

/-- The documents at the start of the archive are no longer than a buffer can be. -/
def FitsMemory (artifact : Artifact) : Prop :=
  (HeaderArchive.document artifact.version).length + artifact.draft.length < 2 ^ 63

theorem FitsMemory.draftFits {artifact : Artifact} (fits : artifact.FitsMemory) :
    artifact.DraftFits := by
  intro opened encoded
  cases fit : Container.ownerFault? artifact.options.ownerName with
  | some fault =>
      simp [draftFiles, Container.encodeAll, Container.encodeFile_of_ownerFault fit] at encoded
  | none =>
      have short : ∀ file ∈ artifact.draftFiles, Container.Short file.1 := by
        intro file member
        simp only [draftFiles, List.mem_cons, List.not_mem_nil, or_false] at member
        rcases member with rfl | rfl
        · exact (by decide : Container.Short Manifest.versionName)
        · exact (by decide : Container.Short Manifest.entryName)
      obtain ⟨bytes, written, bound⟩ := Container.encodeAll_of_short fit short
      rw [encoded] at written
      cases written
      simp only [draftFiles, List.map_cons, List.map_nil, List.sum_cons, List.sum_nil] at bound
      unfold FitsMemory at fits
      rw [Tar.Numeral.wordLimit]
      omega

section

variable [Deflate]

theorem kind_of_opening {artifact : Artifact} (addressed : artifact.Addressed)
    (block : artifact.options.BlockFits) {error : ArtifactError}
    (failed : artifact.opening = .error error) : error.kind = .io := by
  rcases opening_eq addressed block with ⟨cause, assembled, opened⟩ | ⟨header, bytes, _, _, opened⟩
  · rw [opened] at failed
    cases failed
    rw [HeaderArchive.assemble_eq _ (artifact.entryNames_header ▸ addressed.distinct)]
      at assembled
    split at assembled
    · cases assembled
      rfl
    · contradiction
  · rw [opened] at failed
    contradiction

/-- Payloads fail to be embedded by a source or a name, and never by a line. -/
theorem kind_of_embedAll {artifact : Artifact} {options : BuildOptions}
    (block : options.BlockFits) {outer : Container} {payloads after : List StagedPayload}
    {lines : List Manifest.Line} {error : ArtifactError}
    (listed : ∀ staged ∈ payloads, staged ∈ artifact.payloads)
    (distinct : ((linesOver lines payloads).map Manifest.Line.name).Nodup)
    (failed : embedAll options outer (artifact.collected lines) payloads =
      (.error error, after)) : error.kind = .io := by
  induction payloads generalizing outer lines after with
  | nil => simp [embedAll] at failed
  | cons staged rest ih =>
      rcases first : staged.payload.embed staged.entry options outer with
        ⟨_ | checksum, next, payload⟩
      · simp only [embedAll, first, Prod.mk.injEq, Except.error.injEq] at failed
        rw [← failed.1]
        exact Payload.kind_of_embed block first
      -- The line of a payload that was embedded is open, so recording its checksum works.
      · obtain ⟨rfl, _⟩ := Payload.embed_ok first
        have recorded := record_line (listed staged List.mem_cons_self) distinct
        rcases later : embedAll options next (artifact.collected (staged.line :: lines)) rest
          with ⟨outcome, others⟩
        simp only [embedAll, first, recorded, later, Prod.mk.injEq] at failed
        obtain ⟨rfl, _⟩ := failed
        exact ih (fun other member => listed other (List.mem_cons_of_mem _ member))
          (linesOver_cons lines staged rest ▸ distinct) later

/-- Where the loop over the payloads stands after the first of them. -/
theorem embedAll_of_opening {artifact : Artifact} (addressed : artifact.Addressed)
    {outer grown : Container} {manifest pending : Manifest.Pending}
    {front back after : List StagedPayload}
    (opened : artifact.opening = .ok (outer, manifest))
    (payloads : artifact.payloads = front ++ back)
    (embedded : embedAll artifact.options outer manifest front = (.ok (grown, pending), after)) :
    ∃ header opening bytes,
      Container.encodeAll artifact.options.ownerName
          (artifact.filesWith artifact.draft header) = .ok opening ∧
        encodePayloads artifact.options artifact.options.ownerName Payload.copied front =
          .ok bytes ∧
        grown = (Container.start artifact.options).extend (opening ++ bytes) ∧
        pending = artifact.collected (linesOver (artifact.openingLines header) front) ∧
        ((linesOver (linesOver (artifact.openingLines header) front) back).map
          Manifest.Line.name).Nodup := by
  rcases opening_eq addressed (blockFits_of_opening opened) with
    ⟨error, _, failed⟩ | ⟨header, opening, _, written, started⟩
  · rw [opened] at failed
    contradiction
  · rw [opened] at started
    cases started
    have distinct := nodup_linesOver addressed header
    rw [payloads, linesOver_append] at distinct
    have listed : ∀ staged ∈ front, staged ∈ artifact.payloads := by
      intro staged member
      rw [payloads]
      exact List.mem_append_left _ member
    have open' : ((linesOver (artifact.openingLines header) front).map
        Manifest.Line.name).Nodup := by
      rw [linesOver, List.map_append] at distinct
      exact (List.nodup_append.mp distinct).2.1
    obtain ⟨rfl, ⟨bytes, encoded, rfl⟩, _⟩ := embedAll_ok listed open' embedded
    exact ⟨header, opening, bytes, written, encoded, Container.extend_extend _ _ _, rfl,
      distinct⟩

omit [Deflate] in
theorem ready_close {artifact : Artifact} (addressed : artifact.Addressed)
    (fits : artifact.DraftFits) {header opening : Bytes} (bytes : Bytes)
    (written : Container.encodeAll artifact.options.ownerName
      (artifact.filesWith artifact.draft header) = .ok opening) :
    (artifact.collected (linesOver (artifact.openingLines header) artifact.payloads)).Ready
      ((Container.start artifact.options).extend (opening ++ bytes)).close := by
  obtain ⟨plain, others⟩ := artifact.plain_version
  obtain ⟨first, preamble, rest, encoded, accepted, _, rfl, room⟩ :=
    split_of_drafted fits written
  have distinct : ((artifact.lines header).map Manifest.Line.name).Nodup :=
    nodup_linesOver addressed header
  rw [Container.close_extend_start, artifact.collected_lines header]
  rw [artifact.draft_eq header] at accepted room ⊢
  simpa only [List.append_assoc] using
    Manifest.Pending.ready_of_split plain others distinct encoded accepted room
      (rest ++ bytes ++ Bytes.zeros (2 * Tar.blockSize))

/-- What a build checks of its own work. -/
structure ChecksPass (artifact : Artifact) : Prop where
  unrepeated : HeaderArchive.firstRepeated? []
    (artifact.header.payloads.map fun (entry, _) => entry.entryName) = none
  drafted : ∃ draft, Manifest.Draft.ofNames (Manifest.order artifact.entryNames) = .ok draft ∧
    ∀ version header, ∃ first second,
      draft.pending.record Manifest.versionName version = (.ok (), first) ∧
        first.record Manifest.headerName header = (.ok (), second)
  recorded : ∀ outer manifest front staged back grown pending after,
    artifact.opening = .ok (outer, manifest) → artifact.payloads = front ++ staged :: back →
      embedAll artifact.options outer manifest front = (.ok (grown, pending), after) →
        ∀ checksum, (pending.record staged.entry.entryName checksum).1 = .ok ()
  ready : ∀ outer manifest grown pending after, artifact.opening = .ok (outer, manifest) →
    embedAll artifact.options outer manifest artifact.payloads = (.ok (grown, pending), after) →
      pending.Ready grown.close ∧ ∃ lines, (pending.finalize grown.close).1 = .ok lines

theorem checksPass {artifact : Artifact} (addressed : artifact.Addressed)
    (fits : artifact.DraftFits) : artifact.ChecksPass := by
  constructor
  · exact HeaderArchive.firstRepeated?_of_nodup (artifact.entryNames_header ▸ addressed.distinct)
      fun _ _ => List.not_mem_nil
  · obtain ⟨draft, named, _, pending⟩ := drafted addressed
    refine ⟨draft, named, ?_⟩
    intro version header
    rw [pending]
    exact ⟨_, _, artifact.record_collected [] Manifest.versionName (by simp [Manifest.order])
        (by simp) version,
      artifact.record_collected _ Manifest.headerName (by simp [Manifest.order])
        (by simp [Manifest.headerName, Manifest.versionName]) header⟩
  · intro outer manifest front staged back grown pending after opened payloads embedded checksum
    obtain ⟨header, _, _, _, _, _, rfl, distinct⟩ :=
      embedAll_of_opening addressed opened payloads embedded
    have member : staged ∈ artifact.payloads := by
      rw [payloads]
      exact List.mem_append_right _ List.mem_cons_self
    rw [record_payload member distinct checksum]
  · intro outer manifest grown pending after opened embedded
    obtain ⟨header, opening, bytes, written, encoded, rfl, rfl, _⟩ :=
      embedAll_of_opening addressed opened (List.append_nil _).symm embedded
    obtain ⟨archives, _, more⟩ := encodePayloads_ok encoded
    obtain ⟨complete, _, done⟩ := finalize_close addressed written more fits
    refine ⟨ready_close addressed fits bytes written, artifact.lines header, ?_⟩
    rw [Container.close_extend_start, done]

/-- What is valid fails to be built as a stream or an archive fails, unless its manifest
cannot be completed. -/
theorem io_or_finalize_of_build {artifact : Artifact} (addressed : artifact.Addressed)
    (valid : artifact.validate = .ok ()) (block : artifact.options.BlockFits)
    {error : ArtifactError} (failed : artifact.build.1 = .error error) :
    error.kind = .io ∨
      ∃ outer start grown manifest after, artifact.opening = .ok (outer, start) ∧
        embedAll artifact.options outer start artifact.payloads =
          (.ok (grown, manifest), after) ∧
        (manifest.finalize grown.close).1 = .error error := by
  rcases opening_eq addressed block with ⟨cause, _, opened⟩ | ⟨header, front, _, _, opened⟩
  · have kind := kind_of_opening addressed block opened
    simp only [build, valid, opened, Except.error.injEq] at failed
    exact .inl (failed ▸ kind)
  · rw [build_of_opening valid opened] at failed
    rcases embedded : embedAll artifact.options
      ((Container.start artifact.options).extend front)
      (artifact.collected (artifact.openingLines header)) artifact.payloads with
      ⟨_ | ⟨grown, manifest⟩, after⟩
    · have kind := kind_of_embedAll block (fun _ member => member)
        (nodup_linesOver addressed header) embedded
      simp only [embedded, Except.error.injEq] at failed
      exact .inl (failed ▸ kind)
    · refine .inr ⟨_, _, grown, manifest, after, opened, embedded, ?_⟩
      rw [embedded] at failed
      cases finalized : (manifest.finalize grown.close).1 with
      | error cause =>
          simp only [finalized, Except.map, Except.error.injEq] at failed
          rw [failed]
      | ok lines => simp [finalized, Except.map] at failed

theorem kind_of_build {artifact : Artifact} (addressed : artifact.Addressed)
    (fits : artifact.DraftFits) (valid : artifact.validate = .ok ())
    (block : artifact.options.BlockFits) {error : ArtifactError}
    (failed : artifact.build.1 = .error error) : error.kind = .io := by
  rcases io_or_finalize_of_build addressed valid block failed with
    kind | ⟨outer, start, grown, manifest, after, opened, embedded, unfinished⟩
  · exact kind
  · obtain ⟨_, lines, finished⟩ :=
      (checksPass addressed fits).ready outer start grown manifest after opened embedded
    rw [unfinished] at finished
    cases finished

/-- The one thing that makes a build panic is a buffer that cannot be made. -/
theorem panic_of_build_iff {artifact : Artifact} (addressed : artifact.Addressed) :
    artifact.build.1 = .error .panic ↔
      artifact.validate = .ok () ∧ ¬ artifact.options.BlockFits := by
  constructor
  · intro panics
    cases valid : artifact.validate with
    | error refusal =>
        rw [build_of_refusal valid] at panics
        cases panics
    | ok done =>
        refine ⟨rfl, fun block => ?_⟩
        rcases io_or_finalize_of_build addressed valid block panics with
          kind | ⟨_, _, grown, manifest, _, _, _, unfinished⟩
        · cases kind
        · exact manifest.finalize_ne_panic _ unfinished
  · rintro ⟨valid, large⟩
    rw [build_of_large valid large]

theorem opening_of_assemble {artifact : Artifact} (addressed : artifact.Addressed)
    (block : artifact.options.BlockFits) {header : Bytes}
    (assembled : artifact.header.assemble artifact.options = .ok header) :
    ∃ start, artifact.opening = .ok start := by
  rcases opening_eq addressed block with ⟨_, failed, _⟩ | ⟨_, _, _, _, opened⟩
  · rw [assembled] at failed
    contradiction
  · exact ⟨_, opened⟩

/-- A build stops at the first payload whose source fails, and uses up the pass that does. -/
theorem build_of_failing {artifact : Artifact} {start : Container × Manifest.Pending}
    {staged : StagedPayload} {rest : List StagedPayload} {error : IoError}
    (valid : artifact.validate = .ok ()) (opened : artifact.opening = .ok start)
    (payloads : artifact.payloads = staged :: rest)
    (rewinds : staged.payload.source.refusal? 1 = none)
    (failing : staged.payload.source.nextPass.failure? = some error) :
    ∃ source, artifact.build =
        (.error (.source error),
          { artifact with
            payloads := { staged with payload := { staged.payload with source } } :: rest }) ∧
      source.passes = Source.laterPasses staged.payload.source.passes ∧
      source.seeks = staged.payload.source.seeks + 1 ∧
      source.failingSeeks = staged.payload.source.failingSeeks := by
  obtain ⟨source, digested, kept⟩ :=
    Source.digest_of_failing (blockFits_of_opening opened) rewinds failing
  have stopped (outer : Container) : staged.payload.embed staged.entry artifact.options outer =
      (.error (.source error), outer, { staged.payload with source }) := by
    simp only [Payload.embed, digested, ArtifactError.ofDigest]
  refine ⟨source, ?_, kept⟩
  simp only [build, valid, opened, payloads, embedAll, stopped]

/-- No check that a build makes of its own work ever fails: the error it returns is what
validation refuses, or else the failure of a stream or an archive.  It panics exactly on
valid artifacts whose blocks no buffer can hold. -/
theorem build_fails_only_outside {artifact : Artifact} (reachable : artifact.Reachable)
    (fits : artifact.FitsMemory) :
    artifact.ChecksPass ∧
      (∀ error, artifact.build.1 = .error error → error ≠ .panic →
        (∃ refusal, artifact.validate = .error refusal ∧ error = .validation refusal) ∨
          (artifact.validate = .ok () ∧ error.kind = .io)) ∧
      (artifact.build.1 = .error .panic ↔
        artifact.validate = .ok () ∧ ¬ artifact.options.BlockFits) := by
  have panics := panic_of_build_iff reachable.addressed
  refine ⟨checksPass reachable.addressed fits.draftFits, ?returned, panics⟩
  intro error failed returned
  cases valid : artifact.validate with
  | error refusal =>
      rw [build_of_refusal valid, Except.error.injEq] at failed
      exact .inl ⟨refusal, rfl, failed.symm⟩
  | ok done =>
      have block : artifact.options.BlockFits := by
        by_contra large
        have panicked := failed.symm.trans (panics.mpr ⟨valid, large⟩)
        exact returned (Except.error.inj panicked)
      exact .inr ⟨rfl, kind_of_build reachable.addressed fits.draftFits valid block failed⟩

end

def broken : Source :=
  { passes :=
      [[.data [1, 2], .fail { kind := .other, text := "gone" } IoKind.other_ne_interrupted]] }

theorem build_fails_only_outside_broken :
    (single broken single.valid_image).ChecksPass ∧
      ∃ error, (single broken single.valid_image).build.1 = .error error ∧
        error.kind = .io := by
  have reachable := single.reachable broken single.valid_image
  have fits : (single broken single.valid_image).FitsMemory := by
    have version := single.length_version_le broken single.valid_image
    have draft := single.length_draft_le broken single.valid_image (by decide)
    exact Nat.lt_of_le_of_lt (Nat.add_le_add version draft) (by decide)
  obtain ⟨header, assembled, _⟩ := single.assembled broken single.valid_image
  have accepted := single.accepted broken single.valid_image
  obtain ⟨_, opened⟩ := opening_of_assemble reachable.addressed
    (by decide : BuildOptions.BlockFits {}) assembled
  obtain ⟨_, built, _⟩ := build_of_failing accepted opened rfl
    (by decide : broken.refusal? 1 = none) rfl
  have failed := congrArg Prod.fst built
  obtain ⟨pass, errors, _⟩ := build_fails_only_outside reachable fits
  refine ⟨pass, _, failed, ?_⟩
  rcases errors _ failed (by simp) with ⟨refusal, refused, _⟩ | ⟨_, kind⟩
  · rw [accepted] at refused
    cases refused
  · exact kind

end Artifact

end UpdateArtifact
