import UpdateArtifact.Proofs.SinglePayload

/-!
# Building as if the checksums were known

Coming back to the manifest makes no difference.  From sources that deliver the
same bytes whenever they are read, a build has the outcome of the builder that
computes all checksums first, be it an archive or an error.
-/

namespace UpdateArtifact

open Tar (Container)

namespace Artifact

section

variable [Deflate]

theorem writePacked_eq (options : BuildOptions) (outer : Container)
    (payloads : List StagedPayload) :
    writePacked options outer payloads =
      (encodePayloads options outer.owner Payload.content payloads).map outer.extend := by
  induction payloads generalizing outer with
  | nil => simp [writePacked, encodePayloads, Except.map, Container.extend_nil]
  | cons staged rest ih =>
      have packed : staged.pack options =
          Container.packed options staged.entry.basename staged.payload.content := by
        rw [StagedPayload.pack, Container.writeAll_eq, Container.owner_start]
        simp only [Container.encodeAll, Container.packed]
        cases Container.encodeFile options.ownerName staged.entry.basename
          staged.payload.content with
        | error fault => rfl
        | ok bytes => simp [Except.map]
      simp only [writePacked, packed, encodePayloads, Payload.encodeEmbedded,
        Container.writeAll_eq, Container.encodeAll]
      cases Container.packed options staged.entry.basename staged.payload.content with
      | error fault => rfl
      | ok archive =>
          simp only
          cases Container.encodeFile outer.owner staged.entry.archiveName archive with
          | error fault => rfl
          | ok front =>
              simp only [Except.map, List.append_nil, ih, Container.owner_extend]
              cases encodePayloads options outer.owner Payload.content rest with
              | error fault => rfl
              | ok back => simp [Container.extend_extend]

theorem buildDirect_of_opening {artifact : Artifact} (block : artifact.options.BlockFits)
    {header front : Bytes} (valid : artifact.validate = .ok ())
    (assembled : artifact.header.assemble artifact.options = .ok header)
    (written : Container.encodeAll artifact.options.ownerName
      (artifact.openingFiles header) = .ok front) :
    artifact.buildDirect =
      match encodePayloads artifact.options artifact.options.ownerName Payload.content
        artifact.payloads with
      | .error fault => .error (.write fault)
      | .ok back => .ok (front ++ back ++ Bytes.zeros (2 * Tar.blockSize)) := by
  simp only [buildDirect, valid, block, if_true, assembled, Container.writeAll_eq,
    Container.owner_start, written, Except.map, writePacked_eq, Container.owner_extend]
  cases encodePayloads artifact.options artifact.options.ownerName Payload.content
    artifact.payloads with
  | error fault => rfl
  | ok back => simp [Container.extend_extend, Container.close_extend_start]

/-- Payloads that can be read twice: the opening, the payloads and the completed
manifest each come to what the direct builder writes. -/
theorem build_of_readable {artifact : Artifact} (addressed : artifact.Addressed)
    (readable : ∀ staged ∈ artifact.payloads, staged.payload.Readable)
    (same : ∀ staged ∈ artifact.payloads, staged.payload.copied = staged.payload.content)
    (fits : ∀ archive, artifact.buildDirect = .ok archive →
      archive.length < Tar.Numeral.wordLimit) :
    artifact.build.1 = artifact.buildDirect := by
  cases valid : artifact.validate with
  | error refusal => simp [build, buildDirect, valid]
  | ok done =>
      by_cases block : artifact.options.BlockFits
      case neg => simp [build_of_large valid block, buildDirect, valid, block]
      rcases opening_eq addressed block with
        ⟨error, assembled, opened⟩ | ⟨header, _, assembled, _, _⟩
      · simp [build, buildDirect, valid, block, assembled, opened]
      · obtain ⟨opening, written⟩ := encodeAll_openingFiles addressed assembled
        have direct := buildDirect_of_opening block valid assembled written
        rw [← encodePayloads_congr same] at direct
        cases payloads : encodePayloads artifact.options artifact.options.ownerName
          Payload.copied artifact.payloads with
        | error fault =>
            rw [direct, payloads]
            exact build_of_refused addressed block valid assembled readable payloads
        | ok back =>
            rw [payloads] at direct
            have length := fits _ direct
            rw [List.length_append, List.length_append] at length
            rw [direct]
            exact build_of_written addressed block valid assembled readable written payloads
              (draftFits_of_length_lt (artifact.length_encode_lines header) written (by omega))

/-- A build from sources that deliver the same bytes whenever they are read does
what the direct builder does. -/
theorem build_eq_buildDirect {artifact : Artifact} (reachable : artifact.Reachable)
    (steady : ∀ staged ∈ artifact.payloads, ∃ content, staged.payload.source.Delivers content)
    (fits : ∀ archive, artifact.buildDirect = .ok archive →
      archive.length < Tar.Numeral.wordLimit) :
    artifact.build.1 = artifact.buildDirect := by
  apply build_of_readable reachable.addressed _ _ fits
  · intro staged member
    obtain ⟨content, delivers⟩ := steady staged member
    exact (Payload.readable_of_delivers delivers).1
  · intro staged member
    obtain ⟨content, delivers⟩ := steady staged member
    obtain ⟨_, hashed, copied⟩ := Payload.readable_of_delivers delivers
    rw [hashed, copied]

end

theorem build_eq_buildDirect_image :
    (single single.pieced single.valid_image).build.1 =
      (single single.pieced single.valid_image).buildDirect := by
  have steady : ∀ staged ∈ (single single.pieced single.valid_image).payloads,
      ∃ content, staged.payload.source.Delivers content := by
    intro staged member
    rw [List.mem_singleton.mp member]
    exact ⟨_, single.delivers_pieced⟩
  apply build_eq_buildDirect (single.reachable _ _) steady
  obtain ⟨_, hashed, copied⟩ := single.read_pieced "image"
  obtain ⟨header, front, back, assembled, opening, written, _, fits⟩ :=
    single.written single.pieced single.valid_image (by decide) (by decide)
      (by rw [copied]; decide)
  have same : ∀ staged ∈ (single single.pieced single.valid_image).payloads,
      staged.payload.copied = staged.payload.content := by
    intro staged member
    rw [List.mem_singleton.mp member]
    exact copied.trans hashed.symm
  intro archive direct
  rw [buildDirect_of_opening (by decide) (single.accepted _ _) assembled opening,
    ← encodePayloads_congr same, written] at direct
  cases direct
  exact fits

end Artifact

end UpdateArtifact
