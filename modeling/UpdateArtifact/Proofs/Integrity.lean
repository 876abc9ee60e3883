import UpdateArtifact.Proofs.Reading
import UpdateArtifact.Proofs.SinglePayload

/-!
# The manifest and the embedded files

The manifest gives the checksums of what the first pass over each source
delivered, and the archives hold what the second pass delivered.  For a source
that delivers the same bytes each time, the two are the same.
-/

namespace UpdateArtifact

open Tar (Container)

namespace Checksum

/-- Different bytes with the same checksum. -/
def Collide (left right : Bytes) : Prop :=
  left ≠ right ∧ ofBytes left = ofBytes right

end Checksum

namespace Payload

/-- A checksum of the bytes that were hashed is one of the bytes that are embedded if
the second pass begins with the former, and else only by a collision. -/
theorem ofBytes_copied_iff (payload : Payload) :
    Checksum.ofBytes payload.content = Checksum.ofBytes payload.copied ↔
      payload.content <+: payload.secondPass.delivered ∨
        Checksum.Collide payload.content payload.copied := by
  have begins : payload.content <+: payload.secondPass.delivered ↔
      payload.content = payload.copied := by
    rw [List.prefix_iff_eq_take]
    rfl
  rw [begins]
  constructor
  · intro sums
    by_cases same : payload.content = payload.copied
    · exact .inl same
    · exact .inr ⟨same, sums⟩
  · rintro (same | collision)
    · exact congrArg Checksum.ofBytes same
    · exact collision.2

end Payload

namespace Artifact

section

variable [Deflate]

/-- An artifact built from sources that repeat themselves reads back as it was
described: its entries in order, each once, the manifest with the checksum of every
content, and in the archive of each payload its content under its file name. -/
theorem readsBack_of_build {artifact : Artifact} (reachable : artifact.Reachable)
    (steady : ∀ staged ∈ artifact.payloads, staged.payload.source.Steady) {archive : Bytes}
    (built : artifact.build.1 = .ok archive)
    (fits : archive.length < Tar.Numeral.wordLimit) :
    ∃ header archives, artifact.header.assemble artifact.options = .ok header ∧
      Tar.unpack? archive = some (artifact.contents header archives) ∧
      (outerNames artifact.payloads.length).Nodup ∧
      List.Forall₂
        (fun staged inner =>
          Container.HoldsOnly inner staged.entry.basename staged.payload.content)
        artifact.payloads archives := by
  obtain ⟨header, archives, assembled, unpacked, holds, _⟩ :=
    unpack?_of_build reachable.addressed built fits
  refine ⟨header, archives, assembled, unpacked, nodup_outerNames _, ?_⟩
  have same : ∀ staged ∈ artifact.payloads,
      staged.payload.copied = staged.payload.content :=
    fun staged member => (Payload.copied_of_steady (steady staged member)).2
  apply ((List.forall₂_and_left artifact.payloads archives).mpr ⟨same, holds⟩).imp
  intro staged inner both
  rw [← both.1]
  exact both.2

end

theorem readsBack_image :
    ∃ archive header archives,
      (single single.pieced single.valid_image).build.1 = .ok archive ∧
        Tar.unpack? archive =
          some ((single single.pieced single.valid_image).contents header archives) ∧
        List.Forall₂
          (fun staged inner =>
            Container.HoldsOnly inner staged.entry.basename staged.payload.content)
          (single single.pieced single.valid_image).payloads archives := by
  obtain ⟨readable, _, copied⟩ := single.read_pieced "image"
  obtain ⟨archive, built, fits⟩ := single.builds single.pieced single.valid_image readable
    (by decide) (by decide) (by rw [copied]; decide)
  have steady : ∀ staged ∈ (single single.pieced single.valid_image).payloads,
      staged.payload.source.Steady := by
    intro staged member
    rw [List.mem_singleton.mp member]
    exact single.delivers_pieced.steady
  obtain ⟨header, archives, _, unpacked, _, holds⟩ :=
    readsBack_of_build (single.reachable _ _) steady built fits
  exact ⟨archive, header, archives, built, unpacked, holds⟩

section

variable [Deflate]

/-- The checksum is that of the first pass.  The archive that is appended holds as
many bytes of the second pass, and the checksum is theirs if the second pass begins
with the first, and else only by a collision.  The lines of a manifest agree with
the files under the same condition. -/
theorem checksum_matches_iff :
    (∀ {payload after : Payload} {entry : PayloadEntry} {options : BuildOptions}
        {outer grown : Container} {checksum : Checksum},
      payload.embed entry options outer = (.ok checksum, grown, after) →
        checksum = Checksum.ofBytes payload.content ∧
          ∃ archive bytes,
            Container.encodeFile outer.owner entry.archiveName archive = .ok bytes ∧
              grown = outer.extend bytes ∧
              Container.HoldsOnly archive entry.basename payload.copied ∧
              payload.copied.length = payload.content.length ∧
              (checksum = Checksum.ofBytes payload.copied ↔
                payload.content <+: payload.secondPass.delivered ∨
                  Checksum.Collide payload.content payload.copied)) ∧
    ∀ {artifact : Artifact} {archive : Bytes}, artifact.Reachable →
      artifact.build.1 = .ok archive → archive.length < Tar.Numeral.wordLimit →
        ∃ header archives,
          Tar.unpack? archive = some (artifact.contents header archives) ∧
            List.Forall₂
              (fun staged inner =>
                Container.HoldsOnly inner staged.entry.basename staged.payload.copied ∧
                  (staged.line.checksum = Checksum.ofBytes staged.payload.copied ↔
                    staged.payload.content <+: staged.payload.secondPass.delivered ∨
                      Checksum.Collide staged.payload.content staged.payload.copied))
              artifact.payloads archives := by
  constructor
  · intro payload after entry options outer grown checksum embedded
    obtain ⟨rfl, whole, bytes, encoded, rfl⟩ := Payload.embed_ok embedded
    unfold Payload.encodeEmbedded at encoded
    cases packed : Container.packed options entry.basename payload.copied with
    | error fault =>
        rw [packed] at encoded
        contradiction
    | ok archive =>
        rw [packed] at encoded
        exact ⟨rfl, archive, bytes, encoded, rfl,
          Container.holdsOnly_of_packed entry.validName.plain packed, whole,
          payload.ofBytes_copied_iff⟩
  · intro artifact archive reachable built fits
    obtain ⟨header, archives, _, unpacked, holds, _⟩ :=
      unpack?_of_build reachable.addressed built fits
    refine ⟨header, archives, unpacked, holds.imp ?_⟩
    intro staged inner only
    exact ⟨only, staged.payload.ofBytes_copied_iff⟩

end

/-- A source whose content changes after the first pass. -/
def changing : Source :=
  { passes := [[.data [97]], [.data [98]]] }

theorem readable_changing :
    Payload.Readable { source := changing, name := some "image" } := by
  exact ⟨fun _ _ _ => rfl, rfl, by decide⟩

/-- Such a source is embedded with the checksum of the bytes it had before. -/
theorem checksum_of_changing :
    ∃ checksum archive bytes inner after,
      Payload.embed { source := changing, name := some "image" }
          (.first single.valid_image) {} (Container.start {}) =
          (.ok checksum, (Container.start {}).extend bytes, after) ∧
        Container.encodeFile "root" "data/0000.tar.gz" archive = .ok bytes ∧
        Gzip.decode? archive = some inner ∧
        Tar.unpack? inner = some [(Bytes.utf8 "image", [98])] ∧
        checksum ≠ Checksum.ofBytes [98] := by
  obtain ⟨archive, bytes, packed, encoded, embedded, _⟩ :=
    single.embedded single.valid_image [98] (by decide)
  obtain ⟨after, outcome⟩ := Payload.embed_of_readable readable_changing
    (.first single.valid_image) (by decide : BuildOptions.BlockFits {}) (Container.start {})
  have copied : Payload.copied { source := changing, name := some "image" } = [98] := rfl
  rw [copied, Container.owner_start, embedded] at outcome
  obtain ⟨file, fileEncoded, decoded, unpacked⟩ :=
    Container.decode?_of_packed single.valid_image.plain packed
  have fit : Container.ownerFault? "root" = none := by decide
  obtain ⟨same, again, bound⟩ :=
    Container.encodeFile_of_short fit (by decide : Container.Short "image") [98]
  have equal : file = same := Except.ok.inj (fileEncoded.symm.trans again)
  have small : file.length < Tar.Numeral.wordLimit := by
    rw [equal, Tar.Numeral.wordLimit]
    have one : [(98 : UInt8)].length = 1 := rfl
    omega
  exact ⟨_, archive, bytes, _, after, outcome, encoded, decoded, unpacked small,
    by decide +kernel⟩

theorem checksum_matches_iff_changing :
    ∃ checksum after bytes inner archive header archives,
      Payload.embed { source := changing, name := some "image" }
          (.first single.valid_image) {} (Container.start {}) =
          (.ok checksum, (Container.start {}).extend bytes, after) ∧
        checksum = Checksum.ofBytes [97] ∧
        Container.HoldsOnly inner "image" [98] ∧
        (checksum = Checksum.ofBytes [98] ↔
          ([97] : Bytes) <+: [98] ∨ Checksum.Collide [97] [98]) ∧
        (single changing single.valid_image).build.1 = .ok archive ∧
        Tar.unpack? archive =
          some ((single changing single.valid_image).contents header archives) := by
  obtain ⟨archive, built, fits⟩ := single.builds changing single.valid_image
    readable_changing (by decide) (by decide) (by decide)
  obtain ⟨header, archives, unpacked, _⟩ :=
    checksum_matches_iff.2 (single.reachable _ _) built fits
  obtain ⟨_, bytes, _, _, embedded, _⟩ :=
    single.embedded single.valid_image [98] (by decide)
  obtain ⟨after, outcome⟩ := Payload.embed_of_readable readable_changing
    (.first single.valid_image) (by decide : BuildOptions.BlockFits {}) (Container.start {})
  have copied : Payload.copied { source := changing, name := some "image" } = [98] := rfl
  rw [copied, Container.owner_start, embedded] at outcome
  obtain ⟨sum, inner, _, _, _, holds, _, condition⟩ := checksum_matches_iff.1 outcome
  exact ⟨_, after, bytes, inner, archive, header, archives, outcome, sum, holds, condition,
    built, unpacked⟩

end Artifact

end UpdateArtifact
