import UpdateArtifact.HeaderArchive
import UpdateArtifact.Source.Digest

/-!
# Embedding a payload

A payload is read twice: once for its checksum and its length, and once into a
compressed container of its own.  Only as many bytes as were hashed are
embedded, and nothing reaches the outer container unless all steps succeed.
-/

namespace UpdateArtifact

/-- A block of the chosen size fits into a buffer. -/
def BuildOptions.BlockFits (options : BuildOptions) : Prop :=
  options.readBlockSize ≤ Source.bufferLimit

instance (options : BuildOptions) : Decidable options.BlockFits :=
  inferInstanceAs (Decidable (_ ≤ _))

namespace Payload

/-- Writes a payload into the outer container and gives the checksum of its
content. -/
def embed [Deflate] (payload : Payload) (entry : PayloadEntry) (options : BuildOptions)
    (outer : Tar.Container) : Except ArtifactError Checksum × Tar.Container × Payload :=
  match payload.source.digest options.readBlockSize with
  | (.error fault, source) => (.error (.ofDigest fault), outer, { payload with source })
  | (.ok (checksum, length), source) =>
      match (Tar.Container.start options).writeEntry entry.basename source length with
      | (.error fault, _, source) => (.error (.write fault), outer, { payload with source })
      | (.ok (), inner, source) =>
          match source.rewind with
          | (.error error, source) => (.error (.source error), outer, { payload with source })
          | (.ok (), source) =>
              match outer.writeBytes entry.archiveName (inner.compress options) with
              | (.error fault, outer) => (.error (.write fault), outer, { payload with source })
              | (.ok (), outer) => (.ok checksum, outer, { payload with source })

end Payload

end UpdateArtifact
