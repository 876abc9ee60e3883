import UpdateArtifact.Artifact
import UpdateArtifact.Manifest
import UpdateArtifact.Payload.Embedding

/-!
# Building an artifact

The format descriptor, the drafted manifest, the header archive and the
payloads are written in turn.  Their checksums are recorded on the way, and
complete the manifest in the finished archive.
-/

namespace UpdateArtifact

namespace Artifact

variable [Deflate]

/-- Embeds payloads in turn, recording their checksums, up to the first fault.
The payloads come back with their sources as the build left them. -/
def embedAll (options : BuildOptions) (outer : Tar.Container) (manifest : Manifest.Pending) :
    List StagedPayload →
      Except ArtifactError (Tar.Container × Manifest.Pending) × List StagedPayload
  | [] => (.ok (outer, manifest), [])
  | staged :: rest =>
      match staged.payload.embed staged.entry options outer with
      | (.error error, _, payload) => (.error error, { staged with payload } :: rest)
      | (.ok checksum, outer, payload) =>
          match manifest.record staged.entry.entryName checksum with
          | (.error error, _) => (.error error, { staged with payload } :: rest)
          | (.ok (), manifest) =>
              let (outcome, rest) := embedAll options outer manifest rest
              (outcome, { staged with payload } :: rest)

def writeHeader (artifact : Artifact) (outer : Tar.Container) (manifest : Manifest.Pending) :
    Except ArtifactError (Tar.Container × Manifest.Pending) :=
  match artifact.header.assemble artifact.options with
  | .error error => .error error
  | .ok header =>
      match Source.digestBytes artifact.options.readBlockSize header with
      | .error fault => .error (.ofDigest fault)
      | .ok checksum =>
          match outer.writeBytes Manifest.headerName header with
          | (.error fault, _) => .error (.write fault)
          | (.ok (), outer) =>
              match manifest.record Manifest.headerName checksum with
              | (.error error, _) => .error error
              | (.ok (), manifest) => .ok (outer, manifest)

/-- All that comes before the payloads: the outer container with the format
descriptor, the drafted manifest and the header archive. -/
def opening (artifact : Artifact) : Except ArtifactError (Tar.Container × Manifest.Pending) :=
  let version := HeaderArchive.document artifact.version
  match Source.digestBytes artifact.options.readBlockSize version with
  | .error fault => .error (.ofDigest fault)
  | .ok checksum =>
      match (Tar.Container.start artifact.options).writeBytes Manifest.versionName version with
      | (.error fault, _) => .error (.write fault)
      | (.ok (), outer) =>
          match Manifest.Draft.ofNames (Manifest.order artifact.entryNames) with
          | .error refusal => .error (.validation refusal)
          | .ok draft =>
              match outer.writeBytes Manifest.entryName draft.body with
              | (.error fault, _) => .error (.write fault)
              | (.ok (), outer) =>
                  match draft.pending.record Manifest.versionName checksum with
                  | (.error error, _) => .error error
                  | (.ok (), manifest) => artifact.writeHeader outer manifest

/-- Builds the artifact.  The builder comes back with the sources of its
payloads as the build left them. -/
def build (artifact : Artifact) : Except ArtifactError Bytes × Artifact :=
  match artifact.validate with
  | .error refusal => (.error (.validation refusal), artifact)
  | .ok () =>
      match artifact.opening with
      | .error error => (.error error, artifact)
      | .ok (outer, manifest) =>
          match embedAll artifact.options outer manifest artifact.payloads with
          | (.error error, payloads) => (.error error, { artifact with payloads })
          | (.ok (outer, manifest), payloads) =>
              let (outcome, archive) := manifest.finalize outer.close
              (outcome.map fun _ => archive, { artifact with payloads })

end Artifact

end UpdateArtifact
