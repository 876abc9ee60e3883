import UpdateArtifact.Artifact.Build
import UpdateArtifact.Source.Delivery

/-!
# Writing an artifact with its checksums known

The builder in its plainest form: all contents are at hand, so that the
checksums are computed first and the manifest is written complete, with no line
to come back to.  It says what a build from well-behaved sources has to give.
-/

namespace UpdateArtifact

/-- The content of a payload: what the next pass over its source delivers. -/
def Payload.content (payload : Payload) : Bytes :=
  (payload.source.passes.headD []).delivered

variable [Deflate]

namespace StagedPayload

def line (staged : StagedPayload) : Manifest.Line :=
  { checksum := Checksum.ofBytes staged.payload.content, name := staged.entry.entryName }

def pack (staged : StagedPayload) (options : BuildOptions) : Except Tar.WriteFault Bytes :=
  ((Tar.Container.start options).writeAll [(staged.entry.basename, staged.payload.content)]).map
    (·.compress options)

end StagedPayload

namespace Artifact

/-- The complete manifest, given the header archive. -/
def lines (artifact : Artifact) (header : Bytes) : List Manifest.Line :=
  (artifact.payloads.map StagedPayload.line).reverse ++
    [{ checksum := Checksum.ofBytes header, name := Manifest.headerName },
      { checksum := Checksum.ofBytes (HeaderArchive.document artifact.version)
        name := Manifest.versionName }]

def writePacked (options : BuildOptions) (outer : Tar.Container) :
    List StagedPayload → Except Tar.WriteFault Tar.Container
  | [] => .ok outer
  | staged :: rest =>
      match staged.pack options with
      | .error fault => .error fault
      | .ok archive =>
          match outer.writeAll [(staged.entry.archiveName, archive)] with
          | .error fault => .error fault
          | .ok outer => writePacked options outer rest

def openingFiles (artifact : Artifact) (header : Bytes) : List (String × Bytes) :=
  [(Manifest.versionName, HeaderArchive.document artifact.version),
    (Manifest.entryName, Manifest.encode (artifact.lines header)),
    (Manifest.headerName, header)]

/-- Builds the artifact from the contents of its payloads.  The checksums take a buffer that
holds a block. -/
def buildDirect (artifact : Artifact) : Except ArtifactError Bytes :=
  match artifact.validate with
  | .error refusal => .error (.validation refusal)
  | .ok () =>
      if artifact.options.BlockFits then
        match artifact.header.assemble artifact.options with
        | .error error => .error error
        | .ok header =>
            match (Tar.Container.start artifact.options).writeAll
              (artifact.openingFiles header) with
            | .error fault => .error (.write fault)
            | .ok outer =>
                match writePacked artifact.options outer artifact.payloads with
                | .error fault => .error (.write fault)
                | .ok outer => .ok outer.close
      else .error .panic

end Artifact

end UpdateArtifact
