import UpdateArtifact.Gzip
import UpdateArtifact.Options
import UpdateArtifact.Tar.Container

/-!
# Compressed containers

The archives embedded in an artifact are tar containers in gzip streams.  The
options choose the owner in their headers and the compression level.
-/

namespace UpdateArtifact

namespace Tar.Container

variable [Deflate]

def start (options : BuildOptions) : Container :=
  { owner := options.ownerName }

def compress (container : Container) (options : BuildOptions) : Bytes :=
  Gzip.encode options.compressionLevel container.close

theorem decode?_compress (container : Container) (options : BuildOptions) :
    Gzip.decode? (container.compress options) = some container.close :=
  Gzip.decode?_encode options.compressionLevel container.close

end Tar.Container

end UpdateArtifact
