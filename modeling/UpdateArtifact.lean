import UpdateArtifact.Artifact.Call
import UpdateArtifact.Artifact.Direct
import UpdateArtifact.Json.Reader
import UpdateArtifact.Proofs.Tar.Headers
import UpdateArtifact.Proofs.Characters
import UpdateArtifact.Proofs.Tar.Paths
import UpdateArtifact.Proofs.Tar.Writing
import UpdateArtifact.Proofs.Tar.ReadBack
import UpdateArtifact.Proofs.Sources
import UpdateArtifact.Proofs.Embedding
import UpdateArtifact.Proofs.Checksums
import UpdateArtifact.Proofs.Manifest
import UpdateArtifact.Proofs.Names
import UpdateArtifact.Proofs.Reachable
import UpdateArtifact.Proofs.Opening
import UpdateArtifact.Proofs.Building
import UpdateArtifact.Proofs.Direct
import UpdateArtifact.Proofs.Reading
import UpdateArtifact.Proofs.SinglePayload
import UpdateArtifact.Proofs.Integrity
import UpdateArtifact.Proofs.ManifestLines
import UpdateArtifact.Proofs.Keys
import UpdateArtifact.Proofs.Failures
import UpdateArtifact.Proofs.Reproducible
import UpdateArtifact.Proofs.HeaderFiles
import UpdateArtifact.Proofs.Json.Printing
import UpdateArtifact.Proofs.Addressing
import UpdateArtifact.Proofs.Tar.Placing
import UpdateArtifact.Proofs.Outcomes
import UpdateArtifact.Proofs.Documents
import UpdateArtifact.Proofs.Faithful
import UpdateArtifact.Proofs.Interleaving
import UpdateArtifact.Proofs.Tar.Entries
import UpdateArtifact.Proofs.Locality
import UpdateArtifact.Proofs.Tar.RoundTrip
import UpdateArtifact.Proofs.Patching
import UpdateArtifact.Proofs.Recording
import UpdateArtifact.Proofs.Backpatching
import UpdateArtifact.Proofs.Levels
import UpdateArtifact.Proofs.Completion
import UpdateArtifact.Proofs.Tar.Truncation
import UpdateArtifact.Proofs.Collecting
import UpdateArtifact.Proofs.HeaderLayout
import UpdateArtifact.Proofs.EmbeddingOutcome
import UpdateArtifact.Proofs.Hashing
import UpdateArtifact.Proofs.Tar.Copying
import UpdateArtifact.Proofs.Admission
import UpdateArtifact.Proofs.Overrides.Reading
import UpdateArtifact.Proofs.NameOrder
import UpdateArtifact.Proofs.Overrides.Applying
