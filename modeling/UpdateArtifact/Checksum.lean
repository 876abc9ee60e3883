import UpdateArtifact.Hex
import UpdateArtifact.Sha256

/-!
# Checksums

A checksum is a SHA-256 digest.  Its text always has 64 digits, which is what
lets a manifest be written before its checksums are known.
-/

namespace UpdateArtifact

structure Checksum where
  bytes : Bytes
  length_bytes : bytes.length = 32
  deriving DecidableEq

namespace Checksum

def textWidth : Nat := 64

def ofHasher (hasher : Sha256.Hasher) : Checksum :=
  { bytes := hasher.finish, length_bytes := hasher.length_finish }

def ofBytes (data : Bytes) : Checksum :=
  ofHasher (Sha256.Hasher.empty.update data)

def hex (checksum : Checksum) : String :=
  String.ofList (Hex.encode checksum.bytes)

end Checksum

end UpdateArtifact
