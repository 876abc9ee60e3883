/-!
# Build options

How an artifact is written.  No option makes the output depend on anything but
the builder's inputs.
-/

namespace UpdateArtifact

structure BuildOptions where
  /-- The gzip level of the embedded archives. -/
  compressionLevel : Nat := 9
  /-- The size of the blocks in which everything is hashed. -/
  readBlockSize : Nat := 1048576
  /-- The user and group name in every tar header. -/
  ownerName : String := "root"
  /-- The version in the format descriptor. -/
  formatVersion : Nat := 3
  deriving DecidableEq

end UpdateArtifact
