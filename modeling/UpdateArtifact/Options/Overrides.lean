import UpdateArtifact.Options

/-!
# Overriding build options

Overrides set some of the options.  A level beyond the highest one counts as
the highest, and a block size of zero sets nothing.
-/

namespace UpdateArtifact

/-- The options to change; absent ones stay as they are. -/
structure Overrides where
  compressionLevel : Option Nat := none
  readBlockSize : Option Nat := none
  ownerName : Option String := none
  formatVersion : Option Nat := none
  deriving DecidableEq

namespace BuildOptions

def highestLevel : Nat := 9

/-- The options with some of them overridden. -/
def apply (options : BuildOptions) (overrides : Overrides) : BuildOptions :=
  { compressionLevel :=
      (overrides.compressionLevel.map (min · highestLevel)).getD options.compressionLevel
    readBlockSize := (overrides.readBlockSize.filter (0 < ·)).getD options.readBlockSize
    ownerName := overrides.ownerName.getD options.ownerName
    formatVersion := overrides.formatVersion.getD options.formatVersion }

end BuildOptions

end UpdateArtifact
