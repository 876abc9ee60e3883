import UpdateArtifact.Bytes
import UpdateArtifact.Decimal.Shortest
import UpdateArtifact.Refusal

/-!
# Payload entries

A payload is addressed by its index and its file name.  The index is written
with four digits, so that names sort as indices do.
-/

namespace UpdateArtifact

def fourDigits (index : Nat) : String :=
  let digits := Decimal.numeral index
  String.ofList (List.replicate (4 - digits.length) '0' ++ digits)

namespace PayloadEntry

/-- Whether a text can be the name of a file in a directory. -/
def ValidName (name : String) : Prop :=
  name ≠ "" ∧ '/' ∉ name.toList ∧ name ≠ "." ∧ name ≠ ".."

instance (name : String) : Decidable (ValidName name) := by
  unfold ValidName
  infer_instance

def lastIndex : Nat := 9999

/-- The file name of a payload that has none of its own. -/
def defaultName (index : Nat) : String :=
  s!"rootfs-{fourDigits index}.ext4"

end PayloadEntry

/-- Where a payload is and how its file is called. -/
structure PayloadEntry where
  index : Nat
  basename : String
  index_le : index ≤ PayloadEntry.lastIndex
  validName : PayloadEntry.ValidName basename
  deriving DecidableEq

namespace PayloadEntry

/-- The entry of a payload, with the default file name unless one is given. -/
def make (index : Nat) (name : Option String) : Except Refusal PayloadEntry :=
  let basename := name.getD (defaultName index)
  if validName : ValidName basename then
    if index_le : index ≤ lastIndex then .ok { index, basename, index_le, validName }
    else .error (.tooManyPayloads index)
  else .error (.invalidFileName index basename)

/-- The directory that the manifest names. -/
def directory (entry : PayloadEntry) : String :=
  "data/" ++ fourDigits entry.index

/-- The name in the manifest. -/
def entryName (entry : PayloadEntry) : String :=
  entry.directory ++ "/" ++ entry.basename

/-- The outer entry that holds the payload. -/
def archiveName (entry : PayloadEntry) : String :=
  entry.directory ++ ".tar.gz"

/-- The directory of the payload's metadata in the header archive. -/
def headerDirectory (entry : PayloadEntry) : String :=
  "headers/" ++ fourDigits entry.index

/-- The order of entries: by index, then by the bytes of the file name. -/
def le (left right : PayloadEntry) : Bool :=
  left.index < right.index ||
    (left.index = right.index && Bytes.utf8 left.basename ≤ Bytes.utf8 right.basename)

end PayloadEntry

end UpdateArtifact
