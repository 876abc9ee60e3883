import UpdateArtifact.Pieces
import UpdateArtifact.Tar.Numeral

/-!
# Records of extended headers

An extended header describes the file after it by lines of text.  Each line
holds its own length, a blank, a key, an equals sign and a value; the length
counts the whole line with its end.  Lines of another form are passed over when
a path is looked up, and end the search for a size.
-/

namespace UpdateArtifact

namespace Tar

structure Record where
  key : Bytes
  value : Bytes
  deriving DecidableEq

namespace Record

def ofLine? (line : Bytes) : Option Record :=
  match cut? 32 line with
  | none => none
  | some (length, assignment) =>
      if Numeral.readDecimal? length ≠ some (line.length + 1) then none
      else (cut? 61 assignment).map fun (key, value) => { key, value }

/-- The lines of an extended header up to the first empty one, as records where
they are. -/
def readAll (content : Bytes) : List (Option Record) :=
  ((pieces 10 content).takeWhile (· ≠ [])).map ofLine?

def value? (key : String) (records : List Record) : Option Bytes :=
  (records.find? (·.key = Bytes.utf8 key)).map Record.value

def path? (content : Bytes) : Option Bytes :=
  value? "path" ((readAll content).filterMap id)

def size? (content : Bytes) : Option Nat :=
  (value? "size" (((readAll content).takeWhile Option.isSome).filterMap id)).bind
    Numeral.readDecimal?

end Record

end Tar

end UpdateArtifact
