/-!
# Input and output failures

A failure of a stream or an archive carries the name of its kind, which callers
dispatch on, and a text for the reader.
-/

namespace UpdateArtifact

structure IoKind where
  name : String
  deriving DecidableEq

namespace IoKind

def other : IoKind := ⟨"Other"⟩

/-- A call was interrupted and can be made again. -/
def interrupted : IoKind := ⟨"Interrupted"⟩

def unexpectedEnd : IoKind := ⟨"UnexpectedEof"⟩

theorem other_ne_interrupted : other ≠ interrupted := by
  decide

end IoKind

/-- A failure of a stream or an archive. -/
structure IoError where
  kind : IoKind
  text : String
  deriving DecidableEq

end UpdateArtifact
