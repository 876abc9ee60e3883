import UpdateArtifact.Options.Reader
import UpdateArtifact.Refusal
import UpdateArtifact.Source.Digest
import UpdateArtifact.Tar.Container
import UpdateArtifact.Tar.Listing

/-!
# Errors

Everything that can end the making of an artifact, by cause.  The kinds are
what a caller can act on: mend the input, try the stream again, or report a
fault of the builder itself.  A panic is none of these: it ends the call
without an error for the caller.
-/

namespace UpdateArtifact

/-- Why a line of the manifest cannot be completed. -/
inductive BackpatchFault where
  | noLine
  | recordedTwice
  | missing
  | outOfRange
  | noPlaceholder (offset : Nat)
  deriving DecidableEq

def BackpatchFault.message : BackpatchFault → String
  | noLine => "no manifest line for entry"
  | recordedTwice => "checksum recorded twice"
  | missing => "checksum missing"
  | outOfRange => "offset out of range"
  | noPlaceholder offset => s!"no placeholder at offset {offset}"

inductive ErrorKind where
  | validation
  | io
  | json
  | manifestNotFound
  | backpatch
  | panic
  deriving DecidableEq

/-- What ended the making of an artifact. -/
inductive ArtifactError where
  | validation (refusal : Refusal)
  | source (error : IoError)
  | write (fault : Tar.WriteFault)
  /-- A finished archive could not be read. -/
  | read (fault : Tar.ReadFault)
  /-- A text does not give build options. -/
  | overrides (fault : Overrides.Fault)
  | manifestNotFound
  | backpatch (entry : String) (fault : BackpatchFault)
  /-- The buffer for hashing cannot be made. -/
  | panic
  deriving DecidableEq

namespace ArtifactError

def ofDigest : DigestFault → ArtifactError
  | .source error => source error
  | .panic => panic

def kind : ArtifactError → ErrorKind
  | validation _ => .validation
  | source _ => .io
  | write _ => .io
  | read _ => .io
  | overrides _ => .json
  | manifestNotFound => .manifestNotFound
  | backpatch _ _ => .backpatch
  | panic => .panic

/-- The failure of a stream or an archive behind an error. -/
def toIoError? : ArtifactError → Option IoError
  | source error => some error
  | write fault => some fault.toIoError
  | read fault => fault.message?.map fun text => { kind := .other, text }
  | _ => none

/-- The wording of an error.  That of a text which is no JSON, or of a field which is
no number, is left to the reader of the format. -/
def message? : ArtifactError → Option String
  | validation refusal => some s!"validation failed: {refusal.message}"
  | source error => some s!"I/O error: {error.text}"
  | write fault => some s!"I/O error: {fault.toIoError.text}"
  | read fault => fault.message?.map fun text => s!"I/O error: {text}"
  | overrides (.mismatch mismatch) => some s!"JSON error: {mismatch.message}"
  | overrides (.text _) => none
  | manifestNotFound => some "manifest entry not found in finished archive"
  | backpatch entry fault =>
      some s!"cannot backpatch manifest line for '{entry}': {fault.message}"
  | panic => none

/-- Whether the caller's input is to blame. -/
def isValidation (error : ArtifactError) : Bool :=
  error.kind = .validation

end ArtifactError

end UpdateArtifact
