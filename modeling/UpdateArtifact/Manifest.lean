import UpdateArtifact.Checksum
import UpdateArtifact.Error

/-!
# The manifest

A manifest has a line for each file: its checksum, two spaces and its name.  It
stands in the archive before the files it lists, so it is drafted with zeros
for checksums.  The checksums are recorded as they become known, and at the end
they replace the zeros in the finished archive, which keeps its length.
-/

namespace UpdateArtifact

namespace Manifest

def entryName : String := "manifest"

def versionName : String := "version"

def headerName : String := "header.tar.gz"

/-- The order of the lines: payloads with the last one first, then the header
archive and the format descriptor. -/
def order (payloadNames : List String) : List String :=
  payloadNames.reverse ++ [headerName, versionName]

structure Line where
  checksum : Checksum
  name : String
  deriving DecidableEq

def Line.text (line : Line) : String :=
  line.checksum.hex ++ "  " ++ line.name

/-- What stands for a checksum that is not known yet. -/
def placeholder : Bytes :=
  List.replicate Checksum.textWidth 48

/-- A line with the given checksum field. -/
def lineWith (field : Bytes) (name : String) : Bytes :=
  field ++ Bytes.utf8 "  " ++ Bytes.utf8 name ++ Bytes.utf8 "\n"

def encode (lines : List Line) : Bytes :=
  lines.flatMap fun line => lineWith (Bytes.utf8 line.checksum.hex) line.name

/-- A line's name, and where its checksum field starts in the manifest. -/
structure Slot where
  name : String
  offset : Nat
  deriving DecidableEq

/-- A manifest without checksums. -/
structure Draft where
  body : Bytes
  slots : List Slot
  deriving DecidableEq

namespace Draft

def empty : Draft :=
  { body := [], slots := [] }

def addLine (draft : Draft) (name : String) : Draft :=
  { body := draft.body ++ lineWith placeholder name
    slots := draft.slots ++ [{ name, offset := draft.body.length }] }

/-- Adds lines in turn; a name that has one already is refused. -/
def addLines (draft : Draft) : List String → Except Refusal Draft
  | [] => .ok draft
  | name :: rest =>
      if name ∈ draft.slots.map Slot.name then .error (.duplicateLine name)
      else addLines (draft.addLine name) rest

/-- The draft with a line for each name. -/
def ofNames (names : List String) : Except Refusal Draft :=
  empty.addLines names

end Draft

/-- A drafted manifest whose checksums are being collected. -/
structure Pending where
  slots : List Slot
  /-- The checksums by name, the latest first. -/
  recorded : List (String × Checksum)
  deriving DecidableEq

def Draft.pending (draft : Draft) : Pending :=
  { slots := draft.slots, recorded := [] }

namespace Pending

def checksum? (pending : Pending) (name : String) : Option Checksum :=
  pending.recorded.lookup name

/-- Records a checksum.  A name without a line is refused and changes nothing;
a second checksum for a name is reported, and replaces the first. -/
def record (pending : Pending) (name : String) (checksum : Checksum) :
    Except ArtifactError Unit × Pending :=
  if name ∉ pending.slots.map Slot.name then
    (.error (.backpatch name .noLine), pending)
  else
    let grown : Pending := { pending with recorded := (name, checksum) :: pending.recorded }
    if (pending.checksum? name).isSome then (.error (.backpatch name .recordedTwice), grown)
    else (.ok (), grown)

/-- Replaces the bytes at a position by as many others. -/
def overwrite (buffer : Bytes) (start : Nat) (content : Bytes) : Bytes :=
  buffer.take start ++ content ++ buffer.drop (start + content.length)

/-- Completes the lines of the given slots in turn, in a manifest that starts at
`start`.  Stops at the first line that cannot be completed. -/
def patch (pending : Pending) (start : Nat) (buffer : Bytes) :
    List Slot → Except ArtifactError (List Line) × Bytes
  | [] => (.ok [], buffer)
  | slot :: rest =>
      let position := start + slot.offset
      match pending.checksum? slot.name with
      | none => (.error (.backpatch slot.name .missing), buffer)
      | some checksum =>
          if buffer.length < position + Checksum.textWidth then
            (.error (.backpatch slot.name .outOfRange), buffer)
          else if Bytes.slice position Checksum.textWidth buffer ≠ placeholder then
            (.error (.backpatch slot.name (.noPlaceholder position)), buffer)
          else
            let patched := overwrite buffer position (Bytes.utf8 checksum.hex)
            let (outcome, final) := patch pending start patched rest
            (outcome.map ({ checksum, name := slot.name } :: ·), final)

/-- Completes the manifest inside a finished archive. -/
def finalize (pending : Pending) (archive : Bytes) :
    Except ArtifactError (List Line) × Bytes :=
  match Tar.dataOffset archive entryName with
  | .error fault => (.error (.read fault), archive)
  | .ok none => (.error .manifestNotFound, archive)
  | .ok (some start) => pending.patch start archive pending.slots

end Pending

end Manifest

end UpdateArtifact
