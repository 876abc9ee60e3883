import UpdateArtifact.Source.Transfer
import UpdateArtifact.Tar.Header
import UpdateArtifact.Tar.Path

/-!
# Tar containers under construction

A container grows by whole entries: the header, the data and the padding to
whole blocks.  The owner's name and the path are settled before anything is
written.  Of a path that is too long for the name field, this includes the
beginning that is stored there: if the field refuses it, the entry for the whole
path has not been written yet, so that a refused path leaves no bytes behind,
however long it is.  A stream that fails or ends early leaves its entry
unfinished, and the writer is told.
-/

namespace UpdateArtifact

namespace Tar

/-- Why the owner's name does not fit the header. -/
inductive OwnerFault where
  | tooLong
  | nulByte
  deriving DecidableEq

/-- Why an entry was not written as wanted. -/
inductive WriteFault where
  | owner (fault : OwnerFault)
  | path (refused : Path.Refused)
  | source (error : IoError)
  /-- The data ended early. -/
  | short (entry : String) (expected delivered : Nat)
  deriving DecidableEq

namespace WriteFault

def toIoError : WriteFault → IoError
  | owner .tooLong =>
      { kind := .other, text := "provided value is too long when setting username for :" }
  | owner .nulByte =>
      { kind := .other, text := "provided value contains a nul byte when setting username for :" }
  | path { fault, kept } =>
      { kind := .other, text := s!"{fault.message} when setting path for {kept}" }
  | source error => error
  | short entry expected delivered =>
      { kind := .unexpectedEnd
        text := s!"{entry}: expected {expected} bytes, stream ended after {delivered}" }

end WriteFault

structure Container where
  /-- The user and group name in every header. -/
  owner : String
  written : Bytes := []
  deriving DecidableEq

namespace Container

def ownerWidth : Nat := 32

/-- What makes an owner's name unfit, if anything. -/
def ownerFault? (owner : String) : Option OwnerFault :=
  let bytes := Bytes.utf8 owner
  if ownerWidth < bytes.length then some .tooLong
  else if 0 ∈ bytes then some .nulByte
  else none

/-- The size of the pieces in which data is copied. -/
def copyBlock : Nat := 8192

def longNameEntry (path : Bytes) : Bytes :=
  let header : Header :=
    { name := Bytes.utf8 "././@LongLink", size := path.length, type := .longName, owner := [] }
  header.encode ++ path ++ Bytes.zeros (gap path.length)

/-- All that stands before the data of a file. -/
def preamble (owner : String) (placement : Path.Placement) (length : Nat) : Bytes :=
  let header : Header :=
    { name := placement.name, size := length, type := .file, owner := Bytes.utf8 owner }
  (placement.longName.elim [] longNameEntry) ++ header.encode

/-- The preamble of an entry, or why it has none.  The entry of a long name is a part of it,
and comes into being only once the path is placed. -/
def accept (owner path : String) (length : Nat) : Except WriteFault Bytes :=
  match ownerFault? owner with
  | some fault => .error (.owner fault)
  | none =>
      match Path.place path with
      | .error refused => .error (.path refused)
      | .ok placement => .ok (preamble owner placement length)

/-- Writes `length` bytes of a source as the file of that path. -/
def writeEntry (container : Container) (path : String) (source : Source) (length : Nat) :
    Except WriteFault Unit × Container × Source :=
  match accept container.owner path length with
  | .error fault => (.error fault, container, source)
  | .ok preamble =>
      match source.transfer copyBlock (· ++ ·) (some length) [] with
      | (data, some error, source) =>
          let broken := { container with written := container.written ++ (preamble ++ data) }
          (.error (.source error), broken, source)
      | (data, none, source) =>
          let padding := Bytes.zeros (gap data.length)
          let grown :=
            { container with written := container.written ++ (preamble ++ data ++ padding) }
          if data.length = length then (.ok (), grown, source)
          else (.error (.short path length data.length), grown, source)

def writeBytes (container : Container) (path : String) (data : Bytes) :
    Except WriteFault Unit × Container :=
  let (outcome, container, _) := container.writeEntry path (Source.ofBytes data) data.length
  (outcome, container)

/-- Writes files in turn, up to the first that is refused. -/
def writeAll (container : Container) : List (String × Bytes) → Except WriteFault Container
  | [] => .ok container
  | (path, data) :: rest =>
      match container.writeBytes path data with
      | (.error fault, _) => .error fault
      | (.ok (), grown) => writeAll grown rest

/-- The bytes of the finished archive: two blocks of zeros end it. -/
def close (container : Container) : Bytes :=
  container.written ++ Bytes.zeros (2 * blockSize)

end Container

end Tar

end UpdateArtifact
