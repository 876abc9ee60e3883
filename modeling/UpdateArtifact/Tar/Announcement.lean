import UpdateArtifact.Tar.Header
import UpdateArtifact.Tar.ReadFault
import UpdateArtifact.Tar.Records

/-!
# What is announced about a file

A header has room for short names and eleven digits.  What does not fit is
announced by entries before the file: a long name, a long link target, or an
extended header with records.  Each can stand once before a file, in any order.
-/

namespace UpdateArtifact

namespace Tar

/-- The entries that announce something about the next file. -/
inductive Notice where
  | name
  | linkTarget
  | records
  deriving DecidableEq

namespace Notice

def typeCode (header : Bytes) : UInt8 :=
  (Bytes.slice 156 1 header).headD 0

/-- What a header gives notice of, if it is of a format that can. -/
def ofHeader? (header : Bytes) : Option Notice :=
  let magic := Bytes.slice 257 8 header
  if magic = Header.gnuMagic ∨ magic = Header.posixMagic then
    match typeCode header with
    | 76 => some .name
    | 75 => some .linkTarget
    | 120 => some .records
    | _ => none
  else none

/-- Whether a header of that type is never that of a file: a name, a link
target, or an extended header for one file or for all. -/
def isDescriptive (code : UInt8) : Bool :=
  code = 76 || code = 75 || code = 120 || code = 103

end Notice

/-- What has been announced about the next file. -/
structure Announcement where
  name : Option Bytes := none
  linkTarget : Option Bytes := none
  records : Option Bytes := none
  deriving DecidableEq

namespace Announcement

def nothing : Announcement := {}

def add (announced : Announcement) (content : Bytes) : Notice → Except ReadFault Announcement
  | .name =>
      if announced.name.isSome then .error .repeatedName
      else .ok { announced with name := some content }
  | .linkTarget =>
      if announced.linkTarget.isSome then .error .repeatedName
      else .ok { announced with linkTarget := some content }
  | .records =>
      if announced.records.isSome then .error .repeatedRecords
      else .ok { announced with records := some content }

/-- A long name without the zero byte at its end. -/
def unterminated (name : Bytes) : Bytes :=
  if name.getLast? = some 0 then name.dropLast else name

/-- The path in a header.  In the POSIX format it can be continued to the left
by a second field. -/
def headerPath (header : Bytes) : Bytes :=
  let name := (Bytes.slice 0 100 header).takeWhile (· ≠ 0)
  let lead := (Bytes.slice 345 155 header).takeWhile (· ≠ 0)
  if Bytes.slice 257 8 header = Header.posixMagic ∧ lead ≠ [] then lead ++ 47 :: name else name

/-- The path of the file with the given header. -/
def path (announced : Announcement) (header : Bytes) : Bytes :=
  match announced.name with
  | some name => unterminated name
  | none => (announced.records.bind Record.path?).getD (headerPath header)

/-- The number of bytes stored for an entry, given the number in its header.
Records speak of the file and not of what stands between. -/
def storedSize (announced : Announcement) (header : Bytes) (size : Nat) : Nat :=
  if Notice.isDescriptive (Notice.typeCode header) then size
  else (announced.records.bind Record.size?).getD size

end Announcement

end Tar

end UpdateArtifact
