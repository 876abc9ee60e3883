import UpdateArtifact.Tar.Announcement
import UpdateArtifact.Tar.Sparse

/-!
# Reading tar archives

A listing holds the files of an archive in order, with their names resolved and
the places of their data, up to the end of the archive or the first fault.  The
map of a sparse file is checked at once.  The data of a file is not looked at
before the reader goes on to what follows it, so a fault there does not hide the
file itself.
-/

namespace UpdateArtifact

namespace Tar

structure Member where
  name : Bytes
  size : Nat
  /-- Where the header ends: there the data starts, after the rest of the map if
  the file is sparse. -/
  offset : Nat
  /-- The data that is stored, as far as it is there. -/
  data : Bytes
  deriving DecidableEq

/-- The files read, and what stopped the reading if not the end. -/
structure Listing where
  members : List Member
  fault : Option ReadFault
  deriving DecidableEq

namespace Listing

def cons (member : Member) (listing : Listing) : Listing :=
  { listing with members := member :: listing.members }

def stop (fault : Option ReadFault) : Listing :=
  { members := [], fault }

/-- A header's checksum and size fields, if they are right. -/
def checkedSize (header : Bytes) : Except ReadFault Nat :=
  match Numeral.readOctal? (Bytes.slice 148 8 header) with
  | none => .error .badNumber
  | some recorded =>
      if recorded ≠ Header.checksum (header.take 148) (header.drop 156) then
        .error .checksumMismatch
      else
        match Numeral.readSize? (Bytes.slice 124 12 header) with
        | none => .error .badNumber
        | some size => .ok size

/-- The number of blocks that the map of a file takes after its header. -/
def mapBlocks (size : Nat) (header body : Bytes) : Except ReadFault Nat :=
  if Notice.typeCode header = Sparse.typeCode then Sparse.checkMap size header body else .ok 0

/-- Reads on at `offset`, where `rest` is what is left of the archive, with what
has been announced about the next file. -/
def readFrom (offset : Nat) (announced : Announcement) (rest : Bytes) : Listing :=
  let ended := stop (if announced = .nothing then none else some .missingFile)
  if rest = [] then ended
  else
    let header := rest.take blockSize
    let body := rest.drop blockSize
    if _ : header.length < blockSize then stop (some .partialBlock)
    else if header.all (· = 0) then ended
    else
      match checkedSize header with
      | .error fault => stop (some fault)
      | .ok inHeader =>
          let start := offset + blockSize
          let size := announced.storedSize header inHeader
          let span := size + gap size
          if Numeral.wordLimit ≤ size + (blockSize - 1) ∨ Numeral.wordLimit ≤ start + span then
            stop (some .sizeOverflow)
          else
            let next (skipped : Nat) (announced : Announcement) : Listing :=
              if (body.take skipped).length < skipped then stop (some .cutData)
              else readFrom (start + skipped) announced (body.drop skipped)
            match Notice.ofHeader? header with
            | some notice =>
                match announced.add (body.take size) notice with
                | .error fault => stop (some fault)
                | .ok announced => next span announced
            | none =>
                match mapBlocks size header body with
                | .error fault => stop (some fault)
                | .ok count =>
                    let mapped := count * blockSize
                    let member : Member :=
                      { name := announced.path header, size, offset := start
                        data := Bytes.slice mapped size body }
                    cons member (next (mapped + span) .nothing)
termination_by rest.length
decreasing_by
  all_goals
    have whole : ¬ (rest.take blockSize).length < blockSize := ‹_›
    simp only [List.length_take, List.length_drop, blockSize] at whole ⊢
    omega

def read (archive : Bytes) : Listing :=
  readFrom 0 .nothing archive

/-- The first file of that name, unless reading fails before it. -/
def find (name : Bytes) (listing : Listing) : Except ReadFault (Option Member) :=
  match listing.members.find? (·.name = name), listing.fault with
  | some member, _ => .ok (some member)
  | none, some fault => .error fault
  | none, none => .ok none

end Listing

/-- Where the data of the first file of that name starts. -/
def dataOffset (archive : Bytes) (name : String) : Except ReadFault (Option Nat) :=
  ((Listing.read archive).find (Bytes.utf8 name)).map (·.map Member.offset)

end Tar

end UpdateArtifact
