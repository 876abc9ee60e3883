import UpdateArtifact.Tar.Header
import UpdateArtifact.Tar.ReadFault

/-!
# Sparse files

A sparse file is stored without its holes.  A map in its header, continued in
the blocks after it if there are many extents, tells where the stored data
belongs.  The extents have to come in order, to fill whole blocks but for the
last one, and to account for all that is stored and for the size of the file.
-/

namespace UpdateArtifact

namespace Tar

namespace Sparse

def typeCode : UInt8 := 83

/-- The size of an extent in a map: two numbers. -/
def extentWidth : Nat := 24

/-- How far the extents of a map reach, in the file and in what is stored. -/
structure Reach where
  file : Nat
  stored : Nat
  deriving DecidableEq

/-- Adds an extent of a file with `size` bytes stored.  An extent with an empty
field is no extent. -/
def advance (size : Nat) (reach : Reach) (extent : Bytes) : Except ReadFault Reach :=
  let offsetField := Bytes.slice 0 12 extent
  let lengthField := Bytes.slice 12 12 extent
  if offsetField.head? = some 0 ∨ lengthField.head? = some 0 then .ok reach
  else
    match Numeral.readSize? offsetField, Numeral.readSize? lengthField with
    | some offset, some length =>
        if length ≠ 0 ∧ reach.stored % blockSize ≠ 0 then .error .unalignedExtent
        else if offset < reach.file then .error .misplacedExtent
        else if Numeral.wordLimit ≤ offset + length then .error .extentOverflow
        else if size < reach.stored + length then .error .excessExtents
        else .ok { file := offset + length, stored := reach.stored + length }
    | _, _ => .error .badNumber

/-- Adds `count` extents that stand one after the other in `map`. -/
def advanceAll (size : Nat) (reach : Reach) : Nat → Bytes → Except ReadFault Reach
  | 0, _ => .ok reach
  | count + 1, map =>
      match advance size reach (map.take extentWidth) with
      | .error fault => .error fault
      | .ok reach => advanceAll size reach count (map.drop extentWidth)

/-- Adds the extents of the blocks that continue a map.  Gives the number of
those blocks too. -/
def extend (size : Nat) (reach : Reach) (rest : Bytes) : Except ReadFault (Reach × Nat) :=
  if rest = [] then .error .missingExtension
  else
    let block := rest.take blockSize
    if _ : block.length < blockSize then .error .partialBlock
    else
      match advanceAll size reach 21 block with
      | .error fault => .error fault
      | .ok reach =>
          if Bytes.slice 504 1 block = [1] then
            (extend size reach (rest.drop blockSize)).map fun (reach, count) => (reach, count + 1)
          else .ok (reach, 1)
termination_by rest.length
decreasing_by
  have whole : ¬ (rest.take blockSize).length < blockSize := ‹_›
  simp only [List.length_take, List.length_drop, blockSize] at whole ⊢
  omega

/-- Checks the map of a sparse file with `size` bytes stored, given its header
and the archive after it.  Gives the number of blocks by which the map is
continued. -/
def checkMap (size : Nat) (header body : Bytes) : Except ReadFault Nat :=
  if Bytes.slice 257 8 header ≠ Header.gnuMagic then .error .missingMap
  else
    match advanceAll size { file := 0, stored := 0 } 4 (header.drop 386) with
    | .error fault => .error fault
    | .ok reach =>
        let continued := Bytes.slice 482 1 header = [1]
        match if continued then extend size reach body else .ok (reach, 0) with
        | .error fault => .error fault
        | .ok (reach, count) =>
            match Numeral.readSize? (Bytes.slice 483 12 header) with
            | none => .error .badNumber
            | some fileSize =>
                if reach.file ≠ fileSize then .error .fileSizeMismatch
                else if reach.stored < size then .error .storedSizeMismatch
                else .ok count

end Sparse

end Tar

end UpdateArtifact
