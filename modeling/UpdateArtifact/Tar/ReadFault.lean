/-!
# Faults in archives

Why the reading of an archive can stop before its end, with the wording of each
case.
-/

namespace UpdateArtifact

namespace Tar

/-- Why reading stops before the end of an archive. -/
inductive ReadFault where
  /-- A header is cut off. -/
  | partialBlock
  | checksumMismatch
  | badNumber
  /-- The data or the padding of an entry is cut off. -/
  | cutData
  /-- A size goes beyond 64 bits. -/
  | sizeOverflow
  /-- Two long names or two long link targets stand before one file. -/
  | repeatedName
  /-- Two extended headers stand before one file. -/
  | repeatedRecords
  /-- What stands before a file is followed by none. -/
  | missingFile
  /-- A sparse file has a header without a map. -/
  | missingMap
  /-- The blocks that continue a map are missing. -/
  | missingExtension
  /-- An extent follows one that does not fill its last block. -/
  | unalignedExtent
  /-- An extent starts before the end of the one before it. -/
  | misplacedExtent
  /-- An extent goes beyond 64 bits. -/
  | extentOverflow
  /-- The extents hold more than is stored. -/
  | excessExtents
  /-- The last extent does not end with the file. -/
  | fileSizeMismatch
  /-- The extents hold less than is stored. -/
  | storedSizeMismatch
  deriving DecidableEq

/-- The wording of a fault.  That of a bad number quotes the field. -/
def ReadFault.message? : ReadFault → Option String
  | partialBlock => some "failed to read entire block"
  | checksumMismatch => some "archive header checksum mismatch"
  | badNumber => none
  | cutData => some "unexpected EOF during skip"
  | sizeOverflow => some "size overflow"
  | repeatedName => some "two long name entries describing the same member"
  | repeatedRecords => some "two pax extensions entries describing the same member"
  | missingFile => some "members found describing a future member but no future member found"
  | missingMap => some "sparse entry type listed but not GNU header"
  | missingExtension => some "failed to read extension"
  | unalignedExtent => some "previous block in sparse file was not aligned to 512-byte boundary"
  | misplacedExtent => some "out of order or overlapping sparse blocks"
  | extentOverflow => some "more bytes listed in sparse file than u64 can hold"
  | excessExtents => some "sparse file consumed more data than the header listed"
  | fileSizeMismatch => some "mismatch in sparse file chunks and size in header"
  | storedSizeMismatch => some "mismatch in sparse file chunks and entry size in header"

end Tar

end UpdateArtifact
