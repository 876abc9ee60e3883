import UpdateArtifact.Checksum
import UpdateArtifact.Source.Transfer

/-!
# The checksum of a source

A source is rewound, hashed block by block to its end and rewound again, so
that the hashed bytes can be read a second time.  The blocks go through a buffer
of their size, which no memory holds if it is beyond what a buffer can be.
-/

namespace UpdateArtifact

/-- Why no checksum is given. -/
inductive DigestFault where
  | source (error : IoError)
  /-- The buffer cannot be made.  Nothing is returned to the caller. -/
  | panic
  deriving DecidableEq

namespace Source

/-- The largest size of a buffer. -/
def bufferLimit : Nat := 0x7fffffffffffffff

/-- The checksum of the whole content and its length.  The first failing step
ends the computation. -/
def digest (block : Nat) (source : Source) : Except DigestFault (Checksum × Nat) × Source :=
  match source.rewind with
  | (.error error, source) => (.error (.source error), source)
  | (.ok (), source) =>
      if bufferLimit < block then (.error .panic, source)
      else
        match source.transfer block Sha256.Hasher.update none Sha256.Hasher.empty with
        | (_, some error, source) => (.error (.source error), source)
        | (hasher, none, source) =>
            match source.rewind with
            | (.error error, source) => (.error (.source error), source)
            | (.ok (), source) => (.ok (Checksum.ofHasher hasher, hasher.count), source)

/-- The checksum of bytes in memory, hashed like any other source. -/
def digestBytes (block : Nat) (content : Bytes) : Except DigestFault Checksum :=
  ((ofBytes content).digest block).1.map Prod.fst

end Source

end UpdateArtifact
