import UpdateArtifact.Crc32
import UpdateArtifact.Deflate

/-!
# Gzip streams

A gzip stream is a header, a DEFLATE body, and the CRC-32 and length of the
content.  `decode?` reads such streams back and checks them, and
`decode?_encode` says that nothing is lost.
-/

namespace UpdateArtifact

namespace Gzip

/-- The extra flags: the best compression, the fastest, or neither. -/
def extraFlags (level : Nat) : UInt8 :=
  if 9 ≤ level then 2 else if level ≤ 1 then 4 else 0

/-- The ten bytes before the body: no file name, time zero, unknown system. -/
def header (level : Nat) : Bytes :=
  [0x1f, 0x8b, 8, 0, 0, 0, 0, 0, extraFlags level, 0xff]

@[simp] theorem length_header (level : Nat) : (header level).length = 10 := rfl

def trailer (content : Bytes) : Bytes :=
  Bytes.littleEndian 4 (Crc32.ofBytes content).toNat ++ Bytes.littleEndian 4 content.length

variable [Deflate]

def encode (level : Nat) (content : Bytes) : Bytes :=
  header level ++ Deflate.encode level content ++ trailer content

/-- The content of a complete stream whose checks are right. -/
def decode? (stream : Bytes) : Option Bytes :=
  match stream with
  | 0x1f :: 0x8b :: 8 :: 0 :: _ :: _ :: _ :: _ :: _ :: _ :: text =>
      match Deflate.decode? text with
      | some (content, rest) => if rest = trailer content then some content else none
      | none => none
  | _ => none

/-- Compression loses nothing, at any level. -/
theorem decode?_encode (level : Nat) (content : Bytes) :
    decode? (encode level content) = some content := by
  simp only [encode, header, List.cons_append, List.nil_append, decode?]
  simp [Deflate.decode?_encode]

end Gzip

end UpdateArtifact
