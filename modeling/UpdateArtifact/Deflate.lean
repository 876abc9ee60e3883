import UpdateArtifact.Bytes

/-!
# DEFLATE coders

How content is compressed is left to the coder that is used.  All that is asked
of it is that the compressed form depends on nothing but the content and the
level, that a reader finds its end by itself, and that the content comes back
whole at every level.
-/

namespace UpdateArtifact

/-- A DEFLATE coder with its reader. -/
class Deflate where
  /-- The compressed form of some content at a level. -/
  encode : Nat → Bytes → Bytes
  /-- The content of the compressed form that a text starts with, and what
  follows it. -/
  decode? : Bytes → Option (Bytes × Bytes)
  decode?_encode (level : Nat) (content rest : Bytes) :
    decode? (encode level content ++ rest) = some (content, rest)

end UpdateArtifact
