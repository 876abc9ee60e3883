import UpdateArtifact.Bytes

/-!
# SHA-256

The hash function of FIPS 180-4.  A `Hasher` takes its input byte by byte and
compresses each full block of 64 bytes, so the digest of a stream depends only
on its bytes and not on how they were cut: `update_append` says so, and
`digest` is one update followed by the padding.
-/

namespace UpdateArtifact

namespace Sha256

/-- The eight working words. -/
structure State where
  a : UInt32
  b : UInt32
  c : UInt32
  d : UInt32
  e : UInt32
  f : UInt32
  g : UInt32
  h : UInt32
  deriving DecidableEq

/-- The fractional parts of the square roots of the first eight primes. -/
def initialState : State :=
  { a := 0x6a09e667, b := 0xbb67ae85, c := 0x3c6ef372, d := 0xa54ff53a,
    e := 0x510e527f, f := 0x9b05688c, g := 0x1f83d9ab, h := 0x5be0cd19 }

/-- The fractional parts of the cube roots of the first 64 primes. -/
def roundConstants : List UInt32 :=
  [0x428a2f98, 0x71374491, 0xb5c0fbcf, 0xe9b5dba5, 0x3956c25b, 0x59f111f1, 0x923f82a4, 0xab1c5ed5,
   0xd807aa98, 0x12835b01, 0x243185be, 0x550c7dc3, 0x72be5d74, 0x80deb1fe, 0x9bdc06a7, 0xc19bf174,
   0xe49b69c1, 0xefbe4786, 0x0fc19dc6, 0x240ca1cc, 0x2de92c6f, 0x4a7484aa, 0x5cb0a9dc, 0x76f988da,
   0x983e5152, 0xa831c66d, 0xb00327c8, 0xbf597fc7, 0xc6e00bf3, 0xd5a79147, 0x06ca6351, 0x14292967,
   0x27b70a85, 0x2e1b2138, 0x4d2c6dfc, 0x53380d13, 0x650a7354, 0x766a0abb, 0x81c2c92e, 0x92722c85,
   0xa2bfe8a1, 0xa81a664b, 0xc24b8b70, 0xc76c51a3, 0xd192e819, 0xd6990624, 0xf40e3585, 0x106aa070,
   0x19a4c116, 0x1e376c08, 0x2748774c, 0x34b0bcb5, 0x391c0cb3, 0x4ed8aa4a, 0x5b9cca4f, 0x682e6ff3,
   0x748f82ee, 0x78a5636f, 0x84c87814, 0x8cc70208, 0x90befffa, 0xa4506ceb, 0xbef9a3f7, 0xc67178f2]

def rotateRight (word : UInt32) (count : UInt32) : UInt32 :=
  (word >>> count) ||| (word <<< (32 - count))

def words : Bytes → List UInt32
  | first :: second :: third :: fourth :: rest =>
      ((first.toUInt32 <<< 24) ||| (second.toUInt32 <<< 16) |||
        (third.toUInt32 <<< 8) ||| fourth.toUInt32) :: words rest
  | _ => []

/-- Extends a message schedule, held with its newest word first, by one word. -/
def extendSchedule : List UInt32 → List UInt32
  | schedule@(_ :: w2 :: _ :: _ :: _ :: _ :: w7 :: _ :: _ :: _ :: _ :: _ :: _ :: _ :: w15 ::
      w16 :: _) =>
      let early := rotateRight w15 7 ^^^ rotateRight w15 18 ^^^ (w15 >>> 3)
      let late := rotateRight w2 17 ^^^ rotateRight w2 19 ^^^ (w2 >>> 10)
      (w16 + early + w7 + late) :: schedule
  | schedule => schedule

def schedule (block : Bytes) : List UInt32 :=
  (Nat.repeat extendSchedule 48 (words block).reverse).reverse

def round (state : State) (inputs : UInt32 × UInt32) : State :=
  let { a, b, c, d, e, f, g, h } := state
  let mixed := rotateRight e 6 ^^^ rotateRight e 11 ^^^ rotateRight e 25
  let choice := (e &&& f) ^^^ ((~~~ e) &&& g)
  let first := h + mixed + choice + inputs.1 + inputs.2
  let spread := rotateRight a 2 ^^^ rotateRight a 13 ^^^ rotateRight a 22
  let majority := (a &&& b) ^^^ (a &&& c) ^^^ (b &&& c)
  { a := first + spread + majority, b := a, c := b, d := c, e := d + first, f := e, g := f, h := g }

/-- The compression of one block of 64 bytes into the state. -/
def compress (state : State) (block : Bytes) : State :=
  let final := (roundConstants.zip (schedule block)).foldl round state
  { a := state.a + final.a, b := state.b + final.b, c := state.c + final.c, d := state.d + final.d,
    e := state.e + final.e, f := state.f + final.f, g := state.g + final.g, h := state.h + final.h }

def State.bytes (state : State) : Bytes :=
  [state.a, state.b, state.c, state.d, state.e, state.f, state.g, state.h].flatMap fun word =>
    Bytes.bigEndian 4 word.toNat

/-- A hash computation under way: the state after the full blocks, the bytes of
the block begun (newest first), and how many bytes were taken in all. -/
structure Hasher where
  state : State
  pending : Bytes
  count : Nat

def Hasher.empty : Hasher :=
  { state := initialState, pending := [], count := 0 }

/-- Takes one byte; the 64th byte of a block completes it. -/
def Hasher.push (hasher : Hasher) (byte : UInt8) : Hasher :=
  if hasher.count % 64 = 63 then
    { state := compress hasher.state (byte :: hasher.pending).reverse
      pending := []
      count := hasher.count + 1 }
  else
    { hasher with pending := byte :: hasher.pending, count := hasher.count + 1 }

def Hasher.update (hasher : Hasher) (chunk : Bytes) : Hasher :=
  chunk.foldl Hasher.push hasher

/-- What follows a message of the given length: a one bit, zeros up to eight
bytes before the end of a block, and the length in bits. -/
def padding (length : Nat) : Bytes :=
  0x80 :: Bytes.zeros ((119 - length % 64) % 64) ++ Bytes.bigEndian 8 (8 * length)

/-- The digest of the bytes taken so far. -/
def Hasher.finish (hasher : Hasher) : Bytes :=
  (hasher.update (padding hasher.count)).state.bytes

def digest (message : Bytes) : Bytes :=
  (Hasher.empty.update message).finish

@[simp] theorem Hasher.update_nil (hasher : Hasher) : hasher.update [] = hasher := rfl

theorem Hasher.update_append (hasher : Hasher) (first second : Bytes) :
    hasher.update (first ++ second) = (hasher.update first).update second :=
  List.foldl_append

@[simp] theorem Hasher.count_push (hasher : Hasher) (byte : UInt8) :
    (hasher.push byte).count = hasher.count + 1 := by
  unfold Hasher.push
  split <;> rfl

@[simp] theorem Hasher.count_update (hasher : Hasher) (chunk : Bytes) :
    (hasher.update chunk).count = hasher.count + chunk.length := by
  induction chunk generalizing hasher with
  | nil => rfl
  | cons byte rest ih =>
      have step : hasher.update (byte :: rest) = (hasher.push byte).update rest := rfl
      rw [step, ih, Hasher.count_push, List.length_cons]
      omega

@[simp] theorem State.length_bytes (state : State) : state.bytes.length = 32 := by
  simp [State.bytes]

@[simp] theorem Hasher.length_finish (hasher : Hasher) : hasher.finish.length = 32 :=
  State.length_bytes _

end Sha256

end UpdateArtifact
