import UpdateArtifact.Bytes
import UpdateArtifact.IoError

/-!
# Rewindable byte sources

A payload's content comes from a stream that can be read in pieces and rewound
to its start.  A stream need not be well behaved: it may deliver other bytes
each time it is read from the start, be interrupted, fail in the middle, or
refuse to be rewound.  A `Source` describes all of this as data.  Its behaviour
between two rewinds is a pass, the list of events that the reads meet in turn.
-/

namespace UpdateArtifact

/-- What a read can meet. -/
inductive Event where
  /-- Some bytes; one read delivers at most what is left of them. -/
  | data (bytes : Bytes)
  /-- A read that delivers nothing and is to be tried again. -/
  | interrupt
  /-- A read that fails, other than by an interruption. -/
  | fail (error : IoError) (lasting : error.kind ≠ .interrupted)
  deriving DecidableEq

/-- The events of one reading from the start, after which the stream has ended. -/
abbrev Pass := List Event

inductive Reading where
  /-- Delivered bytes; none at the end of the stream. -/
  | chunk (bytes : Bytes)
  | interrupted
  | failed (error : IoError)
  deriving DecidableEq

namespace Reading

def size : Reading → Nat
  | chunk bytes => bytes.length
  | _ => 0

end Reading

namespace Pass

/-- A read of at most `limit` bytes, and the events left for later reads.
Empty data is passed over. -/
def read (limit : Nat) : Pass → Reading × Pass
  | [] => (.chunk [], [])
  | .data bytes :: rest =>
      if bytes = [] then read limit rest
      else (.chunk (bytes.take limit), .data (bytes.drop limit) :: rest)
  | .interrupt :: rest => (.interrupted, rest)
  | .fail error _ :: rest => (.failed error, rest)

/-- A bound on the number of reads until the end. -/
def weight : Pass → Nat
  | [] => 0
  | .data bytes :: rest => bytes.length + 1 + weight rest
  | .interrupt :: rest => 1 + weight rest
  | .fail _ _ :: rest => 1 + weight rest

/-- A read that does not find the end leaves less to read. -/
theorem weight_read_lt (limit : Nat) (positive : 0 < limit) (pass : Pass)
    (notEnd : (pass.read limit).1 ≠ .chunk []) :
    weight (pass.read limit).2 < weight pass := by
  induction pass with
  | nil => simp [read] at notEnd
  | cons event rest ih =>
      cases event with
      | data bytes =>
          by_cases empty : bytes = []
          · simp only [read, empty, if_true] at notEnd ⊢
            have less := ih notEnd
            simp only [weight]
            omega
          · have size : 0 < bytes.length := List.length_pos_iff.mpr empty
            simp only [read, empty, if_false, weight, List.length_drop]
            omega
      | interrupt => simp [read, weight]
      | fail error lasting => simp [read, weight]

end Pass

/-- A stream at some point of its life: the passes still to come, the refused
rewinds, what is left of the present pass, and what was done so far. -/
structure Source where
  /-- The passes not yet begun; the last one is repeated for ever. -/
  passes : List Pass
  /-- The rewinds, counted from one, that fail, and with what. -/
  failingSeeks : List (Nat × IoError) := []
  /-- What is left of the present pass, once a read has begun it. -/
  current : Option Pass := none
  /-- The number of rewinds attempted. -/
  seeks : Nat := 0
  reads : Nat := 0
  /-- The number of bytes read since the last rewind. -/
  position : Nat := 0
  deriving DecidableEq

namespace Source

/-- The stream over bytes in memory, which delivers them in every pass. -/
def ofBytes (content : Bytes) : Source :=
  { passes := [[.data content]] }

/-- The events the next reads will meet. -/
def ahead (source : Source) : Pass :=
  source.current.getD (source.passes.headD [])

/-- The passes that remain once the next one has begun. -/
def laterPasses : List Pass → List Pass
  | _ :: next :: rest => next :: rest
  | passes => passes

/-- Begins a pass unless one is under way. -/
def enter (source : Source) : Source :=
  match source.current with
  | some _ => source
  | none =>
      { source with current := some source.ahead, passes := laterPasses source.passes }

/-- A read of at most `limit` bytes. -/
def read (limit : Nat) (source : Source) : Reading × Source :=
  let (reading, rest) := source.ahead.read limit
  (reading,
    { source.enter with
      current := some rest
      reads := source.reads + 1
      position := source.position + reading.size })

/-- The failure of one of the rewinds to come, counted from one. -/
def refusal? (source : Source) (number : Nat) : Option IoError :=
  source.failingSeeks.lookup (source.seeks + number)

/-- Goes back to the start.  A rewind that fails changes nothing but the count. -/
def rewind (source : Source) : Except IoError Unit × Source :=
  match source.refusal? 1 with
  | some error => (.error error, { source with seeks := source.seeks + 1 })
  | none => (.ok (), { source with seeks := source.seeks + 1, current := none, position := 0 })

theorem ahead_read (limit : Nat) (source : Source) :
    (source.read limit).2.ahead = (source.ahead.read limit).2 := by
  simp [read, ahead]

theorem read_reading (limit : Nat) (source : Source) :
    (source.read limit).1 = (source.ahead.read limit).1 := rfl

end Source

end UpdateArtifact
