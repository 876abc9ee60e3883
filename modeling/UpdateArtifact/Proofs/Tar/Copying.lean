import UpdateArtifact.Proofs.Tar.RoundTrip

/-!
# Copying a stream into an entry

An entry announces its length before the stream is read, so a stream that fails or ends too
soon leaves an entry that keeps less than it promised, and only the count of the copied bytes
tells.  The copying never asks a stream for more than is still missing.  What an entry gets
is therefore decided by the bytes that the stream delivers, and not by the pieces.
-/

namespace UpdateArtifact

namespace Source

/-- Some reads, each of no more bytes than are still missing, and none once no byte is or
after a failure.  `Draws missing source data after` says what they bring. -/
inductive Draws : Nat → Source → Bytes → Source → Prop where
  | done (missing : Nat) (source : Source) : Draws missing source [] source
  | chunk {missing limit : Nat} {source next after : Source} {bytes rest : Bytes} :
      0 < missing → limit ≤ missing → source.read limit = (.chunk bytes, next) →
      Draws (missing - bytes.length) next rest after →
      Draws missing source (bytes ++ rest) after
  | again {missing limit : Nat} {source next after : Source} {data : Bytes} :
      0 < missing → limit ≤ missing → source.read limit = (.interrupted, next) →
      Draws missing next data after → Draws missing source data after
  | failed {missing limit : Nat} {source after : Source} {error : IoError} :
      0 < missing → limit ≤ missing → source.read limit = (.failed error, after) →
      Draws missing source [] after

theorem position_of_read {limit : Nat} {source next : Source} {reading : Reading}
    (outcome : source.read limit = (reading, next)) :
    next.position = source.position + reading.size := by
  have moved : (source.read limit).2.position =
      source.position + (source.read limit).1.size := rfl
  rwa [outcome] at moved

namespace Draws

variable {missing : Nat} {source after : Source} {data : Bytes}

theorem position_eq (draws : Draws missing source data after) :
    after.position = source.position + data.length := by
  induction draws with
  | done missing source => rfl
  | chunk positive within outcome _ ih =>
      rw [ih, position_of_read outcome, List.length_append]
      exact Nat.add_assoc _ _ _
  | again positive within outcome _ ih =>
      rw [ih, position_of_read outcome]
      rfl
  | failed positive within outcome => exact position_of_read outcome

end Draws

end Source

namespace Tar

namespace Container

/-- A path is refused without a trace also if it is too long for the name field. -/
example :
    let path := String.ofList ('/' :: List.replicate 120 'a')
    let container : Container := { owner := "root", written := [9] }
    container.writeEntry path (Source.ofBytes [1]) 1 =
      (.error (.path { fault := .absolute, kept := "" }), container, Source.ofBytes [1]) := by
  decide +kernel

end Container

end Tar

end UpdateArtifact
