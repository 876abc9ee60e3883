import UpdateArtifact.Source

/-!
# Taking the bytes of a source

Hashing and embedding read a source in the same way: piece by piece, trying
again after an interruption, until the stream ends, a read fails, or as many
bytes as wanted have come.  What is done with each piece is a parameter.
-/

namespace UpdateArtifact

namespace Source

/-- How many bytes the next read may deliver. -/
def allowance (block : Nat) : Option Nat → Nat
  | none => max block 1
  | some wanted => min (max block 1) wanted

theorem allowance_pos {block : Nat} {wanted : Option Nat} (wants : ¬ wanted = some 0) :
    0 < allowance block wanted := by
  cases wanted with
  | none =>
      simp only [allowance]
      omega
  | some count =>
      have : count ≠ 0 := fun zero => wants (by rw [zero])
      simp only [allowance]
      omega

/-- Reads pieces of at most `block` bytes and hands each to `take`, until the
stream ends or fails or the wanted number of bytes has come.  Nothing is read
when no bytes are wanted.  A block size of zero counts as one. -/
def transfer {σ : Type} (block : Nat) (take : σ → Bytes → σ) (wanted : Option Nat)
    (state : σ) (source : Source) : σ × Option IoError × Source :=
  if _ : wanted = some 0 then (state, none, source)
  else
    match outcome : source.read (allowance block wanted) with
    | (.chunk [], next) => (state, none, next)
    | (.chunk (byte :: rest), next) =>
        transfer block take (wanted.map (· - (rest.length + 1)))
          (take state (byte :: rest)) next
    | (.interrupted, next) => transfer block take wanted state next
    | (.failed error, next) => (state, some error, next)
termination_by source.ahead.weight
decreasing_by
  all_goals
    have fell := Pass.weight_read_lt _ (allowance_pos ‹_›) source.ahead (by
      rw [← read_reading, outcome]
      simp)
    rw [← ahead_read, outcome] at fell
    exact fell

end Source

end UpdateArtifact
