import UpdateArtifact.Proofs.Sources

/-!
# Hashing a stream in pieces

The standard pads a whole message and compresses its blocks in turn.  A hasher meets the
same blocks however its input is cut, because between two bytes it holds the state after
all full blocks and the bytes of the block begun.  So the checksum of a source is that of
its content, which no block size, no way of cutting the reads and no earlier position
changes, and the reads it takes are bounded by the events that the source has.
-/

namespace UpdateArtifact

namespace Sha256

/-- The state after the full blocks of a message. -/
def compressBlocks (state : State) (message : Bytes) : State :=
  if 64 ≤ message.length then
    compressBlocks (compress state (message.take 64)) (message.drop 64)
  else state
termination_by message.length
decreasing_by
  rw [List.length_drop]
  omega

/-- The hash of a message as the standard has it: from the blocks of the padded message. -/
def blockwise (message : Bytes) : Bytes :=
  (compressBlocks initialState (message ++ padding message.length)).bytes

theorem compressBlocks_of_lt {state : State} {message : Bytes} (short : message.length < 64) :
    compressBlocks state message = state := by
  rw [compressBlocks, if_neg (Nat.not_le.mpr short)]

theorem compressBlocks_block {state : State} {block : Bytes} (full : block.length = 64) :
    compressBlocks state block = compress state block := by
  rw [compressBlocks, if_pos (Nat.le_of_eq full.symm),
    List.take_of_length_le (Nat.le_of_eq full), List.drop_of_length_le (Nat.le_of_eq full),
    compressBlocks_of_lt (by decide)]

/-- Whole blocks can be compressed before what follows them is there. -/
theorem compressBlocks_append {state : State} {front : Bytes} (whole : 64 ∣ front.length)
    (back : Bytes) :
    compressBlocks state (front ++ back) = compressBlocks (compressBlocks state front) back := by
  fun_induction compressBlocks state front with
  | case1 state front long ih =>
      have rest : 64 ∣ (front.drop 64).length := by
        rw [List.length_drop]
        omega
      rw [compressBlocks, if_pos (by rw [List.length_append]; omega),
        List.take_append_of_le_length long, List.drop_append_of_le_length long, ih rest]
  | case2 state front short =>
      have empty : front = [] := by
        rw [← List.length_eq_zero_iff]
        omega
      rw [empty, List.nil_append]

namespace Hasher

/-- A hasher between two bytes: `front` are the blocks that are compressed already, and
`tail` is what it has of the next one. -/
structure Took (hasher : Hasher) (front tail : Bytes) : Prop where
  whole : 64 ∣ front.length
  short : tail.length < 64
  state_eq : hasher.state = compressBlocks initialState front
  pending_eq : hasher.pending = tail.reverse
  count_eq : hasher.count = front.length + tail.length

theorem took_empty : Took empty [] [] :=
  ⟨Nat.dvd_zero 64, by decide, (compressBlocks_of_lt (by decide)).symm, rfl, rfl⟩

/-- A byte goes behind those of the block begun, which it may complete. -/
theorem Took.push {hasher : Hasher} {front tail : Bytes} (took : hasher.Took front tail)
    (byte : UInt8) :
    ∃ front' tail', (hasher.push byte).Took front' tail' ∧
      front' ++ tail' = front ++ tail ++ [byte] := by
  obtain ⟨whole, short, state, pending, count⟩ := took
  by_cases last : hasher.count % 64 = 63
  · have full : (tail ++ [byte]).length = 64 := by
      rw [List.length_append, List.length_singleton]
      omega
    have block : (byte :: hasher.pending).reverse = tail ++ [byte] := by
      rw [pending, List.reverse_cons, List.reverse_reverse]
    refine ⟨front ++ (tail ++ [byte]), [], ⟨?_, by decide, ?_, ?_, ?_⟩, by simp⟩
    · rw [List.length_append, full]
      omega
    · rw [compressBlocks_append whole, compressBlocks_block full, ← state, ← block]
      simp [Hasher.push, last]
    · simp [Hasher.push, last]
    · rw [count_push, count, List.length_append, full]
      rw [List.length_append, List.length_singleton] at full
      simp only [List.length_nil]
      omega
  · have room : (tail ++ [byte]).length < 64 := by
      rw [List.length_append, List.length_singleton]
      omega
    refine ⟨front, tail ++ [byte], ⟨whole, room, ?_, ?_, ?_⟩, by simp⟩
    · simp [Hasher.push, last, state]
    · simp [Hasher.push, last, pending]
    · rw [count_push, count, List.length_append, List.length_singleton]
      omega

theorem Took.update {hasher : Hasher} {front tail : Bytes} (took : hasher.Took front tail)
    (chunk : Bytes) :
    ∃ front' tail', (hasher.update chunk).Took front' tail' ∧
      front' ++ tail' = front ++ tail ++ chunk := by
  induction chunk generalizing hasher front tail with
  | nil => exact ⟨front, tail, took, by simp⟩
  | cons byte rest ih =>
      obtain ⟨front', tail', pushed, joined⟩ := took.push byte
      obtain ⟨front'', tail'', updated, all⟩ := ih pushed
      refine ⟨front'', tail'', updated, ?_⟩
      rw [all, joined]
      simp

end Hasher

theorem length_append_padding (message : Bytes) :
    64 ∣ (message ++ padding message.length).length := by
  simp only [padding, List.length_append, List.length_cons, Bytes.length_zeros,
    Bytes.length_bigEndian]
  omega

/-- The hasher's digest is the standard's. -/
theorem digest_eq_blockwise (message : Bytes) : digest message = blockwise message := by
  obtain ⟨front, tail, took, joined⟩ := Hasher.took_empty.update message
  obtain ⟨padded, rest, finished, all⟩ := took.update (padding message.length)
  have count : (Hasher.empty.update message).count = message.length := by
    rw [Hasher.count_update]
    exact Nat.zero_add _
  rw [joined, List.append_nil, List.nil_append] at all
  -- The padding fills the last block up, so that no byte is left over.
  have nothing : rest = [] := by
    have whole := length_append_padding message
    have short := finished.short
    have front := finished.whole
    rw [← all, List.length_append] at whole
    rw [← List.length_eq_zero_iff]
    omega
  rw [nothing, List.append_nil] at all
  rw [digest, Hasher.finish, count, finished.state_eq, all, blockwise]

end Sha256

theorem Checksum.bytes_ofBytes (data : Bytes) :
    (Checksum.ofBytes data).bytes = Sha256.blockwise data :=
  Sha256.digest_eq_blockwise data

namespace Source

/-- What the steps of hashing meet, in their order: a rewind, the making of the buffer, a
pass and a rewind. -/
def hashFaults (source : Source) (block : Nat) : List (Option DigestFault) :=
  [(source.refusal? 1).map .source, if bufferLimit < block then some .panic else none,
    source.nextPass.failure?.map .source, (source.refusal? 2).map .source]

/-- Hashing takes two rewinds and a pass without a failure, and that pass has this content. -/
structure Hashes (source : Source) (content : Bytes) : Prop where
  rewinds : source.refusal? 1 = none
  healthy : source.nextPass.failure? = none
  delivered : source.nextPass.delivered = content
  rewindsAgain : source.refusal? 2 = none

theorem findSome?_hashFaults_eq_none_iff (source : Source) (block : Nat) :
    (source.hashFaults block).findSome? id = none ↔
      block ≤ bufferLimit ∧ source.Hashes source.nextPass.delivered := by
  simp only [hashFaults, List.findSome?_eq_none_iff, List.forall_mem_cons, id_eq,
    Option.map_eq_none_iff, List.not_mem_nil, false_imp_iff, implies_true, and_true,
    ite_eq_right_iff, reduceCtorEq, imp_false, Nat.not_lt]
  constructor
  · rintro ⟨rewinds, small, healthy, rewindsAgain⟩
    exact ⟨small, rewinds, healthy, rfl, rewindsAgain⟩
  · rintro ⟨small, rewinds, healthy, _, rewindsAgain⟩
    exact ⟨rewinds, small, healthy, rewindsAgain⟩

/-- The outcome of hashing is that of its first step that fails, if one does. -/
theorem digest_outcome (source : Source) (block : Nat) :
    (source.digest block).1 =
      match (source.hashFaults block).findSome? id with
      | some fault => .error fault
      | none => .ok (Checksum.ofBytes source.nextPass.delivered,
          source.nextPass.delivered.length) := by
  cases first : source.refusal? 1 with
  | some error =>
      rw [digest_of_refused_first block first]
      simp [hashFaults, first]
  | none =>
      by_cases large : bufferLimit < block
      · obtain ⟨_, panics, _⟩ := digest_of_large large first
        simp [panics, hashFaults, first, large]
      have small := Nat.not_lt.mp large
      cases failure : source.nextPass.failure? with
      | some error =>
          obtain ⟨_, digested, _⟩ := digest_of_failing small first failure
          simp [digested, hashFaults, first, large, failure]
      | none =>
          cases second : source.refusal? 2 with
          | some error =>
              rw [digest_of_refused_second small first failure second]
              simp [hashFaults, first, large, failure, second]
          | none =>
              obtain ⟨⟨checksum, length⟩, _, digested⟩ :=
                digest_of_healthy small first failure second
              obtain ⟨_, _, rfl, rfl, _⟩ := digest_ok digested
              simp [digested, hashFaults, first, large, failure, second]

theorem reads_of_read {limit : Nat} {source next : Source} {reading : Reading}
    (outcome : source.read limit = (reading, next)) : next.reads = source.reads + 1 := by
  have counted : (source.read limit).2.reads = source.reads + 1 := rfl
  rwa [outcome] at counted

theorem reads_transfer_le {σ : Type} (block : Nat) (take : σ → Bytes → σ) (wanted : Option Nat)
    (state : σ) (source : Source) :
    (source.transfer block take wanted state).2.2.reads ≤
      source.reads + source.ahead.weight + 1 := by
  have less {limit : Nat} {source next : Source} {reading : Reading}
      (positive : 0 < limit) (outcome : source.read limit = (reading, next))
      (notEnd : reading ≠ .chunk []) : next.ahead.weight < source.ahead.weight := by
    have fell := Pass.weight_read_lt limit positive source.ahead (by
      rwa [← read_reading, outcome])
    rwa [← ahead_read, outcome] at fell
  fun_induction transfer block take wanted state source with
  | case1 state source =>
      simp only
      omega
  | case2 wanted state source wants next outcome =>
      rw [reads_of_read outcome]
      omega
  | case3 wanted state source wants byte rest next outcome ih =>
      have fell := less (allowance_pos wants) outcome (by simp)
      rw [reads_of_read outcome] at ih
      omega
  | case4 wanted state source wants next outcome ih =>
      have fell := less (allowance_pos wants) outcome (by simp)
      rw [reads_of_read outcome] at ih
      omega
  | case5 wanted state source wants error next outcome =>
      rw [reads_of_read outcome]
      omega

theorem reads_rewind (source : Source) : source.rewind.2.reads = source.reads := by
  unfold rewind
  split <;> rfl

/-- Hashing ends after no more reads than the next pass has bytes and events, and one to
find its end. -/
theorem reads_digest_le (source : Source) (block : Nat) :
    (source.digest block).2.reads ≤ source.reads + source.nextPass.weight + 1 := by
  have before := reads_rewind source
  unfold digest
  rcases first : source.rewind with ⟨_ | _, started⟩
  · rw [first] at before
    simp only at before ⊢
    omega
  · obtain ⟨_, rested⟩ := rested_of_rewind first
    have pass : started.ahead = source.nextPass := by
      rw [ahead_of_current_none rested.current_eq, nextPass, rested.passes_eq, nextPass]
    have during := reads_transfer_le block Sha256.Hasher.update none Sha256.Hasher.empty started
    rw [first] at before
    rw [pass, before] at during
    simp only at before ⊢
    by_cases large : bufferLimit < block
    · rw [if_pos large, before]
      omega
    rw [if_neg large]
    rcases moved : started.transfer block Sha256.Hasher.update none Sha256.Hasher.empty with
      ⟨hasher, _ | error, ended⟩
    · rw [moved] at during
      have after := reads_rewind ended
      simp only
      rcases second : ended.rewind with ⟨_ | _, final⟩
      · rw [second] at after
        exact after ▸ during
      · rw [second] at after
        exact after ▸ during
    · rw [moved] at during
      exact during

/-- Whatever the state of the source, the way its reads are cut and the block size, as long
as a buffer has room for a block, hashing gives the one-shot hash of what the source
delivers from its start, and leaves the source there.  A step that fails gives its fault, the
earliest one first, and in any case only so many reads are made. -/
theorem digest_hashes (source : Source) (block : Nat) :
    (∀ content, source.Hashes content →
      (block ≤ bufferLimit → ∃ after,
        source.digest block = (.ok (Checksum.ofBytes content, content.length), after) ∧
          (Checksum.ofBytes content).bytes = Sha256.blockwise content ∧
          after.position = 0 ∧ after.current = none ∧ after.seeks = source.seeks + 2) ∧
        (bufferLimit < block → (source.digest block).1 = .error .panic)) ∧
      (∀ fault, (source.digest block).1 = .error fault ↔
        (source.hashFaults block).findSome? id = some fault) ∧
      (source.digest block).2.reads ≤ source.reads + source.nextPass.weight + 1 := by
  have outcome := source.digest_outcome block
  refine ⟨?whole, ?failing, source.reads_digest_le block⟩
  case whole =>
    rintro content ⟨rewinds, healthy, rfl, rewindsAgain⟩
    constructor
    · intro small
      have faultless := (source.findSome?_hashFaults_eq_none_iff block).mpr
        ⟨small, rewinds, healthy, rfl, rewindsAgain⟩
      rw [faultless] at outcome
      rcases digested : source.digest block with ⟨result, after⟩
      rw [digested] at outcome
      simp only at outcome
      subst outcome
      obtain ⟨_, _, _, _, rested⟩ := digest_ok digested
      exact ⟨after, rfl, Checksum.bytes_ofBytes _, rested.position_eq, rested.current_eq,
        rested.seeks_eq⟩
    · intro large
      obtain ⟨_, panics, _⟩ := digest_of_large large rewinds
      rw [panics]
  case failing =>
    intro fault
    rw [outcome]
    cases (source.hashFaults block).findSome? id <;> simp

/-- A source that stands in the middle of a pass, and delivers its three bytes in two pieces
with an interruption between them. -/
def halfRead : Source :=
  { passes := [[.data [97], .interrupt, .data [98, 99]]]
    failingSeeks :=
      [(1, { kind := .other, text := "early" }), (5, { kind := .other, text := "late" })]
    current := some [.data [7]], seeks := 2, position := 4 }

theorem digest_hashes_halfRead :
    halfRead.Hashes [97, 98, 99] ∧ 0 ≤ bufferLimit ∧
      (halfRead.hashFaults 0).findSome? id = none ∧
      ∃ after, halfRead.digest 0 = (.ok (Checksum.ofBytes [97, 98, 99], 3), after) ∧
        after.position = 0 ∧ after.seeks = 4 ∧ after.reads ≤ 7 := by
  have hashes : halfRead.Hashes [97, 98, 99] := ⟨by decide, by decide, by decide, by decide⟩
  obtain ⟨whole, _, reads⟩ := digest_hashes halfRead 0
  obtain ⟨after, digested, _, position, _, seeks⟩ := (whole _ hashes).1 (Nat.zero_le _)
  rw [digested] at reads
  exact ⟨hashes, Nat.zero_le _, by decide, after, digested, position, seeks, reads⟩

/-- The largest block size has no buffer, so that three bytes are not hashed. -/
theorem digest_of_largest_block :
    (ofBytes [97, 98, 99]).Hashes [97, 98, 99] ∧
      ((ofBytes [97, 98, 99]).digest largestBlock).1 = .error .panic := by
  have hashes : (ofBytes [97, 98, 99]).Hashes [97, 98, 99] :=
    ⟨by decide, by decide, by decide, by decide⟩
  obtain ⟨_, panics, _⟩ := digest_of_large (by decide : bufferLimit < largestBlock) hashes.rewinds
  exact ⟨hashes, by rw [panics]⟩

end Source

end UpdateArtifact
