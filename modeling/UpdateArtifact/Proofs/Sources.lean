import UpdateArtifact.Source.Delivery
import UpdateArtifact.Source.Digest

/-!
# Sources between two rewinds

Reading uses up at most one pass and leaves the rewinds alone.  After a rewind
the next pass begins from its start, so that the checksum of a source is that of
its next pass, and whatever follows reads the pass after it.
-/

namespace UpdateArtifact

namespace Source

/-- The events between the next rewind and the one after it. -/
def nextPass (source : Source) : Pass :=
  source.passes.headD []

/-- Every pass delivers the same bytes. -/
def Steady (source : Source) : Prop :=
  ∀ pass ∈ source.passes, pass.delivered = source.nextPass.delivered

theorem Delivers.nextPass {source : Source} {content : Bytes}
    (delivers : source.Delivers content) :
    source.nextPass.delivered = content ∧ source.nextPass.failure? = none := by
  obtain ⟨same, nothing, _⟩ := delivers
  rw [Source.nextPass]
  cases passes : source.passes with
  | nil => exact ⟨(nothing passes).symm, rfl⟩
  | cons first rest => exact same first (by simp [passes])

theorem Delivers.steady {source : Source} {content : Bytes}
    (delivers : source.Delivers content) : source.Steady := by
  intro pass member
  rw [delivers.nextPass.1, (delivers.1 pass member).1]

/-- A source back at its start, some rewinds later. -/
structure Rested (before after : Source) (rewinds : Nat) (passes : List Pass) : Prop where
  passes_eq : after.passes = passes
  current_eq : after.current = none
  seeks_eq : after.seeks = before.seeks + rewinds
  failingSeeks_eq : after.failingSeeks = before.failingSeeks
  position_eq : after.position = 0

theorem ahead_of_current_none {source : Source} (rested : source.current = none) :
    source.ahead = source.nextPass := by
  simp [ahead, rested, nextPass]

theorem enter_of_current_some {source : Source} {pass : Pass}
    (under : source.current = some pass) : source.enter = source := by
  simp [enter, under]

theorem passes_enter_of_current_none {source : Source} (rested : source.current = none) :
    source.enter.passes = laterPasses source.passes := by
  simp [enter, rested]

/-- What a read leaves alone. -/
structure Kept (before after : Source) : Prop where
  seeks_eq : after.seeks = before.seeks
  failingSeeks_eq : after.failingSeeks = before.failingSeeks
  passes_eq : after.enter.passes = before.enter.passes

theorem Kept.refl (source : Source) : Kept source source :=
  ⟨rfl, rfl, rfl⟩

theorem Kept.trans {first second third : Source} (earlier : Kept first second)
    (later : Kept second third) : Kept first third :=
  ⟨later.seeks_eq.trans earlier.seeks_eq,
    later.failingSeeks_eq.trans earlier.failingSeeks_eq,
    later.passes_eq.trans earlier.passes_eq⟩

theorem kept_enter (source : Source) : Kept source source.enter := by
  cases under : source.current with
  | some pass =>
      rw [enter_of_current_some under]
      exact .refl source
  | none =>
      have entered : source.enter.current = some source.ahead := by
        simp [enter, under]
      refine ⟨?_, ?_, ?_⟩
      · simp [enter, under]
      · simp [enter, under]
      · rw [enter_of_current_some entered]

theorem kept_read (limit : Nat) (source : Source) : Kept source (source.read limit).2 := by
  have entered := kept_enter source
  have under : (source.read limit).2.current = some (source.ahead.read limit).2 := rfl
  refine ⟨entered.seeks_eq, entered.failingSeeks_eq, ?_⟩
  rw [enter_of_current_some under]
  rfl

theorem kept_of_read {limit : Nat} {source next : Source} {reading : Reading}
    (outcome : source.read limit = (reading, next)) :
    Kept source next ∧ next.current.isSome := by
  have kept := kept_read limit source
  have begun : (source.read limit).2.current.isSome := rfl
  rw [outcome] at kept begun
  exact ⟨kept, begun⟩

theorem kept_transfer {σ : Type} (block : Nat) (take : σ → Bytes → σ) (wanted : Option Nat)
    (state : σ) (source : Source) : Kept source (source.transfer block take wanted state).2.2 := by
  fun_induction transfer block take wanted state source with
  | case1 state source => exact .refl source
  | case2 wanted state source wants next outcome => exact (kept_of_read outcome).1
  | case3 wanted state source wants byte rest next outcome ih =>
      exact (kept_of_read outcome).1.trans ih
  | case4 wanted state source wants next outcome ih =>
      exact (kept_of_read outcome).1.trans ih
  | case5 wanted state source wants error next outcome => exact (kept_of_read outcome).1

theorem begun_transfer {σ : Type} (block : Nat) (take : σ → Bytes → σ) (wanted : Option Nat)
    (state : σ) (source : Source)
    (begins : source.current.isSome ∨ wanted ≠ some 0) :
    (source.transfer block take wanted state).2.2.current.isSome := by
  fun_induction transfer block take wanted state source with
  | case1 state source =>
      rcases begins with under | wants
      · exact under
      · exact (wants rfl).elim
  | case2 wanted state source wants next outcome => exact (kept_of_read outcome).2
  | case3 wanted state source wants byte rest next outcome ih =>
      exact ih (.inl (kept_of_read outcome).2)
  | case4 wanted state source wants next outcome ih =>
      exact ih (.inl (kept_of_read outcome).2)
  | case5 wanted state source wants error next outcome => exact (kept_of_read outcome).2

theorem passes_transfer {σ : Type} (block : Nat) (take : σ → Bytes → σ) (wanted : Option Nat)
    (state : σ) (source : Source) (wants : wanted ≠ some 0) :
    (source.transfer block take wanted state).2.2.passes = source.enter.passes := by
  have kept := kept_transfer block take wanted state source
  obtain ⟨pass, under⟩ := Option.isSome_iff_exists.mp
    (begun_transfer block take wanted state source (.inr wants))
  rw [← kept.passes_eq, enter_of_current_some under]

/-- The rewinds to come are the same ones after some of them were made. -/
theorem refusal?_of_later {before after : Source} {made : Nat}
    (seeks : after.seeks = before.seeks + made)
    (failingSeeks : after.failingSeeks = before.failingSeeks) (number : Nat) :
    after.refusal? number = before.refusal? (made + number) := by
  rw [refusal?, refusal?, failingSeeks, seeks, Nat.add_assoc]

theorem refusal?_eq_none {source : Source} {number : Nat}
    (allowed : ∀ refused ∈ source.failingSeeks, refused.1 ≠ source.seeks + number) :
    source.refusal? number = none := by
  rw [refusal?, List.lookup_eq_none_iff]
  intro refused member
  simpa using Ne.symm (allowed refused member)

theorem Delivers.refusal?_eq_none {source : Source} {content : Bytes}
    (delivers : source.Delivers content) {number : Nat} (positive : 0 < number) :
    source.refusal? number = none := by
  apply Source.refusal?_eq_none
  intro refused member
  have past := delivers.2.2 refused member
  omega

theorem rested_of_rewind {source after : Source} (rewound : source.rewind = (.ok (), after)) :
    source.refusal? 1 = none ∧ Rested source after 1 source.passes := by
  unfold rewind at rewound
  split at rewound
  · simp at rewound
  · next allowed =>
      simp only [Prod.mk.injEq, true_and] at rewound
      subst rewound
      exact ⟨allowed, ⟨rfl, rfl, rfl, rfl, rfl⟩⟩

theorem rewind_of_allowed {source : Source} (allowed : source.refusal? 1 = none) :
    ∃ after, source.rewind = (.ok (), after) ∧ Rested source after 1 source.passes := by
  refine ⟨{ source with seeks := source.seeks + 1, current := none, position := 0 }, ?_,
    ⟨rfl, rfl, rfl, rfl, rfl⟩⟩
  simp only [rewind, allowed]

theorem rewind_of_refused {source : Source} {error : IoError}
    (refused : source.refusal? 1 = some error) :
    source.rewind = (.error error, { source with seeks := source.seeks + 1 }) := by
  simp only [rewind, refused]

/-- Hashing is one update with all that the next pass delivers. -/
theorem transfer_hash (block : Nat) (source : Source) :
    (source.transfer block Sha256.Hasher.update none Sha256.Hasher.empty).1 =
        Sha256.Hasher.empty.update source.ahead.delivered ∧
      (source.transfer block Sha256.Hasher.update none Sha256.Hasher.empty).2.1 =
        source.ahead.failure? :=
  transfer_eq block Sha256.Hasher.update none Sha256.Hasher.empty source
    Sha256.Hasher.update_nil
    fun hasher first second => (Sha256.Hasher.update_append hasher first second).symm

private theorem hash_of_rested (block : Nat) {source started : Source}
    (rested : Rested source started 1 source.passes) :
    ∃ ended, started.transfer block Sha256.Hasher.update none Sha256.Hasher.empty =
        (Sha256.Hasher.empty.update source.nextPass.delivered, source.nextPass.failure?, ended) ∧
      ended.passes = laterPasses source.passes ∧ ended.seeks = source.seeks + 1 ∧
      ended.failingSeeks = source.failingSeeks := by
  have ahead : started.ahead = source.nextPass := by
    rw [ahead_of_current_none rested.current_eq, nextPass, rested.passes_eq, nextPass]
  obtain ⟨hashed, met⟩ := transfer_hash block started
  have kept := kept_transfer block Sha256.Hasher.update none Sha256.Hasher.empty started
  have used := passes_transfer block Sha256.Hasher.update none Sha256.Hasher.empty started
    (by simp)
  rw [passes_enter_of_current_none rested.current_eq, rested.passes_eq] at used
  rw [ahead] at hashed met
  refine ⟨_, Prod.ext hashed (Prod.ext met rfl), used, ?_, ?_⟩
  · rw [kept.seeks_eq, rested.seeks_eq]
  · rw [kept.failingSeeks_eq, rested.failingSeeks_eq]

/-- A checksum that is given is that of the next pass, which had no failure. -/
theorem digest_ok {block : Nat} {source after : Source} {checksum : Checksum} {length : Nat}
    (digested : source.digest block = (.ok (checksum, length), after)) :
    block ≤ bufferLimit ∧ source.nextPass.failure? = none ∧
      checksum = Checksum.ofBytes source.nextPass.delivered ∧
      length = source.nextPass.delivered.length ∧
      Rested source after 2 (laterPasses source.passes) := by
  unfold digest at digested
  rcases first : source.rewind with ⟨_ | _, started⟩
  · simp [first] at digested
  · obtain ⟨_, rested⟩ := rested_of_rewind first
    obtain ⟨ended, moved, used, seeks, failingSeeks⟩ := hash_of_rested block rested
    rw [first] at digested
    by_cases large : bufferLimit < block
    · simp [large] at digested
    simp only [large, if_false, moved] at digested
    cases healthy : source.nextPass.failure? with
    | some error => simp [healthy] at digested
    | none =>
        simp only [healthy] at digested
        rcases second : ended.rewind with ⟨_ | _, final⟩
        · simp [second] at digested
        · obtain ⟨_, finished⟩ := rested_of_rewind second
          simp only [second, Prod.mk.injEq, Except.ok.injEq] at digested
          obtain ⟨⟨rfl, rfl⟩, rfl⟩ := digested
          refine ⟨Nat.not_lt.mp large, rfl, rfl, ?_, ?_⟩
          · rw [Sha256.Hasher.count_update]
            simp [Sha256.Hasher.empty]
          · constructor
            · rw [finished.passes_eq, used]
            · exact finished.current_eq
            · rw [finished.seeks_eq, seeks]
            · rw [finished.failingSeeks_eq, failingSeeks]
            · exact finished.position_eq

/-- A checksum is given whenever there is a buffer, the next pass has no failure and both
rewinds are allowed. -/
theorem digest_of_healthy {block : Nat} {source : Source} (small : block ≤ bufferLimit)
    (first : source.refusal? 1 = none) (healthy : source.nextPass.failure? = none)
    (second : source.refusal? 2 = none) :
    ∃ result after, source.digest block = (.ok result, after) := by
  obtain ⟨started, rewound, rested⟩ := rewind_of_allowed first
  obtain ⟨ended, moved, _, seeks, failingSeeks⟩ := hash_of_rested block rested
  have allowed : ended.refusal? 1 = none :=
    (refusal?_of_later seeks failingSeeks 1).trans second
  obtain ⟨final, again, _⟩ := rewind_of_allowed allowed
  let hasher := Sha256.Hasher.empty.update source.nextPass.delivered
  refine ⟨(Checksum.ofHasher hasher, hasher.count), final, ?_⟩
  unfold digest
  rw [rewound]
  simp only [Nat.not_lt.mpr small, if_false, moved, healthy, again, hasher]

/-- No checksum is given if the next pass has a failure, and that pass is used up. -/
theorem digest_of_failing {block : Nat} {source : Source} {error : IoError}
    (small : block ≤ bufferLimit) (first : source.refusal? 1 = none)
    (failing : source.nextPass.failure? = some error) :
    ∃ after, source.digest block = (.error (.source error), after) ∧
      after.passes = laterPasses source.passes ∧ after.seeks = source.seeks + 1 ∧
      after.failingSeeks = source.failingSeeks := by
  obtain ⟨started, rewound, rested⟩ := rewind_of_allowed first
  obtain ⟨ended, moved, kept⟩ := hash_of_rested block rested
  refine ⟨ended, ?_, kept⟩
  unfold digest
  rw [rewound]
  simp only [Nat.not_lt.mpr small, if_false, moved, failing]

theorem digest_of_refused_first (block : Nat) {source : Source} {error : IoError}
    (refused : source.refusal? 1 = some error) :
    (source.digest block).1 = .error (.source error) := by
  simp only [digest, rewind_of_refused refused]

theorem digest_of_refused_second {block : Nat} {source : Source} {error : IoError}
    (small : block ≤ bufferLimit) (first : source.refusal? 1 = none)
    (healthy : source.nextPass.failure? = none) (refused : source.refusal? 2 = some error) :
    (source.digest block).1 = .error (.source error) := by
  obtain ⟨started, rewound, rested⟩ := rewind_of_allowed first
  obtain ⟨ended, moved, _, seeks, failingSeeks⟩ := hash_of_rested block rested
  have stopped := rewind_of_refused ((refusal?_of_later seeks failingSeeks 1).trans refused)
  simp only [digest, rewound, Nat.not_lt.mpr small, if_false, moved, healthy, stopped]

/-- The largest block size of 64 bits. -/
def largestBlock : Nat := 0xffffffffffffffff

/-- A block beyond the limit is not hashed: the source is rewound and not read. -/
theorem digest_of_large {block : Nat} {source : Source} (large : bufferLimit < block)
    (first : source.refusal? 1 = none) :
    ∃ after, source.digest block = (.error .panic, after) ∧
      Rested source after 1 source.passes := by
  obtain ⟨started, rewound, rested⟩ := rewind_of_allowed first
  exact ⟨started, by simp only [digest, rewound, large, if_true], rested⟩

/-- With a buffer for a block, hashing fails only by the source. -/
theorem source_of_digest_error {block : Nat} (small : block ≤ bufferLimit)
    {source after : Source} {fault : DigestFault}
    (failed : source.digest block = (.error fault, after)) : ∃ error, fault = .source error := by
  simp only [digest, Nat.not_lt.mpr small, if_false] at failed
  split at failed
  · cases failed
    exact ⟨_, rfl⟩
  · split at failed
    · cases failed
      exact ⟨_, rfl⟩
    · split at failed
      · cases failed
        exact ⟨_, rfl⟩
      · cases failed

theorem digestBytes_of_le {block : Nat} (small : block ≤ bufferLimit) (content : Bytes) :
    digestBytes block content = .ok (Checksum.ofBytes content) := by
  have delivered : (ofBytes content).nextPass.delivered = content := by
    simp [nextPass, ofBytes, Pass.delivered]
  have allowed (number : Nat) : (ofBytes content).refusal? number = none := rfl
  obtain ⟨⟨checksum, length⟩, _, digested⟩ :=
    digest_of_healthy small (allowed 1) rfl (allowed 2)
  obtain ⟨_, _, rfl, _⟩ := digest_ok digested
  rw [digestBytes, digested, delivered]
  rfl

theorem digestBytes_of_large {block : Nat} (large : bufferLimit < block) (content : Bytes) :
    digestBytes block content = .error .panic := by
  have allowed : (ofBytes content).refusal? 1 = none := rfl
  obtain ⟨_, panics, _⟩ := digest_of_large large allowed
  rw [digestBytes, panics]
  rfl

end Source

end UpdateArtifact
