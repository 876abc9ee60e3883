import UpdateArtifact.Proofs.Failures
import UpdateArtifact.Proofs.Inputs

/-!
# Builds that agree

How the bytes of a source are cut into reads, the size of the blocks, where a source
stands and what earlier builds did to it leave no trace in an archive.  The same inputs
and the same contents give the same archive, as long as there is a buffer for a block.
-/

namespace UpdateArtifact

open Tar (Container)

/-- A source whose next two passes bring some content, the first as all there is and the
second before anything else, and whose rewinds until then are allowed. -/
structure Source.Repeats (source : Source) (content : Bytes) : Prop where
  rewinds : ∀ number, 0 < number → number ≤ 3 → source.refusal? number = none
  hashed : source.nextPass.delivered = content
  healthy : source.nextPass.failure? = none
  again : content <+: ((Source.laterPasses source.passes).headD []).delivered

namespace Payload

theorem readable_of_repeats {payload : Payload} {content : Bytes}
    (repeats : payload.source.Repeats content) :
    payload.Readable ∧ payload.content = content ∧ payload.copied = content := by
  obtain ⟨rewinds, hashed, healthy, again⟩ := repeats
  have same : payload.content = content := hashed
  refine ⟨⟨rewinds, healthy, ?_⟩, same, ?_⟩
  · rw [same]
    exact again.length_le
  · rw [copied, same]
    exact (List.prefix_iff_eq_take.mp again).symm

theorem repeats_of_delivers {payload : Payload} {content : Bytes}
    (delivers : payload.source.Delivers content) : payload.source.Repeats content := by
  obtain ⟨hashed, healthy⟩ := delivers.nextPass
  obtain ⟨second, _⟩ := copied_of_steady delivers.steady
  refine ⟨fun number positive _ => delivers.refusal?_eq_none positive, hashed, healthy, ?_⟩
  rw [← hashed]
  exact second ▸ List.prefix_rfl

section

variable [Deflate]

/-- Embedding a content gives the same from every source that brings it, and whatever the
size of the blocks. -/
theorem embed_of_repeats {left right : Payload} {content : Bytes}
    (repeated : left.source.Repeats content) (again : right.source.Repeats content)
    (entry : PayloadEntry) {options : BuildOptions} {block : Nat}
    (leftBlock : BuildOptions.BlockFits { options with readBlockSize := block })
    (rightBlock : options.BlockFits) (outer : Container) :
    ∃ outcome grown before after,
      left.embed entry { options with readBlockSize := block } outer =
          (outcome, grown, before) ∧
        right.embed entry options outer = (outcome, grown, after) := by
  obtain ⟨leftReadable, leftContent, leftCopied⟩ := readable_of_repeats repeated
  obtain ⟨rightReadable, rightContent, rightCopied⟩ := readable_of_repeats again
  obtain ⟨before, first⟩ :=
    embed_of_readable leftReadable entry leftBlock outer
  obtain ⟨after, second⟩ := embed_of_readable rightReadable entry rightBlock outer
  have written : encodeEmbedded entry { options with readBlockSize := block } outer.owner
      content = encodeEmbedded entry options outer.owner content := rfl
  rw [leftCopied, leftContent, written] at first
  rw [rightCopied, rightContent] at second
  cases encoded : encodeEmbedded entry options outer.owner content with
  | error fault =>
      rw [encoded] at first second
      exact ⟨_, _, before, after, first, second⟩
  | ok bytes =>
      rw [encoded] at first second
      exact ⟨_, _, before, after, first, second⟩

theorem position_of_embed {payload after : Payload} {entry : PayloadEntry}
    {options : BuildOptions} {outer grown : Container} {checksum : Checksum}
    (embedded : payload.embed entry options outer = (.ok checksum, grown, after)) :
    after.source.position = 0 := by
  unfold embed at embedded
  split at embedded
  · simp at embedded
  · split at embedded
    · simp at embedded
    · split at embedded
      · simp at embedded
      · next rewound =>
          split at embedded
          · simp at embedded
          · simp only [Prod.mk.injEq, Except.ok.injEq] at embedded
            obtain ⟨_, _, rfl⟩ := embedded
            exact (Source.rested_of_rewind rewound).2.position_eq

end

end Payload

namespace Artifact

/-- Payloads at the same places whose sources bring the same contents. -/
def SameContents (left right : List StagedPayload) : Prop :=
  List.Forall₂
    (fun first second =>
      ∃ content, first.payload.source.Repeats content ∧ second.payload.source.Repeats content)
    left right

section

variable [Deflate]

theorem embedAll_of_repeats {left right : List StagedPayload}
    (contents : SameContents left right)
    (entries : List.Forall₂ (fun first second => first.entry = second.entry) left right)
    {options : BuildOptions} {block : Nat}
    (leftBlock : BuildOptions.BlockFits { options with readBlockSize := block })
    (rightBlock : options.BlockFits) (outer : Container) (manifest : Manifest.Pending) :
    (embedAll { options with readBlockSize := block } outer manifest left).1 =
      (embedAll options outer manifest right).1 := by
  induction contents generalizing outer manifest with
  | nil => rfl
  | @cons former latter _ _ head _ ih =>
      obtain ⟨content, repeated, again⟩ := head
      obtain ⟨entry, later⟩ := List.forall₂_cons.mp entries
      obtain ⟨outcome, grown, before, after, first, second⟩ :=
        Payload.embed_of_repeats repeated again latter.entry leftBlock rightBlock outer
      -- Both sides go on with the same container and checksum; only the sources differ.
      simp only [embedAll, entry, first, second]
      cases outcome with
      | error error => rfl
      | ok checksum =>
          simp only
          rcases manifest.record latter.entry.entryName checksum with ⟨_ | _, recorded⟩
          · rfl
          · exact ih later grown recorded

theorem build_of_repeats {left right : Artifact} (same : left.SameInputs right)
    (leftAddressed : left.Addressed) (rightAddressed : right.Addressed)
    (leftBlock : left.options.BlockFits) (rightBlock : right.options.BlockFits)
    (contents : SameContents left.payloads right.payloads) :
    left.build.1 = right.build.1 := by
  have opened := same.opening_eq leftAddressed rightAddressed leftBlock rightBlock
  have entries := same.entries_eq leftAddressed rightAddressed
  obtain ⟨block, options⟩ := same.options_eq
  rw [options] at leftBlock
  simp only [build, same.validate_eq, opened, options]
  cases right.validate with
  | error refusal => rfl
  | ok done =>
      cases right.opening with
      | error error => rfl
      | ok start =>
          obtain ⟨outer, manifest⟩ := start
          have embedded :=
            embedAll_of_repeats contents entries leftBlock rightBlock outer manifest
          rcases first : embedAll { right.options with readBlockSize := block } outer manifest
            left.payloads with ⟨outcome, before⟩
          rcases second : embedAll right.options outer manifest right.payloads with
            ⟨other, after⟩
          rw [first, second] at embedded
          cases embedded
          simp only [first, second]
          cases outcome with
          | error error => rfl
          | ok result => rfl

/-- A block that fits on one side only makes the difference between an outcome and a panic. -/
theorem build_eq_iff_of_repeats {left right : Artifact} (same : left.SameInputs right)
    (leftAddressed : left.Addressed) (rightAddressed : right.Addressed)
    (contents : SameContents left.payloads right.payloads) :
    left.build.1 = right.build.1 ↔
      ((left.options.BlockFits ↔ right.options.BlockFits) ∨ left.validate ≠ .ok ()) := by
  have panics := (panic_of_build_iff leftAddressed).trans (by rw [same.validate_eq])
  have alsoPanics := panic_of_build_iff rightAddressed
  cases valid : right.validate with
  | error refusal =>
      have invalid := same.validate_eq.trans valid
      simp [build_of_refusal invalid, build_of_refusal valid, invalid]
  | ok done =>
      rw [valid] at panics alsoPanics
      simp only [true_and] at panics alsoPanics
      simp only [same.validate_eq, valid, ne_eq, not_true_eq_false, or_false]
      constructor
      · intro equal
        rw [← not_iff_not, ← panics, ← alsoPanics, equal]
      · intro agree
        by_cases block : right.options.BlockFits
        · exact build_of_repeats same leftAddressed rightAddressed (agree.mpr block) block contents
        · rw [panics.mpr fun fits => block (agree.mp fits), alsoPanics.mpr block]

theorem position_of_embedAll {options : BuildOptions} {outer : Container}
    {manifest : Manifest.Pending} {payloads after : List StagedPayload}
    {result : Container × Manifest.Pending}
    (embedded : embedAll options outer manifest payloads = (.ok result, after)) :
    ∀ staged ∈ after, staged.payload.source.position = 0 := by
  induction payloads generalizing outer manifest after with
  | nil =>
      cases embedded
      simp
  | cons staged rest ih =>
      rcases first : staged.payload.embed staged.entry options outer with
        ⟨_ | checksum, grown, payload⟩
      · simp [embedAll, first] at embedded
      · rcases recorded : manifest.record staged.entry.entryName checksum with
          ⟨_ | _, pending⟩
        · simp [embedAll, first, recorded] at embedded
        · rcases later : embedAll options grown pending rest with ⟨outcome, others⟩
          simp only [embedAll, first, recorded, later, Prod.mk.injEq] at embedded
          obtain ⟨rfl, rfl⟩ := embedded
          intro other member
          rcases List.mem_cons.mp member with rfl | inRest
          · exact Payload.position_of_embed first
          · exact ih later other inRest

/-- What a build leaves of an artifact: only sources changed, and these are back at their
starts. -/
def Settled (before after : Artifact) : Prop :=
  Keeps before after ∧ ∀ staged ∈ after.payloads, staged.payload.source.position = 0

theorem settled_of_build {artifact : Artifact} {archive : Bytes}
    (built : artifact.build.1 = .ok archive) : Settled artifact artifact.build.2 := by
  refine ⟨artifact.keeps_build, ?_⟩
  unfold build at built ⊢
  split at built
  · contradiction
  · split at built
    · contradiction
    · split at built
      · contradiction
      · next embedded =>
          simpa only [embedded] using position_of_embedAll embedded

/-- Two artifacts made of the same, and whose sources bring the same contents, are built
with the same outcome, unless a buffer holds a block of one of them only and the input is
valid.  Neither earlier builds nor the way in which the sources are read make a difference. -/
theorem build_reproducible {left right : Artifact} (leftReachable : left.Reachable)
    (rightReachable : right.Reachable) (same : left.SameInputs right) (earlier later : Nat)
    (contents : SameContents (left.afterBuilds earlier).payloads
      (right.afterBuilds later).payloads) :
    ((left.afterBuilds earlier).build.1 = (right.afterBuilds later).build.1 ↔
        ((left.options.BlockFits ↔ right.options.BlockFits) ∨ left.validate ≠ .ok ())) ∧
      (∀ archive, (left.afterBuilds earlier).build.1 = .ok archive →
        Settled left (left.afterBuilds earlier).build.2) ∧
      (∀ archive, (right.afterBuilds later).build.1 = .ok archive →
        Settled right (right.afterBuilds later).build.2) := by
  have leftKept := left.keeps_afterBuilds earlier
  have rightKept := right.keeps_afterBuilds later
  have outcome := build_eq_iff_of_repeats (same.of_keeps leftKept rightKept)
    (leftReachable.performAll _).addressed (rightReachable.performAll _).addressed contents
  rw [leftKept.validate_eq, leftKept.options_eq, rightKept.options_eq] at outcome
  refine ⟨outcome, ?_, ?_⟩
  · intro archive built
    have settled := settled_of_build built
    exact ⟨leftKept.trans settled.1, settled.2⟩
  · intro archive built
    have settled := settled_of_build built
    exact ⟨rightKept.trans settled.1, settled.2⟩

end

/-- A source that fails the first time and then delivers its content. -/
def recovering : Source :=
  { passes :=
      [[.data [1], .fail { kind := .other, text := "gone" } IoKind.other_ne_interrupted],
        [.data [1, 2], .data [3]]] }

/-- An artifact with such a source, read byte by byte. -/
def retried : Artifact :=
  (single recovering single.valid_image).withOptions { readBlockSize := 0 }

theorem build_reproducible_retried :
    retried.build.1 = .error (.source { kind := .other, text := "gone" }) ∧
      ∃ archive, (single single.pieced single.valid_image).build.1 = .ok archive ∧
        (retried.afterBuilds 1).build.1 = .ok archive ∧
        Settled retried (retried.afterBuilds 1).build.2 := by
  have leftReachable := single.reachable single.pieced single.valid_image
  have reachable : retried.Reachable :=
    (single.reachable recovering single.valid_image).performAll [.options { readBlockSize := 0 }]
  have same : (single single.pieced single.valid_image).SameInputs retried :=
    ⟨rfl, rfl, rfl, rfl, rfl, rfl, rfl, _, rfl⟩
  have valid := same.validate_eq ▸ single.accepted single.pieced single.valid_image
  obtain ⟨_, assembled, _⟩ := single.assembled single.pieced single.valid_image
  obtain ⟨_, opened⟩ := opening_of_assemble leftReachable.addressed (by decide) assembled
  rw [same.opening_eq leftReachable.addressed reachable.addressed (by decide) (by decide)]
    at opened
  obtain ⟨source, failed, passes, _, failing⟩ := build_of_failing valid opened rfl
    (by decide : recovering.refusal? 1 = none) rfl
  obtain ⟨archive, built, _⟩ := single.builds single.pieced single.valid_image
    (single.read_pieced "image").1 (by decide) (by decide) (by decide)
  have repeats : source.Repeats [1, 2, 3] := by
    constructor
    · intro number _ _
      rw [Source.refusal?, failing]
      rfl
    · rw [Source.nextPass, passes]
      rfl
    · rw [Source.nextPass, passes]
      rfl
    · rw [passes]
      exact List.prefix_rfl
  have contents : SameContents
      ((single single.pieced single.valid_image).afterBuilds 0).payloads
      (retried.afterBuilds 1).payloads := by
    rw [afterBuilds_zero, afterBuilds_succ, afterBuilds_zero, failed]
    exact .cons ⟨_, Payload.repeats_of_delivers single.delivers_pieced, repeats⟩ .nil
  obtain ⟨agree, _, settled⟩ :=
    build_reproducible leftReachable reachable same 0 1 contents
  have outcome := agree.mpr (.inl (by decide))
  have again := outcome ▸ built
  exact ⟨congrArg Prod.fst failed, archive, built, again, settled archive again⟩

/-- An artifact whose blocks are as large as 64 bits can say. -/
def oversized : Artifact :=
  (single single.pieced single.valid_image).withOptions { readBlockSize := Source.largestBlock }

/-- The largest block size makes a build panic that otherwise succeeds. -/
theorem build_of_largest_block :
    (single single.pieced single.valid_image).Reachable ∧ oversized.Reachable ∧
      (single single.pieced single.valid_image).SameInputs oversized ∧
      SameContents (single single.pieced single.valid_image).payloads oversized.payloads ∧
      (∃ archive, (single single.pieced single.valid_image).build.1 = .ok archive) ∧
      oversized.build.1 = .error .panic := by
  have reachable := single.reachable single.pieced single.valid_image
  have oversizedReachable : oversized.Reachable :=
    reachable.performAll [.options { readBlockSize := Source.largestBlock }]
  obtain ⟨archive, built, _⟩ := single.builds single.pieced single.valid_image
    (single.read_pieced "image").1 (by decide) (by decide) (by decide)
  have repeats : ({ source := single.pieced, name := some "image" } : Payload).source.Repeats
      [1, 2, 3] := Payload.repeats_of_delivers single.delivers_pieced
  have valid : oversized.validate = .ok () :=
    single.accepted_of_owner single.pieced single.valid_image rfl
  refine ⟨reachable, oversizedReachable, ⟨rfl, rfl, rfl, rfl, rfl, rfl, rfl, 1048576, rfl⟩,
    .cons ⟨_, repeats, repeats⟩ .nil, ⟨archive, built⟩, ?_⟩
  rw [build_of_large valid (by decide)]

end Artifact

end UpdateArtifact
