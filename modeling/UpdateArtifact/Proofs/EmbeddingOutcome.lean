import UpdateArtifact.Proofs.Hashing
import UpdateArtifact.Proofs.Outcomes

/-!
# How an embedding ends

Embedding a payload takes five steps that a source can spoil: three rewinds, and two passes
over the content between them; and behind the first rewind it takes a buffer.  The first step
that fails decides the outcome, and nothing reaches the outer container before all are done.
So it holds one whole entry more, or it is what it was.
-/

namespace UpdateArtifact

open Tar (Container)

namespace Payload

/-- What goes wrong when as many bytes as were hashed are copied from the next pass. -/
def copyFault? (payload : Payload) (entry : PayloadEntry) : Option Tar.WriteFault :=
  let wanted := payload.content.length
  let delivered := payload.secondPass.delivered.length
  if wanted ≤ delivered then none
  else some (payload.secondPass.failure?.elim (.short entry.basename wanted delivered) .source)

/-- What the steps of an embedding meet, in their order: those of hashing, the copying and the
last rewind. -/
def faults (payload : Payload) (entry : PayloadEntry) (options : BuildOptions) :
    List (Option ArtifactError) :=
  (payload.source.hashFaults options.readBlockSize).map (·.map .ofDigest) ++
    [(payload.copyFault? entry).map .write, (payload.source.refusal? 3).map .source]

end Payload

/-- Both owners and the file name are accepted where embedding stores them. -/
structure PayloadEntry.Fits (entry : PayloadEntry) (options : BuildOptions) (outer : Container) :
    Prop where
  owner : Container.ownerFault? options.ownerName = none
  outerOwner : Container.ownerFault? outer.owner = none
  basename : ∃ placement, Tar.Path.place entry.basename = .ok placement

namespace Tar.Container

/-- A container with one entry more, which a reader finds to be that file and no other. -/
def Appended (outer grown : Container) (name : String) (data : Bytes) : Prop :=
  ∃ bytes, encodeFile outer.owner name data = .ok bytes ∧ grown = outer.extend bytes ∧
    (bytes.length < Numeral.wordLimit →
      unpack? (bytes ++ Bytes.zeros (2 * blockSize)) = some [(Bytes.utf8 name, data)])

theorem appended_of_encodeFile {outer : Container} {name : String} {data bytes : Bytes}
    (plain : Path.Plain name) (encoded : encodeFile outer.owner name data = .ok bytes) :
    outer.Appended (outer.extend bytes) name data := by
  refine ⟨bytes, encoded, rfl, ?_⟩
  have all : encodeAll outer.owner [(name, data)] = .ok bytes := by
    simp [encodeAll, encoded, Except.map]
  have onlyPlain : ∀ file ∈ [(name, data)], Path.Plain file.1 := by
    simpa using plain
  exact unpack?_of_encodeAll onlyPlain all

end Tar.Container

section

variable [Deflate]

namespace Payload

theorem embed_error {payload after : Payload} {entry : PayloadEntry} {options : BuildOptions}
    {outer grown : Container} {error : ArtifactError}
    (embedded : payload.embed entry options outer = (.error error, grown, after)) :
    grown = outer := by
  unfold embed at embedded
  split at embedded
  · cases embedded
    rfl
  · split at embedded
    · cases embedded
      rfl
    · split at embedded
      · cases embedded
        rfl
      · rw [Container.writeBytes_eq] at embedded
        split at embedded
        · next written =>
            split at written
            · cases written
              cases embedded
              rfl
            · cases written
        · cases embedded

theorem rested_of_embed {payload after : Payload} {entry : PayloadEntry}
    {options : BuildOptions} {outer grown : Container} {checksum : Checksum}
    (embedded : payload.embed entry options outer = (.ok checksum, grown, after)) :
    after.source.seeks = payload.source.seeks + 3 ∧ after.source.position = 0 := by
  have enough : payload.content.length ≤ payload.secondPass.delivered.length := by
    obtain ⟨_, whole, _⟩ := embed_ok embedded
    rw [copied, List.length_take] at whole
    omega
  rcases digested : payload.source.digest options.readBlockSize with ⟨outcome, started⟩
  cases outcome with
  | error fault => simp [embed, digested] at embedded
  | ok result =>
      obtain ⟨sum, length⟩ := result
      obtain ⟨_, _, _, _, hashed⟩ := Source.digest_ok digested
      have read := Source.kept_transfer Container.copyBlock (· ++ ·) (some length) ([] : Bytes)
        started
      rw [embed_of_digest digested enough] at embedded
      cases pack : Container.packed options entry.basename payload.copied with
      | error fault => simp [pack] at embedded
      | ok archive =>
          simp only [pack] at embedded
          split at embedded
          · simp at embedded
          · next final rewound =>
              obtain ⟨_, rested⟩ := Source.rested_of_rewind rewound
              have source : after.source = final := by
                split at embedded <;> cases embedded
                rfl
              rw [source, rested.seeks_eq, read.seeks_eq, hashed.seeks_eq]
              exact ⟨rfl, rested.position_eq⟩

omit [Deflate] in
/-- The first fault is one of hashing, or else one of copying or of the last rewind. -/
theorem findSome?_faults (payload : Payload) (entry : PayloadEntry) (options : BuildOptions) :
    (payload.faults entry options).findSome? id =
      (((payload.source.hashFaults options.readBlockSize).findSome? id).map .ofDigest).or
        (((payload.copyFault? entry).map .write).or ((payload.source.refusal? 3).map .source)) := by
  have mapped (faults : List (Option DigestFault)) :
      (faults.map (·.map ArtifactError.ofDigest)).findSome? id =
        (faults.findSome? id).map .ofDigest := by
    induction faults with
    | nil => rfl
    | cons fault rest ih => cases fault <;> simp [ih]
  rw [faults, List.findSome?_append, mapped]
  cases payload.copyFault? entry <;> cases payload.source.refusal? 3 <;> rfl

/-- Once the content is hashed, a second pass that is too short spoils the copying. -/
theorem embed_of_short {payload : Payload} {entry : PayloadEntry} {options : BuildOptions}
    {outer : Container} {checksum : Checksum} {started : Source}
    (fits : entry.Fits options outer)
    (digested : payload.source.digest options.readBlockSize =
      (.ok (checksum, payload.content.length), started))
    {fault : Tar.WriteFault} (spoiled : payload.copyFault? entry = some fault) :
    (payload.embed entry options outer).1 = .error (.write fault) := by
  obtain ⟨placement, placed⟩ := fits.basename
  obtain ⟨ahead, _⟩ := ahead_of_digest digested
  have short : started.ahead.delivered.length < payload.content.length := by
    rw [ahead]
    by_contra enough
    rw [copyFault?, if_pos (Nat.not_lt.mp enough)] at spoiled
    cases spoiled
  have accepted : Container.accept (Container.start options).owner entry.basename
      payload.content.length = .ok (Container.preamble options.ownerName placement
        payload.content.length) := by
    simp [Container.accept, fits.owner, placed]
  have refused := Container.writeEntry_of_lt accepted short
  rw [ahead] at short refused
  rw [copyFault?, if_neg (Nat.not_le.mpr short), Option.some.injEq] at spoiled
  rcases written : (Container.start options).writeEntry entry.basename started
    payload.content.length with ⟨outcome, inner, source⟩
  rw [written, spoiled] at refused
  simp only at refused
  subst refused
  simp [embed, digested, written]

/-- Once the content is hashed and the second pass is long enough, nothing is left to fail
but the last rewind. -/
theorem embed_of_enough {payload : Payload} {entry : PayloadEntry} {options : BuildOptions}
    {outer : Container} {checksum : Checksum} {started : Source}
    (fits : entry.Fits options outer)
    (digested : payload.source.digest options.readBlockSize =
      (.ok (checksum, payload.content.length), started))
    (enough : payload.content.length ≤ payload.secondPass.delivered.length) :
    (payload.embed entry options outer).1 =
      match payload.source.refusal? 3 with
      | some error => .error (.source error)
      | none => .ok checksum := by
  obtain ⟨placement, placed⟩ := fits.basename
  obtain ⟨_, _, _, _, hashed⟩ := Source.digest_ok digested
  have third := refusal?_of_copied hashed (some payload.content.length) 1
  obtain ⟨archive, pack⟩ : ∃ archive,
      Container.packed options entry.basename payload.copied = .ok archive := by
    rw [Container.packed, Container.encodeFile_of_placed fits.owner placed]
    exact ⟨_, rfl⟩
  obtain ⟨bytes, written, _⟩ :=
    Container.encodeFile_of_short fits.outerOwner entry.short_archiveName archive
  rw [embed_of_digest digested enough]
  simp only [pack]
  cases refused : payload.source.refusal? 3 with
  | some error => simp only [Source.rewind_of_refused (third.trans refused)]
  | none =>
      obtain ⟨_, rewound, _⟩ := Source.rewind_of_allowed (third.trans refused)
      simp only [rewound, written]

/-- Where all names are accepted, the outcome is that of the first step that fails. -/
theorem embed_outcome (payload : Payload) {entry : PayloadEntry} {options : BuildOptions}
    {outer : Container} (fits : entry.Fits options outer) :
    (payload.embed entry options outer).1 =
      match (payload.faults entry options).findSome? id with
      | some error => .error error
      | none => .ok (Checksum.ofBytes payload.content) := by
  have hashing := payload.source.digest_outcome options.readBlockSize
  rcases digested : payload.source.digest options.readBlockSize with ⟨outcome, started⟩
  rw [digested] at hashing
  rw [findSome?_faults]
  cases stopped : (payload.source.hashFaults options.readBlockSize).findSome? id with
  | some fault =>
      simp only [stopped] at hashing
      subst hashing
      simp [embed, digested]
  | none =>
      simp only [stopped] at hashing
      subst hashing
      cases copied : payload.copyFault? entry with
      | some fault =>
          rw [embed_of_short fits digested copied]
          rfl
      | none =>
          have enough : payload.content.length ≤ payload.secondPass.delivered.length := by
            by_contra short
            simp [copyFault?, short] at copied
          rw [embed_of_enough fits digested enough]
          cases payload.source.refusal? 3 <;> rfl

omit [Deflate] in
theorem findSome?_faults_eq_none_iff (payload : Payload) (entry : PayloadEntry)
    (options : BuildOptions) :
    (payload.faults entry options).findSome? id = none ↔
      options.BlockFits ∧ payload.Readable := by
  have copied : payload.copyFault? entry = none ↔
      payload.content.length ≤ payload.secondPass.delivered.length := by
    simp [copyFault?]
  rw [findSome?_faults]
  simp only [Option.or_eq_none_iff, Option.map_eq_none_iff,
    Source.findSome?_hashFaults_eq_none_iff, copied]
  constructor
  · rintro ⟨⟨block, hashes⟩, enough, third⟩
    refine ⟨block, ?_, hashes.healthy, enough⟩
    intro number positive few
    obtain rfl | rfl | rfl : number = 1 ∨ number = 2 ∨ number = 3 := by
      omega
    · exact hashes.rewinds
    · exact hashes.rewindsAgain
    · exact third
  · rintro ⟨block, rewinds, healthy, enough⟩
    exact ⟨⟨block, rewinds 1 (by decide) (by decide), healthy, rfl,
      rewinds 2 (by decide) (by decide)⟩, enough, rewinds 3 (by decide) (by decide)⟩

/-- An embedding adds one whole entry to the outer container or leaves it as it was.  Where
all names are accepted it succeeds exactly if a block fits into a buffer and the source can
be read twice, and otherwise ends with the fault of the first step that fails. -/
theorem embed_all_or_nothing {payload after : Payload} {entry : PayloadEntry}
    {options : BuildOptions} {outer grown : Container}
    {outcome : Except ArtifactError Checksum}
    (embedded : payload.embed entry options outer = (outcome, grown, after)) :
    (∀ error, outcome = .error error → grown = outer) ∧
    (∀ checksum, outcome = .ok checksum →
      after.source.seeks = payload.source.seeks + 3 ∧ after.source.position = 0 ∧
      ∃ archive, outer.Appended grown ("data/" ++ fourDigits entry.index ++ ".tar.gz") archive ∧
        Container.HoldsOnly archive entry.basename payload.copied ∧
        payload.copied.length = payload.content.length) ∧
    (entry.Fits options outer →
      ((∃ checksum, outcome = .ok checksum) ↔ options.BlockFits ∧ payload.Readable) ∧
      (∀ error, outcome = .error error ↔
        (payload.faults entry options).findSome? id = some error) ∧
      (options.BlockFits → payload.source.refusal? 1 = none →
        payload.source.nextPass.failure? = none → payload.source.refusal? 2 = none →
        payload.secondPass.failure? = none →
        payload.secondPass.delivered.length < payload.content.length →
        ∃ error, outcome = .error error ∧ error.toIoError? = some
          { kind := .unexpectedEnd
            text := s!"{entry.basename}: expected {payload.content.length} bytes, " ++
              s!"stream ended after {payload.secondPass.delivered.length}" })) := by
  refine ⟨?unchanged, ?appended, ?first⟩
  case unchanged =>
    rintro error rfl
    exact embed_error embedded
  case appended =>
    rintro checksum rfl
    obtain ⟨seeks, position⟩ := rested_of_embed embedded
    obtain ⟨_, whole, bytes, encoded, rfl⟩ := embed_ok embedded
    refine ⟨seeks, position, ?_⟩
    unfold encodeEmbedded at encoded
    cases pack : Container.packed options entry.basename payload.copied with
    | error fault => simp [pack] at encoded
    | ok archive =>
        simp only [pack] at encoded
        exact ⟨archive, Container.appended_of_encodeFile entry.plain_archiveName encoded,
          Container.holdsOnly_of_packed entry.validName.plain pack, whole⟩
  case first =>
    intro fits
    have result := payload.embed_outcome fits
    rw [embedded] at result
    simp only at result
    have readable := payload.findSome?_faults_eq_none_iff entry options
    refine ⟨?_, ?_, ?_⟩
    · rw [← readable, result]
      cases (payload.faults entry options).findSome? id <;> simp
    · intro error
      rw [result]
      cases (payload.faults entry options).findSome? id <;> simp
    · intro block first healthy second ended short
      have hashed := (payload.source.findSome?_hashFaults_eq_none_iff options.readBlockSize).mpr
        ⟨block, first, healthy, rfl, second⟩
      refine ⟨.write (.short entry.basename payload.content.length
        payload.secondPass.delivered.length), ?_, ?_⟩
      · rw [result, findSome?_faults, hashed, copyFault?, if_neg (Nat.not_le.mpr short), ended]
        rfl
      · have joined : " bytes, " ++ "stream ended after " = " bytes, stream ended after " := by
          decide
        simp only [ArtifactError.toIoError?, Tar.WriteFault.toIoError, toString, ← joined,
          String.append_assoc]

end Payload

end

namespace Payload

/-- With the largest block size a healthy payload is not embedded, though all names are
accepted. -/
theorem embed_of_largest_block :
    (PayloadEntry.first single.valid_image).Fits { readBlockSize := Source.largestBlock }
        (Container.start {}) ∧
      Readable { source := single.pieced, name := some "image" } ∧
      (embed { source := single.pieced, name := some "image" } (.first single.valid_image)
        { readBlockSize := Source.largestBlock } (Container.start {})).1 = .error .panic := by
  obtain ⟨placement, placed, _⟩ := (by decide : Container.Short "image").placed
  have fits : (PayloadEntry.first single.valid_image).Fits { readBlockSize := Source.largestBlock }
      (Container.start {}) := ⟨by decide, by decide, placement, placed⟩
  refine ⟨fits, (single.read_pieced "image").1, ?_⟩
  rw [embed_outcome _ fits]
  rfl

/-- A payload of three bytes, of which the second pass delivers one. -/
def shrinking : Payload :=
  { source := { passes := [[.data [1, 2, 3]], [.data [1], .interrupt]] } }

theorem embed_all_or_nothing_shrinking :
    ∃ error after,
      shrinking.embed (.first single.valid_image) {} { owner := "root", written := [9] } =
        (.error error, { owner := "root", written := [9] }, after) ∧
      error.toIoError? = some
        { kind := .unexpectedEnd, text := "image: expected 3 bytes, stream ended after 1" } := by
  rcases embedded : shrinking.embed (.first single.valid_image) {}
    { owner := "root", written := [9] } with ⟨outcome, grown, after⟩
  obtain ⟨unchanged, _, first⟩ := embed_all_or_nothing embedded
  obtain ⟨placement, placed, _⟩ := (by decide : Container.Short "image").placed
  obtain ⟨_, _, short⟩ := first ⟨by decide, by decide, placement, placed⟩
  obtain ⟨error, rfl, text⟩ := short (by decide) (by decide) (by decide) (by decide) (by decide)
    (by decide)
  obtain rfl := unchanged error rfl
  exact ⟨error, after, rfl, text⟩

end Payload

end UpdateArtifact
