import UpdateArtifact.Artifact.Direct
import UpdateArtifact.Proofs.Sources
import UpdateArtifact.Proofs.Tar.ReadBack

/-!
# What embedding a payload writes

Hashing takes one pass over the source and embedding takes the next.  The
checksum speaks of the first and the embedded file holds the second, cut to the
length of the first.
-/

namespace UpdateArtifact

variable [Deflate]

namespace Tar.Container

def packed (options : BuildOptions) (path : String) (data : Bytes) : Except WriteFault Bytes :=
  (encodeFile options.ownerName path data).map fun bytes =>
    ((start options).extend bytes).compress options

theorem decode?_of_packed {options : BuildOptions} {path : String} {data archive : Bytes}
    (plain : Path.Plain path) (pack : packed options path data = .ok archive) :
    ∃ bytes, encodeFile options.ownerName path data = .ok bytes ∧
      Gzip.decode? archive = some (bytes ++ Bytes.zeros (2 * blockSize)) ∧
      (bytes.length < Numeral.wordLimit →
        unpack? (bytes ++ Bytes.zeros (2 * blockSize)) = some [(Bytes.utf8 path, data)]) := by
  unfold packed at pack
  cases encoded : encodeFile options.ownerName path data with
  | error fault =>
      rw [encoded] at pack
      contradiction
  | ok bytes =>
      rw [encoded] at pack
      cases pack
      refine ⟨bytes, rfl, ?_, ?_⟩
      · rw [decode?_compress, close_extend_start]
      · intro fits
        have all : encodeAll options.ownerName [(path, data)] = .ok bytes := by
          simp [encodeAll, encoded, Except.map]
        have onlyPlain : ∀ file ∈ [(path, data)], Path.Plain file.1 := by
          intro file member
          rw [List.mem_singleton] at member
          rw [member]
          exact plain
        exact unpack?_of_encodeAll onlyPlain all fits

/-- A compressed archive with one file, and nothing else in it. -/
def HoldsOnly (archive : Bytes) (name : String) (data : Bytes) : Prop :=
  ∃ inner, Gzip.decode? archive = some inner ∧
    (inner.length < Numeral.wordLimit → unpack? inner = some [(Bytes.utf8 name, data)])

theorem holdsOnly_of_packed {options : BuildOptions} {path : String} {data archive : Bytes}
    (plain : Path.Plain path) (pack : packed options path data = .ok archive) :
    HoldsOnly archive path data := by
  obtain ⟨bytes, _, decoded, unpacked⟩ := decode?_of_packed plain pack
  refine ⟨_, decoded, ?_⟩
  intro fits
  rw [List.length_append] at fits
  exact unpacked (by omega)

end Tar.Container

open Tar (Container)

namespace Payload

/-- The pass over the source that is embedded. -/
def secondPass (payload : Payload) : Pass :=
  (Source.laterPasses payload.source.passes).headD []

/-- The bytes that are embedded: as many as were hashed, from the second pass. -/
def copied (payload : Payload) : Bytes :=
  payload.secondPass.delivered.take payload.content.length

/-- The bytes that embedding some data adds to the outer container. -/
def encodeEmbedded (entry : PayloadEntry) (options : BuildOptions) (owner : String)
    (data : Bytes) : Except Tar.WriteFault Bytes :=
  match Container.packed options entry.basename data with
  | .error fault => .error fault
  | .ok archive => Container.encodeFile owner entry.archiveName archive

omit [Deflate] in
theorem ahead_of_digest {payload : Payload} {started : Source} {block : Nat}
    {result : Checksum × Nat} (digested : payload.source.digest block = (.ok result, started)) :
    started.ahead = payload.secondPass ∧ result.2 = payload.content.length := by
  obtain ⟨_, _, _, length, rested⟩ := Source.digest_ok digested
  refine ⟨?_, length⟩
  rw [Source.ahead_of_current_none rested.current_eq, Source.nextPass, rested.passes_eq,
    secondPass]

omit [Deflate] in
/-- The rewinds that are left once the content is hashed and copied. -/
theorem refusal?_of_copied {source started : Source} {passes : List Pass}
    (rested : Source.Rested source started 2 passes) (wanted : Option Nat) (number : Nat) :
    (started.transfer Container.copyBlock (· ++ ·) wanted ([] : Bytes)).2.2.refusal? number =
      source.refusal? (2 + number) := by
  have kept := Source.kept_transfer Container.copyBlock (· ++ ·) wanted ([] : Bytes) started
  exact Source.refusal?_of_later (kept.seeks_eq.trans rested.seeks_eq)
    (kept.failingSeeks_eq.trans rested.failingSeeks_eq) number

/-- What follows once the content is hashed, if the second pass is long enough. -/
theorem embed_of_digest {payload : Payload} {options : BuildOptions}
    {checksum : Checksum} {length : Nat} {started : Source}
    (digested : payload.source.digest options.readBlockSize = (.ok (checksum, length), started))
    (enough : payload.content.length ≤ payload.secondPass.delivered.length)
    (entry : PayloadEntry) (outer : Container) :
    payload.embed entry options outer =
      match Container.packed options entry.basename payload.copied with
      | .error fault => (.error (.write fault), outer, { payload with source := started })
      | .ok archive =>
          match (started.transfer Container.copyBlock (· ++ ·) (some length) []).2.2.rewind with
          | (.error error, source) => (.error (.source error), outer, { payload with source })
          | (.ok (), source) =>
              match Container.encodeFile outer.owner entry.archiveName archive with
              | .error fault => (.error (.write fault), outer, { payload with source })
              | .ok bytes => (.ok checksum, outer.extend bytes, { payload with source }) := by
  obtain ⟨ahead, same⟩ := ahead_of_digest digested
  simp only at same
  subst same
  have whole : payload.content.length ≤ started.ahead.delivered.length := by
    rw [ahead]
    exact enough
  have data : started.ahead.delivered.take payload.content.length = payload.copied := by
    rw [ahead, copied]
  simp only [embed, digested, Container.writeEntry_of_le _ _ _ _ whole, data,
    Container.owner_start]
  cases encoded : Container.encodeFile options.ownerName entry.basename payload.copied with
  | error fault => simp [Container.packed, encoded, Except.map]
  | ok file =>
      have pack : Container.packed options entry.basename payload.copied =
          .ok (((Container.start options).extend file).compress options) := by
        simp [Container.packed, encoded, Except.map]
      simp only [pack, Container.writeBytes_eq]
      rcases (started.transfer Container.copyBlock (· ++ ·) (some payload.content.length)
        []).2.2.rewind with ⟨outcome, source⟩
      cases outcome with
      | error error => rfl
      | ok done =>
          simp only
          cases Container.encodeFile outer.owner entry.archiveName
            (((Container.start options).extend file).compress options) with
          | error fault => rfl
          | ok bytes => rfl

/-- A payload that was embedded: the checksum is that of the first pass, and as
many bytes of the second were written. -/
theorem embed_ok {payload after : Payload} {entry : PayloadEntry} {options : BuildOptions}
    {outer grown : Container} {checksum : Checksum}
    (embedded : payload.embed entry options outer = (.ok checksum, grown, after)) :
    checksum = Checksum.ofBytes payload.content ∧
      payload.copied.length = payload.content.length ∧
      ∃ bytes, encodeEmbedded entry options outer.owner payload.copied = .ok bytes ∧
        grown = outer.extend bytes := by
  rcases digested : payload.source.digest options.readBlockSize with ⟨outcome, started⟩
  cases outcome with
  | error fault => simp [embed, digested] at embedded
  | ok result =>
      obtain ⟨sum, length⟩ := result
      obtain ⟨_, _, sumEq, lengthEq, _⟩ := Source.digest_ok digested
      obtain ⟨ahead, _⟩ := ahead_of_digest digested
      have enough : payload.content.length ≤ payload.secondPass.delivered.length := by
        rcases written : (Container.start options).writeEntry entry.basename started
            length with ⟨outcome, inner, source⟩
        cases outcome with
        | error fault => simp [embed, digested, written] at embedded
        | ok done =>
            have bound := Container.le_of_writeEntry_ok written
            rw [ahead, lengthEq] at bound
            exact bound
      rw [embed_of_digest digested enough] at embedded
      cases pack : Container.packed options entry.basename payload.copied with
      | error fault => simp [pack] at embedded
      | ok archive =>
          simp only [pack] at embedded
          split at embedded
          · simp at embedded
          · cases encoded : Container.encodeFile outer.owner entry.archiveName archive with
            | error fault => simp [encoded] at embedded
            | ok bytes =>
                simp only [encoded, Prod.mk.injEq, Except.ok.injEq] at embedded
                obtain ⟨rfl, rfl, _⟩ := embedded
                refine ⟨sumEq, ?_, bytes, ?_, rfl⟩
                · rw [copied, List.length_take]
                  exact Nat.min_eq_left enough
                · simp only [encodeEmbedded, pack, encoded]

/-- A payload whose source can be read twice without a failure. -/
structure Readable (payload : Payload) : Prop where
  rewinds : ∀ number, 0 < number → number ≤ 3 → payload.source.refusal? number = none
  healthy : payload.source.nextPass.failure? = none
  enough : payload.content.length ≤ payload.secondPass.delivered.length

theorem embed_of_readable {payload : Payload} (readable : payload.Readable)
    (entry : PayloadEntry) {options : BuildOptions} (block : options.BlockFits)
    (outer : Container) :
    ∃ after, payload.embed entry options outer =
      match encodeEmbedded entry options outer.owner payload.copied with
      | .error fault => (.error (.write fault), outer, after)
      | .ok bytes => (.ok (Checksum.ofBytes payload.content), outer.extend bytes, after) := by
  obtain ⟨allowed, healthy, enough⟩ := readable
  obtain ⟨⟨checksum, length⟩, started, digested⟩ := Source.digest_of_healthy block
    (allowed 1 (by decide) (by decide)) healthy (allowed 2 (by decide) (by decide))
  obtain ⟨_, _, rfl, rfl, rested⟩ := Source.digest_ok digested
  have third := (refusal?_of_copied rested (some payload.source.nextPass.delivered.length) 1).trans
    (allowed 3 (by decide) (by decide))
  obtain ⟨final, rewound, _⟩ := Source.rewind_of_allowed third
  rw [embed_of_digest digested enough, rewound]
  simp only [encodeEmbedded]
  cases Container.packed options entry.basename payload.copied with
  | error fault => exact ⟨_, rfl⟩
  | ok archive =>
      simp only
      cases Container.encodeFile outer.owner entry.archiveName archive with
      | error fault => exact ⟨_, rfl⟩
      | ok bytes => exact ⟨_, rfl⟩

omit [Deflate] in
theorem secondPass_eq_nil_or_mem (payload : Payload) :
    (payload.source.passes = [] ∧ payload.secondPass = []) ∨
      payload.secondPass ∈ payload.source.passes := by
  rw [secondPass]
  rcases passes : payload.source.passes with - | ⟨first, - | ⟨second, rest⟩⟩
  · exact .inl ⟨rfl, rfl⟩
  · exact .inr List.mem_cons_self
  · exact .inr (List.mem_cons_of_mem _ List.mem_cons_self)

omit [Deflate] in
theorem copied_of_steady {payload : Payload} (steady : payload.source.Steady) :
    payload.secondPass.delivered = payload.content ∧ payload.copied = payload.content := by
  have second : payload.secondPass.delivered = payload.content := by
    rcases payload.secondPass_eq_nil_or_mem with ⟨none, empty⟩ | member
    · rw [empty, content, none]
      rfl
    · exact steady _ member
  exact ⟨second, by rw [copied, second, List.take_length]⟩

omit [Deflate] in
theorem readable_of_delivers {payload : Payload} {content : Bytes}
    (delivers : payload.source.Delivers content) :
    payload.Readable ∧ payload.content = content ∧ payload.copied = content := by
  obtain ⟨hashed, healthy⟩ := delivers.nextPass
  obtain ⟨second, copied⟩ := copied_of_steady delivers.steady
  have enough := Nat.le_of_eq (congrArg List.length second.symm)
  exact ⟨⟨fun number positive _ => delivers.refusal?_eq_none positive, healthy, enough⟩, hashed,
    copied.trans hashed⟩

end Payload

end UpdateArtifact
