import UpdateArtifact.Proofs.Addressing
import UpdateArtifact.Proofs.Failures
import UpdateArtifact.Proofs.HeaderFiles
import UpdateArtifact.Proofs.Keys
import UpdateArtifact.Proofs.Tar.Placing

/-!
# How a build ends

If all sources deliver, a build ends with an archive or with what validation refuses,
unless a name holds a zero byte or no buffer holds a block.  Neither is looked at before the
build: the header of an entry does not take the byte, and the buffer cannot be made.
-/

namespace UpdateArtifact

open Tar (Container)

theorem Tar.Container.ownerFault?_of_length_le {owner : String}
    (short : (Bytes.utf8 owner).length ≤ ownerWidth) :
    ownerFault? owner = if '\x00' ∈ owner.toList then some .nulByte else none := by
  have zero : (0 : UInt8) ∈ Bytes.utf8 owner ↔ '\x00' ∈ owner.toList :=
    Bytes.mem_utf8 (by decide) owner
  simp only [ownerFault?, if_neg (Nat.not_lt.mpr short), zero]

theorem ScriptState.short_path (state : ScriptState) : Container.Short state.path := by
  cases state <;> decide

namespace PayloadEntry

theorem size_digits (entry : PayloadEntry) :
    Tar.Path.size (fourDigits entry.index).toList = 4 := by
  have narrow : ∀ characters : List Char, (∀ character ∈ characters, character.isDigit = true) →
      Tar.Path.size characters = characters.length := by
    intro characters digits
    induction characters with
    | nil => rfl
    | cons character rest ih =>
        obtain ⟨digit, others⟩ := List.forall_mem_cons.mp digits
        have one : character.utf8Size = 1 := by
          simp only [Char.isDigit, Bool.and_eq_true, decide_eq_true_eq, UInt32.le_iff_toNat_le]
            at digit
          have small : character.val ≤ 127 := UInt32.le_iff_toNat_le.mpr
            (Nat.le_trans digit.2 (by decide))
          exact Char.utf8Size_eq_one_iff.mpr small
        rw [Tar.Path.size, one, ih others, List.length_cons, Nat.add_comm]
  rw [narrow _ fun _ member => isDigit_of_mem_fourDigits member, entry.length_digits]

theorem zero_not_mem_digits (entry : PayloadEntry) :
    '\x00' ∉ (fourDigits entry.index).toList :=
  fun member => absurd (isDigit_of_mem_fourDigits member) (by decide)

theorem short_of_digits (entry : PayloadEntry) {path : String} (front back : List Char)
    (characters : path.toList = front ++ (fourDigits entry.index).toList ++ back)
    (plain : Tar.Path.Plain path) (noAbove : Tar.Path.above ∉ pieces '/' path.toList)
    (small : Tar.Path.size front + Tar.Path.size back ≤ 96)
    (frontZeroFree : '\x00' ∉ front) (backZeroFree : '\x00' ∉ back) : Container.Short path := by
  refine Container.short_of_plain plain noAbove ⟨?_, ?_⟩
  · rw [characters, Tar.Path.size_append, Tar.Path.size_append, entry.size_digits,
      Tar.Path.width]
    omega
  · rw [characters]
    simp [frontZeroFree, entry.zero_not_mem_digits, backZeroFree]

theorem short_archiveName (entry : PayloadEntry) : Container.Short entry.archiveName := by
  refine entry.short_of_digits "data/".toList ".tar.gz".toList ?_ entry.plain_archiveName ?_
    (by decide) (by decide) (by decide)
  · simp [archiveName, directory]
  · rw [pieces_archiveName]
    simp only [List.mem_cons, List.not_mem_nil, or_false, not_or]
    refine ⟨by decide, ?_⟩
    intro same
    have length := congrArg List.length same
    simp [entry.length_digits, Tar.Path.above] at length

theorem short_headerFile (entry : PayloadEntry) {name : String} (plain : Tar.Path.Plain name)
    (noAbove : Tar.Path.above ∉ pieces '/' name.toList)
    (small : Tar.Path.size name.toList ≤ 80) (zeroFree : '\x00' ∉ name.toList) :
    Container.Short (entry.headerDirectory ++ "/" ++ name) := by
  refine entry.short_of_digits "headers/".toList ('/' :: name.toList) ?_
    (entry.plain_headerFile plain) ?_ ?_ (by decide) ?_
  · simp [headerDirectory]
  · have split : (entry.headerDirectory ++ "/" ++ name).toList =
        entry.headerDirectory.toList ++ '/' :: name.toList := by
      simp
    rw [split, pieces_append_cons, pieces_headerDirectory]
    simp only [List.cons_append, List.nil_append, List.mem_cons, not_or]
    refine ⟨by decide, ?_, noAbove⟩
    intro same
    have length := congrArg List.length same
    rw [entry.length_digits] at length
    contradiction
  · have start : Tar.Path.size "headers/".toList = 8 := by decide
    have slash : '/'.utf8Size = 1 := by decide
    rw [start, Tar.Path.size, slash]
    omega
  · rw [List.mem_cons, not_or]
    exact ⟨by decide, zeroFree⟩

end PayloadEntry

theorem HeaderArchive.short_files (header : HeaderArchive) :
    ∀ file ∈ header.files, Container.Short file.1 := by
  intro file member
  simp only [files, List.cons_append, List.mem_cons, List.mem_append, List.mem_map,
    List.mem_flatMap] at member
  rcases member with rfl | ⟨script, _, rfl⟩ | ⟨staged, _, member⟩
  · exact (by decide : Container.Short "header-info")
  · exact script.1.short_path
  · have typeInfo : "/type-info" = "/" ++ "type-info" := by decide
    have metaData : "/meta-data" = "/" ++ "meta-data" := by decide
    rcases member with rfl | rfl | none
    · rw [typeInfo, ← String.append_assoc]
      exact staged.1.short_headerFile (by decide) (by decide) (by decide) (by decide)
    · rw [metaData, ← String.append_assoc]
      exact staged.1.short_headerFile (by decide) (by decide) (by decide) (by decide)
    · cases none

namespace StagedPayload

/-- The part of the file name that the header of its entry holds has no zero byte. -/
def ZeroFree (staged : StagedPayload) : Prop :=
  '\x00' ∉ Tar.Path.cutTo Tar.Path.width staged.entry.basename.toList

instance (staged : StagedPayload) : Decidable staged.ZeroFree := by
  unfold ZeroFree
  infer_instance

end StagedPayload

section

variable [Deflate]

theorem encodeEmbedded_of_zeroFree {options : BuildOptions}
    (fit : Container.ownerFault? options.ownerName = none) {staged : StagedPayload}
    (zeroFree : staged.ZeroFree) (data : Bytes) :
    ∃ bytes, Payload.encodeEmbedded staged.entry options options.ownerName data = .ok bytes := by
  obtain ⟨placement, placed⟩ :=
    (Tar.Path.place_of_component staged.entry.validName.component).2 zeroFree
  have file := Container.encodeFile_of_placed fit placed data
  obtain ⟨bytes, written, _⟩ := Container.encodeFile_of_short fit
    staged.entry.short_archiveName (((Container.start options).extend
      (Container.preamble options.ownerName placement data.length ++ data ++
        Bytes.zeros (Tar.gap data.length))).compress options)
  refine ⟨bytes, ?_⟩
  simp only [Payload.encodeEmbedded, Container.packed, file, Except.map, written]

theorem encodeEmbedded_of_zero {options : BuildOptions}
    (fit : Container.ownerFault? options.ownerName = none) {staged : StagedPayload}
    (zero : ¬ staged.ZeroFree) (data : Bytes) :
    Payload.encodeEmbedded staged.entry options options.ownerName data =
      .error (.path { fault := .nulByte, kept := "" }) := by
  have refused := (Tar.Path.place_of_component staged.entry.validName.component).1
    (not_not.mp zero)
  simp only [Payload.encodeEmbedded, Container.packed, Container.encodeFile, Container.accept,
    fit, refused, Except.map]

/-- Payloads can be written exactly if no name has a zero byte, and the first name that has
one is what is refused. -/
theorem encodePayloads_zero {options : BuildOptions}
    (fit : Container.ownerFault? options.ownerName = none) (data : Payload → Bytes)
    (payloads : List StagedPayload) :
    ((∀ staged ∈ payloads, staged.ZeroFree) →
      ∃ bytes, encodePayloads options options.ownerName data payloads = .ok bytes) ∧
    ((∃ staged ∈ payloads, ¬ staged.ZeroFree) →
      encodePayloads options options.ownerName data payloads =
        .error (.path { fault := .nulByte, kept := "" })) := by
  induction payloads with
  | nil => exact ⟨fun _ => ⟨[], rfl⟩, by simp⟩
  | cons staged rest ih =>
      by_cases head : staged.ZeroFree
      · obtain ⟨front, written⟩ :=
          encodeEmbedded_of_zeroFree fit head (data staged.payload)
        constructor
        · intro zeroFree
          obtain ⟨back, later⟩ := ih.1 (List.forall_mem_cons.mp zeroFree).2
          refine ⟨front ++ back, ?_⟩
          simp only [encodePayloads, written, later, Except.map]
        · intro zero
          obtain ⟨other, member, held⟩ := zero
          rcases List.mem_cons.mp member with rfl | inRest
          · exact (held head).elim
          · simp only [encodePayloads, written, ih.2 ⟨other, inRest, held⟩, Except.map]
      · have refused := encodeEmbedded_of_zero fit head (data staged.payload)
        constructor
        · intro zeroFree
          exact (head (zeroFree staged List.mem_cons_self)).elim
        · intro _
          simp only [encodePayloads, refused]

end

namespace Artifact

/-- No zero byte stands in a name that the header of an entry has to hold. -/
structure ZeroFree (artifact : Artifact) : Prop where
  owner : '\x00' ∉ artifact.options.ownerName.toList
  names : ∀ staged ∈ artifact.payloads, staged.ZeroFree

theorem Valid.ownerFault?_eq {artifact : Artifact} (valid : artifact.Valid) :
    Container.ownerFault? artifact.options.ownerName =
      if '\x00' ∈ artifact.options.ownerName.toList then some .nulByte else none :=
  Container.ownerFault?_of_length_le valid.ownerFits

section

variable [Deflate]

/-- The header archive holds no name that the caller chose. -/
theorem assemble_of_fit {artifact : Artifact} (addressed : artifact.Addressed)
    (fit : Container.ownerFault? artifact.options.ownerName = none) :
    ∃ header, artifact.header.assemble artifact.options = .ok header := by
  obtain ⟨bytes, encoded, _⟩ := Container.encodeAll_of_short fit artifact.header.short_files
  rw [HeaderArchive.assemble_eq _ (artifact.entryNames_header ▸ addressed.distinct), encoded]
  exact ⟨_, rfl⟩

theorem build_of_ownerFault {artifact : Artifact} {fault : Tar.OwnerFault}
    (valid : artifact.validate = .ok ()) (block : artifact.options.BlockFits)
    (refused : Container.ownerFault? artifact.options.ownerName = some fault) :
    artifact.build.1 = .error (.write (.owner fault)) := by
  have refuse := Container.encodeFile_of_ownerFault refused
  simp only [build, valid, opening, Source.digestBytes_of_le block, Container.writeBytes_eq,
    Container.owner_start, refuse]

theorem build_of_zeroFree {artifact : Artifact} (addressed : artifact.Addressed)
    (fits : artifact.DraftFits) (valid : artifact.validate = .ok ())
    (block : artifact.options.BlockFits)
    (fit : Container.ownerFault? artifact.options.ownerName = none)
    (zeroFree : ∀ staged ∈ artifact.payloads, staged.ZeroFree)
    (readable : ∀ staged ∈ artifact.payloads, staged.payload.Readable) :
    ∃ archive, artifact.build.1 = .ok archive := by
  obtain ⟨header, assembled⟩ := assemble_of_fit addressed fit
  obtain ⟨opening, opened⟩ := encodeAll_openingFiles addressed assembled
  obtain ⟨bytes, written⟩ :=
    (encodePayloads_zero fit Payload.copied artifact.payloads).1 zeroFree
  exact ⟨_, build_of_written addressed block valid assembled readable opened written fits⟩

/-- The ways in which a build ends if all sources deliver, each with its condition. -/
inductive Ends (artifact : Artifact) : Except ArtifactError Bytes → Prop
  | built (archive : Bytes) (valid : artifact.validate = .ok ())
      (block : artifact.options.BlockFits) (zeroFree : artifact.ZeroFree) :
      Ends artifact (.ok archive)
  | refused (refusal : Refusal) (invalid : artifact.validate = .error refusal) :
      Ends artifact (.error (.validation refusal))
  | noBuffer (valid : artifact.validate = .ok ()) (large : ¬ artifact.options.BlockFits) :
      Ends artifact (.error .panic)
  | zeroInOwner (valid : artifact.validate = .ok ()) (block : artifact.options.BlockFits)
      (zero : '\x00' ∈ artifact.options.ownerName.toList) :
      Ends artifact (.error (.write (.owner .nulByte)))
  | zeroInName (valid : artifact.validate = .ok ()) (block : artifact.options.BlockFits)
      (noZero : '\x00' ∉ artifact.options.ownerName.toList)
      (zero : ∃ staged ∈ artifact.payloads, ¬ staged.ZeroFree) :
      Ends artifact (.error (.write (.path { fault := .nulByte, kept := "" })))

theorem ends_of_readable {artifact : Artifact} (addressed : artifact.Addressed)
    (apart : artifact.PayloadsApart) (fits : artifact.DraftFits)
    (readable : ∀ staged ∈ artifact.payloads, staged.payload.Readable) :
    artifact.Ends artifact.build.1 := by
  cases accepted : artifact.validate with
  | error refusal =>
      simp only [build, accepted]
      exact .refused refusal accepted
  | ok done =>
      by_cases block : artifact.options.BlockFits
      case neg =>
        rw [build_of_large accepted block]
        exact .noBuffer accepted block
      have valid := (validate_eq_ok_iff apart).mp accepted
      by_cases owner : '\x00' ∈ artifact.options.ownerName.toList
      · have fault := valid.ownerFault?_eq
        rw [if_pos owner] at fault
        rw [build_of_ownerFault accepted block fault]
        exact .zeroInOwner accepted block owner
      · have fit := valid.ownerFault?_eq
        rw [if_neg owner] at fit
        by_cases zeroFree : ∀ staged ∈ artifact.payloads, staged.ZeroFree
        · obtain ⟨archive, built⟩ :=
            build_of_zeroFree addressed fits accepted block fit zeroFree readable
          rw [built]
          exact .built archive accepted block ⟨owner, zeroFree⟩
        · have zero : ∃ staged ∈ artifact.payloads, ¬ staged.ZeroFree := by
            simpa only [not_forall, exists_prop] using zeroFree
          obtain ⟨header, assembled⟩ := assemble_of_fit addressed fit
          rw [build_of_refused addressed block accepted assembled readable
            ((encodePayloads_zero fit Payload.copied artifact.payloads).2 zero)]
          exact .zeroInName accepted block owner zero

/-- If all sources deliver, a build gives an archive or what validation refuses, exactly
when what is valid has no zero byte in a name and blocks that fit into a buffer.  Otherwise
the byte is reported by the header that does not take it, or the build panics. -/
theorem build_ends {artifact : Artifact} (reachable : artifact.Reachable)
    (delivers : ∀ staged ∈ artifact.payloads,
      ∃ content, staged.payload.source.Delivers content)
    (fits : artifact.FitsMemory) :
    artifact.Ends artifact.build.1 ∧
      (((∃ archive, artifact.build.1 = .ok archive) ∨
          ∃ refusal, artifact.build.1 = .error (.validation refusal)) ↔
        (artifact.validate = .ok () → artifact.options.BlockFits ∧ artifact.ZeroFree)) := by
  have readable : ∀ staged ∈ artifact.payloads, staged.payload.Readable := by
    intro staged member
    obtain ⟨content, whole⟩ := delivers staged member
    exact (Payload.readable_of_delivers whole).1
  have ends := ends_of_readable reachable.addressed reachable.payloadsApart fits.draftFits readable
  refine ⟨ends, ?_⟩
  generalize artifact.build.1 = outcome at ends
  cases ends with
  | built archive valid block zeroFree => simp [block, zeroFree]
  | refused refusal invalid => simp [invalid]
  | noBuffer valid large => simp [valid, large]
  | zeroInOwner valid block zero =>
      have some : ¬ artifact.ZeroFree := fun zeroFree => zeroFree.owner zero
      simp [valid, some]
  | zeroInName valid block noZero zero =>
      obtain ⟨staged, member, held⟩ := zero
      have some : ¬ artifact.ZeroFree := fun zeroFree => held (zeroFree.names staged member)
      simp [valid, some]

end

theorem fitsMemory_single (source : Source) {name : String}
    (valid : PayloadEntry.ValidName name) (smallName : (Bytes.utf8 name).length ≤ 1000) :
    (single source valid).FitsMemory := by
  have version := single.length_version_le source valid
  have draft := single.length_draft_le source valid smallName
  exact Nat.lt_of_le_of_lt (Nat.add_le_add version draft) (by decide)

theorem builds_described :
    ∃ archive, single.described.build.1 = .ok archive ∧
      archive.length < Tar.Numeral.wordLimit := by
  have addressed := single.reachable_described.addressed
  have fit : Container.ownerFault? single.described.options.ownerName = none :=
    (by decide : Container.ownerFault? "root" = none)
  have total : (single.described.header.files.map fun file => file.2.length + 1024).sum ≤
      8000 := by
    decide +kernel
  obtain ⟨header, assembled, bound⟩ := HeaderArchive.assemble_of_short
    (entryNames_header _ ▸ addressed.distinct) fit single.described.header.short_files
  have smallHeader : header.length ≤ 20000 := by
    omega
  have options : single.described.options = {} := rfl
  have payloads : single.described.payloads =
      (single single.pieced single.valid_image).payloads := rfl
  obtain ⟨readable, _, copied⟩ := single.read_pieced "image"
  obtain ⟨front, back, opened, written, draftFits, fits⟩ := single.written_of_header
    single.pieced single.valid_image options payloads smallHeader (by decide) (by decide)
    (by rw [copied]; decide)
  refine ⟨_, build_of_written addressed (by decide) single.accepted_described assembled ?_ opened
    written draftFits, fits⟩
  intro staged member
  rw [List.mem_singleton.mp member]
  exact readable

theorem build_ends_image :
    (single single.pieced single.valid_image).ZeroFree ∧
      ∃ archive, (single single.pieced single.valid_image).build.1 = .ok archive := by
  have reachable := single.reachable single.pieced single.valid_image
  have delivers : ∀ staged ∈ (single single.pieced single.valid_image).payloads,
      ∃ content, staged.payload.source.Delivers content := by
    intro staged member
    rw [List.mem_singleton.mp member]
    exact ⟨_, single.delivers_pieced⟩
  have zeroFree : (single single.pieced single.valid_image).ZeroFree := by
    constructor
    · exact (by decide : '\x00' ∉ "root".toList)
    · intro staged member
      rw [List.mem_singleton.mp member]
      exact (by decide : '\x00' ∉ Tar.Path.cutTo Tar.Path.width "image".toList)
  obtain ⟨ends, ways⟩ := build_ends reachable delivers
    (fitsMemory_single single.pieced single.valid_image (by decide))
  rcases ways.mpr fun _ => ⟨by decide, zeroFree⟩ with built | ⟨refusal, refused⟩
  · exact ⟨zeroFree, built⟩
  · rw [refused] at ends
    cases ends with
    | refused _ invalid =>
        rw [single.accepted] at invalid
        cases invalid

theorem valid_zero : PayloadEntry.ValidName "a\x00b" := by
  decide

/-- A name with a zero byte is accepted, and the build fails as if a stream had. -/
theorem build_of_zero :
    (perform { name := "release", deviceTypes := ["device"] }
        (.payload { source := .ofBytes [97], name := some "a\x00b" })).1 = .ok () ∧
      (perform { name := "release", deviceTypes := ["device"] }
        (.payload { source := .ofBytes [97], name := some "a\x00b" })).2 =
          single (.ofBytes [97]) valid_zero ∧
      (Source.ofBytes [97]).Delivers [97] ∧
      ∃ error, (single (.ofBytes [97]) valid_zero).build.1 = .error error ∧ error.kind = .io := by
  have delivers : (Source.ofBytes [97]).Delivers [97] := by
    simp [Source.Delivers, Source.ofBytes, Pass.delivered, Pass.failure?]
  have addressed := (single.reachable (.ofBytes [97]) valid_zero).addressed
  have fit : Container.ownerFault? (single (.ofBytes [97]) valid_zero).options.ownerName =
      none := by
    show Container.ownerFault? "root" = none
    decide
  have zero : ∃ staged ∈ (single (.ofBytes [97]) valid_zero).payloads, ¬ staged.ZeroFree :=
    ⟨_, List.mem_singleton.mpr rfl,
      (by decide : ¬ '\x00' ∉ Tar.Path.cutTo Tar.Path.width "a\x00b".toList)⟩
  have readable : ∀ staged ∈ (single (.ofBytes [97]) valid_zero).payloads,
      staged.payload.Readable := by
    intro staged member
    rw [List.mem_singleton.mp member]
    exact (Payload.readable_of_delivers delivers).1
  obtain ⟨header, assembled⟩ := assemble_of_fit addressed fit
  have failed := build_of_refused addressed (by decide) (single.accepted _ _) assembled readable
    ((encodePayloads_zero fit Payload.copied _).2 zero)
  exact ⟨rfl, rfl, delivers, _, failed, rfl⟩

end Artifact

end UpdateArtifact
