import UpdateArtifact.Proofs.Inputs
import UpdateArtifact.Proofs.Outcomes
import UpdateArtifact.Proofs.Tar.Entries

/-!
# Changes that stay local

Checksums carry a change of one file into the manifest, and a longer file moves whatever
stands behind it.  Still, of two archives that differ in the content of one payload, or in
what is said in the header archive, every other entry is the same, and so is every other
line of the manifest.
-/

namespace UpdateArtifact

open Tar (Container AgreeOutside)

/-- Lists that agree at all places but one have the rest in common. -/
theorem split_of_agree {α : Type} {left right : List α} {place : Nat}
    (inLeft : place < left.length) (inRight : place < right.length)
    (agree : ∀ other, other ≠ place → left[other]? = right[other]?) :
    ∃ front back, left = front ++ left[place] :: back ∧
      right = front ++ right[place] :: back := by
  have before : right.take place = left.take place := by
    apply List.ext_getElem?
    intro other
    simp only [List.getElem?_take]
    split
    · next less => exact (agree other (Nat.ne_of_lt less)).symm
    · rfl
  have after : right.drop (place + 1) = left.drop (place + 1) := by
    apply List.ext_getElem?
    intro other
    rw [List.getElem?_drop, List.getElem?_drop]
    exact (agree _ (by omega)).symm
  refine ⟨left.take place, left.drop (place + 1), ?_, ?_⟩
  · rw [List.getElem_cons_drop, List.take_append_drop]
  · rw [← before, ← after, List.getElem_cons_drop, List.take_append_drop]

/-- Archives with the same names, the same entries under all of them but the manifest and
one other, and manifests that differ at most in the checksum of one line. -/
structure SameBut (names lines : List String) (entry line : String) (left right : Bytes) :
    Prop where
  left_names : (Tar.unpack? left).map (·.map Prod.fst) = some (names.map Bytes.utf8)
  right_names : (Tar.unpack? right).map (·.map Prod.fst) = some (names.map Bytes.utf8)
  entries : ∀ name ∈ names, name ≠ Manifest.entryName → name ≠ entry →
    ∃ content, Tar.entry? left name = some content ∧ Tar.entry? right name = some content
  manifest : ∃ header front back former latter,
    Tar.entry? left Manifest.entryName =
        some (header, Manifest.encode (front ++ { checksum := former, name := line } :: back)) ∧
      Tar.entry? right Manifest.entryName =
        some (header, Manifest.encode (front ++ { checksum := latter, name := line } :: back)) ∧
      front.map Manifest.Line.name ++ line :: back.map Manifest.Line.name = lines

namespace Artifact

/-- Artifacts with the same payloads under the same file names, written with the same
options.  Whatever else is said of the artifact or of a payload may differ. -/
structure SameFiles (left right : Artifact) : Prop where
  basenames_eq : left.payloads.map (·.entry.basename) = right.payloads.map (·.entry.basename)
  contents_eq : left.payloads.map (·.payload.content) = right.payloads.map (·.payload.content)
  options_eq : ∃ block, left.options = { right.options with readBlockSize := block }

theorem version_of_options {left right : Artifact} {block : Nat}
    (options : left.options = { right.options with readBlockSize := block }) :
    left.version = right.version := by
  rw [Artifact.version, Artifact.version, options]

section

variable [Deflate]

theorem names_outerFiles {artifact : Artifact} (addressed : artifact.Addressed)
    {archives : List Bytes} {options : BuildOptions} {data : Payload → Bytes}
    (packs : Packs options data artifact.payloads archives) (header : Bytes) :
    (artifact.outerFiles header archives).map Prod.fst =
      outerNames artifact.payloads.length := by
  have count : archives.length = artifact.payloads.length := packs.length_eq.symm
  rw [outerFiles, List.map_append, archiveFiles, List.map_fst_zip (by simp [count]),
    archiveNames_eq addressed, outerNames]
  rfl

/-- Payloads at the same places with the same names give the same archives, but for those
whose data differ. -/
theorem agree_archiveFiles {options : BuildOptions} {data : Payload → Bytes}
    {changed : List String} {left right : List StagedPayload}
    {leftArchives rightArchives : List Bytes}
    (pairs : List.Forall₂
      (fun first second => first.entry = second.entry ∧
        (first.entry.archiveName ∉ changed → data first.payload = data second.payload))
      left right)
    (leftPacks : Packs options data left leftArchives)
    (rightPacks : Packs options data right rightArchives) :
    AgreeOutside changed (archiveFiles left leftArchives)
      (archiveFiles right rightArchives) := by
  induction pairs generalizing leftArchives rightArchives with
  | nil =>
      cases leftPacks
      cases rightPacks
      exact .nil
  | cons head _ ih =>
      obtain ⟨entry, contents⟩ := head
      cases leftPacks with
      | cons first firsts =>
          cases rightPacks with
          | cons second seconds =>
              refine .cons ⟨congrArg PayloadEntry.archiveName entry, ?_⟩ (ih firsts seconds)
              intro outside
              rw [entry, contents outside, second, Except.ok.injEq] at first
              exact first.symm

omit [Deflate] in
/-- Containers that agree outside one entry, and manifests that agree outside one line. -/
theorem sameBut_of_agree {left right : Artifact} {entry line : String}
    {leftHeader rightHeader : Bytes} {leftArchives rightArchives : List Bytes}
    {front back : List Manifest.Line} {former latter : Checksum}
    (owner : left.options.ownerName = right.options.ownerName)
    (names : (left.outerFiles leftHeader leftArchives).map Prod.fst =
      outerNames left.payloads.length)
    (agree : AgreeOutside [Manifest.entryName, entry] (left.outerFiles leftHeader leftArchives)
      (right.outerFiles rightHeader rightArchives))
    (leftLines : left.lines leftHeader = front ++ { checksum := former, name := line } :: back)
    (rightLines : right.lines rightHeader =
      front ++ { checksum := latter, name := line } :: back)
    {leftBytes rightBytes : Bytes}
    (leftEncoded : Container.encodeAll left.options.ownerName
      (left.outerFiles leftHeader leftArchives) = .ok leftBytes)
    (rightEncoded : Container.encodeAll right.options.ownerName
      (right.outerFiles rightHeader rightArchives) = .ok rightBytes)
    (leftFits : leftBytes.length < Tar.Numeral.wordLimit)
    (rightFits : rightBytes.length < Tar.Numeral.wordLimit) :
    SameBut (outerNames left.payloads.length) (Manifest.order left.entryNames) entry line
      (leftBytes ++ Bytes.zeros (2 * Tar.blockSize))
      (rightBytes ++ Bytes.zeros (2 * Tar.blockSize)) := by
  have plain := left.plain_outerFiles leftHeader leftArchives
  have distinct : ((left.outerFiles leftHeader leftArchives).map Prod.fst).Nodup := by
    rw [names]
    exact nodup_outerNames _
  have plainToo := right.plain_outerFiles rightHeader rightArchives
  have distinctToo := agree.names_eq ▸ distinct
  rw [← owner] at rightEncoded
  have listing (files : List (String × Bytes)) :
      (files.map fun file => (Bytes.utf8 file.1, file.2)).map Prod.fst =
        (files.map Prod.fst).map Bytes.utf8 := by
    rw [List.map_map, List.map_map]
    rfl
  refine ⟨?_, ?_, ?_, ?_⟩
  · rw [Tar.unpack?_of_encodeAll plain leftEncoded leftFits, Option.map_some, listing, names]
  · rw [Tar.unpack?_of_encodeAll plainToo rightEncoded rightFits, Option.map_some, listing,
      ← agree.names_eq, names]
  · intro name listed notManifest notEntry
    rw [← names] at listed
    exact agree.entries_eq plain distinct leftEncoded rightEncoded leftFits rightFits listed
      (by simp [notManifest, notEntry])
  -- The manifests take the same room, so their headers are the same.
  · obtain ⟨preamble, accepted, found⟩ := Tar.entry?_of_encodeAll plain distinct leftEncoded
      leftFits (List.mem_append_left _ (List.mem_cons_of_mem _ List.mem_cons_self))
    obtain ⟨other, acceptedToo, foundToo⟩ := Tar.entry?_of_encodeAll plainToo distinctToo
      rightEncoded rightFits (List.mem_append_left _ (List.mem_cons_of_mem _ List.mem_cons_self))
    have length : (Manifest.encode (left.lines leftHeader)).length =
        (Manifest.encode (right.lines rightHeader)).length := by
      rw [leftLines, rightLines, Manifest.length_encode, Manifest.length_encode,
        List.map_append, List.map_append]
      rfl
    rw [length, acceptedToo, Except.ok.injEq] at accepted
    rw [leftLines, ← accepted] at found
    rw [rightLines] at foundToo
    refine ⟨_, front, back, former, latter, found, foundToo, ?_⟩
    rw [← names_lines left leftHeader, leftLines, List.map_append]
    rfl

/-- An archive that was built from sources that repeat themselves. -/
structure BuiltAs (artifact : Artifact) (archive : Bytes) : Prop where
  reachable : artifact.Reachable
  steady : ∀ staged ∈ artifact.payloads, staged.payload.source.Steady
  built : artifact.build.1 = .ok archive
  fits : archive.length < Tar.Numeral.wordLimit

theorem BuiltAs.parts {artifact : Artifact} {archive : Bytes}
    (built : artifact.BuiltAs archive) :
    ∃ header archives bytes, artifact.header.assemble artifact.options = .ok header ∧
      Packs artifact.options Payload.content artifact.payloads archives ∧
      Container.encodeAll artifact.options.ownerName (artifact.outerFiles header archives) =
        .ok bytes ∧
      bytes.length < Tar.Numeral.wordLimit ∧
      archive = bytes ++ Bytes.zeros (2 * Tar.blockSize) := by
  obtain ⟨header, archives, bytes, assembled, packs, encoded, rfl, _⟩ :=
    build_ok built.reachable.addressed built.built built.fits
  have fits := built.fits
  rw [List.length_append] at fits
  have same : ∀ staged ∈ artifact.payloads,
      staged.payload.copied = staged.payload.content :=
    fun staged member => (Payload.copied_of_steady (built.steady staged member)).2
  refine ⟨header, archives, bytes, assembled, ?_, encoded, by omega, rfl⟩
  apply ((List.forall₂_and_left artifact.payloads archives).mpr ⟨same, packs⟩).imp
  intro staged archive both
  rw [← both.1]
  exact both.2

/-- Builds whose payloads differ in no more than one entry, and whose manifests differ in no
more than one line. -/
theorem BuiltAs.sameBut {left right : Artifact} {leftArchive rightArchive : Bytes}
    (leftBuilt : left.BuiltAs leftArchive) (rightBuilt : right.BuiltAs rightArchive)
    {entry line : String} (options : ∃ block, left.options =
      { right.options with readBlockSize := block })
    (pairs : List.Forall₂
      (fun first second => first.entry = second.entry ∧
        (first.entry.archiveName ∉ [Manifest.entryName, entry] →
          first.payload.content = second.payload.content))
      left.payloads right.payloads)
    (parts : ∀ leftHeader rightHeader,
      left.header.assemble left.options = .ok leftHeader →
        right.header.assemble right.options = .ok rightHeader →
          (Manifest.headerName ≠ entry → leftHeader = rightHeader) ∧
            ∃ front back former latter,
              left.lines leftHeader = front ++ { checksum := former, name := line } :: back ∧
                right.lines rightHeader =
                  front ++ { checksum := latter, name := line } :: back) :
    SameBut (outerNames left.payloads.length) (Manifest.order left.entryNames) entry line
      leftArchive rightArchive := by
  obtain ⟨leftHeader, leftArchives, leftBytes, leftAssembled, leftPacks, leftEncoded, leftFits,
    rfl⟩ := leftBuilt.parts
  obtain ⟨rightHeader, rightArchives, rightBytes, rightAssembled, rightPacks, rightEncoded,
    rightFits, rfl⟩ := rightBuilt.parts
  obtain ⟨headers, front, back, former, latter, leftLines, rightLines⟩ :=
    parts _ _ leftAssembled rightAssembled
  have names := names_outerFiles leftBuilt.reachable.addressed leftPacks leftHeader
  obtain ⟨block, options⟩ := options
  have owner : left.options.ownerName = right.options.ownerName := by
    rw [options]
  have version := version_of_options options
  rw [options] at leftPacks
  have archives := agree_archiveFiles pairs
    (show Packs right.options Payload.content left.payloads leftArchives from leftPacks)
    rightPacks
  have agree : AgreeOutside [Manifest.entryName, entry]
      (left.outerFiles leftHeader leftArchives)
      (right.outerFiles rightHeader rightArchives) := by
    simp only [outerFiles, openingFiles, version, List.cons_append, List.nil_append]
    refine List.Forall₂.cons ⟨rfl, fun _ => rfl⟩ (List.Forall₂.cons ⟨rfl, ?_⟩
      (List.Forall₂.cons ⟨rfl, ?_⟩ archives))
    · intro outside
      simp at outside
    · intro outside
      rw [List.mem_cons, List.mem_singleton, not_or] at outside
      exact headers outside.2
  exact sameBut_of_agree owner names agree leftLines rightLines leftEncoded rightEncoded
    leftFits rightFits

theorem SameInputs.assemble_eq {left right : Artifact} (same : left.SameInputs right)
    (leftAddressed : left.Addressed) (rightAddressed : right.Addressed) :
    left.header.assemble left.options = right.header.assemble right.options := by
  obtain ⟨block, options⟩ := same.options_eq
  rw [HeaderArchive.assemble_eq _ (left.entryNames_header ▸ leftAddressed.distinct),
    HeaderArchive.assemble_eq _ (right.entryNames_header ▸ rightAddressed.distinct),
    same.files_eq leftAddressed rightAddressed, options]
  rfl

omit [Deflate] in
theorem lines_of_aside {left right : List StagedPayload} {place : Nat}
    (inLeft : place < left.length) (inRight : place < right.length)
    (entries : List.Forall₂ (fun first second => first.entry = second.entry) left right)
    (contents : ∀ other, other ≠ place →
      (left.map (·.payload.content))[other]? = (right.map (·.payload.content))[other]?) :
    ∃ front back, left.map StagedPayload.line = front ++ left[place].line :: back ∧
      right.map StagedPayload.line = front ++ right[place].line :: back := by
  have named := congrArg (List.map PayloadEntry.entryName) (map_eq_map_iff_forall₂.mpr entries)
  rw [List.map_map, List.map_map] at named
  have agree : ∀ other, other ≠ place →
      (left.map StagedPayload.line)[other]? = (right.map StagedPayload.line)[other]? := by
    intro other different
    have name := congrArg (·[other]?) named
    have content := contents other different
    simp only [List.getElem?_map] at name content ⊢
    generalize left[other]? = former at name content ⊢
    generalize right[other]? = latter at name content ⊢
    cases former with
    | none =>
        cases latter with
        | none => rfl
        | some second => cases name
    | some first =>
        cases latter with
        | none => cases name
        | some second =>
            simp only [Option.map_some, Option.some.injEq, Function.comp_apply] at name content ⊢
            rw [StagedPayload.line, StagedPayload.line, name, content]
  obtain ⟨front, back, leftLines, rightLines⟩ := split_of_agree
    (by rwa [List.length_map]) (by rwa [List.length_map]) agree
  rw [List.getElem_map] at leftLines rightLines
  exact ⟨front, back, leftLines, rightLines⟩

omit [Deflate] in
theorem contents_of_aside {left right : Artifact} {place : Nat} (addressed : left.Addressed)
    (entries : List.Forall₂ (fun first second => first.entry = second.entry) left.payloads
      right.payloads)
    (contents : ∀ other, other ≠ place →
      (left.payloads.map (·.payload.content))[other]? =
        (right.payloads.map (·.payload.content))[other]?) :
    List.Forall₂
      (fun first second => first.entry = second.entry ∧
        (first.entry.archiveName ≠ archiveNameOf place →
          first.payload.content = second.payload.content))
      left.payloads right.payloads := by
  rw [List.forall₂_iff_get] at entries ⊢
  refine ⟨entries.1, fun other inLeft inRight => ⟨entries.2 other inLeft inRight, ?_⟩⟩
  intro outside
  have different : other ≠ place := by
    rintro rfl
    exact outside (congrArg archiveNameOf (addressed.index_eq inLeft))
  have both := contents other different
  simp only [List.getElem?_map, List.getElem?_eq_getElem inLeft,
    List.getElem?_eq_getElem inRight, Option.map_some, Option.some.injEq] at both
  exact both

omit [Deflate] in
theorem lines_eq {artifact : Artifact} (header : Bytes) {front back : List Manifest.Line}
    {line : Manifest.Line}
    (split : artifact.payloads.map StagedPayload.line = front ++ line :: back) :
    artifact.lines header =
      back.reverse ++ line :: (front.reverse ++ artifact.openingLines header) := by
  rw [Artifact.lines, split, List.reverse_append, List.reverse_cons, List.append_assoc,
    List.append_assoc]
  rfl

/-- A change of one payload's content shows in its entry and in its line of the manifest. -/
private theorem sameBut_of_contents {left right : Artifact} {place : Nat}
    {leftArchive rightArchive : Bytes} (inRange : place < left.payloads.length)
    (leftBuilt : left.BuiltAs leftArchive) (rightBuilt : right.BuiltAs rightArchive)
    (same : left.SameInputs right)
    (contents : ∀ other, other ≠ place →
      (left.payloads.map (·.payload.content))[other]? =
        (right.payloads.map (·.payload.content))[other]?) :
    SameBut (outerNames left.payloads.length) (Manifest.order left.entryNames)
      (archiveNameOf place) left.payloads[place].entry.entryName leftArchive rightArchive := by
  have leftAddressed := leftBuilt.reachable.addressed
  have rightAddressed := rightBuilt.reachable.addressed
  have entries := same.entries_eq leftAddressed rightAddressed
  apply leftBuilt.sameBut rightBuilt same.options_eq
  · refine (contents_of_aside leftAddressed entries contents).imp ?_
    rintro first second ⟨entry, content⟩
    refine ⟨entry, fun outside => content ?_⟩
    rintro same
    exact outside (by simp [same])
  · intro header headerToo assembled assembledToo
    rw [same.assemble_eq leftAddressed rightAddressed, assembledToo, Except.ok.injEq]
      at assembled
    subst assembled
    refine ⟨fun _ => rfl, ?_⟩
    have inRight : place < right.payloads.length := entries.length_eq ▸ inRange
    have entry : left.payloads[place].entry = right.payloads[place].entry :=
      (List.forall₂_iff_get.mp entries).2 place inRange inRight
    have opening : left.openingLines headerToo = right.openingLines headerToo := by
      obtain ⟨block, options⟩ := same.options_eq
      rw [openingLines, openingLines, version_of_options options]
    obtain ⟨front, back, leftLines, rightLines⟩ :=
      lines_of_aside inRange inRight entries contents
    have later := lines_eq headerToo rightLines
    rw [StagedPayload.line, ← entry, ← opening] at later
    exact ⟨_, _, _, _, lines_eq headerToo leftLines, later⟩

/-- What is said in the header archive shows there and in its line of the manifest. -/
private theorem sameBut_of_files {left right : Artifact} {leftArchive rightArchive : Bytes}
    (leftBuilt : left.BuiltAs leftArchive) (rightBuilt : right.BuiltAs rightArchive)
    (same : left.SameFiles right) :
    SameBut (outerNames left.payloads.length) (Manifest.order left.entryNames)
      Manifest.headerName Manifest.headerName leftArchive rightArchive := by
  have entries := leftBuilt.reachable.addressed.entries_eq rightBuilt.reachable.addressed
    same.basenames_eq
  have contents := map_eq_map_iff_forall₂.mp same.contents_eq
  obtain ⟨block, options⟩ := same.options_eq
  have version := version_of_options options
  have lines : left.payloads.map StagedPayload.line = right.payloads.map StagedPayload.line := by
    rw [map_eq_map_iff_forall₂]
    refine List.Forall₂.mp ?_ entries contents
    intro first second entry content
    rw [StagedPayload.line, StagedPayload.line, entry, content]
  apply leftBuilt.sameBut rightBuilt same.options_eq
  · refine List.Forall₂.mp ?_ entries contents
    exact fun first second entry content => ⟨entry, fun _ => content⟩
  · intro leftHeader rightHeader _ _
    refine ⟨fun different => (different rfl).elim, ?_⟩
    rw [Artifact.lines, Artifact.lines, lines, version]
    exact ⟨_, _, _, _, rfl, rfl⟩

/-- What may differ between two artifacts: the content of one payload, or what is said of
the artifact and of its payloads.  Either shows in one entry and in one line. -/
inductive Change (left right : Artifact) : String → String → Prop
  | content (place : Nat) (inRange : place < left.payloads.length)
      (same : left.SameInputs right)
      (contents : ∀ other, other ≠ place →
        (left.payloads.map (·.payload.content))[other]? =
          (right.payloads.map (·.payload.content))[other]?) :
      Change left right (archiveNameOf place) left.payloads[place].entry.entryName
  | description (same : left.SameFiles right) :
      Change left right Manifest.headerName Manifest.headerName

/-- Changes stay local.  Of two archives all other entries are the same, and in the
manifest all but the checksum of one line. -/
theorem changes_stay_local {left right : Artifact} {entry line : String}
    {leftArchive rightArchive : Bytes} (leftBuilt : left.BuiltAs leftArchive)
    (rightBuilt : right.BuiltAs rightArchive) (change : Change left right entry line) :
    SameBut (outerNames left.payloads.length) (Manifest.order left.entryNames) entry line
      leftArchive rightArchive := by
  cases change with
  | content place inRange same contents =>
      exact sameBut_of_contents inRange leftBuilt rightBuilt same contents
  | description same => exact sameBut_of_files leftBuilt rightBuilt same

end

theorem builtAs_single {source : Source} {content : Bytes} (delivers : source.Delivers content)
    (small : content.length ≤ 1000) :
    ∃ archive, (single source single.valid_image).BuiltAs archive := by
  have whole : ({ source, name := some "image" } : Payload).source.Delivers content := delivers
  obtain ⟨readable, _, copied⟩ := Payload.readable_of_delivers whole
  obtain ⟨archive, built, fits⟩ := single.builds source single.valid_image readable
    (by decide) (by decide) (by rw [copied]; exact small)
  refine ⟨archive, single.reachable _ _, ?_, built, fits⟩
  intro staged member
  rw [List.mem_singleton.mp member]
  exact delivers.steady

theorem changes_stay_local_image :
    ∃ archive other described,
      (single single.pieced single.valid_image).build.1 = .ok archive ∧
        (single (.ofBytes [7]) single.valid_image).build.1 = .ok other ∧
        SameBut ["version", "manifest", "header.tar.gz", "data/0000.tar.gz"]
          ["data/0000/image", "header.tar.gz", "version"] "data/0000.tar.gz" "data/0000/image"
          archive other ∧
        single.described.build.1 = .ok described ∧
        SameBut ["version", "manifest", "header.tar.gz", "data/0000.tar.gz"]
          ["data/0000/image", "header.tar.gz", "version"] "header.tar.gz" "header.tar.gz"
          archive described := by
  obtain ⟨archive, built⟩ := builtAs_single single.delivers_pieced (by decide)
  have delivers : (Source.ofBytes [7]).Delivers [7] := by
    simp [Source.Delivers, Source.ofBytes, Pass.delivered, Pass.failure?]
  obtain ⟨other, otherBuilt⟩ := builtAs_single delivers (by decide)
  obtain ⟨described, builtDescribed, fits⟩ := builds_described
  have describedBuilt : single.described.BuiltAs described := by
    refine ⟨single.reachable_described, ?_, builtDescribed, fits⟩
    intro staged member
    rw [List.mem_singleton.mp member]
    exact single.delivers_pieced.steady
  have same : (single single.pieced single.valid_image).SameInputs
      (single (.ofBytes [7]) single.valid_image) :=
    ⟨rfl, rfl, rfl, rfl, rfl, rfl, rfl, _, rfl⟩
  have inRange : 0 < (single single.pieced single.valid_image).payloads.length :=
    Nat.zero_lt_one
  have content := Change.content 0 inRange same
    fun place different => by
      cases place with
      | zero => contradiction
      | succ place => rfl
  have description : Change (single single.pieced single.valid_image) single.described
      Manifest.headerName Manifest.headerName :=
    .description ⟨rfl, rfl, _, rfl⟩
  have names : outerNames 1 = ["version", "manifest", "header.tar.gz", "data/0000.tar.gz"] := by
    decide
  have lines : Manifest.order [(PayloadEntry.first single.valid_image).entryName] =
      ["data/0000/image", "header.tar.gz", "version"] := by
    decide
  have entry : archiveNameOf 0 = "data/0000.tar.gz" := by
    decide
  have line : (PayloadEntry.first single.valid_image).entryName = "data/0000/image" := by
    decide
  have first : SameBut (outerNames 1)
      (Manifest.order [(PayloadEntry.first single.valid_image).entryName]) (archiveNameOf 0)
      (PayloadEntry.first single.valid_image).entryName archive other :=
    changes_stay_local built otherBuilt content
  have second : SameBut (outerNames 1)
      (Manifest.order [(PayloadEntry.first single.valid_image).entryName]) Manifest.headerName
      Manifest.headerName archive described :=
    changes_stay_local built describedBuilt description
  rw [names, lines] at first second
  rw [entry, line] at first
  exact ⟨archive, other, described, built.built, otherBuilt.built, first, builtDescribed, second⟩

end Artifact

end UpdateArtifact
