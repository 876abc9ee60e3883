import UpdateArtifact.Proofs.Documents
import UpdateArtifact.Proofs.HeaderFiles
import UpdateArtifact.Proofs.Json.Printing
import UpdateArtifact.Proofs.Reproducible

/-!
# What an archive tells

What was put into an artifact comes back from the documents, the names of the files and
the archives of the payloads.  So two artifacts that are built to the same bytes agree in
all that the bytes are made of.
-/

namespace UpdateArtifact

open Tar (Container)

/-- Metadata all of whose numbers are whole. -/
def Metadata.Integral (metadata : Metadata) : Prop :=
  ∀ member ∈ metadata.members, member.2.Integral

theorem Metadata.Integral.toJson {metadata : Metadata} (integral : metadata.Integral) :
    metadata.toJson.Integral :=
  .object integral

theorem Metadata.toJson_injective : Function.Injective Metadata.toJson := by
  rintro ⟨members, _⟩ ⟨others, _⟩ same
  cases same
  rfl

namespace HeaderArchive

theorem document_injective {left right : Json} (integral : left.Integral)
    (alsoIntegral : right.Integral) (same : document left = document right) : left = right :=
  Json.compact_injective integral alsoIntegral (Bytes.utf8_injective same)

theorem map_document_injective {left right : List Json}
    (integral : ∀ value ∈ left, value.Integral) (alsoIntegral : ∀ value ∈ right, value.Integral)
    (same : left.map document = right.map document) : left = right := by
  induction left generalizing right with
  | nil => exact (List.map_eq_nil_iff.mp same.symm).symm
  | cons value rest ih =>
      cases right with
      | nil => cases same
      | cons other others =>
          rw [List.map_cons, List.map_cons, List.cons.injEq] at same
          rw [List.forall_mem_cons] at integral alsoIntegral
          rw [document_injective integral.1 alsoIntegral.1 same.1,
            ih integral.2 alsoIntegral.2 same.2]

/-- A type-info tells what its payload says, and missing metadata from empty one. -/
theorem typeInfo_injective {left right : Payload} (same : typeInfo left = typeInfo right) :
    left.type = right.type ∧ left.depends = right.depends ∧ left.provides = right.provides := by
  have type (payload : Payload) :
      (typeInfo payload).member? "type" = some (.string payload.type) := rfl
  have types := type left
  rw [same, type right] at types
  have metadata (side : Side) : left.metadata side = right.metadata side := by
    have members := member?_typeInfo left side
    rw [same, member?_typeInfo right side] at members
    exact (Option.map_injective Metadata.toJson_injective members).symm
  exact ⟨(Json.string.inj (Option.some.inj types)).symm, metadata .depends, metadata .provides⟩

theorem info_injective {left right : HeaderArchive} (same : left.info = right.info) :
    left.payloads.length = right.payloads.length ∧ left.provides = right.provides ∧
      left.depends = right.depends := by
  simp only [info, Json.object.injEq, List.cons.injEq, Prod.mk.injEq, true_and, and_true,
    Json.array.injEq] at same
  obtain ⟨payloads, provides, depends⟩ := same
  have length := congrArg List.length payloads
  rw [List.length_map, List.length_map] at length
  exact ⟨length, Metadata.toJson_injective provides, Metadata.toJson_injective depends⟩

theorem integral_typeInfo {payload : Payload}
    (integral : ∀ side, ∀ metadata ∈ payload.metadata side, metadata.Integral) :
    (typeInfo payload).Integral := by
  apply Json.Integral.object
  intro member listed
  rcases List.mem_append.mp listed with front | provides
  · rcases List.mem_cons.mp front with rfl | depends
    · exact .string _
    · obtain ⟨metadata, set, rfl⟩ := Option.map_eq_some_iff.mp (Option.mem_toList.mp depends)
      exact (integral .depends metadata set).toJson
  · obtain ⟨metadata, set, rfl⟩ := Option.map_eq_some_iff.mp (Option.mem_toList.mp provides)
    exact (integral .provides metadata set).toJson

theorem integral_info {header : HeaderArchive} (provides : header.provides.Integral)
    (depends : header.depends.Integral) : header.info.Integral := by
  apply Json.Integral.object
  intro member listed
  simp only [List.mem_cons, List.not_mem_nil, or_false] at listed
  rcases listed with rfl | rfl | rfl
  · apply Json.Integral.array
    intro item member
    obtain ⟨payload, _, rfl⟩ := List.mem_map.mp member
    apply Json.Integral.object
    intro member listed
    rw [List.mem_singleton.mp listed]
    exact .string _
  · exact provides.toJson
  · exact depends.toJson

theorem length_payloadFiles (payloads : List (PayloadEntry × Payload)) :
    (payloadFiles payloads).length = 2 * payloads.length := by
  induction payloads with
  | nil => rfl
  | cons staged rest ih =>
      rw [payloadFiles, List.flatMap_cons, List.length_append, ← payloadFiles, ih,
        List.length_cons]
      simp only [List.length_cons, List.length_nil]
      omega

theorem documents_of_payloadFiles {left right : List (PayloadEntry × Payload)}
    (same : payloadFiles left = payloadFiles right) :
    left.map (fun (_, payload) => document (typeInfo payload)) =
      right.map fun (_, payload) => document (typeInfo payload) := by
  induction left generalizing right with
  | nil =>
      cases right with
      | nil => rfl
      | cons other others => cases same
  | cons staged rest ih =>
      cases right with
      | nil => cases same
      | cons other others =>
          simp only [payloadFiles, List.flatMap_cons, List.cons_append, List.nil_append,
            List.cons.injEq, Prod.mk.injEq] at same
          simp only [List.map_cons, same.1.2, ih same.2.2]

theorem files_injective {left right : HeaderArchive}
    (integral : ∀ document ∈ left.documents, document.Integral)
    (alsoIntegral : ∀ document ∈ right.documents, document.Integral)
    (same : left.files = right.files) :
    left.documents = right.documents ∧ left.scripts = right.scripts := by
  rw [documents, List.forall_mem_cons] at integral alsoIntegral
  rw [files_eq, files_eq, List.cons.injEq, Prod.mk.injEq] at same
  obtain ⟨⟨_, infos⟩, others⟩ := same
  have info := document_injective integral.1 alsoIntegral.1 infos
  -- As many payloads on both sides, so that the scripts end at the same place.
  have length : (payloadFiles left.payloads).length = (payloadFiles right.payloads).length := by
    rw [length_payloadFiles, length_payloadFiles, (info_injective info).1]
  obtain ⟨scripts, payloads⟩ := List.append_inj' others length
  constructor
  · rw [documents, documents, info]
    congr 1
    apply map_document_injective integral.2 alsoIntegral.2
    simpa only [List.map_map, Function.comp_def] using documents_of_payloadFiles payloads
  · refine List.map_injective_iff.mpr ?_ scripts
    rintro ⟨state, content⟩ ⟨other, data⟩ equal
    rw [Prod.mk.injEq] at equal
    exact Prod.ext (ScriptState.path_injective equal.1) equal.2

end HeaderArchive

namespace Artifact

/-- Artifacts all of whose metadata has whole numbers only. -/
structure Integral (artifact : Artifact) : Prop where
  extra : ∀ side, (artifact.extra side).Integral
  payloads : ∀ staged ∈ artifact.payloads, ∀ side,
    ∀ metadata ∈ staged.payload.metadata side, metadata.Integral

theorem integral_ownMembers (artifact : Artifact) (side : Side) :
    ∀ member ∈ artifact.ownMembers side, member.2.Integral := by
  intro member listed
  cases side with
  | provides =>
      rcases List.mem_cons.mp listed with rfl | group
      · exact .string _
      · cases set : artifact.group with
        | none => simp [set] at group
        | some name =>
            simp only [set, Option.elim_some, List.mem_singleton] at group
            rw [group]
            exact .string _
  | depends =>
      rw [ownMembers, List.mem_singleton] at listed
      rw [listed]
      apply Json.Integral.array
      intro item member
      obtain ⟨device, _, rfl⟩ := List.mem_map.mp member
      exact .string _

theorem integral_documents {artifact : Artifact} (integral : artifact.Integral)
    (valid : artifact.Valid) :
    ∀ document ∈ artifact.header.documents, document.Integral := by
  have published (side : Side) : (artifact.published side).Integral := by
    intro member listed
    rw [members_published (valid.extraApart side)] at listed
    rcases List.mem_append.mp listed with own | extra
    · exact artifact.integral_ownMembers side member own
    · exact integral.extra side member extra
  intro document member
  rcases List.mem_cons.mp member with rfl | typeInfo
  · exact HeaderArchive.integral_info (published .provides) (published .depends)
  · simp only [header, List.map_map, List.mem_map, Function.comp_apply] at typeInfo
    obtain ⟨staged, inPayloads, rfl⟩ := typeInfo
    exact HeaderArchive.integral_typeInfo (integral.payloads staged inPayloads)

theorem version_injective {left right : Artifact}
    (same : HeaderArchive.document left.version = HeaderArchive.document right.version) :
    left.options.formatVersion = right.options.formatVersion := by
  have integral (artifact : Artifact) : artifact.version.Integral := by
    apply Json.Integral.object
    intro member listed
    simp only [List.mem_cons, List.not_mem_nil, or_false] at listed
    rcases listed with rfl | rfl
    · exact .string _
    · exact .whole _
  have versions := HeaderArchive.document_injective (integral left) (integral right) same
  simpa [version, Json.whole] using versions

theorem named_of_info {left right : Artifact} (leftValid : left.Valid)
    (rightValid : right.Valid) (info : left.header.info = right.header.info) :
    left.name = right.name ∧ left.deviceTypes = right.deviceTypes := by
  have names := valueOn?_info (leftValid.extraApart .provides) List.mem_cons_self
  have devices := valueOn?_info (leftValid.extraApart .depends) List.mem_cons_self
  rw [info] at names devices
  rw [valueOn?_info (rightValid.extraApart .provides) List.mem_cons_self] at names
  rw [valueOn?_info (rightValid.extraApart .depends) List.mem_cons_self] at devices
  have strings := Json.array.inj (Option.some.inj devices)
  exact ⟨(Json.string.inj (Option.some.inj names)).symm,
    (List.map_injective_iff.mpr (fun _ _ => Json.string.inj) strings).symm⟩

/-- The documents and the names of the files tell what the payloads say. -/
theorem labels_of_documents {left right : Artifact}
    (documents : left.header.documents = right.header.documents)
    (basenames : List.Forall₂
      (fun first second => first.entry.basename = second.entry.basename)
      left.payloads right.payloads) :
    left.payloads.map StagedPayload.label = right.payloads.map StagedPayload.label := by
  simp only [HeaderArchive.documents, List.cons.injEq, header, List.map_map,
    Function.comp_def] at documents
  rw [map_eq_map_iff_forall₂]
  refine List.Forall₂.mp ?_ basenames (map_eq_map_iff_forall₂.mp documents.2)
  intro first second basename typeInfo
  obtain ⟨type, depends, provides⟩ := HeaderArchive.typeInfo_injective typeInfo
  simp only [StagedPayload.label, basename, type, depends, provides]

end Artifact

section

variable [Deflate]

/-- An archive whose length is a word, as are the lengths of the archives in it. -/
def Tar.WordSized (archive : Bytes) : Prop :=
  archive.length < Numeral.wordLimit ∧
    ∀ files ∈ unpack? archive, ∀ file ∈ files, ∀ inner ∈ Gzip.decode? file.2,
      inner.length < Numeral.wordLimit

theorem named_of_holdsOnly {left right : List StagedPayload} {archives : List Bytes}
    (fits : ∀ archive ∈ archives, ∀ inner ∈ Gzip.decode? archive,
      inner.length < Tar.Numeral.wordLimit)
    (leftHolds : List.Forall₂
      (fun staged archive =>
        Container.HoldsOnly archive staged.entry.basename staged.payload.copied) left archives)
    (rightHolds : List.Forall₂
      (fun staged archive =>
        Container.HoldsOnly archive staged.entry.basename staged.payload.copied)
      right archives) :
    List.Forall₂ (fun first second => first.entry.basename = second.entry.basename) left right ∧
      left.map (·.payload.copied) = right.map (·.payload.copied) := by
  induction leftHolds generalizing right with
  | nil =>
      cases rightHolds
      exact ⟨.nil, rfl⟩
  | cons only _ ih =>
      cases rightHolds with
      | cons again others =>
          have same := Container.Holds.unique (fits _ List.mem_cons_self) only.holds again.holds
          rw [List.cons.injEq, Prod.mk.injEq] at same
          obtain ⟨names, data⟩ :=
            ih (fun archive member => fits archive (List.mem_cons_of_mem _ member)) others
          exact ⟨.cons same.1.1 names, by rw [List.map_cons, List.map_cons, same.1.2, data]⟩

namespace Artifact

omit [Deflate] in
theorem data_contents (artifact : Artifact) (header : Bytes) {archives : List Bytes}
    (count : artifact.payloads.length = archives.length) :
    (artifact.contents header archives).map Prod.snd =
      [HeaderArchive.document artifact.version,
        (artifact.manifestText header).flatMap Bytes.utf8, header] ++ archives := by
  rw [contents, List.map_snd_zip]
  simp only [outerNames, List.length_append, List.length_map, List.length_range, count,
    List.length_cons, List.length_nil]
  omega

theorem owner_of_build {artifact : Artifact} (addressed : artifact.Addressed) {archive : Bytes}
    (built : artifact.build.1 = .ok archive) (fits : archive.length < Tar.Numeral.wordLimit) :
    (Bytes.slice 265 32 archive).takeWhile (· ≠ 0) = Bytes.utf8 artifact.options.ownerName := by
  obtain ⟨header, archives, bytes, _, _, encoded, rfl, _⟩ := build_ok addressed built fits
  exact Tar.owner_of_encodeAll (by decide : Container.Short Manifest.versionName) encoded _

/-- What a reader finds in an archive, down to the files of the archives in it. -/
theorem data_of_build {artifact : Artifact} (addressed : artifact.Addressed) {archive : Bytes}
    (built : artifact.build.1 = .ok archive) (sized : Tar.WordSized archive) :
    ∃ header archives,
      (Tar.unpack? archive).map (List.map Prod.snd) =
          some ([HeaderArchive.document artifact.version,
            (artifact.manifestText header).flatMap Bytes.utf8, header] ++ archives) ∧
        Container.Holds header artifact.header.files ∧
        List.Forall₂
          (fun staged inner =>
            Container.HoldsOnly inner staged.entry.basename staged.payload.copied)
          artifact.payloads archives ∧
        ∀ data ∈ header :: archives, ∀ inner ∈ Gzip.decode? data,
          inner.length < Tar.Numeral.wordLimit := by
  obtain ⟨header, archives, assembled, unpacked, holds, _⟩ :=
    unpack?_of_build addressed built sized.1
  have data := artifact.data_contents header holds.length_eq
  refine ⟨header, archives, by rw [unpacked, Option.map_some, data],
    HeaderArchive.holds_of_assemble (artifact.entryNames_header ▸ addressed.distinct) assembled,
    holds, ?_⟩
  intro bytes member
  have listed : bytes ∈ (artifact.contents header archives).map Prod.snd := by
    rw [data]
    exact List.mem_cons_of_mem _ (List.mem_cons_of_mem _ member)
  obtain ⟨file, inContents, rfl⟩ := List.mem_map.mp listed
  exact sized.2 _ unpacked file inContents

/-- Artifacts that are built to the same bytes were made of the same: the archive tells
the options that show in it, the documents, the scripts, and the payloads with their
contents. -/
theorem build_faithful {left right : Artifact} {archive : Bytes}
    (leftReachable : left.Reachable) (rightReachable : right.Reachable)
    (leftSteady : ∀ staged ∈ left.payloads, staged.payload.source.Steady)
    (rightSteady : ∀ staged ∈ right.payloads, staged.payload.source.Steady)
    (leftIntegral : left.Integral) (rightIntegral : right.Integral)
    (leftBuilt : left.build.1 = .ok archive) (rightBuilt : right.build.1 = .ok archive)
    (sized : Tar.WordSized archive) :
    left.options.formatVersion = right.options.formatVersion ∧
      left.options.ownerName = right.options.ownerName ∧
      left.allProvides = right.allProvides ∧ left.allDepends = right.allDepends ∧
      left.name = right.name ∧ left.deviceTypes = right.deviceTypes ∧
      left.scripts = right.scripts ∧
      left.payloads.map StagedPayload.label = right.payloads.map StagedPayload.label ∧
      left.payloads.map (·.payload.content) = right.payloads.map (·.payload.content) := by
  have leftValid := leftReachable.valid_of_build leftBuilt
  have rightValid := rightReachable.valid_of_build rightBuilt
  obtain ⟨header, archives, data, leftFiles, leftHolds, fits⟩ :=
    data_of_build leftReachable.addressed leftBuilt sized
  obtain ⟨other, others, again, rightFiles, rightHolds, _⟩ :=
    data_of_build rightReachable.addressed rightBuilt sized
  rw [data] at again
  simp only [List.cons_append, List.nil_append, Option.some.injEq, List.cons.injEq] at again
  obtain ⟨versions, _, rfl, rfl⟩ := again
  obtain ⟨documents, scripts⟩ := HeaderArchive.files_injective
    (integral_documents leftIntegral leftValid) (integral_documents rightIntegral rightValid)
    (leftFiles.unique (fits header List.mem_cons_self) rightFiles)
  have info := (List.cons.inj documents).1
  obtain ⟨_, provides, depends⟩ := HeaderArchive.info_injective info
  obtain ⟨name, deviceTypes⟩ := named_of_info leftValid rightValid info
  obtain ⟨basenames, copied⟩ := named_of_holdsOnly
    (fun archive member => fits archive (List.mem_cons_of_mem _ member)) leftHolds rightHolds
  have owners := owner_of_build leftReachable.addressed leftBuilt sized.1
  rw [owner_of_build rightReachable.addressed rightBuilt sized.1] at owners
  have contents : left.payloads.map (·.payload.content) =
      right.payloads.map (·.payload.content) := by
    rw [← List.map_congr_left fun staged member =>
        (Payload.copied_of_steady (leftSteady staged member)).2,
      ← List.map_congr_left fun staged member =>
        (Payload.copied_of_steady (rightSteady staged member)).2, copied]
  exact ⟨version_injective versions, Bytes.utf8_injective owners.symm, provides, depends, name,
    deviceTypes, scripts, labels_of_documents documents basenames, contents⟩

end Artifact

end

theorem Gzip.length_le_of_decode? {stream content : Bytes}
    (decoded : Gzip.decode? stream = some content) : content.length ≤ stream.length := by
  unfold Gzip.decode? at decoded
  split at decoded
  · next text =>
      split at decoded
      · next found rest body =>
          split at decoded
          · cases decoded
            have bound := Deflate.Stored.length_le_of_readBody? body
            simp only [List.length_cons]
            omega
          · cases decoded
      · cases decoded
  · cases decoded

namespace Artifact

theorem wordSized_of_build {artifact : Artifact} (addressed : artifact.Addressed)
    {archive : Bytes} (built : artifact.build.1 = .ok archive)
    (fits : archive.length < Tar.Numeral.wordLimit) : Tar.WordSized archive := by
  refine ⟨fits, ?_⟩
  obtain ⟨header, archives, bytes, _, _, encoded, rfl, _⟩ := build_ok addressed built fits
  rw [List.length_append] at fits
  have unpacked := Tar.unpack?_of_encodeAll (artifact.plain_outerFiles header archives) encoded
    (by omega)
  intro files found file member inner decoded
  rw [unpacked] at found
  cases found
  obtain ⟨outer, inOuter, rfl⟩ := List.mem_map.mp member
  have whole := Container.length_le_of_encodeAll encoded outer inOuter
  have part := Gzip.length_le_of_decode? decoded
  simp only at part
  omega

theorem build_faithful_image :
    ∃ archive,
      (single single.pieced single.valid_image).build.1 = .ok archive ∧
        (single (.ofBytes [1, 2, 3]) single.valid_image).build.1 = .ok archive ∧
        (single single.pieced single.valid_image).payloads.map (·.payload.content) =
          (single (.ofBytes [1, 2, 3]) single.valid_image).payloads.map
            (·.payload.content) := by
  have reachable (source : Source) := single.reachable source single.valid_image
  have delivers : (Source.ofBytes [1, 2, 3]).Delivers [1, 2, 3] := by
    simp [Source.Delivers, Source.ofBytes, Pass.delivered, Pass.failure?]
  have same : (single single.pieced single.valid_image).SameInputs
      (single (.ofBytes [1, 2, 3]) single.valid_image) :=
    ⟨rfl, rfl, rfl, rfl, rfl, rfl, rfl, _, rfl⟩
  have outcome := build_of_repeats same (reachable _).addressed (reachable _).addressed
    (by decide) (by decide) (.cons ⟨_, Payload.repeats_of_delivers single.delivers_pieced,
      Payload.repeats_of_delivers delivers⟩ .nil)
  obtain ⟨archive, built, fits⟩ := single.builds single.pieced single.valid_image
    (single.read_pieced "image").1 (by decide) (by decide) (by decide)
  have steady {source : Source} (steady : source.Steady) :
      ∀ staged ∈ (single source single.valid_image).payloads, staged.payload.source.Steady := by
    intro staged member
    rw [List.mem_singleton.mp member]
    exact steady
  have integral (source : Source) : (single source single.valid_image).Integral := by
    constructor
    · intro side member listed
      cases side <;> cases listed
    · intro staged member side metadata set
      rw [List.mem_singleton.mp member] at set
      cases side <;> cases set
  obtain ⟨_, _, _, _, _, _, _, _, contents⟩ := build_faithful (reachable _) (reachable _)
    (steady single.delivers_pieced.steady) (steady delivers.steady) (integral _) (integral _)
    built (outcome ▸ built) (wordSized_of_build (reachable _).addressed built fits)
  exact ⟨archive, built, outcome ▸ built, contents⟩

end Artifact

end UpdateArtifact
