import Mathlib.Data.List.Forall2
import UpdateArtifact.Proofs.Opening

/-!
# What an artifact is made of

Validation and all that is written before the payloads depend on what was put into an
artifact, and neither on the contents of its payloads nor on the size of the blocks in
which these are read.  Building leaves what was put in as it is.
-/

namespace UpdateArtifact

open Tar (Container)

theorem PayloadEntry.eq_of_index_of_basename {left right : PayloadEntry}
    (index : left.index = right.index) (basename : left.basename = right.basename) :
    left = right := by
  cases left
  cases right
  cases index
  cases basename
  rfl

theorem map_eq_map_iff_forall₂ {α β : Type} {view : α → β} {left right : List α} :
    left.map view = right.map view ↔
      List.Forall₂ (fun first second => view first = view second) left right := by
  rw [← List.forall₂_eq_eq_eq, List.forall₂_map_left_iff, List.forall₂_map_right_iff]

/-- What a payload says, whatever its source holds. -/
structure Label where
  basename : String
  type : String
  depends : Option Metadata
  provides : Option Metadata

namespace StagedPayload

def label (staged : StagedPayload) : Label :=
  { basename := staged.entry.basename
    type := staged.payload.type
    depends := staged.payload.depends
    provides := staged.payload.provides }

theorem map_of_labels {β : Type} {left right : List StagedPayload}
    (same : left.map label = right.map label) (view : Label → β) :
    (left.map fun staged => view staged.label) = right.map fun staged => view staged.label := by
  simpa only [List.map_map, Function.comp_def] using congrArg (List.map view) same

theorem labels_of_sourceless {left right : List StagedPayload}
    (same : left.map sourceless = right.map sourceless) :
    left.map label = right.map label := by
  have mapped := congrArg (List.map label) same
  rwa [List.map_map, List.map_map] at mapped

end StagedPayload

namespace HeaderArchive

def payloadFiles (payloads : List (PayloadEntry × Payload)) : List (String × Bytes) :=
  payloads.flatMap fun (entry, payload) =>
    [(entry.headerDirectory ++ "/type-info", document (typeInfo payload)),
      (entry.headerDirectory ++ "/meta-data", [])]

theorem files_eq (header : HeaderArchive) :
    header.files =
      ("header-info", document header.info) ::
        (header.scripts.map (fun (state, content) => (state.path, content)) ++
          payloadFiles header.payloads) :=
  rfl

end HeaderArchive

namespace Artifact

/-- Artifacts made of the same, apart from the contents of their payloads.  The size of
the blocks in which sources are read may differ. -/
structure SameInputs (left right : Artifact) : Prop where
  name_eq : left.name = right.name
  deviceTypes_eq : left.deviceTypes = right.deviceTypes
  group_eq : left.group = right.group
  provides_eq : left.provides = right.provides
  depends_eq : left.depends = right.depends
  labels_eq : left.payloads.map StagedPayload.label = right.payloads.map StagedPayload.label
  scripts_eq : left.scripts = right.scripts
  options_eq : ∃ block, left.options = { right.options with readBlockSize := block }

theorem SameInputs.validate_eq {left right : Artifact} (same : left.SameInputs right) :
    left.validate = right.validate := by
  obtain ⟨block, options⟩ := same.options_eq
  have extra (side : Side) : left.extra side = right.extra side := by
    cases side with
    | provides => exact same.provides_eq
    | depends => exact same.depends_eq
  have reserved (side : Side) : left.reserved side = right.reserved side := by
    cases side with
    | provides => simp only [Artifact.reserved, same.group_eq]
    | depends => rfl
  have owned (side : Side) (taken : String → Bool) :
      (left.payloads.findSome? fun staged => (staged.payload.keys side).find? taken) =
        right.payloads.findSome? fun staged => (staged.payload.keys side).find? taken := by
    have keys : left.payloads.map (·.payload.keys side) =
        right.payloads.map (·.payload.keys side) := by
      cases side with
      | provides =>
          exact StagedPayload.map_of_labels same.labels_eq (·.provides.elim [] Metadata.keys)
      | depends =>
          exact StagedPayload.map_of_labels same.labels_eq (·.depends.elim [] Metadata.keys)
    have mapped := congrArg (List.findSome? (List.find? taken)) keys
    simpa only [List.findSome?_map, Function.comp_def] using mapped
  simp only [validate, conflict?, same.name_eq, same.deviceTypes_eq, same.group_eq, options,
    extra, reserved, owned]

theorem Addressed.entries_eq {left right : Artifact} (leftAddressed : left.Addressed)
    (rightAddressed : right.Addressed)
    (basenames : left.payloads.map (·.entry.basename) =
      right.payloads.map (·.entry.basename)) :
    List.Forall₂ (fun first second => first.entry = second.entry) left.payloads
      right.payloads := by
  have length : left.payloads.length = right.payloads.length := by
    simpa only [List.length_map] using congrArg List.length basenames
  have indices : left.payloads.map (·.entry.index) = right.payloads.map (·.entry.index) := by
    rw [leftAddressed.indices, rightAddressed.indices, length]
  refine List.Forall₂.mp ?_ (map_eq_map_iff_forall₂.mp indices)
    (map_eq_map_iff_forall₂.mp basenames)
  intro first second index basename
  exact PayloadEntry.eq_of_index_of_basename index basename

theorem SameInputs.entries_eq {left right : Artifact} (same : left.SameInputs right)
    (leftAddressed : left.Addressed) (rightAddressed : right.Addressed) :
    List.Forall₂ (fun first second => first.entry = second.entry) left.payloads
      right.payloads :=
  leftAddressed.entries_eq rightAddressed
    (StagedPayload.map_of_labels same.labels_eq Label.basename)

theorem SameInputs.entryNames_eq {left right : Artifact} (same : left.SameInputs right)
    (leftAddressed : left.Addressed) (rightAddressed : right.Addressed) :
    left.entryNames = right.entryNames := by
  rw [entryNames, entryNames, map_eq_map_iff_forall₂]
  exact (same.entries_eq leftAddressed rightAddressed).imp
    fun _ _ entry => congrArg PayloadEntry.entryName entry

theorem SameInputs.files_eq {left right : Artifact} (same : left.SameInputs right)
    (leftAddressed : left.Addressed) (rightAddressed : right.Addressed) :
    left.header.files = right.header.files := by
  have types := StagedPayload.map_of_labels same.labels_eq
    fun label => Json.object [("type", .string label.type)]
  simp only [StagedPayload.label] at types
  have info : left.header.info = right.header.info := by
    simp only [HeaderArchive.info, header, List.map_map, Function.comp_def, types, allProvides,
      allDepends, same.name_eq, same.group_eq, same.provides_eq, same.deviceTypes_eq,
      same.depends_eq]
  have payloads : HeaderArchive.payloadFiles left.header.payloads =
      HeaderArchive.payloadFiles right.header.payloads := by
    simp only [HeaderArchive.payloadFiles, header, List.flatMap_map]
    rw [List.flatMap_def, List.flatMap_def]
    congr 1
    rw [map_eq_map_iff_forall₂]
    refine List.Forall₂.mp ?_ (same.entries_eq leftAddressed rightAddressed)
      (map_eq_map_iff_forall₂.mp same.labels_eq)
    intro first second entry label
    simp only [StagedPayload.label, Label.mk.injEq] at label
    simp only [entry, HeaderArchive.typeInfo, label]
  have scripts : left.header.scripts = right.header.scripts := same.scripts_eq
  rw [HeaderArchive.files_eq, HeaderArchive.files_eq, info, scripts, payloads]

/-- What comes before the payloads depends on what the artifact is made of, as long as both
sizes of blocks fit into a buffer. -/
theorem SameInputs.opening_eq [Deflate] {left right : Artifact} (same : left.SameInputs right)
    (leftAddressed : left.Addressed) (rightAddressed : right.Addressed)
    (leftBlock : left.options.BlockFits) (rightBlock : right.options.BlockFits) :
    left.opening = right.opening := by
  have names := same.entryNames_eq leftAddressed rightAddressed
  have files := same.files_eq leftAddressed rightAddressed
  obtain ⟨block, options⟩ := same.options_eq
  rw [options] at leftBlock
  have hashed (content : Bytes) : Source.digestBytes block content =
      .ok (Checksum.ofBytes content) := Source.digestBytes_of_le leftBlock content
  simp only [opening, Artifact.version, writeHeader, HeaderArchive.assemble, entryNames_header,
    names, files, options, Container.start, Container.compress, hashed,
    Source.digestBytes_of_le rightBlock]

/-- An artifact as a build leaves it: nothing but the sources of its payloads changed. -/
structure Keeps (before after : Artifact) : Prop where
  artifact_eq : after = { before with payloads := after.payloads }
  payloads_eq : after.payloads.map StagedPayload.sourceless =
    before.payloads.map StagedPayload.sourceless

theorem Keeps.refl (artifact : Artifact) : Keeps artifact artifact :=
  ⟨rfl, rfl⟩

theorem Keeps.trans {first second third : Artifact} (earlier : Keeps first second)
    (later : Keeps second third) : Keeps first third := by
  refine ⟨?_, later.payloads_eq.trans earlier.payloads_eq⟩
  rw [later.artifact_eq, earlier.artifact_eq]

theorem Keeps.options_eq {before after : Artifact} (kept : Keeps before after) :
    after.options = before.options := by
  rw [kept.artifact_eq]

theorem Keeps.validate_eq {before after : Artifact} (kept : Keeps before after) :
    after.validate = before.validate := by
  have labels := StagedPayload.labels_of_sourceless kept.payloads_eq
  have same : after.SameInputs before := by
    rw [kept.artifact_eq]
    exact ⟨rfl, rfl, rfl, rfl, rfl, labels, rfl, _, rfl⟩
  exact same.validate_eq

theorem SameInputs.of_keeps {left right leftAfter rightAfter : Artifact}
    (same : left.SameInputs right) (leftKept : Keeps left leftAfter)
    (rightKept : Keeps right rightAfter) : leftAfter.SameInputs rightAfter := by
  have labels : leftAfter.payloads.map StagedPayload.label =
      rightAfter.payloads.map StagedPayload.label := by
    rw [StagedPayload.labels_of_sourceless leftKept.payloads_eq, same.labels_eq,
      StagedPayload.labels_of_sourceless rightKept.payloads_eq]
  rw [leftKept.artifact_eq, rightKept.artifact_eq]
  exact { same with labels_eq := labels }

section

variable [Deflate]

theorem keeps_build (artifact : Artifact) : Keeps artifact artifact.build.2 := by
  obtain ⟨payloads, kept, same⟩ := artifact.build_keeps
  rw [kept]
  exact ⟨rfl, same⟩

/-- The artifact after some builds, whatever their outcomes. -/
def afterBuilds (artifact : Artifact) (count : Nat) : Artifact :=
  artifact.performAll (List.replicate count .build)

@[simp]
theorem afterBuilds_zero (artifact : Artifact) : artifact.afterBuilds 0 = artifact := rfl

@[simp]
theorem afterBuilds_succ (artifact : Artifact) (count : Nat) :
    artifact.afterBuilds (count + 1) = artifact.build.2.afterBuilds count := rfl

theorem keeps_afterBuilds (artifact : Artifact) (count : Nat) :
    Keeps artifact (artifact.afterBuilds count) := by
  induction count generalizing artifact with
  | zero => exact .refl artifact
  | succ count ih =>
      rw [afterBuilds_succ]
      exact artifact.keeps_build.trans (ih artifact.build.2)

theorem Reachable.performAll {artifact : Artifact} (reachable : artifact.Reachable)
    (later : List Call) : (artifact.performAll later).Reachable := by
  obtain ⟨name, deviceTypes, calls, rfl⟩ := reachable
  refine ⟨name, deviceTypes, calls ++ later, ?_⟩
  simp only [Artifact.performAll, List.foldl_append]

end

end Artifact

end UpdateArtifact
