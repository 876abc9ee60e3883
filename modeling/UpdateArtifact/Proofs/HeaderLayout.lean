import UpdateArtifact.Proofs.Collecting
import UpdateArtifact.Proofs.Faithful
import UpdateArtifact.Proofs.Outcomes

/-!
# The layout of the header archive

The header archive is written file by file from what the builder has collected.  Here its
layout is spelled out from the calls that filled the builder: which files there are, in
which order, and what each document says.  A reader of a finished header archive finds
that layout, and no name in it twice.
-/

namespace UpdateArtifact

namespace Artifact

namespace Layout

/-- The header-info of an artifact for which these calls were accepted. -/
def headerInfo (name : String) (deviceTypes : List String) (calls : List Call) : Json :=
  .object
    [("payloads", .array ((calls.filterMap Call.payload?).map fun payload =>
        .object [("type", .string payload.type)])),
      ("artifact_provides", .object
        (("artifact_name", .string name) ::
          ((calls.filterMap Call.group?).getLast?.map fun group =>
            ("artifact_group", .string group)).toList ++
          (Metadata.ofList (calls.filterMap Call.provides?)).members)),
      ("artifact_depends", .object
        (("device_type", .array (deviceTypes.map .string)) ::
          (Metadata.ofList (calls.filterMap Call.depends?)).members))]

/-- The type-info of a payload: its type, and the metadata that was ever set. -/
def typeInfo (payload : Payload) : Json :=
  .object
    (("type", .string payload.type) ::
      (payload.depends.map fun depends =>
        ("artifact_depends", .object depends.members)).toList ++
      (payload.provides.map fun provides =>
        ("artifact_provides", .object provides.members)).toList)

def payloadFiles (payload : Payload) (index : Nat) : List (String × Bytes) :=
  [("headers/" ++ fourDigits index ++ "/type-info", Bytes.utf8 (typeInfo payload).compact),
    ("headers/" ++ fourDigits index ++ "/meta-data", [])]

end Layout

/-- The files of the header archive of an artifact for which these calls were accepted. -/
def layout (name : String) (deviceTypes : List String) (calls : List Call) :
    List (String × Bytes) :=
  ("header-info", Bytes.utf8 (Layout.headerInfo name deviceTypes calls).compact) ::
    ((calls.filterMap Call.script?).map (fun (state, content) =>
        ("scripts/" ++ state.name, content)) ++
      (calls.filterMap Call.payload?).zipIdx.flatMap fun (payload, index) =>
        Layout.payloadFiles payload index)

namespace Collects

variable {artifact : Artifact} {name : String} {deviceTypes : List String} {calls : List Call}

theorem typed_payloads_eq (collects : artifact.Collects name deviceTypes calls) :
    (artifact.header.payloads.map fun (_, payload) =>
      Json.object [("type", .string payload.type)]) =
        (calls.filterMap Call.payload?).map fun payload =>
          Json.object [("type", .string payload.type)] := by
  have types := congrArg (List.map Payload.type) collects.payloads_eq
  simp only [List.map_map, Function.comp_def, Payload.sourceless] at types
  have documents := congrArg (List.map fun type => Json.object [("type", .string type)]) types
  simpa only [header, List.map_map, Function.comp_def] using documents

theorem info_eq (collects : artifact.Collects name deviceTypes calls) (valid : artifact.Valid) :
    artifact.header.info = Layout.headerInfo name deviceTypes calls := by
  have provides := members_published (valid.extraApart .provides)
  have depends := members_published (valid.extraApart .depends)
  simp only [published, ownMembers, extra, collects.name_eq, collects.deviceTypes_eq,
    collects.group_eq, collects.provides_eq, collects.depends_eq] at provides depends
  have group (found : Option String) :
      (found.elim [] fun group => [("artifact_group", Json.string group)]) =
        (found.map fun group => ("artifact_group", Json.string group)).toList := by
    cases found <;> rfl
  rw [group] at provides
  rw [HeaderArchive.info, collects.typed_payloads_eq]
  simp only [header, Metadata.toJson, provides, depends, Layout.headerInfo, List.cons_append,
    List.nil_append]

theorem payloadFiles_eq (collects : artifact.Collects name deviceTypes calls)
    (addressed : artifact.Addressed) :
    HeaderArchive.payloadFiles artifact.header.payloads =
      (calls.filterMap Call.payload?).zipIdx.flatMap fun (payload, index) =>
        Layout.payloadFiles payload index := by
  -- The indices in the addresses are the places in the list of accepted payloads.
  have numbered : (artifact.payloads.map fun staged =>
      (staged.payload.sourceless, staged.entry.index)) =
        ((calls.filterMap Call.payload?).map Payload.sourceless).zipIdx := by
    rw [← List.zip_map', collects.payloads_eq, addressed.indices, List.zipIdx_eq_zip_range']
    have length := congrArg List.length collects.payloads_eq
    simp only [List.length_map] at length
    rw [List.range_eq_range', length, List.length_map]
  have files := congrArg (List.flatMap fun (payload, index) =>
    Layout.payloadFiles payload index) numbered
  rw [List.flatMap_map, List.zipIdx_map, List.flatMap_map] at files
  rw [HeaderArchive.payloadFiles, header, List.flatMap_map]
  exact files

theorem files_eq (collects : artifact.Collects name deviceTypes calls)
    (addressed : artifact.Addressed) (valid : artifact.Valid) :
    artifact.header.files = layout name deviceTypes calls := by
  have scripts : artifact.header.scripts = calls.filterMap Call.script? := collects.scripts_eq
  rw [HeaderArchive.files_eq, collects.info_eq valid, scripts, collects.payloadFiles_eq addressed]
  rfl

end Collects

namespace Layout

/-- The files of a payload lie two directories down, in that of its index. -/
theorem pieces_payloadFile {payload : Payload} {index : Nat} {name : String}
    (member : name ∈ (payloadFiles payload index).map Prod.fst) :
    ∃ file, pieces '/' name.toList = ["headers".toList, (fourDigits index).toList, file] := by
  have noSlash : '/' ∉ (fourDigits index).toList :=
    fun member => absurd (isDigit_of_mem_fourDigits member) (by decide)
  have cut (file : List Char) (whole : '/' ∉ file) :
      pieces '/' ("headers".toList ++ '/' :: ((fourDigits index).toList ++ '/' :: file)) =
        ["headers".toList, (fourDigits index).toList, file] := by
    rw [pieces_append_cons, pieces_append_cons, pieces_of_not_mem (by decide),
      pieces_of_not_mem noSlash, pieces_of_not_mem whole]
    rfl
  simp only [payloadFiles, List.map_cons, List.map_nil, List.mem_cons, List.not_mem_nil,
    or_false] at member
  rcases member with rfl | rfl
  · refine ⟨"type-info".toList, ?_⟩
    rw [← cut _ (by decide)]
    simp
  · refine ⟨"meta-data".toList, ?_⟩
    rw [← cut _ (by decide)]
    simp

theorem pieces_path (state : ScriptState) :
    pieces '/' state.path.toList = ["scripts".toList, state.name.toList] := by
  cases state <;> decide

theorem nodup_payloadFiles (payloads : List Payload) :
    ((payloads.zipIdx.flatMap fun (payload, index) =>
      payloadFiles payload index).map Prod.fst).Nodup := by
  rw [List.map_flatMap, List.nodup_flatMap]
  constructor
  · rintro ⟨payload, index⟩ _
    simp [payloadFiles]
  · have places := List.pairwise_map.mp (List.nodup_zipIdx_map_snd payloads)
    apply places.imp
    rintro ⟨left, place⟩ ⟨right, other⟩ different name inLeft inRight
    obtain ⟨_, leftPieces⟩ := pieces_payloadFile inLeft
    obtain ⟨_, rightPieces⟩ := pieces_payloadFile inRight
    rw [leftPieces] at rightPieces
    simp only [List.cons.injEq] at rightPieces
    exact different (fourDigits_injective (String.toList_injective rightPieces.2.1))

end Layout

theorem nodup_layout (name : String) (deviceTypes : List String) {calls : List Call}
    (states : ((calls.filterMap Call.script?).map Prod.fst).Nodup) :
    ((layout name deviceTypes calls).map Prod.fst).Nodup := by
  have scripts : ((calls.filterMap Call.script?).map (·.1.path)).Nodup := by
    have mapped := states.map ScriptState.path_injective
    rwa [List.map_map] at mapped
  have scriptPieces : ∀ file ∈ (calls.filterMap Call.script?).map (·.1.path),
      (pieces '/' file.toList).length = 2 := by
    simp only [List.forall_mem_map, Layout.pieces_path]
    exact fun _ _ => rfl
  have payloadPieces : ∀ file ∈ ((calls.filterMap Call.payload?).zipIdx.flatMap
      fun (payload, index) => Layout.payloadFiles payload index).map Prod.fst,
      (pieces '/' file.toList).length = 3 := by
    intro file member
    rw [List.map_flatMap] at member
    obtain ⟨_, _, inFiles⟩ := List.mem_flatMap.mp member
    obtain ⟨_, cut⟩ := Layout.pieces_payloadFile inFiles
    rw [cut]
    rfl
  have info : (pieces '/' "header-info".toList).length = 1 := by
    decide
  have shape : (layout name deviceTypes calls).map Prod.fst =
      "header-info" :: ((calls.filterMap Call.script?).map (·.1.path) ++
        ((calls.filterMap Call.payload?).zipIdx.flatMap fun (payload, index) =>
          Layout.payloadFiles payload index).map Prod.fst) := by
    simp only [layout, List.map_cons, List.map_append, List.map_map]
    rfl
  rw [shape, List.nodup_cons, List.nodup_append]
  -- The three kinds of names have different numbers of components.
  refine ⟨?_, scripts, Layout.nodup_payloadFiles _, ?_⟩
  · intro member
    rcases List.mem_append.mp member with inScripts | inPayloads
    · have two := scriptPieces _ inScripts
      omega
    · have three := payloadPieces _ inPayloads
      omega
  · rintro file inScripts _ inPayloads rfl
    have two := scriptPieces _ inScripts
    have three := payloadPieces _ inPayloads
    omega

/-- Whatever calls fill a valid artifact, its header archive reads back as the layout that
the accepted ones describe, and no two of its files have the same name. -/
theorem unpack?_header_of_calls [Deflate] {name : String} {deviceTypes : List String}
    {calls : List Call} (valid : (performAll { name, deviceTypes } calls).validate = .ok ())
    {options : BuildOptions} {archive : Bytes}
    (assembled : (performAll { name, deviceTypes } calls).header.assemble options = .ok archive)
    (fits : ∀ inner ∈ Gzip.decode? archive, inner.length < Tar.Numeral.wordLimit) :
    ∃ inner files, Gzip.decode? archive = some inner ∧
      files = layout name deviceTypes (accepted { name, deviceTypes } calls) ∧
      Tar.unpack? inner = some (files.map fun file => (Bytes.utf8 file.1, file.2)) ∧
      (files.map Prod.fst).Nodup := by
  have reachable : (performAll { name, deviceTypes } calls).Reachable :=
    ⟨name, deviceTypes, calls, rfl⟩
  have collects := (Collects.start name deviceTypes).performAll calls
  rw [List.nil_append] at collects
  have states := reachable.nodup_states
  rw [collects.scripts_eq] at states
  obtain ⟨inner, decoded, unpacked⟩ := HeaderArchive.holds_of_assemble
    (Artifact.entryNames_header _ ▸ reachable.addressed.distinct) assembled
  rw [collects.files_eq reachable.addressed
    ((validate_eq_ok_iff reachable.payloadsApart).mp valid)] at unpacked
  exact ⟨inner, _, decoded, rfl, unpacked (fits inner decoded), nodup_layout _ _ states⟩

namespace Layout

/-- Calls of all kinds.  The second script is refused, since its state has one already. -/
def sample : List Call :=
  [.group "testing", .script .rebootLeave [1], .script .rebootLeave [2],
    .provides "zone" (.string "a"), .provides "channel" (.string "beta"),
    .payload { source := single.pieced, name := some "image", depends := some .empty },
    .group "stable", .provides "zone" (.string "b"), .script .installEnter [],
    .payload { source := .ofBytes [7], type := "module" }]

def sampleInfo : Json :=
  .object
    [("payloads", .array
        [.object [("type", .string "rootfs-image")], .object [("type", .string "module")]]),
      ("artifact_provides", .object
        [("artifact_name", .string "release"), ("artifact_group", .string "stable"),
          ("zone", .string "b"), ("channel", .string "beta")]),
      ("artifact_depends", .object [("device_type", .array [.string "device"])])]

end Layout

theorem unpack?_header_of_calls_sample :
    ∃ archive inner,
      (performAll { name := "release", deviceTypes := ["device"] } Layout.sample).header.assemble
          {} = .ok archive ∧
        Gzip.decode? archive = some inner ∧
        Tar.unpack? inner = some
          ([("header-info", Bytes.utf8 Layout.sampleInfo.compact),
            ("scripts/ArtifactReboot_Leave", [1]), ("scripts/ArtifactInstall_Enter", []),
            ("headers/0000/type-info", Bytes.utf8 (Json.object
              [("type", .string "rootfs-image"), ("artifact_depends", .object [])]).compact),
            ("headers/0000/meta-data", []),
            ("headers/0001/type-info",
              Bytes.utf8 (Json.object [("type", .string "module")]).compact),
            ("headers/0001/meta-data", [])].map fun file => (Bytes.utf8 file.1, file.2)) := by
  have valid : (performAll { name := "release", deviceTypes := ["device"] }
      Layout.sample).validate = .ok () := by
    decide +kernel
  have reachable : (performAll { name := "release", deviceTypes := ["device"] }
      Layout.sample).Reachable := ⟨_, _, _, rfl⟩
  have fit : Tar.Container.ownerFault? ({} : BuildOptions).ownerName = none :=
    (by decide : Tar.Container.ownerFault? "root" = none)
  obtain ⟨archive, assembled, bound⟩ := HeaderArchive.assemble_of_short
    (entryNames_header _ ▸ reachable.addressed.distinct) fit
    (performAll { name := "release", deviceTypes := ["device"] } Layout.sample).header.short_files
  have total : ((performAll { name := "release", deviceTypes := ["device"] }
      Layout.sample).header.files.map fun file => file.2.length + 1024).sum ≤ 12000 := by
    decide +kernel
  have fits : ∀ inner ∈ Gzip.decode? archive, inner.length < Tar.Numeral.wordLimit := by
    intro inner decoded
    have part := Gzip.length_le_of_decode? decoded
    rw [Tar.Numeral.wordLimit]
    omega
  obtain ⟨inner, files, decoded, layout_eq, unpacked, _⟩ :=
    unpack?_header_of_calls valid assembled fits
  refine ⟨archive, inner, assembled, decoded, ?_⟩
  rw [unpacked, layout_eq]
  rfl

end Artifact

end UpdateArtifact
