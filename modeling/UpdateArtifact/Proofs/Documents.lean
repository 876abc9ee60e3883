import UpdateArtifact.Proofs.Outcomes

/-!
# Keys in the documents of an artifact

The header-info publishes the keys of the artifact, and each type-info those of its
payload.  What validation accepts has every key once over all documents of a side, so
the builder's own keys hold the builder's own values.
-/

namespace UpdateArtifact

/-- The member of a document that holds the keys of a side. -/
def Side.memberName : Side → String
  | .provides => "artifact_provides"
  | .depends => "artifact_depends"

namespace Json

def names : Json → List String
  | .object members => members.map Prod.fst
  | _ => []

/-- The keys that a document publishes on a side. -/
def keysOn (side : Side) (document : Json) : List String :=
  (document.member? side.memberName).elim [] names

/-- What a document publishes under a key of a side. -/
def valueOn? (side : Side) (key : String) (document : Json) : Option Json :=
  (document.member? side.memberName).bind (member? key)

end Json

namespace HeaderArchive

def documents (header : HeaderArchive) : List Json :=
  header.info :: header.payloads.map fun (_, payload) => typeInfo payload

theorem member?_typeInfo (payload : Payload) (side : Side) :
    (typeInfo payload).member? side.memberName = (payload.metadata side).map Metadata.toJson := by
  obtain ⟨source, name, type, depends, provides⟩ := payload
  cases side <;> cases depends <;> cases provides <;> rfl

theorem keysOn_typeInfo (payload : Payload) (side : Side) :
    (typeInfo payload).keysOn side = payload.keys side := by
  rw [Json.keysOn, member?_typeInfo, Payload.keys]
  cases payload.metadata side <;> rfl

end HeaderArchive

namespace Artifact

/-- What the header-info publishes on a side. -/
def published (artifact : Artifact) : Side → Metadata
  | .provides => artifact.allProvides
  | .depends => artifact.allDepends

/-- The members that the builder sets itself. -/
def ownMembers (artifact : Artifact) : Side → List (String × Json)
  | .provides => ("artifact_name", .string artifact.name) ::
      artifact.group.elim [] fun group => [("artifact_group", .string group)]
  | .depends => [("device_type", .array (artifact.deviceTypes.map .string))]

theorem keys_ownMembers (artifact : Artifact) (side : Side) :
    (artifact.ownMembers side).map Prod.fst = artifact.reserved side := by
  obtain ⟨name, deviceTypes, group, provides, depends, payloads, scripts, options⟩ := artifact
  cases side <;> cases group <;> rfl

/-- The extra members stand behind the builder's own ones, and replace none of them. -/
theorem members_published {artifact : Artifact} {side : Side}
    (apart : (artifact.reserved side).Disjoint (artifact.extra side).keys) :
    (artifact.published side).members =
      artifact.ownMembers side ++ (artifact.extra side).members := by
  obtain ⟨own, members, extended⟩ : ∃ own : Metadata,
      own.members = artifact.ownMembers side ∧
        artifact.published side = own.extend (artifact.extra side) := by
    obtain ⟨name, deviceTypes, group, provides, depends, payloads, scripts, options⟩ := artifact
    cases side <;> cases group <;> exact ⟨_, rfl, rfl⟩
  rw [extended, Metadata.members_extend, members]
  rw [Metadata.keys, members, keys_ownMembers]
  exact apart

theorem member?_info (artifact : Artifact) (side : Side) :
    artifact.header.info.member? side.memberName = some (artifact.published side).toJson := by
  cases side <;> rfl

theorem keysOn_info (artifact : Artifact) (side : Side) :
    artifact.header.info.keysOn side = (artifact.published side).keys := by
  rw [Json.keysOn, member?_info]
  rfl

theorem keysOn_documents {artifact : Artifact} {side : Side}
    (apart : (artifact.reserved side).Disjoint (artifact.extra side).keys) :
    artifact.header.documents.flatMap (Json.keysOn side) = artifact.claimed side := by
  have payloads : (artifact.header.payloads.map fun (_, payload) =>
      HeaderArchive.typeInfo payload).flatMap (Json.keysOn side) =
        artifact.payloads.flatMap fun staged => staged.payload.keys side := by
    simp only [header, List.map_map, List.flatMap_map, Function.comp_def,
      HeaderArchive.keysOn_typeInfo]
  have own : (artifact.published side).keys =
      artifact.reserved side ++ (artifact.extra side).keys := by
    rw [Metadata.keys, members_published apart, List.map_append, keys_ownMembers]
    rfl
  rw [HeaderArchive.documents, List.flatMap_cons, payloads, keysOn_info, own, claimed]

theorem valueOn?_info {artifact : Artifact} {side : Side}
    (apart : (artifact.reserved side).Disjoint (artifact.extra side).keys)
    {key : String} {value : Json} (own : (key, value) ∈ artifact.ownMembers side) :
    artifact.header.info.valueOn? side key = some value := by
  have held : (key, value) ∈ (artifact.published side).members := by
    rw [members_published apart]
    exact List.mem_append_left _ own
  rw [Json.valueOn?, member?_info]
  exact Metadata.lookup_of_mem held

section

variable [Deflate]

theorem Reachable.valid_of_build {artifact : Artifact} (reachable : artifact.Reachable)
    {archive : Bytes} (built : artifact.build.1 = .ok archive) : artifact.Valid :=
  (validate_eq_ok_iff reachable.payloadsApart).mp (blockFits_of_build built).1

/-- Validation is exact: it accepts the artifacts that name everything they have to and
keep all keys of a side apart.  Whatever is built therefore publishes no key twice, and
the builder's own values under its own keys. -/
theorem validate_exact {artifact : Artifact} (reachable : artifact.Reachable) :
    (artifact.validate = .ok () ↔
      artifact.name ≠ "" ∧ artifact.deviceTypes ≠ [] ∧ "" ∉ artifact.deviceTypes ∧
        artifact.group ≠ some "" ∧ (Bytes.utf8 artifact.options.ownerName).length ≤ 32 ∧
        ∀ side, (artifact.keySets side).Pairwise List.Disjoint) ∧
    ∀ archive, artifact.build.1 = .ok archive →
      (∀ side, (artifact.header.documents.flatMap (Json.keysOn side)).Nodup) ∧
        artifact.header.info.valueOn? .provides "artifact_name" =
          some (.string artifact.name) ∧
        (∀ group, artifact.group = some group →
          artifact.header.info.valueOn? .provides "artifact_group" = some (.string group)) ∧
        artifact.header.info.valueOn? .depends "device_type" =
          some (.array (artifact.deviceTypes.map .string)) := by
  have accepts := validate_eq_ok_iff reachable.payloadsApart
  constructor
  · rw [accepts]
    exact ⟨fun valid => ⟨valid.named, valid.someDevice, valid.devicesNamed, valid.groupNamed,
        valid.ownerFits, valid.keysApart⟩,
      fun ⟨named, someDevice, devicesNamed, groupNamed, ownerFits, keysApart⟩ =>
        ⟨named, someDevice, devicesNamed, groupNamed, ownerFits, keysApart⟩⟩
  · intro archive built
    have valid := reachable.valid_of_build built
    refine ⟨?_, ?_, ?_, ?_⟩
    · intro side
      rw [keysOn_documents (valid.extraApart side)]
      exact nodup_claimed (valid.keysApart side)
    · exact valueOn?_info (valid.extraApart .provides) List.mem_cons_self
    · intro group set
      exact valueOn?_info (valid.extraApart .provides) (by simp [ownMembers, set])
    · exact valueOn?_info (valid.extraApart .depends) List.mem_cons_self

end

/-- An artifact with a group, and with extra keys and keys of a payload on both sides. -/
def keyed : Artifact :=
  performAll { name := "release", deviceTypes := ["device"] }
    [.group "beta", .provides "os" .null, .depends "libc" .null,
      .payload
        { source := single.pieced
          depends := some (.ofList [("kernel", .null)])
          provides := some (.ofList [("app", .null)]) }]

theorem builds_keyed : ∃ archive, keyed.build.1 = .ok archive := by
  have reachable : keyed.Reachable := ⟨_, _, _, rfl⟩
  have fits : keyed.FitsMemory := by
    unfold FitsMemory
    decide +kernel
  have fit : Tar.Container.ownerFault? keyed.options.ownerName = none := by
    decide +kernel
  have readable : ∀ staged ∈ keyed.payloads, staged.payload.Readable := by
    intro staged member
    have held := List.mem_map_of_mem (f := fun staged => staged.payload.source) member
    have sources : (keyed.payloads.map fun staged => staged.payload.source) =
      [single.pieced] := rfl
    rw [sources, List.mem_singleton] at held
    have delivers : staged.payload.source.Delivers [1, 2, 3] := held ▸ single.delivers_pieced
    exact (Payload.readable_of_delivers delivers).1
  exact build_of_zeroFree reachable.addressed fits.draftFits (by decide +kernel)
    (by decide +kernel) fit (by decide +kernel) readable

theorem validate_exact_keyed :
    keyed.keySets .provides = [["artifact_name", "artifact_group"], ["os"], ["app"]] ∧
      keyed.keySets .depends = [["device_type"], ["libc"], ["kernel"]] ∧
      (∀ side, (keyed.keySets side).Pairwise List.Disjoint) ∧
      ∃ archive, keyed.build.1 = .ok archive ∧
        (∀ side, (keyed.header.documents.flatMap (Json.keysOn side)).Nodup) ∧
        keyed.header.info.valueOn? .provides "artifact_name" = some (.string "release") ∧
        keyed.header.info.valueOn? .provides "artifact_group" = some (.string "beta") ∧
        keyed.header.info.valueOn? .depends "device_type" =
          some (.array [.string "device"]) := by
  have reachable : keyed.Reachable := ⟨_, _, _, rfl⟩
  obtain ⟨archive, built⟩ := builds_keyed
  obtain ⟨accepts, publishes⟩ := validate_exact reachable
  obtain ⟨_, _, _, _, _, apart⟩ := accepts.mp (blockFits_of_build built).1
  obtain ⟨once, name, group, devices⟩ := publishes archive built
  exact ⟨by decide +kernel, by decide +kernel, apart, archive, built, once, name,
    group "beta" rfl, devices⟩

end Artifact

end UpdateArtifact
