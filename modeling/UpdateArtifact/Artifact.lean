import UpdateArtifact.HeaderArchive

/-!
# Artifacts under construction

A builder collects what an artifact is made of.  Keys are claimed as payloads
are added, and `validate` checks before a build what could not be checked then,
because artifact-level keys may be set after the payloads.
-/

namespace UpdateArtifact

/-- A payload that was added, with its address. -/
structure StagedPayload where
  entry : PayloadEntry
  payload : Payload

structure Artifact where
  name : String
  deviceTypes : List String
  group : Option String := none
  /-- Provides beyond those the builder sets. -/
  provides : Metadata := .empty
  /-- Depends beyond those the builder sets. -/
  depends : Metadata := .empty
  payloads : List StagedPayload := []
  scripts : List (ScriptState × Bytes) := []
  options : BuildOptions := {}

namespace Payload

def metadata (payload : Payload) : Side → Option Metadata
  | .provides => payload.provides
  | .depends => payload.depends

def keys (payload : Payload) (side : Side) : List String :=
  (payload.metadata side).elim [] Metadata.keys

end Payload

namespace Artifact

def withGroup (artifact : Artifact) (group : String) : Artifact :=
  { artifact with group := some group }

def withProvides (artifact : Artifact) (key : String) (value : Json) : Artifact :=
  { artifact with provides := artifact.provides.insert key value }

def withDepends (artifact : Artifact) (key : String) (value : Json) : Artifact :=
  { artifact with depends := artifact.depends.insert key value }

def withOptions (artifact : Artifact) (options : BuildOptions) : Artifact :=
  { artifact with options }

/-- The keys the builder sets itself.  The group's key is free until a group is
set. -/
def reserved (artifact : Artifact) : Side → List String
  | .provides => "artifact_name" :: if artifact.group.isSome then ["artifact_group"] else []
  | .depends => ["device_type"]

def extra (artifact : Artifact) : Side → Metadata
  | .provides => artifact.provides
  | .depends => artifact.depends

/-- The keys that a new payload may not use. -/
def claimed (artifact : Artifact) (side : Side) : List String :=
  artifact.reserved side ++ (artifact.extra side).keys ++
    artifact.payloads.flatMap fun staged => staged.payload.keys side

/-- The first key of a payload on one side that is claimed already. -/
def clash? (artifact : Artifact) (payload : Payload) (side : Side) : Option String :=
  (payload.keys side).find? fun key => key ∈ artifact.claimed side

/-- The entry that a payload would get, unless the payload is refused. -/
def entryFor (artifact : Artifact) (payload : Payload) : Except Refusal PayloadEntry :=
  match PayloadEntry.make artifact.payloads.length payload.name with
  | .error refusal => .error refusal
  | .ok entry =>
      if payload.type = "" then .error (.emptyPayloadType entry.index)
      else if entry.entryName ∈ artifact.payloads.map (·.entry.entryName) then
        .error (.duplicatePayload entry.entryName)
      else
        match artifact.clash? payload .depends, artifact.clash? payload .provides with
        | some key, _ => .error (.takenKey .depends key)
        | none, some key => .error (.takenKey .provides key)
        | none, none => .ok entry

def addPayload (artifact : Artifact) (payload : Payload) : Except Refusal Artifact :=
  (artifact.entryFor payload).map fun entry =>
    { artifact with payloads := artifact.payloads ++ [{ entry, payload }] }

def addScript (artifact : Artifact) (state : ScriptState) (content : Bytes) :
    Except Refusal Artifact :=
  if state ∈ artifact.scripts.map Prod.fst then .error (.scriptPresent state)
  else .ok { artifact with scripts := artifact.scripts ++ [(state, content)] }

/-- The first key conflict of one side: an extra key that is reserved, or else a
payload's key that belongs to the artifact. -/
def conflict? (artifact : Artifact) (side : Side) : Option Refusal :=
  let reserved := artifact.reserved side
  let extra := (artifact.extra side).keys
  match extra.find? fun key => key ∈ reserved with
  | some key => some (.reservedKey side key)
  | none =>
      let owned := artifact.payloads.findSome? fun staged =>
        (staged.payload.keys side).find? fun key => key ∈ extra ∨ key ∈ reserved
      owned.map (.keyOfArtifact side)

/-- Whether the artifact can be built, as far as the input is concerned. -/
def validate (artifact : Artifact) : Except Refusal Unit :=
  if artifact.name = "" then .error .emptyName
  else if artifact.deviceTypes = [] then .error .noDeviceTypes
  else if "" ∈ artifact.deviceTypes then .error .emptyDeviceType
  else if artifact.group = some "" then .error .emptyGroup
  else if Tar.Container.ownerWidth < (Bytes.utf8 artifact.options.ownerName).length then
    .error (.longOwner artifact.options.ownerName)
  else
    match artifact.conflict? .provides, artifact.conflict? .depends with
    | some refusal, _ => .error refusal
    | none, some refusal => .error refusal
    | none, none => .ok ()

def allProvides (artifact : Artifact) : Metadata :=
  let named := Metadata.empty.insert "artifact_name" (.string artifact.name)
  let grouped :=
    match artifact.group with
    | some group => named.insert "artifact_group" (.string group)
    | none => named
  grouped.extend artifact.provides

def allDepends (artifact : Artifact) : Metadata :=
  let devices := Json.array (artifact.deviceTypes.map .string)
  (Metadata.empty.insert "device_type" devices).extend artifact.depends

def version (artifact : Artifact) : Json :=
  .object [("format", .string "mender"), ("version", .whole artifact.options.formatVersion)]

def header (artifact : Artifact) : HeaderArchive :=
  { provides := artifact.allProvides
    depends := artifact.allDepends
    payloads := artifact.payloads.map fun staged => (staged.entry, staged.payload)
    scripts := artifact.scripts }

def entryNames (artifact : Artifact) : List String :=
  artifact.payloads.map (·.entry.entryName)

end Artifact

end UpdateArtifact
