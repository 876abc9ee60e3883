import UpdateArtifact.ScriptState

/-!
# Refused input

What a caller can get wrong, with the wording of each case.
-/

namespace UpdateArtifact

inductive Side where
  | provides
  | depends
  deriving DecidableEq

def Side.name : Side → String
  | provides => "provides"
  | depends => "depends"

inductive Refusal where
  | emptyName
  | noDeviceTypes
  | emptyDeviceType
  | emptyGroup
  | longOwner (owner : String)
  /-- An artifact's extra key is one the builder sets itself. -/
  | reservedKey (side : Side) (key : String)
  /-- A payload's key belongs to the artifact. -/
  | keyOfArtifact (side : Side) (key : String)
  /-- A key of a new payload is taken already. -/
  | takenKey (side : Side) (key : String)
  | invalidFileName (index : Nat) (name : String)
  | tooManyPayloads (index : Nat)
  | emptyPayloadType (index : Nat)
  | duplicatePayload (entryName : String)
  | duplicateLine (name : String)
  | scriptPresent (state : ScriptState)
  | unknownScriptState (text : String)
  deriving DecidableEq

namespace Refusal

def message : Refusal → String
  | emptyName => "artifact name cannot be empty"
  | noDeviceTypes => "device_types cannot be empty"
  | emptyDeviceType => "device type cannot be an empty string"
  | emptyGroup => "artifact group cannot be empty"
  | longOwner owner => s!"owner name '{owner}' exceeds 32 bytes"
  | reservedKey side key => s!"artifact {side.name} key '{key}' is reserved"
  | keyOfArtifact side key => s!"{side.name} key '{key}' already present at artifact level"
  | takenKey side key => s!"{side.name} key '{key}' already present"
  | invalidFileName index name => s!"payload {index}: invalid file name '{name}'"
  | tooManyPayloads index => s!"payload {index}: at most 10000 payloads are supported"
  | emptyPayloadType index => s!"payload {index}: payload type cannot be empty"
  | duplicatePayload entryName => s!"duplicate payload entry name '{entryName}'"
  | duplicateLine name => s!"duplicate manifest entry '{name}'"
  | scriptPresent state => s!"state script {state.name} already added"
  | unknownScriptState text => s!"'{text}' is not a valid script state"

end Refusal

def ScriptState.parse (text : String) : Except Refusal ScriptState :=
  match ScriptState.ofName? text with
  | some state => .ok state
  | none => .error (.unknownScriptState text)

end UpdateArtifact
