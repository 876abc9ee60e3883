import UpdateArtifact.Json.Description
import UpdateArtifact.Metadata
import UpdateArtifact.Source

/-!
# Payloads

A payload is one update component: a source of its content, its type and what
is said about it.  Metadata that was never set differs from empty metadata.
-/

namespace UpdateArtifact

structure Payload where
  source : Source
  /-- The file name, if one was chosen. -/
  name : Option String := none
  type : String := "rootfs-image"
  depends : Option Metadata := none
  provides : Option Metadata := none

namespace Payload

/-- What is shown of something that may be missing. -/
def describeOption {α : Type} (describe : α → String) : Option α → String
  | none => "None"
  | some value => s!"Some({describe value})"

def describeMetadata (metadata : Metadata) : String :=
  "\x7b" ++ String.ofList (Json.describeMembers metadata.members) ++ "\x7d"

def description (payload : Payload) : String :=
  "Payload \x7b name: " ++ describeOption Quoted.quote payload.name ++
    ", payload_type: " ++ Quoted.quote payload.type ++
    ", depends: " ++ describeOption describeMetadata payload.depends ++
    ", provides: " ++ describeOption describeMetadata payload.provides ++ ", .. \x7d"

def rewind (payload : Payload) : Except IoError Unit × Payload :=
  let (outcome, source) := payload.source.rewind
  (outcome, { payload with source })

end Payload

end UpdateArtifact
