import UpdateArtifact.Artifact.Build
import UpdateArtifact.Deflate.Stored

/-!
# Builder calls

The calls a caller can make, as data, and the artifacts that can be reached by
them.  A refused call leaves the artifact as it was; a build changes nothing
but the state of the payloads' sources.  Callers with no coder of their own get the
one of stored blocks.
-/

namespace UpdateArtifact

namespace Artifact

inductive Call where
  | group (group : String)
  | provides (key : String) (value : Json)
  | depends (key : String) (value : Json)
  | options (options : BuildOptions)
  /-- Sets the default options with the overrides a text gives. -/
  | overrides (text : String)
  | payload (payload : Payload)
  | script (state : ScriptState) (content : Bytes)
  | build

/-- A change that may be refused. -/
def settle (artifact : Artifact) : Except Refusal Artifact → Except ArtifactError Unit × Artifact
  | .error refusal => (.error (.validation refusal), artifact)
  | .ok changed => (.ok (), changed)

variable [Deflate]

def perform (artifact : Artifact) : Call → Except ArtifactError Unit × Artifact
  | .group group => (.ok (), artifact.withGroup group)
  | .provides key value => (.ok (), artifact.withProvides key value)
  | .depends key value => (.ok (), artifact.withDepends key value)
  | .options options => (.ok (), artifact.withOptions options)
  | .overrides text =>
      match Overrides.parse text with
      | .error fault => (.error (.overrides fault), artifact)
      | .ok overrides =>
          let defaults : BuildOptions := {}
          (.ok (), artifact.withOptions (defaults.apply overrides))
  | .payload payload => artifact.settle (artifact.addPayload payload)
  | .script state content => artifact.settle (artifact.addScript state content)
  | .build =>
      let (outcome, built) := artifact.build
      (outcome.map fun _ => (), built)

/-- Makes calls in turn, whatever their outcomes. -/
def performAll (artifact : Artifact) (calls : List Call) : Artifact :=
  calls.foldl (fun artifact call => (artifact.perform call).2) artifact

/-- The artifacts that some calls lead to. -/
def Reachable (artifact : Artifact) : Prop :=
  ∃ name deviceTypes calls, performAll { name, deviceTypes } calls = artifact

end Artifact

end UpdateArtifact
