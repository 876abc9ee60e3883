/-!
# Script states

The points of an installation at which a device runs a script, in the order in
which they come.
-/

namespace UpdateArtifact

/-- A point of an installation that a script can hook into. -/
inductive ScriptState where
  | installEnter
  | installLeave
  | installError
  | rebootEnter
  | rebootLeave
  | rebootError
  | commitEnter
  | commitLeave
  | commitError
  | rollbackEnter
  | rollbackLeave
  | rollbackRebootEnter
  | rollbackRebootLeave
  | failureEnter
  | failureLeave
  deriving DecidableEq

namespace ScriptState

def all : List ScriptState :=
  [installEnter, installLeave, installError, rebootEnter, rebootLeave, rebootError, commitEnter,
    commitLeave, commitError, rollbackEnter, rollbackLeave, rollbackRebootEnter,
    rollbackRebootLeave, failureEnter, failureLeave]

def name : ScriptState → String
  | installEnter => "ArtifactInstall_Enter"
  | installLeave => "ArtifactInstall_Leave"
  | installError => "ArtifactInstall_Error"
  | rebootEnter => "ArtifactReboot_Enter"
  | rebootLeave => "ArtifactReboot_Leave"
  | rebootError => "ArtifactReboot_Error"
  | commitEnter => "ArtifactCommit_Enter"
  | commitLeave => "ArtifactCommit_Leave"
  | commitError => "ArtifactCommit_Error"
  | rollbackEnter => "ArtifactRollback_Enter"
  | rollbackLeave => "ArtifactRollback_Leave"
  | rollbackRebootEnter => "ArtifactRollbackReboot_Enter"
  | rollbackRebootLeave => "ArtifactRollbackReboot_Leave"
  | failureEnter => "ArtifactFailure_Enter"
  | failureLeave => "ArtifactFailure_Leave"

def position (state : ScriptState) : Nat :=
  all.idxOf state

def path (state : ScriptState) : String :=
  "scripts/" ++ state.name

def ofName? (text : String) : Option ScriptState :=
  all.find? fun state => state.name = text

theorem ofName?_name (state : ScriptState) : ofName? state.name = some state := by
  cases state <;> rfl

end ScriptState

end UpdateArtifact
