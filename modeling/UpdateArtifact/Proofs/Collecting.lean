import Mathlib.Data.List.Nodup
import UpdateArtifact.Proofs.Reachable

/-!
# What calls leave in an artifact

A refused call leaves nothing, and an accepted one adds to the part of the artifact that it
is about.  After any run each part is therefore made of the accepted calls of its kind, in
the order in which they were made.
-/

namespace UpdateArtifact

def Payload.sourceless (payload : Payload) : Payload :=
  { payload with source := { passes := [] } }

namespace Artifact

namespace Call

def group? : Call → Option String
  | .group text => some text
  | _ => none

def provides? : Call → Option (String × Json)
  | .provides key value => some (key, value)
  | _ => none

def depends? : Call → Option (String × Json)
  | .depends key value => some (key, value)
  | _ => none

def payload? : Call → Option Payload
  | .payload added => some added
  | _ => none

def script? : Call → Option (ScriptState × Bytes)
  | .script state content => some (state, content)
  | _ => none

end Call

/-- What was put into an artifact: the group that was set last, the members in the order in
which their keys were first set, and the payloads and scripts in the order of the calls. -/
structure Collects (artifact : Artifact) (name : String) (deviceTypes : List String)
    (calls : List Call) : Prop where
  name_eq : artifact.name = name
  deviceTypes_eq : artifact.deviceTypes = deviceTypes
  group_eq : artifact.group = (calls.filterMap Call.group?).getLast?
  provides_eq : artifact.provides = .ofList (calls.filterMap Call.provides?)
  depends_eq : artifact.depends = .ofList (calls.filterMap Call.depends?)
  payloads_eq : artifact.payloads.map (·.payload.sourceless) =
    (calls.filterMap Call.payload?).map Payload.sourceless
  scripts_eq : artifact.scripts = calls.filterMap Call.script?

theorem Collects.start (name : String) (deviceTypes : List String) :
    Collects { name, deviceTypes } name deviceTypes [] :=
  ⟨rfl, rfl, rfl, rfl, rfl, rfl, rfl⟩

variable {name : String} {deviceTypes : List String}

/-- What an accepted call puts in comes behind what is there of its kind. -/
theorem Collects.add {artifact changed : Artifact} {calls : List Call} {call : Call}
    (collects : artifact.Collects name deviceTypes calls) (sameName : changed.name = artifact.name)
    (sameDevices : changed.deviceTypes = artifact.deviceTypes)
    (group : changed.group = call.group?.or artifact.group)
    (provides : changed.provides =
      call.provides?.elim artifact.provides fun (key, value) => artifact.provides.insert key value)
    (depends : changed.depends =
      call.depends?.elim artifact.depends fun (key, value) => artifact.depends.insert key value)
    (payloads : changed.payloads.map (·.payload.sourceless) =
      call.payload?.elim (artifact.payloads.map (·.payload.sourceless)) fun added =>
        artifact.payloads.map (·.payload.sourceless) ++ [added.sourceless])
    (scripts : changed.scripts =
      call.script?.elim artifact.scripts fun script => artifact.scripts ++ [script]) :
    changed.Collects name deviceTypes (calls ++ [call]) := by
  have last {α : Type} (part : Call → Option α) :
      (calls ++ [call]).filterMap part = calls.filterMap part ++ (part call).toList := by
    rw [List.filterMap_append]
    cases given : part call <;> simp [given]
  constructor
  · rw [sameName, collects.name_eq]
  · rw [sameDevices, collects.deviceTypes_eq]
  · rw [group, collects.group_eq, last]
    cases call.group? <;> simp
  · rw [provides, collects.provides_eq, last]
    cases call.provides? <;> simp [Metadata.ofList]
  · rw [depends, collects.depends_eq, last]
    cases call.depends? <;> simp [Metadata.ofList]
  · rw [payloads, collects.payloads_eq, last]
    cases call.payload? <;> simp
  · rw [scripts, collects.scripts_eq, last]
    cases call.script? <;> simp

variable [Deflate]

def accepted (artifact : Artifact) : List Call → List Call
  | [] => []
  | call :: rest =>
      match artifact.perform call with
      | (.ok (), changed) => call :: changed.accepted rest
      | (.error _, kept) => kept.accepted rest

theorem accepted_cons (artifact : Artifact) (call : Call) (rest : List Call) :
    artifact.accepted (call :: rest) =
      artifact.accepted [call] ++ (artifact.perform call).2.accepted rest := by
  rcases performed : artifact.perform call with ⟨outcome, changed⟩
  cases outcome <;> simp [accepted, performed]

theorem Collects.perform {artifact : Artifact} {calls : List Call}
    (collects : artifact.Collects name deviceTypes calls) (call : Call) :
    (artifact.perform call).2.Collects name deviceTypes (calls ++ artifact.accepted [call]) := by
  cases call with
  | group group => exact collects.add rfl rfl rfl rfl rfl rfl rfl
  | provides key value => exact collects.add rfl rfl rfl rfl rfl rfl rfl
  | depends key value => exact collects.add rfl rfl rfl rfl rfl rfl rfl
  | options options => exact collects.add rfl rfl rfl rfl rfl rfl rfl
  | overrides text =>
      simp only [accepted, Artifact.perform]
      cases Overrides.parse text with
      | error fault => simpa using collects
      | ok overrides => exact collects.add rfl rfl rfl rfl rfl rfl rfl
  | payload payload =>
      simp only [accepted, Artifact.perform]
      cases added : artifact.addPayload payload with
      | error refusal => simpa [settle] using collects
      | ok changed =>
          obtain ⟨entry, _, _, _, _, rfl⟩ := addPayload_ok added
          exact collects.add rfl rfl rfl rfl rfl (by simp [settle, Call.payload?]) rfl
  | script state content =>
      simp only [accepted, Artifact.perform, addScript]
      split
      · simpa [settle] using collects
      · exact collects.add rfl rfl rfl rfl rfl rfl rfl
  | build =>
      -- A build adds nothing either way: its payloads come back with other sources.
      obtain ⟨payloads, kept, same⟩ := artifact.build_keeps
      have mapped := congrArg (List.map (·.payload)) same
      simp only [List.map_map] at mapped
      rcases built : artifact.build with ⟨outcome, changed⟩
      rw [built] at kept
      simp only at kept
      subst kept
      have unchanged : Collects { artifact with payloads } name deviceTypes calls :=
        { collects with payloads_eq := mapped.trans collects.payloads_eq }
      cases outcome with
      | error error => simpa [accepted, Artifact.perform, built, Except.map] using unchanged
      | ok archive =>
          simp only [accepted, Artifact.perform, built, Except.map]
          exact unchanged.add rfl rfl rfl rfl rfl rfl rfl

theorem Collects.performAll {artifact : Artifact} {earlier : List Call}
    (collects : artifact.Collects name deviceTypes earlier) (calls : List Call) :
    (artifact.performAll calls).Collects name deviceTypes (earlier ++ artifact.accepted calls) := by
  induction calls generalizing artifact earlier with
  | nil => simpa [accepted, Artifact.performAll] using collects
  | cons call rest ih =>
      rw [accepted_cons, ← List.append_assoc]
      exact ih (collects.perform call)

/-- No state ever gets two scripts. -/
theorem Reachable.nodup_states {artifact : Artifact} (reachable : artifact.Reachable) :
    (artifact.scripts.map Prod.fst).Nodup := by
  apply reachable.invariant
  · intro name deviceTypes
    exact List.nodup_nil
  · intro artifact call distinct
    cases call with
    | overrides text =>
        simp only [Artifact.perform]
        cases Overrides.parse text <;> exact distinct
    | payload payload =>
        simp only [Artifact.perform]
        cases added : artifact.addPayload payload with
        | error refusal => exact distinct
        | ok changed =>
            obtain ⟨entry, _, _, _, _, rfl⟩ := addPayload_ok added
            exact distinct
    | script state content =>
        simp only [Artifact.perform, addScript]
        split
        · exact distinct
        · next fresh =>
            simp only [settle, List.map_append, List.map_cons, List.map_nil]
            exact List.nodup_append_comm.mp (List.nodup_cons.mpr ⟨fresh, distinct⟩)
    | build =>
        obtain ⟨payloads, kept, _⟩ := artifact.build_keeps
        simp only [Artifact.perform, kept]
        exact distinct
    | _ => exact distinct

end Artifact

end UpdateArtifact
