import UpdateArtifact.Proofs.Addressing

/-!
# Which payloads are accepted

A payload is judged by the room that is left, by its name and type, and by its keys, each
side for itself.  The check for a name that is taken never decides: the index in the name is
new.  All checks come before the payload is stored, so that a refused payload leaves no
trace, not even in what later payloads may use.
-/

namespace UpdateArtifact

theorem PayloadEntry.make_of_valid {index : Nat} {name : Option String}
    (valid : ValidName (name.getD (defaultName index))) (bound : index ≤ lastIndex) :
    ∃ entry, make index name = .ok entry := by
  simp [make, valid, bound]

namespace Artifact

/-- The file name of a payload that is added next. -/
def nextName (artifact : Artifact) (payload : Payload) : String :=
  payload.name.getD (PayloadEntry.defaultName artifact.payloads.length)

/-- What makes a payload fit the artifact.  A key on the other side does not matter. -/
structure Admits (artifact : Artifact) (payload : Payload) : Prop where
  room : artifact.payloads.length < 10000
  named : artifact.nextName payload ≠ ""
  slashless : '/' ∉ (artifact.nextName payload).toList
  notHere : artifact.nextName payload ≠ "."
  notAbove : artifact.nextName payload ≠ ".."
  typed : payload.type ≠ ""
  depends : ∀ key ∈ payload.keys .depends,
    key ≠ "device_type" ∧ key ∉ artifact.depends.keys ∧
      ∀ earlier ∈ artifact.payloads, key ∉ earlier.payload.keys .depends
  provides : ∀ key ∈ payload.keys .provides,
    key ≠ "artifact_name" ∧ (artifact.group.isSome → key ≠ "artifact_group") ∧
      key ∉ artifact.provides.keys ∧
        ∀ earlier ∈ artifact.payloads, key ∉ earlier.payload.keys .provides

theorem not_mem_claimed_depends (artifact : Artifact) (key : String) :
    key ∉ artifact.claimed .depends ↔
      key ≠ "device_type" ∧ key ∉ artifact.depends.keys ∧
        ∀ earlier ∈ artifact.payloads, key ∉ earlier.payload.keys .depends := by
  simp [claimed, reserved, extra, not_or]

theorem not_mem_claimed_provides (artifact : Artifact) (key : String) :
    key ∉ artifact.claimed .provides ↔
      key ≠ "artifact_name" ∧ (artifact.group.isSome → key ≠ "artifact_group") ∧
        key ∉ artifact.provides.keys ∧
          ∀ earlier ∈ artifact.payloads, key ∉ earlier.payload.keys .provides := by
  cases grouped : artifact.group.isSome <;>
    simp [claimed, reserved, extra, grouped, not_or]

/-- The keys of a payload fit exactly if none of them is claimed on its side. -/
theorem Admits.unclaimed {artifact : Artifact} {payload : Payload}
    (admits : artifact.Admits payload) (side : Side) : artifact.clash? payload side = none := by
  rw [clash?_eq_none_iff]
  intro key member
  cases side with
  | provides => exact (artifact.not_mem_claimed_provides key).mpr (admits.provides key member)
  | depends => exact (artifact.not_mem_claimed_depends key).mpr (admits.depends key member)

theorem admits_of_addPayload {artifact changed : Artifact} {payload : Payload}
    (added : artifact.addPayload payload = .ok changed) : artifact.Admits payload := by
  obtain ⟨entry, made, typed, _, unclaimed, _⟩ := addPayload_ok added
  obtain ⟨index, basename⟩ := PayloadEntry.make_ok made
  have bound := entry.index_le
  rw [index, PayloadEntry.lastIndex] at bound
  have valid : PayloadEntry.ValidName (artifact.nextName payload) := by
    rw [nextName, ← basename]
    exact entry.validName
  obtain ⟨named, slashless, notHere, notAbove⟩ := valid
  exact
    { room := by omega
      named, slashless, notHere, notAbove, typed
      depends := fun key member =>
        (artifact.not_mem_claimed_depends key).mp (unclaimed .depends key member)
      provides := fun key member =>
        (artifact.not_mem_claimed_provides key).mp (unclaimed .provides key member) }

theorem addPayload_of_admits {artifact : Artifact} (addressed : artifact.Addressed)
    {payload : Payload} (admits : artifact.Admits payload) :
    ∃ entry, entry.index = artifact.payloads.length ∧
      entry.basename = artifact.nextName payload ∧
      artifact.addPayload payload =
        .ok { artifact with payloads := artifact.payloads ++ [{ entry, payload }] } := by
  have room := admits.room
  have bound : artifact.payloads.length ≤ PayloadEntry.lastIndex := by
    rw [PayloadEntry.lastIndex]
    omega
  obtain ⟨entry, made⟩ := PayloadEntry.make_of_valid
    ⟨admits.named, admits.slashless, admits.notHere, admits.notAbove⟩ bound
  obtain ⟨index, basename⟩ := PayloadEntry.make_ok made
  have fresh := addressed.entryName_fresh made
  rw [entryNames] at fresh
  refine ⟨entry, index, basename, ?_⟩
  simp only [addPayload, entryFor, made, admits.typed, fresh, admits.unclaimed, if_false]
  rfl

section

variable [Deflate]

/-- In every artifact that calls lead to, a payload is accepted exactly if it fits.  It then
stands behind the others, and nothing else is changed.  A refusal is one of the input and
leaves the whole artifact as it was, so that all later calls find what they would have found
without the refused one. -/
theorem perform_payload_iff {artifact changed : Artifact} (reachable : artifact.Reachable)
    {payload : Payload} {outcome : Except ArtifactError Unit}
    (performed : artifact.perform (.payload payload) = (outcome, changed)) :
    (outcome = .ok () ↔ artifact.Admits payload) ∧
    (outcome = .ok () → ∃ entry, entry.index = artifact.payloads.length ∧
      entry.basename = artifact.nextName payload ∧
      changed = { artifact with payloads := artifact.payloads ++ [{ entry, payload }] }) ∧
    (∀ error, outcome = .error error →
      error.isValidation = true ∧ changed = artifact ∧
        ∀ later, artifact.performAll (.payload payload :: later) = artifact.performAll later) := by
  by_cases admits : artifact.Admits payload
  · obtain ⟨entry, index, basename, added⟩ :=
      addPayload_of_admits reachable.addressed admits
    simp only [Artifact.perform, added, settle, Prod.mk.injEq] at performed
    obtain ⟨rfl, rfl⟩ := performed
    refine ⟨⟨fun _ => admits, fun _ => rfl⟩, fun _ => ⟨entry, index, basename, rfl⟩, ?_⟩
    intro error refused
    cases refused
  · cases added : artifact.addPayload payload with
    | ok changed => exact (admits (admits_of_addPayload added)).elim
    | error refusal =>
        have settled : artifact.perform (.payload payload) =
            (.error (.validation refusal), artifact) := by
          simp only [Artifact.perform, added, settle]
        rw [settled, Prod.mk.injEq] at performed
        obtain ⟨rfl, rfl⟩ := performed
        refine ⟨⟨?refused, fun fits => (admits fits).elim⟩, ?notStored, ?unchanged⟩
        case refused | notStored =>
          intro accepted
          cases accepted
        case unchanged =>
          intro error same
          cases same
          refine ⟨rfl, rfl, fun later => ?_⟩
          rw [performAll, List.foldl_cons, settled]
          rfl

end

/-- An artifact with a group, a key of its own and a payload with another. -/
def grouped : Artifact :=
  performAll { name := "release", deviceTypes := ["device"] }
    [.group "beta", .provides "os" .null,
      .payload { source := .ofBytes [1], provides := some (.ofList [("app", .null)]) }]

/-- A payload that uses keys of the other side. -/
def crossing : Payload :=
  { source := .ofBytes [2], depends := some (.ofList [("artifact_group", .null), ("app", .null)])
    provides := some (.ofList [("device_type", .null)]) }

/-- A payload whose depends fit, but not its provides. -/
def clashing : Payload :=
  { source := .ofBytes [3], depends := some (.ofList [("library", .null)])
    provides := some (.ofList [("os", .null)]) }

theorem perform_payload_iff_grouped :
    grouped.Reachable ∧ (grouped.perform (.payload crossing)).1 = .ok () ∧
      ∃ error, (grouped.perform (.payload clashing)).1 = .error error ∧
        error.isValidation = true ∧ (grouped.perform (.payload clashing)).2 = grouped := by
  have reachable : grouped.Reachable := ⟨_, _, _, rfl⟩
  have admits : grouped.Admits crossing := by
    constructor <;> decide +kernel
  have refused : ¬ grouped.Admits clashing := by
    intro admits
    exact (admits.provides "os" (by decide +kernel)).2.2.1 (by decide +kernel)
  rcases accepted : grouped.perform (.payload crossing) with ⟨outcome, changed⟩
  rcases performed : grouped.perform (.payload clashing) with ⟨answer, kept⟩
  obtain ⟨fits, _, _⟩ := perform_payload_iff reachable accepted
  obtain ⟨unfit, _, unchanged⟩ := perform_payload_iff reachable performed
  refine ⟨reachable, fits.mpr admits, ?_⟩
  cases answer with
  | ok done => exact (refused (unfit.mp rfl)).elim
  | error error =>
      obtain ⟨validation, same, _⟩ := unchanged error rfl
      exact ⟨error, rfl, validation, same⟩

end Artifact

end UpdateArtifact
