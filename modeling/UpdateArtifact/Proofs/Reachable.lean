import UpdateArtifact.Artifact.Call

/-!
# Artifacts that calls lead to

Payloads are only ever added, each with the next index and an address of its
own, and a build changes nothing but the sources.  So in every artifact that
calls lead to, the payloads are numbered by their places and no two share a
name.
-/

namespace UpdateArtifact

/-- The payload without the state of its source. -/
def StagedPayload.sourceless (staged : StagedPayload) : StagedPayload :=
  { staged with payload := { staged.payload with source := { passes := [] } } }

theorem PayloadEntry.make_ok {index : Nat} {name : Option String} {entry : PayloadEntry}
    (made : PayloadEntry.make index name = .ok entry) :
    entry.index = index ∧ entry.basename = name.getD (defaultName index) := by
  unfold make at made
  simp only at made
  split at made
  · split at made
    · cases made
      exact ⟨rfl, rfl⟩
    · contradiction
  · contradiction

namespace Artifact

/-- Payloads numbered by their places, with addresses of their own. -/
structure Addressed (artifact : Artifact) : Prop where
  indices : artifact.payloads.map (·.entry.index) = List.range artifact.payloads.length
  distinct : artifact.entryNames.Nodup

theorem clash?_eq_none_iff (artifact : Artifact) (payload : Payload) (side : Side) :
    artifact.clash? payload side = none ↔
      ∀ key ∈ payload.keys side, key ∉ artifact.claimed side := by
  simp [clash?]

/-- An accepted payload stands at the end, with the next index, a new name, a type, and
no key that was claimed before. -/
theorem addPayload_ok {artifact changed : Artifact} {payload : Payload}
    (added : artifact.addPayload payload = .ok changed) :
    ∃ entry, PayloadEntry.make artifact.payloads.length payload.name = .ok entry ∧
      payload.type ≠ "" ∧ entry.entryName ∉ artifact.entryNames ∧
      (∀ side, ∀ key ∈ payload.keys side, key ∉ artifact.claimed side) ∧
      changed = { artifact with payloads := artifact.payloads ++ [{ entry, payload }] } := by
  unfold addPayload entryFor at added
  cases made : PayloadEntry.make artifact.payloads.length payload.name with
  | error refusal =>
      rw [made] at added
      contradiction
  | ok entry =>
      rw [made] at added
      simp only at added
      split at added
      · contradiction
      · next typed =>
          split at added
          · contradiction
          · next absent =>
              split at added
              · contradiction
              · contradiction
              · next depends provides =>
                  cases added
                  refine ⟨entry, rfl, typed, absent, ?_, rfl⟩
                  intro side
                  cases side with
                  | provides => exact (artifact.clash?_eq_none_iff payload _).mp provides
                  | depends => exact (artifact.clash?_eq_none_iff payload _).mp depends

theorem Addressed.withOptions {artifact : Artifact} (addressed : artifact.Addressed)
    (options : BuildOptions) : (artifact.withOptions options).Addressed :=
  ⟨addressed.indices, addressed.distinct⟩

theorem Addressed.addPayload {artifact changed : Artifact} {payload : Payload}
    (addressed : artifact.Addressed) (added : artifact.addPayload payload = .ok changed) :
    changed.Addressed := by
  obtain ⟨entry, made, _, absent, _, rfl⟩ := addPayload_ok added
  have index := (PayloadEntry.make_ok made).1
  constructor
  · simp [addressed.indices, index, List.range_succ]
  · simp only [entryNames, List.map_append, List.map_cons, List.map_nil]
    rw [List.nodup_append]
    refine ⟨addressed.distinct, by simp, ?_⟩
    intro name member other last same
    rw [List.mem_singleton] at last
    exact absent (last ▸ same ▸ member)

variable [Deflate]

theorem embed_keeps (payload : Payload) (entry : PayloadEntry) (options : BuildOptions)
    (outer : Tar.Container) :
    ∃ source, (payload.embed entry options outer).2.2 = { payload with source } := by
  unfold Payload.embed
  split
  · exact ⟨_, rfl⟩
  · split
    · exact ⟨_, rfl⟩
    · split
      · exact ⟨_, rfl⟩
      · split <;> exact ⟨_, rfl⟩

theorem sourceless_embedAll (options : BuildOptions) (outer : Tar.Container)
    (manifest : Manifest.Pending) (payloads : List StagedPayload) :
    (embedAll options outer manifest payloads).2.map StagedPayload.sourceless =
      payloads.map StagedPayload.sourceless := by
  induction payloads generalizing outer manifest with
  | nil => rfl
  | cons staged rest ih =>
      obtain ⟨source, kept⟩ := embed_keeps staged.payload staged.entry options outer
      rcases embedded : staged.payload.embed staged.entry options outer with
        ⟨outcome, grown, after⟩
      rw [embedded] at kept
      simp only at kept
      subst kept
      cases outcome with
      | error error => simp [embedAll, embedded, StagedPayload.sourceless]
      | ok checksum =>
          rcases recorded : manifest.record staged.entry.entryName checksum with
            ⟨outcome, pending⟩
          cases outcome with
          | error error => simp [embedAll, embedded, recorded, StagedPayload.sourceless]
          | ok done =>
              simp [embedAll, embedded, recorded, ih]
              simp [StagedPayload.sourceless]

/-- A build changes nothing of an artifact but the sources of its payloads. -/
theorem build_keeps (artifact : Artifact) :
    ∃ payloads, artifact.build.2 = { artifact with payloads } ∧
      payloads.map StagedPayload.sourceless =
        artifact.payloads.map StagedPayload.sourceless := by
  unfold build
  split
  · exact ⟨_, rfl, rfl⟩
  · split
    · exact ⟨_, rfl, rfl⟩
    · next outer manifest _ =>
        have kept := sourceless_embedAll artifact.options outer manifest artifact.payloads
        split
        · next embedded =>
            rw [embedded] at kept
            exact ⟨_, rfl, kept⟩
        · next embedded =>
            rw [embedded] at kept
            exact ⟨_, rfl, kept⟩

omit [Deflate] in
theorem Addressed.of_sourceless {artifact changed : Artifact}
    (addressed : artifact.Addressed)
    (same : changed.payloads.map StagedPayload.sourceless =
      artifact.payloads.map StagedPayload.sourceless) :
    changed.Addressed := by
  have entries : changed.payloads.map (·.entry) = artifact.payloads.map (·.entry) := by
    have mapped := congrArg (List.map StagedPayload.entry) same
    simpa [List.map_map, Function.comp_def, StagedPayload.sourceless] using mapped
  constructor
  · have indices := congrArg (List.map PayloadEntry.index) entries
    have length := congrArg List.length entries
    simp only [List.map_map, Function.comp_def, List.length_map] at indices length
    simp only [length, indices, addressed.indices]
  · have names := congrArg (List.map PayloadEntry.entryName) entries
    simp only [List.map_map, Function.comp_def] at names
    simp only [entryNames, names]
    exact addressed.distinct

/-- A call adds a payload that is accepted, or else leaves all of the payloads but their
sources. -/
theorem perform_cases (artifact : Artifact) (call : Call) :
    (∃ payload, artifact.addPayload payload = .ok (artifact.perform call).2) ∨
      (artifact.perform call).2.payloads.map StagedPayload.sourceless =
        artifact.payloads.map StagedPayload.sourceless := by
  cases call with
  | group group => exact .inr rfl
  | provides key value => exact .inr rfl
  | depends key value => exact .inr rfl
  | options options => exact .inr rfl
  | overrides text =>
      right
      simp only [Artifact.perform]
      split <;> rfl
  | payload payload =>
      cases added : artifact.addPayload payload with
      | error refusal =>
          right
          simp only [Artifact.perform, added, settle]
      | ok changed =>
          left
          exact ⟨payload, by simp only [Artifact.perform, added, settle]⟩
  | script state content =>
      right
      simp only [Artifact.perform, addScript]
      split <;> rfl
  | build =>
      obtain ⟨payloads, kept, same⟩ := artifact.build_keeps
      right
      simp only [Artifact.perform]
      rw [kept]
      exact same

theorem Addressed.perform {artifact : Artifact} (addressed : artifact.Addressed) (call : Call) :
    (artifact.perform call).2.Addressed := by
  rcases artifact.perform_cases call with ⟨payload, added⟩ | same
  · exact addressed.addPayload added
  · exact addressed.of_sourceless same

/-- What holds of new artifacts and is kept by every call holds wherever calls
lead. -/
theorem Reachable.invariant {property : Artifact → Prop}
    (start : ∀ name deviceTypes, property { name, deviceTypes })
    (step : ∀ artifact call, property artifact → property (artifact.perform call).2)
    {artifact : Artifact} (reachable : artifact.Reachable) : property artifact := by
  obtain ⟨name, deviceTypes, calls, rfl⟩ := reachable
  have run : ∀ artifact, property artifact → property (artifact.performAll calls) := by
    induction calls with
    | nil => exact fun _ holds => holds
    | cons call rest ih => exact fun artifact holds => ih _ (step artifact call holds)
  exact run _ (start name deviceTypes)

theorem Reachable.addressed {artifact : Artifact} (reachable : artifact.Reachable) :
    artifact.Addressed :=
  reachable.invariant (fun _ _ => ⟨rfl, List.nodup_nil⟩)
    fun _ call addressed => addressed.perform call

end Artifact

end UpdateArtifact
