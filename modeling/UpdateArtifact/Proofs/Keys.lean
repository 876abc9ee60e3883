import Mathlib.Data.List.Nodup
import UpdateArtifact.Proofs.Reachable

/-!
# Keys of an artifact

Keys are claimed when a payload is added, and artifact-level keys that come later
meet the payloads only when a build is validated.  Together the two checks keep
all keys of a side apart, so that the builder's own keys in the header-info hold
the builder's own values.
-/

namespace UpdateArtifact

namespace Metadata

theorem put_of_not_mem {key : String} {members : List (String × Json)}
    (fresh : key ∉ members.map Prod.fst) (value : Json) :
    put key value members = members ++ [(key, value)] := by
  induction members with
  | nil => rfl
  | cons member rest ih =>
      rw [List.map_cons, List.mem_cons, not_or] at fresh
      rw [put, if_neg (Ne.symm fresh.1), ih fresh.2, List.cons_append]

private theorem members_foldl_insert {metadata : Metadata} {added : List (String × Json)}
    (distinct : (metadata.keys ++ added.map Prod.fst).Nodup) :
    (added.foldl (fun metadata member => metadata.insert member.1 member.2) metadata).members =
      metadata.members ++ added := by
  induction added generalizing metadata with
  | nil => simp
  | cons member rest ih =>
      have fresh : member.1 ∉ metadata.keys := by
        intro held
        exact (List.nodup_append.mp distinct).2.2 _ held _ List.mem_cons_self rfl
      have later : ((metadata.insert member.1 member.2).keys ++ rest.map Prod.fst).Nodup := by
        rw [keys_insert, if_neg fresh]
        simpa using distinct
      rw [List.foldl_cons, ih later]
      simp [insert, put_of_not_mem fresh]

/-- Keys that are new to the metadata come behind those it has, in their order. -/
theorem members_extend {metadata other : Metadata} (apart : metadata.keys.Disjoint other.keys) :
    (metadata.extend other).members = metadata.members ++ other.members :=
  members_foldl_insert
    (List.nodup_append'.mpr ⟨metadata.distinct, other.distinct, apart⟩)

theorem nodup_keys (metadata : Metadata) : metadata.keys.Nodup :=
  metadata.distinct

theorem lookup_of_mem {metadata : Metadata} {key : String} {value : Json}
    (held : (key, value) ∈ metadata.members) : metadata.members.lookup key = some value := by
  obtain ⟨front, back, split⟩ := List.append_of_mem held
  have distinct := metadata.distinct
  rw [split, List.map_append, List.map_cons] at distinct
  rw [List.lookup_eq_some_iff]
  refine ⟨front, back, split, ?_⟩
  intro other inFront
  rw [bne_iff_ne]
  intro same
  exact (List.nodup_append.mp distinct).2.2 _ (List.mem_map_of_mem inFront) _
    List.mem_cons_self same.symm

end Metadata

theorem Payload.nodup_keys (payload : Payload) (side : Side) : (payload.keys side).Nodup := by
  unfold keys
  cases payload.metadata side with
  | none => exact List.nodup_nil
  | some metadata => exact metadata.nodup_keys

namespace Artifact

theorem nodup_reserved (artifact : Artifact) (side : Side) : (artifact.reserved side).Nodup := by
  cases side with
  | provides =>
      cases set : artifact.group.isSome <;> simp [reserved, set]
  | depends => exact List.nodup_singleton _

/-- The sets of keys that may not meet on a side: those the builder sets, the extra ones
of the artifact, and those of each payload. -/
def keySets (artifact : Artifact) (side : Side) : List (List String) :=
  artifact.reserved side :: (artifact.extra side).keys ::
    artifact.payloads.map fun staged => staged.payload.keys side

theorem flatten_keySets (artifact : Artifact) (side : Side) :
    (artifact.keySets side).flatten = artifact.claimed side := by
  simp [keySets, claimed, List.flatMap_def]

theorem nodup_claimed {artifact : Artifact} {side : Side}
    (apart : (artifact.keySets side).Pairwise List.Disjoint) :
    (artifact.claimed side).Nodup := by
  rw [← flatten_keySets, List.nodup_flatten]
  refine ⟨?_, apart⟩
  intro keys member
  simp only [keySets, List.mem_cons, List.mem_map] at member
  rcases member with rfl | rfl | ⟨staged, _, rfl⟩
  · exact artifact.nodup_reserved side
  · exact (artifact.extra side).nodup_keys
  · exact staged.payload.nodup_keys side

/-- No two payloads have a key in common on the same side. -/
def PayloadsApart (artifact : Artifact) : Prop :=
  ∀ side, (artifact.payloads.map fun staged => staged.payload.keys side).Pairwise List.Disjoint

theorem PayloadsApart.addPayload {artifact changed : Artifact} {payload : Payload}
    (apart : artifact.PayloadsApart) (added : artifact.addPayload payload = .ok changed) :
    changed.PayloadsApart := by
  obtain ⟨entry, _, _, _, free, rfl⟩ := addPayload_ok added
  intro side
  rw [List.map_append, List.pairwise_append]
  refine ⟨apart side, by simp, ?_⟩
  intro earlier member last newest key held taken
  obtain ⟨staged, inPayloads, rfl⟩ := List.mem_map.mp member
  rw [List.map_singleton, List.mem_singleton] at newest
  subst newest
  apply free side key taken
  rw [claimed, List.mem_append, List.mem_flatMap]
  exact .inr ⟨staged, inPayloads, held⟩

theorem PayloadsApart.of_sourceless {artifact changed : Artifact}
    (apart : artifact.PayloadsApart)
    (same : changed.payloads.map StagedPayload.sourceless =
      artifact.payloads.map StagedPayload.sourceless) :
    changed.PayloadsApart := by
  intro side
  have keys := congrArg (List.map fun staged => staged.payload.keys side) same
  have sourceless (staged : StagedPayload) :
      staged.sourceless.payload.keys side = staged.payload.keys side := by
    cases side <;> rfl
  simp only [List.map_map, Function.comp_def, sourceless] at keys
  rw [keys]
  exact apart side

theorem Reachable.payloadsApart [Deflate] {artifact : Artifact}
    (reachable : artifact.Reachable) : artifact.PayloadsApart := by
  apply reachable.invariant
  · intro name deviceTypes side
    exact .nil
  · intro artifact call apart
    rcases artifact.perform_cases call with ⟨payload, added⟩ | same
    · exact apart.addPayload added
    · exact apart.of_sourceless same

/-- A side is without conflict if the keys of the artifact are apart from each other
and from those of the payloads.  Payloads are not compared with each other. -/
theorem conflict?_eq_none_iff (artifact : Artifact) (side : Side) :
    artifact.conflict? side = none ↔
      List.Disjoint (artifact.reserved side) (artifact.extra side).keys ∧
        ∀ staged ∈ artifact.payloads,
          List.Disjoint (artifact.reserved side) (staged.payload.keys side) ∧
            List.Disjoint (artifact.extra side).keys (staged.payload.keys side) := by
  have owned : (artifact.payloads.findSome? fun staged =>
        (staged.payload.keys side).find? fun key =>
          key ∈ (artifact.extra side).keys ∨ key ∈ artifact.reserved side) = none ↔
      ∀ staged ∈ artifact.payloads,
        List.Disjoint (artifact.reserved side) (staged.payload.keys side) ∧
          List.Disjoint (artifact.extra side).keys (staged.payload.keys side) := by
    rw [List.findSome?_eq_none_iff]
    apply forall₂_congr
    intro staged _
    simp only [List.find?_eq_none, decide_eq_true_eq, not_or, List.Disjoint]
    constructor
    · intro free
      exact ⟨fun key held taken => (free key taken).2 held,
        fun key held taken => (free key taken).1 held⟩
    · rintro ⟨reserved, extra⟩ key taken
      exact ⟨fun held => extra held taken, fun held => reserved held taken⟩
  have found : ((artifact.extra side).keys.find? fun key => key ∈ artifact.reserved side) =
      none ↔ List.Disjoint (artifact.reserved side) (artifact.extra side).keys := by
    simp only [List.find?_eq_none, decide_eq_true_eq, List.Disjoint]
    exact ⟨fun free key held taken => free key taken held,
      fun apart key taken held => apart held taken⟩
  rw [← owned, ← found, conflict?]
  simp only
  split
  · next key clash => simp [clash]
  · next free => simp [free]

theorem pairwise_keySets_iff {artifact : Artifact} (apart : artifact.PayloadsApart)
    (side : Side) :
    (artifact.keySets side).Pairwise List.Disjoint ↔ artifact.conflict? side = none := by
  rw [conflict?_eq_none_iff, keySets, List.pairwise_cons, List.pairwise_cons]
  simp only [List.forall_mem_cons, List.forall_mem_map, apart side, and_true]
  constructor
  · rintro ⟨⟨extra, reserved⟩, payloads⟩
    exact ⟨extra, fun staged member => ⟨reserved staged member, payloads staged member⟩⟩
  · rintro ⟨extra, payloads⟩
    exact ⟨⟨extra, fun staged member => (payloads staged member).1⟩,
      fun staged member => (payloads staged member).2⟩

/-- What can be built, as far as the input is concerned. -/
structure Valid (artifact : Artifact) : Prop where
  named : artifact.name ≠ ""
  someDevice : artifact.deviceTypes ≠ []
  devicesNamed : "" ∉ artifact.deviceTypes
  groupNamed : artifact.group ≠ some ""
  ownerFits : (Bytes.utf8 artifact.options.ownerName).length ≤ 32
  keysApart : ∀ side, (artifact.keySets side).Pairwise List.Disjoint

theorem Valid.extraApart {artifact : Artifact} (valid : artifact.Valid) (side : Side) :
    (artifact.reserved side).Disjoint (artifact.extra side).keys :=
  (List.pairwise_cons.mp (valid.keysApart side)).1 _ List.mem_cons_self

/-- Validation accepts exactly what can be built. -/
theorem validate_eq_ok_iff {artifact : Artifact} (apart : artifact.PayloadsApart) :
    artifact.validate = .ok () ↔ artifact.Valid := by
  have keys : (∀ side, (artifact.keySets side).Pairwise List.Disjoint) ↔
      artifact.conflict? .provides = none ∧ artifact.conflict? .depends = none := by
    simp only [pairwise_keySets_iff apart]
    exact ⟨fun free => ⟨free .provides, free .depends⟩,
      fun free side => match side with
        | .provides => free.1
        | .depends => free.2⟩
  have owner : ¬ Tar.Container.ownerWidth < (Bytes.utf8 artifact.options.ownerName).length ↔
      (Bytes.utf8 artifact.options.ownerName).length ≤ 32 :=
    Nat.not_lt
  constructor
  · intro accepted
    unfold validate at accepted
    split at accepted
    · contradiction
    · next named =>
      split at accepted
      · contradiction
      · next someDevice =>
        split at accepted
        · contradiction
        · next devicesNamed =>
          split at accepted
          · contradiction
          · next groupNamed =>
            split at accepted
            · contradiction
            · next ownerFits =>
              split at accepted
              · contradiction
              · contradiction
              · next provides depends =>
                exact ⟨named, someDevice, devicesNamed, groupNamed, owner.mp ownerFits,
                  keys.mpr ⟨provides, depends⟩⟩
  · rintro ⟨named, someDevice, devicesNamed, groupNamed, ownerFits, keysApart⟩
    obtain ⟨provides, depends⟩ := keys.mp keysApart
    simp only [validate, named, someDevice, devicesNamed, groupNamed, owner.mpr ownerFits,
      provides, depends, if_false]

end Artifact

end UpdateArtifact
