import UpdateArtifact.Proofs.Recording

/-!
# Completing part of a manifest

A completion that cannot go on leaves what it has done.  The fields of a draft do not
overlap, so that what a slot needs can be told from the buffer as it was before: the fields
in front of the first slot that lacks something are filled in, and no other byte is changed.
-/

namespace UpdateArtifact

namespace Manifest

namespace Pending

/-- What it takes to complete the line of a slot in a buffer. -/
structure Completable (pending : Pending) (start : Nat) (buffer : Bytes) (slot : Slot) :
    Prop where
  recorded : (pending.checksum? slot.name).isSome
  inside : start + slot.offset + Checksum.textWidth ≤ buffer.length
  unfilled : Bytes.slice (start + slot.offset) Checksum.textWidth buffer = placeholder

/-- The first thing that keeps the line of a slot from being completed. -/
inductive Obstacle (pending : Pending) (start : Nat) (buffer : Bytes) (slot : Slot) :
    BackpatchFault → Prop where
  | missing (unknown : pending.checksum? slot.name = none) :
      Obstacle pending start buffer slot .missing
  | outOfRange (recorded : (pending.checksum? slot.name).isSome)
      (beyond : buffer.length < start + slot.offset + Checksum.textWidth) :
      Obstacle pending start buffer slot .outOfRange
  | noPlaceholder (recorded : (pending.checksum? slot.name).isSome)
      (inside : start + slot.offset + Checksum.textWidth ≤ buffer.length)
      (filled : Bytes.slice (start + slot.offset) Checksum.textWidth buffer ≠ placeholder) :
      Obstacle pending start buffer slot (.noPlaceholder (start + slot.offset))

/-- The buffer `final` is `buffer` with the fields of some slots filled in, all of which
were open before. -/
structure FilledIn (pending : Pending) (start : Nat) (slots : List Slot)
    (buffer final : Bytes) : Prop where
  length_eq : final.length = buffer.length
  opened : ∀ slot ∈ slots, pending.Completable start buffer slot
  filled : ∀ slot ∈ slots, ∀ checksum, pending.checksum? slot.name = some checksum →
    Bytes.slice (start + slot.offset) Checksum.textWidth final = Bytes.utf8 checksum.hex
  elsewhere : ∀ position, Outside start slots position → final[position]? = buffer[position]?

/-- How a completion ends that leaves the slots in `left` as they are. -/
inductive Ends (pending : Pending) (start : Nat) (buffer : Bytes) :
    (left : List Slot) → Except ArtifactError (List Line) → Prop where
  | complete (lines : List Line) : Ends pending start buffer [] (.ok lines)
  | stuck {slot : Slot} {fault : BackpatchFault}
      (obstacle : pending.Obstacle start buffer slot fault) (rest : List Slot) :
      Ends pending start buffer (slot :: rest) (.error (.backpatch slot.name fault))

variable {pending : Pending} {start : Nat}

theorem Obstacle.not_completable {buffer : Bytes} {slot : Slot} {fault : BackpatchFault}
    (obstacle : pending.Obstacle start buffer slot fault) :
    ¬ pending.Completable start buffer slot := by
  intro completable
  cases obstacle with
  | missing unknown =>
      have recorded := completable.recorded
      rw [unknown] at recorded
      contradiction
  | outOfRange _ beyond => exact Nat.not_lt.mpr completable.inside beyond
  | noPlaceholder _ _ filled => exact filled completable.unfilled

/-- Buffers of the same length that agree on the field of a slot. -/
structure SameField (start : Nat) (slot : Slot) (left right : Bytes) : Prop where
  length_eq : left.length = right.length
  field_eq : Bytes.slice (start + slot.offset) Checksum.textWidth left =
    Bytes.slice (start + slot.offset) Checksum.textWidth right

theorem Completable.of_sameField {left right : Bytes} {slot : Slot}
    (same : SameField start slot left right)
    (completable : pending.Completable start left slot) :
    pending.Completable start right slot :=
  ⟨completable.recorded, same.length_eq ▸ completable.inside,
    same.field_eq ▸ completable.unfilled⟩

theorem Obstacle.of_sameField {left right : Bytes} {slot : Slot} {fault : BackpatchFault}
    (same : SameField start slot left right)
    (obstacle : pending.Obstacle start left slot fault) :
    pending.Obstacle start right slot fault := by
  cases obstacle with
  | missing unknown => exact .missing unknown
  | outOfRange recorded beyond => exact .outOfRange recorded (same.length_eq ▸ beyond)
  | noPlaceholder recorded inside filled =>
      exact .noPlaceholder recorded (same.length_eq ▸ inside) (same.field_eq ▸ filled)

/-- A completion fills in the field of the first slot and goes on, or changes nothing. -/
theorem patch_cons (buffer : Bytes) (slot : Slot) (rest : List Slot) :
    (∃ checksum, pending.checksum? slot.name = some checksum ∧
      pending.Completable start buffer slot ∧
      pending.patch start buffer (slot :: rest) =
        (((pending.patch start
            (overwrite buffer (start + slot.offset) (Bytes.utf8 checksum.hex)) rest).1.map
              ({ checksum, name := slot.name } :: ·)),
          (pending.patch start
            (overwrite buffer (start + slot.offset) (Bytes.utf8 checksum.hex)) rest).2)) ∨
    ∃ fault, pending.Obstacle start buffer slot fault ∧
      pending.patch start buffer (slot :: rest) =
        (.error (.backpatch slot.name fault), buffer) := by
  rw [patch]
  cases known : pending.checksum? slot.name with
  | none => exact .inr ⟨_, .missing known, rfl⟩
  | some checksum =>
      have recorded : (pending.checksum? slot.name).isSome := by
        rw [known]
        rfl
      simp only
      split
      · next beyond => exact .inr ⟨_, .outOfRange recorded beyond, rfl⟩
      · next inside =>
          rw [Nat.not_lt] at inside
          split
          · next filled => exact .inr ⟨_, .noPlaceholder recorded inside filled, rfl⟩
          · next unfilled =>
              rw [Decidable.not_not] at unfilled
              exact .inl ⟨checksum, rfl, ⟨recorded, inside, unfilled⟩, rfl⟩

theorem sameField_overwrite {buffer : Bytes} {slot other : Slot} (checksum : Checksum)
    (inside : start + slot.offset + Checksum.textWidth ≤ buffer.length)
    (behind : slot.offset + Checksum.textWidth ≤ other.offset) :
    SameField start other
      (overwrite buffer (start + slot.offset) (Bytes.utf8 checksum.hex)) buffer := by
  have width := checksum.length_utf8_hex
  have fits : start + slot.offset + (Bytes.utf8 checksum.hex).length ≤ buffer.length := by
    omega
  refine ⟨length_overwrite fits, slice_congr fun position after _ => ?_⟩
  exact getElem?_overwrite_outside fits (.inr (by omega))

theorem FilledIn.nil (buffer : Bytes) : pending.FilledIn start [] buffer buffer :=
  ⟨rfl, by simp, by simp, fun _ _ => rfl⟩

theorem FilledIn.cons {buffer final : Bytes} {slot : Slot} {slots : List Slot}
    {checksum : Checksum} (known : pending.checksum? slot.name = some checksum)
    (completable : pending.Completable start buffer slot)
    (behind : ∀ other ∈ slots, slot.offset + Checksum.textWidth ≤ other.offset)
    (later : pending.FilledIn start slots
      (overwrite buffer (start + slot.offset) (Bytes.utf8 checksum.hex)) final) :
    pending.FilledIn start (slot :: slots) buffer final := by
  have width := checksum.length_utf8_hex
  have inside := completable.inside
  have fits : start + slot.offset + (Bytes.utf8 checksum.hex).length ≤ buffer.length := by
    omega
  constructor
  · rw [later.length_eq, length_overwrite fits]
  · intro other member
    rcases List.mem_cons.mp member with rfl | inSlots
    · exact completable
    · exact (later.opened other inSlots).of_sameField
        (sameField_overwrite checksum inside (behind other inSlots))
  · intro other member found recorded
    rcases List.mem_cons.mp member with rfl | inSlots
    -- Nothing that is written later reaches back into the first field.
    · rw [known] at recorded
      cases recorded
      have written := slice_overwrite fits
      rw [width] at written
      rw [← written]
      apply slice_congr
      intro position _ inField
      apply later.elsewhere
      intro next inSlots
      have apart := behind next inSlots
      exact .inl (by omega)
    · exact later.filled other inSlots found recorded
  · intro position outside
    have apart := outside slot List.mem_cons_self
    rw [← width] at apart
    rw [later.elsewhere position fun other member => outside other (List.mem_cons_of_mem _ member)]
    exact getElem?_overwrite_outside fits apart

/-- A completion fills in the fields up to the first slot that lacks something in the
buffer as it was. -/
theorem patch_ends {slots : List Slot} (apart : Apart slots) (buffer : Bytes) :
    ∃ front left, slots = front ++ left ∧
      pending.FilledIn start front buffer (pending.patch start buffer slots).2 ∧
      pending.Ends start buffer left (pending.patch start buffer slots).1 := by
  induction slots generalizing buffer with
  | nil => exact ⟨[], [], rfl, .nil buffer, .complete []⟩
  | cons slot rest ih =>
      obtain ⟨behind, restApart⟩ := List.pairwise_cons.mp apart
      rcases patch_cons buffer slot rest with
        ⟨checksum, known, completable, patched⟩ | ⟨fault, obstacle, stopped⟩
      · obtain ⟨front, left, rfl, filled, ends⟩ := ih restApart
          (overwrite buffer (start + slot.offset) (Bytes.utf8 checksum.hex))
        refine ⟨slot :: front, left, rfl, ?_, ?_⟩
        · rw [patched]
          exact filled.cons known completable fun other member =>
            behind other (List.mem_append_left _ member)
        · rw [patched]
          cases left with
          | nil =>
              generalize (pending.patch start _ _).1 = outcome at ends
              cases ends
              exact .complete _
          | cons next others =>
              have field := sameField_overwrite checksum completable.inside
                (behind next (List.mem_append_right _ List.mem_cons_self))
              generalize (pending.patch start _ _).1 = outcome at ends
              cases ends with
              | stuck obstacle => exact .stuck (obstacle.of_sameField field) others
      · rw [stopped]
        exact ⟨[], slot :: rest, rfl, .nil buffer, .stuck obstacle rest⟩

end Pending

variable {names : List String} {draft : Draft} {pending : Pending}

/-- Completing a manifest does no harm to a buffer, whatever it holds.  Where no manifest is
found nothing is changed.  Otherwise checksums replace the placeholders of the first slots,
up to the first one that has no checksum or no open field, which the error names. -/
theorem finalize_fills_open_fields (drafted : Draft.ofNames names = .ok draft)
    {calls : List (String × Checksum)} (recorded : (draft.pending.recordAll calls).2 = pending)
    (buffer : Bytes) :
    (∀ fault, Tar.dataOffset buffer entryName = .error fault →
      pending.finalize buffer = (.error (.read fault), buffer)) ∧
    (Tar.dataOffset buffer entryName = .ok none →
      pending.finalize buffer = (.error .manifestNotFound, buffer)) ∧
    ∀ start, Tar.dataOffset buffer entryName = .ok (some start) →
      ∃ count ≤ draft.slots.length,
        pending.FilledIn start (draft.slots.take count) buffer (pending.finalize buffer).2 ∧
        ((∃ lines, (pending.finalize buffer).1 = .ok lines) ↔ count = draft.slots.length) ∧
        (count = draft.slots.length ↔
          ∀ slot ∈ draft.slots, pending.Completable start buffer slot) ∧
        ∀ slot, draft.slots[count]? = some slot →
          ∃ fault, pending.Obstacle start buffer slot fault ∧
            (pending.finalize buffer).1 = .error (.backpatch slot.name fault) := by
  have slots : pending.slots = draft.slots := by
    rw [← recorded]
    exact Pending.slots_recordAll _ calls
  have apart : Apart draft.slots := by
    obtain ⟨_, rfl⟩ := Draft.ofNames_ok drafted
    exact apart_slotsFrom 0 names
  refine ⟨fun fault unreadable => ?_, fun absent => ?_, fun start found => ?_⟩
  · simp only [Pending.finalize, unreadable]
  · simp only [Pending.finalize, absent]
  have completed : pending.finalize buffer = pending.patch start buffer draft.slots := by
    rw [Pending.finalize, found, slots]
  obtain ⟨front, left, split, filled, ends⟩ := Pending.patch_ends apart buffer
  rw [completed]
  generalize pending.patch start buffer draft.slots = result at *
  obtain ⟨outcome, final⟩ := result
  refine ⟨front.length, ?_, ?_, ?_⟩
  · simp [split]
  · rw [split, List.take_left]
    exact filled
  cases ends with
  | complete lines =>
      rw [List.append_nil] at split
      subst split
      exact ⟨by simp, by simpa using filled.opened, by simp⟩
  | @stuck slot fault obstacle rest =>
      have fewer : front.length ≠ draft.slots.length := by
        simp [split]
      refine ⟨by simp [fewer], ?_, ?_⟩
      · refine iff_of_false fewer fun all => obstacle.not_completable (all slot ?_)
        simp [split]
      · intro next atFront
        have same : slot = next := by
          simpa [split] using atFront
        exact ⟨fault, same ▸ obstacle, by rw [same]⟩

theorem finalize_fills_open_fields_unrecorded :
    ∃ draft container start,
      Draft.ofNames ["a", versionName] = .ok draft ∧
      ({ owner := "root" } : Tar.Container).writeAll [("b", [1]), (entryName, draft.body)] =
        .ok container ∧
      Tar.dataOffset container.close entryName = .ok (some start) ∧
      (draft.pending.recordAll [("a", .ofBytes [97])]).2.FilledIn start (draft.slots.take 1)
        container.close
        ((draft.pending.recordAll [("a", .ofBytes [97])]).2.finalize container.close).2 ∧
      ((draft.pending.recordAll [("a", .ofBytes [97])]).2.finalize container.close).1 =
        .error (.backpatch versionName .missing) := by
  have drafted := Draft.ofNames_of_nodup (by decide : ["a", versionName].Nodup)
  have fit : Tar.Container.ownerFault? "root" = none := by decide
  have short : ∀ file ∈ [("b", [1]), (entryName, draftBody ["a", versionName])],
      Tar.Container.Short file.1 := by
    simp only [List.forall_mem_cons]
    decide
  obtain ⟨container, written, bound⟩ := Tar.Container.writeAll_of_short fit short
  have first : Tar.FirstFile entryName (draftBody ["a", versionName]) container.close :=
    ⟨"root", container, [("b", [1])], entryName, [],
      Tar.Container.Written.start.of_writeAll written, rfl,
      Tar.Path.Plain.readName_eq (by decide), by simpa using (by decide +kernel)⟩
  have small : container.close.length < Tar.Numeral.wordLimit :=
    Nat.lt_of_le_of_lt bound (by decide +kernel)
  obtain ⟨front, back, archive, found⟩ := first.found small
  obtain ⟨_, _, completes⟩ :=
    finalize_fills_open_fields drafted
      (rfl : (Pending.recordAll _ [("a", .ofBytes [97])]).2 = _) container.close
  obtain ⟨count, few, filled, _, all, stuck⟩ := completes front.length found
  have unfilled := @open_of_mem_slotsFrom ["a", versionName] _ _ _
    (Nat.add_zero front.length) back
  rw [← archive] at unfilled
  have one : count = 1 := by
    have notAll : count ≠ 2 := by
      intro both
      have recorded := (all.mp both ⟨versionName, _⟩
        (List.mem_cons_of_mem _ List.mem_cons_self)).recorded
      revert recorded
      decide +kernel
    have notNone : count ≠ 0 := by
      rintro rfl
      obtain ⟨fault, obstacle, _⟩ := stuck _ rfl
      obtain ⟨inside, blank⟩ := unfilled _ List.mem_cons_self
      exact obstacle.not_completable ⟨rfl, inside, blank⟩
    simp only [slotsFrom, List.length_cons, List.length_nil] at few
    omega
  subst one
  obtain ⟨fault, obstacle, stopped⟩ := stuck _ rfl
  refine ⟨_, container, front.length, drafted, written, found, filled, ?_⟩
  cases obstacle with
  | missing => exact stopped
  | outOfRange recorded => exact absurd recorded (by decide +kernel)
  | noPlaceholder recorded => exact absurd recorded (by decide +kernel)

end Manifest

end UpdateArtifact
