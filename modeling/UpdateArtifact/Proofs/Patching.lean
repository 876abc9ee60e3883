import UpdateArtifact.Proofs.Manifest
import UpdateArtifact.Proofs.Tar.Entries

/-!
# Patching a buffer

The slots of a draft lie one behind the other, each with room for a checksum.
That alone decides what the completion of a manifest does to a buffer it knows
nothing about: a byte in no checksum field stays, however the completion ends,
and when it gets to the end every field holds the checksum that was recorded.
In an archive with the draft in it the completion does get to the end.
-/

namespace UpdateArtifact

namespace Manifest

/-- A position that lies in none of the checksum fields. -/
def Outside (start : Nat) (slots : List Slot) (position : Nat) : Prop :=
  ∀ slot ∈ slots,
    position < start + slot.offset ∨ start + slot.offset + Checksum.textWidth ≤ position

/-- Slots that stand in order, with room for a checksum in each. -/
def Apart (slots : List Slot) : Prop :=
  slots.Pairwise fun first second => first.offset + Checksum.textWidth ≤ second.offset

theorem le_offset_of_mem_slotsFrom {names : List String} {offset : Nat} :
    ∀ slot ∈ slotsFrom offset names, offset ≤ slot.offset := by
  induction names generalizing offset with
  | nil => simp [slotsFrom]
  | cons name rest ih =>
      intro slot member
      rcases List.mem_cons.mp member with rfl | later
      · exact Nat.le_refl offset
      · have behind := ih slot later
        omega

theorem apart_slotsFrom (offset : Nat) (names : List String) :
    Apart (slotsFrom offset names) := by
  induction names generalizing offset with
  | nil => exact List.Pairwise.nil
  | cons name rest ih =>
      refine List.pairwise_cons.mpr ⟨?_, ih _⟩
      intro slot later
      have behind := le_offset_of_mem_slotsFrom slot later
      have room : Checksum.textWidth ≤ (lineWith placeholder name).length := by
        simp [lineWith, placeholder]
      simp only
      omega

theorem mem_slotsFrom {names : List String} {offset : Nat} {slot : Slot} :
    slot ∈ slotsFrom offset names ↔
      ∃ front back, names = front ++ slot.name :: back ∧
        slot.offset = offset + (draftBody front).length := by
  induction names generalizing offset with
  | nil => simp [slotsFrom]
  | cons name rest ih =>
      rw [slotsFrom, List.mem_cons, ih]
      constructor
      · rintro (rfl | ⟨front, back, rfl, place⟩)
        · exact ⟨[], rest, rfl, rfl⟩
        · refine ⟨name :: front, back, rfl, ?_⟩
          rw [place, draftBody, draftBody, List.flatMap_cons, List.length_append, Nat.add_assoc]
      · rintro ⟨front, back, split, place⟩
        cases front with
        | nil =>
            obtain ⟨rfl, rfl⟩ := List.cons.inj split
            exact .inl (by cases slot; simpa [draftBody] using place)
        | cons first front =>
            obtain ⟨rfl, rfl⟩ := List.cons.inj split
            refine .inr ⟨front, back, rfl, ?_⟩
            rw [place, draftBody, draftBody, List.flatMap_cons, List.length_append, Nat.add_assoc]

/-- A position in the checksum field of a line: the field is what the line begins with,
and the line stands behind those of the names before. -/
def InField (start : Nat) (names : List String) (position : Nat) : Prop :=
  ∃ front name back, names = front ++ name :: back ∧
    start + (draftBody front).length ≤ position ∧
    position < start + (draftBody front).length + Checksum.textWidth

theorem outside_of_not_inField {start position : Nat} {names : List String}
    (elsewhere : ¬ InField start names position) :
    Outside start (slotsFrom 0 names) position := by
  intro slot member
  obtain ⟨front, back, split, place⟩ := mem_slotsFrom.mp member
  rw [Nat.zero_add] at place
  rw [place]
  by_contra inside
  exact elsewhere ⟨front, slot.name, back, split, by omega, by omega⟩

theorem encode_eq_texts (lines : List Line) :
    encode lines = lines.flatMap fun line => Bytes.utf8 (line.text ++ "\n") := by
  simp [encode, lineWith, Line.text]

/-- The archive `final` is `archive` with its drafted manifest completed in place. -/
structure Completed (lines : List Line) (archive final : Bytes) : Prop where
  drafted : ∃ header,
    Tar.entry? archive entryName = some (header, draftBody (lines.map Line.name)) ∧
    Tar.entry? final entryName =
      some (header, lines.flatMap fun line => Bytes.utf8 (line.text ++ "\n"))
  length_eq : final.length = archive.length
  elsewhere : ∃ start, Tar.dataOffset archive entryName = .ok (some start) ∧
    ∀ position, ¬ InField start (lines.map Line.name) position →
      final[position]? = archive[position]?

theorem Draft.addLines_ok {names : List String} {draft grown : Draft}
    (before : (draft.slots.map Slot.name).Nodup) (added : draft.addLines names = .ok grown) :
    (draft.slots.map Slot.name ++ names).Nodup := by
  induction names generalizing draft with
  | nil => simpa using before
  | cons name rest ih =>
      rw [addLines] at added
      split at added
      · contradiction
      · next absent =>
          have names : (draft.addLine name).slots.map Slot.name =
              draft.slots.map Slot.name ++ [name] := by
            simp [addLine]
          have further : ((draft.addLine name).slots.map Slot.name).Nodup := by
            rw [names, ← List.concat_eq_append]
            exact before.concat absent
          simpa [names] using ih further added

theorem Draft.ofNames_ok {names : List String} {draft : Draft}
    (drafted : Draft.ofNames names = .ok draft) :
    names.Nodup ∧ draft = { body := draftBody names, slots := slotsFrom 0 names } := by
  have none : (empty.slots.map Slot.name).Nodup := List.nodup_nil
  have distinct : names.Nodup := by
    simpa [empty] using addLines_ok none drafted
  rw [ofNames_of_nodup distinct] at drafted
  cases drafted
  exact ⟨distinct, rfl⟩

namespace Pending

theorem slice_congr {start count : Nat} {left right : Bytes}
    (same : ∀ position, start ≤ position → position < start + count →
      left[position]? = right[position]?) :
    Bytes.slice start count left = Bytes.slice start count right := by
  apply List.ext_getElem?
  intro index
  simp only [Bytes.slice, List.getElem?_take, List.getElem?_drop]
  split
  · exact same _ (by omega) (by omega)
  · rfl

section Overwrite

variable {buffer content : Bytes} {start : Nat}

theorem getElem?_overwrite_outside (fits : start + content.length ≤ buffer.length)
    {position : Nat} (outside : position < start ∨ start + content.length ≤ position) :
    (overwrite buffer start content)[position]? = buffer[position]? := by
  have kept : (buffer.take start).length = start := by
    rw [List.length_take]
    omega
  rcases outside with ahead | behind
  · rw [overwrite, List.append_assoc, List.getElem?_append_left (by omega),
      List.getElem?_take_of_lt ahead]
  · have skipped : (buffer.take start ++ content).length = start + content.length := by
      rw [List.length_append, kept]
    rw [overwrite, List.getElem?_append_right (by omega), skipped, List.getElem?_drop,
      Nat.add_sub_cancel' behind]

theorem length_overwrite (fits : start + content.length ≤ buffer.length) :
    (overwrite buffer start content).length = buffer.length := by
  simp only [overwrite, List.length_append, List.length_take, List.length_drop]
  omega

theorem slice_overwrite (fits : start + content.length ≤ buffer.length) :
    Bytes.slice start content.length (overwrite buffer start content) = content := by
  have kept : (buffer.take start).length = start := by
    rw [List.length_take]
    omega
  rw [Bytes.slice, overwrite, List.append_assoc, List.drop_left' kept, List.take_left]

end Overwrite

variable {pending : Pending} {start : Nat}

/-- What it takes to complete a first line, and what is left to do then. -/
theorem patch_cons_ok {buffer final : Bytes} {slot : Slot} {rest : List Slot}
    {lines : List Line}
    (completed : pending.patch start buffer (slot :: rest) = (.ok lines, final)) :
    ∃ checksum others,
      pending.checksum? slot.name = some checksum ∧
      start + slot.offset + Checksum.textWidth ≤ buffer.length ∧
      lines = { checksum, name := slot.name } :: others ∧
      pending.patch start
          (overwrite buffer (start + slot.offset) (Bytes.utf8 checksum.hex)) rest =
        (.ok others, final) := by
  rw [patch] at completed
  cases known : pending.checksum? slot.name with
  | none => simp [known] at completed
  | some checksum =>
      simp only [known] at completed
      split at completed
      · simp at completed
      · next inRange =>
          split at completed
          · simp at completed
          · obtain ⟨succeeded, rfl⟩ := Prod.mk.inj completed
            cases outcome : (pending.patch start
                (overwrite buffer (start + slot.offset) (Bytes.utf8 checksum.hex)) rest).1 with
            | error error => simp [outcome, Except.map] at succeeded
            | ok others =>
                simp only [outcome, Except.map, Except.ok.injEq] at succeeded
                exact ⟨checksum, others, rfl, Nat.not_lt.mp inRange, succeeded.symm,
                  Prod.ext outcome rfl⟩

/-- A byte that lies in no checksum field stays, however the completion ends. -/
theorem getElem?_patch {slots : List Slot} {position : Nat} (buffer : Bytes)
    (outside : Outside start slots position) :
    (pending.patch start buffer slots).2[position]? = buffer[position]? := by
  induction slots generalizing buffer with
  | nil => rfl
  | cons slot rest ih =>
      have later : Outside start rest position :=
        fun other member => outside other (List.mem_cons_of_mem _ member)
      rw [patch]
      split
      · rfl
      · next checksum _ =>
          split
          · rfl
          · next inRange =>
              split
              · rfl
              · have width := checksum.length_utf8_hex
                have fits : start + slot.offset + (Bytes.utf8 checksum.hex).length ≤
                    buffer.length := by
                  omega
                have apart := outside slot List.mem_cons_self
                rw [← width] at apart
                exact (ih _ later).trans (getElem?_overwrite_outside fits apart)

theorem slice_patch_ahead (pending : Pending) (start : Nat) {slots : List Slot}
    {offset : Nat} (buffer : Bytes)
    (ahead : ∀ slot ∈ slots, offset + Checksum.textWidth ≤ slot.offset) :
    Bytes.slice (start + offset) Checksum.textWidth (pending.patch start buffer slots).2 =
      Bytes.slice (start + offset) Checksum.textWidth buffer := by
  apply slice_congr
  intro position _ inside
  apply getElem?_patch
  intro slot member
  have behind := ahead slot member
  exact .inl (by omega)

/-- When a completion gets to its end, there is a line for each slot, with the checksum
that was recorded for it. -/
theorem lines_of_patch {slots : List Slot} {buffer final : Bytes} {lines : List Line}
    (completed : pending.patch start buffer slots = (.ok lines, final)) :
    lines.map Line.name = slots.map Slot.name ∧
      ∀ line ∈ lines, pending.checksum? line.name = some line.checksum := by
  induction slots generalizing buffer lines with
  | nil =>
      cases completed
      exact ⟨rfl, by simp⟩
  | cons slot rest ih =>
      obtain ⟨checksum, others, known, _, rfl, further⟩ := patch_cons_ok completed
      obtain ⟨names, later⟩ := ih further
      constructor
      · rw [List.map_cons, List.map_cons, names]
      · intro line member
        rcases List.mem_cons.mp member with rfl | inRest
        · exact known
        · exact later line inRest

theorem fields_of_patch {slots : List Slot} {buffer final : Bytes} {lines : List Line}
    (apart : Apart slots)
    (completed : pending.patch start buffer slots = (.ok lines, final)) :
    List.Forall₂
      (fun slot line => Bytes.slice (start + slot.offset) Checksum.textWidth final =
        Bytes.utf8 line.checksum.hex)
      slots lines := by
  induction slots generalizing buffer lines with
  | nil =>
      cases completed
      exact .nil
  | cons slot rest ih =>
      obtain ⟨ahead, later⟩ := List.pairwise_cons.mp apart
      obtain ⟨checksum, others, _, inRange, rfl, further⟩ := patch_cons_ok completed
      have width := checksum.length_utf8_hex
      have fits : start + slot.offset + (Bytes.utf8 checksum.hex).length ≤ buffer.length := by
        omega
      have written := slice_overwrite fits
      -- The slots that follow do not reach into the field that was just filled.
      have kept := pending.slice_patch_ahead start
        (overwrite buffer (start + slot.offset) (Bytes.utf8 checksum.hex)) ahead
      rw [width] at written
      rw [further, written] at kept
      exact .cons kept (ih later further)

/-- A manifest is completed where it is found, or not at all. -/
theorem finalize_found {archive final : Bytes} {lines : List Line}
    (completed : pending.finalize archive = (.ok lines, final)) :
    ∃ start, Tar.dataOffset archive entryName = .ok (some start) ∧
      pending.patch start archive pending.slots = (.ok lines, final) := by
  rw [finalize] at completed
  split at completed
  · simp at completed
  · simp at completed
  · next start found => exact ⟨start, found, completed⟩

theorem getElem?_finalize {archive : Bytes} {position : Nat}
    (found : Tar.dataOffset archive entryName = .ok (some start))
    (outside : Outside start pending.slots position) :
    (pending.finalize archive).2[position]? = archive[position]? := by
  rw [finalize, found]
  exact getElem?_patch archive outside

/-- The draft of an archive is completed where it stands, whatever stands around it. -/
theorem finalize_of_firstFile {pending : Pending} {lines : List Line} {archive : Bytes}
    (slots : pending.slots = slotsFrom 0 (lines.map Line.name))
    (known : ∀ line ∈ lines, pending.checksum? line.name = some line.checksum)
    (drafted : Tar.FirstFile entryName (draftBody (lines.map Line.name)) archive)
    (fits : archive.length < Tar.Numeral.wordLimit) :
    ∃ final, pending.finalize archive = (.ok lines, final) ∧
      Completed lines archive final := by
  obtain ⟨owner, container, before, path, after, written, rfl, named, others⟩ := drafted
  obtain ⟨_, encoded⟩ := written.encodeAll_eq
  obtain ⟨front, preamble, back, first, accepted, _, bytes⟩ :=
    Tar.Container.encodeAll_split encoded
  have archive : container.close =
      front ++ (preamble ++ draftBody (lines.map Line.name) ++
        Bytes.zeros (Tar.gap (draftBody (lines.map Line.name)).length) ++
          (back ++ Bytes.zeros (2 * Tar.blockSize))) := by
    simp only [Tar.Container.close, bytes, List.append_assoc]
  rw [archive] at fits ⊢
  have room : front.length + preamble.length + ((draftBody (lines.map Line.name)).length +
      Tar.gap (draftBody (lines.map Line.name)).length) < Tar.Numeral.wordLimit := by
    simp only [List.length_append, Bytes.length_zeros] at fits
    omega
  have width := length_encode lines
  have completed := finalize_of_known slots known named others first accepted room
    (back ++ Bytes.zeros (2 * Tar.blockSize))
  have found := Tar.dataOffset_of_accepted first named others accepted
    (back ++ Bytes.zeros (2 * Tar.blockSize)) room
  have entry := Tar.entry?_of_accepted first named others accepted
    (back ++ Bytes.zeros (2 * Tar.blockSize)) room
  rw [← width] at accepted room
  have entryAfter := Tar.entry?_of_accepted first named others accepted
    (back ++ Bytes.zeros (2 * Tar.blockSize)) room
  rw [width] at entryAfter
  rw [encode_eq_texts] at completed entryAfter
  have result := congrArg Prod.snd completed
  refine ⟨_, completed, ⟨_, entry, entryAfter⟩, ?_, _, found, fun position elsewhere => ?_⟩
  · exact (congrArg List.length result).symm.trans (pending.length_finalize _)
  · have outside := outside_of_not_inField elsewhere
    rw [← slots] at outside
    exact (congrArg (·[position]?) result).symm.trans (getElem?_finalize found outside)

end Pending

end Manifest

end UpdateArtifact
