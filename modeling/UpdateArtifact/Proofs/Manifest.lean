import UpdateArtifact.Manifest
import UpdateArtifact.Proofs.Checksums
import UpdateArtifact.Proofs.Tar.ReadBack

/-!
# Completing a drafted manifest

A draft has the layout of the manifest it becomes: only the checksum fields
differ, and they are as wide as a checksum.  Completing the slots from first to
last therefore turns the draft into the manifest in place, and every byte around
it stays.
-/

namespace UpdateArtifact

namespace Manifest

def draftBody (names : List String) : Bytes :=
  names.flatMap (lineWith placeholder)

/-- The slots of lines that start at an offset. -/
def slotsFrom (offset : Nat) : List String → List Slot
  | [] => []
  | name :: rest =>
      { name, offset } :: slotsFrom (offset + (lineWith placeholder name).length) rest

theorem names_slotsFrom (offset : Nat) (names : List String) :
    (slotsFrom offset names).map Slot.name = names := by
  induction names generalizing offset with
  | nil => rfl
  | cons name rest ih => simp [slotsFrom, ih]

theorem Draft.addLines_of_nodup {names : List String} (draft : Draft)
    (distinct : (draft.slots.map Slot.name ++ names).Nodup) :
    draft.addLines names =
      .ok
        { body := draft.body ++ draftBody names
          slots := draft.slots ++ slotsFrom draft.body.length names } := by
  induction names generalizing draft with
  | nil => simp [addLines, draftBody, slotsFrom]
  | cons name rest ih =>
      have absent : name ∉ draft.slots.map Slot.name := by
        intro member
        exact (List.nodup_append.mp distinct).2.2 name member name List.mem_cons_self rfl
      have later : ((draft.addLine name).slots.map Slot.name ++ rest).Nodup := by
        simpa [addLine] using distinct
      rw [addLines, if_neg absent, ih _ later]
      simp [addLine, draftBody, slotsFrom]

theorem Draft.ofNames_of_nodup {names : List String} (distinct : names.Nodup) :
    Draft.ofNames names = .ok { body := draftBody names, slots := slotsFrom 0 names } := by
  rw [ofNames, addLines_of_nodup]
  · simp [empty]
  · simpa [empty] using distinct

private theorem field_of_open (front : Bytes) (name : String) (back : Bytes) :
    front.length + Checksum.textWidth ≤
        (front ++ lineWith placeholder name ++ back).length ∧
      Bytes.slice front.length Checksum.textWidth
        (front ++ lineWith placeholder name ++ back) = placeholder := by
  have width : placeholder.length = Checksum.textWidth := by
    simp [placeholder]
  have split : front ++ lineWith placeholder name ++ back =
      front ++ (placeholder ++ (Bytes.utf8 "  " ++ Bytes.utf8 name ++ Bytes.utf8 "\n" ++ back)) := by
    simp [lineWith]
  rw [split]
  constructor
  · rw [List.length_append, List.length_append, width]
    omega
  · rw [Bytes.slice, List.drop_left, ← width, List.take_left]

/-- The slots of a draft lie inside it and are open, wherever it stands. -/
theorem open_of_mem_slotsFrom {names : List String} {start offset : Nat} {front : Bytes}
    (place : start + offset = front.length) (back : Bytes) :
    ∀ slot ∈ slotsFrom offset names,
      start + slot.offset + Checksum.textWidth ≤
          (front ++ draftBody names ++ back).length ∧
        Bytes.slice (start + slot.offset) Checksum.textWidth
          (front ++ draftBody names ++ back) = placeholder := by
  induction names generalizing offset front with
  | nil => simp [slotsFrom]
  | cons name rest ih =>
      have together : front ++ draftBody (name :: rest) ++ back =
          front ++ lineWith placeholder name ++ (draftBody rest ++ back) := by
        simp [draftBody]
      have further : start + (offset + (lineWith placeholder name).length) =
          (front ++ lineWith placeholder name).length := by
        rw [List.length_append, ← place]
        omega
      intro slot member
      rw [together]
      rcases List.mem_cons.mp member with rfl | later
      · rw [place]
        exact field_of_open front name _
      · rw [← List.append_assoc]
        exact ih further slot later

theorem length_lineWith (checksum : Checksum) (name : String) :
    (lineWith (Bytes.utf8 checksum.hex) name).length = (lineWith placeholder name).length := by
  simp [lineWith, checksum.length_utf8_hex, placeholder]

theorem length_encode (lines : List Line) :
    (encode lines).length = (draftBody (lines.map Line.name)).length := by
  induction lines with
  | nil => rfl
  | cons line rest ih =>
      simp only [encode, draftBody, List.flatMap_cons, List.map_cons, List.length_append,
        length_lineWith] at ih ⊢
      rw [ih]

namespace Pending

/-- The checksums of some lines, recorded from the last line to the first. -/
def ofLines (slots : List Slot) (lines : List Line) : Pending :=
  { slots, recorded := lines.map fun line => (line.name, line.checksum) }

/-- The line of a name that has none so far is recorded in front. -/
theorem record_ofLines {slots : List Slot} {lines : List Line} {name : String}
    (slot : name ∈ slots.map Slot.name) (fresh : name ∉ lines.map Line.name)
    (checksum : Checksum) :
    (ofLines slots lines).record name checksum =
      (.ok (), ofLines slots ({ checksum, name } :: lines)) := by
  have missing : (ofLines slots lines).checksum? name = none := by
    rw [checksum?, List.lookup_eq_none_iff]
    intro pair member
    obtain ⟨line, inLines, rfl⟩ := List.mem_map.mp member
    simp only [bne_iff_ne, ne_eq]
    rintro rfl
    exact fresh (List.mem_map_of_mem inLines)
  have known : ¬ name ∉ (ofLines slots lines).slots.map Slot.name := not_not_intro slot
  simp only [record, known, missing, if_false, Option.isSome_none, Bool.false_eq_true]
  rfl

theorem checksum?_ofLines (slots : List Slot) {lines : List Line}
    (distinct : (lines.map Line.name).Nodup) :
    ∀ line ∈ lines, (ofLines slots lines).checksum? line.name = some line.checksum := by
  induction lines with
  | nil => simp
  | cons first rest ih =>
      obtain ⟨absent, later⟩ := List.nodup_cons.mp distinct
      intro line member
      rcases List.mem_cons.mp member with rfl | inRest
      · simp [checksum?, ofLines]
      · have other : line.name ≠ first.name := by
          intro same
          exact absent (same ▸ List.mem_map_of_mem inRest)
        have found := ih later line inRest
        simp only [checksum?, ofLines, List.map_cons, List.lookup_cons] at found ⊢
        rw [beq_false_of_ne other, found]

theorem overwrite_append (front back : Bytes) {old new : Bytes}
    (width : new.length = old.length) :
    overwrite (front ++ old ++ back) front.length new = front ++ new ++ back := by
  rw [overwrite, width, List.append_assoc front old, List.take_left, ← List.drop_drop,
    List.drop_left, List.drop_left]

/-- One step of the completion: the first open field is filled in, and the line
joins what is complete. -/
private theorem patch_slot {pending : Pending} {line : Line} {start offset : Nat}
    {front : Bytes} (known : pending.checksum? line.name = some line.checksum)
    (place : start + offset = front.length) (back : Bytes) (rest : List Slot) :
    pending.patch start (front ++ lineWith placeholder line.name ++ back)
        ({ name := line.name, offset } :: rest) =
      match pending.patch start
          (front ++ lineWith (Bytes.utf8 line.checksum.hex) line.name ++ back) rest with
      | (outcome, final) => (outcome.map (line :: ·), final) := by
  let ending := Bytes.utf8 "  " ++ Bytes.utf8 line.name ++ Bytes.utf8 "\n" ++ back
  have split (field : Bytes) :
      front ++ lineWith field line.name ++ back = front ++ field ++ ending := by
    simp [lineWith, ending]
  have width : placeholder.length = Checksum.textWidth := by
    simp [placeholder]
  obtain ⟨inside, unfilled⟩ := field_of_open front line.name back
  rw [split] at inside unfilled
  have inRange : ¬ (front ++ placeholder ++ ending).length <
      start + offset + Checksum.textWidth := by
    rw [place]
    exact Nat.not_lt.mpr inside
  have blank : ¬ Bytes.slice (start + offset) Checksum.textWidth
      (front ++ placeholder ++ ending) ≠ placeholder := by
    rw [Decidable.not_not, place]
    exact unfilled
  have filled : overwrite (front ++ placeholder ++ ending) (start + offset)
      (Bytes.utf8 line.checksum.hex) = front ++ Bytes.utf8 line.checksum.hex ++ ending := by
    rw [place]
    exact overwrite_append front ending (line.checksum.length_utf8_hex.trans width.symm)
  rw [split, split, patch]
  simp only [known, inRange, blank, filled, if_false]

/-- Completing all slots turns the draft into the manifest, wherever it stands. -/
theorem patch_slotsFrom {pending : Pending} {lines : List Line}
    (known : ∀ line ∈ lines, pending.checksum? line.name = some line.checksum)
    {start offset : Nat} {front : Bytes} (place : start + offset = front.length)
    (back : Bytes) :
    pending.patch start (front ++ draftBody (lines.map Line.name) ++ back)
        (slotsFrom offset (lines.map Line.name)) =
      (.ok lines, front ++ encode lines ++ back) := by
  induction lines generalizing offset front with
  | nil => simp [patch, slotsFrom, draftBody, encode]
  | cons line rest ih =>
      let done := lineWith (Bytes.utf8 line.checksum.hex) line.name
      have width : done.length = (lineWith placeholder line.name).length :=
        length_lineWith line.checksum line.name
      have further : start + (offset + (lineWith placeholder line.name).length) =
          (front ++ done).length := by
        rw [List.length_append, ← place, width]
        omega
      have later := ih (fun other member => known other (List.mem_cons_of_mem _ member)) further
      have step := patch_slot (known line List.mem_cons_self) place
        (draftBody (rest.map Line.name) ++ back)
        (slotsFrom (offset + (lineWith placeholder line.name).length) (rest.map Line.name))
      have together : front ++ draftBody ((line :: rest).map Line.name) ++ back =
          front ++ lineWith placeholder line.name ++
            (draftBody (rest.map Line.name) ++ back) := by
        simp [draftBody]
      rw [List.map_cons, slotsFrom, ← List.map_cons, together, step,
        ← List.append_assoc _ (draftBody _), later]
      simp [Except.map, encode, done]

theorem length_patch (pending : Pending) (start : Nat) (buffer : Bytes) (slots : List Slot) :
    (pending.patch start buffer slots).2.length = buffer.length := by
  induction slots generalizing buffer with
  | nil => rfl
  | cons slot rest ih =>
      simp only [patch]
      split
      · rfl
      · next checksum _ =>
          split
          · rfl
          · next inRange =>
              split
              · rfl
              · rw [ih, overwrite]
                have width := checksum.length_utf8_hex
                simp only [List.length_append, List.length_take, List.length_drop, width]
                omega

theorem length_finalize (pending : Pending) (archive : Bytes) :
    (pending.finalize archive).2.length = archive.length := by
  unfold finalize
  split
  · rfl
  · rfl
  · exact pending.length_patch _ archive _

theorem finalize_ok {pending : Pending} {archive final : Bytes}
    (completed : ((pending.finalize archive).1.map fun _ => (pending.finalize archive).2) =
      .ok final) :
    final = (pending.finalize archive).2 ∧ final.length = archive.length := by
  cases outcome : (pending.finalize archive).1 with
  | error error =>
      rw [outcome] at completed
      contradiction
  | ok lines =>
      rw [outcome] at completed
      cases completed
      exact ⟨rfl, pending.length_finalize archive⟩

/-- A drafted manifest is completed where it stands, as long as positions up to its end
are words. -/
theorem finalize_of_known {owner path : String} {before : List (String × Bytes)}
    {pending : Pending} {lines : List Line} {front preamble : Bytes}
    (slots : pending.slots = slotsFrom 0 (lines.map Line.name))
    (known : ∀ line ∈ lines, pending.checksum? line.name = some line.checksum)
    (named : Tar.Path.readName path = Bytes.utf8 entryName)
    (others : ∀ file ∈ before, Tar.Path.readName file.1 ≠ Bytes.utf8 entryName)
    (first : Tar.Container.encodeAll owner before = .ok front)
    (accepted : Tar.Container.accept owner path
      (draftBody (lines.map Line.name)).length = .ok preamble)
    (room : front.length + preamble.length +
        ((draftBody (lines.map Line.name)).length +
          Tar.gap (draftBody (lines.map Line.name)).length) < Tar.Numeral.wordLimit)
    (rest : Bytes) :
    pending.finalize
        (front ++ (preamble ++ draftBody (lines.map Line.name) ++
          Bytes.zeros (Tar.gap (draftBody (lines.map Line.name)).length) ++ rest)) =
      (.ok lines,
        front ++ (preamble ++ encode lines ++
          Bytes.zeros (Tar.gap (draftBody (lines.map Line.name)).length) ++ rest)) := by
  have place : front.length + preamble.length + 0 = (front ++ preamble).length := by
    rw [List.length_append]
    rfl
  have patched := patch_slotsFrom known place
    (Bytes.zeros (Tar.gap (draftBody (lines.map Line.name)).length) ++ rest)
  have found := Tar.dataOffset_of_accepted first named others accepted rest room
  rw [← slots] at patched
  generalize draftBody (lines.map Line.name) = draft at *
  have around (data : Bytes) :
      front ++ (preamble ++ data ++ Bytes.zeros (Tar.gap draft.length) ++ rest) =
        front ++ preamble ++ data ++ (Bytes.zeros (Tar.gap draft.length) ++ rest) := by
    simp
  rw [finalize, found]
  simp only
  rw [around, around]
  exact patched

theorem finalize_of_split {owner : String} {before : List (String × Bytes)}
    {lines : List Line} {front preamble : Bytes}
    (plain : ∀ file ∈ before, Tar.Path.Plain file.1)
    (others : ∀ file ∈ before, file.1 ≠ entryName) (distinct : (lines.map Line.name).Nodup)
    (first : Tar.Container.encodeAll owner before = .ok front)
    (accepted : Tar.Container.accept owner entryName
      (draftBody (lines.map Line.name)).length = .ok preamble)
    (room : front.length + preamble.length +
        ((draftBody (lines.map Line.name)).length +
          Tar.gap (draftBody (lines.map Line.name)).length) < Tar.Numeral.wordLimit)
    (rest : Bytes) :
    (ofLines (slotsFrom 0 (lines.map Line.name)) lines).finalize
        (front ++ (preamble ++ draftBody (lines.map Line.name) ++
          Bytes.zeros (Tar.gap (draftBody (lines.map Line.name)).length) ++ rest)) =
      (.ok lines,
        front ++ (preamble ++ encode lines ++
          Bytes.zeros (Tar.gap (draftBody (lines.map Line.name)).length) ++ rest)) := by
  have manifestPlain : Tar.Path.Plain entryName := by decide
  have apart := Tar.readName_ne_of_plain plain others manifestPlain
  rw [manifestPlain.readName_eq] at apart
  exact finalize_of_known rfl (checksum?_ofLines _ distinct) manifestPlain.readName_eq apart
    first accepted room rest

end Pending

end Manifest

end UpdateArtifact
