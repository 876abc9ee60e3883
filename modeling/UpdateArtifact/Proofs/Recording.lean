import UpdateArtifact.Proofs.Patching

/-!
# Recording checksums

A caller may go on after a call to `record` that was refused.  A name without a line is
refused and leaves nothing behind.  A second checksum for a name is reported as well, but
from then on it stands in place of the first: a completed line carries the checksum of the
last call for its name, whatever that call returned.
-/

namespace UpdateArtifact

namespace Manifest

namespace Pending

/-- Records checksums in turn, and goes on after those that are refused.  Gives what each
call returned. -/
def recordAll (pending : Pending) :
    List (String × Checksum) → List (Except ArtifactError Unit) × Pending
  | [] => ([], pending)
  | (name, checksum) :: rest =>
      let (outcome, grown) := pending.record name checksum
      let (outcomes, final) := recordAll grown rest
      (outcome :: outcomes, final)

variable {pending : Pending} {name : String}

theorem record_unlisted (unlisted : name ∉ pending.slots.map Slot.name)
    (checksum : Checksum) :
    pending.record name checksum = (.error (.backpatch name .noLine), pending) :=
  if_pos unlisted

/-- A checksum for a name with a line is kept, also when the call is refused. -/
theorem record_listed (listed : name ∈ pending.slots.map Slot.name) (checksum : Checksum) :
    pending.record name checksum =
      (if (pending.checksum? name).isSome then .error (.backpatch name .recordedTwice)
        else .ok (),
        { pending with recorded := (name, checksum) :: pending.recorded }) := by
  rw [record, if_neg (not_not_intro listed)]
  split <;> rfl

theorem slots_record (pending : Pending) (name : String) (checksum : Checksum) :
    (pending.record name checksum).2.slots = pending.slots := by
  by_cases listed : name ∈ pending.slots.map Slot.name
  · rw [record_listed listed]
  · rw [record_unlisted listed]

theorem checksum?_record (listed : name ∈ pending.slots.map Slot.name) (checksum : Checksum) :
    (pending.record name checksum).2.checksum? =
      Function.update pending.checksum? name (some checksum) := by
  funext other
  rw [record_listed listed, checksum?, List.lookup_cons]
  by_cases same : other = name
  · subst same
    simp
  · rw [beq_false_of_ne same, Function.update_of_ne same]
    rfl

theorem slots_recordAll (pending : Pending) (calls : List (String × Checksum)) :
    (pending.recordAll calls).2.slots = pending.slots := by
  induction calls generalizing pending with
  | nil => rfl
  | cons call rest ih =>
      obtain ⟨name, checksum⟩ := call
      exact (ih _).trans (pending.slots_record name checksum)

/-- Calls leave for each line the checksum of the last of them for its name. -/
theorem checksum?_recordAll (listed : name ∈ pending.slots.map Slot.name)
    (calls : List (String × Checksum)) :
    (pending.recordAll calls).2.checksum? name =
      (calls.reverse.lookup name).or (pending.checksum? name) := by
  induction calls generalizing pending with
  | nil => rfl
  | cons call rest ih =>
      obtain ⟨other, checksum⟩ := call
      have further : name ∈ (pending.record other checksum).2.slots.map Slot.name := by
        rw [slots_record]
        exact listed
      have step : (pending.record other checksum).2.checksum? name =
          ([(other, checksum)].lookup name).or (pending.checksum? name) := by
        by_cases same : name = other
        · subst same
          rw [checksum?_record listed]
          simp
        · have apart : [(other, checksum)].lookup name = none := by
            rw [List.lookup_cons, beq_false_of_ne same]
            rfl
          rw [apart]
          by_cases otherListed : other ∈ pending.slots.map Slot.name
          · rw [checksum?_record otherListed, Function.update_of_ne same]
            rfl
          · rw [record_unlisted otherListed]
            rfl
      have rest := ih further
      rw [step, ← Option.or_assoc, ← List.lookup_append] at rest
      rw [List.reverse_cons]
      exact rest

theorem outcomes_recordAll {calls : List (String × Checksum)}
    (listed : ∀ call ∈ calls, call.1 ∈ pending.slots.map Slot.name)
    (fresh : ∀ call ∈ calls, pending.checksum? call.1 = none)
    (distinct : (calls.map Prod.fst).Nodup) :
    (pending.recordAll calls).1 = calls.map fun _ => .ok () := by
  induction calls generalizing pending with
  | nil => rfl
  | cons call rest ih =>
      obtain ⟨name, checksum⟩ := call
      obtain ⟨absent, later⟩ := List.nodup_cons.mp distinct
      have inSlots := listed _ List.mem_cons_self
      have accepted : (pending.record name checksum).1 = .ok () := by
        rw [record_listed inSlots, fresh _ List.mem_cons_self]
        rfl
      have stillListed : ∀ call ∈ rest,
          call.1 ∈ (pending.record name checksum).2.slots.map Slot.name := by
        intro call member
        rw [slots_record]
        exact listed call (List.mem_cons_of_mem _ member)
      have stillFresh : ∀ call ∈ rest,
          (pending.record name checksum).2.checksum? call.1 = none := by
        intro call member
        have inRest : call.1 ∈ rest.map Prod.fst := List.mem_map_of_mem member
        have different : call.1 ≠ name := fun same => absent (same ▸ inRest)
        rw [checksum?_record inSlots, Function.update_of_ne different]
        exact fresh call (List.mem_cons_of_mem _ member)
      rw [List.map_cons, ← ih stillListed stillFresh later, ← accepted]
      rfl

end Pending

variable {names : List String} {draft : Draft}

/-- What one more call does, when the calls before it were for the names in `earlier`. -/
structure Answers (names earlier : List String) (before : Pending) (name : String)
    (checksum : Checksum) : Prop where
  unlisted : name ∉ names →
    before.record name checksum = (.error (.backpatch name .noLine), before)
  first : name ∈ names → name ∉ earlier → (before.record name checksum).1 = .ok ()
  repeated : name ∈ names → name ∈ earlier →
    (before.record name checksum).1 = .error (.backpatch name .recordedTwice)
  replaced : name ∈ names →
    (before.record name checksum).2.slots = before.slots ∧
    (before.record name checksum).2.checksum? =
      Function.update before.checksum? name (some checksum)

/-- Of the calls for a line's name the first is the one that returned without complaint;
the line carries the checksum of the last, which is that one only if no other follows. -/
def CarriesLast (draft : Draft) (calls : List (String × Checksum)) (line : Line) : Prop :=
  ∃ front accepted back, calls = front ++ (line.name, accepted) :: back ∧
    line.name ∉ front.map Prod.fst ∧
    ((draft.pending.recordAll front).2.record line.name accepted).1 = .ok () ∧
    line.checksum = (back.reverse.lookup line.name).getD accepted

theorem names_pending (drafted : Draft.ofNames names = .ok draft)
    (calls : List (String × Checksum)) :
    (draft.pending.recordAll calls).2.slots.map Slot.name = names := by
  obtain ⟨_, rfl⟩ := Draft.ofNames_ok drafted
  rw [Pending.slots_recordAll]
  exact names_slotsFrom 0 names

theorem checksum?_pending (drafted : Draft.ofNames names = .ok draft) {name : String}
    (listed : name ∈ names) (calls : List (String × Checksum)) :
    (draft.pending.recordAll calls).2.checksum? name = calls.reverse.lookup name := by
  have inSlots : name ∈ draft.pending.slots.map Slot.name := by
    have same := names_pending drafted []
    rw [← same] at listed
    exact listed
  rw [Pending.checksum?_recordAll inSlots]
  exact Option.or_none

theorem answers (drafted : Draft.ofNames names = .ok draft)
    (calls : List (String × Checksum)) (name : String) (checksum : Checksum) :
    Answers names (calls.map Prod.fst) (draft.pending.recordAll calls).2 name checksum := by
  have slots := names_pending drafted calls
  have recorded (listed : name ∈ names) :
      ((draft.pending.recordAll calls).2.checksum? name).isSome ↔
        name ∈ calls.map Prod.fst := by
    rw [checksum?_pending drafted listed, ← Option.ne_none_iff_isSome, ne_eq,
      List.lookup_eq_none_iff]
    simp
  constructor
  · intro unlisted
    exact Pending.record_unlisted (slots ▸ unlisted) checksum
  · intro listed fresh
    rw [Pending.record_listed (slots ▸ listed), if_neg (fresh ∘ (recorded listed).mp)]
  · intro listed known
    rw [Pending.record_listed (slots ▸ listed), if_pos ((recorded listed).mpr known)]
  · intro listed
    exact ⟨Pending.slots_record _ name checksum,
      Pending.checksum?_record (slots ▸ listed) checksum⟩

theorem carriesLast (drafted : Draft.ofNames names = .ok draft)
    {calls : List (String × Checksum)} {line : Line} (listed : line.name ∈ names)
    (known : (draft.pending.recordAll calls).2.checksum? line.name = some line.checksum) :
    CarriesLast draft calls line := by
  rw [checksum?_pending drafted listed] at known
  have called : line.name ∈ calls.map Prod.fst := by
    by_contra absent
    have none : calls.reverse.lookup line.name = none := by
      rw [List.lookup_eq_none_iff]
      intro call member
      have inCalls : call.1 ∈ calls.map Prod.fst :=
        List.mem_map_of_mem (List.mem_reverse.mp member)
      exact bne_iff_ne.mpr fun same => absent (same ▸ inCalls)
    rw [none] at known
    contradiction
  obtain ⟨earlier, later, split, fresh⟩ := List.eq_append_cons_of_mem called
  obtain ⟨front, rest, rfl, rfl, others⟩ := List.map_eq_append_iff.mp split
  obtain ⟨⟨name, accepted⟩, back, rfl, same, rfl⟩ := List.map_eq_cons_iff.mp others
  have named : name = line.name := same
  subst named
  refine ⟨front, accepted, back, rfl, fresh, ?_, ?_⟩
  · exact (answers drafted front line.name accepted).first listed fresh
  · have last : (front ++ (line.name, accepted) :: back).reverse.lookup line.name =
        some ((back.reverse.lookup line.name).getD accepted) := by
      rw [List.reverse_append, List.reverse_cons, List.lookup_append, List.lookup_append,
        List.lookup_cons, beq_self_eq_true]
      cases back.reverse.lookup line.name <;> rfl
    rw [last] at known
    exact (Option.some.inj known).symm

/-- A call is refused for a name without a line, which changes nothing, or for a name that
was called before, whose checksum it replaces all the same.  A completion after any calls
has the draft's lines, and writes on each the checksum of the last call for its name. -/
theorem completes_with_last (drafted : Draft.ofNames names = .ok draft)
    (calls : List (String × Checksum)) :
    (∀ name checksum,
      Answers names (calls.map Prod.fst) (draft.pending.recordAll calls).2 name checksum) ∧
    ∀ buffer lines final,
      (draft.pending.recordAll calls).2.finalize buffer = (.ok lines, final) →
      lines.map Line.name = names ∧ (∀ line ∈ lines, CarriesLast draft calls line) ∧
      ∃ start, Tar.dataOffset buffer entryName = .ok (some start) ∧
        List.Forall₂
          (fun slot line => Bytes.slice (start + slot.offset) Checksum.textWidth final =
            Bytes.utf8 line.checksum.hex)
          draft.slots lines := by
  refine ⟨answers drafted calls, fun buffer lines final completed => ?_⟩
  obtain ⟨start, found, patched⟩ := Pending.finalize_found completed
  have slots : (draft.pending.recordAll calls).2.slots = draft.slots :=
    Pending.slots_recordAll _ calls
  have apart : Apart draft.slots := by
    obtain ⟨_, rfl⟩ := Draft.ofNames_ok drafted
    exact apart_slotsFrom 0 names
  obtain ⟨same, known⟩ := Pending.lines_of_patch patched
  rw [names_pending drafted] at same
  rw [slots] at patched
  refine ⟨same, fun line member => ?_, start, found, Pending.fields_of_patch apart patched⟩
  exact carriesLast drafted (same ▸ List.mem_map_of_mem member) (known line member)

/-- A container that holds the draft of one line is completed once the line has a
checksum. -/
theorem completes_version {calls : List (String × Checksum)} {checksum : Checksum}
    (drafted : Draft.ofNames [versionName] = .ok draft)
    (last : calls.reverse.lookup versionName = some checksum) :
    ∃ container final,
      ({ owner := "root" } : Tar.Container).writeAll [(entryName, draft.body)] =
        .ok container ∧
      (draft.pending.recordAll calls).2.finalize container.close =
        (.ok [{ checksum, name := versionName }], final) := by
  have known := (checksum?_pending drafted List.mem_cons_self calls).trans last
  obtain ⟨_, same⟩ := Draft.ofNames_ok drafted
  have body : draft.body = draftBody [versionName] := by
    rw [same]
  have slots : (draft.pending.recordAll calls).2.slots = slotsFrom 0 [versionName] := by
    rw [Pending.slots_recordAll, same]
    rfl
  have fit : Tar.Container.ownerFault? "root" = none := by decide
  have short : ∀ file ∈ [(entryName, draftBody [versionName])],
      Tar.Container.Short file.1 := by
    decide
  obtain ⟨container, written, bound⟩ := Tar.Container.writeAll_of_short fit short
  have first : Tar.FirstFile entryName (draftBody [versionName]) container.close :=
    ⟨"root", container, [], entryName, [], Tar.Container.Written.start.of_writeAll written,
      rfl, Tar.Path.Plain.readName_eq (by decide), by simp⟩
  have small : container.close.length < Tar.Numeral.wordLimit :=
    Nat.lt_of_le_of_lt bound (by decide)
  let line : Line := { checksum, name := versionName }
  have recorded : ∀ other ∈ [line],
      (draft.pending.recordAll calls).2.checksum? other.name = some other.checksum := by
    intro other member
    rw [List.mem_singleton.mp member]
    exact known
  obtain ⟨final, completed, _⟩ := Pending.finalize_of_firstFile slots recorded first small
  exact ⟨container, final, body ▸ written, completed⟩

theorem completes_with_last_version :
    ∃ draft container lines final,
      Draft.ofNames [versionName] = .ok draft ∧
      ({ owner := "root" } : Tar.Container).writeAll [(entryName, draft.body)] =
        .ok container ∧
      (draft.pending.recordAll
          [(versionName, .ofBytes [97]), (headerName, .ofBytes [97]),
            (versionName, .ofBytes [98])]).2.finalize container.close = (.ok lines, final) ∧
      lines.map Line.name = [versionName] ∧ ∀ line ∈ lines, line.checksum = .ofBytes [98] := by
  have drafted := Draft.ofNames_of_nodup (List.nodup_singleton versionName)
  obtain ⟨container, final, written, completed⟩ := completes_version drafted
    (show [(versionName, Checksum.ofBytes [97]), (headerName, .ofBytes [97]),
      (versionName, .ofBytes [98])].reverse.lookup versionName = some (.ofBytes [98]) from rfl)
  obtain ⟨names, carried, _⟩ := (completes_with_last drafted _).2 _ _ _ completed
  refine ⟨_, container, _, final, drafted, written, completed, names, fun line member => ?_⟩
  have named : line.name = versionName :=
    List.mem_singleton.mp (names ▸ List.mem_map_of_mem member)
  obtain ⟨front, accepted, back, split, fresh, _, last⟩ := carried line member
  rw [named] at split fresh last
  -- The first call for the name is the first of all, because that is what it is for.
  cases front with
  | nil =>
      cases split
      exact last
  | cons call others =>
      obtain ⟨rfl, _⟩ := List.cons.inj split
      exact (fresh List.mem_cons_self).elim

/-- The second of two calls for a name is refused, and what a completion writes is its
checksum. -/
theorem refused_checksum_written :
    ∃ draft container final,
      Draft.ofNames [versionName] = .ok draft ∧
      ({ owner := "root" } : Tar.Container).writeAll [(entryName, draft.body)] =
        .ok container ∧
      (draft.pending.recordAll
          [(versionName, .ofBytes [97]), (versionName, .ofBytes [98])]).1 =
        [.ok (), .error (.backpatch versionName .recordedTwice)] ∧
      (draft.pending.recordAll
          [(versionName, .ofBytes [97]), (versionName, .ofBytes [98])]).2.finalize
            container.close =
        (.ok [{ checksum := .ofBytes [98], name := versionName }], final) ∧
      Checksum.ofBytes [98] ≠ Checksum.ofBytes [97] := by
  have drafted := Draft.ofNames_of_nodup (List.nodup_singleton versionName)
  obtain ⟨container, final, written, completed⟩ := completes_version drafted
    (show [(versionName, Checksum.ofBytes [97]), (versionName, .ofBytes [98])].reverse.lookup
      versionName = some (.ofBytes [98]) from rfl)
  exact ⟨_, container, final, drafted, written, rfl, completed, by decide +kernel⟩

end Manifest

end UpdateArtifact
