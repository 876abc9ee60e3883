import UpdateArtifact.Proofs.Recording

/-!
# Backpatching is exact

The offsets of a draft add up while its body grows, and the checksums come in any order.
Neither can be seen in the completed archive: it has the manifest that could have been
written at once, had the checksums been known, and is otherwise what it was.
-/

namespace UpdateArtifact

namespace Manifest

/-- A checksum for each name, in the order of the calls. -/
def callsFor (sum : String → Checksum) (order : List String) : List (String × Checksum) :=
  order.map fun name => (name, sum name)

def linesFor (sum : String → Checksum) (names : List String) : List Line :=
  names.map fun name => { checksum := sum name, name }

theorem names_linesFor (sum : String → Checksum) (names : List String) :
    (linesFor sum names).map Line.name = names :=
  List.map_map.trans (List.map_id names)

theorem lookup_callsFor (sum : String → Checksum) {order : List String} {name : String}
    (called : name ∈ order) : (callsFor sum order).reverse.lookup name = some (sum name) := by
  rw [callsFor, ← List.map_reverse]
  exact List.lookup_graph sum (List.mem_reverse.mpr called)

/-- When a checksum is recorded once for each name, in whatever order, no call is refused,
and the draft is completed in every archive that holds it. -/
theorem finalize_exact {names order : List String} (distinct : names.Nodup)
    (each : order.Perm names) (sum : String → Checksum) :
    ∃ draft, Draft.ofNames names = .ok draft ∧
      (draft.pending.recordAll (callsFor sum order)).1 = order.map (fun _ => .ok ()) ∧
      ∀ archive, Tar.FirstFile entryName draft.body archive →
        archive.length < Tar.Numeral.wordLimit →
        ∃ final,
          (draft.pending.recordAll (callsFor sum order)).2.finalize archive =
            (.ok (linesFor sum names), final) ∧
          Completed (linesFor sum names) archive final := by
  let draft : Draft := { body := draftBody names, slots := slotsFrom 0 names }
  have drafted : Draft.ofNames names = .ok draft := Draft.ofNames_of_nodup distinct
  have calls : (callsFor sum order).map Prod.fst = order :=
    List.map_map.trans (List.map_id order)
  refine ⟨draft, drafted, ?_, fun archive first fits => ?_⟩
  · have listed : ∀ call ∈ callsFor sum order, call.1 ∈ draft.pending.slots.map Slot.name := by
      intro call member
      have inOrder : call.1 ∈ order := calls ▸ List.mem_map_of_mem member
      have slots : draft.pending.slots.map Slot.name = names := names_slotsFrom 0 names
      rw [slots]
      exact each.mem_iff.mp inOrder
    have once : ((callsFor sum order).map Prod.fst).Nodup := by
      rw [calls]
      exact each.nodup_iff.mpr distinct
    rw [Pending.outcomes_recordAll listed (fun _ _ => rfl) once, callsFor, List.map_map]
    rfl
  · have slots : (draft.pending.recordAll (callsFor sum order)).2.slots =
        slotsFrom 0 ((linesFor sum names).map Line.name) := by
      rw [Pending.slots_recordAll, names_linesFor]
      rfl
    have known : ∀ line ∈ linesFor sum names,
        (draft.pending.recordAll (callsFor sum order)).2.checksum? line.name =
          some line.checksum := by
      intro line member
      obtain ⟨name, inNames, rfl⟩ := List.mem_map.mp member
      rw [checksum?_pending drafted inNames]
      exact lookup_callsFor sum (each.mem_iff.mpr inNames)
    have body : draft.body = draftBody ((linesFor sum names).map Line.name) := by
      rw [names_linesFor]
    exact Pending.finalize_of_firstFile slots known (body ▸ first) fits

theorem finalize_exact_zeros :
    ∃ draft container final,
      Draft.ofNames ["a\n0000", versionName] = .ok draft ∧
      ({ owner := "root" } : Tar.Container).writeAll
          [("b", draft.body), ("./manifest", draft.body), (entryName, [1])] =
        .ok container ∧
      (draft.pending.recordAll
          [(versionName, .ofBytes [98]), ("a\n0000", .ofBytes [97])]).2.finalize
            container.close =
        (.ok [{ checksum := .ofBytes [97], name := "a\n0000" },
          { checksum := .ofBytes [98], name := versionName }], final) ∧
      Completed [{ checksum := .ofBytes [97], name := "a\n0000" },
        { checksum := .ofBytes [98], name := versionName }] container.close final := by
  have distinct : ["a\n0000", versionName].Nodup := by decide
  have swapped : [versionName, "a\n0000"].Perm ["a\n0000", versionName] := .swap _ _ []
  let sum (name : String) : Checksum :=
    if name = versionName then .ofBytes [98] else .ofBytes [97]
  obtain ⟨draft, drafted, _, completes⟩ := finalize_exact distinct swapped sum
  have fit : Tar.Container.ownerFault? "root" = none := by decide
  have short : ∀ path ∈ ["b", "./manifest", entryName], Tar.Container.Short path := by
    decide +kernel
  have shortFiles : ∀ file ∈ [("b", draft.body), ("./manifest", draft.body), (entryName, [1])],
      Tar.Container.Short file.1 :=
    List.forall_mem_map.mp short
  obtain ⟨container, written, bound⟩ := Tar.Container.writeAll_of_short fit shortFiles
  have named : Tar.Path.readName "./manifest" = Bytes.utf8 entryName := by decide +kernel
  have other : Tar.Path.readName "b" ≠ Bytes.utf8 entryName := by decide +kernel
  have first : Tar.FirstFile entryName draft.body container.close :=
    ⟨"root", container, [("b", draft.body)], "./manifest", [(entryName, [1])],
      Tar.Container.Written.start.of_writeAll written, rfl, named, by simpa using other⟩
  have small : container.close.length < Tar.Numeral.wordLimit := by
    refine Nat.lt_of_le_of_lt bound ?_
    obtain ⟨_, rfl⟩ := Draft.ofNames_ok drafted
    decide +kernel
  obtain ⟨final, completed, inPlace⟩ := completes container.close first small
  have calls : callsFor sum [versionName, "a\n0000"] =
      [(versionName, .ofBytes [98]), ("a\n0000", .ofBytes [97])] := by
    simp [callsFor, sum, versionName]
  have lines : linesFor sum ["a\n0000", versionName] =
      [{ checksum := .ofBytes [97], name := "a\n0000" },
        { checksum := .ofBytes [98], name := versionName }] := by
    simp [linesFor, sum, versionName]
  rw [calls, lines] at completed
  rw [lines] at inPlace
  exact ⟨draft, container, final, drafted, written, completed, inPlace⟩

end Manifest

end UpdateArtifact
