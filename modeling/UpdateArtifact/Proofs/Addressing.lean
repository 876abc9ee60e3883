import UpdateArtifact.Proofs.Reading

/-!
# Addresses of payloads

The index of a payload is its place, and a refused payload takes none.  Three names are
made from the four digits of an index.  They lie in different directories, so that no two
names of an artifact are the same and no payload ever meets its own name.
-/

namespace UpdateArtifact

namespace PayloadEntry

theorem length_digits (entry : PayloadEntry) : (fourDigits entry.index).toList.length = 4 := by
  have small : entry.index < 10 ^ 4 := Nat.lt_succ_of_le entry.index_le
  have few := (Nat.length_toDigits_le_iff (by decide) (by decide)).mpr small
  rw [toList_fourDigits, List.length_append, List.length_replicate]
  omega

theorem slash_not_mem_digits (entry : PayloadEntry) :
    '/' ∉ (fourDigits entry.index).toList :=
  fun member => absurd (isDigit_of_mem_fourDigits member) (by decide)

theorem pieces_entryName (entry : PayloadEntry) :
    pieces '/' entry.entryName.toList =
      ["data".toList, (fourDigits entry.index).toList, entry.basename.toList] := by
  have split : entry.entryName.toList =
      "data".toList ++ '/' :: ((fourDigits entry.index).toList ++ '/' :: entry.basename.toList) := by
    simp [toList_entryName]
  rw [split, pieces_append_cons, pieces_append_cons, pieces_of_not_mem (by decide),
    pieces_of_not_mem entry.slash_not_mem_digits, pieces_of_not_mem entry.validName.2.1]
  rfl

theorem pieces_archiveName (entry : PayloadEntry) :
    pieces '/' entry.archiveName.toList =
      ["data".toList, (fourDigits entry.index).toList ++ ".tar.gz".toList] := by
  have noSlash : '/' ∉ (fourDigits entry.index).toList ++ ".tar.gz".toList := by
    rw [List.mem_append, not_or]
    exact ⟨entry.slash_not_mem_digits, by decide⟩
  rw [toList_archiveName, pieces_append_cons, pieces_of_not_mem (by decide),
    pieces_of_not_mem noSlash]
  rfl

theorem pieces_headerDirectory (entry : PayloadEntry) :
    pieces '/' entry.headerDirectory.toList =
      ["headers".toList, (fourDigits entry.index).toList] := by
  have split : entry.headerDirectory.toList =
      "headers".toList ++ '/' :: (fourDigits entry.index).toList := by
    simp [headerDirectory]
  rw [split, pieces_append_cons, pieces_of_not_mem (by decide),
    pieces_of_not_mem entry.slash_not_mem_digits]
  rfl

private theorem index_eq_of_digits {left right : PayloadEntry}
    (digits : (fourDigits left.index).toList = (fourDigits right.index).toList) :
    left.index = right.index :=
  fourDigits_injective (String.toList_injective digits)

theorem index_eq_of_entryName {left right : PayloadEntry}
    (same : left.entryName = right.entryName) : left.index = right.index := by
  have cut := right.pieces_entryName
  rw [← same, pieces_entryName] at cut
  simp only [List.cons.injEq] at cut
  exact index_eq_of_digits cut.2.1

theorem index_eq_of_archiveName {left right : PayloadEntry}
    (same : left.archiveName = right.archiveName) : left.index = right.index := by
  have cut := right.pieces_archiveName
  rw [← same, pieces_archiveName] at cut
  simp only [List.cons.injEq, List.append_cancel_right_eq] at cut
  exact index_eq_of_digits cut.2.1

theorem index_eq_of_headerDirectory {left right : PayloadEntry}
    (same : left.headerDirectory = right.headerDirectory) : left.index = right.index := by
  have cut := right.pieces_headerDirectory
  rw [← same, pieces_headerDirectory] at cut
  simp only [List.cons.injEq] at cut
  exact index_eq_of_digits cut.2.1

end PayloadEntry

namespace Artifact

theorem Addressed.nodup_indices {artifact : Artifact} (addressed : artifact.Addressed) :
    (artifact.payloads.map (·.entry.index)).Nodup := by
  rw [addressed.indices]
  exact List.nodup_range

theorem Addressed.nodup_map {artifact : Artifact} (addressed : artifact.Addressed)
    {name : PayloadEntry → String}
    (tells : ∀ left right : PayloadEntry, name left = name right → left.index = right.index) :
    (artifact.payloads.map fun staged => name staged.entry).Nodup := by
  rw [List.Nodup, List.pairwise_map]
  exact (List.pairwise_map.mp addressed.nodup_indices).imp
    fun different same => different (tells _ _ same)

/-- All names of an artifact: those in the manifest and those of the entries that hold the
payloads, the directories in the header archive, and the fixed ones. -/
def allNames (artifact : Artifact) : List String :=
  artifact.payloads.map (·.entry.entryName) ++ (artifact.payloads.map (·.entry.archiveName) ++
    (artifact.payloads.map (·.entry.headerDirectory) ++
      [Manifest.versionName, Manifest.entryName, Manifest.headerName]))

/-- The directories on the way to a name. -/
private def folders (name : String) : List (List Char) :=
  (pieces '/' name.toList).dropLast

private theorem nodup_append_of_folders {front back : List String} (first : front.Nodup)
    (second : back.Nodup)
    (apart : ∀ name ∈ front, ∀ other ∈ back, folders name ≠ folders other) :
    (front ++ back).Nodup := by
  rw [List.nodup_append]
  exact ⟨first, second, fun name inFront other inBack same =>
    apart name inFront other inBack (congrArg folders same)⟩

theorem Addressed.nodup_allNames {artifact : Artifact} (addressed : artifact.Addressed) :
    artifact.allNames.Nodup := by
  have entries : ∀ name ∈ artifact.payloads.map (·.entry.entryName),
      (folders name).length = 2 := by
    simp only [List.forall_mem_map, folders, PayloadEntry.pieces_entryName]
    exact fun _ _ => rfl
  have archives : ∀ name ∈ artifact.payloads.map (·.entry.archiveName),
      folders name = ["data".toList] := by
    simp only [List.forall_mem_map, folders, PayloadEntry.pieces_archiveName]
    exact fun _ _ => rfl
  have headers : ∀ name ∈ artifact.payloads.map (·.entry.headerDirectory),
      folders name = ["headers".toList] := by
    simp only [List.forall_mem_map, folders, PayloadEntry.pieces_headerDirectory]
    exact fun _ _ => rfl
  have fixed : ∀ name ∈ [Manifest.versionName, Manifest.entryName, Manifest.headerName],
      folders name = [] := by
    decide
  refine nodup_append_of_folders
    (addressed.nodup_map fun _ _ => PayloadEntry.index_eq_of_entryName)
    (nodup_append_of_folders
      (addressed.nodup_map fun _ _ => PayloadEntry.index_eq_of_archiveName)
      (nodup_append_of_folders
        (addressed.nodup_map fun _ _ => PayloadEntry.index_eq_of_headerDirectory)
        (by decide) ?_) ?_) ?_
  · intro name inHeaders other inFixed
    rw [headers name inHeaders, fixed other inFixed]
    decide
  · intro name inArchives other later
    rw [archives name inArchives]
    rcases List.mem_append.mp later with inHeaders | inFixed
    · rw [headers other inHeaders]
      decide
    · rw [fixed other inFixed]
      decide
  -- Only the names in the manifest lie two directories down.
  · intro name inEntries other later same
    have deep := entries name inEntries
    rw [same] at deep
    rcases List.mem_append.mp later with inArchives | later
    · rw [archives other inArchives] at deep
      contradiction
    · rcases List.mem_append.mp later with inHeaders | inFixed
      · rw [headers other inHeaders] at deep
        contradiction
      · rw [fixed other inFixed] at deep
        contradiction

theorem Addressed.length_le {artifact : Artifact} (addressed : artifact.Addressed) :
    artifact.payloads.length ≤ 10000 := by
  by_contra more
  have last : artifact.payloads.length - 1 ∈ artifact.payloads.map (·.entry.index) := by
    rw [addressed.indices, List.mem_range]
    omega
  obtain ⟨staged, _, index⟩ := List.mem_map.mp last
  have bound := staged.entry.index_le
  rw [PayloadEntry.lastIndex] at bound
  omega

/-- The name of the next payload is new, because its index is. -/
theorem Addressed.entryName_fresh {artifact : Artifact} (addressed : artifact.Addressed)
    {name : Option String} {entry : PayloadEntry}
    (made : PayloadEntry.make artifact.payloads.length name = .ok entry) :
    entry.entryName ∉ artifact.entryNames := by
  intro taken
  obtain ⟨staged, member, same⟩ := List.mem_map.mp taken
  have index := PayloadEntry.index_eq_of_entryName same
  rw [(PayloadEntry.make_ok made).1] at index
  have inRange : artifact.payloads.length ∈ artifact.payloads.map (·.entry.index) :=
    List.mem_map.mpr ⟨staged, member, index⟩
  rw [addressed.indices, List.mem_range] at inRange
  exact Nat.lt_irrefl _ inRange

/-- A payload is refused for what it is, and never because its name is taken. -/
theorem Addressed.addPayload_ne {artifact : Artifact} (addressed : artifact.Addressed)
    (payload : Payload) (name : String) :
    artifact.addPayload payload ≠ .error (.duplicatePayload name) := by
  unfold Artifact.addPayload entryFor
  cases made : PayloadEntry.make artifact.payloads.length payload.name with
  | error refusal =>
      intro same
      simp only [Except.map, Except.error.injEq] at same
      subst same
      unfold PayloadEntry.make at made
      simp only at made
      split at made
      · split at made <;> cases made
      · cases made
  | ok entry =>
      have fresh := addressed.entryName_fresh made
      rw [entryNames] at fresh
      simp only [fresh, if_false]
      split
      · simp [Except.map]
      · split <;> simp [Except.map]

/-- Payloads that stand where their indices say, no more of them than four digits count,
each with the name of a file, and all names different. -/
structure Numbered (artifact : Artifact) : Prop where
  index_eq : ∀ place (inRange : place < artifact.payloads.length),
    artifact.payloads[place].entry.index = place
  length_le : artifact.payloads.length ≤ 10000
  digits : ∀ staged ∈ artifact.payloads, (fourDigits staged.entry.index).toList.length = 4
  basenames : ∀ staged ∈ artifact.payloads,
    staged.entry.basename ≠ "" ∧ '/' ∉ staged.entry.basename.toList ∧
      staged.entry.basename ≠ "." ∧ staged.entry.basename ≠ ".."
  distinct : artifact.allNames.Nodup

section

variable [Deflate]

/-- A further payload gets the next index.  Or else it is refused, though not because its
name is taken, and the artifact stays as it is. -/
def NumbersNext (artifact : Artifact) (payload : Payload) : Prop :=
  match artifact.perform (.payload payload) with
  | (.ok (), changed) => ∃ staged, changed.payloads = artifact.payloads ++ [staged] ∧
      staged.payload = payload ∧ staged.entry.index = artifact.payloads.length
  | (.error error, changed) => changed = artifact ∧
      ∀ name, error ≠ .validation (.duplicatePayload name)

theorem Addressed.numbersNext {artifact : Artifact} (addressed : artifact.Addressed)
    (payload : Payload) : artifact.NumbersNext payload := by
  unfold NumbersNext
  simp only [Artifact.perform]
  cases added : artifact.addPayload payload with
  | error refusal =>
      refine ⟨rfl, ?_⟩
      intro name same
      cases same
      exact addressed.addPayload_ne payload name added
  | ok changed =>
      obtain ⟨entry, made, _, _, _, rfl⟩ := addPayload_ok added
      exact ⟨_, rfl, rfl, (PayloadEntry.make_ok made).1⟩

/-- Whatever calls are made, and whichever of them are refused, payloads are numbered
without a gap and all names are different. -/
theorem numbered_of_calls (name : String) (deviceTypes : List String) (calls : List Call) :
    (performAll { name, deviceTypes } calls).Numbered ∧
      ∀ payload, (performAll { name, deviceTypes } calls).NumbersNext payload := by
  have addressed : (performAll { name, deviceTypes } calls).Addressed :=
    Reachable.addressed ⟨name, deviceTypes, calls, rfl⟩
  refine ⟨?_, addressed.numbersNext⟩
  constructor
  · exact fun place inRange => addressed.index_eq inRange
  · exact addressed.length_le
  · exact fun staged _ => staged.entry.length_digits
  · exact fun staged _ => staged.entry.validName
  · exact addressed.nodup_allNames

end

/-- The second of these payloads is refused, and the third gets its index. -/
example :
    ((performAll { name := "release", deviceTypes := ["device"] }
        [.payload { source := .ofBytes [1] },
          .payload { source := .ofBytes [2], name := some "a/b" },
          .payload { source := .ofBytes [3], name := some "image" }]).payloads.map
      (·.entry.entryName)) = ["data/0000/rootfs-0000.ext4", "data/0001/image"] := by
  decide +kernel

end Artifact

end UpdateArtifact
