import UpdateArtifact.Proofs.Tar.ReadBack

/-!
# Entries of archives

An entry is the block of a header and the data behind it.  Both depend on the owner, the
path and the data of one file, so that containers which agree on a file agree on its entry,
wherever it stands in them.
-/

namespace UpdateArtifact

namespace Tar

/-- The header and the data of the first file of that name, if reading gets there. -/
def entry? (archive : Bytes) (name : String) : Option (Bytes × Bytes) :=
  match (Listing.read archive).find (Bytes.utf8 name) with
  | .ok (some member) =>
      some (Bytes.slice (member.offset - blockSize) blockSize archive, member.data)
  | _ => none

namespace Container

theorem blockSize_le_of_accept {owner path : String} {length : Nat} {preamble : Bytes}
    (accepted : accept owner path length = .ok preamble) : blockSize ≤ preamble.length := by
  obtain ⟨placement, _, rfl, _⟩ := placed_of_accept accepted
  simp [Container.preamble]

/-- The header that is written for a file, without what announces a long path. -/
def headerOf (preamble : Bytes) : Bytes :=
  preamble.drop (preamble.length - blockSize)

end Container

theorem entry?_of_accepted {owner path name : String} {before : List (String × Bytes)}
    {front preamble data : Bytes} (first : Container.encodeAll owner before = .ok front)
    (named : Path.readName path = Bytes.utf8 name)
    (others : ∀ file ∈ before, Path.readName file.1 ≠ Bytes.utf8 name)
    (accepted : Container.accept owner path data.length = .ok preamble) (rest : Bytes)
    (fits : front.length + preamble.length + (data.length + gap data.length) <
      Numeral.wordLimit) :
    entry? (front ++ (preamble ++ data ++ Bytes.zeros (gap data.length) ++ rest)) name =
      some (Container.headerOf preamble, data) := by
  have block := Container.blockSize_le_of_accept accepted
  have header : Bytes.slice (front.length + preamble.length - blockSize) blockSize
      (front ++ (preamble ++ data ++ Bytes.zeros (gap data.length) ++ rest)) =
        Container.headerOf preamble := by
    apply Bytes.slice_of_split (front ++ preamble.take (preamble.length - blockSize))
      (data ++ Bytes.zeros (gap data.length) ++ rest)
    · simp only [Container.headerOf, List.append_assoc]
      rw [← List.append_assoc (preamble.take _), List.take_append_drop]
    · rw [List.length_append, List.length_take]
      omega
    · rw [Container.headerOf, List.length_drop]
      omega
  rw [← named] at others
  unfold entry?
  rw [← named, find_of_accepted first others accepted rest fits]
  simp only [header]

open Container in
theorem entry?_of_encodeAll {owner path : String} {files : List (String × Bytes)}
    {data bytes : Bytes} (plain : ∀ file ∈ files, Path.Plain file.1)
    (distinct : (files.map Prod.fst).Nodup) (encoded : encodeAll owner files = .ok bytes)
    (fits : bytes.length < Numeral.wordLimit) (member : (path, data) ∈ files) :
    ∃ preamble, accept owner path data.length = .ok preamble ∧
      entry? (bytes ++ Bytes.zeros (2 * blockSize)) path = some (headerOf preamble, data) := by
  obtain ⟨before, after, rfl⟩ := List.append_of_mem member
  obtain ⟨front, preamble, back, first, accepted, _, rfl⟩ := encodeAll_split encoded
  have others : ∀ file ∈ before, file.1 ≠ path := by
    intro file inFront same
    rw [List.map_append, List.map_cons, List.nodup_append] at distinct
    exact distinct.2.2 _ (List.mem_map_of_mem inFront) _ List.mem_cons_self same
  have plainBefore : ∀ file ∈ before, Path.Plain file.1 :=
    fun file inFront => plain file (List.mem_append_left _ inFront)
  have pathPlain : Path.Plain path := plain _ member
  have apart := readName_ne_of_plain plainBefore others pathPlain
  rw [pathPlain.readName_eq] at apart
  have room : front.length + preamble.length + (data.length + gap data.length) <
      Numeral.wordLimit := by
    simp only [List.length_append, Bytes.length_zeros] at fits
    omega
  have archive : front ++ (preamble ++ data ++ Bytes.zeros (gap data.length) ++ back) ++
      Bytes.zeros (2 * blockSize) =
        front ++ (preamble ++ data ++ Bytes.zeros (gap data.length) ++
          (back ++ Bytes.zeros (2 * blockSize))) := by
    simp only [List.append_assoc]
  refine ⟨preamble, accepted, ?_⟩
  rw [archive]
  exact entry?_of_accepted first pathPlain.readName_eq apart accepted _ room

/-- The files of a container that was written entry by entry, each from a stream or from
bytes at hand. -/
inductive Container.Written (owner : String) : Container → List (String × Bytes) → Prop where
  | start : Written owner { owner } []
  | entry {container grown : Container} {files : List (String × Bytes)} {path : String}
      {source after : Source} {length : Nat} (earlier : Written owner container files)
      (written : container.writeEntry path source length = (.ok (), grown, after)) :
      Written owner grown (files ++ [(path, source.ahead.delivered.take length)])

theorem Container.Written.encodeAll_eq {owner : String} {container : Container}
    {files : List (String × Bytes)} (written : Container.Written owner container files) :
    container.owner = owner ∧ Container.encodeAll owner files = .ok container.written := by
  induction written with
  | start => exact ⟨rfl, rfl⟩
  | @entry container grown files path source after length _ written ih =>
      obtain ⟨sameOwner, encoded⟩ := ih
      have enough := Container.le_of_writeEntry_ok written
      rw [Container.writeEntry_of_le _ _ _ _ enough, sameOwner] at written
      cases file : Container.encodeFile owner path (source.ahead.delivered.take length) with
      | error fault => simp [file] at written
      | ok bytes =>
          simp only [file, Prod.mk.injEq, true_and] at written
          obtain ⟨rfl, _⟩ := written
          refine ⟨sameOwner, ?_⟩
          rw [Container.encodeAll_append, encoded]
          simp [Container.encodeAll, file, Except.map, Container.extend]

theorem Container.Written.of_writeAll {owner : String} {container grown : Container}
    {first files : List (String × Bytes)} (written : Container.Written owner container first)
    (all : container.writeAll files = .ok grown) :
    Container.Written owner grown (first ++ files) := by
  induction files generalizing container first with
  | nil =>
      cases all
      simpa using written
  | cons file rest ih =>
      obtain ⟨path, data⟩ := file
      rw [Container.writeAll] at all
      rcases step : container.writeEntry path (Source.ofBytes data) data.length with
        ⟨outcome, longer, after⟩
      cases outcome with
      | error fault => simp [Container.writeBytes, step] at all
      | ok done =>
          simp only [Container.writeBytes, step] at all
          have delivered : (Source.ofBytes data).ahead.delivered.take data.length = data := by
            simp [Source.ofBytes, Source.ahead, Pass.delivered]
          have one := written.entry step
          rw [delivered] at one
          simpa using ih one all

/-- A finished archive in which the first file of that name holds the given data, whatever
stands before and after it. -/
def FirstFile (name : String) (data archive : Bytes) : Prop :=
  ∃ owner container before path after,
    Container.Written owner container (before ++ (path, data) :: after) ∧
    archive = container.close ∧ Path.readName path = Bytes.utf8 name ∧
    ∀ file ∈ before, Path.readName file.1 ≠ Bytes.utf8 name

theorem FirstFile.found {name : String} {data archive : Bytes}
    (first : FirstFile name data archive) (fits : archive.length < Numeral.wordLimit) :
    ∃ front back, archive = front ++ data ++ back ∧
      dataOffset archive name = .ok (some front.length) := by
  obtain ⟨owner, container, before, path, after, written, rfl, named, others⟩ := first
  obtain ⟨_, encoded⟩ := written.encodeAll_eq
  obtain ⟨front, preamble, back, opening, accepted, _, bytes⟩ := Container.encodeAll_split encoded
  have archive : container.close = front ++ (preamble ++ data ++ Bytes.zeros (gap data.length) ++
      (back ++ Bytes.zeros (2 * blockSize))) := by
    simp only [Container.close, bytes, List.append_assoc]
  rw [archive] at fits ⊢
  have room : front.length + preamble.length + (data.length + gap data.length) <
      Numeral.wordLimit := by
    simp only [List.length_append, Bytes.length_zeros] at fits
    omega
  refine ⟨front ++ preamble,
    Bytes.zeros (gap data.length) ++ (back ++ Bytes.zeros (2 * blockSize)), by simp, ?_⟩
  rw [List.length_append]
  exact dataOffset_of_accepted opening named others accepted _ room

/-- Files of the same names, and with the same data but for some names. -/
def AgreeOutside (changed : List String) (left right : List (String × Bytes)) : Prop :=
  List.Forall₂
    (fun first second => first.1 = second.1 ∧ (first.1 ∉ changed → first.2 = second.2))
    left right

theorem AgreeOutside.names_eq {changed : List String} {left right : List (String × Bytes)}
    (agree : AgreeOutside changed left right) : left.map Prod.fst = right.map Prod.fst := by
  induction agree with
  | nil => rfl
  | cons head _ ih => rw [List.map_cons, List.map_cons, head.1, ih]

theorem AgreeOutside.plain {changed : List String} {left right : List (String × Bytes)}
    (agree : AgreeOutside changed left right) (plain : ∀ file ∈ left, Path.Plain file.1) :
    ∀ file ∈ right, Path.Plain file.1 := by
  intro file member
  have named : file.1 ∈ left.map Prod.fst := by
    rw [agree.names_eq]
    exact List.mem_map_of_mem member
  obtain ⟨other, inLeft, same⟩ := List.mem_map.mp named
  exact same ▸ plain other inLeft

theorem AgreeOutside.mem_of_mem {changed : List String} {left right : List (String × Bytes)}
    (agree : AgreeOutside changed left right) {name : String} {data : Bytes}
    (member : (name, data) ∈ left) (outside : name ∉ changed) : (name, data) ∈ right := by
  induction agree with
  | nil => cases member
  | @cons first second _ _ head _ ih =>
      rcases List.mem_cons.mp member with rfl | inRest
      · have same : second = (name, data) := Prod.ext head.1.symm (head.2 outside).symm
        rw [same]
        exact List.mem_cons_self
      · exact List.mem_cons_of_mem _ (ih inRest)

theorem AgreeOutside.entries_eq {changed : List String} {left right : List (String × Bytes)}
    (agree : AgreeOutside changed left right) (plain : ∀ file ∈ left, Path.Plain file.1)
    (distinct : (left.map Prod.fst).Nodup) {owner : String} {leftBytes rightBytes : Bytes}
    (leftEncoded : Container.encodeAll owner left = .ok leftBytes)
    (rightEncoded : Container.encodeAll owner right = .ok rightBytes)
    (leftFits : leftBytes.length < Numeral.wordLimit)
    (rightFits : rightBytes.length < Numeral.wordLimit) {name : String}
    (listed : name ∈ left.map Prod.fst) (outside : name ∉ changed) :
    ∃ entry, entry? (leftBytes ++ Bytes.zeros (2 * blockSize)) name = some entry ∧
      entry? (rightBytes ++ Bytes.zeros (2 * blockSize)) name = some entry := by
  obtain ⟨⟨path, data⟩, member, rfl⟩ := List.mem_map.mp listed
  obtain ⟨preamble, accepted, found⟩ :=
    entry?_of_encodeAll plain distinct leftEncoded leftFits member
  obtain ⟨other, acceptedToo, foundToo⟩ :=
    entry?_of_encodeAll (agree.plain plain) (agree.names_eq ▸ distinct) rightEncoded rightFits
      (agree.mem_of_mem member outside)
  rw [accepted, Except.ok.injEq] at acceptedToo
  rw [← acceptedToo] at foundToo
  exact ⟨_, found, foundToo⟩

end Tar

end UpdateArtifact
