import UpdateArtifact.Proofs.Tar.Paths
import UpdateArtifact.Proofs.Tar.Writing

/-!
# Reading archives back

A reader that stands before a written file finds exactly that file and then
stands behind it.  By induction the listing of a closed container holds the
files it was written with, whatever their data looks like.
-/

namespace UpdateArtifact

namespace Tar

namespace Listing

theorem header_split (header : Header) (body : Bytes) :
    header.encode ++ body ≠ [] ∧ (header.encode ++ body).take blockSize = header.encode ∧
      (header.encode ++ body).drop blockSize = body := by
  have width := header.length_encode
  refine ⟨?_, ?_, ?_⟩
  · intro empty
    have none := congrArg List.length empty
    rw [List.length_append, width] at none
    simp [blockSize] at none
  · rw [← width, List.take_left]
  · rw [← width, List.drop_left]

theorem span_take (data rest : Bytes) :
    (data ++ Bytes.zeros (gap data.length) ++ rest).take (data.length + gap data.length) =
        data ++ Bytes.zeros (gap data.length) ∧
      (data ++ Bytes.zeros (gap data.length) ++ rest).drop (data.length + gap data.length) =
        rest := by
  have width : (data ++ Bytes.zeros (gap data.length)).length =
      data.length + gap data.length := by
    simp
  constructor
  · rw [← width, List.take_left]
  · rw [← width, List.drop_left]

/-- One step of a reader at a written header: it finds a file, or takes note of a
path, and goes on behind the padding. -/
theorem readFrom_header (header : Header) (data rest : Bytes)
    (size : header.size = data.length) (announced : Announcement)
    (plain : announced.records = none) (offset : Nat)
    (fits : offset + blockSize + (data.length + gap data.length) < Numeral.wordLimit) :
    readFrom offset announced
        (header.encode ++ (data ++ Bytes.zeros (gap data.length) ++ rest)) =
      match header.type with
      | .file =>
          cons
            { name := announced.path header.encode, size := data.length
              offset := offset + blockSize, data }
            (readFrom (offset + blockSize + (data.length + gap data.length)) .nothing rest)
      | .longName =>
          match announced.add data .name with
          | .error fault => stop (some fault)
          | .ok announced =>
              readFrom (offset + blockSize + (data.length + gap data.length)) announced rest := by
  obtain ⟨some, first, after⟩ := header_split header
    (data ++ Bytes.zeros (gap data.length) ++ rest)
  obtain ⟨taken, dropped⟩ := span_take data rest
  have stored : announced.storedSize header.encode data.length = data.length := by
    simp [Announcement.storedSize, plain]
  have inWord : header.size < Numeral.wordLimit := by
    rw [size]
    omega
  have noOverflow : ¬ (Numeral.wordLimit ≤ data.length + (blockSize - 1) ∨
      Numeral.wordLimit ≤ offset + blockSize + (data.length + gap data.length)) := by
    simp only [blockSize] at fits ⊢
    omega
  have width : ¬ header.encode.length < blockSize :=
    Nat.not_lt.mpr (Nat.le_of_eq header.length_encode.symm)
  have complete : ¬ (data ++ Bytes.zeros (gap data.length)).length <
      data.length + gap data.length := by
    simp
  have content : (data ++ Bytes.zeros (gap data.length) ++ rest).take data.length = data := by
    rw [List.append_assoc, List.take_left]
  rw [readFrom]
  simp only [some, first, after, width, if_false, dite_false, header.not_blank,
    Bool.false_eq_true, header.checkedSize_encode inWord, size, stored, noOverflow]
  cases type : header.type with
  | file =>
      simp only [header.ofHeader?_file type, header.mapBlocks_encode type, Nat.zero_mul,
        Nat.zero_add, taken, dropped, complete, if_false, Bytes.slice, List.drop_zero, content]
  | longName =>
      simp only [header.ofHeader?_longName type, content]
      cases announced.add data .name with
      | error fault => rfl
      | ok later => simp only [taken, dropped, complete, if_false]

theorem readFrom_longNameEntry (path rest : Bytes) (offset : Nat)
    (fits : offset + (Container.longNameEntry path).length < Numeral.wordLimit) :
    readFrom offset .nothing (Container.longNameEntry path ++ rest) =
      readFrom (offset + (Container.longNameEntry path).length) { name := some path } rest := by
  obtain ⟨header, shape, long, size⟩ : ∃ header : Header,
      Container.longNameEntry path =
        header.encode ++ (path ++ Bytes.zeros (gap path.length)) ∧
      header.type = .longName ∧ header.size = path.length :=
    ⟨_, List.append_assoc _ _ _, rfl, rfl⟩
  have length : (Container.longNameEntry path).length =
      blockSize + (path.length + gap path.length) := by
    rw [shape]
    simp
  rw [length, ← Nat.add_assoc] at fits ⊢
  rw [shape, List.append_assoc, readFrom_header header path rest size .nothing rfl offset fits,
    long]
  rfl

/-- At a written file the reader finds its name, its data and where that starts,
and goes on behind it. -/
theorem readFrom_accepted {owner path : String} {data preamble : Bytes}
    (accepted : Container.accept owner path data.length = .ok preamble) (rest : Bytes)
    (offset : Nat)
    (fits : offset + preamble.length + (data.length + gap data.length) < Numeral.wordLimit) :
    readFrom offset .nothing
        (preamble ++ data ++ Bytes.zeros (gap data.length) ++ rest) =
      cons
        { name := Path.readName path, size := data.length
          offset := offset + preamble.length, data }
        (readFrom (offset + preamble.length + (data.length + gap data.length))
          .nothing rest) := by
  obtain ⟨placement, placed, rfl, _⟩ := Container.placed_of_accept accepted
  let header : Header :=
    { name := placement.name, size := data.length, type := .file, owner := Bytes.utf8 owner }
  have width := header.length_encode
  have name : Path.readName path = placement.readName := by
    simp only [Path.readName, placed]
  rw [name, Path.Placement.readName]
  cases long : placement.longName with
  | none =>
      have shape : Container.preamble owner placement data.length = header.encode := by
        simp [Container.preamble, long, header]
      have found : Announcement.nothing.path header.encode =
          (Bytes.field Path.width placement.name).takeWhile (· ≠ 0) :=
        header.headerPath_encode
      rw [shape, width] at fits ⊢
      rw [List.append_assoc, List.append_assoc, ← List.append_assoc data,
        readFrom_header header data rest rfl .nothing rfl offset fits, found]
  | some content =>
      let entry := Container.longNameEntry content
      have shape : Container.preamble owner placement data.length = entry ++ header.encode := by
        simp [Container.preamble, long, header, entry]
      let announced : Announcement := { name := some content }
      have found : announced.path header.encode = Announcement.unterminated content := rfl
      have length : (entry ++ header.encode).length = entry.length + blockSize := by
        rw [List.length_append, width]
      rw [shape, length, ← Nat.add_assoc offset] at fits ⊢
      have announcing : offset + entry.length < Numeral.wordLimit := by
        omega
      rw [List.append_assoc, List.append_assoc, List.append_assoc,
        readFrom_longNameEntry _ _ _ announcing, ← List.append_assoc data,
        readFrom_header header data rest rfl announced rfl (offset + entry.length) fits, found]

theorem take_ending :
    (Bytes.zeros (2 * blockSize)).take blockSize = Bytes.zeros blockSize ∧
      (Bytes.zeros blockSize).all (· = 0) = true := by
  constructor
  · rw [Bytes.zeros, List.take_replicate, Nat.min_eq_left (by decide), Bytes.zeros]
  · apply List.all_eq_true.mpr
    intro byte member
    exact decide_eq_true (List.eq_of_mem_replicate member)

theorem readFrom_end (offset : Nat) :
    readFrom offset .nothing (Bytes.zeros (2 * blockSize)) = stop none := by
  obtain ⟨first, blank⟩ := take_ending
  have some : Bytes.zeros (2 * blockSize) ≠ [] := by
    intro empty
    have none := congrArg List.length empty
    simp [blockSize] at none
  rw [readFrom]
  simp only [some, first, Bytes.length_zeros, Nat.lt_irrefl, blank, if_true, if_false,
    dite_false]

/-- The files of a listing, each with its name and data. -/
def contents (listing : Listing) : List (Bytes × Bytes) :=
  listing.members.map fun member => (member.name, member.data)

/-- The listing with files in front. -/
def behind (members : List Member) (listing : Listing) : Listing :=
  { listing with members := members ++ listing.members }

theorem readFrom_encoded {owner : String} {files : List (String × Bytes)} {bytes : Bytes}
    (encoded : Container.encodeAll owner files = .ok bytes) (offset : Nat) (rest : Bytes)
    (fits : offset + bytes.length < Numeral.wordLimit) :
    ∃ members : List Member,
      members.map (fun member => (member.name, member.data)) =
          files.map (fun file => (Path.readName file.1, file.2)) ∧
        readFrom offset .nothing (bytes ++ rest) =
          behind members (readFrom (offset + bytes.length) .nothing rest) := by
  induction files generalizing offset bytes with
  | nil =>
      cases encoded
      exact ⟨[], rfl, rfl⟩
  | cons file others ih =>
      obtain ⟨path, data⟩ := file
      obtain ⟨front, back, first, later, rfl⟩ := Container.encodeAll_cons_ok encoded
      obtain ⟨preamble, accepted, shape⟩ := Container.accepted_of_encodeFile first
      have length : front.length = preamble.length + (data.length + gap data.length) := by
        rw [shape]
        simp
      rw [List.length_append, ← Nat.add_assoc] at fits
      have frontFits : offset + preamble.length + (data.length + gap data.length) <
          Numeral.wordLimit := by
        omega
      have step := readFrom_accepted accepted (back ++ rest) offset frontFits
      rw [← shape, Nat.add_assoc, ← length] at step
      obtain ⟨members, same, read⟩ := ih later (offset + front.length) fits
      let member : Member :=
        { name := Path.readName path, size := data.length
          offset := offset + preamble.length, data }
      refine ⟨member :: members, ?_, ?_⟩
      · simp [same, member]
      · rw [List.append_assoc, step, read, List.length_append, ← Nat.add_assoc]
        rfl

theorem find_behind {name : Bytes} {members : List Member}
    (others : ∀ member ∈ members, member.name ≠ name) (listing : Listing) :
    find name (behind members listing) = find name listing := by
  have absent : members.find? (·.name = name) = none := by
    apply List.find?_eq_none.mpr
    intro member inFront
    simpa using others member inFront
  simp [find, behind, List.find?_append, absent]

end Listing

/-- The names and data of the files of an archive that can be read to its end. -/
def unpack? (archive : Bytes) : Option (List (Bytes × Bytes)) :=
  let listing := Listing.read archive
  if listing.fault = none then some listing.contents else none

/-- A closed container gives back exactly the files it was written with. -/
theorem unpack?_of_encodeAll {owner : String} {files : List (String × Bytes)} {bytes : Bytes}
    (plain : ∀ file ∈ files, Path.Plain file.1)
    (encoded : Container.encodeAll owner files = .ok bytes)
    (fits : bytes.length < Numeral.wordLimit) :
    unpack? (bytes ++ Bytes.zeros (2 * blockSize)) =
      some (files.map fun file => (Bytes.utf8 file.1, file.2)) := by
  have inWord : 0 + bytes.length < Numeral.wordLimit := by
    omega
  obtain ⟨members, same, read⟩ :=
    Listing.readFrom_encoded encoded 0 (Bytes.zeros (2 * blockSize)) inWord
  have names : files.map (fun file => (Path.readName file.1, file.2)) =
      files.map (fun file => (Bytes.utf8 file.1, file.2)) :=
    List.map_congr_left fun file member => by rw [(plain file member).readName_eq]
  rw [Listing.readFrom_end] at read
  simp only [unpack?, Listing.read, read, Listing.behind, Listing.stop, Listing.contents,
    List.append_nil, if_true, same, names]

theorem Container.fits_of_ownerFault? {owner : String}
    (fit : Container.ownerFault? owner = none) :
    (Bytes.utf8 owner).length ≤ 32 ∧ (0 : UInt8) ∉ Bytes.utf8 owner := by
  unfold Container.ownerFault? at fit
  simp only at fit
  split at fit
  · cases fit
  · next small =>
      split at fit
      · cases fit
      · next noZero => exact ⟨Nat.not_lt.mp small, noZero⟩

theorem owner_of_encodeAll {owner path : String} {data bytes : Bytes}
    {rest : List (String × Bytes)} (short : Container.Short path)
    (encoded : Container.encodeAll owner ((path, data) :: rest) = .ok bytes) (more : Bytes) :
    (Bytes.slice 265 32 (bytes ++ more)).takeWhile (· ≠ 0) = Bytes.utf8 owner := by
  cases fit : Container.ownerFault? owner with
  | some fault =>
      simp [Container.encodeAll, Container.encodeFile_of_ownerFault fit] at encoded
  | none =>
      obtain ⟨small, noZero⟩ := Container.fits_of_ownerFault? fit
      obtain ⟨front, back, first, _, rfl⟩ := Container.encodeAll_cons_ok encoded
      obtain ⟨placement, placed, noLongName⟩ := short.placed
      rw [Container.encodeFile_of_placed fit placed] at first
      cases first
      simp only [Container.preamble, noLongName, Option.elim_none, List.nil_append,
        List.append_assoc]
      rw [Bytes.slice_append (by rw [Header.length_encode]; decide), Header.owner_field,
        Bytes.takeWhile_field small noZero]

/-- A name that no file in front is read under is looked for behind them. -/
theorem find_of_encodeAll {owner : String} {files : List (String × Bytes)} {front name : Bytes}
    (encoded : Container.encodeAll owner files = .ok front)
    (others : ∀ file ∈ files, Path.readName file.1 ≠ name) (rest : Bytes)
    (fits : front.length < Numeral.wordLimit) :
    (Listing.read (front ++ rest)).find name =
      (Listing.readFrom front.length .nothing rest).find name := by
  have inWord : 0 + front.length < Numeral.wordLimit := by
    omega
  obtain ⟨members, same, read⟩ := Listing.readFrom_encoded encoded 0 rest inWord
  have names : ∀ member ∈ members, member.name ≠ name := by
    intro member inFront equal
    have listed : (member.name, member.data) ∈
        files.map (fun file => (Path.readName file.1, file.2)) := by
      rw [← same]
      exact List.mem_map_of_mem inFront
    obtain ⟨file, inFiles, pair⟩ := List.mem_map.mp listed
    exact others file inFiles ((Prod.mk.inj pair).1.trans equal)
  rw [Nat.zero_add] at read
  rw [Listing.read, read, Listing.find_behind names]

/-- A file is found behind its preamble, unless one that is read under the same name
stands before it. -/
theorem find_of_accepted {owner path : String} {files : List (String × Bytes)}
    {front preamble data : Bytes} (encoded : Container.encodeAll owner files = .ok front)
    (others : ∀ file ∈ files, Path.readName file.1 ≠ Path.readName path)
    (accepted : Container.accept owner path data.length = .ok preamble) (rest : Bytes)
    (fits : front.length + preamble.length + (data.length + gap data.length) <
      Numeral.wordLimit) :
    (Listing.read (front ++ (preamble ++ data ++ Bytes.zeros (gap data.length) ++ rest))).find
        (Path.readName path) =
      .ok (some
        { name := Path.readName path, size := data.length
          offset := front.length + preamble.length, data }) := by
  have frontFits : front.length < Numeral.wordLimit := by
    omega
  rw [find_of_encodeAll encoded others _ frontFits,
    Listing.readFrom_accepted accepted rest front.length fits]
  simp [Listing.find, Listing.cons]

theorem dataOffset_of_accepted {owner path name : String} {files : List (String × Bytes)}
    {front preamble data : Bytes} (encoded : Container.encodeAll owner files = .ok front)
    (named : Path.readName path = Bytes.utf8 name)
    (others : ∀ file ∈ files, Path.readName file.1 ≠ Bytes.utf8 name)
    (accepted : Container.accept owner path data.length = .ok preamble) (rest : Bytes)
    (fits : front.length + preamble.length + (data.length + gap data.length) <
      Numeral.wordLimit) :
    dataOffset (front ++ (preamble ++ data ++ Bytes.zeros (gap data.length) ++ rest)) name =
      .ok (some (front.length + preamble.length)) := by
  rw [← named] at others
  rw [dataOffset, ← named, find_of_accepted encoded others accepted rest fits]
  rfl

/-- Plain paths are read back as they are, so that only equal paths meet. -/
theorem readName_ne_of_plain {path : String} {files : List (String × Bytes)}
    (plain : ∀ file ∈ files, Path.Plain file.1) (others : ∀ file ∈ files, file.1 ≠ path)
    (pathPlain : Path.Plain path) :
    ∀ file ∈ files, Path.readName file.1 ≠ Path.readName path := by
  intro file member same
  rw [(plain file member).readName_eq, pathPlain.readName_eq] at same
  exact others file member (Bytes.utf8_injective same)

theorem dataOffset_of_split {owner path : String} {files : List (String × Bytes)}
    {front preamble data : Bytes} (plain : ∀ file ∈ files, Path.Plain file.1)
    (encoded : Container.encodeAll owner files = .ok front)
    (others : ∀ file ∈ files, file.1 ≠ path) (pathPlain : Path.Plain path)
    (accepted : Container.accept owner path data.length = .ok preamble) (rest : Bytes)
    (fits : front.length + preamble.length + (data.length + gap data.length) <
      Numeral.wordLimit) :
    dataOffset (front ++ (preamble ++ data ++ Bytes.zeros (gap data.length) ++ rest)) path =
      .ok (some (front.length + preamble.length)) := by
  have apart := readName_ne_of_plain plain others pathPlain
  rw [pathPlain.readName_eq] at apart
  exact dataOffset_of_accepted encoded pathPlain.readName_eq apart accepted rest fits

end Tar

end UpdateArtifact
