import UpdateArtifact.Proofs.Tar.Placing

/-!
# Containers give back what was written

The reader of the library knows more formats than a container writes, and it gives up where
positions no longer fit a word.  The one here knows just what the format of a container
says, so that it reads files of every size: a header whose checksum is right, data up to a
whole block, and perhaps an entry with a long name before.
-/

namespace UpdateArtifact

namespace Tar

/-- The files up to the first block of zeros, each with its name and data, and all bytes
from that block on.  A name that an entry before the file announces comes first, or else
it ends in the header at the first zero byte. -/
def readFiles (announced : Option Bytes) (rest : Bytes) :
    Option (List (Bytes × Bytes) × Bytes) :=
  let header := rest.take blockSize
  let body := rest.drop blockSize
  if _ : header.length < blockSize then none
  else if header.all (· = 0) then if announced = none then some ([], rest) else none
  else
    match Listing.checkedSize header with
    | .error _ => none
    | .ok size =>
        let data := body.take size
        let after := body.drop (size + gap size)
        if body.length < size + gap size then none
        else if Notice.typeCode header = EntryType.longName.code then readFiles (some data) after
        else
          let name := announced.elim ((Bytes.slice 0 100 header).takeWhile (· ≠ 0))
            Announcement.unterminated
          (readFiles none after).map fun (files, ending) => ((name, data) :: files, ending)
termination_by rest.length
decreasing_by
  all_goals
    have whole : ¬ (rest.take blockSize).length < blockSize := ‹_›
    simp only [List.length_take, List.length_drop, blockSize] at whole ⊢
    omega

theorem readFiles_end :
    readFiles none (Bytes.zeros (2 * blockSize)) = some ([], Bytes.zeros (2 * blockSize)) := by
  obtain ⟨first, blank⟩ := Listing.take_ending
  rw [readFiles]
  simp only [first, Bytes.length_zeros, Nat.lt_irrefl, blank, if_true, dite_false]

theorem readFiles_header (header : Header) (data rest : Bytes)
    (size : header.size = data.length) (fits : data.length < Numeral.wordLimit)
    (announced : Option Bytes) :
    readFiles announced (header.encode ++ (data ++ Bytes.zeros (gap data.length) ++ rest)) =
      match header.type with
      | .longName => readFiles (some data) rest
      | .file =>
          (readFiles none rest).map fun (files, ending) =>
            ((announced.elim ((Bytes.field 100 header.name).takeWhile (· ≠ 0))
              Announcement.unterminated, data) :: files, ending) := by
  obtain ⟨_, first, after⟩ := Listing.header_split header
    (data ++ Bytes.zeros (gap data.length) ++ rest)
  obtain ⟨_, dropped⟩ := Listing.span_take data rest
  have width : ¬ header.encode.length < blockSize :=
    Nat.not_lt.mpr (Nat.le_of_eq header.length_encode.symm)
  have complete : ¬ (data ++ Bytes.zeros (gap data.length) ++ rest).length <
      data.length + gap data.length := by
    simp
  have content : (data ++ Bytes.zeros (gap data.length) ++ rest).take data.length = data := by
    rw [List.append_assoc, List.take_left]
  have inWord : header.size < Numeral.wordLimit := size ▸ fits
  rw [readFiles]
  simp only [first, after, width, dite_false, header.not_blank, Bool.false_eq_true, if_false,
    header.checkedSize_encode inWord, size, complete, content, dropped, header.typeCode_encode,
    header.name_field]
  cases header.type with
  | file =>
      have other : EntryType.file.code ≠ EntryType.longName.code := by decide
      simp only [other, if_false]
  | longName => simp only [if_true]

/-- A file that was accepted is read under its name, whether that is announced or not. -/
theorem readFiles_accepted {owner path : String} {data preamble : Bytes}
    (accepted : Container.accept owner path data.length = .ok preamble)
    (fits : data.length < Numeral.wordLimit)
    (nameFits : (Bytes.utf8 path).length + 1 < Numeral.wordLimit) (rest : Bytes) :
    readFiles none (preamble ++ data ++ Bytes.zeros (gap data.length) ++ rest) =
      (readFiles none rest).map fun (files, ending) =>
        ((Path.readName path, data) :: files, ending) := by
  obtain ⟨placement, placed, rfl, _⟩ := Container.placed_of_accept accepted
  have name : Path.readName path = placement.readName := by
    simp only [Path.readName, placed]
  rw [name, Path.Placement.readName]
  cases long : placement.longName with
  | none =>
      simp only [Container.preamble, long, Option.elim_none, List.nil_append]
      rw [List.append_assoc, List.append_assoc, ← List.append_assoc data]
      exact readFiles_header _ data rest rfl fits none
  | some content =>
      have contentFits : content.length < Numeral.wordLimit := by
        rw [Path.longName_eq placed long, List.length_append]
        exact nameFits
      simp only [Container.preamble, long, Option.elim_some, Container.longNameEntry]
      -- The announcement is one step, the file it is about the next.
      rw [List.append_assoc, List.append_assoc, List.append_assoc, List.append_assoc,
        List.append_assoc, ← List.append_assoc content,
        readFiles_header _ content _ rfl contentFits none, ← List.append_assoc data]
      exact readFiles_header _ data rest rfl fits (some content)

theorem readFiles_encoded {owner : String} {files : List (String × Bytes)} {bytes : Bytes}
    (encoded : Container.encodeAll owner files = .ok bytes)
    (fits : ∀ file ∈ files, file.2.length < Numeral.wordLimit ∧
      (Bytes.utf8 file.1).length + 1 < Numeral.wordLimit)
    (rest : Bytes) :
    readFiles none (bytes ++ rest) =
      (readFiles none rest).map fun (others, ending) =>
        (files.map (fun file => (Path.readName file.1, file.2)) ++ others, ending) := by
  induction files generalizing bytes with
  | nil =>
      cases encoded
      simp
  | cons file more ih =>
      obtain ⟨path, data⟩ := file
      obtain ⟨front, back, first, later, rfl⟩ := Container.encodeAll_cons_ok encoded
      obtain ⟨preamble, accepted, rfl⟩ := Container.accepted_of_encodeFile first
      obtain ⟨dataFits, nameFits⟩ := fits _ List.mem_cons_self
      have others := ih later fun file member => fits file (List.mem_cons_of_mem _ member)
      rw [List.append_assoc, readFiles_accepted accepted dataFits nameFits, others,
        Option.map_map]
      rfl

namespace Container

theorem dvd_gap (length : Nat) : blockSize ∣ length + gap length := by
  simp only [gap, blockSize]
  omega

theorem dvd_length_of_accept {owner path : String} {length : Nat} {preamble : Bytes}
    (accepted : accept owner path length = .ok preamble) : blockSize ∣ preamble.length := by
  obtain ⟨placement, _, rfl, _⟩ := placed_of_accept accepted
  cases long : placement.longName with
  | none => simp [Container.preamble, long]
  | some content =>
      have block := dvd_gap content.length
      simp only [Container.preamble, long, Option.elim_some, longNameEntry, List.length_append,
        Header.length_encode, Bytes.length_zeros, blockSize] at block ⊢
      omega

theorem dvd_length_encodeAll {owner : String} {files : List (String × Bytes)} {bytes : Bytes}
    (encoded : encodeAll owner files = .ok bytes) : blockSize ∣ bytes.length := by
  induction files generalizing bytes with
  | nil =>
      cases encoded
      exact Nat.dvd_zero _
  | cons file rest ih =>
      obtain ⟨path, data⟩ := file
      obtain ⟨front, back, first, later, rfl⟩ := encodeAll_cons_ok encoded
      obtain ⟨preamble, accepted, rfl⟩ := accepted_of_encodeFile first
      have head := dvd_length_of_accept accepted
      have body := dvd_gap data.length
      have tail := ih later
      simp only [List.length_append, Bytes.length_zeros, blockSize] at head body tail ⊢
      omega

theorem encodeAll_of_proper {owner : String} {files : List (String × Bytes)}
    (fit : ownerFault? owner = none) (proper : ∀ file ∈ files, Path.Proper file.1) :
    ∃ bytes, encodeAll owner files = .ok bytes := by
  induction files with
  | nil => exact ⟨[], rfl⟩
  | cons file rest ih =>
      obtain ⟨path, data⟩ := file
      obtain ⟨placement, placed⟩ := (proper _ List.mem_cons_self).placed
      obtain ⟨back, later⟩ := ih fun other member =>
        proper other (List.mem_cons_of_mem _ member)
      rw [encodeAll, encodeFile_of_placed fit placed, later]
      exact ⟨_, rfl⟩

theorem ownerFault?_of_fits {owner : String} (small : (Bytes.utf8 owner).length ≤ ownerWidth)
    (noZero : '\x00' ∉ owner.toList) : ownerFault? owner = none := by
  have noZeroByte : (0 : UInt8) ∉ Bytes.utf8 owner := by
    rw [Bytes.mem_utf8 (by decide)]
    exact noZero
  simp only [ownerFault?, if_neg (Nat.not_lt.mpr small), if_neg noZeroByte]

/-- What is written to a container is read back from it: the files in their order, and
then the two blocks of zeros that end it. -/
theorem readFiles_close {owner : String} {files : List (String × Bytes)}
    (small : (Bytes.utf8 owner).length ≤ ownerWidth) (noZero : '\x00' ∉ owner.toList)
    (proper : ∀ file ∈ files, Path.Proper file.1)
    (fits : ∀ file ∈ files, file.2.length < Numeral.wordLimit ∧
      (Bytes.utf8 file.1).length + 1 < Numeral.wordLimit) :
    ∃ container, ({ owner } : Container).writeAll files = .ok container ∧
      readFiles none container.close =
        some (files.map fun file => (Bytes.utf8 file.1, file.2), Bytes.zeros 1024) ∧
      512 ∣ container.close.length := by
  obtain ⟨bytes, encoded⟩ := encodeAll_of_proper (ownerFault?_of_fits small noZero) proper
  have read := readFiles_encoded encoded fits (Bytes.zeros (2 * blockSize))
  have names : files.map (fun file => (Path.readName file.1, file.2)) =
      files.map (fun file => (Bytes.utf8 file.1, file.2)) :=
    List.map_congr_left fun file member => by rw [(proper file member).plain.readName_eq]
  have blocks := dvd_length_encodeAll encoded
  refine ⟨({ owner } : Container).extend bytes, ?_, ?_, ?_⟩
  · rw [writeAll_eq, encoded]
    rfl
  · rw [readFiles_end, names] at read
    simpa [close, extend, blockSize] using read
  · simp only [close, extend, List.nil_append, List.length_append, Bytes.length_zeros,
      blockSize] at blocks ⊢
    omega

/-- A name whose hundredth byte lies inside a character, and one that the cut leaves with
`..` at its end; the data of the first looks like the end of an archive. -/
theorem readFiles_close_cut :
    ∃ container,
      ({ owner := "root" } : Container).writeAll
          [(String.ofList (List.replicate 99 'a' ++ ['é', 'b']), Bytes.zeros 1024),
            (String.ofList (List.replicate 97 'a' ++ ['/', '.', '.', 'b']), [1])] =
        .ok container ∧
      readFiles none container.close =
        some
          ([(Bytes.utf8 (String.ofList (List.replicate 99 'a' ++ ['é', 'b'])),
              Bytes.zeros 1024),
            (Bytes.utf8 (String.ofList (List.replicate 97 'a' ++ ['/', '.', '.', 'b'])), [1])],
            Bytes.zeros 1024) ∧
      512 ∣ container.close.length := by
  have small : (Bytes.utf8 "root").length ≤ ownerWidth := by decide
  have noZero : '\x00' ∉ "root".toList := by decide
  have proper : ∀ file ∈
      [(String.ofList (List.replicate 99 'a' ++ ['é', 'b']), Bytes.zeros 1024),
        (String.ofList (List.replicate 97 'a' ++ ['/', '.', '.', 'b']), [1])],
      Path.Proper file.1 := by
    decide +kernel
  have fits : ∀ file ∈
      [(String.ofList (List.replicate 99 'a' ++ ['é', 'b']), Bytes.zeros 1024),
        (String.ofList (List.replicate 97 'a' ++ ['/', '.', '.', 'b']), [1])],
      file.2.length < Numeral.wordLimit ∧
        (Bytes.utf8 file.1).length + 1 < Numeral.wordLimit := by
    decide +kernel
  exact readFiles_close small noZero proper fits

end Container

end Tar

end UpdateArtifact
