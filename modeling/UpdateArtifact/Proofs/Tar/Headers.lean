import UpdateArtifact.Proofs.Tar.Numerals
import UpdateArtifact.Tar.Listing

/-!
# Reading headers back

Every field of a written header stands at its fixed place, so that a reader
finds the size, the type and the name it was made from, and a checksum that
agrees.
-/

namespace UpdateArtifact

namespace Bytes

theorem slice_of_split {bytes middle : Bytes} {start count : Nat} (front back : Bytes)
    (split : bytes = front ++ (middle ++ back)) (atStart : front.length = start)
    (width : middle.length = count) : slice start count bytes = middle := by
  subst atStart
  subst width
  rw [split, slice, List.drop_left, List.take_left]

theorem slice_append {start count : Nat} {front : Bytes} (inside : start + count ≤ front.length)
    (back : Bytes) : slice start count (front ++ back) = slice start count front := by
  rw [slice, slice, List.drop_append_of_le_length (by omega),
    List.take_append_of_le_length (by rw [List.length_drop]; omega)]

theorem takeWhile_field {width : Nat} {content : Bytes} (fits : content.length ≤ width)
    (noZero : (0 : UInt8) ∉ content) : (field width content).takeWhile (· ≠ 0) = content := by
  have filled : field width content = content ++ zeros (width - content.length) := by
    rw [field, zeros, List.take_append, List.take_of_length_le fits, List.take_replicate,
      Nat.min_eq_left (Nat.sub_le _ _), zeros]
  rw [filled, List.takeWhile_append_of_pos]
  · cases width - content.length with
    | zero => simp [zeros]
    | succ count => simp [zeros, List.replicate_succ]
  · intro byte member
    simp only [ne_eq, decide_not, Bool.not_eq_true', decide_eq_false_iff_not]
    rintro rfl
    exact noZero member

end Bytes

namespace Tar

namespace Header

theorem sum_le (bytes : Bytes) : sum bytes ≤ 255 * bytes.length := by
  have step : ∀ (bytes : Bytes) (total : Nat),
      bytes.foldl (fun total byte => total + byte.toNat) total ≤ total + 255 * bytes.length := by
    intro bytes
    induction bytes with
    | nil => simp
    | cons byte rest ih =>
        intro total
        have bound := byte.toNat_lt
        have later := ih (total + byte.toNat)
        simp only [List.foldl_cons, List.length_cons]
        omega
  simpa [sum] using step bytes 0

theorem checksum_lt (header : Header) : checksum header.front header.back < 8 ^ 7 := by
  have before := sum_le header.front
  have after := sum_le header.back
  rw [length_front] at before
  rw [length_back] at after
  unfold checksum
  omega

theorem field_gnuMagic : Bytes.field 8 gnuMagic = gnuMagic := by
  decide +kernel

theorem take_encode (header : Header) : header.encode.take 148 = header.front := by
  rw [encode, List.append_assoc, List.take_left' header.length_front]

theorem drop_encode (header : Header) : header.encode.drop 156 = header.back := by
  rw [encode, List.drop_left']
  simp

theorem checksum_field (header : Header) :
    Bytes.slice 148 8 header.encode =
      Numeral.octal 7 (checksum header.front header.back) ++ [0] := by
  apply Bytes.slice_of_split header.front header.back
  · rw [encode, List.append_assoc]
  · exact header.length_front
  · simp

theorem size_field (header : Header) :
    Bytes.slice 124 12 header.encode = Numeral.size header.size := by
  apply Bytes.slice_of_split
    (Bytes.field 100 header.name ++ (Numeral.octal 7 0o644 ++ [0]) ++
      (Numeral.octal 7 0 ++ [0]) ++ (Numeral.octal 7 0 ++ [0]))
    ((Numeral.octal 11 0 ++ [0]) ++
      (Numeral.octal 7 (checksum header.front header.back) ++ [0]) ++ header.back)
  · simp only [encode, front, List.append_assoc]
  · simp
  · simp

theorem type_field (header : Header) :
    Bytes.slice 156 1 header.encode = [header.type.code] := by
  apply Bytes.slice_of_split
    (header.front ++ (Numeral.octal 7 (checksum header.front header.back) ++ [0]))
    (Bytes.zeros 100 ++ Bytes.field 8 gnuMagic ++ Bytes.field 32 header.owner ++
      Bytes.field 32 header.owner ++ Bytes.zeros 183)
  · simp only [encode, back, List.append_assoc]
  · simp
  · rfl

theorem magic_field (header : Header) : Bytes.slice 257 8 header.encode = gnuMagic := by
  rw [← field_gnuMagic]
  apply Bytes.slice_of_split
    (header.front ++ (Numeral.octal 7 (checksum header.front header.back) ++ [0]) ++
      [header.type.code] ++ Bytes.zeros 100)
    (Bytes.field 32 header.owner ++ Bytes.field 32 header.owner ++ Bytes.zeros 183)
  · simp only [encode, back, List.append_assoc, field_gnuMagic]
  · simp
  · simp

theorem owner_field (header : Header) :
    Bytes.slice 265 32 header.encode = Bytes.field 32 header.owner := by
  apply Bytes.slice_of_split
    (header.front ++ (Numeral.octal 7 (checksum header.front header.back) ++ [0]) ++
      [header.type.code] ++ Bytes.zeros 100 ++ Bytes.field 8 gnuMagic)
    (Bytes.field 32 header.owner ++ Bytes.zeros 183)
  · simp only [encode, back, List.append_assoc]
  · simp
  · simp

theorem name_field (header : Header) :
    Bytes.slice 0 100 header.encode = Bytes.field 100 header.name := by
  apply Bytes.slice_of_split []
    ((Numeral.octal 7 0o644 ++ [0]) ++ (Numeral.octal 7 0 ++ [0]) ++
      (Numeral.octal 7 0 ++ [0]) ++ Numeral.size header.size ++ (Numeral.octal 11 0 ++ [0]) ++
      (Numeral.octal 7 (checksum header.front header.back) ++ [0]) ++ header.back)
  · simp only [encode, front, List.append_assoc, List.nil_append]
  · rfl
  · simp

theorem typeCode_encode (header : Header) :
    Notice.typeCode header.encode = header.type.code := by
  rw [Notice.typeCode, type_field]
  rfl

theorem not_blank (header : Header) : header.encode.all (· = 0) = false := by
  apply List.all_eq_false.mpr
  refine ⟨header.type.code, ?_, ?_⟩
  · have member : header.type.code ∈ Bytes.slice 156 1 header.encode := by
      rw [type_field]
      exact List.mem_singleton.mpr rfl
    exact List.mem_of_mem_drop (List.mem_of_mem_take member)
  · cases header.type <;> decide

theorem checkedSize_encode (header : Header) (fits : header.size < Numeral.wordLimit) :
    Listing.checkedSize header.encode = .ok header.size := by
  simp only [Listing.checkedSize, checksum_field, take_encode, drop_encode, size_field,
    Numeral.readOctal?_octal 7 (by decide) header.checksum_lt, Numeral.readSize?_size fits,
    ne_eq, not_true_eq_false, if_false]

theorem ofHeader?_file (header : Header) (file : header.type = .file) :
    Notice.ofHeader? header.encode = none := by
  simp [Notice.ofHeader?, magic_field, typeCode_encode, file, EntryType.code]

theorem ofHeader?_longName (header : Header) (long : header.type = .longName) :
    Notice.ofHeader? header.encode = some .name := by
  simp [Notice.ofHeader?, magic_field, typeCode_encode, long, EntryType.code]

theorem headerPath_encode (header : Header) :
    Announcement.headerPath header.encode =
      (Bytes.field 100 header.name).takeWhile (· ≠ 0) := by
  have gnu : gnuMagic ≠ posixMagic := by decide +kernel
  simp only [Announcement.headerPath, magic_field, name_field, gnu, false_and, if_false]

theorem mapBlocks_encode (header : Header) (file : header.type = .file) (size : Nat)
    (body : Bytes) : Listing.mapBlocks size header.encode body = .ok 0 := by
  have plain : EntryType.file.code ≠ Sparse.typeCode := by decide
  rw [Listing.mapBlocks, typeCode_encode, file, if_neg plain]

end Header

end Tar

end UpdateArtifact
