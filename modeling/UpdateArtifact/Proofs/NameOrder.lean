import UpdateArtifact.Proofs.Addressing
import UpdateArtifact.Proofs.Inputs

/-!
# Names in order

Numerals of one width compare byte by byte as their numbers do: the first digit in which
they differ outweighs all digits behind it.  Names are made of the four digits of an index
and of what follows them, so that they sort as entries do, by index first and by file name
then.  No file name has a slash, which is why a name also tells where it is to be cut.
-/

namespace UpdateArtifact

namespace Bytes

/-- What follows two parts of one length counts only if the parts are the same. -/
theorem append_le_append_iff {left right : Bytes} (length : left.length = right.length)
    (more rest : Bytes) :
    left ++ more ≤ right ++ rest ↔ left < right ∨ left = right ∧ more ≤ rest := by
  induction left generalizing right with
  | nil =>
      obtain rfl := List.eq_nil_of_length_eq_zero length.symm
      simp
  | cons first left ih =>
      cases right with
      | nil => cases length
      | cons second right =>
          have shorter : left.length = right.length := Nat.succ.inj length
          rw [List.cons_append, List.cons_append, List.cons_le_cons_iff,
            List.cons_lt_cons_iff, ih shorter, List.cons.injEq, or_assoc, and_or_left,
            and_assoc]

theorem append_left_le_iff (front more rest : Bytes) :
    front ++ more ≤ front ++ rest ↔ more ≤ rest := by
  rw [append_le_append_iff rfl]
  simp [List.lt_irrefl]

end Bytes

/-! ## Numerals -/

/-- Two numbers in places of one weight compare by the higher place first. -/
theorem weighted_lt_iff {weight first second : Nat} (firstLow : first < weight)
    (secondLow : second < weight) (left right : Nat) :
    weight * left + first < weight * right + second ↔
      left < right ∨ left = right ∧ first < second := by
  rcases Nat.lt_trichotomy left right with less | rfl | more
  · have carried : weight * (left + 1) ≤ weight * right := Nat.mul_le_mul_left weight less
    rw [Nat.mul_succ] at carried
    omega
  · omega
  · have carried : weight * (right + 1) ≤ weight * left := Nat.mul_le_mul_left weight more
    rw [Nat.mul_succ] at carried
    omega

theorem ofDigitChars_cons_zero (digit : Char) (digits : List Char) :
    Nat.ofDigitChars 10 (digit :: digits) 0 =
      10 ^ digits.length * (digit.toNat - '0'.toNat) + Nat.ofDigitChars 10 digits 0 := by
  rw [Nat.ofDigitChars_cons, Nat.ofDigitChars_eq_ofDigitChars_zero, Nat.mul_zero, Nat.zero_add]

theorem ofDigitChars_lt {digits : List Char} (each : ∀ digit ∈ digits, digit.isDigit = true) :
    Nat.ofDigitChars 10 digits 0 < 10 ^ digits.length := by
  induction digits with
  | nil => decide
  | cons digit digits ih =>
      have low := ih fun later member => each later (List.mem_cons_of_mem _ member)
      have bounds := Char.isDigit_iff_toNat.mp (each digit List.mem_cons_self)
      have nine : '9'.toNat = '0'.toNat + 9 := rfl
      have small : digit.toNat - '0'.toNat < 10 := by omega
      have carried : 10 ^ digits.length * (digit.toNat - '0'.toNat + 1) ≤
          10 ^ digits.length * 10 := Nat.mul_le_mul_left _ small
      rw [ofDigitChars_cons_zero, List.length_cons, Nat.pow_succ]
      rw [Nat.mul_succ] at carried
      omega

def digitByte (digit : Char) : UInt8 :=
  UInt8.ofNat digit.toNat

theorem toNat_digitByte {digit : Char} (isDigit : digit.isDigit = true) :
    (digitByte digit).toNat = '0'.toNat + (digit.toNat - '0'.toNat) := by
  have bounds := Char.isDigit_iff_toNat.mp isDigit
  have nine : '9'.toNat = 57 := rfl
  rw [digitByte, UInt8.toNat_ofNat']
  omega

theorem utf8EncodeChar_of_isDigit {digit : Char} (isDigit : digit.isDigit = true) :
    String.utf8EncodeChar digit = [digitByte digit] := by
  have bounds := Char.isDigit_iff_toNat.mp isDigit
  have nine : '9'.toNat = 57 := rfl
  have ascii : digit.val.toNat ≤ 127 := by
    have code : digit.toNat = digit.val.toNat := rfl
    omega
  simp only [String.utf8EncodeChar, ascii, if_true]
  rfl

theorem utf8_of_digits {text : String} (each : ∀ digit ∈ text.toList, digit.isDigit = true) :
    Bytes.utf8 text = text.toList.map digitByte := by
  rw [Bytes.utf8, List.map_eq_flatMap]
  exact List.flatMap_congr fun digit member => utf8EncodeChar_of_isDigit (each digit member)

theorem map_digitByte_lt_iff {left right : List Char} (length : left.length = right.length)
    (leftDigits : ∀ digit ∈ left, digit.isDigit = true)
    (rightDigits : ∀ digit ∈ right, digit.isDigit = true) :
    left.map digitByte < right.map digitByte ↔
      Nat.ofDigitChars 10 left 0 < Nat.ofDigitChars 10 right 0 := by
  induction left generalizing right with
  | nil =>
      obtain rfl := List.eq_nil_of_length_eq_zero length.symm
      simp
  | cons first left ih =>
      cases right with
      | nil => cases length
      | cons second right =>
          have shorter : left.length = right.length := Nat.succ.inj length
          have leftRest : ∀ digit ∈ left, digit.isDigit = true := fun digit member =>
            leftDigits digit (List.mem_cons_of_mem _ member)
          have rightRest : ∀ digit ∈ right, digit.isDigit = true := fun digit member =>
            rightDigits digit (List.mem_cons_of_mem _ member)
          have leftLow := ofDigitChars_lt leftRest
          have rightLow := ofDigitChars_lt rightRest
          rw [← shorter] at rightLow
          have firstByte := toNat_digitByte (leftDigits first List.mem_cons_self)
          have secondByte := toNat_digitByte (rightDigits second List.mem_cons_self)
          -- On both sides the first digit decides, and the others where it is the same.
          calc (first :: left).map digitByte < (second :: right).map digitByte
              ↔ digitByte first < digitByte second ∨
                  digitByte first = digitByte second ∧ left.map digitByte < right.map digitByte :=
                List.cons_lt_cons_iff
            _ ↔ first.toNat - '0'.toNat < second.toNat - '0'.toNat ∨
                  first.toNat - '0'.toNat = second.toNat - '0'.toNat ∧
                    Nat.ofDigitChars 10 left 0 < Nat.ofDigitChars 10 right 0 := by
                rw [UInt8.lt_iff_toNat_lt, ← UInt8.toNat_inj, firstByte, secondByte,
                  Nat.add_lt_add_iff_left, Nat.add_left_cancel_iff,
                  ih shorter leftRest rightRest]
            _ ↔ Nat.ofDigitChars 10 (first :: left) 0 <
                  Nat.ofDigitChars 10 (second :: right) 0 := by
                rw [ofDigitChars_cons_zero, ofDigitChars_cons_zero, ← shorter,
                  weighted_lt_iff leftLow rightLow]

namespace PayloadEntry

theorem utf8_digits (entry : PayloadEntry) :
    Bytes.utf8 (fourDigits entry.index) = (fourDigits entry.index).toList.map digitByte :=
  utf8_of_digits fun _ => isDigit_of_mem_fourDigits

theorem utf8_digits_lt_iff (left right : PayloadEntry) :
    Bytes.utf8 (fourDigits left.index) < Bytes.utf8 (fourDigits right.index) ↔
      left.index < right.index := by
  have length := left.length_digits.trans right.length_digits.symm
  rw [utf8_digits, utf8_digits, map_digitByte_lt_iff length
    (fun _ => isDigit_of_mem_fourDigits) (fun _ => isDigit_of_mem_fourDigits),
    ofDigitChars_fourDigits, ofDigitChars_fourDigits]

/-- Names with an index in one place compare by the index and then by what follows it. -/
theorem numbered_le_iff (left right : PayloadEntry) (front more rest : String) :
    Bytes.utf8 (front ++ (fourDigits left.index ++ more)) ≤
        Bytes.utf8 (front ++ (fourDigits right.index ++ rest)) ↔
      left.index < right.index ∨
        left.index = right.index ∧ Bytes.utf8 more ≤ Bytes.utf8 rest := by
  have length : (Bytes.utf8 (fourDigits left.index)).length =
      (Bytes.utf8 (fourDigits right.index)).length := by
    rw [utf8_digits, utf8_digits, List.length_map, List.length_map, length_digits, length_digits]
  simp only [Bytes.utf8_append, Bytes.append_left_le_iff]
  rw [Bytes.append_le_append_iff length, utf8_digits_lt_iff, Bytes.utf8_injective.eq_iff,
    fourDigits_injective.eq_iff]

theorem le_iff (left right : PayloadEntry) :
    left.le right = true ↔ left.index < right.index ∨
      left.index = right.index ∧ Bytes.utf8 left.basename ≤ Bytes.utf8 right.basename := by
  simp [le]

theorem entryName_le_iff (left right : PayloadEntry) :
    Bytes.utf8 left.entryName ≤ Bytes.utf8 right.entryName ↔ left.le right = true := by
  have slash : Bytes.utf8 ("/" ++ left.basename) ≤ Bytes.utf8 ("/" ++ right.basename) ↔
      Bytes.utf8 left.basename ≤ Bytes.utf8 right.basename := by
    rw [Bytes.utf8_append, Bytes.utf8_append, Bytes.append_left_le_iff]
  rw [le_iff, ← slash, ← numbered_le_iff left right "data/"]
  simp only [entryName, directory, String.append_assoc]

/-- Names in which the same text follows the index compare as the indices do. -/
theorem framed_le_iff (left right : PayloadEntry) (front back : String) :
    Bytes.utf8 (front ++ (fourDigits left.index ++ back)) ≤
        Bytes.utf8 (front ++ (fourDigits right.index ++ back)) ↔
      left.index ≤ right.index := by
  rw [numbered_le_iff, Nat.le_iff_lt_or_eq]
  simp

theorem archiveName_le_iff (left right : PayloadEntry) :
    Bytes.utf8 left.archiveName ≤ Bytes.utf8 right.archiveName ↔ left.index ≤ right.index := by
  rw [← framed_le_iff left right "data/" ".tar.gz"]
  simp only [archiveName, directory, String.append_assoc]

theorem headerDirectory_le_iff (left right : PayloadEntry) :
    Bytes.utf8 left.headerDirectory ≤ Bytes.utf8 right.headerDirectory ↔
      left.index ≤ right.index := by
  rw [← framed_le_iff left right "headers/" ""]
  simp only [headerDirectory, String.append_empty]

/-! ## Reading names back -/

/-- The entry that a name in the manifest belongs to. -/
def ofEntryName? (name : String) : Option PayloadEntry :=
  match pieces '/' name.toList with
  | [folder, digits, basename] =>
      let index := Nat.ofDigitChars 10 digits 0
      -- A name with another numeral for the same index belongs to no entry.
      if folder = "data".toList ∧ digits = (fourDigits index).toList then
        (make index (some (String.ofList basename))).toOption
      else none
  | _ => none

theorem make_self (entry : PayloadEntry) :
    make entry.index (some entry.basename) = .ok entry := by
  rw [make, Option.getD_some, dif_pos entry.validName, dif_pos entry.index_le]

theorem ofEntryName?_eq_some_iff (name : String) (entry : PayloadEntry) :
    ofEntryName? name = some entry ↔ name = entry.entryName := by
  constructor
  · intro found
    unfold ofEntryName? at found
    split at found
    · next folder digits basename cut =>
        simp only at found
        split at found
        · next written =>
            obtain ⟨rfl, numeral⟩ := written
            cases made : make (Nat.ofDigitChars 10 digits 0) (some (String.ofList basename)) with
            | error refusal =>
                rw [made] at found
                cases found
            | ok decoded =>
                rw [made] at found
                cases found
                obtain ⟨index, called⟩ := make_ok made
                apply String.toList_injective
                rw [toList_entryName, index, called, ← numeral, Option.getD_some,
                  String.toList_ofList, ← intercalate_pieces '/' name.toList, cut]
                simp [List.intercalate]
        · cases found
    · cases found
  · rintro rfl
    unfold ofEntryName?
    rw [pieces_entryName]
    simp only [ofDigitChars_fourDigits, and_self, if_true, String.ofList_toList, make_self]
    rfl

theorem entryName_injective : Function.Injective entryName := by
  intro left right same
  have found := (ofEntryName?_eq_some_iff right.entryName left).mpr same.symm
  rw [(ofEntryName?_eq_some_iff right.entryName right).mpr rfl] at found
  exact (Option.some.inj found).symm

/-! ## Entries and their names -/

/-- Entries are ordered as the bytes of their names are, and each can be read back from its
name.  The entry that holds a payload and the directory with its metadata tell the index and
nothing else, and are ordered by it. -/
theorem names_ordered (left right : PayloadEntry) :
    (left.le right = true ↔ Bytes.utf8 left.entryName ≤ Bytes.utf8 right.entryName) ∧
    (left.entryName = right.entryName ↔ left = right) ∧
    (∀ name, ofEntryName? name = some left ↔ name = left.entryName) ∧
    (left.archiveName = right.archiveName ↔ left.index = right.index) ∧
    (Bytes.utf8 left.archiveName ≤ Bytes.utf8 right.archiveName ↔ left.index ≤ right.index) ∧
    (left.headerDirectory = right.headerDirectory ↔ left.index = right.index) ∧
    (Bytes.utf8 left.headerDirectory ≤ Bytes.utf8 right.headerDirectory ↔
      left.index ≤ right.index) := by
  refine ⟨(entryName_le_iff left right).symm, entryName_injective.eq_iff,
    fun name => ofEntryName?_eq_some_iff name left, ⟨index_eq_of_archiveName, ?archives⟩,
    archiveName_le_iff left right, ⟨index_eq_of_headerDirectory, ?directories⟩,
    headerDirectory_le_iff left right⟩
  case archives =>
    intro index
    rw [archiveName, archiveName, directory, directory, index]
  case directories =>
    intro index
    rw [headerDirectory, headerDirectory, index]

/-- Of numerals with different numbers of digits the greater one may come first. -/
example : Bytes.utf8 (fourDigits 10000) < Bytes.utf8 (fourDigits 9999) := by
  decide +kernel

end PayloadEntry

end UpdateArtifact
