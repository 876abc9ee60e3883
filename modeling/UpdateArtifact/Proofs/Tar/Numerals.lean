import Mathlib
import UpdateArtifact.Tar.Numeral

/-!
# Reading numbers back

The numeric fields that a header is written with are read as the numbers they
were made from.  Neither end of such a field is blank, so trimming leaves it
alone, and its digits stop at the zero byte.
-/

namespace UpdateArtifact

namespace Tar

namespace Numeral

private theorem toNat_octalDigit (value : Nat) :
    (UInt8.ofNat (48 + value % 8)).toNat = 48 + value % 8 := by
  rw [UInt8.toNat_ofNat']
  exact Nat.mod_eq_of_lt (by omega)

theorem isOctal_of_mem_octal {width value : Nat} {byte : UInt8}
    (member : byte ∈ octal width value) : isOctal byte = true := by
  induction width generalizing value with
  | zero => simp [octal] at member
  | succ width ih =>
      rcases List.mem_append.mp member with inFront | last
      · exact ih inFront
      · have same : byte = UInt8.ofNat (48 + value % 8) := by
          simpa using last
        have code := toNat_octalDigit value
        rw [← same] at code
        simp only [isOctal, Bool.and_eq_true, decide_eq_true_eq, UInt8.le_iff_toNat_le]
        constructor
        · rw [code]
          exact Nat.le_add_right _ _
        · rw [code]
          have digit : value % 8 < 8 := Nat.mod_lt _ (by decide)
          exact (by omega : 48 + value % 8 ≤ 55)

theorem ofOctal_octal (width value : Nat) :
    ofOctal (octal width value) = value % 8 ^ width := by
  induction width generalizing value with
  | zero => simp [octal, ofOctal, Nat.mod_one]
  | succ width ih =>
      have split : ofOctal (octal (width + 1) value) =
          ofOctal (octal width (value / 8)) * 8 + value % 8 := by
        simp only [octal, ofOctal, List.foldl_append, List.foldl_cons, List.foldl_nil,
          toNat_octalDigit]
        omega
      rw [split, ih, Nat.pow_succ', Nat.mod_mul]
      omega

private theorem blank_ends :
    ∀ word ∈ blanks, ∃ first last, word.head? = some first ∧ isOctal first = false ∧
      word.getLast? = some last ∧ isOctal last = false := by
  have all : blanks.all (fun word =>
      (word.head?.any fun first => !isOctal first) &&
        (word.getLast?.any fun last => !isOctal last)) = true := by
    decide +kernel
  intro word member
  have ends := List.all_eq_true.mp all word member
  simp only [Bool.and_eq_true, Option.any_eq_true, Bool.not_eq_true'] at ends
  obtain ⟨⟨first, atFront, plainFirst⟩, last, atBack, plainLast⟩ := ends
  exact ⟨first, last, atFront, plainFirst, atBack, plainLast⟩

private theorem not_isPrefixOf_of_head? {word text : Bytes} {first head : UInt8}
    (atFront : word.head? = some first) (starts : text.head? = some head)
    (different : first ≠ head) : word.isPrefixOf text = false := by
  cases word with
  | nil => simp at atFront
  | cons wordHead wordTail =>
      cases text with
      | nil => simp at starts
      | cons textHead textTail =>
          simp only [List.head?_cons, Option.some.injEq] at atFront starts
          have apart : wordHead ≠ textHead := by
            rw [atFront, starts]
            exact different
          simp [List.isPrefixOf, apart]

private theorem strip_of_head? {words : List Bytes} {fuel : Nat} {text : Bytes} {head : UInt8}
    (starts : text.head? = some head)
    (apart : ∀ word ∈ words, ∃ first, word.head? = some first ∧ first ≠ head) :
    strip words fuel text = text := by
  cases fuel with
  | zero => rfl
  | succ fuel =>
      have none : words.find? (·.isPrefixOf text) = none := by
        apply List.find?_eq_none.mpr
        intro word member found
        obtain ⟨first, atFront, different⟩ := apart word member
        rw [not_isPrefixOf_of_head? atFront starts different] at found
        contradiction
      simp [strip, none]

private theorem ne_of_isOctal {left right : UInt8} (plain : isOctal left = false)
    (digit : isOctal right = true) : left ≠ right := by
  intro same
  rw [same, digit] at plain
  contradiction

theorem trim_of_isOctal {digits : Bytes} (some : digits ≠ [])
    (octal : ∀ byte ∈ digits, isOctal byte = true) : trim digits = digits := by
  have front : strip blanks digits.length digits = digits := by
    apply strip_of_head? (List.head?_eq_some_head some)
    intro word member
    obtain ⟨first, _, atFront, plain, _⟩ := blank_ends word member
    exact ⟨first, atFront, ne_of_isOctal plain (octal _ (List.head_mem some))⟩
  have back : strip (blanks.map List.reverse) digits.length digits.reverse =
      digits.reverse := by
    have reversed : digits.reverse ≠ [] := by
      simpa using some
    apply strip_of_head? (List.head?_eq_some_head reversed)
    intro word member
    obtain ⟨blank, ofBlank, rfl⟩ := List.mem_map.mp member
    obtain ⟨_, last, _, _, atBack, plain⟩ := blank_ends blank ofBlank
    refine ⟨last, by rw [List.head?_reverse, atBack], ?_⟩
    apply ne_of_isOctal plain
    exact octal _ (List.mem_reverse.mp (List.head_mem reversed))
  simp only [trim, front, back, List.reverse_reverse]

theorem readOctal?_octal (width : Nat) {value : Nat} (positive : 0 < width)
    (fits : value < 8 ^ width) : readOctal? (octal width value ++ [0]) = some value := by
  have digits : ∀ byte ∈ octal width value, isOctal byte = true :=
    fun _ member => isOctal_of_mem_octal member
  have notEmpty : octal width value ≠ [] := by
    intro empty
    have length := length_octal width value
    rw [empty] at length
    simp at length
    omega
  have upToZero : (octal width value ++ [0]).takeWhile (· ≠ 0) = octal width value := by
    rw [List.takeWhile_append_of_pos]
    · simp
    · intro byte member
      have digit := digits byte member
      simp only [ne_eq, decide_not, Bool.not_eq_true', decide_eq_false_iff_not]
      rintro rfl
      contradiction
  have unsigned : (octal width value).head? ≠ some 43 := by
    intro plus
    have digit := digits 43 (List.mem_of_mem_head? plus)
    contradiction
  have allOctal : (octal width value).all isOctal = true := List.all_eq_true.mpr digits
  simp only [readOctal?, upToZero, trim_of_isOctal notEmpty digits, if_neg unsigned]
  rw [if_pos ⟨notEmpty, allOctal⟩, ofOctal_octal, Nat.mod_eq_of_lt fits]

theorem readSize?_size {value : Nat} (fits : value < wordLimit) :
    readSize? (size value) = some value := by
  unfold size
  split
  · next small =>
      have read := readOctal?_octal 11 (by decide) small
      have digits : ∀ byte ∈ octal 11 value, isOctal byte = true :=
        fun _ member => isOctal_of_mem_octal member
      cases text : octal 11 value with
      | nil =>
          have length := length_octal 11 value
          rw [text] at length
          simp at length
      | cons mark rest =>
          rw [text] at read
          have digit := digits mark (by simp [text])
          have low : ¬ 128 ≤ mark := by
            simp only [isOctal, Bool.and_eq_true, decide_eq_true_eq,
              UInt8.le_iff_toNat_le] at digit ⊢
            exact Nat.not_le.mpr (Nat.lt_of_le_of_lt digit.2 (by decide))
          simp only [List.cons_append, readSize?, if_neg low]
          exact read
  · have marked : (0x80 : UInt8) ≥ 128 := by decide
    simp only [List.cons_append, readSize?, if_pos marked, Bytes.zeros]
    have number : Bytes.ofBigEndian (Bytes.bigEndian 8 value) = value := by
      rw [Bytes.ofBigEndian_bigEndian]
      exact Nat.mod_eq_of_lt fits
    simp [List.replicate, number]

end Numeral

end Tar

end UpdateArtifact
