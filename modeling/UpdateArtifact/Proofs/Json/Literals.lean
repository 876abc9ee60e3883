import UpdateArtifact.Proofs.Json.Printing

/-!
# Spellings of strings and whole numbers

A reader takes exactly what the grammar of JSON has.  A string has many spellings, since
most characters may be escaped in several ways, and `Spells` lists them.  A whole number
that is kept exactly has one, its numeral, and is told from a double by what follows.
-/

namespace UpdateArtifact

namespace Json

namespace Lexer

def Blank (text : List Char) : Prop :=
  ∀ character ∈ text, isBlank character = true

def Padded (described : List Char → Prop) (text : List Char) : Prop :=
  ∃ before inner after, Blank before ∧ described inner ∧ Blank after ∧
    text = before ++ inner ++ after

theorem exists_blank (text : List Char) :
    ∃ blanks, Blank blanks ∧ text = blanks ++ skipBlanks text :=
  ⟨text.takeWhile isBlank, List.all_eq_true.mp List.all_takeWhile,
    List.takeWhile_append_dropWhile.symm⟩

theorem skipBlanks_append {blanks : List Char} (blank : Blank blanks) (rest : List Char) :
    skipBlanks (blanks ++ rest) = skipBlanks rest :=
  List.dropWhile_append_of_pos blank

theorem skipBlanks_cons {character : Char} (solid : isBlank character = false)
    (rest : List Char) : skipBlanks (character :: rest) = character :: rest := by
  rw [skipBlanks, List.dropWhile_cons, solid]
  rfl

theorem skipBlanks_eq_nil_iff {text : List Char} : skipBlanks text = [] ↔ Blank text := by
  constructor
  · intro nothing
    obtain ⟨blanks, blank, parts⟩ := exists_blank text
    rw [nothing, List.append_nil] at parts
    rwa [parts]
  · intro blank
    have ends := skipBlanks_append blank []
    rwa [List.append_nil] at ends

theorem word_eq_ok_iff {expected text rest : List Char} :
    word expected text = .ok rest ↔ text = expected ++ rest := by
  induction expected generalizing text with
  | nil =>
      rw [word, Except.ok.injEq]
      rfl
  | cons character more ih =>
      cases text with
      | nil => simp [word]
      | cons found text =>
          rw [word]
          by_cases same : found = character
          · rw [if_pos same, ih]
            simp [same]
          · rw [if_neg same]
            simp [same]

theorem isBlank_of_isDigit {digit : Char} (isDigit : digit.isDigit = true) :
    isBlank digit = false := by
  cases blank : isBlank digit with
  | false => rfl
  | true =>
      simp only [isBlank, Bool.or_eq_true, decide_eq_true_eq] at blank
      rcases blank with ((rfl | rfl) | rfl) | rfl <;> cases isDigit

/-- The texts that may stand between quotes for some characters. -/
inductive Spells : List Char → List Char → Prop where
  | nil : Spells [] []
  | plain {character : Char} {characters body : List Char} (printable : 32 ≤ character.toNat)
      (noQuote : character ≠ '"') (noEscape : character ≠ '\\') :
      Spells characters body → Spells (character :: characters) (character :: body)
  | escaped {letter character : Char} {characters body : List Char}
      (stands : simpleEscape? letter = some character) :
      Spells characters body → Spells (character :: characters) ('\\' :: letter :: body)
  | code {first second third fourth : Char} {unit : Nat} {characters body : List Char}
      (digits : fourDigits? first second third fourth = some unit)
      (whole : unit < 0xD800 ∨ 0xDFFF < unit) :
      Spells characters body →
      Spells (Char.ofNat unit :: characters)
        ('\\' :: 'u' :: first :: second :: third :: fourth :: body)
  | pair {first second third fourth fifth sixth seventh eighth : Char} {high low : Nat}
      {characters body : List Char}
      (digits : fourDigits? first second third fourth = some high)
      (isHigh : 0xD800 ≤ high ∧ high ≤ 0xDBFF)
      (moreDigits : fourDigits? fifth sixth seventh eighth = some low)
      (isLow : 0xDC00 ≤ low ∧ low ≤ 0xDFFF) :
      Spells characters body →
      Spells (Char.ofNat (0x10000 + (high - 0xD800) * 0x400 + (low - 0xDC00)) :: characters)
        ('\\' :: 'u' :: first :: second :: third :: fourth ::
          '\\' :: 'u' :: fifth :: sixth :: seventh :: eighth :: body)

theorem prepend_eq_ok {character : Char} {result : Except Fault (List Char × List Char)}
    {characters rest : List Char} (found : prepend character result = .ok (characters, rest)) :
    ∃ more, result = .ok (more, rest) ∧ characters = character :: more := by
  cases result with
  | error fault => cases found
  | ok pair =>
      cases found
      exact ⟨pair.1, rfl, rfl⟩

theorem stringBody_of_spells {characters body : List Char} (spells : Spells characters body)
    (rest : List Char) : stringBody (body ++ '"' :: rest) = .ok (characters, rest) := by
  induction spells with
  | nil => rfl
  | plain printable noQuote noEscape _ ih =>
      rw [List.cons_append, stringBody, if_neg (by omega), ih]
      · rfl
      -- What is left are the patterns of the reader that start otherwise.
      all_goals simp [noQuote, noEscape]
  | @escaped letter character _ _ stands _ ih =>
      have noCode : letter ≠ 'u' := by
        rintro rfl
        cases stands
      rw [List.cons_append, List.cons_append, stringBody, stands]
      · simp only [ih]
        rfl
      all_goals simp [noCode]
  | code digits whole _ ih =>
      simp only [List.cons_append, stringBody, digits]
      rw [if_neg (by omega), if_neg (by omega), ih]
      rfl
  | pair digits isHigh moreDigits isLow _ ih =>
      simp only [List.cons_append, stringBody, digits, moreDigits]
      rw [if_neg (by omega), if_pos isHigh, if_pos isLow, ih]
      rfl

theorem spells_of_stringBody {text characters rest : List Char}
    (found : stringBody text = .ok (characters, rest)) :
    ∃ body, Spells characters body ∧ text = body ++ '"' :: rest := by
  -- One case for each branch of the reader; all but five of them are faults.
  fun_induction stringBody text generalizing characters with
  | case2 text =>
      cases found
      exact ⟨[], .nil, rfl⟩
  | case6 first second third fourth high digits noLow isHigh fifth sixth seventh eighth text low
      moreDigits isLow ih =>
      obtain ⟨more, later, rfl⟩ := prepend_eq_ok found
      obtain ⟨body, spells, rfl⟩ := ih later
      exact ⟨_, .pair digits isHigh moreDigits isLow spells, rfl⟩
  | case9 first second third fourth text unit digits noLow noHigh ih =>
      obtain ⟨more, later, rfl⟩ := prepend_eq_ok found
      obtain ⟨body, spells, rfl⟩ := ih later
      exact ⟨_, .code digits (by omega) spells, rfl⟩
  | case12 letter text _ _ character stands ih =>
      obtain ⟨more, later, rfl⟩ := prepend_eq_ok found
      obtain ⟨body, spells, rfl⟩ := ih later
      exact ⟨_, .escaped stands spells, rfl⟩
  | case15 character text noQuote _ _ notAlone noLetter printable ih =>
      have noEscape : character ≠ '\\' := by
        intro same
        cases text with
        | nil => exact notAlone same rfl
        | cons letter more => exact noLetter letter more same rfl
      obtain ⟨more, later, rfl⟩ := prepend_eq_ok found
      obtain ⟨body, spells, rfl⟩ := ih later
      exact ⟨_, .plain (by omega) noQuote noEscape spells, rfl⟩
  | _ => cases found

theorem string_eq_ok_iff {text rest : List Char} {value : String} :
    string text = .ok (value, rest) ↔
      ∃ body, Spells value.toList body ∧ text = body ++ '"' :: rest := by
  constructor
  · intro found
    cases body : stringBody text with
    | error fault => simp [string, body, Except.map] at found
    | ok pair =>
        simp only [string, body, Except.map, Except.ok.injEq, Prod.mk.injEq] at found
        obtain ⟨rfl, rfl⟩ := found
        rw [String.toList_ofList]
        exact spells_of_stringBody body
  · rintro ⟨body, spells, rfl⟩
    rw [string, stringBody_of_spells spells]
    simp [Except.map]

theorem spells_escape (value : String) : Spells value.toList (value.toList.flatMap escape) := by
  obtain ⟨body, spells, same⟩ := string_eq_ok_iff.mp (string_quote value [])
  rwa [List.append_cancel_right same]

theorem digitValue_lt {digit : Char} (isDigit : digit.isDigit = true) : digitValue digit < 10 := by
  have bounds := Char.isDigit_iff_toNat.mp isDigit
  have nine : '9'.toNat = 57 := rfl
  rw [digitValue]
  omega

theorem numeral_digitValue {digit : Char} (isDigit : digit.isDigit = true) :
    Decimal.numeral (digitValue digit) = [digit] := by
  have single := digitValue_lt isDigit
  have bounds := Char.isDigit_iff_toNat.mp isDigit
  have zero : '0'.toNat = 48 := rfl
  rw [Decimal.numeral, Nat.toDigits_of_lt_base single, List.singleton_inj, ← Char.toNat_inj,
    Nat.toNat_digitChar_of_lt_ten single, digitValue]
  omega

theorem numeral_append {value : Nat} (positive : 0 < value) {digits : List Char}
    (each : ∀ digit ∈ digits, digit.isDigit = true) :
    Decimal.numeral value ++ digits = Decimal.numeral (Nat.ofDigitChars 10 digits value) := by
  induction digits generalizing value with
  | nil => simp [Nat.ofDigitChars]
  | cons digit rest ih =>
      have isDigit := each digit List.mem_cons_self
      have next : Decimal.numeral value ++ [digit] =
          Decimal.numeral (10 * value + digitValue digit) := by
        rw [← numeral_digitValue isDigit]
        exact Nat.toDigits_append_toDigits (by decide) positive (digitValue_lt isDigit)
      calc Decimal.numeral value ++ digit :: rest
          = Decimal.numeral (10 * value + digitValue digit) ++ rest := by
            rw [← next, List.append_assoc, List.singleton_append]
        _ = Decimal.numeral (Nat.ofDigitChars 10 rest (10 * value + digitValue digit)) :=
            ih (by omega) fun later member => each later (List.mem_cons_of_mem _ member)
        _ = Decimal.numeral (Nat.ofDigitChars 10 (digit :: rest) value) := by
            rw [Nat.ofDigitChars_cons]
            rfl

/-- A run of digits without a needless zero in front. -/
structure Digits (written : List Char) : Prop where
  nonempty : written ≠ []
  each : ∀ digit ∈ written, digit.isDigit = true
  noZero : ∀ digit rest, written ≠ '0' :: digit :: rest

theorem numeral_ofDigitChars {written : List Char} (digits : Digits written) :
    Decimal.numeral (Nat.ofDigitChars 10 written 0) = written := by
  cases written with
  | nil => exact (digits.nonempty rfl).elim
  | cons digit rest =>
      have isDigit := digits.each digit List.mem_cons_self
      have each : ∀ later ∈ rest, later.isDigit = true := fun later member =>
        digits.each later (List.mem_cons_of_mem _ member)
      have value : Nat.ofDigitChars 10 (digit :: rest) 0 =
          Nat.ofDigitChars 10 rest (digitValue digit) := by
        rw [Nat.ofDigitChars_cons, Nat.mul_zero, Nat.zero_add]
        rfl
      rw [value]
      by_cases positive : 0 < digitValue digit
      · rw [← numeral_append positive each, numeral_digitValue isDigit, List.singleton_append]
      · have written := numeral_digitValue isDigit
        rw [show digitValue digit = 0 by omega] at written
        obtain rfl : '0' = digit := List.singleton_inj.mp written
        cases rest with
        | nil => rfl
        | cons next more => exact (digits.noZero next more rfl).elim

theorem eq_zero_of_numeral {value : Nat} {rest : List Char}
    (written : Decimal.numeral value = '0' :: rest) : value = 0 := by
  induction value using Nat.strongRecOn generalizing rest with
  | ind value ih =>
      rw [Decimal.numeral] at written
      by_cases single : value < 10
      · rw [Nat.toDigits_of_lt_base single, List.cons.injEq] at written
        exact Nat.digitChar_eq_zero.mp written.1
      · rw [Nat.toDigits_of_base_le (by decide) (by omega)] at written
        -- The last digit off, the numeral still starts with the zero.
        cases front : Nat.toDigits 10 (value / 10) with
        | nil => exact (Nat.toDigits_ne_nil front).elim
        | cons first more =>
            rw [front, List.cons_append, List.cons.injEq] at written
            rw [written.1] at front
            have none := ih (value / 10) (by omega) front
            omega

theorem digits_numeral (value : Nat) : Digits (Decimal.numeral value) := by
  refine ⟨Nat.toDigits_ne_nil, fun digit => Nat.isDigit_of_mem_toDigits (by decide) (by decide),
    ?_⟩
  intro digit rest written
  have zero := eq_zero_of_numeral written
  rw [zero] at written
  cases written

theorem le_ofDigitChars (digits : List Char) (value : Nat) :
    value ≤ Nat.ofDigitChars 10 digits value := by
  induction digits generalizing value with
  | nil => exact Nat.le_refl value
  | cons digit rest ih =>
      rw [Nat.ofDigitChars_cons]
      exact Nat.le_trans (by omega) (ih _)

theorem absorb_eq_iff {significand value : Nat} (small : significand < significandLimit)
    (digits : List Char) :
    absorb significand digits = (value, digits.length) ↔
      value = Nat.ofDigitChars 10 digits significand ∧ value < significandLimit := by
  induction digits generalizing significand with
  | nil =>
      constructor
      · intro taken
        cases taken
        exact ⟨rfl, small⟩
      · rintro ⟨rfl, -⟩
        rfl
  | cons digit rest ih =>
      have extended : 10 * significand + (digit.toNat - '0'.toNat) =
          significand * 10 + digitValue digit := by
        rw [Nat.mul_comm]
        rfl
      rw [Nat.ofDigitChars_cons, extended, absorb]
      by_cases fits : significand * 10 + digitValue digit < significandLimit
      · rw [if_pos fits, ← ih fits]
        simp [Prod.ext_iff]
      · rw [if_neg fits]
        constructor
        · intro taken
          cases taken
        · rintro ⟨rfl, below⟩
          exact (fits (Nat.lt_of_le_of_lt (le_ofDigitChars rest _) below)).elim

theorem absorb_count_le (significand : Nat) (digits : List Char) :
    (absorb significand digits).2 ≤ digits.length := by
  induction digits generalizing significand with
  | nil => exact Nat.le_refl 0
  | cons digit rest ih =>
      rw [absorb]
      split
      · exact Nat.succ_le_succ (ih _)
      · exact Nat.zero_le _

/-- A result that is no whole number kept exactly. -/
def Inexact (result : Except Fault (Number × List Char)) : Prop :=
  ∀ value rest, result ≠ .ok (.whole value, rest)

theorem inexact_double (negative : Bool) (significand : Nat) (places : Int)
    (text : List Char) : Inexact ((double negative significand places).map (·, text)) := by
  intro value rest
  rw [double]
  split <;> simp [Except.map]

theorem inexact_exponent (negative : Bool) (significand : Nat) (start : Int)
    (text : List Char) : Inexact (exponent negative significand start text) := by
  intro value rest
  rw [exponent.eq_def]
  split
  next down text _ =>
    split
    · simp
    · simp
    · simp only
      split
      · split <;> simp
      · exact inexact_double _ _ _ _ value rest

theorem inexact_doubleEnd (negative : Bool) (significand : Nat) (start : Int)
    (text : List Char) : Inexact (doubleEnd negative significand start text) := by
  intro value rest
  rw [doubleEnd.eq_def]
  split
  · exact inexact_exponent _ _ _ _ value rest
  · exact inexact_exponent _ _ _ _ value rest
  · exact inexact_double _ _ _ _ value rest

theorem inexact_fraction (negative : Bool) (significand : Nat) (start : Int)
    (text : List Char) : Inexact (fraction negative significand start text) := by
  intro value rest
  rw [fraction]
  split
  · simp
  · simp
  · exact inexact_doubleEnd _ _ _ _ value rest

theorem digits_append {written rest : List Char}
    (each : ∀ digit ∈ written, digit.isDigit = true) (ends : Ends rest) :
    digits (written ++ rest) = (written, rest) := by
  have stops : rest.takeWhile isDigit = [] ∧ rest.dropWhile isDigit = rest := by
    cases rest with
    | nil => exact ⟨rfl, rfl⟩
    | cons character more =>
        have noDigit : isDigit character = false := ends character rfl
        simp [noDigit]
  have all : ∀ digit ∈ written, isDigit digit = true := each
  rw [digits, List.takeWhile_append_of_pos all, List.dropWhile_append_of_pos all, stops.1,
    stops.2, List.append_nil]

theorem of_digits_eq {text written rest : List Char} (split : digits text = (written, rest)) :
    text = written ++ rest ∧ (∀ digit ∈ written, digit.isDigit = true) ∧ Ends rest := by
  cases split
  refine ⟨List.takeWhile_append_dropWhile.symm, List.all_eq_true.mp List.all_takeWhile, ?_⟩
  intro character head
  have stops := List.head?_dropWhile_not isDigit text
  rw [Option.mem_def.mp head] at stops
  exact stops

/-- Text that does not go on with a number. -/
structure EndsNumber (text : List Char) : Prop where
  noDigit : Ends text
  noPoint : ∀ rest, text ≠ '.' :: rest
  noExponent : ∀ rest, text ≠ 'e' :: rest
  noUpperExponent : ∀ rest, text ≠ 'E' :: rest

theorem endsNumber_cons {character : Char} (stops : character.isDigit = false ∧
    character ≠ '.' ∧ character ≠ 'e' ∧ character ≠ 'E') (text : List Char) :
    EndsNumber (character :: text) := by
  obtain ⟨noDigit, noPoint, noExponent, noUpperExponent⟩ := stops
  exact ⟨ends_cons noDigit text, by simp [noPoint], by simp [noExponent],
    by simp [noUpperExponent]⟩

theorem endsNumber_of_blank {character : Char} (blank : isBlank character = true)
    (text : List Char) : EndsNumber (character :: text) := by
  simp only [isBlank, Bool.or_eq_true, decide_eq_true_eq] at blank
  rcases blank with ((rfl | rfl) | rfl) | rfl <;> exact endsNumber_cons (by decide) text

/-- Only digits that fit and are not gone on with are kept exactly. -/
theorem of_unsigned_whole {negative : Bool} {text rest : List Char} {value : Int}
    (found : unsigned negative text = .ok (.whole value, rest)) :
    ∃ written, Digits written ∧ text = written ++ rest ∧ EndsNumber rest ∧
      Nat.ofDigitChars 10 written 0 < significandLimit ∧
      integer negative (Nat.ofDigitChars 10 written 0) = .ok (.whole value) := by
  rw [unsigned] at found
  split at found
  case h_1 | h_2 | h_3 => cases found
  case h_4 written after noEnd noStart noZero split =>
    obtain ⟨parts, each, ends⟩ := of_digits_eq split
    have digits : Digits written := by
      refine ⟨?_, each, noZero⟩
      rintro rfl
      cases after with
      | nil => exact noEnd rfl rfl
      | cons character more => exact noStart character more rfl rfl
    have most := absorb_count_le 0 written
    cases taken : absorb 0 written with
    | mk significand count =>
      rw [taken] at most
      simp only [taken] at found
      split at found
      · exact (inexact_fraction _ _ _ _ _ _ found).elim
      · exact (inexact_exponent _ _ _ _ _ _ found).elim
      · exact (inexact_exponent _ _ _ _ _ _ found).elim
      next noPoint noExponent noUpperExponent =>
        split at found
        next noneDropped =>
          have every : count = written.length := by omega
          rw [every] at taken
          obtain ⟨rfl, below⟩ := (absorb_eq_iff (by decide) written).mp taken
          cases kept : integer negative (Nat.ofDigitChars 10 written 0) with
          | error fault => simp [kept, Except.map] at found
          | ok number =>
              rw [kept] at found
              cases found
              exact ⟨written, digits, parts, ⟨ends, noPoint, noExponent, noUpperExponent⟩,
                below, kept⟩
        next => exact (inexact_double _ _ _ _ _ _ found).elim

theorem unsigned_digits {written rest : List Char} (digits : Digits written)
    (ends : EndsNumber rest) (below : Nat.ofDigitChars 10 written 0 < significandLimit) :
    unsigned false (written ++ rest) =
      .ok (.whole (Nat.ofDigitChars 10 written 0 : Nat), rest) := by
  have taken := (absorb_eq_iff (by decide) written).mpr ⟨rfl, below⟩
  rw [unsigned, digits_append digits.each ends.noDigit]
  split
  case h_1 parts | h_2 parts => 
    cases parts
    exact (digits.nonempty rfl).elim
  case h_3 parts =>
    cases parts
    exact (digits.noZero _ _ rfl).elim
  case h_4 parts =>
    cases parts
    simp only [taken]
    split
    · exact (ends.noPoint _ rfl).elim
    · exact (ends.noExponent _ rfl).elim
    · exact (ends.noUpperExponent _ rfl).elim
    · simp [integer, Except.map]

theorem integer_true_ne_whole {magnitude value : Nat} :
    integer true magnitude ≠ .ok (.whole value) := by
  intro found
  rw [integer, if_neg (by simp)] at found
  split at found
  · rw [double] at found
    split at found <;> cases found
  next outside =>
    injection found with same
    injection same with same
    omega

/-- A whole number that is kept exactly is written as its numeral. -/
theorem number_eq_whole_iff {text rest : List Char} {value : Nat} :
    number text = .ok (.whole value, rest) ↔
      value < significandLimit ∧ EndsNumber rest ∧ text = Decimal.numeral value ++ rest := by
  constructor
  · intro found
    rw [number.eq_def] at found
    split at found
    · obtain ⟨written, _, _, _, _, negative⟩ := of_unsigned_whole found
      exact (integer_true_ne_whole negative).elim
    · obtain ⟨written, digits, rfl, ends, below, positive⟩ := of_unsigned_whole found
      obtain rfl : Nat.ofDigitChars 10 written 0 = value :=
        Int.ofNat_inj.mp (by simpa [integer] using positive)
      rw [numeral_ofDigitChars digits]
      exact ⟨below, ends, rfl⟩
  · rintro ⟨below, ends, rfl⟩
    have same : Nat.ofDigitChars 10 (Decimal.numeral value) 0 = value :=
      Nat.ofDigitChars_toDigits (by decide) (by decide)
    obtain ⟨digit, more, shape, isDigit⟩ := Number.isDigit_head_numeral value rest
    have unsigned : unsigned false (Decimal.numeral value ++ rest) = .ok (.whole value, rest) := by
      rw [unsigned_digits (digits_numeral value) ends (by rwa [same]), same]
    rw [number.eq_def]
    split
    next minus =>
      rw [shape, List.cons.injEq] at minus
      rw [minus.1] at isDigit
      cases isDigit
    · exact unsigned

end Lexer

end Json

end UpdateArtifact
