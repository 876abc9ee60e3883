import Mathlib.Data.List.Forall2
import UpdateArtifact.Options.Reader
import UpdateArtifact.Proofs.Json.Literals

/-!
# Texts of overrides

`Describes` gives the grammar of overrides apart from the reader.  An object has members in
any order, each field at most once, and an absent field is written as null or left out.  An
array has the four values in order.  Blanks may stand around everything.  The value of one
field is read from exactly the texts that say it, and leaves the other fields as they were.
-/

namespace UpdateArtifact

namespace Overrides

open Json Json.Lexer

/-- Whether a field is the same in two overrides. -/
def SameAt (left right : Overrides) : Field → Prop
  | .compressionLevel => left.compressionLevel = right.compressionLevel
  | .readBlockSize => left.readBlockSize = right.readBlockSize
  | .ownerName => left.ownerName = right.ownerName
  | .formatVersion => left.formatVersion = right.formatVersion

/-- Whole numbers below a limit are written as numerals. -/
def Numeral (limit value : Nat) (text : List Char) : Prop :=
  value < limit ∧ text = Decimal.numeral value

/-- Texts are written in quotes, with any escapes. -/
def Quoted (value : String) (text : List Char) : Prop :=
  ∃ body, Spells value.toList body ∧ text = '"' :: (body ++ ['"'])

/-- What is absent is written as null. -/
def OrNull {α : Type} (writes : α → List Char → Prop) : Option α → List Char → Prop
  | none, text => text = "null".toList
  | some value, text => writes value text

def ValueText (overrides : Overrides) : Field → List Char → Prop
  | .compressionLevel => OrNull (Numeral 0x100000000) overrides.compressionLevel
  | .readBlockSize => OrNull (Numeral 0x10000000000000000) overrides.readBlockSize
  | .ownerName => OrNull Quoted overrides.ownerName
  | .formatVersion => OrNull (Numeral 0x100000000) overrides.formatVersion

def ElementText (overrides : Overrides) (field : Field) : List Char → Prop :=
  Padded (overrides.ValueText field)

def MemberText (overrides : Overrides) (field : Field) (text : List Char) : Prop :=
  ∃ key value, Padded (Quoted field.name) key ∧ Padded (overrides.ValueText field) value ∧
    text = key ++ ':' :: value

/-- Texts with commas between them, in brackets. -/
def Enclosed (opening closing : Char) (texts : List (List Char)) (text : List Char) : Prop :=
  ∃ blanks, Blank blanks ∧ text = opening :: (blanks ++ separated id texts ++ [closing])

/-- An object has some of the fields in any order; the others are absent. -/
def ObjectText (overrides : Overrides) (text : List Char) : Prop :=
  ∃ fields texts, fields.Nodup ∧ (∀ field ∉ fields, SameAt overrides {} field) ∧
    List.Forall₂ overrides.MemberText fields texts ∧ Enclosed '\x7b' '\x7d' texts text

/-- An array has all fields in order. -/
def ArrayText (overrides : Overrides) (text : List Char) : Prop :=
  ∃ texts, List.Forall₂ overrides.ElementText Field.all texts ∧ Enclosed '[' ']' texts text

/-- A text that says the overrides. -/
def Describes (overrides : Overrides) : List Char → Prop :=
  Padded fun text => overrides.ObjectText text ∨ overrides.ArrayText text

namespace SameAt

variable {left middle right : Overrides} {field : Field}

theorem refl (overrides : Overrides) (field : Field) : SameAt overrides overrides field := by
  cases field <;> rfl

theorem symm (same : SameAt left right field) : SameAt right left field := by
  cases field <;> exact Eq.symm same

theorem trans (first : SameAt left middle field) (second : SameAt middle right field) :
    SameAt left right field := by
  cases field <;> exact Eq.trans first second

theorem ext (same : ∀ field, SameAt left right field) : left = right := by
  cases left
  cases right
  have level := same .compressionLevel
  have blockSize := same .readBlockSize
  have owner := same .ownerName
  have version := same .formatVersion
  simp only [SameAt] at level blockSize owner version
  rw [level, blockSize, owner, version]

theorem valueText (same : SameAt left right field) :
    left.ValueText field = right.ValueText field := by
  cases field <;> (simp only [SameAt] at same; simp only [ValueText, same])

end SameAt

namespace Reader

/-- A reader takes what is written, unless what follows makes it a longer number.  What is
written starts with no blank, and is taken neither for null nor for the end of an array. -/
structure Reads {α : Type} (reader : List Char → Except Fault (α × List Char))
    (writes : α → List Char → Prop) : Prop where
  sound : ∀ text value rest, reader text = .ok (value, rest) →
    ∃ inner, writes value inner ∧ text = inner ++ rest
  complete : ∀ value inner rest, writes value inner → EndsNumber rest →
    reader (inner ++ rest) = .ok (value, rest)
  opens : ∀ value inner, writes value inner →
    ∃ character more, inner = character :: more ∧ isBlank character = false ∧
      character ≠ 'n' ∧ character ≠ ']'

theorem lexical_eq_ok_iff {α : Type} {reading : Except Json.Fault α} {found : α} :
    lexical reading = .ok found ↔ reading = .ok found := by
  cases reading <;> simp [lexical, Except.mapError]

theorem reads_text : Reads text Quoted where
  sound := by
    intro written value rest found
    rw [text.eq_def] at found
    split at found
    next written =>
      obtain ⟨body, spells, rfl⟩ := string_eq_ok_iff.mp (lexical_eq_ok_iff.mp found)
      exact ⟨_, ⟨body, spells, rfl⟩, by simp⟩
    · cases found
  complete := by
    rintro value _ rest ⟨body, spells, rfl⟩ -
    rw [List.cons_append, List.append_assoc]
    exact lexical_eq_ok_iff.mpr (string_eq_ok_iff.mpr ⟨body, spells, rfl⟩)
  opens := by
    rintro value _ ⟨body, spells, rfl⟩
    exact ⟨_, _, rfl, by decide, by decide, by decide⟩

theorem reads_bounded (expected : Expectation) {limit : Nat} (fits : limit ≤ significandLimit) :
    Reads (bounded expected limit) (Numeral limit) where
  sound := by
    intro written value rest found
    rw [bounded] at found
    split at found
    · cases found
    · split at found
      · cases found
      · cases found
      next number rest' read =>
        split at found
        next within =>
          cases found
          obtain ⟨magnitude, rfl⟩ := Int.eq_ofNat_of_zero_le within.1
          obtain ⟨-, -, rfl⟩ := number_eq_whole_iff.mp read
          exact ⟨_, ⟨Int.ofNat_lt.mp within.2, rfl⟩, rfl⟩
        · cases found
  complete := by
    rintro value _ rest ⟨below, rfl⟩ ends
    have read := number_eq_whole_iff.mpr ⟨Nat.lt_of_lt_of_le below fits, ends, rfl⟩
    obtain ⟨digit, more, shape, isDigit⟩ := Number.isDigit_head_numeral value rest
    have starts : Json.Lexer.isDigit digit = true := isDigit
    rw [bounded, read]
    simp only [shape]
    simp [starts, below]
  opens := by
    rintro value _ ⟨below, rfl⟩
    obtain ⟨digit, more, shape, isDigit⟩ := Number.isDigit_head_numeral value []
    rw [List.append_nil] at shape
    refine ⟨digit, more, shape, isBlank_of_isDigit isDigit, ?_, ?_⟩ <;>
      (rintro rfl
       cases isDigit)

theorem fits32 : 0x100000000 ≤ significandLimit := by decide

theorem fits64 : 0x10000000000000000 ≤ significandLimit := by decide

section

variable {α : Type} {reader : List Char → Except Fault (α × List Char)}
  {writes : α → List Char → Prop}

theorem Reads.of_optional (reads : Reads reader writes) {text rest : List Char}
    {value : Option α} (found : optional reader text = .ok (value, rest)) :
    ∃ before inner, Blank before ∧ OrNull writes value inner ∧ text = before ++ inner ++ rest := by
  obtain ⟨before, blank, parts⟩ := exists_blank text
  rw [optional] at found
  split at found
  · cases found
  next after start =>
    cases read : lexical (word "ull".toList after) with
    | error fault =>
        rw [read] at found
        cases found
    | ok left =>
        rw [read] at found
        cases found
        refine ⟨before, "null".toList, blank, rfl, ?_⟩
        rw [parts, start, word_eq_ok_iff.mp (lexical_eq_ok_iff.mp read)]
        simp
  next =>
    cases read : reader (skipBlanks text) with
    | error fault =>
        rw [read] at found
        cases found
    | ok pair =>
        rw [read] at found
        cases found
        obtain ⟨inner, written, shape⟩ := reads.sound _ _ _ read
        exact ⟨before, inner, blank, written, by rw [List.append_assoc, ← shape, ← parts]⟩

theorem Reads.optional_append (reads : Reads reader writes) {before inner rest : List Char}
    {value : Option α} (blank : Blank before) (written : OrNull writes value inner)
    (ends : EndsNumber rest) : optional reader (before ++ inner ++ rest) = .ok (value, rest) := by
  rw [optional, List.append_assoc, skipBlanks_append blank]
  cases value with
  | none =>
      obtain rfl : inner = "null".toList := written
      have word : word "ull".toList ("ull".toList ++ rest) = .ok rest := word_eq_ok_iff.mpr rfl
      have start : skipBlanks ("null".toList ++ rest) = 'n' :: ("ull".toList ++ rest) :=
        skipBlanks_cons (by decide) _
      rw [start]
      simp only [word]
      rfl
  | some value =>
      obtain ⟨character, more, rfl, solid, noNull, -⟩ := reads.opens value inner written
      have start : skipBlanks (character :: more ++ rest) = character :: more ++ rest :=
        skipBlanks_cons solid _
      rw [start]
      split
      case h_1 same => cases same
      case h_2 same =>
        rw [List.cons_append, List.cons.injEq] at same
        exact (noNull same.1).elim
      case h_3 =>
        rw [reads.complete value _ rest written ends]
        rfl

theorem Reads.opens_orNull (reads : Reads reader writes) {value : Option α} {inner : List Char}
    (written : OrNull writes value inner) :
    ∃ character more, inner = character :: more ∧ isBlank character = false ∧
      character ≠ ']' := by
  cases value with
  | none => exact ⟨'n', "ull".toList, written, by decide, by decide⟩
  | some value =>
      obtain ⟨character, more, shape, solid, -, noEnd⟩ := reads.opens value inner written
      exact ⟨character, more, shape, solid, noEnd⟩

end

theorem of_map_eq_ok {α β : Type} {found : Except Fault α} {store : α → β} {stored : β}
    (mapped : found.map store = .ok stored) :
    ∃ value, found = .ok value ∧ store value = stored := by
  cases found with
  | error fault => cases mapped
  | ok value =>
      cases mapped
      exact ⟨value, rfl, rfl⟩

theorem sameAt_of_value {field : Field} {overrides after : Overrides} {text rest : List Char}
    (found : value field overrides text = .ok (after, rest)) :
    ∀ other ≠ field, SameAt after overrides other := by
  intro other different
  cases field <;>
    (obtain ⟨_, _, stored⟩ := of_map_eq_ok found
     cases stored
     cases other <;> first | rfl | exact (different rfl).elim)

theorem of_value {field : Field} {overrides after : Overrides} {text rest : List Char}
    (found : value field overrides text = .ok (after, rest)) :
    ∃ before inner, Blank before ∧ after.ValueText field inner ∧
      text = before ++ inner ++ rest := by
  cases field
  case compressionLevel | formatVersion =>
    obtain ⟨_, read, stored⟩ := of_map_eq_ok found
    cases stored
    exact (reads_bounded .word32 fits32).of_optional read
  case readBlockSize =>
    obtain ⟨_, read, stored⟩ := of_map_eq_ok found
    cases stored
    exact (reads_bounded .word64 fits64).of_optional read
  case ownerName =>
    obtain ⟨_, read, stored⟩ := of_map_eq_ok found
    cases stored
    exact reads_text.of_optional read

theorem value_append {field : Field} {target : Overrides} {before inner rest : List Char}
    (blank : Blank before) (written : target.ValueText field inner) (ends : EndsNumber rest)
    (overrides : Overrides) :
    ∃ after, value field overrides (before ++ inner ++ rest) = .ok (after, rest) ∧
      SameAt after target field := by
  cases field
  case compressionLevel | formatVersion =>
    have read := (reads_bounded .word32 fits32).optional_append blank written ends
    rw [value, read]
    exact ⟨_, rfl, rfl⟩
  case readBlockSize =>
    have read := (reads_bounded .word64 fits64).optional_append blank written ends
    rw [value, read]
    exact ⟨_, rfl, rfl⟩
  case ownerName =>
    have read := reads_text.optional_append blank written ends
    rw [value, read]
    exact ⟨_, rfl, rfl⟩

theorem opens_valueText {overrides : Overrides} {field : Field} {inner : List Char}
    (written : overrides.ValueText field inner) :
    ∃ character more, inner = character :: more ∧ isBlank character = false ∧
      character ≠ ']' := by
  cases field with
  | compressionLevel => exact (reads_bounded .word32 fits32).opens_orNull written
  | readBlockSize => exact (reads_bounded .word64 fits64).opens_orNull written
  | ownerName => exact reads_text.opens_orNull written
  | formatVersion => exact (reads_bounded .word32 fits32).opens_orNull written

end Reader

end Overrides

end UpdateArtifact
