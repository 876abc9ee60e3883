import UpdateArtifact.Json.Lexer
import UpdateArtifact.Json.Printer

/-!
# Texts of JSON values

No two values without doubles have the same text.  A text can be told from what follows
it, unless that goes on with digits, and so values stay apart inside arrays and objects.
-/

namespace UpdateArtifact

namespace Json

/-- What cannot be taken for more of a number. -/
def Ends (text : List Char) : Prop :=
  ∀ character ∈ text.head?, character.isDigit = false

theorem ends_cons {character : Char} (noDigit : character.isDigit = false)
    (text : List Char) : Ends (character :: text) := by
  intro head same
  cases same
  exact noDigit

namespace Lexer

theorem fourDigits?_digits {code : Nat} (small : code < 256) :
    fourDigits? '0' '0' (Hex.digit (code / 16)) (Hex.digit (code % 16)) = some code := by
  have zero : Hex.digitValue? '0' = some 0 := rfl
  rw [fourDigits?, zero, Hex.digitValue?_digit (by omega), Hex.digitValue?_digit (by omega)]
  simp only [Option.bind_eq_bind, Option.bind_some, Option.pure_def, Option.some.injEq]
  omega

theorem stringBody_escape (character : Char) (text : List Char) :
    stringBody (escape character ++ text) = prepend character (stringBody text) := by
  by_cases short : character ∈ ['"', '\\', '\x08', '\x0c', '\n', '\r', '\t']
  · simp only [List.mem_cons, List.not_mem_nil, or_false] at short
    rcases short with rfl | rfl | rfl | rfl | rfl | rfl | rfl <;> rfl
  · simp only [List.mem_cons, List.not_mem_nil, or_false, not_or] at short
    by_cases control : character.toNat < 32
    · have written : escape character =
          ['\\', 'u', '0', '0', Hex.digit (character.toNat / 16),
            Hex.digit (character.toNat % 16)] := by
        simp only [escape, short, control, if_true, if_false]
      have value := fourDigits?_digits (show character.toNat < 256 by omega)
      -- A control character is no half of a surrogate pair.
      have noLow : ¬ (0xDC00 ≤ character.toNat ∧ character.toNat ≤ 0xDFFF) := by omega
      have noHigh : ¬ (0xD800 ≤ character.toNat ∧ character.toNat ≤ 0xDBFF) := by omega
      rw [written]
      simp only [List.cons_append, List.nil_append, stringBody, value, noLow, noHigh, if_false,
        Char.ofNat_toNat]
    · have written : escape character = [character] := by
        simp only [escape, short, control, if_false]
      rw [written, List.singleton_append, stringBody]
      · rw [if_neg control]
      -- What is left are the patterns of the reader that start otherwise.
      all_goals simp [short]

/-- A reader of strings finds the text that was quoted, and what follows it. -/
theorem string_quote (value : String) (rest : List Char) :
    string (value.toList.flatMap escape ++ '"' :: rest) = .ok (value, rest) := by
  have body : ∀ characters : List Char,
      stringBody (characters.flatMap escape ++ '"' :: rest) = .ok (characters, rest) := by
    intro characters
    induction characters with
    | nil => rfl
    | cons character more ih =>
        rw [List.flatMap_cons, List.append_assoc, stringBody_escape, ih]
        rfl
  rw [string, body]
  simp [Except.map]

end Lexer

theorem quote_append (value : String) (rest : List Char) :
    quote value ++ rest = '"' :: (value.toList.flatMap escape ++ '"' :: rest) := by
  simp [quote]

theorem quote_append_inj {left right : String} {before after : List Char}
    (same : quote left ++ before = quote right ++ after) : left = right ∧ before = after := by
  rw [quote_append, quote_append, List.cons.injEq] at same
  have found := congrArg Lexer.string same.2
  rw [Lexer.string_quote, Lexer.string_quote] at found
  cases found
  exact ⟨rfl, rfl⟩

namespace Number

theorem takeWhile_numeral (value : Nat) {rest : List Char} (ends : Ends rest) :
    (Decimal.numeral value ++ rest).takeWhile Char.isDigit = Decimal.numeral value := by
  have none : rest.takeWhile Char.isDigit = [] := by
    cases rest with
    | nil => rfl
    | cons character more => rw [List.takeWhile_cons, ends character rfl]; rfl
  rw [List.takeWhile_append_of_pos, none, List.append_nil]
  intro character member
  exact Nat.isDigit_of_mem_toDigits (by decide) (by decide) member

theorem numeral_append_inj {left right : Nat} {before after : List Char} (ends : Ends before)
    (alsoEnds : Ends after)
    (same : Decimal.numeral left ++ before = Decimal.numeral right ++ after) :
    left = right ∧ before = after := by
  have digits := congrArg (List.takeWhile Char.isDigit) same
  rw [takeWhile_numeral left ends, takeWhile_numeral right alsoEnds] at digits
  have value (number : Nat) : Nat.ofDigitChars 10 (Decimal.numeral number) 0 = number :=
    Nat.ofDigitChars_toDigits (by decide) (by decide)
  rw [digits, List.append_cancel_left_eq] at same
  exact ⟨by rw [← value left, digits, value], same⟩

theorem text_whole (value : Int) :
    (value < 0 ∧ text (.whole value) = '-' :: Decimal.numeral value.natAbs) ∨
      (0 ≤ value ∧ text (.whole value) = Decimal.numeral value.natAbs) := by
  by_cases negative : value < 0
  · left
    exact ⟨negative, by simp [text, signText, negative]⟩
  · right
    exact ⟨by omega, by simp [text, signText, negative]⟩

theorem isDigit_head_numeral (value : Nat) (rest : List Char) :
    ∃ digit more, Decimal.numeral value ++ rest = digit :: more ∧ digit.isDigit = true := by
  cases digits : Decimal.numeral value with
  | nil => exact (Nat.toDigits_ne_nil digits).elim
  | cons digit more =>
      have member : digit ∈ Decimal.numeral value := by
        rw [digits]
        exact List.mem_cons_self
      exact ⟨digit, more ++ rest, rfl, Nat.isDigit_of_mem_toDigits (by decide) (by decide) member⟩

private theorem minus_ne (value : Nat) (before after : List Char) :
    '-' :: before ≠ Decimal.numeral value ++ after := by
  obtain ⟨digit, more, written, isDigit⟩ := isDigit_head_numeral value after
  rw [written]
  rintro ⟨⟩
  exact absurd isDigit (by decide)

theorem text_append_inj {left right : Int} {before after : List Char} (ends : Ends before)
    (alsoEnds : Ends after)
    (same : text (.whole left) ++ before = text (.whole right) ++ after) :
    left = right ∧ before = after := by
  rcases text_whole left with ⟨leftSign, leftText⟩ | ⟨leftSign, leftText⟩ <;>
    rcases text_whole right with ⟨rightSign, rightText⟩ | ⟨rightSign, rightText⟩ <;>
      rw [leftText, rightText] at same
  · rw [List.cons_append, List.cons_append, List.cons.injEq] at same
    obtain ⟨magnitudes, rests⟩ := numeral_append_inj ends alsoEnds same.2
    exact ⟨by omega, rests⟩
  · exact (minus_ne _ _ _ same).elim
  · exact (minus_ne _ _ _ same.symm).elim
  · obtain ⟨magnitudes, rests⟩ := numeral_append_inj ends alsoEnds same
    exact ⟨by omega, rests⟩

end Number

/-- Values all of whose numbers are whole. -/
inductive Integral : Json → Prop where
  | null : Integral .null
  | bool (value : Bool) : Integral (.bool value)
  | whole (value : Int) : Integral (.number (.whole value))
  | string (value : String) : Integral (.string value)
  | array {items : List Json} (each : ∀ item ∈ items, Integral item) : Integral (.array items)
  | object {members : List (String × Json)} (each : ∀ member ∈ members, Integral member.2) :
      Integral (.object members)

/-- The first character of a kind of values, with one for all that can be there. -/
def sign : Json → Char
  | .null => 'n'
  | .bool _ => 't'
  | .number _ => '0'
  | .string _ => '"'
  | .array _ => '['
  | .object _ => '\x7b'

/-- What a first character says of the kind. -/
def signOf (character : Char) : Char :=
  if character = '-' ∨ character.isDigit then '0'
  else if character = 'f' then 't'
  else character

/-- The first character of a text tells the kind of the value. -/
theorem sign_of_head {value : Json} (integral : value.Integral) (rest : List Char) :
    (value.render ++ rest).head?.map signOf = some value.sign := by
  cases integral with
  | null => rfl
  | bool value => cases value <;> rfl
  | whole value =>
      rw [render]
      rcases Number.text_whole value with ⟨_, written⟩ | ⟨_, written⟩
      · rw [written]
        rfl
      · obtain ⟨digit, more, shape, isDigit⟩ :=
          Number.isDigit_head_numeral value.natAbs rest
        rw [written, shape]
        simp [signOf, isDigit, sign]
  | string value => rfl
  | array each => rfl
  | object each => rfl

theorem head_render_ne {value : Json} (integral : value.Integral) (rest : List Char) :
    (value.render ++ rest).head? ≠ some ']' := by
  intro closes
  have sign := sign_of_head integral rest
  rw [closes] at sign
  cases value <;> cases sign

theorem sign_eq {left right : Json} (integral : left.Integral) (alsoIntegral : right.Integral)
    {before after : List Char} (same : left.render ++ before = right.render ++ after) :
    left.sign = right.sign := by
  have signs := sign_of_head integral before
  rw [same, sign_of_head alsoIntegral] at signs
  exact (Option.some.inj signs).symm

def separated {α : Type} (write : α → List Char) : List α → List Char
  | [] => []
  | item :: rest => write item ++ rest.flatMap (',' :: write ·)

theorem renderItems_eq (items : List Json) : renderItems items = separated render items := by
  induction items with
  | nil => rfl
  | cons item rest ih =>
      cases rest with
      | nil => simp [renderItems, separated]
      | cons next more => rw [renderItems, ih]; simp [separated]

def renderMember (member : String × Json) : List Char :=
  quote member.1 ++ ':' :: member.2.render

theorem renderMembers_eq (members : List (String × Json)) :
    renderMembers members = separated renderMember members := by
  induction members with
  | nil => rfl
  | cons member rest ih =>
      cases rest with
      | nil => simp [renderMembers, separated, renderMember]
      | cons next more => rw [renderMembers, ih]; simp [separated, renderMember]

section

variable {α : Type} {write : α → List Char} {close : Char}

/-- A text that can be told from the others, and from what follows it. -/
def Apart (write : α → List Char) (item : α) (others : List α) : Prop :=
  ∀ other ∈ others, ∀ before after, Ends before → Ends after →
    write item ++ before = write other ++ after → item = other ∧ before = after

theorem flatMap_append_inj (noComma : close ≠ ',') (noDigit : close.isDigit = false)
    {left right : List α} (apart : ∀ item ∈ left, Apart write item right)
    {before after : List Char}
    (same : left.flatMap (',' :: write ·) ++ close :: before =
      right.flatMap (',' :: write ·) ++ close :: after) : left = right ∧ before = after := by
  -- After an item comes a comma or the closing bracket, so the item can be told.
  have goesOn (items : List α) (rest : List Char) :
      Ends (items.flatMap (',' :: write ·) ++ close :: rest) := by
    cases items with
    | nil => exact ends_cons noDigit rest
    | cons item more => exact ends_cons (by decide) _
  induction left generalizing right with
  | nil =>
      cases right with
      | nil => simpa using same
      | cons other others => simp [noComma] at same
  | cons item rest ih =>
      cases right with
      | nil => simp [Ne.symm noComma] at same
      | cons other others =>
          simp only [List.flatMap_cons, List.cons_append, List.append_assoc, List.cons.injEq,
            true_and] at same
          obtain ⟨rfl, later⟩ := apart item List.mem_cons_self other List.mem_cons_self _ _
            (goesOn rest before) (goesOn others after) same
          obtain ⟨rfl, ends⟩ := ih (fun next member found inOthers =>
            apart next (List.mem_cons_of_mem _ member) found (List.mem_cons_of_mem _ inOthers))
            later
          exact ⟨rfl, ends⟩

/-- Lists of texts that are apart are told from each other, and from what follows. -/
theorem separated_append_inj (noComma : close ≠ ',') (noDigit : close.isDigit = false)
    {left right : List α} (apart : ∀ item ∈ left, Apart write item right)
    (opens : ∀ item ∈ left ++ right, ∀ rest, (write item ++ rest).head? ≠ some close)
    {before after : List Char}
    (same : separated write left ++ close :: before =
      separated write right ++ close :: after) : left = right ∧ before = after := by
  cases left with
  | nil =>
      cases right with
      | nil => simpa [separated] using same
      | cons other others =>
          simp only [separated, List.nil_append, List.append_assoc] at same
          exact (opens other (by simp) _ (congrArg List.head? same).symm).elim
  | cons item rest =>
      cases right with
      | nil =>
          simp only [separated, List.nil_append, List.append_assoc] at same
          exact (opens item (by simp) _ (congrArg List.head? same)).elim
      | cons other others =>
          apply flatMap_append_inj noComma noDigit apart
          simpa [separated] using congrArg (',' :: ·) same

end

theorem apart_member {member : String × Json} {others : List (String × Json)}
    (values : Apart render member.2 (others.map Prod.snd)) :
    Apart renderMember member others := by
  intro other found before after ends alsoEnds same
  simp only [renderMember, List.append_assoc] at same
  obtain ⟨names, rest⟩ := quote_append_inj same
  rw [List.cons_append, List.cons_append, List.cons.injEq] at rest
  obtain ⟨value, rests⟩ :=
    values other.2 (List.mem_map_of_mem found) before after ends alsoEnds rest.2
  exact ⟨Prod.ext names value, rests⟩

/-- A value can be told from others by its text, and from what follows it. -/
theorem apart_of_integral {value : Json} (integral : value.Integral) {others : List Json}
    (alsoIntegral : ∀ other ∈ others, other.Integral) : Apart render value others := by
  -- Values of different kinds differ in their first characters; of one kind, in a part.
  induction integral generalizing others with
  | null =>
      intro other member before after ends alsoEnds same
      have signs := sign_eq .null (alsoIntegral other member) same
      cases alsoIntegral other member with
      | null => exact ⟨rfl, List.append_cancel_left same⟩
      | _ => cases signs
  | bool value =>
      intro other member before after ends alsoEnds same
      have signs := sign_eq (.bool value) (alsoIntegral other member) same
      cases alsoIntegral other member with
      | bool found =>
          cases value <;> cases found
          · exact ⟨rfl, List.append_cancel_left same⟩
          · simp [render] at same
          · simp [render] at same
          · exact ⟨rfl, List.append_cancel_left same⟩
      | _ => cases signs
  | whole value =>
      intro other member before after ends alsoEnds same
      have signs := sign_eq (.whole value) (alsoIntegral other member) same
      cases alsoIntegral other member with
      | whole found =>
          obtain ⟨rfl, rests⟩ := Number.text_append_inj ends alsoEnds same
          exact ⟨rfl, rests⟩
      | _ => cases signs
  | string value =>
      intro other member before after ends alsoEnds same
      have signs := sign_eq (.string value) (alsoIntegral other member) same
      cases alsoIntegral other member with
      | string found =>
          obtain ⟨rfl, rests⟩ := quote_append_inj same
          exact ⟨rfl, rests⟩
      | _ => cases signs
  | @array items each ih =>
      intro other member before after ends alsoEnds same
      have signs := sign_eq (.array each) (alsoIntegral other member) same
      cases alsoIntegral other member with
      | @array found all =>
          simp only [render, renderItems_eq, List.cons_append, List.append_assoc,
            List.nil_append, List.cons.injEq, true_and] at same
          have opens : ∀ item ∈ items ++ found, ∀ rest, (render item ++ rest).head? ≠ some ']' :=
            fun item listed =>
              head_render_ne ((List.mem_append.mp listed).elim (each item) (all item))
          obtain ⟨rfl, rests⟩ := separated_append_inj (by decide) (by decide)
            (fun item inItems => ih item inItems all) opens same
          exact ⟨rfl, rests⟩
      | _ => cases signs
  | @object members each ih =>
      intro other member before after ends alsoEnds same
      have signs := sign_eq (.object each) (alsoIntegral other member) same
      cases alsoIntegral other member with
      | @object found all =>
          simp only [render, renderMembers_eq, List.cons_append, List.append_assoc,
            List.nil_append, List.cons.injEq, true_and] at same
          have opens : ∀ item ∈ members ++ found, ∀ rest,
              (renderMember item ++ rest).head? ≠ some '\x7d' := by
            intro item _ rest closes
            cases closes
          have apart : ∀ item ∈ members, Apart renderMember item found :=
            fun item inMembers =>
              apart_member (ih item inMembers (List.forall_mem_map.mpr all))
          obtain ⟨rfl, rests⟩ := separated_append_inj (by decide) (by decide) apart opens same
          exact ⟨rfl, rests⟩
      | _ => cases signs

theorem compact_injective {left right : Json} (integral : left.Integral)
    (alsoIntegral : right.Integral) (same : left.compact = right.compact) : left = right := by
  have texts : left.render = right.render := String.ofList_injective same
  have all : ∀ other ∈ [right], other.Integral := by
    intro other member
    rw [List.mem_singleton.mp member]
    exact alsoIntegral
  exact (apart_of_integral integral all right List.mem_cons_self [] [] (by nofun) (by nofun)
    (congrArg (· ++ []) texts)).1

end Json

end UpdateArtifact
