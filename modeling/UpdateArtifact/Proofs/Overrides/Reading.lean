import UpdateArtifact.Proofs.Overrides.Texts

/-!
# Reading overrides from their texts

Overrides are read from exactly the texts that say them.  A round of the reader takes one
member or element with the blanks around it and sets one field, and no later round sets it
again, so the rounds add up to the whole text in any order of the fields.  What is printed
of overrides is such a text.
-/

namespace UpdateArtifact

namespace Overrides

open Json Json.Lexer

namespace Reader

/-- What stands before a member or an element. -/
def separator (first : Bool) : List Char :=
  if first then [] else [',']

/-- What is still to be read of texts with commas between them. -/
def remaining (first : Bool) (texts : List (List Char)) : List Char :=
  if first then separated id texts else texts.flatMap (',' :: ·)

theorem remaining_nil (first : Bool) : remaining first [] = [] := by
  cases first <;> rfl

theorem remaining_cons (first : Bool) (text : List Char) (texts : List (List Char)) :
    remaining first (text :: texts) = separator first ++ text ++ remaining false texts := by
  cases first <;> simp [remaining, separator, separated]

theorem ofName?_eq_some_iff {text : String} {field : Field} :
    Field.ofName? text = some field ↔ field.name = text := by
  constructor
  · intro found
    simpa using List.find?_some found
  · rintro rfl
    cases field <;> rfl

section

variable {overrides next result target : Overrides} {field : Field} {fields : List Field}

theorem sameAt_cons (fresh : field ∉ fields) (set : SameAt next target field)
    (kept : ∀ other ∉ fields, SameAt result next other)
    (reached : ∀ other ∈ fields, SameAt result target other) :
    ∀ other ∈ field :: fields, SameAt result target other := by
  intro other member
  rcases List.mem_cons.mp member with rfl | later
  · exact (kept other fresh).trans set
  · exact reached other later

theorem sameAt_outside_cons {text left : List Char}
    (read : value field overrides text = .ok (next, left))
    (kept : ∀ other ∉ fields, SameAt result next other) :
    ∀ other ∉ field :: fields, SameAt result overrides other := by
  intro other absent
  rw [List.mem_cons, not_or] at absent
  exact (kept other absent.2).trans (sameAt_of_value read other absent.1)

end

theorem of_opening {first : Bool} {character : Char} {more tail : List Char} {fault : Fault}
    (opened : (if first then .ok (character :: more)
      else if character ≠ ',' then .error fault
      else .ok (skipBlanks more) : Except Fault (List Char)) = .ok tail) :
    ∃ lead, Blank lead ∧ character :: more = separator first ++ lead ++ tail := by
  cases first with
  | true =>
      cases opened
      exact ⟨[], by simp [Blank], rfl⟩
  | false =>
      obtain ⟨lead, blank, shape⟩ := exists_blank more
      by_cases comma : character = ','
      · simp only [comma, ne_eq, not_true_eq_false, if_false, Bool.false_eq_true,
          Except.ok.injEq] at opened
        rw [opened] at shape
        exact ⟨lead, blank, by rw [comma, shape]; rfl⟩
      · simp [comma] at opened

/-- A round either closes the object or reads one member. -/
theorem of_members {overrides result : Overrides} {unset : List Field} {first : Bool}
    {text rest : List Char}
    (found : members overrides unset first text = .ok (result, rest)) :
    (∃ blanks, Blank blanks ∧ text = blanks ++ '\x7d' :: rest ∧ result = overrides) ∨
      ∃ blanks field key after next left, Blank blanks ∧ field ∈ unset ∧
        Padded (Quoted field.name) key ∧
        text = blanks ++ separator first ++ key ++ ':' :: after ∧
        value field overrides after = .ok (next, left) ∧
        members next (unset.erase field) false left = .ok (result, rest) := by
  obtain ⟨blanks, blank, parts⟩ := exists_blank text
  rw [members] at found
  split at found
  · cases found
  next start =>
    cases found
    left
    exact ⟨blanks, blank, by rw [parts, start], rfl⟩
  next character more _ start =>
    right
    simp only at found
    split at found
    · cases found
    · cases found
    next written opened =>
      obtain ⟨lead, leads, shape⟩ := of_opening opened
      split at found
      · cases found
      next name tail spelled =>
      obtain ⟨body, spells, rfl⟩ := string_eq_ok_iff.mp spelled
      split at found
      · cases found
      next field named =>
      obtain rfl := ofName?_eq_some_iff.mp named
      split at found
      next isUnset =>
        obtain ⟨gap, gapBlank, gapShape⟩ := exists_blank tail
        split at found
        · cases found
        next after colon =>
          split at found
          · cases found
          next next left read =>
            refine ⟨blanks, field, _, after, next, left, blank, isUnset,
              ⟨lead, _, gap, leads, ⟨body, spells, rfl⟩, gapBlank, rfl⟩, ?_, read, found⟩
            rw [parts, start, shape, gapShape, colon]
            simp
        · cases found
      · cases found
    · cases found

theorem members_close {blanks : List Char} (blank : Blank blanks) (overrides : Overrides)
    (unset : List Field) (first : Bool) (rest : List Char) :
    members overrides unset first (blanks ++ '\x7d' :: rest) = .ok (overrides, rest) := by
  have start : skipBlanks (blanks ++ '\x7d' :: rest) = '\x7d' :: rest := by
    rw [skipBlanks_append blank, skipBlanks_cons (by decide)]
  rw [members, start]
  rfl

theorem members_member {overrides next : Overrides} {unset : List Field} {field : Field}
    {blanks key after left : List Char} (blank : Blank blanks) (isUnset : field ∈ unset)
    (named : Padded (Quoted field.name) key)
    (read : value field overrides after = .ok (next, left)) (first : Bool) :
    members overrides unset first (blanks ++ separator first ++ key ++ ':' :: after) =
      members next (unset.erase field) false left := by
  obtain ⟨lead, _, gap, leads, ⟨body, spells, rfl⟩, gapBlank, rfl⟩ := named
  obtain ⟨tail, isTail⟩ : ∃ tail, tail = body ++ '"' :: (gap ++ ':' :: after) := ⟨_, rfl⟩
  have shape : lead ++ '"' :: (body ++ ['"']) ++ gap ++ ':' :: after = lead ++ '"' :: tail := by
    simp [isTail]
  have named : Json.Lexer.string tail = .ok (field.name, gap ++ ':' :: after) :=
    string_eq_ok_iff.mpr ⟨body, spells, isTail⟩
  have known : Field.ofName? field.name = some field := ofName?_eq_some_iff.mpr rfl
  have colon : skipBlanks (gap ++ ':' :: after) = ':' :: after := by
    rw [skipBlanks_append gapBlank, skipBlanks_cons (by decide)]
  have quote : skipBlanks (lead ++ '"' :: tail) = '"' :: tail := by
    rw [skipBlanks_append leads, skipBlanks_cons (by decide)]
  rw [List.append_assoc (blanks ++ separator first), shape]
  cases first with
  | true =>
      have start : skipBlanks (blanks ++ separator true ++ (lead ++ '"' :: tail)) =
          '"' :: tail := by
        simpa [separator, skipBlanks_append blank] using quote
      rw [members, start]
      simp [named, known, isUnset, colon, read]
  | false =>
      have start : skipBlanks (blanks ++ separator false ++ (lead ++ '"' :: tail)) =
          ',' :: (lead ++ '"' :: tail) := by
        simpa [separator, skipBlanks_append blank] using
          skipBlanks_cons (by decide) (lead ++ '"' :: tail)
      rw [members, start]
      simp [quote, named, known, isUnset, colon, read]

/-- After a value come blanks and a comma or a bracket. -/
theorem endsNumber_remaining {blanks : List Char} (blank : Blank blanks)
    (texts : List (List Char)) {closing : Char} (closes : closing = '\x7d' ∨ closing = ']')
    (rest : List Char) : EndsNumber (blanks ++ remaining false texts ++ closing :: rest) := by
  cases blanks with
  | cons character more => exact endsNumber_of_blank (blank character List.mem_cons_self) _
  | nil =>
      cases texts with
      | cons text more => exact endsNumber_cons (by decide) _
      | nil => rcases closes with rfl | rfl <;> exact endsNumber_cons (by decide) _

theorem members_sound {overrides result : Overrides} {unset : List Field} {first : Bool}
    {text rest : List Char} (distinct : unset.Nodup)
    (found : members overrides unset first text = .ok (result, rest)) :
    ∃ fields texts blanks, fields.Nodup ∧ fields ⊆ unset ∧
      (∀ field ∉ fields, SameAt result overrides field) ∧
      List.Forall₂ result.MemberText fields texts ∧ Blank blanks ∧
      text = blanks ++ remaining first texts ++ '\x7d' :: rest := by
  -- Each round uses up one of the fields that may still come.
  induction count : unset.length using Nat.strongRecOn generalizing overrides unset first text with
  | ind size ih =>
      rcases of_members found with ⟨blanks, blank, rfl, rfl⟩ |
        ⟨blanks, field, key, after, next, left, blank, member, named, rfl, read, later⟩
      · exact ⟨[], [], blanks, List.nodup_nil, List.nil_subset _, fun field _ => .refl _ field,
          .nil, blank, by rw [remaining_nil, List.append_nil]⟩
      · obtain ⟨before, inner, padding, written, rfl⟩ := of_value read
        have fewer : (unset.erase field).length < size := by
          have positive := List.length_pos_of_mem member
          rw [List.length_erase_of_mem member]
          omega
        obtain ⟨fields, texts, gap, nodup, within, same, each, gapBlank, rfl⟩ :=
          ih _ fewer (distinct.erase field) later rfl
        have fresh : field ∉ fields := fun again => distinct.not_mem_erase (within again)
        rw [← (same field fresh).valueText] at written
        refine ⟨field :: fields, (key ++ ':' :: (before ++ inner ++ gap)) :: texts, blanks,
          List.nodup_cons.mpr ⟨fresh, nodup⟩, ?_, ?_, ?_, blank, ?_⟩
        · exact List.cons_subset.mpr ⟨member, List.Subset.trans within List.erase_subset⟩
        · exact sameAt_outside_cons read same
        · exact .cons ⟨key, _, named, ⟨before, inner, gap, padding, written, gapBlank, rfl⟩, rfl⟩
            each
        · simp [remaining_cons]

theorem members_complete {target : Overrides} {fields unset : List Field}
    {texts : List (List Char)} {blanks : List Char}
    (each : List.Forall₂ target.MemberText fields texts) (distinct : fields.Nodup)
    (within : fields ⊆ unset) (blank : Blank blanks) (overrides : Overrides) (first : Bool)
    (rest : List Char) :
    ∃ result, members overrides unset first (blanks ++ remaining first texts ++ '\x7d' :: rest) =
        .ok (result, rest) ∧
      (∀ field ∈ fields, SameAt result target field) ∧
      ∀ field ∉ fields, SameAt result overrides field := by
  induction each generalizing overrides unset blanks first with
  | nil =>
      rw [remaining_nil, List.append_nil, members_close blank]
      exact ⟨overrides, rfl, by simp, fun field _ => .refl _ field⟩
  | @cons field text fields texts written _ ih =>
      obtain ⟨key, _, named, ⟨before, inner, gap, padding, value, gapBlank, rfl⟩, rfl⟩ := written
      obtain ⟨fresh, nodup⟩ := List.nodup_cons.mp distinct
      obtain ⟨member, later⟩ := List.cons_subset.mp within
      obtain ⟨next, read, atField⟩ := value_append padding value
        (endsNumber_remaining gapBlank texts (.inl rfl) rest) overrides
      have remain : fields ⊆ unset.erase field := fun other found =>
        (List.mem_erase_of_ne (ne_of_mem_of_not_mem found fresh)).mpr (later found)
      -- The blanks behind the value are those that the next round skips.
      obtain ⟨result, run, reached, others⟩ := ih nodup remain gapBlank next false
      refine ⟨result, ?_, sameAt_cons fresh atField others reached,
        sameAt_outside_cons read others⟩
      rw [← run, ← members_member blank member named read first]
      simp [remaining_cons]

theorem of_elements {count : Nat} {overrides result : Overrides} {field : Field}
    {fields : List Field} {text rest : List Char}
    (found : elements count overrides (field :: fields) text = .ok (result, rest)) :
    ∃ blanks lead after next left, Blank blanks ∧ Blank lead ∧
      text = blanks ++ separator (count == 0) ++ lead ++ after ∧
      value field overrides after = .ok (next, left) ∧
      elements (count + 1) next fields left = .ok (result, rest) := by
  obtain ⟨blanks, blank, parts⟩ := exists_blank text
  rw [elements] at found
  split at found
  · cases found
  · cases found
  next character more _ start =>
    simp only at found
    split at found
    · cases found
    next after opened =>
      have opening : ∃ lead, Blank lead ∧
          character :: more = separator (count == 0) ++ lead ++ after := by
        by_cases first : count = 0
        · rw [if_pos first] at opened
          cases opened
          exact ⟨[], by simp [Blank], by simp [first, separator]⟩
        · rw [if_neg first] at opened
          by_cases comma : character = ','
          · rw [if_neg (not_not.mpr comma)] at opened
            obtain ⟨lead, blank, shape⟩ := exists_blank more
            split at opened
            · cases opened
            · cases opened
            · cases opened
              exact ⟨lead, blank, by simp [first, separator, comma, ← shape]⟩
          · rw [if_pos comma] at opened
            cases opened
      obtain ⟨lead, leads, shape⟩ := opening
      split at found
      · cases found
      next next left read =>
        refine ⟨blanks, lead, after, next, left, blank, leads, ?_, read, found⟩
        rw [parts, start, shape]
        simp

theorem elements_element {overrides next : Overrides} {field : Field} {character : Char}
    {blanks lead more left : List Char} (blank : Blank blanks) (leads : Blank lead)
    (solid : isBlank character = false) (noEnd : character ≠ ']')
    (read : value field overrides (character :: more) = .ok (next, left)) (count : Nat)
    (fields : List Field) :
    elements count overrides (field :: fields)
        (blanks ++ separator (count == 0) ++ lead ++ character :: more) =
      elements (count + 1) next fields left := by
  have start : skipBlanks (lead ++ character :: more) = character :: more := by
    rw [skipBlanks_append leads, skipBlanks_cons solid]
  cases count with
  | zero =>
      have shape : skipBlanks (blanks ++ separator (0 == 0) ++ lead ++ character :: more) =
          character :: more := by
        simpa [separator, skipBlanks_append blank] using start
      rw [elements, shape]
      simp [read]
  | succ count =>
      have shape : skipBlanks (blanks ++ separator (count + 1 == 0) ++ lead ++ character :: more) =
          ',' :: (lead ++ character :: more) := by
        simpa [separator, skipBlanks_append blank] using
          skipBlanks_cons (by decide) (lead ++ character :: more)
      rw [elements, shape]
      simp [start, read, noEnd]

theorem elements_sound {count : Nat} {overrides result : Overrides} {fields : List Field}
    {text rest : List Char} (distinct : fields.Nodup)
    (found : elements count overrides fields text = .ok (result, rest)) :
    ∃ texts blanks, (∀ field ∉ fields, SameAt result overrides field) ∧
      List.Forall₂ result.ElementText fields texts ∧ Blank blanks ∧
      text = blanks ++ remaining (count == 0) texts ++ ']' :: rest := by
  induction fields generalizing count overrides text with
  | nil =>
      obtain ⟨blanks, blank, parts⟩ := exists_blank text
      rw [elements] at found
      split at found
      · cases found
      next start =>
        cases found
        exact ⟨[], blanks, fun field _ => .refl _ field, .nil, blank, by
          rw [remaining_nil, List.append_nil, parts, start]⟩
      · cases found
  | cons field fields ih =>
      obtain ⟨fresh, nodup⟩ := List.nodup_cons.mp distinct
      obtain ⟨blanks, lead, after, next, left, blank, leads, rfl, read, later⟩ :=
        of_elements found
      obtain ⟨before, inner, padding, written, rfl⟩ := of_value read
      obtain ⟨texts, gap, same, each, gapBlank, rfl⟩ := ih nodup later
      rw [← (same field fresh).valueText] at written
      have leading : Blank (lead ++ before) := fun character member =>
        (List.mem_append.mp member).elim (leads character) (padding character)
      refine ⟨(lead ++ before ++ inner ++ gap) :: texts, blanks, ?_, ?_, blank, ?_⟩
      · exact sameAt_outside_cons read same
      · exact .cons ⟨lead ++ before, inner, gap, leading, written, gapBlank, rfl⟩ each
      · simp [remaining_cons]

theorem elements_complete {target : Overrides} {fields : List Field}
    {texts : List (List Char)} {blanks : List Char}
    (each : List.Forall₂ target.ElementText fields texts) (distinct : fields.Nodup)
    (blank : Blank blanks) (overrides : Overrides) (count : Nat) (rest : List Char) :
    ∃ result, elements count overrides fields
        (blanks ++ remaining (count == 0) texts ++ ']' :: rest) = .ok (result, rest) ∧
      (∀ field ∈ fields, SameAt result target field) ∧
      ∀ field ∉ fields, SameAt result overrides field := by
  induction each generalizing overrides blanks count with
  | nil =>
      have start : skipBlanks (blanks ++ ']' :: rest) = ']' :: rest := by
        rw [skipBlanks_append blank, skipBlanks_cons (by decide)]
      rw [remaining_nil, List.append_nil, elements, start]
      exact ⟨overrides, rfl, by simp, fun field _ => .refl _ field⟩
  | @cons field text fields texts written _ ih =>
      obtain ⟨before, inner, gap, padding, value, gapBlank, rfl⟩ := written
      obtain ⟨fresh, nodup⟩ := List.nodup_cons.mp distinct
      have none : Blank [] := by simp [Blank]
      obtain ⟨next, read, atField⟩ := value_append none value
        (endsNumber_remaining gapBlank texts (.inr rfl) rest) overrides
      obtain ⟨character, more, rfl, solid, noEnd⟩ := opens_valueText value
      obtain ⟨result, run, reached, others⟩ := ih nodup gapBlank next (count + 1)
      refine ⟨result, ?_, sameAt_cons fresh atField others reached,
        sameAt_outside_cons read others⟩
      have round := elements_element blank padding solid noEnd read count fields
      refine Eq.trans ?_ (round.trans run)
      simp [remaining_cons]

end Reader

theorem of_bind_eq_ok {α β : Type} {found : Except Fault α} {next : α → Except Fault β} {last : β}
    (bound : found >>= next = .ok last) : ∃ value, found = .ok value ∧ next value = .ok last := by
  cases found with
  | error fault => cases bound
  | ok value => exact ⟨value, rfl, bound⟩

theorem of_parse {text : String} {overrides : Overrides} (found : parse text = .ok overrides) :
    ∃ inner rest, Blank rest ∧
      ((skipBlanks text.toList = '\x7b' :: inner ∧
          Reader.members {} Field.all true inner = .ok (overrides, rest)) ∨
        (skipBlanks text.toList = '[' :: inner ∧
          Reader.elements 0 {} Field.all inner = .ok (overrides, rest))) := by
  simp only [parse] at found
  split at found
  case h_1 | h_4 => cases found
  case h_2 inner start | h_3 inner start =>
    obtain ⟨⟨result, rest⟩, read, ended⟩ := of_bind_eq_ok found
    simp only at ended
    split at ended
    next ends =>
      cases ended
      refine ⟨inner, rest, skipBlanks_eq_nil_iff.mp ends, ?_⟩
      first
        | exact .inl ⟨start, read⟩
        | exact .inr ⟨start, read⟩
    · cases ended

theorem parse_of_members {text : String} {overrides : Overrides} {inner rest : List Char}
    (start : skipBlanks text.toList = '\x7b' :: inner)
    (read : Reader.members {} Field.all true inner = .ok (overrides, rest))
    (blank : Blank rest) : parse text = .ok overrides := by
  simp only [parse, start, read, bind, Except.bind, skipBlanks_eq_nil_iff.mpr blank]
  rfl

theorem parse_of_elements {text : String} {overrides : Overrides} {inner rest : List Char}
    (start : skipBlanks text.toList = '[' :: inner)
    (read : Reader.elements 0 {} Field.all inner = .ok (overrides, rest))
    (blank : Blank rest) : parse text = .ok overrides := by
  simp only [parse, start, read, bind, Except.bind, skipBlanks_eq_nil_iff.mpr blank]
  rfl

theorem parse_of_describes {text : String} {overrides : Overrides}
    (described : overrides.Describes text.toList) : parse text = .ok overrides := by
  obtain ⟨before, _, after, blank, shape, afterBlank, parts⟩ := described
  rcases shape with ⟨fields, texts, distinct, absent, each, blanks, inside, rfl⟩ |
    ⟨texts, each, blanks, inside, rfl⟩
  · have within : fields ⊆ Field.all := fun field _ => by cases field <;> decide
    obtain ⟨result, read, named, others⟩ :=
      Reader.members_complete each distinct within inside {} true after
    obtain rfl : result = overrides := SameAt.ext fun field => by
      by_cases member : field ∈ fields
      · exact named field member
      · exact (others field member).trans (absent field member).symm
    refine parse_of_members ?_ read afterBlank
    rw [parts, List.append_assoc, skipBlanks_append blank]
    simpa [Reader.remaining] using skipBlanks_cons (by decide) _
  · obtain ⟨result, read, named, -⟩ :=
      Reader.elements_complete each (by decide) inside {} 0 after
    obtain rfl : result = overrides := SameAt.ext fun field =>
      named field (by cases field <;> decide)
    refine parse_of_elements ?_ read afterBlank
    rw [parts, List.append_assoc, skipBlanks_append blank]
    simpa [Reader.remaining] using skipBlanks_cons (by decide) _

theorem describes_of_parse {text : String} {overrides : Overrides}
    (found : parse text = .ok overrides) : overrides.Describes text.toList := by
  obtain ⟨before, blank, parts⟩ := exists_blank text.toList
  obtain ⟨inner, after, afterBlank, ⟨start, read⟩ | ⟨start, read⟩⟩ := of_parse found
  · obtain ⟨fields, texts, blanks, distinct, -, absent, each, inside, rfl⟩ :=
      Reader.members_sound (by decide) read
    refine ⟨before, _, after, blank,
      .inl ⟨fields, texts, distinct, absent, each, blanks, inside, rfl⟩, afterBlank, ?_⟩
    rw [parts, start]
    simp [Reader.remaining]
  · obtain ⟨texts, blanks, -, each, inside, rfl⟩ := Reader.elements_sound (by decide) read
    refine ⟨before, _, after, blank, .inr ⟨texts, each, blanks, inside, rfl⟩, afterBlank, ?_⟩
    rw [parts, start]
    simp [Reader.remaining]

/-- Overrides are read from a text exactly if it says them. -/
theorem parse_eq_ok_iff (text : String) (overrides : Overrides) :
    parse text = .ok overrides ↔ overrides.Describes text.toList :=
  ⟨describes_of_parse, parse_of_describes⟩

example : parse "\x7b \"owner_\\u006eame\" : null, \"compression_level\":7 \x7d\n" =
    .ok { compressionLevel := some 7 } := by
  decide +kernel

example : parse "\x7b\"owner_name\": null, \"owner_name\": null\x7d" =
    .error (.mismatch (.duplicateField .ownerName)) := by
  decide +kernel

/-- Overrides whose numbers are small enough to be read. -/
structure Bounded (overrides : Overrides) : Prop where
  compressionLevel : ∀ value ∈ overrides.compressionLevel, value < 0x100000000
  readBlockSize : ∀ value ∈ overrides.readBlockSize, value < 0x10000000000000000
  formatVersion : ∀ value ∈ overrides.formatVersion, value < 0x100000000

def orNull {α : Type} (write : α → Json) (value : Option α) : Json :=
  (value.map write).getD .null

def json (overrides : Overrides) : Field → Json
  | .compressionLevel => orNull (fun level : Nat => whole level) overrides.compressionLevel
  | .readBlockSize => orNull (fun size : Nat => whole size) overrides.readBlockSize
  | .ownerName => orNull .string overrides.ownerName
  | .formatVersion => orNull (fun version : Nat => whole version) overrides.formatVersion

theorem orNull_render {α : Type} {writes : α → List Char → Prop} {write : α → Json}
    {value : Option α} (each : ∀ present ∈ value, writes present (write present).render) :
    OrNull writes value (orNull write value).render := by
  cases value with
  | none => rfl
  | some present => exact each present rfl

theorem numeral_render {limit value : Nat} (below : value < limit) :
    Numeral limit value (Json.whole value).render := by
  rcases Number.text_whole value with ⟨negative, _⟩ | ⟨_, written⟩
  · omega
  · exact ⟨below, by simpa [Json.whole, render] using written⟩

theorem quoted_quote (value : String) : Quoted value (quote value) :=
  ⟨_, spells_escape value, rfl⟩

theorem valueText_render {overrides : Overrides} (bounded : overrides.Bounded) (field : Field) :
    overrides.ValueText field (overrides.json field).render := by
  cases field with
  | compressionLevel =>
      exact orNull_render fun value present =>
        numeral_render (bounded.compressionLevel value present)
  | readBlockSize =>
      exact orNull_render fun value present => numeral_render (bounded.readBlockSize value present)
  | ownerName => exact orNull_render fun value _ => quoted_quote value
  | formatVersion =>
      exact orNull_render fun value present => numeral_render (bounded.formatVersion value present)

theorem padded_self {described : List Char → Prop} {text : List Char} (inner : described text) :
    Padded described text :=
  ⟨[], text, [], by simp [Blank], inner, by simp [Blank], by simp⟩

theorem separated_map {α : Type} (write : α → List Char) (items : List α) :
    separated id (items.map write) = separated write items := by
  cases items <;> simp [separated, List.flatMap_map]

/-- Overrides are read back from an object with the fields in any order, which may have null
for an absent one or leave it out. -/
theorem parse_compact_object {overrides : Overrides} (bounded : overrides.Bounded)
    {fields : List Field} (distinct : fields.Nodup)
    (absent : ∀ field ∉ fields, SameAt overrides {} field) :
    parse (Json.object (fields.map fun field => (field.name, overrides.json field))).compact =
      .ok overrides := by
  have each : List.Forall₂ overrides.MemberText fields
      (fields.map fun field => renderMember (field.name, overrides.json field)) := by
    rw [List.forall₂_map_right_iff, List.forall₂_same]
    intro field _
    exact ⟨_, _, padded_self (quoted_quote field.name),
      padded_self (valueText_render bounded field), rfl⟩
  apply parse_of_describes
  rw [compact, String.toList_ofList, render, renderMembers_eq]
  refine padded_self (.inl ⟨fields, _, distinct, absent, each, [], by simp [Blank], ?_⟩)
  rw [← separated_map, List.map_map]
  rfl

/-- They are read back from an array as well. -/
theorem parse_compact_array {overrides : Overrides} (bounded : overrides.Bounded) :
    parse (Json.array (Field.all.map overrides.json)).compact = .ok overrides := by
  have each : List.Forall₂ overrides.ElementText Field.all
      (Field.all.map fun field => (overrides.json field).render) := by
    rw [List.forall₂_map_right_iff, List.forall₂_same]
    exact fun field _ => padded_self (valueText_render bounded field)
  apply parse_of_describes
  rw [compact, String.toList_ofList, render, renderItems_eq]
  refine padded_self (.inr ⟨_, each, [], by simp [Blank], ?_⟩)
  rw [← separated_map, List.map_map]
  rfl

end Overrides

end UpdateArtifact
