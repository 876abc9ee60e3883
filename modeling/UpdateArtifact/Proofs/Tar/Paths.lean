import UpdateArtifact.Payload.Entry
import UpdateArtifact.Proofs.Characters
import UpdateArtifact.Proofs.Tar.Headers

/-!
# Stored paths

Storing a path component by component drops nothing from it if no component is
empty or a dot.  Such a path then stands in the name field up to its first zero
byte, or whole in an entry of its own.
-/

namespace UpdateArtifact

namespace Tar

namespace Path

/-- Every component of the path is one that is stored. -/
def Plain (path : String) : Prop :=
  ∀ component ∈ pieces '/' path.toList, component ≠ [] ∧ component ≠ here

instance (path : String) : Decidable (Plain path) := by
  unfold Plain
  infer_instance

/-- What the name field can hold. -/
structure Fits (stored : List Char) : Prop where
  size_le : size stored ≤ width
  noZero : '\x00' ∉ stored

private theorem Fits.nil : Fits [] := by
  constructor
  · simp [size]
  · simp

theorem size_append (left right : List Char) : size (left ++ right) = size left + size right := by
  induction left with
  | nil => simp [size]
  | cons character rest ih => simp [size, ih, Nat.add_assoc]

private theorem append_ok {stored characters result : List Char} (fits : Fits stored)
    (appended : append stored characters = .ok result) :
    result = stored ++ characters ∧ Fits result := by
  unfold append at appended
  split at appended
  · contradiction
  · next room =>
      split at appended
      · contradiction
      · next noZero =>
          cases appended
          refine ⟨rfl, ?_, ?_⟩
          · have bound := fits.size_le
            rw [size_append]
            omega
          · simp [fits.noZero, noZero]

private theorem appendAll_none {stored result : List Char} {parts : List (List Char)}
    (fits : Fits stored) (appended : appendAll stored parts = (result, none)) :
    result = stored ++ parts.flatten ∧ Fits result := by
  induction parts generalizing stored with
  | nil =>
      cases appended
      exact ⟨by simp, fits⟩
  | cons part rest ih =>
      simp only [appendAll] at appended
      cases first : append stored part with
      | error fault =>
          rw [first] at appended
          simp at appended
      | ok longer =>
          rw [first] at appended
          obtain ⟨rfl, longerFits⟩ := append_ok fits first
          obtain ⟨rfl, resultFits⟩ := ih longerFits appended
          exact ⟨by simp, resultFits⟩

private theorem storeComponents_cons {cut : Bool} {stored result component : List Char}
    {rest : List (List Char)} (fits : Fits stored)
    (kept : storeComponents cut stored (component :: rest) = (result, none)) :
    ∃ longer, longer = stored ++ (if stored = [] then component else '/' :: component) ∧
      Fits longer ∧ storeComponents cut longer rest = (result, none) := by
  simp only [storeComponents] at kept
  split at kept
  · simp at kept
  · cases appended : appendAll stored
        (if stored = [] then [component] else [['/'], component]) with
    | mk longer fault =>
        rw [appended] at kept
        cases fault with
        | some fault => simp at kept
        | none =>
            obtain ⟨same, longerFits⟩ := appendAll_none fits appended
            refine ⟨longer, ?_, longerFits, kept⟩
            rw [same]
            split <;> simp

private theorem storeComponents_of_ne_nil {cut : Bool} {stored result : List Char}
    {rest : List (List Char)} (notEmpty : stored ≠ []) (fits : Fits stored)
    (kept : storeComponents cut stored rest = (result, none)) :
    result = stored ++ rest.flatMap ('/' :: ·) ∧ Fits result := by
  induction rest generalizing stored with
  | nil =>
      cases kept
      exact ⟨by simp, fits⟩
  | cons component rest ih =>
      obtain ⟨longer, same, longerFits, later⟩ := storeComponents_cons fits kept
      rw [if_neg notEmpty] at same
      have longerNotEmpty : longer ≠ [] := by
        rw [same]
        simp
      obtain ⟨rfl, resultFits⟩ := ih longerNotEmpty longerFits later
      refine ⟨?_, resultFits⟩
      rw [same]
      simp

theorem intercalate_cons (first : List Char) (rest : List (List Char)) :
    ['/'].intercalate (first :: rest) = first ++ rest.flatMap ('/' :: ·) := by
  induction rest generalizing first with
  | nil => simp
  | cons second rest ih =>
      rw [List.intercalate_cons_cons, ih]
      simp

theorem Plain.components_eq {path : String} (plain : Plain path) :
    components path.toList = pieces '/' path.toList := by
  have all : (pieces '/' path.toList).filter
      (fun component => component ≠ [] ∧ component ≠ here) = pieces '/' path.toList := by
    apply List.filter_eq_self.mpr
    intro component member
    exact decide_eq_true (plain component member)
  have some := pieces_ne_nil '/' path.toList
  simp only [components, all, some, false_and, if_false]

theorem Plain.not_absolute {path : String} (plain : Plain path) :
    path.toList.head? ≠ some '/' := by
  intro slash
  cases characters : path.toList with
  | nil => simp [characters] at slash
  | cons head tail =>
      rw [characters, List.head?_cons, Option.some.injEq] at slash
      have empty : [] ∈ pieces '/' path.toList := by
        simp [characters, pieces, slash]
      exact (plain [] empty).1 rfl

theorem Plain.no_last_slash {path : String} (plain : Plain path) :
    path.toList.getLast? ≠ some '/' := by
  intro slash
  obtain ⟨front, split⟩ := List.getLast?_eq_some_iff.mp slash
  have empty : [] ∈ pieces '/' path.toList := by
    simp [split, pieces_append_cons, pieces]
  exact (plain [] empty).1 rfl

/-- A plain path that the name field takes stands there unchanged. -/
theorem store_plain {path : String} (plain : Plain path) {cut : Bool} {stored : List Char}
    (kept : store cut path.toList = (stored, none)) : stored = path.toList ∧ Fits stored := by
  have whole := intercalate_pieces '/' path.toList
  unfold store at kept
  rw [if_neg plain.not_absolute, plain.components_eq] at kept
  cases cutUp : pieces '/' path.toList with
  | nil => exact (pieces_ne_nil _ _ cutUp).elim
  | cons first rest =>
      have firstPlain := plain first (by simp [cutUp])
      rw [cutUp] at kept whole
      cases result : storeComponents cut [] (first :: rest) with
      | mk all fault =>
          rw [result] at kept
          cases fault with
          | some fault => simp at kept
          | none =>
              obtain ⟨longer, same, longerFits, later⟩ := storeComponents_cons .nil result
              simp only [List.nil_append, if_true] at same
              subst same
              obtain ⟨joined, fits⟩ :=
                storeComponents_of_ne_nil firstPlain.1 longerFits later
              have allWhole : all = path.toList := by
                rw [joined, ← intercalate_cons, whole]
              have notEmpty : all ≠ [] := by
                rw [joined]
                simp [firstPlain.1]
              split at kept
              · next equal => simp at equal
              · next equal => exact (notEmpty (by simpa using equal)).elim
              · next equal =>
                  rw [if_neg plain.no_last_slash] at kept
                  cases kept
                  cases equal
                  exact ⟨allWhole, fits⟩

private theorem overwrite_blank {stored : List Char} (notEmpty : stored ≠ [])
    (small : size stored ≤ width) :
    overwrite (Bytes.zeros width) stored =
      Bytes.field width (Bytes.utf8 (String.ofList stored)) := by
  have length : (Bytes.utf8 (String.ofList stored)).length = size stored := by
    simp [Bytes.length_utf8]
  simp only [overwrite, if_neg notEmpty, Bytes.field, Bytes.zeros, List.drop_replicate]
  rw [List.take_append, List.take_append, length]
  congr 1
  rw [← List.replicate_succ, List.take_replicate, List.take_replicate]
  congr 1
  omega

theorem place_plain {path : String} (plain : Plain path) {placement : Placement}
    (placed : place path = .ok placement) :
    (placement.longName = none ∧
      (Bytes.field width placement.name).takeWhile (· ≠ 0) = Bytes.utf8 path) ∨
    placement.longName = some (Bytes.utf8 path ++ [0]) := by
  unfold place at placed
  simp only at placed
  split at placed
  · next stored kept =>
      left
      cases placed
      obtain ⟨same, fits⟩ := store_plain plain kept
      have notEmpty : stored ≠ [] := by
        rw [same]
        intro empty
        exact (plain [] (by simp [empty, pieces])).1 rfl
      have whole : String.ofList stored = path := by
        rw [same, String.ofList_toList]
      have small : (Bytes.utf8 path).length ≤ width := by
        rw [Bytes.length_utf8, ← same]
        exact fits.size_le
      have noZero : (0 : UInt8) ∉ Bytes.utf8 path := by
        intro member
        rw [Bytes.mem_utf8 (by decide), ← same] at member
        exact fits.noZero member
      refine ⟨rfl, ?_⟩
      rw [overwrite_blank notEmpty fits.size_le, whole]
      have again : Bytes.field width (Bytes.field width (Bytes.utf8 path)) =
          Bytes.field width (Bytes.utf8 path) := by
        rw [Bytes.field, List.take_append_of_le_length (by simp),
          List.take_of_length_le (by simp)]
      rw [again]
      exact Bytes.takeWhile_field small noZero
  · split at placed
    · contradiction
    · split at placed
      · cases placed
        exact .inr rfl
      · contradiction

/-- The name that a reader finds in a placement: that of the entry which announces the
path, or else what the name field holds before its first zero byte. -/
def Placement.readName (placement : Placement) : Bytes :=
  match placement.longName with
  | some name => Announcement.unterminated name
  | none => (Bytes.field width placement.name).takeWhile (· ≠ 0)

/-- The name under which a path is read back once it has been accepted. -/
def readName (path : String) : Bytes :=
  match place path with
  | .error _ => Bytes.utf8 path
  | .ok placement => placement.readName

theorem longName_eq {path : String} {placement : Placement} {name : Bytes}
    (placed : place path = .ok placement) (long : placement.longName = some name) :
    name = Bytes.utf8 path ++ [0] := by
  unfold place at placed
  simp only at placed
  split at placed
  · cases placed
    cases long
  · split at placed
    · contradiction
    · split at placed
      · cases placed
        cases long
        rfl
      · contradiction

theorem Plain.readName_eq {path : String} (plain : Plain path) :
    readName path = Bytes.utf8 path := by
  unfold readName
  split
  · rfl
  · next placement placed =>
      rcases place_plain plain placed with ⟨short, name⟩ | long
      · rw [Placement.readName, short]
        exact name
      · simp [Placement.readName, long, Announcement.unterminated]

end Path

end Tar

theorem PayloadEntry.ValidName.plain {name : String} (valid : PayloadEntry.ValidName name) :
    Tar.Path.Plain name := by
  obtain ⟨notEmpty, noSlash, notHere, _⟩ := valid
  intro component member
  rw [pieces_of_not_mem noSlash, List.mem_singleton] at member
  subst member
  constructor
  · simpa using notEmpty
  · intro dot
    apply notHere
    rw [← String.ofList_toList (s := name), dot]
    rfl

end UpdateArtifact
