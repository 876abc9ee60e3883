import UpdateArtifact.Proofs.Tar.ReadBack

/-!
# Paths that are accepted

A path that fits the name field is refused only for a zero byte or a component `..`.  No
path is too long, because an entry of its own holds what the field does not: the field gets
the beginning of the path, and where the cut leaves `.` or `..` at its end that is taken.
A single component is therefore refused exactly for a zero byte in the part that the field
would hold.
-/

namespace UpdateArtifact

namespace Tar

namespace Path

theorem size_cutTo_le (room : Nat) (characters : List Char) :
    size (cutTo room characters) ≤ room := by
  induction characters generalizing room with
  | nil => exact Nat.zero_le room
  | cons character rest ih =>
      rw [cutTo]
      split
      · next fits =>
          have later := ih (room - character.utf8Size)
          rw [size]
          omega
      · exact Nat.zero_le room

theorem isPrefix_cutTo (room : Nat) (characters : List Char) :
    cutTo room characters <+: characters := by
  induction characters generalizing room with
  | nil => exact List.nil_prefix
  | cons character rest ih =>
      rw [cutTo]
      split
      · exact List.cons_prefix_cons.mpr ⟨rfl, ih _⟩
      · exact List.nil_prefix

theorem cutTo_of_size_le {room : Nat} {characters : List Char}
    (small : size characters ≤ room) : cutTo room characters = characters := by
  induction characters generalizing room with
  | nil => rfl
  | cons character rest ih =>
      rw [size] at small
      rw [cutTo, if_pos (by omega), ih (by omega)]

theorem lt_size_cutTo {room : Nat} {characters : List Char} (large : room < size characters) :
    room < size (cutTo room characters) + 4 := by
  induction characters generalizing room with
  | nil => simp [size] at large
  | cons character rest ih =>
      have width := character.utf8Size_le_four
      rw [size] at large
      rw [cutTo]
      split
      · next fits =>
          have beyond : room - character.utf8Size < size rest := by
            omega
          have later := ih beyond
          rw [size]
          omega
      · omega

/-- A component of a path that is stored as it is. -/
structure Component (characters : List Char) : Prop where
  notEmpty : characters ≠ []
  noSlash : '/' ∉ characters
  notHere : characters ≠ here
  notAbove : characters ≠ above

theorem Component.components_eq {characters : List Char} (component : Component characters) :
    components characters = [characters] := by
  simp [components, pieces_of_not_mem component.noSlash, component.notEmpty, component.notHere]

theorem Component.store_eq {characters : List Char} (component : Component characters)
    (cut : Bool) :
    store cut characters =
      if width < size characters then ([], some .tooLong)
      else if '\x00' ∈ characters then ([], some .nulByte)
      else (characters, none) := by
  have first : characters.head? ≠ some '/' :=
    fun slash => component.noSlash (List.mem_of_head? slash)
  have last : characters.getLast? ≠ some '/' :=
    fun slash => component.noSlash (List.mem_of_getLast? slash)
  have kept : storeComponents cut [] [characters] =
      appendAll [] [characters] := by
    simp only [storeComponents, component.notAbove, false_and, if_false, if_true]
    rcases appendAll [] [characters] with ⟨stored, _ | fault⟩ <;> rfl
  rw [store, if_neg first, component.components_eq, kept]
  simp only [appendAll, append, size, Nat.sub_zero, List.nil_append]
  by_cases long : width < size characters
  · simp only [long, if_true]
  · by_cases zero : '\x00' ∈ characters
    · simp only [long, zero, if_true, if_false]
    · simp only [long, zero, if_false]
      cases characters with
      | nil => exact (component.notEmpty rfl).elim
      | cons character rest => simp only [last, if_false]

theorem Component.cutTo {characters : List Char} (component : Component characters) :
    Component (Path.cutTo width characters) := by
  by_cases small : size characters ≤ width
  · rw [cutTo_of_size_le small]
    exact component
  · have long := lt_size_cutTo (Nat.lt_of_not_le small)
    refine ⟨?_, fun slash => component.noSlash ((isPrefix_cutTo _ _).mem slash), ?_, ?_⟩
    all_goals
      intro same
      rw [same] at long
      revert long
      decide

theorem place_of_component {path : String} (component : Component path.toList) :
    ('\x00' ∈ cutTo width path.toList →
      place path = .error { fault := .nulByte, kept := "" }) ∧
    ('\x00' ∉ cutTo width path.toList → ∃ placement, place path = .ok placement) := by
  have whole := component.store_eq false
  have part := component.cutTo.store_eq true
  rw [if_neg (Nat.not_lt.mpr (size_cutTo_le _ _))] at part
  by_cases fits : size path.toList ≤ width
  · rw [cutTo_of_size_le fits] at part ⊢
    rw [if_neg (Nat.not_lt.mpr fits)] at whole
    constructor
    · intro zero
      rw [if_pos zero] at whole part
      simp only [place, whole, cutTo_of_size_le fits, part]
      split <;> rfl
    · intro noZero
      rw [if_neg noZero] at whole
      simp only [place, whole]
      exact ⟨_, rfl⟩
  -- A long name gets an entry of its own, unless its beginning is refused.
  · have long : ¬ size path.toList < width := fun less => fits (Nat.le_of_lt less)
    rw [if_pos (Nat.lt_of_not_le fits)] at whole
    constructor
    · intro zero
      rw [if_pos zero] at part
      simp only [place, whole, long, if_false, part]
      rfl
    · intro noZero
      rw [if_neg noZero] at part
      simp only [place, whole, long, if_false, part]
      exact ⟨_, rfl⟩

private theorem append_of_fits {stored characters : List Char}
    (fits : Fits (stored ++ characters)) :
    append stored characters = .ok (stored ++ characters) := by
  have room := fits.size_le
  rw [size_append] at room
  have noZero : '\x00' ∉ characters := fun zero => fits.noZero (List.mem_append_right _ zero)
  rw [append, if_neg (by omega), if_neg noZero]

private theorem appendAll_of_fits {stored : List Char} {parts : List (List Char)}
    (fits : Fits (stored ++ parts.flatten)) :
    appendAll stored parts = (stored ++ parts.flatten, none) := by
  induction parts generalizing stored with
  | nil => simp [appendAll]
  | cons part rest ih =>
      rw [List.flatten_cons, ← List.append_assoc] at fits ⊢
      have front : Fits (stored ++ part) := by
        have room := fits.size_le
        rw [size_append] at room
        exact ⟨by omega, fun zero => fits.noZero (List.mem_append_left _ zero)⟩
      simp only [appendAll, append_of_fits front, ih fits]

private theorem storeComponents_append {cut : Bool} {stored : List Char}
    {front : List (List Char)} (notEmpty : stored ≠ []) (noAbove : above ∉ front)
    (fits : Fits (stored ++ front.flatMap ('/' :: ·))) (back : List (List Char)) :
    storeComponents cut stored (front ++ back) =
      storeComponents cut (stored ++ front.flatMap ('/' :: ·)) back := by
  induction front generalizing stored with
  | nil => simp
  | cons component rest ih =>
      rw [List.mem_cons, not_or] at noAbove
      rw [List.flatMap_cons, ← List.append_assoc] at fits ⊢
      have head : Fits (stored ++ [['/'], component].flatten) := by
        have room := fits.size_le
        rw [size_append] at room
        have shape : [['/'], component].flatten = '/' :: component := by
          simp
        rw [shape]
        exact ⟨by omega, fun zero => fits.noZero (List.mem_append_left _ zero)⟩
      have longer : stored ++ '/' :: component ≠ [] := by
        simp
      have stored' := appendAll_of_fits head
      simp only [List.flatten_cons, List.flatten_nil, List.append_nil, List.cons_append,
        List.nil_append] at stored'
      rw [List.cons_append, storeComponents]
      simp only [Ne.symm noAbove.1, false_and, if_false, notEmpty, stored',
        ih longer noAbove.2 fits]

/-- Characters none of whose components is empty, `.` or `..`. -/
def Named (characters : List Char) : Prop :=
  ∀ component ∈ pieces '/' characters,
    component ≠ [] ∧ component ≠ here ∧ component ≠ above

instance (characters : List Char) : Decidable (Named characters) := by
  unfold Named
  infer_instance

theorem Named.ne_nil {characters : List Char} (named : Named characters) :
    characters ≠ [] := by
  rintro rfl
  exact (named [] (by simp [pieces])).1 rfl

theorem Named.head_ne_slash {characters : List Char} (named : Named characters) :
    characters.head? ≠ some '/' := by
  intro slash
  cases characters with
  | nil => contradiction
  | cons first rest =>
      cases slash
      exact (named [] (by simp [pieces])).1 rfl

/-- The components of such characters are stored as the characters themselves. -/
private theorem Named.storeComponents_eq {characters : List Char} (named : Named characters)
    (fits : Fits characters) (cut : Bool) (back : List (List Char)) :
    storeComponents cut [] (pieces '/' characters ++ back) =
      storeComponents cut characters back := by
  have whole := intercalate_pieces '/' characters
  cases cutUp : pieces '/' characters with
  | nil => exact (pieces_ne_nil _ _ cutUp).elim
  | cons first rest =>
      rw [cutUp, intercalate_cons] at whole
      have firstNamed := named first (by simp [cutUp])
      have noAbove : above ∉ rest :=
        fun member => (named above (by simp [cutUp, member])).2.2 rfl
      rw [← whole] at fits ⊢
      have head : Fits ([] ++ [first].flatten) := by
        have room := fits.size_le
        rw [size_append] at room
        rw [List.nil_append, List.flatten_singleton]
        exact ⟨by omega, fun zero => fits.noZero (List.mem_append_left _ zero)⟩
      have start := appendAll_of_fits head
      rw [List.nil_append, List.flatten_singleton] at start
      rw [List.cons_append, storeComponents]
      simp only [firstNamed.2.2, false_and, if_false, if_true, start]
      exact storeComponents_append firstNamed.1 noAbove fits back

/-- Storing a relative path whose components are taken ends with the slash at its end. -/
private theorem store_of_stored {cut : Bool} {path stored : List Char}
    (relative : path.head? ≠ some '/') (notEmpty : stored ≠ [])
    (taken : storeComponents cut [] (components path) = (stored, none)) :
    store cut path =
      if path.getLast? = some '/' then appendAll stored [['/']] else (stored, none) := by
  rw [store, if_neg relative, taken]
  cases stored with
  | nil => exact (notEmpty rfl).elim
  | cons first rest => rfl

theorem Plain.store_eq {path : String} (plain : Plain path)
    (noAbove : above ∉ pieces '/' path.toList) (fits : Fits path.toList) :
    store false path.toList = (path.toList, none) := by
  have named : Named path.toList := fun component member =>
    ⟨(plain component member).1, (plain component member).2,
      fun same => noAbove (same ▸ member)⟩
  have taken := named.storeComponents_eq fits false []
  rw [List.append_nil, ← plain.components_eq, storeComponents] at taken
  rw [store_of_stored plain.not_absolute named.ne_nil taken, if_neg plain.no_last_slash]

private theorem exists_last_slash {characters : List Char} (slash : '/' ∈ characters) :
    ∃ front last, characters = front ++ '/' :: last ∧ '/' ∉ last := by
  obtain ⟨last, front, split, absent⟩ :=
    List.eq_append_cons_of_mem (List.mem_reverse.mpr slash)
  refine ⟨front.reverse, last.reverse, ?_, fun member => absent (List.mem_reverse.mp member)⟩
  rw [← List.reverse_reverse characters, split]
  simp

private theorem components_of_front {front last : List Char} (named : Named front)
    (noSlash : '/' ∉ last) :
    components (front ++ '/' :: last) =
      pieces '/' front ++ if last = [] ∨ last = here then [] else [last] := by
  have kept : (pieces '/' front).filter
      (fun component => component ≠ [] ∧ component ≠ here) = pieces '/' front :=
    List.filter_eq_self.mpr fun component member =>
      decide_eq_true ⟨(named component member).1, (named component member).2.1⟩
  have ending : [last].filter (fun component => component ≠ [] ∧ component ≠ here) =
      if last = [] ∨ last = here then [] else [last] := by
    by_cases dropped : last = [] ∨ last = here
    · rcases dropped with rfl | rfl <;> simp
    · rw [if_neg dropped, List.filter_singleton]
      simp [not_or.mp dropped]
  simp only [components, pieces_append_cons, pieces_of_not_mem noSlash, List.filter_append, kept,
    ending, List.append_eq_nil_iff, pieces_ne_nil, false_and, if_false]

/-- Storing accepts the beginning of a path wherever it was cut: the last component may
then be empty, `.` or `..`, and those before it are as they were. -/
private theorem store_of_front {front last : List Char} (named : Named front)
    (noSlash : '/' ∉ last) (fits : Fits (front ++ '/' :: last)) :
    ∃ stored, store true (front ++ '/' :: last) = (stored, none) := by
  have ends : Fits (front ++ ['/']) := by
    have room := fits.size_le
    have noZero := fits.noZero
    simp only [size_append, size, List.mem_append, List.mem_cons, not_or] at room noZero
    refine ⟨?_, by simp [noZero]⟩
    simp only [size_append, size]
    omega
  have frontFits : Fits front := by
    have room := ends.size_le
    rw [size_append] at room
    exact ⟨by omega, fun zero => ends.noZero (List.mem_append_left _ zero)⟩
  have relative : (front ++ '/' :: last).head? ≠ some '/' := by
    rw [List.head?_append_of_ne_nil _ named.ne_nil]
    exact named.head_ne_slash
  have parts := components_of_front named noSlash
  have taken := named.storeComponents_eq frontFits true
  by_cases dropped : last = [] ∨ last = here
  -- What the cut left of the last component is not stored, but a slash at the end is.
  · rw [if_pos dropped] at parts
    rw [store_of_stored relative named.ne_nil (by rw [parts, taken, storeComponents])]
    split
    · exact ⟨_, appendAll_of_fits (by simpa using ends)⟩
    · exact ⟨_, rfl⟩
  · rw [if_neg dropped] at parts
    have lastFits : Fits (front ++ [['/'], last].flatten) := by
      simpa using fits
    have noLastSlash : (front ++ '/' :: last).getLast? ≠ some '/' := by
      rw [List.getLast?_append_of_ne_nil _ (List.cons_ne_nil _ _),
        List.getLast?_cons_of_ne_nil (not_or.mp dropped).1]
      exact fun slash => noSlash (List.mem_of_getLast? slash)
    have all : storeComponents true [] (components (front ++ '/' :: last)) =
        (front ++ '/' :: last, none) := by
      rw [parts, taken, storeComponents]
      simp [named.ne_nil, appendAll_of_fits lastFits, storeComponents]
    rw [store_of_stored relative (by simp) all, if_neg noLastSlash]
    exact ⟨_, rfl⟩

/-- A path that stays below the directory it is put in, named without detours. -/
structure Proper (path : String) : Prop where
  named : Named path.toList
  noZero : '\x00' ∉ path.toList

instance (path : String) : Decidable (Proper path) :=
  decidable_of_iff (Named path.toList ∧ '\x00' ∉ path.toList)
    ⟨fun both => ⟨both.1, both.2⟩, fun proper => ⟨proper.named, proper.noZero⟩⟩

theorem Proper.plain {path : String} (proper : Proper path) : Plain path :=
  fun component member => ⟨(proper.named component member).1, (proper.named component member).2.1⟩

/-- The part of a long path that the name field holds is accepted. -/
private theorem Proper.store_cutTo {path : String} (proper : Proper path)
    (long : width < size path.toList) :
    ∃ stored, store true (cutTo width path.toList) = (stored, none) := by
  obtain ⟨beyond, split⟩ := isPrefix_cutTo width path.toList
  have fits : Fits (cutTo width path.toList) :=
    ⟨size_cutTo_le _ _, fun zero => proper.noZero (split ▸ List.mem_append_left _ zero)⟩
  have many := lt_size_cutTo long
  have named := proper.named
  generalize cutTo width path.toList = beginning at *
  by_cases slash : '/' ∈ beginning
  · obtain ⟨front, last, rfl, noSlash⟩ := exists_last_slash slash
    have frontNamed : Named front := by
      intro component member
      apply named component
      rw [← split, List.append_assoc, List.cons_append, pieces_append_cons]
      exact List.mem_append_left _ member
    exact store_of_front frontNamed noSlash fits
  · have differs (mark : List Char) (short : size mark + 4 ≤ width) : beginning ≠ mark := by
      rintro rfl
      omega
    have component : Component beginning :=
      ⟨differs [] (by decide), slash, differs here (by decide), differs above (by decide)⟩
    rw [component.store_eq, if_neg (Nat.not_lt.mpr fits.size_le), if_neg fits.noZero]
    exact ⟨_, rfl⟩

theorem Proper.placed {path : String} (proper : Proper path) :
    ∃ placement, place path = .ok placement := by
  by_cases short : size path.toList ≤ width
  · have noAbove : above ∉ pieces '/' path.toList :=
      fun member => (proper.named above member).2.2 rfl
    simp only [place, proper.plain.store_eq noAbove ⟨short, proper.noZero⟩]
    exact ⟨_, rfl⟩
  · have long := Nat.lt_of_not_le short
    obtain ⟨stored, kept⟩ := proper.store_cutTo long
    rw [place]
    simp only [kept, if_neg (Nat.not_lt.mpr (Nat.le_of_lt long))]
    split <;> exact ⟨_, rfl⟩

end Path

theorem Container.short_of_plain {path : String} (plain : Path.Plain path)
    (noAbove : Path.above ∉ pieces '/' path.toList) (fits : Path.Fits path.toList) :
    Container.Short path := by
  simp [Container.Short, Path.place, plain.store_eq noAbove fits, Except.toOption]

end Tar

theorem PayloadEntry.ValidName.component {name : String} (valid : PayloadEntry.ValidName name) :
    Tar.Path.Component name.toList := by
  obtain ⟨notEmpty, noSlash, notHere, notAbove⟩ := valid
  have differs (other : String) (different : name ≠ other) : name.toList ≠ other.toList :=
    fun same => different (String.toList_injective same)
  exact ⟨differs "" notEmpty, noSlash, differs "." notHere, differs ".." notAbove⟩

end UpdateArtifact
