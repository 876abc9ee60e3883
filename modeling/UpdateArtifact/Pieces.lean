/-!
# Pieces of a list

A list cut at every occurrence of a separator, or at the first one only.  There
is always one piece more than separators, and the pieces with the separator
between them give the list back.
-/

namespace UpdateArtifact

/-- The runs between the separators, empty ones included. -/
def pieces {α : Type} [DecidableEq α] (separator : α) : List α → List (List α)
  | [] => [[]]
  | head :: tail =>
      if head = separator then [] :: pieces separator tail
      else
        match pieces separator tail with
        | [] => [[head]]
        | first :: rest => (head :: first) :: rest

theorem pieces_ne_nil {α : Type} [DecidableEq α] (separator : α) (list : List α) :
    pieces separator list ≠ [] := by
  cases list with
  | nil => simp [pieces]
  | cons head tail =>
      simp only [pieces]
      split
      · simp
      · split <;> simp

theorem intercalate_pieces {α : Type} [DecidableEq α] (separator : α) (list : List α) :
    [separator].intercalate (pieces separator list) = list := by
  induction list with
  | nil => rfl
  | cons head tail ih =>
      simp only [pieces]
      split
      · next same =>
          subst same
          cases cut : pieces head tail with
          | nil => exact (pieces_ne_nil head tail cut).elim
          | cons first rest =>
              rw [cut] at ih
              simpa [List.intercalate, List.intersperse] using ih
      · cases cut : pieces separator tail with
        | nil => exact (pieces_ne_nil separator tail cut).elim
        | cons first rest =>
            rw [cut] at ih
            cases rest with
            | nil => simpa [List.intercalate] using ih
            | cons second rest => simpa [List.intercalate, List.intersperse] using ih

theorem pieces_of_not_mem {α : Type} [DecidableEq α] {separator : α} {list : List α}
    (absent : separator ∉ list) : pieces separator list = [list] := by
  induction list with
  | nil => rfl
  | cons head tail ih =>
      simp only [List.mem_cons, not_or] at absent
      simp [pieces, Ne.symm absent.1, ih absent.2]

theorem pieces_append_cons {α : Type} [DecidableEq α] (separator : α) (left right : List α) :
    pieces separator (left ++ separator :: right) =
      pieces separator left ++ pieces separator right := by
  induction left with
  | nil => simp [pieces]
  | cons head tail ih =>
      by_cases same : head = separator
      · simp [pieces, same, ih]
      · cases cut : pieces separator tail with
        | nil => exact (pieces_ne_nil separator tail cut).elim
        | cons first rest =>
            rw [cut] at ih
            simp [pieces, same, ih, cut]

theorem length_pieces {α : Type} [DecidableEq α] (separator : α) (list : List α) :
    (pieces separator list).length = list.count separator + 1 := by
  induction list with
  | nil => rfl
  | cons head tail ih =>
      by_cases same : head = separator
      · simp [pieces, same, ih]
      · cases cut : pieces separator tail with
        | nil => exact (pieces_ne_nil separator tail cut).elim
        | cons first rest =>
            rw [cut] at ih
            simpa [pieces, same, cut] using ih

/-- The parts of a list before and after the first separator. -/
def cut? {α : Type} [DecidableEq α] (separator : α) : List α → Option (List α × List α)
  | [] => none
  | head :: tail =>
      if head = separator then some ([], tail)
      else (cut? separator tail).map fun (before, after) => (head :: before, after)

end UpdateArtifact
