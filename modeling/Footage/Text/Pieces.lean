/-!
Lists cut at separators. Joining the pieces with the separator gives the list back.
-/

namespace Footage.Text

/-- The pieces between separators, one more than there are separators. -/
def pieces [DecidableEq α] (separator : α) : List α → List (List α)
  | [] => [[]]
  | a :: rest =>
    if a = separator then [] :: pieces separator rest
    else
      match pieces separator rest with
      | [] => [[a]]
      | p :: ps => (a :: p) :: ps

/-- What stands before the first separator, and what stands after it. -/
def cut [DecidableEq α] (separator : α) (l : List α) : List α × List α :=
  (l.takeWhile (· ≠ separator), (l.dropWhile (· ≠ separator)).tail)

theorem pieces_ne_nil [DecidableEq α] (separator : α) (l : List α) : pieces separator l ≠ [] := by
  cases l with
  | nil => simp [pieces]
  | cons a rest =>
    rw [pieces]
    split
    · simp
    · split <;> simp

theorem intercalate_pieces [DecidableEq α] (separator : α) (l : List α) :
    [separator].intercalate (pieces separator l) = l := by
  induction l with
  | nil => rfl
  | cons a rest ih =>
    obtain ⟨p, ps, h⟩ := List.exists_cons_of_ne_nil (pieces_ne_nil separator rest)
    rw [h] at ih
    by_cases ha : a = separator
    · subst ha
      simpa [pieces, h, List.intercalate, List.intersperse] using ih
    · cases ps with
      | nil => simpa [pieces, h, ha, List.intercalate, List.intersperse] using ih
      | cons q qs => simpa [pieces, h, ha, List.intercalate, List.intersperse] using ih

end Footage.Text
