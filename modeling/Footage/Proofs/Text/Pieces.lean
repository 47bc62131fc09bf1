import Footage.Text.Pieces
import Mathlib.Data.List.Basic

/-! Lists cut at separators. A cut at one separator gives the pieces of both parts, no piece has a
separator in it, and a list is known by its pieces. So the pieces of one list begin those of another
exactly when the lists are equal or the first goes on with a separator. -/

namespace Footage.Text

variable {α : Type} [DecidableEq α] {separator : α}

theorem pieces_eq_splitOn (separator : α) (l : List α) : pieces separator l = l.splitOn separator := by
  induction l with
  | nil => rfl
  | cons a l ih =>
    rw [pieces, List.splitOn_cons_eq_if_modifyHead, ih]
    by_cases ha : a = separator
    · simp [ha]
    · obtain ⟨p, ps, h⟩ := List.exists_cons_of_ne_nil (List.splitOn_ne_nil separator l)
      simp [ha, h]

theorem pieces_append_cons (k l : List α) :
    pieces separator (k ++ separator :: l) = pieces separator k ++ pieces separator l := by
  simp only [pieces_eq_splitOn, List.splitOn_append_cons_self]

theorem pieces_of_notMem {l : List α} (h : separator ∉ l) : pieces separator l = [l] := by
  rw [pieces_eq_splitOn, List.splitOn_eq_singleton h]

theorem pieces_append_of_notMem {k l p : List α} {ps : List (List α)} (hk : separator ∉ k)
    (h : pieces separator l = p :: ps) : pieces separator (k ++ l) = (k ++ p) :: ps := by
  induction k with
  | nil => exact h
  | cons a k ih =>
    rw [List.mem_cons, not_or] at hk
    rw [List.cons_append, pieces, if_neg (Ne.symm hk.1), ih hk.2]
    rfl

theorem pieces_intercalate {ps : List (List α)} (hne : ps ≠ []) (h : ∀ p ∈ ps, separator ∉ p) :
    pieces separator ([separator].intercalate ps) = ps := by
  rw [pieces_eq_splitOn, List.splitOn_intercalate separator h hne]

theorem pieces_injective (separator : α) : Function.Injective (pieces separator) :=
  Function.LeftInverse.injective (g := [separator].intercalate) (intercalate_pieces separator)

theorem separator_notMem_of_mem_pieces {l p : List α} (h : p ∈ pieces separator l) : separator ∉ p := by
  induction l generalizing p with
  | nil =>
    rw [List.mem_singleton.1 h]
    exact List.not_mem_nil
  | cons a l ih =>
    rw [pieces] at h
    split_ifs at h with ha
    · rcases List.mem_cons.1 h with rfl | h
      · exact List.not_mem_nil
      · exact ih h
    · obtain ⟨q, qs, hq⟩ := List.exists_cons_of_ne_nil (pieces_ne_nil separator l)
      simp only [hq] at h ih
      rcases List.mem_cons.1 h with rfl | h
      · rw [List.mem_cons, not_or]
        exact ⟨Ne.symm ha, ih List.mem_cons_self⟩
      · exact ih (List.mem_cons_of_mem _ h)

omit [DecidableEq α] in
theorem intercalate_cons (p : List α) (ps : List (List α)) :
    [separator].intercalate (p :: ps) = p ++ ps.flatMap (separator :: ·) := by
  induction ps generalizing p with
  | nil => simp
  | cons q ps ih =>
    rw [List.intercalate_cons_cons, ih]
    simp

theorem pieces_prefix_iff {k l : List α} :
    pieces separator k <+: pieces separator l ↔ l = k ∨ ∃ rest, l = k ++ separator :: rest := by
  constructor
  · rintro ⟨ps, hps⟩
    by_cases hnil : ps = []
    · rw [hnil, List.append_nil] at hps
      exact .inl (pieces_injective separator hps).symm
    · right
      refine ⟨[separator].intercalate ps, pieces_injective separator ?_⟩
      have hclear : ∀ p ∈ ps, separator ∉ p := fun p hp =>
        separator_notMem_of_mem_pieces (hps ▸ List.mem_append_right _ hp)
      rw [pieces_append_cons, pieces_intercalate hnil hclear, hps]
  · rintro (rfl | ⟨rest, rfl⟩)
    · exact List.prefix_rfl
    · rw [pieces_append_cons]
      exact List.prefix_append _ _

end Footage.Text
