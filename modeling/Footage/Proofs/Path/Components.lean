import Footage.Path
import Footage.Proofs.Text.Pieces
import Mathlib.Data.List.DropRight
import Mathlib.Logic.Relation

/-! Components of paths. What follows a slash adds its pieces to what comes before it, so slashes that
are written twice or with a dot, and those at the end of a path, add none. -/

namespace Footage.Path

open Text

/-! ### Components and slashes -/

theorem components_of_pieces {path p : List Char} {ps : List (List Char)} (h : pieces path = p :: ps) :
    components path = (firstComponent? p ps.isEmpty).toList ++ ps.filterMap component? := by
  rw [components, h]

theorem exists_pieces (path : List Char) : ∃ p ps, pieces path = p :: ps :=
  List.exists_cons_of_ne_nil (pieces_ne_nil '/' path)

theorem firstComponent?_of_ne_nil {p : List Char} (h : p ≠ []) (isLast : Bool) :
    firstComponent? p isLast = firstComponent? p false := by
  simp [firstComponent?, h]

@[simp] theorem component?_nil : component? [] = none := rfl

@[simp] theorem component?_dot : component? ['.'] = none := rfl

theorem components_append_slash (above below : List Char) :
    components (above ++ '/' :: below) =
      components (above ++ ['/']) ++ (pieces below).filterMap component? := by
  obtain ⟨p, ps, h⟩ := exists_pieces above
  have hpieces (l : List Char) : pieces (above ++ '/' :: l) = p :: (ps ++ pieces l) := by
    rw [pieces, pieces_append_cons]
    exact congrArg (· ++ _) h
  have hlast (l : List Char) : (ps ++ pieces l).isEmpty = false := by
    rw [List.isEmpty_eq_false_iff]
    exact List.append_ne_nil_of_right_ne_nil _ (pieces_ne_nil '/' l)
  rw [components_of_pieces (hpieces below), components_of_pieces (hpieces []), hlast, hlast,
    List.filterMap_append, List.filterMap_append, List.append_assoc, List.append_assoc]
  rfl

theorem components_append_slash_nil {path : List Char} (h : path ≠ []) :
    components (path ++ ['/']) = components path := by
  obtain ⟨p, ps, hp⟩ := exists_pieces path
  have hpieces : pieces (path ++ ['/']) = p :: (ps ++ [[]]) := by
    rw [pieces, pieces_append_cons]
    exact congrArg (· ++ _) hp
  have hfirst : firstComponent? p ps.isEmpty = firstComponent? p false := by
    cases ps with
    | cons q qs => rfl
    | nil =>
      refine firstComponent?_of_ne_nil ?_ _
      rintro rfl
      exact h (pieces_injective '/' hp)
  have hlast : (ps ++ [[]]).isEmpty = false := by cases ps <;> rfl
  rw [components_of_pieces hpieces, components_of_pieces hp, hfirst, hlast, List.filterMap_append]
  exact congrArg (_ ++ ·) (List.append_nil _)

theorem components_slash (below : List Char) :
    components ('/' :: below) = .root :: (pieces below).filterMap component? :=
  components_append_slash [] below

/-! ### Slashes that mean nothing -/

/-- Slashes, some with a dot behind them. -/
inductive IsPadding : List Char → Prop
  | nil : IsPadding []
  | slash {l : List Char} : IsPadding l → IsPadding ('/' :: l)
  | dot {l : List Char} : IsPadding l → IsPadding ('/' :: '.' :: l)

theorem components_padding {padding : List Char} (h : IsPadding padding) (above below : List Char) :
    components (above ++ padding ++ '/' :: below) = components (above ++ '/' :: below) := by
  induction h generalizing above with
  | nil => rw [List.append_nil]
  | slash _ ih =>
    have ih := ih (above ++ ['/'])
    simp only [List.append_assoc, List.cons_append, List.nil_append] at ih ⊢
    rw [ih, components_append_slash, components_append_slash above below]
    rfl
  | dot _ ih =>
    have ih := ih (above ++ ['/', '.'])
    simp only [List.append_assoc, List.cons_append, List.nil_append] at ih ⊢
    rw [ih, components_append_slash, components_append_slash above below]
    rfl

theorem components_append_padding {padding path : List Char} (h : IsPadding padding)
    (hpath : path ≠ []) : components (path ++ padding) = components path := by
  induction h generalizing path with
  | nil => rw [List.append_nil]
  | slash _ ih =>
    rw [List.append_cons, ih (by simp), components_append_slash_nil hpath]
  | @dot l _ ih =>
    have hdot : components (path ++ ['/', '.']) = components (path ++ ['/']) := by
      rw [components_append_slash]
      exact List.append_nil _
    rw [show path ++ '/' :: '.' :: l = path ++ ['/', '.'] ++ l by simp, ih (by simp), hdot,
      components_append_slash_nil hpath]

/-- Padding stands before a slash, or at the end of a path that is not empty. -/
def Widens (path wider : List Char) : Prop :=
  ∃ above padding below, IsPadding padding ∧ path = above ++ below ∧ path ≠ [] ∧
    (below = [] ∨ ∃ rest, below = '/' :: rest) ∧ wider = above ++ padding ++ below

theorem Widens.components_eq {path wider : List Char} (h : Widens path wider) :
    components wider = components path := by
  obtain ⟨above, padding, below, hpadding, rfl, hne, rfl | ⟨rest, rfl⟩, rfl⟩ := h
  · rw [List.append_nil] at hne ⊢
    rw [List.append_nil, components_append_padding hpadding hne]
  · exact components_padding hpadding above rest

theorem components_of_widened {path wider : List Char}
    (h : Relation.ReflTransGen Widens path wider) : components wider = components path := by
  induction h with
  | refl => rfl
  | tail _ hwider ih => rw [hwider.components_eq, ih]

end Footage.Path
