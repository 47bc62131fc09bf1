import Footage.Proofs.Fragment.Order
import Footage.Proofs.Outcome
import Footage.Store.Fragments
import Mathlib.Data.List.ReduceOption

/-! What each row adds to the listing of a window. The listing is the rows by name, each read on its
own, and then sorted by start. So a change of the rows that keeps names and what the rows add keeps
the listing, errors included. -/

namespace Footage

open Outcome Sql

namespace FragmentRow

/-- What reading a row comes to: one that breaks the contract is passed over. -/
def verdict (w : Window) (r : FragmentRow) : Except Error (Option Fragment) :=
  match r.read w with
  | .error (.dataIntegrity _) => .ok none
  | outcome => outcome

/-- What a row adds to the listing of a camera. -/
def contribution (camera : String) (w : Window) (r : FragmentRow) : Except Error (Option Fragment) :=
  if (Query.Files.inWindow camera w).condition.holds r.value then r.verdict w else .ok none

def nameLe (q r : FragmentRow) : Bool := (compare q.file.filename r.file.filename).isLE

theorem nameLe_iff {q r : FragmentRow} : nameLe q r ↔ q.file.filename ≤ r.file.filename :=
  isLE_compare_iff

theorem nameLe_trans (a b c : FragmentRow) (hab : a.nameLe b) (hbc : b.nameLe c) : a.nameLe c := by
  rw [nameLe_iff] at *
  exact String.le_trans hab hbc

theorem nameLe_total (a b : FragmentRow) : a.nameLe b || b.nameLe a := by
  rw [Bool.or_eq_true, nameLe_iff, nameLe_iff]
  exact String.le_total _ _

end FragmentRow

namespace Store

/-- One more result goes before the others, if it is one. -/
theorem map_reduceOption_cons {ε β : Type} (b : Option β) (x : Except ε (List (Option β))) :
    (x >>= fun bs => .ok (b :: bs)).map List.reduceOption =
      (x.map List.reduceOption).map (b.toList ++ ·) := by
  cases x <;> cases b <;> rfl

theorem readFragments_eq_mapM (w : Window) (rows : List FragmentRow) :
    readFragments w rows = (rows.mapM (FragmentRow.verdict w)).map List.reduceOption := by
  induction rows with
  | nil => rfl
  | cons r rows ih =>
    rw [readFragments, List.mapM_cons, FragmentRow.verdict]
    cases r.read w with
    | ok found =>
      simp only [ok_bind, pure_eq_ok, map_reduceOption_cons, ih]
    | error e =>
      cases e with
      | dataIntegrity fault =>
        simp only [ok_bind, pure_eq_ok, map_reduceOption_cons, ih]
        cases rows.mapM (FragmentRow.verdict w) <;> rfl
      | _ => rfl

/-- Rows that are left out add nothing. -/
theorem mapM_filter_reduceOption {ε α β : Type} (f : α → Except ε (Option β)) (p : α → Bool)
    (as : List α) : ((as.filter p).mapM f).map List.reduceOption =
      (as.mapM fun a => if p a then f a else .ok none).map List.reduceOption := by
  induction as with
  | nil => rfl
  | cons a as ih =>
    by_cases ha : p a
    · rw [List.filter_cons_of_pos ha, List.mapM_cons, List.mapM_cons, if_pos ha]
      cases f a with
      | error e => rfl
      | ok b => simp only [ok_bind, pure_eq_ok, map_reduceOption_cons, ih]
    · rw [List.filter_cons_of_neg ha, List.mapM_cons, if_neg ha, ih]
      simp only [ok_bind, pure_eq_ok, map_reduceOption_cons]
      cases as.mapM fun a => if p a then f a else .ok none <;> rfl

/-- The rows of a selection come by name. -/
theorem rows_inWindow (camera : String) (w : Window) (rows : List FragmentRow) :
    (Query.Files.inWindow camera w).rows FragmentRow.value rows =
      (rows.mergeSort FragmentRow.nameLe).filter fun r =>
        (Query.Files.inWindow camera w).condition.holds r.value := by
  have horder (q r : FragmentRow) :
      (compareBy (Query.Files.inWindow camera w).order q.value r.value).isLE = q.nameLe r := by
    change ((compare q.file.filename r.file.filename).then .eq).isLE = _
    rw [Ordering.then_eq]
    rfl
  rw [filter_mergeSort _ FragmentRow.nameLe_trans FragmentRow.nameLe_total]
  simp only [Select.rows, horder]
  rfl

/-- The listing is what the rows add, by name and then by start. -/
theorem fragmentsIn_eq (s : Store) (camera : String) (w : Window) :
    s.fragmentsIn camera w =
      (Sql.accept (Query.Files.inWindow camera w).pieces >>= fun _ =>
        ((s.fragmentRows.mergeSort FragmentRow.nameLe).mapM
          (FragmentRow.contribution camera w)).map fun found =>
            found.reduceOption.mergeSort Fragment.le) := by
  have hmap {x y : Except Error (List (Option Fragment))}
      (h : x.map List.reduceOption = y.map List.reduceOption) :
      (x.map List.reduceOption >>= fun fs => .ok (fs.mergeSort Fragment.le)) =
        y.map fun found => found.reduceOption.mergeSort Fragment.le := by
    rw [h]
    cases y <;> rfl
  simp only [fragmentsIn, rows_inWindow, readFragments_eq_mapM]
  congr 1
  funext _
  exact hmap (mapM_filter_reduceOption _ _ _)

section Sorted
variable {s : Store} {camera : String} {w : Window}
  (haccept : Sql.accept (Query.Files.inWindow camera w).pieces = .ok ())
  (hnames : s.fragmentRows.Pairwise fun q r => q.nameLe r)
include haccept hnames

/-- Nothing is sorted where rows stand by name and what they add by start. -/
theorem fragmentsIn_of_sorted (found : List (Option Fragment))
    (hfound : s.fragmentRows.mapM (FragmentRow.contribution camera w) = .ok found)
    (hstarts : found.reduceOption.Pairwise fun f g => f.le g) :
    s.fragmentsIn camera w = .ok found.reduceOption := by
  rw [fragmentsIn_eq, haccept, List.mergeSort_of_pairwise hnames, hfound]
  exact congrArg Except.ok (List.mergeSort_of_pairwise hstarts)

theorem fragmentsIn_of_error {e : Error}
    (he : s.fragmentRows.mapM (FragmentRow.contribution camera w) = .error e) :
    s.fragmentsIn camera w = .error e := by
  rw [fragmentsIn_eq, haccept, List.mergeSort_of_pairwise hnames, he]
  rfl

/-- A listing is known by what it shows. -/
theorem exists_fragmentsIn_of_shown {β : Type} (shown : List Fragment → β) {b : β}
    (h : (s.fragmentRows.mapM (FragmentRow.contribution camera w)).toOption.map (fun found =>
      (shown found.reduceOption, decide (found.reduceOption.Pairwise fun f g => f.le g))) =
        some (b, true)) :
    ∃ fs, s.fragmentsIn camera w = .ok fs ∧ shown fs = b := by
  obtain ⟨found, hfound, h⟩ := exists_of_toOption_map h
  obtain ⟨hshown, hstarts⟩ := Prod.mk.inj h
  exact ⟨_, fragmentsIn_of_sorted haccept hnames _ hfound (of_decide_eq_true hstarts), hshown⟩

end Sorted

/-- Rows that change and keep their names make the listing that what they add makes. -/
theorem fragmentsIn_of_map {s s' : Store} {camera : String} {w : Window}
    {change : FragmentRow → FragmentRow} {ρ : Fragment → Fragment}
    (hrows : s'.fragmentRows = s.fragmentRows.map change)
    (hname : ∀ r ∈ s.fragmentRows, (change r).file.filename = r.file.filename)
    (hread : ∀ r ∈ s.fragmentRows,
      (change r).contribution camera w = (r.contribution camera w).map (Option.map ρ))
    (hle : ∀ f g, Fragment.le f g = Fragment.le (ρ f) (ρ g)) :
    s'.fragmentsIn camera w = (s.fragmentsIn camera w).map (List.map ρ) := by
  have hsort : s'.fragmentRows.mergeSort FragmentRow.nameLe =
      (s.fragmentRows.mergeSort FragmentRow.nameLe).map change := by
    rw [hrows]
    refine (List.map_mergeSort fun q hq r hr => ?_).symm
    rw [FragmentRow.nameLe, FragmentRow.nameLe, hname q hq, hname r hr]
  have hfound : ∀ rows : List FragmentRow, (∀ r ∈ rows, r ∈ s.fragmentRows) →
      (rows.map change).mapM (FragmentRow.contribution camera w) =
        (rows.mapM (FragmentRow.contribution camera w)).map (List.map (Option.map ρ)) := by
    intro rows hrows
    induction rows with
    | nil => rfl
    | cons r rows ih =>
      rw [List.map_cons, List.mapM_cons, List.mapM_cons, hread r (hrows r List.mem_cons_self),
        ih fun q hq => hrows q (List.mem_cons_of_mem _ hq)]
      cases r.contribution camera w with
      | error e => rfl
      | ok found => cases rows.mapM (FragmentRow.contribution camera w) <;> rfl
  rw [fragmentsIn_eq, fragmentsIn_eq, hsort, hfound _ fun r hr => List.mem_mergeSort.1 hr]
  cases Sql.accept (Query.Files.inWindow camera w).pieces with
  | error e => rfl
  | ok u =>
    simp only [ok_bind]
    cases (s.fragmentRows.mergeSort FragmentRow.nameLe).mapM (FragmentRow.contribution camera w) with
    | error e => rfl
    | ok found =>
      simp only [Except.map, List.reduceOption_map]
      exact congrArg Except.ok (List.map_mergeSort fun f _ g _ => hle f g).symm

end Store

end Footage
