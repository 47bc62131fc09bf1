import Footage.Proofs.Store.Contribution
import Footage.Proofs.Store.Resolution
import Footage.Proofs.Window.Overlap

/-! The listing of a window from that of a wider one. The query of the narrower window
selects fewer rows, and a row that both select is read alike. So the narrower listing
is the wider one, less what the narrower window does not admit, and in the same order. -/

namespace Footage

open Outcome Sql

/-! ### Fragments -/

namespace Fragment

/-- A fragment of another window as one of this window, if it is one. -/
def within? (w : Window) (f : Fragment) : Option Fragment :=
  (w.admits f.start f.metadata.duration).map fun inclusion => { f with inclusion }

/-- A fragment with the reason why it belongs to a window, if there is one. -/
def retagged (w : Window) (f : Fragment) : Fragment :=
  { f with inclusion := (w.admits f.start f.metadata.duration).getD f.inclusion }

theorem filterMap_within? (w : Window) (fs : List Fragment) :
    fs.filterMap (within? w) = (fs.filter fun f => (f.within? w).isSome).map (retagged w) := by
  induction fs with
  | nil => rfl
  | cons f fs ih =>
    cases hf : w.admits f.start f.metadata.duration with
    | none =>
      have hnone : f.within? w = none := by rw [within?, hf, Option.map_none]
      rw [List.filterMap_cons_none hnone, List.filter_cons_of_neg (by simp [hnone]), ih]
    | some why =>
      have hsome : f.within? w = some (f.retagged w) := by
        rw [within?, retagged, hf, Option.map_some, Option.getD_some]
      rw [List.filterMap_cons_some hsome, List.filter_cons_of_pos (by simp [hsome]), List.map_cons, ih]

/-- The files and metadata of a selection stand in the order of those it is taken from. -/
theorem sublist_filterMap_within? (w : Window) (fs : List Fragment) :
    ((fs.filterMap (within? w)).map fun f => (f.file, f.metadata)).Sublist
      (fs.map fun f => (f.file, f.metadata)) := by
  rw [filterMap_within?, List.map_map]
  exact List.filter_sublist.map _

theorem mergeSort_filterMap_within? (w : Window) (fs : List Fragment) :
    (fs.filterMap (within? w)).mergeSort Fragment.le =
      (fs.mergeSort Fragment.le).filterMap (within? w) := by
  have hle (f g : Fragment) : f.le g = (f.retagged w).le (g.retagged w) := rfl
  rw [filterMap_within?, filterMap_within?, filter_mergeSort _ le_trans le_total]
  exact (List.map_mergeSort fun f _ g _ => hle f g).symm

end Fragment

/-! ### The query -/

namespace Sql

theorem eval_ge_text (s t : String) :
    Comparison.eval .ge (.text s) (.text t) = some true ↔ t ≤ s := by
  have hcompare : compare s t = .lt ↔ s < t := compareOfLessAndEq_eq_lt
  simp only [Comparison.eval, Value.compare?, Comparison.accepts, Option.map_some, Option.some.injEq,
    decide_eq_true_eq, ne_eq, hcompare, String.not_lt]

theorem eval_lt_text (s t : String) :
    Comparison.eval .lt (.text s) (.text t) = some true ↔ s < t := by
  have hcompare : compare s t = .lt ↔ s < t := compareOfLessAndEq_eq_lt
  simp only [Comparison.eval, Value.compare?, Comparison.accepts, Option.map_some, Option.some.injEq,
    decide_eq_true_eq, hcompare]

theorem eval_le_text (s t : String) :
    Comparison.eval .le (.text s) (.text t) = some true ↔ s ≤ t := by
  rw [← isLE_compare_iff]
  simp only [Comparison.eval, Value.compare?, Comparison.accepts, Option.map_some, Option.some.injEq]
  cases compare s t <;> simp

/-- What is not below an integer is not below a smaller one. -/
theorem eval_ge_integer_of_le {v : Value} {m n : ℤ} (hle : m ≤ n)
    (h : Comparison.eval .ge v (.integer n) = some true) :
    Comparison.eval .ge v (.integer m) = some true := by
  cases v with
  | null => cases h
  | integer a =>
    rw [eval_ge_integer] at h ⊢
    exact hle.trans h
  | text s => rfl
  | real x =>
    cases x with
    | nan => cases h
    | number s r =>
      simp only [Comparison.eval, Value.compare?, Value.compareToReal] at h ⊢
      by_cases hr : r.val = Binary64.infinityRank
      · simpa only [if_pos hr] using h
      · have hunits : m * (Binary64.unitsOfOne : ℤ) ≤ n * Binary64.unitsOfOne :=
          Int.mul_le_mul_of_nonneg_right hle (Int.natCast_nonneg _)
        simp only [if_neg hr, Option.map_some, Comparison.accepts, Option.some.injEq,
          decide_eq_true_eq, Ne, Ordering.swap_eq_lt, compare_gt_iff_gt] at h ⊢
        omega

end Sql

theorem Timestamp.encode_le_encode {t u : Timestamp} (h : t.seconds ≤ u.seconds) :
    t.encode ≤ u.encode := by
  rcases h.lt_or_eq with hlt | heq
  · exact Std.le_of_lt (encode_lt_encode hlt)
  · have hencode : t.encode = u.encode := by rw [encode, encode, digits, digits, heq]
    exact hencode ▸ String.le_refl _

namespace Query.Files

/-- The test on names and lengths, from what the name of a row starts with. -/
theorem holds_startTest_iff {w : Window} {r : FragmentRow} {name : String}
    (hname : startText.eval r.value = .text name) :
    (startTest w).holds r.value ↔
      (w.start.encode ≤ name ∧ name ≤ w.stop.encode) ∨
      (name < w.start.encode ∧
        Comparison.eval .ge
          ((Term.sum (.asInteger startText) (.column (.metadata .duration))).eval r.value)
          (.integer w.start.seconds) = some true) := by
  have hbetween : (Condition.between startText (.text w.start.encode) (.text w.stop.encode)).holds
      r.value ↔ w.start.encode ≤ name ∧ name ≤ w.stop.encode := by
    rw [holds_iff, Condition.eval, hname, bothTrue_eq_some_true, eval_ge_text, eval_le_text]
  have hbefore : (Condition.compare startText .lt (.text w.start.encode)).holds r.value ↔
      name < w.start.encode := by
    rw [holds_compare, hname]
    exact eval_lt_text name _
  rw [startTest, Condition.holds_or, Bool.or_eq_true, hbetween, Condition.holds_and,
    Bool.and_eq_true, hbefore, holds_compare]
  rfl

theorem holds_startTest_of_within {w w' : Window} (hw : w.Within w') {r : FragmentRow}
    (h : (startTest w).holds r.value) : (startTest w').holds r.value := by
  obtain ⟨name, hname⟩ : ∃ name, startText.eval r.value = .text name := ⟨_, rfl⟩
  have hstart := Timestamp.encode_le_encode hw.start
  have hordered := Timestamp.encode_le_encode hw.ordered
  have hstop := Timestamp.encode_le_encode hw.stop
  rw [holds_startTest_iff hname] at h ⊢
  rcases h with ⟨hlow, hhigh⟩ | ⟨hbefore, hreach⟩
  · exact .inl ⟨String.le_trans hstart hlow, String.le_trans hhigh hstop⟩
  -- the start of the wider window may have passed the name
  · by_cases hafter : w'.start.encode ≤ name
    · exact .inl ⟨hafter, String.le_trans (Std.le_of_lt hbefore) (String.le_trans hordered hstop)⟩
    · exact .inr ⟨String.not_le.1 hafter, eval_ge_integer_of_le (Int.ofNat_le.2 hw.start) hreach⟩

theorem holds_inWindow_of_within {w w' : Window} (hw : w.Within w') {camera : String}
    {r : FragmentRow} (h : (inWindow camera w).condition.holds r.value) :
    (inWindow camera w').condition.holds r.value := by
  rw [holds_inWindow] at h ⊢
  exact h.imp_right (holds_startTest_of_within hw)

end Query.Files

/-! ### Rows -/

namespace FragmentRow

variable {w w' : Window} {r : FragmentRow} {camera : String}

/-- A row that is read as a fragment of a window passes the window's test. -/
theorem holds_startTest_of_read {f : Fragment} (h : r.read w = .ok (some f)) :
    (Query.Files.startTest w).holds r.value := by
  obtain ⟨-, -, hname, ⟨m, hm, hmeta⟩, hin⟩ := read_eq_some_iff.1 h
  refine Query.Files.holds_startTest_of_admits hname (d := f.metadata.duration) ?_
    (Window.admits_eq_some_iff.2 hin)
  have hvalue : r.value (.metadata .duration) = m.duration := by
    rw [FragmentRow.value, hm]
    rfl
  rw [hvalue, (MetaRow.read_eq_ok_iff.1 hmeta).2.1]

theorem admits_of_within (hw : w.Within w') (file : File) (x : FileMeta) (t : Timestamp) :
    ((w.admits t x.duration).map fun why => (⟨file, x, t, why⟩ : Fragment)) =
      ((w'.admits t x.duration).map fun why => (⟨file, x, t, why⟩ : Fragment)).bind
        (Fragment.within? w) := by
  cases hwide : w'.admits t x.duration with
  | some why => rfl
  | none =>
    cases hnarrow : w.admits t x.duration with
    | none => rfl
    | some why =>
      obtain ⟨why', hin⟩ := (Window.admits_eq_some_iff.1 hnarrow).widen hw
      rw [Window.admits_eq_some_iff.2 hin] at hwide
      cases hwide

theorem read_of_within (hw : w.Within w') (r : FragmentRow) :
    r.read w = (r.read w').map (·.bind (Fragment.within? w)) := by
  unfold read
  cases r.file.read with
  | error e => rfl
  | ok file =>
    simp only [ok_bind]
    split_ifs
    · rfl
    · cases (Timestamp.decode file.placement.filename).mapError fun cause =>
        Error.dataIntegrity (.undecodableName file.placement.path cause) with
      | error e => rfl
      | ok t =>
        cases r.readMeta with
        | error e => rfl
        | ok x => exact congrArg Except.ok (admits_of_within hw file x t)

theorem verdict_of_within (hw : w.Within w') (r : FragmentRow) :
    r.verdict w = (r.verdict w').map (·.bind (Fragment.within? w)) := by
  unfold verdict
  rw [read_of_within hw]
  cases r.read w' with
  | ok found => rfl
  | error e => cases e <;> rfl

theorem verdict_eq_some_iff {f : Fragment} : r.verdict w = .ok (some f) ↔ r.read w = .ok (some f) := by
  unfold verdict
  split
  · next fault h => simp [h]
  · rfl

/-- What a row adds to the listing of a window that lies within another one. -/
theorem contribution_of_within (hw : w.Within w') {found : Option Fragment}
    (h : r.contribution camera w' = .ok found) :
    r.contribution camera w = .ok (found.bind (Fragment.within? w)) := by
  unfold contribution at h ⊢
  by_cases hwide : (Query.Files.inWindow camera w').condition.holds r.value
  · rw [if_pos hwide] at h
    have hverdict : r.verdict w = .ok (found.bind (Fragment.within? w)) := by
      rw [verdict_of_within hw, h]
      rfl
    split_ifs with hnarrow
    · exact hverdict
    · cases hg : found.bind (Fragment.within? w) with
      | none => rfl
      | some g =>
        -- what the window admits its query selects
        rw [hg, verdict_eq_some_iff] at hverdict
        rw [Query.Files.holds_inWindow] at hwide hnarrow
        exact absurd ⟨hwide.1, holds_startTest_of_read hverdict⟩ hnarrow
  · rw [if_neg hwide] at h
    obtain rfl := Except.ok.inj h
    rw [if_neg fun hnarrow => hwide (Query.Files.holds_inWindow_of_within hw hnarrow)]
    rfl

end FragmentRow

/-! ### Listings -/

namespace Store

theorem mapM_of_within {w w' : Window} (hw : w.Within w') {camera : String} {rows : List FragmentRow}
    {found : List (Option Fragment)} (h : rows.mapM (FragmentRow.contribution camera w') = .ok found) :
    rows.mapM (FragmentRow.contribution camera w) =
      .ok (found.map (·.bind (Fragment.within? w))) := by
  have hrow : ∀ r ∈ rows, r.contribution camera w =
      (r.contribution camera w').map (·.bind (Fragment.within? w)) := by
    intro r hr
    obtain ⟨x, -, hx⟩ := exists_of_mapM h hr
    rw [hx, FragmentRow.contribution_of_within hw hx]
    rfl
  rw [mapM_eq_ok_iff] at h ⊢
  rw [List.map_congr_left hrow, ← Function.comp_def (Except.map _), ← List.map_map, h, List.map_map,
    List.map_map]
  rfl

theorem reduceOption_map_bind {α β : Type} (f : α → Option β) (xs : List (Option α)) :
    (xs.map (·.bind f)).reduceOption = xs.reduceOption.filterMap f := by
  simp only [List.reduceOption, List.filterMap_map, List.filterMap_filterMap]
  rfl

/-- Where the listing of a window is given, so is that of a window within it: the fragments that it
admits, in the same order. -/
theorem fragmentsIn_of_within {s : Store} {camera : String} {w w' : Window} (hw : w.Within w')
    {fs : List Fragment} (h : s.fragmentsIn camera w' = .ok fs) :
    s.fragmentsIn camera w = .ok (fs.filterMap (Fragment.within? w)) := by
  rw [fragmentsIn_eq] at h ⊢
  obtain ⟨u, haccept, h⟩ := bind_eq_ok_iff.1 h
  obtain ⟨found, hfound, rfl⟩ := map_eq_ok_iff.1 h
  rw [(accept_inWindow_iff camera w).2 ((accept_inWindow_iff camera w').1 haccept),
    mapM_of_within hw hfound, ok_bind]
  refine congrArg Except.ok ?_
  beta_reduce
  rw [reduceOption_map_bind, Fragment.mergeSort_filterMap_within?]

end Store

end Footage
