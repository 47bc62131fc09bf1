import Footage.Proofs.Sql.Literals
import Mathlib.Data.List.Nodup
import Mathlib.Data.List.Sort
import Mathlib.Order.Nat

/-! Which rows a selection lists. A text is equal to no other value and an integer
compares as a number, so a condition on such columns says of a row what it says
of the columns' contents. Without an order the rows stay as they stand. -/

namespace Footage.Sql

variable {κ ρ : Type}

/-! ### Comparisons -/

theorem eval_eq_text (v : Value) (s : String) :
    Comparison.eval .eq v (.text s) = some true ↔ v = .text s := by
  cases v with
  | text t => simp [Comparison.eval, Value.compare?, Comparison.accepts]
  | _ => simp [Comparison.eval, Value.compare?, Comparison.accepts]

theorem eval_integer (op : Comparison) (a b : ℤ) :
    op.eval (.integer a) (.integer b) = some (op.accepts (compare a b)) := rfl

theorem eval_eq_integer (a b : ℤ) :
    Comparison.eval .eq (.integer a) (.integer b) = some true ↔ a = b := by
  simp [eval_integer, Comparison.accepts]

theorem eval_ne_integer (a b : ℤ) :
    Comparison.eval .ne (.integer a) (.integer b) = some true ↔ a ≠ b := by
  simp [eval_integer, Comparison.accepts]

theorem eval_le_integer (a b : ℤ) :
    Comparison.eval .le (.integer a) (.integer b) = some true ↔ a ≤ b := by
  simp [eval_integer, Comparison.accepts, compare_gt_iff_gt]

theorem eval_ge_integer (a b : ℤ) :
    Comparison.eval .ge (.integer a) (.integer b) = some true ↔ b ≤ a := by
  simp [eval_integer, Comparison.accepts, compare_lt_iff_lt]

theorem eval_lt_integer (a b : ℤ) :
    Comparison.eval .lt (.integer a) (.integer b) = some true ↔ a < b := by
  simp [eval_integer, Comparison.accepts, compare_lt_iff_lt]

/-! ### Conditions -/

theorem holds_iff {condition : Condition κ} {row : κ → Value} :
    condition.holds row ↔ condition.eval row = some true := decide_eq_true_iff

theorem holds_compare {a b : Term κ} {op : Comparison} {row : κ → Value} :
    (Condition.compare a op b).holds row ↔ op.eval (a.eval row) (b.eval row) = some true :=
  holds_iff

theorem holds_isNull {c : κ} {row : κ → Value} : (Condition.isNull c).holds row ↔ row c = .null := by
  rw [holds_iff, Condition.eval]
  simp

theorem holds_equals_text {c : κ} {s t : String} {row : κ → Value} (h : row c = .text t) :
    (Condition.equals c (.text s)).holds row ↔ t = s := by
  rw [Condition.equals, holds_compare]
  simp only [Term.eval, h]
  exact (eval_eq_text _ s).trans (by rw [Value.text.injEq])

theorem holds_equals_integer {c : κ} {m n : ℤ} {row : κ → Value} (h : row c = .integer m) :
    (Condition.equals c (.integer n)).holds row ↔ m = n := by
  rw [Condition.equals, holds_compare]
  simp only [Term.eval, h]
  exact eval_eq_integer m n

theorem holds_oneOf_text {c : κ} {texts : List String} {row : κ → Value} {t : String}
    (h : row c = .text t) : (Condition.oneOf c (texts.map .text)).holds row ↔ t ∈ texts := by
  rw [holds_iff, Condition.eval]
  induction texts with
  | nil => simp
  | cons s texts ih =>
    rw [List.map_cons, List.foldr_cons, eitherTrue_eq_some_true, ih, eval_eq_text, h, List.mem_cons,
      Value.text.injEq]

/-! ### Rows -/

/-- Where no two rows share a key, the row of a key is the one that is found. -/
theorem find?_key_eq_some_iff {β : Type} [DecidableEq β] {key : ρ → β} {rows : List ρ}
    (h : (rows.map key).Nodup) {b : β} {r : ρ} :
    (rows.find? fun q => key q = b) = some r ↔ r ∈ rows ∧ key r = b := by
  constructor
  · intro hr
    exact ⟨List.mem_of_find?_eq_some hr, by simpa using List.find?_some hr⟩
  · rintro ⟨hr, rfl⟩
    have hsome : (rows.find? fun q => key q = key r).isSome := by
      rw [List.find?_isSome]
      exact ⟨r, hr, by simp⟩
    obtain ⟨q, hq⟩ := Option.isSome_iff_exists.1 hsome
    have hkey : key q = key r := by simpa using List.find?_some hq
    rw [hq, List.inj_on_of_nodup_map h (List.mem_of_find?_eq_some hq) hr hkey]

theorem mem_rows {query : Select κ} (h : query.limit = none) {value : ρ → κ → Value} {rows : List ρ}
    {r : ρ} : r ∈ query.rows value rows ↔ r ∈ rows ∧ query.condition.holds (value r) := by
  simp [Select.rows, h, List.mem_mergeSort]

/-- Without an order and a limit, rows are listed as they stand. -/
theorem rows_of_unordered {query : Select κ} (ho : query.order = []) (hl : query.limit = none)
    (value : ρ → κ → Value) (rows : List ρ) :
    query.rows value rows = rows.filter fun r => query.condition.holds (value r) := by
  simp only [Select.rows, hl, ho]
  exact List.mergeSort_of_pairwise (List.pairwise_of_forall fun _ _ => rfl)

end Footage.Sql

namespace Footage.Table

open Sql

variable {κ ρ : Type} [Named κ] [Row ρ κ]

theorem select_eq_ok_iff {t : Table ρ} {query : Select κ} {found : List ρ} :
    t.select query = .ok found ↔
      (∀ s ∈ query.condition.texts, Writable s) ∧ query.rows Row.value t.rows = found := by
  rw [← literals_select, ← accept_eq_ok_iff, select]
  cases h : Sql.accept query.pieces with
  | error e => simp [bind, Except.bind]
  | ok u => simp [bind, Except.bind, pure, Except.pure]

theorem isRefused_select {t : Table ρ} {query : Select κ}
    (h : ∃ s ∈ query.condition.texts, ¬ Writable s) : IsRefused (t.select query) := by
  rcases accept_cases query.pieces with haccept | hrefused
  · obtain ⟨s, hs, hwritable⟩ := h
    rw [accept_eq_ok_iff, literals_select] at haccept
    exact absurd (haccept s hs) hwritable
  · exact hrefused.bind _

theorem select_of_writable {t : Table ρ} {query : Select κ}
    (h : ∀ s ∈ query.condition.texts, Writable s) :
    t.select query = .ok (query.rows Row.value t.rows) := select_eq_ok_iff.2 ⟨h, rfl⟩

end Footage.Table
