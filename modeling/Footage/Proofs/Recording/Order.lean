import Footage.Proofs.Sql.Selection
import Footage.Proofs.Store.Reading
import Mathlib.Data.Prod.Lex

/-! The order in which recordings are listed: by start, and where starts are the same by
id. Rows are sorted as they are stored, where a start need not be a second. Once all
that are selected can be read, their order is that of the recordings. -/

namespace Footage

open Sql

/-! ### Sorting by two integers -/

section Sorting
variable {α κ : Type}

/-- Where elements compare as their keys do, sorting puts the keys in order. -/
theorem pairwise_mergeSort_key [LinearOrder κ] {le : α → α → Bool} {key : α → κ} {l : List α}
    (h : ∀ a ∈ l, ∀ b ∈ l, le a b = decide (key a ≤ key b)) :
    (l.mergeSort le).Pairwise fun a b => key a ≤ key b := by
  rw [← List.pairwise_map, List.map_mergeSort (s := fun x y => decide (x ≤ y)) h]
  exact List.pairwise_mergeSort' (· ≤ ·) (l.map key)

variable {c c' : κ} {a b : κ → Value} {m n i j : ℤ}

theorem isLE_compareBy_ascending (ha : a c = .integer m) (ha' : a c' = .integer i)
    (hb : b c = .integer n) (hb' : b c' = .integer j) :
    (compareBy [(c, .ascending), (c', .ascending)] a b).isLE =
      decide (toLex (m, i) ≤ toLex (n, j)) := by
  have hcompare : compareBy [(c, .ascending), (c', .ascending)] a b =
      (compare m n).then ((compare i j).then .eq) := by
    simp only [compareBy, List.foldr, ha, ha', hb, hb']
    rfl
  rw [hcompare, Bool.eq_iff_iff, decide_eq_true_iff, Prod.Lex.toLex_le_toLex]
  rcases lt_trichotomy m n with h | rfl | h
  · simp [compare_lt_iff_lt.2 h, h]
  · rcases lt_trichotomy i j with h | rfl | h
    · simp [compare_lt_iff_lt.2 h, h.le]
    · simp
    · simp [compare_gt_iff_gt.2 h, h]
  · simp [compare_gt_iff_gt.2 h, h.not_gt, h.ne']

theorem isLE_compareBy_descending (ha : a c = .integer m) (ha' : a c' = .integer i)
    (hb : b c = .integer n) (hb' : b c' = .integer j) :
    (compareBy [(c, .descending), (c', .descending)] a b).isLE =
      decide (toLex (n, j) ≤ toLex (m, i)) := by
  rw [← isLE_compareBy_ascending hb hb' ha ha']
  have hswap (v w : ℤ) : (Value.order (.integer v) (.integer w)).swap =
      Value.order (.integer w) (.integer v) := (Std.OrientedOrd.eq_swap (a := w) (b := v)).symm
  simp only [compareBy, List.foldr, Direction.apply, ha, ha', hb, hb', hswap]

end Sorting

/-! ### Recordings in order -/

namespace Recording

def key (r : Recording) : ℤ ×ₗ ℤ := toLex (r.start.seconds, r.id)

/-- A recording is listed before another one. -/
def Precedes (q r : Recording) : Prop :=
  q.start.seconds < r.start.seconds ∨ q.start.seconds = r.start.seconds ∧ q.id < r.id

theorem precedes_iff {q r : Recording} : q.Precedes r ↔ q.key < r.key := by
  rw [key, key, Prod.Lex.toLex_lt_toLex]
  rfl

instance : Std.Irrefl Precedes := ⟨fun r h => lt_irrefl r.key (precedes_iff.1 h)⟩

instance : Std.Antisymm Precedes :=
  ⟨fun _ _ h h' => absurd (precedes_iff.1 h) (lt_asymm (precedes_iff.1 h'))⟩

theorem Precedes.day_le {q r : Recording} (h : q.Precedes r) : q.date.day ≤ r.date.day := by
  have hle : q.start.seconds ≤ r.start.seconds := h.elim le_of_lt fun h => h.1.le
  exact Int.ediv_le_ediv (by decide) hle

end Recording

/-! ### Rows in order -/

namespace RecordingRow

def key (row : RecordingRow) : ℤ ×ₗ ℤ := toLex (row.startTime.integerOr 0, row.id)

theorem key_of_read {row : RecordingRow} {r : Recording} (h : row.read = .ok r) :
    row.key = r.key := by
  rw [key, Recording.key, startTime_of_read h, id_of_read h]
  rfl

theorem startTime_eq_key (row : RecordingRow) {r : Recording} (h : row.read = .ok r) :
    row.startTime = .integer row.key.1 := by
  rw [key_of_read h]
  exact startTime_of_read h

section Rows
variable {query : Select RecordingColumn} {rows : List RecordingRow} (hlimit : query.limit = none)
  (hread : ∀ row ∈ rows, query.condition.holds (Row.value row) → ∃ r, row.read = .ok r)
include hlimit hread

/-- Where rows that can be read compare by a key, they are listed by it. -/
theorem pairwise_rows_of_key {κ : Type} [LinearOrder κ] (key : RecordingRow → κ)
    (hle : ∀ a b q r, query.condition.holds (Row.value a) → query.condition.holds (Row.value b) →
      a.read = .ok q → b.read = .ok r →
      (compareBy query.order (Row.value a) (Row.value b)).isLE = decide (key a ≤ key b)) :
    (query.rows Row.value rows).Pairwise fun a b => key a ≤ key b := by
  simp only [Select.rows, hlimit]
  refine pairwise_mergeSort_key fun a ha b hb => ?_
  obtain ⟨ha, hholds⟩ := List.mem_filter.1 ha
  obtain ⟨hb, hholds'⟩ := List.mem_filter.1 hb
  obtain ⟨q, hq⟩ := hread a ha hholds
  obtain ⟨r, hr⟩ := hread b hb hholds'
  exact hle a b q r hholds hholds' hq hr

theorem pairwise_key_ascending
    (horder : query.order = [(.startTime, .ascending), (.id, .ascending)]) :
    (query.rows Row.value rows).Pairwise fun a b => a.key ≤ b.key := by
  refine pairwise_rows_of_key hlimit hread key fun a b q r _ _ hq hr => ?_
  rw [horder]
  exact isLE_compareBy_ascending (startTime_eq_key a hq) rfl (startTime_eq_key b hr) rfl

theorem pairwise_key_descending
    (horder : query.order = [(.startTime, .descending), (.id, .descending)]) :
    (query.rows Row.value rows).Pairwise fun a b => b.key ≤ a.key := by
  refine pairwise_rows_of_key hlimit hread (fun row => OrderDual.toDual row.key)
    fun a b q r _ _ hq hr => ?_
  rw [horder]
  exact isLE_compareBy_descending (startTime_eq_key a hq) rfl (startTime_eq_key b hr) rfl

/-- Rows of one start are in order when their ids are. -/
theorem pairwise_key_of_start {n : ℤ} (horder : query.order = [(.id, .ascending)])
    (hstart : ∀ (row : RecordingRow) r, query.condition.holds (Row.value row) → row.read = .ok r →
      row.startTime = .integer n) :
    (query.rows Row.value rows).Pairwise fun a b => a.key ≤ b.key := by
  refine pairwise_rows_of_key hlimit hread key fun a b q r ha hb hq hr => ?_
  have hcompare : compareBy [(RecordingColumn.id, .ascending)] (Row.value a) (Row.value b) =
      (compare a.id b.id).then .eq := rfl
  rw [horder, hcompare, key, key, hstart a q ha hq, hstart b r hb hr, Bool.eq_iff_iff,
    decide_eq_true_iff, Prod.Lex.toLex_le_toLex, Ordering.then_eq, Ordering.isLE_iff_ne_gt,
    compare_gt_iff_gt, not_lt]
  simp

end Rows

theorem pairwise_ids_rows {query : Select RecordingColumn} {rows : List RecordingRow}
    (hlimit : query.limit = none) (hids : rows.Pairwise fun q r => q.id < r.id) :
    (query.rows Row.value rows).Pairwise fun a b => a.id ≠ b.id := by
  have hperm : (query.rows Row.value rows).Perm
      (rows.filter fun row => query.condition.holds (Row.value row)) := by
    simp only [Select.rows, hlimit]
    exact List.mergeSort_perm _ _
  exact hperm.symm.pairwise ((hids.imp ne_of_lt).filter _) fun h => h.symm

theorem key_lt_of_le {a b : RecordingRow} (hle : a.key ≤ b.key) (hne : a.id ≠ b.id) :
    a.key < b.key :=
  lt_of_le_of_ne hle fun heq => hne (congrArg (fun k => (ofLex k).2) heq)

end RecordingRow

end Footage
