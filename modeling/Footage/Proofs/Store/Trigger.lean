import Footage.Proofs.Outcome
import Footage.Store.Trigger
import Mathlib.Data.Int.Notation
import Mathlib.Data.List.Basic

/-! What a deletion of rows can do, whatever triggers it sets off. Rows only go, and it fails only with
what a trigger raises or for the depth of triggers. A row that it counts has gone. One that it does not
count was not there, or a trigger before it passed over it or took it away. -/

namespace Footage

open Outcome Sql

variable {α β : Type} {P : Error → Prop} {triggers : List Trigger} {rows rows' : List RecordingRow}

/-! ### Rows only go -/

/-- An outcome that leaves some of the rows only, or fails with an error of one kind. -/
structure Thins (P : Error → Prop) (rows : List RecordingRow)
    (x : Except Error (α × List RecordingRow)) : Prop where
  sublist {a : α} {rows' : List RecordingRow} : x = .ok (a, rows') → rows'.Sublist rows
  failsAs : FailsAs P x

theorem thins_ok (h : rows'.Sublist rows) (a : α) : Thins P rows (.ok (a, rows')) where
  sublist hok := by
    cases hok
    exact h
  failsAs := failsAs_ok _

theorem thins_error {e : Error} (h : P e) :
    Thins P rows (.error e : Except Error (α × List RecordingRow)) where
  sublist hok := by cases hok
  failsAs := failsAs_error h

theorem Thins.bind {x : Except Error (α × List RecordingRow)}
    {f : α × List RecordingRow → Except Error (β × List RecordingRow)} (hx : Thins P rows x)
    (hf : ∀ a rows', Thins P rows' (f (a, rows'))) : Thins P rows (x >>= f) where
  sublist h := by
    obtain ⟨⟨a, rows'⟩, ha, h⟩ := bind_eq_ok_iff.1 h
    exact ((hf a rows').sublist h).trans (hx.sublist ha)
  failsAs := hx.failsAs.bind fun p => (hf p.1 p.2).failsAs

theorem Thins.of_sublist {x : Except Error (α × List RecordingRow)} (hx : Thins P rows' x)
    (h : rows'.Sublist rows) : Thins P rows x :=
  ⟨fun hok => (hx.sublist hok).trans h, hx.failsAs⟩

theorem thins_inTurn {works : List Work} (h : ∀ w ∈ works, ∀ rows, Thins P rows (w rows))
    (rows : List RecordingRow) : Thins P rows (Work.inTurn works rows) := by
  induction works generalizing rows with
  | nil => exact thins_ok (.refl rows) true
  | cons w works ih =>
    refine (h w List.mem_cons_self rows).bind fun done rows => ?_
    cases done with
    | false => exact thins_ok (.refl rows) false
    | true => exact ih (fun w hw => h w (List.mem_cons_of_mem _ hw)) rows

section Statements
variable {deleteRow : ℤ → Work} (h : ∀ id rows, Thins P rows (deleteRow id rows))
include h

theorem thins_deleteIds (ids : List ℤ) (rows : List RecordingRow) :
    Thins P rows (deleteIds deleteRow ids rows) := by
  induction ids generalizing rows with
  | nil => exact thins_ok (.refl rows) 0
  | cons id ids ih =>
    exact (h id rows).bind fun gone rows => (ih rows).bind fun n rows => thins_ok (.refl rows) _

theorem thins_deleteWhere (condition : Condition RecordingColumn) (rows : List RecordingRow) :
    Thins P rows (deleteWhere deleteRow condition rows) :=
  thins_deleteIds h _ rows

end Statements

/-! ### What triggers raise -/

namespace Trigger

/-- The errors with which a deletion that sets off triggers can fail. -/
inductive Raises (triggers : List Trigger) : Error → Prop where
  | abort {t : Trigger} {message : String} : t ∈ triggers → .abort message ∈ t.reactions →
    Raises triggers (.store (.raised message))
  | rollback {t : Trigger} {message : String} : t ∈ triggers → .rollback message ∈ t.reactions →
    Raises triggers (.store (.rolledBack message))
  | depth : Raises triggers (.store .triggerDepth)

theorem Raises.isNotFound {e : Error} (h : Raises triggers e) : e.isNotFound = false := by
  cases h <;> rfl

def RollsBack (t : Trigger) : Prop := ∃ message, .rollback message ∈ t.reactions

/-- Only a trigger that rolls back ends the transaction. -/
theorem Raises.endsTransaction {e : Error} (h : Raises triggers e)
    (hnone : ∀ t ∈ triggers, ¬ t.RollsBack) : e.endsTransaction = false := by
  cases h with
  | rollback ht hmessage => exact absurd ⟨_, hmessage⟩ (hnone _ ht)
  | abort | depth => rfl

theorem not_rollsBack_block : ¬ block.RollsBack := by
  simp [RollsBack, block]

theorem not_rollsBack_pair (first second : ℤ) : ¬ (pair first second).RollsBack := by
  simp [RollsBack, pair]

theorem thins_work {deleteRow : ℤ → Work}
    (h : ∀ id rows, Thins (Raises triggers) rows (deleteRow id rows)) {t : Trigger} (ht : t ∈ triggers)
    (row : RecordingRow) (rows : List RecordingRow) :
    Thins (Raises triggers) rows (t.work deleteRow row rows) := by
  unfold work
  split_ifs
  · refine thins_inTurn (fun w hw rows => ?_) rows
    obtain ⟨reaction, hreaction, rfl⟩ := List.mem_map.1 hw
    cases reaction with
    | abort message => exact thins_error (.abort ht hreaction)
    | rollback message => exact thins_error (.rollback ht hreaction)
    | ignore => exact thins_ok (.refl rows) false
    | delete condition =>
      exact (thins_deleteWhere h condition rows).bind fun _ rows => thins_ok (.refl rows) true
  · exact thins_ok (.refl rows) true

section Rows
variable {works : Trigger → RecordingRow → Work}

/-- A deletion finds no row, or some trigger before the row keeps it from going, or the row goes. -/
theorem deleteRowBy_cases {id : ℤ} {gone : Bool}
    (h : deleteRowBy works triggers id rows = .ok (gone, rows')) :
    (gone = false ∧ rows' = rows ∧ ∀ r ∈ rows, r.id ≠ id) ∨
    ∃ row goesOn left, setOff works triggers .before row rows = .ok (goesOn, left) ∧
      ((gone = false ∧ rows' = left ∧ (goesOn = true → ∀ r ∈ left, r.id ≠ id)) ∨
        gone = true ∧ ∃ done, setOff works triggers .after row (left.filter fun r => r.id ≠ id) =
          .ok (done, rows')) := by
  unfold deleteRowBy at h
  cases hfind : rows.find? fun r => r.id = id with
  | none =>
    rw [hfind] at h
    cases h
    exact .inl ⟨rfl, rfl, by simpa using hfind⟩
  | some row =>
    rw [hfind] at h
    obtain ⟨⟨goesOn, left⟩, hbefore, h⟩ := bind_eq_ok_iff.1 h
    refine .inr ⟨row, goesOn, left, hbefore, ?_⟩
    dsimp only at h
    split_ifs at h with hgoes
    · obtain ⟨⟨done, rest⟩, hafter, hrest⟩ := bind_eq_ok_iff.1 h
      cases hrest
      exact .inr ⟨rfl, done, hafter⟩
    · cases h
      exact .inl ⟨rfl, rfl, fun hon => by simpa [hon] using hgoes⟩

variable (h : ∀ t ∈ triggers, ∀ row rows, Thins P rows (works t row rows))
include h

theorem thins_setOff (timing : Timing) (row : RecordingRow) (rows : List RecordingRow) :
    Thins P rows (setOff works triggers timing row rows) := by
  refine thins_inTurn (fun w hw rows => ?_) rows
  obtain ⟨t, ht, rfl⟩ := List.mem_map.1 hw
  exact h t (List.mem_filter.1 ht).1 row rows

theorem thins_deleteRowBy (id : ℤ) (rows : List RecordingRow) :
    Thins P rows (deleteRowBy works triggers id rows) := by
  unfold deleteRowBy
  cases rows.find? fun r => r.id = id with
  | none => exact thins_ok (.refl rows) false
  | some row =>
    refine (thins_setOff h .before row rows).bind fun goesOn rows => ?_
    dsimp only
    split_ifs
    · refine Thins.bind (.of_sublist (thins_setOff h .after row _) List.filter_sublist) ?_
      exact fun _ rows => thins_ok (.refl rows) true
    · exact thins_ok (.refl rows) false

/-- A row that is deleted has gone, whatever the triggers after it do. -/
theorem sublist_of_deleteRowBy {id : ℤ}
    (hgone : deleteRowBy works triggers id rows = .ok (true, rows')) :
    rows'.Sublist (rows.filter fun r => r.id ≠ id) := by
  rcases deleteRowBy_cases hgone with ⟨⟨⟩, -⟩ | ⟨row, goesOn, left, hbefore, ⟨⟨⟩, -⟩ | ⟨-, done, hafter⟩⟩
  exact ((thins_setOff h .after row _).sublist hafter).trans
    (((thins_setOff h .before row rows).sublist hbefore).filter _)

end Rows

/-- The triggers of each level only take rows away, as those of the level below do. -/
theorem thins_deleteRow (triggers : List Trigger) (levels : ℕ) (atWork : List Trigger) (id : ℤ)
    (rows : List RecordingRow) :
    Thins (Raises triggers) rows (deleteRow triggers levels atWork id rows) := by
  induction levels generalizing atWork id rows with
  | zero => exact thins_deleteRowBy (fun _ _ _ _ => thins_error .depth) id rows
  | succ levels ih =>
    exact thins_deleteRowBy
      (fun t ht => thins_work (ih (t :: atWork)) (List.mem_filter.1 ht).1) id rows

theorem sublist_of_deleteRow {levels : ℕ} {atWork : List Trigger} {id : ℤ}
    (h : deleteRow triggers levels atWork id rows = .ok (true, rows')) :
    rows'.Sublist (rows.filter fun r => r.id ≠ id) := by
  cases levels with
  | zero => exact sublist_of_deleteRowBy (P := Raises triggers) (fun _ _ _ _ => thins_error .depth) h
  | succ levels =>
    exact sublist_of_deleteRowBy (fun t ht =>
      thins_work (thins_deleteRow triggers levels (t :: atWork)) (List.mem_filter.1 ht).1) h

end Trigger

/-! ### Triggers that spare no row -/

/-- Work that fails or does nothing. -/
def Work.IsIdle (w : Work) : Prop :=
  ∀ {rows done rows'}, w rows = .ok (done, rows') → done = true ∧ rows' = rows

theorem Work.isIdle_inTurn {works : List Work} (h : ∀ w ∈ works, w.IsIdle) :
    IsIdle (inTurn works) := by
  induction works with
  | nil =>
    rintro rows done rows' ⟨⟩
    exact ⟨rfl, rfl⟩
  | cons w works ih =>
    intro rows done rows' hok
    obtain ⟨⟨goesOn, left⟩, hw, hrest⟩ := bind_eq_ok_iff.1 hok
    obtain ⟨rfl, rfl⟩ := h w List.mem_cons_self hw
    exact ih (fun w hw => h w (List.mem_cons_of_mem _ hw)) hrest

/-- Whether a statement refuses the deletion. -/
def Reaction.refuses : Reaction → Bool
  | .abort _ | .rollback _ => true
  | .ignore | .delete _ => false

namespace Trigger

/-- A trigger that lets rows go or refuses the whole deletion, as far as it comes before them. -/
def SparesNone (t : Trigger) : Prop := t.timing = .before → ∀ reaction ∈ t.reactions, reaction.refuses

theorem SparesNone.isIdle_work {t : Trigger} (ht : t.SparesNone) (htiming : t.timing = .before)
    (deleteRow : ℤ → Work) (row : RecordingRow) : (t.work deleteRow row).IsIdle := by
  intro rows done rows' hok
  unfold work at hok
  split_ifs at hok
  · refine Work.isIdle_inTurn (fun w hw => ?_) hok
    obtain ⟨reaction, hreaction, rfl⟩ := List.mem_map.1 hw
    intro rows done rows' hok
    cases reaction with
    | abort | rollback => cases hok
    | ignore | delete => cases ht htiming _ hreaction
  · cases hok
    exact ⟨rfl, rfl⟩

theorem absent_of_deleteRowBy {works : Trigger → RecordingRow → Work} {id : ℤ}
    (hidle : ∀ t ∈ triggers, t.timing = .before → ∀ row, (works t row).IsIdle)
    (h : deleteRowBy works triggers id rows = .ok (false, rows')) : ∀ r ∈ rows, r.id ≠ id := by
  rcases deleteRowBy_cases h with ⟨-, -, habsent⟩ | ⟨row, goesOn, left, hbefore, hleft⟩
  · exact habsent
  · have hbefore : goesOn = true ∧ left = rows := by
      refine Work.isIdle_inTurn (fun w hw => ?_) hbefore
      obtain ⟨t, ht, rfl⟩ := List.mem_map.1 hw
      obtain ⟨ht, htiming⟩ := List.mem_filter.1 ht
      exact hidle t ht (by simpa using htiming) row
    obtain ⟨rfl, rfl⟩ := hbefore
    rcases hleft with ⟨-, -, habsent⟩ | ⟨⟨⟩, -⟩
    exact habsent rfl

/-- Where triggers spare none, only a row that is not there is not deleted. -/
theorem absent_of_deleteRow {levels : ℕ} {atWork : List Trigger} {id : ℤ}
    (hspare : ∀ t ∈ triggers, t.SparesNone)
    (h : deleteRow triggers levels atWork id rows = .ok (false, rows')) : ∀ r ∈ rows, r.id ≠ id := by
  cases levels with
  | zero =>
    refine absent_of_deleteRowBy (fun t _ _ row => ?_) h
    rintro rows done rows' ⟨⟩
  | succ levels =>
    exact absent_of_deleteRowBy (fun t ht htiming =>
      (hspare t (List.mem_filter.1 ht).1).isIdle_work htiming _) h

/-! ### No triggers -/

/-- Without triggers the row goes, and no other one. -/
theorem deleteRow_nil (levels : ℕ) (atWork : List Trigger) (id : ℤ) (rows : List RecordingRow) :
    deleteRow [] levels atWork id rows =
      .ok (rows.any fun r => r.id = id, rows.filter fun r => r.id ≠ id) := by
  have hdelete : deleteRow [] levels atWork id rows =
      deleteRowBy (fun _ _ => Work.inTurn []) [] id rows := by
    cases levels <;> rfl
  rw [hdelete, deleteRowBy]
  cases hfind : rows.find? fun r => r.id = id with
  | none =>
    have habsent : ∀ r ∈ rows, r.id ≠ id := by simpa using hfind
    have hany : (rows.any fun r => r.id = id) = false := by simpa using habsent
    rw [hany, List.filter_eq_self.2 (by simpa using habsent)]
  | some row =>
    have hany : (rows.any fun r => r.id = id) = true :=
      List.any_eq_true.2 ⟨row, List.mem_of_find?_eq_some hfind, by simpa using List.find?_some hfind⟩
    simp only [setOff, List.filter_nil, List.map_nil, Work.inTurn, ok_bind, hany, Bool.and_self,
      if_true, pure_eq_ok]

end Trigger

/-! ### Rows by their ids -/

section Counts
variable {deleteRow : ℤ → Work} {ids : List ℤ} {n : ℕ}

/-- If a deletion counts rows, one of them has gone. -/
theorem sublist_of_deleteIds (hthins : ∀ id rows, Thins P rows (deleteRow id rows))
    (hgone : ∀ {id rows rows'}, deleteRow id rows = .ok (true, rows') →
      rows'.Sublist (rows.filter fun r => r.id ≠ id))
    (h : deleteIds deleteRow ids rows = .ok (n, rows')) (hn : n ≠ 0) :
    ∃ id ∈ ids, rows'.Sublist (rows.filter fun r => r.id ≠ id) := by
  induction ids generalizing rows n with
  | nil =>
    cases h
    exact absurd rfl hn
  | cons id ids ih =>
    obtain ⟨⟨gone, left⟩, hleft, h⟩ := bind_eq_ok_iff.1 h
    obtain ⟨⟨m, rest⟩, hrest, h⟩ := bind_eq_ok_iff.1 h
    cases h
    cases gone with
    | true =>
      exact ⟨id, List.mem_cons_self, ((thins_deleteIds hthins ids left).sublist hrest).trans (hgone hleft)⟩
    | false =>
      obtain ⟨id', hid', hsublist⟩ := ih hrest (by simpa using hn)
      exact ⟨id', List.mem_cons_of_mem _ hid',
        hsublist.trans (((hthins id rows).sublist hleft).filter _)⟩

/-- If it counts none, then not the first one either. -/
theorem deleteRow_of_deleteIds {id : ℤ} (h : deleteIds deleteRow (id :: ids) rows = .ok (0, rows')) :
    ∃ left, deleteRow id rows = .ok (false, left) := by
  obtain ⟨⟨gone, left⟩, hleft, h⟩ := bind_eq_ok_iff.1 h
  obtain ⟨⟨m, rest⟩, -, h⟩ := bind_eq_ok_iff.1 h
  cases gone with
  | true => simp at h
  | false => exact ⟨left, hleft⟩

theorem deleteIds_of_untriggered (levels : ℕ) (atWork : List Trigger) (ids : List ℤ)
    (rows : List RecordingRow) :
    ∃ n, deleteIds (Trigger.deleteRow [] levels atWork) ids rows =
        .ok (n, rows.filter fun r => r.id ∉ ids) ∧ (n = 0 → ∀ r ∈ rows, r.id ∉ ids) := by
  induction ids generalizing rows with
  | nil => exact ⟨0, by simp [deleteIds], by simp⟩
  | cons id ids ih =>
    obtain ⟨n, hrest, hnone⟩ := ih (rows.filter fun r => r.id ≠ id)
    refine ⟨(rows.any fun r => r.id = id).toNat + n, ?_, fun hsum r hr => ?_⟩
    · rw [deleteIds, Trigger.deleteRow_nil, ok_bind]
      dsimp only
      rw [hrest, List.filter_filter]
      simp [Bool.and_comm]
    · have habsent : ∀ r ∈ rows, r.id ≠ id := by simpa using (Nat.add_eq_zero_iff.1 hsum).1
      have hrest := hnone (Nat.add_eq_zero_iff.1 hsum).2 r
        (List.mem_filter.2 ⟨hr, by simpa using habsent r hr⟩)
      simp [habsent r hr, hrest]

end Counts

end Footage
