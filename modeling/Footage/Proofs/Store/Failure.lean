import Footage.Proofs.Store.Reachable

/-! How a deletion fails. It reads the recording and what may share its footage, and what is
read can break the contract on stored data. Otherwise it fails only where the recording is
not there, or triggers keep its row or refuse. When it succeeds, that row is gone. -/

namespace Footage

open Outcome Sql

/-- What is stored cannot be read, or the text of a statement ends inside a literal. -/
def Error.IsUnreadable : Error → Prop
  | .json | .dataIntegrity _ | .store .unavailable | .store (.openLiteral _) => True
  | _ => False

theorem Error.IsUnreadable.isNotFound_eq {e : Error} (h : e.IsUnreadable) :
    e.isNotFound = false := by
  cases e with
  | notFound what => exact h.elim
  | _ => rfl

theorem Error.IsUnreadable.endsTransaction_eq {e : Error} (h : e.IsUnreadable) :
    e.endsTransaction = false := by
  cases e with
  | store fault =>
    cases fault with
    | noFreeId | rolledBack => exact h.elim
    | _ => rfl
  | _ => rfl

/-! ### Reading columns -/

namespace Sql.Value

theorem failsAs_readInteger (v : Value) : FailsAs Error.IsUnreadable v.readInteger := by
  cases v with
  | integer n => exact failsAs_ok n
  | _ => exact failsAs_error trivial

theorem failsAs_readReal (v : Value) : FailsAs Error.IsUnreadable v.readReal := by
  cases v with
  | real x => exact failsAs_ok x
  | _ => exact failsAs_error trivial

theorem failsAs_readTime (v : Value) : FailsAs Error.IsUnreadable v.readTime := by
  refine (failsAs_readInteger v).bind fun n => ?_
  unfold Time.ofStored
  split
  · exact failsAs_ok _
  · exact failsAs_error trivial

theorem failsAs_optionally {α : Type} {read : Value → Except Error α}
    (h : ∀ v, FailsAs Error.IsUnreadable (read v)) (v : Value) :
    FailsAs Error.IsUnreadable (v.optionally read) := fun e he => h v e (optionally_error he).2

end Sql.Value

/-! ### Reading rows -/

open Value

theorem FileRow.failsAs_read (r : FileRow) : FailsAs Error.IsUnreadable r.read :=
  (failsAs_readInteger _).bind fun _ => (failsAs_readInteger _).bind fun _ =>
    (failsAs_readTime _).bind fun _ => (failsAs_optionally failsAs_readTime _).bind fun _ =>
      failsAs_ok _

theorem RecordingRow.failsAs_read (row : RecordingRow) : FailsAs Error.IsUnreadable row.read :=
  (failsAs_readTime _).bind fun _ => (failsAs_optionally failsAs_readTime _).bind fun _ =>
    (failsAs_optionally failsAs_readInteger _).bind fun _ => (failsAs_readTime _).bind fun _ =>
      (failsAs_optionally failsAs_readTime _).bind fun _ => failsAs_ok _

theorem MetaRow.failsAs_read (m : MetaRow) : FailsAs Error.IsUnreadable m.read := by
  unfold read
  split
  · exact failsAs_error trivial
  · exact (failsAs_optionally failsAs_readReal _).bind fun _ => (failsAs_readTime _).bind fun _ =>
      (failsAs_optionally failsAs_readTime _).bind fun _ => failsAs_ok _
  · exact failsAs_error trivial

namespace FragmentRow

theorem failsAs_readMeta (r : FragmentRow) : FailsAs Error.IsUnreadable r.readMeta := by
  unfold readMeta
  split
  · exact failsAs_error trivial
  · next m _ =>
    split
    · exact failsAs_error trivial
    · exact m.failsAs_read

theorem failsAs_read (w : Window) (r : FragmentRow) : FailsAs Error.IsUnreadable (r.read w) := by
  refine (r.file.failsAs_read).bind fun file => ?_
  split_ifs
  · exact failsAs_ok none
  · refine FailsAs.bind ?_ fun start => r.failsAs_readMeta.bind fun _ => failsAs_ok _
    cases Timestamp.decode file.placement.filename with
    | ok start => exact failsAs_ok start
    | error cause => exact failsAs_error trivial

end FragmentRow

theorem Sql.failsAs_accept (pieces : List Piece) : FailsAs Error.IsUnreadable (accept pieces) := by
  rcases accept_cases pieces with h | ⟨token, h⟩ <;> rw [h]
  · exact failsAs_ok ()
  · exact failsAs_error trivial

theorem Table.failsAs_select {κ ρ : Type} [Named κ] [Row ρ κ] (t : Table ρ) (query : Select κ) :
    FailsAs Error.IsUnreadable (t.select query) :=
  (failsAs_accept _).bind fun _ => failsAs_ok _

namespace Store

variable {s s' : Store} {id : ℤ} {lookback : ℕ} {now : Time}

/-! ### Reading footage -/

theorem failsAs_readFragments (w : Window) (rows : List FragmentRow) :
    FailsAs Error.IsUnreadable (readFragments w rows) := by
  induction rows with
  | nil => exact failsAs_ok []
  | cons r rows ih =>
    rw [readFragments]
    split
    · exact ih.map _
    · exact ih
    · next e _ he => exact failsAs_error (r.failsAs_read w e he)

theorem failsAs_fragmentsOf (s : Store) (r : Recording) (lookback : ℕ) (now : Time) :
    FailsAs Error.IsUnreadable (s.fragmentsOf r lookback now) :=
  (failsAs_accept _).bind fun _ => (failsAs_readFragments _ _).bind fun _ => failsAs_ok _

theorem failsAs_sharedPaths (s : Store) (r : Recording) (fragments : List Fragment) (lookback : ℕ)
    (now : Time) : FailsAs Error.IsUnreadable (s.sharedPaths r fragments lookback now) := by
  refine FailsAs.bind ?_ fun rows => (FailsAs.mapM fun row _ => ?_).bind fun _ => failsAs_ok _
  · unfold siblings
    split
    · exact s.recordings.failsAs_select _
    · exact failsAs_ok []
  · exact row.failsAs_read.bind fun q => s.failsAs_fragmentsOf q lookback now

/-! ### Deleting a recording -/

theorem recording_of_absent (h : ∀ row ∈ s.recordings.rows, row.id ≠ id) :
    s.recording id = .error (.notFound (.recording id)) := by
  have hnone : (s.recordings.rows.find? fun row => row.id = id) = none := by
    simpa [List.find?_eq_none] using h
  rw [recording_eq, hnone]

theorem recording_eq_error {e : Error} (h : s.recording id = .error e) :
    (e = .notFound (.recording id) ∧ ∀ row ∈ s.recordings.rows, row.id ≠ id) ∨ e.IsUnreadable := by
  rw [recording_eq] at h
  cases hrow : s.recordings.rows.find? fun row => row.id = id with
  | none =>
    rw [hrow] at h
    refine .inl ⟨(Except.error.inj h).symm, ?_⟩
    simpa [List.find?_eq_none] using hrow
  | some row =>
    rw [hrow] at h
    exact .inr (row.failsAs_read e h)

theorem deleteRecording_of_absent (h : ∀ row ∈ s.recordings.rows, row.id ≠ id) (lookback : ℕ)
    (now : Time) : s.deleteRecording id lookback now = .error (.notFound (.recording id)) := by
  rw [deleteRecording, recording_of_absent h]
  rfl

/-- No row goes with a recording: it is not there, or triggers spare it. -/
def Misses (s : Store) (id : ℤ) : Prop := ∃ rows, s.recordingsWithout id = .ok (0, rows)

/-- Where triggers spare none, a recording that is missed is not there. -/
theorem Misses.absent (h : s.Misses id) (hspare : ∀ t ∈ s.triggers, t.SparesNone) :
    ∀ row ∈ s.recordings.rows, row.id ≠ id := by
  obtain ⟨rows, hrows⟩ := h
  exact absent_of_recordingsWithout hspare hrows

theorem misses_of_absent (h : ∀ row ∈ s.recordings.rows, row.id ≠ id) : s.Misses id := by
  have hids : idsWhere (Query.Recordings.delete id).condition s.recordings.rows = [] := by
    refine List.eq_nil_iff_forall_not_mem.2 fun id' hid' => ?_
    obtain ⟨-, row, hrow, hid⟩ := mem_idsWhere_delete.1 hid'
    exact h row hrow hid
  exact ⟨s.recordings.rows, by rw [recordingsWithout, deleteWhere, hids]; rfl⟩

/-- A deletion that fails has missed the recording, was refused by triggers, or read what cannot be
read. -/
theorem deleteRecording_eq_error {e : Error} (h : s.deleteRecording id lookback now = .error e) :
    (e = .notFound (.recording id) ∧ s.Misses id) ∨ Trigger.Raises s.triggers e ∨
      e.IsUnreadable := by
  rcases bind_eq_error_iff.1 h with h | ⟨r, hr, h⟩
  · rcases recording_eq_error h with ⟨rfl, habsent⟩ | hunreadable
    · exact .inl ⟨rfl, misses_of_absent habsent⟩
    · exact .inr (.inr hunreadable)
  rcases bind_eq_error_iff.1 h with h | ⟨fragments, -, h⟩
  · exact .inr (.inr (s.failsAs_fragmentsOf r lookback now e h))
  rcases bind_eq_error_iff.1 h with h | ⟨shared, -, h⟩
  · exact .inr (.inr (s.failsAs_sharedPaths r fragments lookback now e h))
  rcases bind_eq_error_iff.1 h with h | ⟨t, ht, h⟩
  · exact .inr (.inr (((failsAs_accept _).bind fun _ => failsAs_ok _) e h))
  rcases bind_eq_error_iff.1 h with h | ⟨⟨count, u⟩, hu, h⟩
  · exact .inr (.inr (((failsAs_accept _).bind fun _ => failsAs_ok _) e h))
  obtain ⟨-, -, rfl⟩ := deletePaths_eq_ok_iff.1 (bind_eq_ok_iff.2 ⟨t, ht, hu⟩)
  rcases bind_eq_error_iff.1 h with h | ⟨⟨removed, v⟩, hv, h⟩
  · rw [deleteRecordingRow_eq, map_eq_error_iff] at h
    exact .inr (.inl ((s.thins_recordingsWithout id).failsAs e h))
  · obtain ⟨rows, hrows, rfl⟩ := deleteRecordingRow_eq_ok_iff.1 hv
    cases removed with
    | zero => exact .inl ⟨(Except.error.inj h).symm, rows, hrows⟩
    | succ n => cases h

theorem eq_notFound_of_deleteRecording {e : Error}
    (h : s.deleteRecording id lookback now = .error e) (hfound : e.isNotFound = true) :
    e = .notFound (.recording id) := by
  rcases deleteRecording_eq_error h with ⟨he, -⟩ | hraises | hunreadable
  · exact he
  · rw [hraises.isNotFound] at hfound
    cases hfound
  · rw [hunreadable.isNotFound_eq] at hfound
    cases hfound

theorem misses_of_deleteRecording
    (h : s.deleteRecording id lookback now = .error (.notFound (.recording id))) : s.Misses id := by
  rcases deleteRecording_eq_error h with ⟨-, hmisses⟩ | hraises | hunreadable
  · exact hmisses
  · cases hraises
  · exact hunreadable.elim

/-- Where no trigger rolls back, a deletion does not end its transaction. -/
theorem endsTransaction_of_deleteRecording {e : Error} (hnone : s.NoRollback)
    (h : s.deleteRecording id lookback now = .error e) : e.endsTransaction = false := by
  rcases deleteRecording_eq_error h with ⟨rfl, -⟩ | hraises | hunreadable
  · rfl
  · exact hraises.endsTransaction hnone
  · exact hunreadable.endsTransaction_eq

theorem deleteRecording_rows {d : Deletion} (h : s.deleteRecording id lookback now = .ok (d, s')) :
    d.recording = id ∧
      s'.recordings.rows.Sublist (s.recordings.rows.filter fun row => row.id ≠ id) := by
  obtain ⟨hid, paths, rows, hrows, rfl⟩ := deleteRecording_eq_ok h
  exact ⟨hid, hrows⟩

theorem deleteRecording_triggers {d : Deletion}
    (h : s.deleteRecording id lookback now = .ok (d, s')) : s'.triggers = s.triggers := by
  obtain ⟨-, paths, rows, -, rfl⟩ := deleteRecording_eq_ok h
  rfl

end Store

end Footage
