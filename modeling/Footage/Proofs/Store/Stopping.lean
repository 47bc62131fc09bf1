import Footage.Proofs.Recording.Filename
import Footage.Proofs.Store.Failure
import Footage.Proofs.Store.Listing
import Footage.Proofs.Store.Turns

/-! Deleting the recordings that a scope selects, each whole or not at all. The deletion
stops at the first one that fails, and leaves the store as the earlier ones did. A
recording that an earlier deletion took along, or that triggers spare, is passed over,
unless the scope asks for it by name. -/

namespace Footage

open Outcome Sql

/-- A scope of a camera selects a stored recording. -/
def Scope.Selects (camera : String) (row : RecordingRow) : Scope → Prop
  | .camera => row.camera = camera
  | .date d => row.camera = camera ∧ ∃ n, row.startTime = .integer n ∧ n / 86400 = d.day
  | .recording d filename =>
    row.camera = camera ∧ ∃ t, startOfFilename filename = .ok t ∧
      row.startTime = .integer t.seconds ∧ (t.seconds : ℤ) / 86400 = d.day

namespace Store

variable {s s' : Store} {camera : String} {scope : Scope} {id : ℤ} {ids : List ℤ} {lookback : ℕ}
  {now : Time} {byName : Bool}

/-! ### Targets -/

section ByStart
variable {t : Timestamp} {row : RecordingRow}

theorem holds_byStart :
    (Query.Recordings.byStart camera t.seconds).condition.holds (Row.value row) ↔
      row.camera = camera ∧ (Condition.equals RecordingColumn.startTime
        (.integer t.seconds)).holds (Row.value row) := by
  have hsplit : (Query.Recordings.byStart camera t.seconds).condition =
      .and (Query.Recordings.ofCamera camera none) (.equals .startTime (.integer t.seconds)) := rfl
  rw [hsplit, Condition.holds_and, Bool.and_eq_true, holds_ofCamera]

theorem holds_byStart_of_integer {n : ℤ} (hstart : row.startTime = .integer n) :
    (Query.Recordings.byStart camera t.seconds).condition.holds (Row.value row) ↔
      row.camera = camera ∧ n = t.seconds := by
  have hvalue : Row.value row RecordingColumn.startTime = .integer n := hstart
  rw [holds_byStart, holds_equals_integer hvalue]

/-- What is read of the rows that compare equal to a start has this start. -/
theorem startTime_of_byStart {r : Recording} (hr : row.read = .ok r)
    (h : (Query.Recordings.byStart camera t.seconds).condition.holds (Row.value row)) :
    row.startTime = .integer t.seconds := by
  have hstart := RecordingRow.startTime_of_read hr
  rw [hstart, ((holds_byStart_of_integer hstart).1 h).2]

theorem holds_byStart_of_selects {d : Date} {filename : String}
    (ht : startOfFilename filename = .ok t) (h : (Scope.recording d filename).Selects camera row) :
    (Query.Recordings.byStart camera t.seconds).condition.holds (Row.value row) := by
  obtain ⟨hcamera, t', ht', hstart, -⟩ := h
  obtain rfl := Except.ok.inj (ht.symm.trans ht')
  exact (holds_byStart_of_integer hstart).2 ⟨hcamera, rfl⟩

/-- A filename selects what starts at its time, if that is on the date. -/
theorem selects_iff_byStart {d : Date} {filename : String} (ht : startOfFilename filename = .ok t)
    {r : Recording} (hr : row.read = .ok r) :
    (Scope.recording d filename).Selects camera row ↔
      (Query.Recordings.byStart camera t.seconds).condition.holds (Row.value row) ∧ r.date = d := by
  have hread := RecordingRow.startTime_of_read hr
  constructor
  · intro h
    have hholds := holds_byStart_of_selects ht h
    obtain ⟨-, t', ht', hstart, hday⟩ := h
    obtain rfl := Except.ok.inj (ht.symm.trans ht')
    have hseconds := Value.integer.inj (hread.symm.trans hstart)
    exact ⟨hholds, congrArg Date.mk (by rw [hseconds]; exact hday)⟩
  · rintro ⟨hholds, rfl⟩
    have hstart := startTime_of_byStart hr hholds
    have hseconds := Value.integer.inj (hread.symm.trans hstart)
    exact ⟨(holds_byStart.1 hholds).1, t, ht, hstart, by rw [← hseconds]; rfl⟩

end ByStart

section ByDate
variable {row : RecordingRow} {d : Date}

theorem isSelected_of_selects (h : (Scope.date d).Selects camera row) :
    IsSelected camera (some d) row := by
  obtain ⟨hcamera, n, hn, hday⟩ := h
  exact (holds_startRange hn).2 ⟨hcamera, hday⟩

theorem selects_iff_isSelected {r : Recording} (hr : row.read = .ok r) :
    (Scope.date d).Selects camera row ↔ IsSelected camera (some d) row := by
  refine ⟨isSelected_of_selects, fun h => ?_⟩
  have hstart := RecordingRow.startTime_of_read hr
  obtain ⟨hcamera, hday⟩ := (holds_startRange hstart).1 h
  exact ⟨hcamera, _, hstart, hday⟩

end ByDate

theorem targets_recording_eq_ok {d : Date} {filename : String} {found : List Recording}
    (h : s.targets camera (.recording d filename) = .ok found) :
    ∃ t rs, startOfFilename filename = .ok t ∧
      ((Query.Recordings.byStart camera t.seconds).rows Row.value s.recordings.rows).mapM
        RecordingRow.read = .ok rs ∧ found = rs.filter fun r => r.date = d := by
  obtain ⟨t, ht, hselect⟩ := bind_eq_ok_iff.1 h
  obtain ⟨rows, hrows, hread⟩ := bind_eq_ok_iff.1 hselect
  obtain ⟨rs, hrs, hfound⟩ := bind_eq_ok_iff.1 hread
  obtain ⟨-, rfl⟩ := Table.select_eq_ok_iff.1 hrows
  refine ⟨t, rs, ht, hrs, ?_⟩
  split at hfound
  · cases hfound
  · exact (Except.ok.inj hfound).symm

/-- The targets, from what is selected and read. -/
theorem targets_by_name {r : Recording} {rows : List RecordingRow}
    (rs : List Recording)
    (hrows : s.recordings.select (Query.Recordings.byStart r.camera r.nameSecond.seconds) = .ok rows)
    (hrs : rows.mapM RecordingRow.read = .ok rs) (hne : (rs.filter fun q => q.date = r.date) ≠ []) :
    s.targets r.camera (.recording r.date r.filename) =
      .ok (rs.filter fun q => q.date = r.date) := by
  simp only [targets, r.startOfFilename_filename, ok_bind, hrows, hrs]
  rfl

/-- The recordings that a scope selects are found in order, and all of them can be read. -/
theorem targets_eq_ok {found : List Recording} (h : s.targets camera scope = .ok found) :
    found.Pairwise (fun q r => ¬ r.Precedes q) ∧
      (∀ row ∈ s.recordings.rows, scope.Selects camera row → row.Readable) ∧
      ∀ r, r ∈ found ↔ ∃ row ∈ s.recordings.rows, scope.Selects camera row ∧ row.read = .ok r := by
  cases scope with
  | camera =>
    have hselects (row : RecordingRow) : IsSelected camera none row ↔ row.camera = camera :=
      holds_ofCamera
    simpa only [Scope.Selects, hselects] using recordingsOf_sorted h
  | date d =>
    obtain ⟨hsorted, hreadable, hmem⟩ := recordingsOf_sorted h
    refine ⟨hsorted, fun row hrow h => hreadable row hrow (isSelected_of_selects h), fun r => ?_⟩
    rw [hmem]
    exact exists_congr fun row => and_congr_right fun _ =>
      and_congr_left fun hr => (selects_iff_isSelected hr).symm
  | recording d filename =>
    obtain ⟨t, rs, ht, hrs, rfl⟩ := targets_recording_eq_ok h
    have hread := exists_read_of_selection rfl hrs
    have hsorted := pairwise_read (RecordingRow.pairwise_key_of_start rfl hread rfl
      fun row r hholds hr => startTime_of_byStart hr hholds) hrs
    refine ⟨hsorted.filter _, fun row hrow h => ?_, fun r => ?_⟩
    · exact RecordingRow.exists_read_iff.1 (hread row hrow (holds_byStart_of_selects ht h))
    · rw [List.mem_filter, mem_of_mapM hrs, decide_eq_true_iff]
      constructor
      · rintro ⟨⟨row, hrow, hr⟩, hdate⟩
        obtain ⟨hrow, hholds⟩ := (mem_rows rfl).1 hrow
        exact ⟨row, hrow, (selects_iff_byStart ht hr).2 ⟨hholds, hdate⟩, hr⟩
      · rintro ⟨row, hrow, h, hr⟩
        obtain ⟨hholds, hdate⟩ := (selects_iff_byStart ht hr).1 h
        exact ⟨⟨row, (mem_rows rfl).2 ⟨hrow, hholds⟩, hr⟩, hdate⟩

/-- Finding the targets is not a failure to delete one. -/
theorem failsAs_targets (s : Store) (camera : String) (scope : Scope) :
    FailsAs (fun e => ∀ k cause, e ≠ .deleteFailure k cause) (s.targets camera scope) := by
  have hunreadable (e : Error) (h : e.IsUnreadable) (k : ℤ) (cause : Error) :
      e ≠ .deleteFailure k cause := by
    rintro rfl
    exact h
  have hread (rows : List RecordingRow) :
      FailsAs Error.IsUnreadable (rows.mapM RecordingRow.read) :=
    .mapM fun row _ => row.failsAs_read
  cases scope with
  | camera => exact ((s.recordings.failsAs_select _).bind hread).mono hunreadable
  | date d => exact ((s.recordings.failsAs_select _).bind hread).mono hunreadable
  | recording d filename =>
    refine FailsAs.bind ?_ fun t => ?_
    · intro e he k cause
      cases startOfFilename_eq_error_iff.1 he <;> simp
    · refine ((s.recordings.failsAs_select _).mono hunreadable).bind fun rows =>
        ((hread rows).mono hunreadable).bind fun found => ?_
      split
      · exact failsAs_error (by simp)
      · exact failsAs_ok _

/-! ### One deletion after the other -/

section Turns
variable {σ : Type} {delete : ℤ → σ → Except Error Deletion × σ} {x y : σ} {e : Error}

theorem deleteEach_of_ok {d : Deletion} (h : delete id x = (.ok d, y)) (byName : Bool)
    (ids : List ℤ) :
    deleteEach delete byName (id :: ids) x =
      ((deleteEach delete byName ids y).1.map (d :: ·), (deleteEach delete byName ids y).2) := by
  rw [deleteEach, h]

theorem deleteEach_of_notFound (h : delete id x = (.error e, y)) (hfound : e.isNotFound = true)
    (ids : List ℤ) :
    deleteEach delete false (id :: ids) x = deleteEach delete false ids y := by
  rw [deleteEach, h]
  exact if_pos ⟨hfound, rfl⟩

theorem deleteEach_of_error (h : delete id x = (.error e, y))
    (hstop : e.isNotFound = true → byName = true) (ids : List ℤ) :
    deleteEach delete byName (id :: ids) x = (.error (.deleteFailure id e), y) := by
  have hnot : ¬ (e.isNotFound = true ∧ (!byName) = true) := by
    rintro ⟨hfound, hname⟩
    rw [hstop hfound] at hname
    cases hname
  rw [deleteEach, h]
  exact if_neg hnot

end Turns

/-- The store after some deletions, each of which may fail. -/
def afterDeletions (s : Store) (lookback : ℕ) (now : Time) (ids : List ℤ) : Store :=
  ids.foldl (fun s id => (tryDeletion lookback now id s).2) s

@[simp] theorem afterDeletions_cons : s.afterDeletions lookback now (id :: ids) =
    (tryDeletion lookback now id s).2.afterDeletions lookback now ids := rfl

theorem tryDeletion_of_ok {d : Deletion} (h : s.deleteRecording id lookback now = .ok (d, s')) :
    tryDeletion lookback now id s = (.ok d, s') := by
  rw [tryDeletion, h]

theorem tryDeletion_of_error {e : Error} (h : s.deleteRecording id lookback now = .error e) :
    tryDeletion lookback now id s = (.error e, s) := by
  rw [tryDeletion, h]

/-- The deletions go on after a recording: it is deleted, or it is not found and was not asked for by
name. -/
inductive Passes (s : Store) (lookback : ℕ) (now : Time) (byName : Bool) (id : ℤ) :
    List Deletion → Store → Prop
  | deleted {d : Deletion} {s' : Store} :
    s.deleteRecording id lookback now = .ok (d, s') → Passes s lookback now byName id [d] s'
  | missed : byName = false →
    s.deleteRecording id lookback now = .error (.notFound (.recording id)) →
    Passes s lookback now byName id [] s

/-- The deletions end at a recording with the error of its deletion. -/
def Stops (s : Store) (lookback : ℕ) (now : Time) (byName : Bool) (id : ℤ) (e : Error) : Prop :=
  s.deleteRecording id lookback now = .error e ∧ (e.isNotFound = true → byName = true)

theorem passes_or_stops (s : Store) (lookback : ℕ) (now : Time) (byName : Bool) (id : ℤ) :
    (∃ ds s', s.Passes lookback now byName id ds s') ∨ ∃ e, s.Stops lookback now byName id e := by
  cases h : s.deleteRecording id lookback now with
  | ok p => exact .inl ⟨_, _, .deleted h⟩
  | error e =>
    cases byName with
    | true => exact .inr ⟨e, h, fun _ => rfl⟩
    | false =>
      cases hfound : e.isNotFound with
      | false => exact .inr ⟨e, h, fun htrue => by rw [hfound] at htrue; cases htrue⟩
      | true =>
        rw [eq_notFound_of_deleteRecording h hfound] at h
        exact .inl ⟨_, _, .missed rfl h⟩

section Passing
variable {ds : List Deletion} (h : s.Passes lookback now byName id ds s')
include h

theorem Passes.tryDeletion_eq : (tryDeletion lookback now id s).2 = s' := by
  cases h with
  | deleted h => rw [tryDeletion_of_ok h]
  | missed _ h => rw [tryDeletion_of_error h]

theorem Passes.deleteEach_eq (ids : List ℤ) :
    deleteEach (tryDeletion lookback now) byName (id :: ids) s =
      ((deleteEach (tryDeletion lookback now) byName ids s').1.map (ds ++ ·),
        (deleteEach (tryDeletion lookback now) byName ids s').2) := by
  cases h with
  | deleted h => exact deleteEach_of_ok (tryDeletion_of_ok h) byName ids
  | missed hname h =>
    subst hname
    rw [deleteEach_of_notFound (tryDeletion_of_error h) rfl]
    cases hrest : (deleteEach (tryDeletion lookback now) false ids s).1 <;>
      simp [Except.map, ← hrest]

theorem Passes.sublist : s'.recordings.rows.Sublist s.recordings.rows := by
  cases h with
  | deleted h => exact (deleteRecording_rows h).2.trans List.filter_sublist
  | missed => exact .refl _

theorem Passes.triggers : s'.triggers = s.triggers := by
  cases h with
  | deleted h => exact deleteRecording_triggers h
  | missed => rfl

/-- What is reported, if anything, is the recording, which was there and has gone. -/
theorem Passes.reported : ds.map Deletion.recording = [] ∨
    ds.map Deletion.recording = [id] ∧ (∃ row ∈ s.recordings.rows, row.id = id) ∧
      ∀ row ∈ s'.recordings.rows, row.id ≠ id := by
  cases h with
  | deleted h =>
    obtain ⟨hid, hrows⟩ := deleteRecording_rows h
    obtain ⟨r, -, -, -, -, hr, -⟩ := deleteRecording_eq_ok_iff.1 h
    obtain ⟨row, hrow, hrowid, -⟩ := mem_of_recording hr
    exact .inr ⟨congrArg ([·]) hid, ⟨row, hrow, hrowid⟩, fun row hrow =>
      of_decide_eq_true (List.mem_filter.1 (hrows.subset hrow)).2⟩
  | missed => exact .inl rfl

/-- A recording that is still there was not found. -/
theorem Passes.notFound_of_mem {row : RecordingRow} (hrow : row ∈ s'.recordings.rows)
    (hid : row.id = id) :
    row ∈ s.recordings.rows ∧
      s.deleteRecording id lookback now = .error (.notFound (.recording id)) := by
  cases h with
  | deleted h =>
    have hkept := (List.mem_filter.1 ((deleteRecording_rows h).2.subset hrow)).2
    exact absurd hid (of_decide_eq_true hkept)
  | missed _ h => exact ⟨hrow, h⟩

end Passing

theorem Stops.deleteEach_eq {e : Error} (h : s.Stops lookback now byName id e) (ids : List ℤ) :
    deleteEach (tryDeletion lookback now) byName (id :: ids) s =
      (.error (.deleteFailure id e), s) :=
  deleteEach_of_error (tryDeletion_of_error h.1) h.2 ids

/-- Deletions that fail end at a recording, and leave the store as those before it do. -/
theorem deleteEach_eq_error {e : Error}
    (h : (deleteEach (tryDeletion lookback now) byName ids s).1 = .error e) :
    ∃ before k rest cause, ids = before ++ k :: rest ∧ e = .deleteFailure k cause ∧
      (deleteEach (tryDeletion lookback now) byName ids s).2 =
        s.afterDeletions lookback now before ∧
      (s.afterDeletions lookback now before).Stops lookback now byName k cause := by
  induction ids generalizing s with
  | nil => cases h
  | cons id ids ih =>
    rcases passes_or_stops s lookback now byName id with ⟨ds, s', hpasses⟩ | ⟨cause, hstops⟩
    · rw [hpasses.deleteEach_eq, map_eq_error_iff] at h
      obtain ⟨before, k, rest, cause, rfl, rfl, hstore, hstops⟩ := ih h
      refine ⟨id :: before, k, rest, cause, rfl, rfl, ?_, ?_⟩
      · rw [hpasses.deleteEach_eq, afterDeletions_cons, hpasses.tryDeletion_eq, hstore]
      · rwa [afterDeletions_cons, hpasses.tryDeletion_eq]
    · rw [hstops.deleteEach_eq] at h ⊢
      cases h
      exact ⟨[], id, ids, cause, rfl, rfl, rfl, hstops⟩

/-- Triggers spare a recording: when its turn comes it is there, and its deletion takes no row. -/
def Spared (s : Store) (lookback : ℕ) (now : Time) (ids : List ℤ) (row : RecordingRow) : Prop :=
  ∃ before rest, ids = before ++ row.id :: rest ∧
    row ∈ (s.afterDeletions lookback now before).recordings.rows ∧
    (s.afterDeletions lookback now before).Misses row.id ∧
    (s.afterDeletions lookback now before).deleteRecording row.id lookback now =
      .error (.notFound (.recording row.id))

theorem Spared.cons {row : RecordingRow}
    (h : (tryDeletion lookback now id s).2.Spared lookback now ids row) :
    s.Spared lookback now (id :: ids) row := by
  obtain ⟨before, rest, rfl, hrow⟩ := h
  exact ⟨id :: before, rest, rfl, hrow⟩

theorem afterDeletions_triggers (s : Store) (lookback : ℕ) (now : Time) (ids : List ℤ) :
    (s.afterDeletions lookback now ids).triggers = s.triggers := by
  induction ids generalizing s with
  | nil => rfl
  | cons id ids ih =>
    rw [afterDeletions_cons, ih]
    cases h : s.deleteRecording id lookback now with
    | ok p => rw [tryDeletion_of_ok h, deleteRecording_triggers h]
    | error e => rw [tryDeletion_of_error h]

/-- Triggers that spare none spare no recording at its turn. -/
theorem not_spared (hspare : ∀ t ∈ s.triggers, t.SparesNone) (row : RecordingRow) :
    ¬ s.Spared lookback now ids row := by
  rintro ⟨before, rest, -, hrow, hmisses, -⟩
  rw [← s.afterDeletions_triggers lookback now before] at hspare
  exact hmisses.absent hspare row hrow rfl

/-- Deletions that succeed leave only those of the recordings that triggers spare, and report distinct
ones in their order. -/
theorem deleteEach_eq_ok {ds : List Deletion}
    (h : (deleteEach (tryDeletion lookback now) byName ids s).1 = .ok ds) :
    (deleteEach (tryDeletion lookback now) byName ids s).2.recordings.rows.Sublist
        s.recordings.rows ∧
      (∀ row ∈ (deleteEach (tryDeletion lookback now) byName ids s).2.recordings.rows,
        row.id ∈ ids → s.Spared lookback now ids row) ∧
      (ds.map Deletion.recording).Sublist ids ∧ (ds.map Deletion.recording).Nodup ∧
      ∀ n ∈ ds.map Deletion.recording, ∃ row ∈ s.recordings.rows, row.id = n := by
  induction ids generalizing s ds with
  | nil =>
    obtain rfl := Except.ok.inj h
    simp [deleteEach]
  | cons id ids ih =>
    rcases passes_or_stops s lookback now byName id with ⟨first, s', hpasses⟩ | ⟨cause, hstops⟩
    · rw [hpasses.deleteEach_eq] at h ⊢
      obtain ⟨rest, hrest, rfl⟩ := map_eq_ok_iff.1 h
      obtain ⟨hsublist, hspared, hids, hnodup, hthere⟩ := ih hrest
      have hrests : ∀ n ∈ rest.map Deletion.recording, ∃ row ∈ s.recordings.rows, row.id = n := by
        intro n hn
        obtain ⟨row, hrow, hid⟩ := hthere n hn
        exact ⟨row, hpasses.sublist.subset hrow, hid⟩
      refine ⟨hsublist.trans hpasses.sublist, fun row hrow hmem => ?_, ?_⟩
      · rcases List.mem_cons.1 hmem with hid | hmem
        · obtain ⟨hfirst, hmissed⟩ := hpasses.notFound_of_mem (hsublist.subset hrow) hid
          subst hid
          exact ⟨[], ids, rfl, hfirst, misses_of_deleteRecording hmissed, hmissed⟩
        · exact .cons (hpasses.tryDeletion_eq ▸ hspared row hrow hmem)
      rw [List.map_append]
      rcases hpasses.reported with hnone | ⟨hone, hrow, hgone⟩
      · rw [hnone, List.nil_append]
        exact ⟨hids.cons id, hnodup, hrests⟩
      · rw [hone, List.singleton_append]
        refine ⟨hids.cons_cons id, List.nodup_cons.2 ⟨fun hmem => ?_, hnodup⟩, ?_⟩
        · obtain ⟨row, hrow, hid⟩ := hthere id hmem
          exact hgone row hrow hid
        · exact List.forall_mem_cons.2 ⟨hrow, hrests⟩
    · rw [hstops.deleteEach_eq] at h
      cases h

/-- A recording that is not found when its turn comes makes no difference. -/
theorem deleteEach_skip {before rest : List ℤ} {k : ℤ}
    (h : (s.afterDeletions lookback now before).deleteRecording k lookback now =
      .error (.notFound (.recording k))) :
    deleteEach (tryDeletion lookback now) false (before ++ k :: rest) s =
      deleteEach (tryDeletion lookback now) false (before ++ rest) s := by
  induction before generalizing s with
  | nil =>
    rw [List.nil_append, List.nil_append]
    exact deleteEach_of_notFound (tryDeletion_of_error h) rfl rest
  | cons id before ih =>
    rw [List.cons_append, List.cons_append]
    rcases passes_or_stops s lookback now false id with ⟨ds, s', hpasses⟩ | ⟨cause, hstops⟩
    · rw [afterDeletions_cons, hpasses.tryDeletion_eq] at h
      rw [hpasses.deleteEach_eq, hpasses.deleteEach_eq, ih h]
    · rw [hstops.deleteEach_eq, hstops.deleteEach_eq]

/-- A recording that was asked for by name and is not found when its turn comes fails the
deletions. -/
theorem deleteEach_fails {before : List ℤ} (rest : List ℤ) {k : ℤ}
    (h : (s.afterDeletions lookback now before).deleteRecording k lookback now =
      .error (.notFound (.recording k))) :
    ∃ e, (deleteEach (tryDeletion lookback now) true (before ++ k :: rest) s).1 = .error e := by
  induction before generalizing s with
  | nil =>
    have hstops : s.Stops lookback now true k (.notFound (.recording k)) := ⟨h, fun _ => rfl⟩
    exact ⟨_, by rw [List.nil_append, hstops.deleteEach_eq]⟩
  | cons id before ih =>
    rw [List.cons_append]
    rcases passes_or_stops s lookback now true id with ⟨ds, s', hpasses⟩ | ⟨cause, hstops⟩
    · rw [afterDeletions_cons, hpasses.tryDeletion_eq] at h
      obtain ⟨e, he⟩ := ih h
      exact ⟨e, by rw [hpasses.deleteEach_eq, map_eq_error_iff, he]⟩
    · exact ⟨_, by rw [hstops.deleteEach_eq]⟩

/-! ### Stopping -/

section Scopes
variable {found : List Recording} {e : Error}

theorem deleteRecordings_of_error (h : s.targets camera scope = .error e) :
    s.deleteRecordings camera scope lookback now = (.error e, s) := by
  rw [deleteRecordings, h]

theorem deleteRecordings_of_ok (h : s.targets camera scope = .ok found) :
    s.deleteRecordings camera scope lookback now =
      ((deleteEach (tryDeletion lookback now) scope.isByName (found.map Recording.id) s).1.map
          DeletionReport.mk,
        (deleteEach (tryDeletion lookback now) scope.isByName (found.map Recording.id) s).2) := by
  rw [deleteRecordings, h]

/-- What fails is the deletion of a target, after those of the targets before it, or else nothing
has been deleted. -/
theorem deleteRecordings_eq_error
    (h : (s.deleteRecordings camera scope lookback now).1 = .error e) :
    (∃ found before k rest cause, s.targets camera scope = .ok found ∧
      found.map Recording.id = before ++ k :: rest ∧ e = .deleteFailure k cause ∧
      (s.deleteRecordings camera scope lookback now).2 = s.afterDeletions lookback now before ∧
      (s.afterDeletions lookback now before).Stops lookback now scope.isByName k cause) ∨
    ((∀ k cause, e ≠ .deleteFailure k cause) ∧
      (s.deleteRecordings camera scope lookback now).2 = s) := by
  cases htargets : s.targets camera scope with
  | error e' =>
    rw [deleteRecordings_of_error htargets] at h ⊢
    obtain rfl := Except.error.inj h
    exact .inr ⟨s.failsAs_targets camera scope e' htargets, rfl⟩
  | ok found =>
    rw [deleteRecordings_of_ok htargets] at h ⊢
    obtain ⟨before, k, rest, cause, hids, he, hstore, hstops⟩ :=
      deleteEach_eq_error (map_eq_error_iff.1 h)
    exact .inl ⟨found, before, k, rest, cause, rfl, hids, he, hstore, hstops⟩

/-- What succeeds leaves a recording that the scope selects only where triggers spare it. -/
theorem deleteRecordings_eq_ok {report : DeletionReport}
    (h : (s.deleteRecordings camera scope lookback now).1 = .ok report) :
    ∃ found, s.targets camera scope = .ok found ∧
      (report.deleted.map Deletion.recording).Nodup ∧
      (report.deleted.map Deletion.recording).Sublist (found.map Recording.id) ∧
      ∀ row ∈ (s.deleteRecordings camera scope lookback now).2.recordings.rows,
        scope.Selects camera row → s.Spared lookback now (found.map Recording.id) row := by
  cases htargets : s.targets camera scope with
  | error e =>
    rw [deleteRecordings_of_error htargets] at h
    cases h
  | ok found =>
    rw [deleteRecordings_of_ok htargets] at h ⊢
    obtain ⟨ds, hds, rfl⟩ := map_eq_ok_iff.1 h
    obtain ⟨hsublist, hspared, hids, hnodup, -⟩ := deleteEach_eq_ok hds
    obtain ⟨-, hreadable, hmem⟩ := targets_eq_ok htargets
    refine ⟨found, rfl, hnodup, hids, fun row hrow hselects => ?_⟩
    -- a recording that is left was there at first, and so it was a target
    have hfirst := hsublist.subset hrow
    obtain ⟨r, hr⟩ := RecordingRow.exists_read_iff.2 (hreadable row hfirst hselects)
    refine hspared row hrow (List.mem_map.2 ⟨r, (hmem r).2 ⟨row, hfirst, hselects, hr⟩, ?_⟩)
    exact RecordingRow.id_of_read hr

/-- A target that is not found when its turn comes fails what asks for it by name. Else it makes no
difference. -/
theorem deleteRecordings_of_notFound (h : s.targets camera scope = .ok found) {before rest : List ℤ}
    {k : ℤ} (hids : found.map Recording.id = before ++ k :: rest)
    (hmissed : (s.afterDeletions lookback now before).deleteRecording k lookback now =
      .error (.notFound (.recording k))) :
    (scope.isByName = true → ∃ e, (s.deleteRecordings camera scope lookback now).1 = .error e) ∧
    (scope.isByName = false → s.deleteRecordings camera scope lookback now =
      ((deleteEach (tryDeletion lookback now) false (before ++ rest) s).1.map DeletionReport.mk,
        (deleteEach (tryDeletion lookback now) false (before ++ rest) s).2)) := by
  rw [deleteRecordings_of_ok h, hids]
  constructor
  · intro hname
    obtain ⟨e, he⟩ := deleteEach_fails rest hmissed
    exact ⟨e, by rw [hname, map_eq_error_iff, he]⟩
  · intro hname
    rw [hname, deleteEach_skip hmissed]

end Scopes

/-! ### Deletions over connections -/

section Connections
open Session

/-- Whether deletions end with a failure in which the store ends its transaction. -/
def endsTransaction {α : Type} : Except Error α → Bool
  | .error (.deleteFailure _ cause) => cause.endsTransaction
  | _ => false

@[simp] theorem endsTransaction_map {α β : Type} (f : α → β) (x : Except Error α) :
    endsTransaction (x.map f) = endsTransaction x := by
  cases x with
  | ok a => rfl
  | error e => cases e <;> rfl

/-! While both connections begin transactions, a session deletes a recording as its store does. -/

theorem deleteRecording_ofStore_of_ok {d : Deletion}
    (h : s.deleteRecording id lookback now = .ok (d, s')) :
    (ofStore s).deleteRecording id lookback now = (.ok d, ofStore s') := by
  have hstore : (ofStore s).store = s := rfl
  rw [Session.deleteRecording, Session.transact, hstore, h]
  rfl

theorem deleteRecording_ofStore_of_error {e : Error}
    (h : s.deleteRecording id lookback now = .error e) :
    (ofStore s).deleteRecording id lookback now =
      (.error e, { ofStore s with isOtherStuck := e.endsTransaction }) := by
  have hstore : (ofStore s).store = s := rfl
  rw [Session.deleteRecording, Session.transact, hstore, h]
  rfl

/-- The session goes as its store, but a connection is lost where the store ends a transaction. -/
theorem deleteEach_ofStore (lookback : ℕ) (now : Time) (byName : Bool) (ids : List ℤ) (s : Store) :
    deleteEach (fun id x => Session.deleteRecording x id lookback now) byName ids (ofStore s) =
      ((deleteEach (tryDeletion lookback now) byName ids s).1,
        { ofStore (deleteEach (tryDeletion lookback now) byName ids s).2 with
          isOtherStuck :=
            endsTransaction (deleteEach (tryDeletion lookback now) byName ids s).1 }) := by
  induction ids generalizing s with
  | nil => rfl
  | cons id ids ih =>
    rcases passes_or_stops s lookback now byName id with ⟨ds, s', hpasses⟩ | ⟨cause, hstops⟩
    · cases hpasses with
      | deleted h =>
        rw [deleteEach_of_ok (deleteRecording_ofStore_of_ok h), ih,
          deleteEach_of_ok (tryDeletion_of_ok h), endsTransaction_map]
      | missed hname h =>
        subst hname
        rw [deleteEach_of_notFound (deleteRecording_ofStore_of_error h) rfl,
          deleteEach_of_notFound (tryDeletion_of_error h) rfl]
        exact ih s
    · rw [deleteEach_of_error (deleteRecording_ofStore_of_error hstops.1) hstops.2,
        hstops.deleteEach_eq]
      rfl

theorem deleteRecordings_ofStore (s : Store) (camera : String) (scope : Scope) (lookback : ℕ)
    (now : Time) :
    (ofStore s).deleteRecordings camera scope lookback now =
      ((s.deleteRecordings camera scope lookback now).1,
        { ofStore (s.deleteRecordings camera scope lookback now).2 with
          isOtherStuck :=
            endsTransaction (s.deleteRecordings camera scope lookback now).1 }) := by
  have hstore : (ofStore s).store = s := rfl
  have hturn : (ofStore s).turn = ofStore s := rfl
  rw [Session.deleteRecordings, hstore, hturn]
  cases htargets : s.targets camera scope with
  | error e =>
    have hends : endsTransaction (.error e : Except Error DeletionReport) = false := by
      cases e with
      | deleteFailure k cause => exact absurd rfl (s.failsAs_targets camera scope _ htargets k cause)
      | _ => rfl
    simp only [deleteRecordings, htargets, ite_self, hends]
    rfl
  | ok found =>
    rw [deleteRecordings_of_ok htargets]
    simp only [deleteEach_ofStore, endsTransaction_map]

/-- Triggers that do not roll back leave both connections as they are. -/
theorem endsTransaction_deleteRecordings (hnone : s.NoRollback) :
    endsTransaction (s.deleteRecordings camera scope lookback now).1 = false := by
  cases h : (s.deleteRecordings camera scope lookback now).1 with
  | ok report => rfl
  | error e =>
    rcases deleteRecordings_eq_error h with
      ⟨found, before, k, rest, cause, -, -, rfl, -, hcause, -⟩ | ⟨hother, -⟩
    · rw [NoRollback, ← s.afterDeletions_triggers lookback now before] at hnone
      exact endsTransaction_of_deleteRecording hnone hcause
    · cases e with
      | deleteFailure k cause => exact absurd rfl (hother k cause)
      | _ => rfl

end Connections

/-! ### All or the first -/

/-- Deleting the recordings that a scope selects stops at the first failure, which leaves nothing
but what the earlier deletions did. Other errors change nothing. What succeeds leaves no selected
recording, unless triggers before deletions spare it. -/
theorem deleteRecordings_stops (s : Store) (camera : String) (scope : Scope) (lookback : ℕ)
    (now : Time) :
    let out := s.deleteRecordings camera scope lookback now
    let session := (Session.ofStore s).deleteRecordings camera scope lookback now
    (∀ k cause, out.1 = .error (.deleteFailure k cause) →
      ∃ found before rest, s.targets camera scope = .ok found ∧
        found.map Recording.id = before ++ k :: rest ∧
        out.2 = s.afterDeletions lookback now before ∧
        (s.afterDeletions lookback now before).deleteRecording k lookback now = .error cause ∧
        (cause.isNotFound = true → scope.isByName = true)) ∧
    (∀ e, out.1 = .error e → (∀ k cause, e ≠ .deleteFailure k cause) → out.2 = s) ∧
    (∀ report, out.1 = .ok report →
      ∃ found, s.targets camera scope = .ok found ∧
        (report.deleted.map Deletion.recording).Nodup ∧
        (report.deleted.map Deletion.recording).Sublist (found.map Recording.id) ∧
        (∀ row ∈ out.2.recordings.rows, scope.Selects camera row →
          s.Spared lookback now (found.map Recording.id) row) ∧
        ((∀ t ∈ s.triggers, t.SparesNone) →
          ∀ row ∈ out.2.recordings.rows, ¬ scope.Selects camera row)) ∧
    (∀ found, s.targets camera scope = .ok found →
      found.Pairwise (fun q r => ¬ r.Precedes q) ∧
      (∀ r, r ∈ found ↔ ∃ row ∈ s.recordings.rows, scope.Selects camera row ∧ row.read = .ok r) ∧
      ∀ before k rest, found.map Recording.id = before ++ k :: rest →
        ((∀ row ∈ (s.afterDeletions lookback now before).recordings.rows, row.id ≠ k) ∨
          (s.afterDeletions lookback now before).deleteRecording k lookback now =
            .error (.notFound (.recording k))) →
        (scope.isByName = true → ∃ e, out.1 = .error e) ∧
        (scope.isByName = false → out =
          ((deleteEach (tryDeletion lookback now) false (before ++ rest) s).1.map DeletionReport.mk,
            (deleteEach (tryDeletion lookback now) false (before ++ rest) s).2))) ∧
    session.1 = out.1 ∧ session.2.store = out.2 ∧
    (s.NoRollback → session.2 = .ofStore out.2) := by
  intro out session
  have hsession : session =
      (out.1, { Session.ofStore out.2 with isOtherStuck := endsTransaction out.1 }) :=
    deleteRecordings_ofStore s camera scope lookback now
  refine ⟨fun k cause he => ?_, fun e he hcause => ?_, fun report h => ?_, fun found h => ?_,
    by rw [hsession], by rw [hsession]; rfl, fun hnone => ?_⟩
  · rcases deleteRecordings_eq_error he with
      ⟨found, before, k', rest, cause', htargets, hids, heq, hstore, hstops⟩ | ⟨hother, -⟩
    · obtain ⟨rfl, rfl⟩ := Error.deleteFailure.inj heq
      exact ⟨found, before, rest, htargets, hids, hstore, hstops⟩
    · exact absurd rfl (hother k cause)
  · rcases deleteRecordings_eq_error he with
      ⟨-, -, k, -, cause, -, -, heq, -⟩ | ⟨-, hstore⟩
    · exact absurd heq (hcause k cause)
    · exact hstore
  · obtain ⟨found, htargets, hnodup, hids, hspared⟩ := deleteRecordings_eq_ok h
    exact ⟨found, htargets, hnodup, hids, hspared, fun hspare row hrow hselects =>
      not_spared hspare row (hspared row hrow hselects)⟩
  · obtain ⟨hsorted, -, hmem⟩ := targets_eq_ok h
    refine ⟨hsorted, hmem, fun before k rest hids hmissed => ?_⟩
    refine deleteRecordings_of_notFound h hids (hmissed.elim (fun habsent => ?_) id)
    exact deleteRecording_of_absent habsent lookback now
  · rw [hsession, endsTransaction_deleteRecordings hnone]
    rfl

/-- The first two recordings take each other along, and the third has a thumbnail that no statement
can name. -/
def pairedInCycle : Store :=
  { fresh with
    recordings := ⟨[recordingAt 1 0, recordingAt 2 0,
      { recordingAt 3 0 with thumbnail := "\x00" }], 3⟩
    triggers := [.pair 1 2, .pair 2 1] }

/-- The second recording goes with the first and is passed over, and the third one stays whole. -/
theorem stops_pairedInCycle :
    ∃ cause, (pairedInCycle.deleteRecordings "cam" .camera 0 (early 0)).1 =
        .error (.deleteFailure 3 cause) ∧
      (pairedInCycle.deleteRecordings "cam" .camera 0 (early 0)).2 =
        pairedInCycle.afterDeletions 0 (early 0) [1, 2] ∧
      (pairedInCycle.afterDeletions 0 (early 0) [1, 2]).recordings.rows.map RecordingRow.id =
        [3] := by
  obtain ⟨found, htargets, hids⟩ : ∃ found, pairedInCycle.targets "cam" .camera = .ok found ∧
      found.map Recording.id = [1, 2, 3] := exists_of_toOption_map (by cbv)
  have hfails : (pairedInCycle.deleteRecordings "cam" .camera 0 (early 0)).1 =
      .error (.deleteFailure 3 (.store (.openLiteral "'"))) := by
    rw [deleteRecordings_of_ok htargets, hids]
    with_unfolding_all decide
  obtain ⟨hstops, -⟩ := deleteRecordings_stops pairedInCycle "cam" .camera 0 (early 0)
  obtain ⟨found', before, rest, htargets', hids', hstore, -⟩ := hstops 3 _ hfails
  obtain rfl := Except.ok.inj (htargets.symm.trans htargets')
  obtain rfl : before = [1, 2] := by
    rw [hids] at hids'
    rcases before with _ | ⟨a, _ | ⟨b, _ | ⟨c, before⟩⟩⟩ <;> simp_all
  exact ⟨_, hfails, hstore, by with_unfolding_all decide⟩

/-- A trigger before deletions passes over the first recording, and the other two take each other along
before they go. -/
def sparing : Store :=
  { fresh with
    recordings := ⟨[recordingAt 1 0, recordingAt 2 0, recordingAt 3 0], 3⟩
    triggers := [
      ⟨"keep", .before, some (.equals .id (.integer 1)), [.ignore]⟩,
      { Trigger.pair 2 3 with timing := .before },
      { Trigger.pair 3 2 with timing := .before }] }

/-- The last second that ten digits can write, and the one after it, which has the same filename. -/
def atLastName : Store :=
  { fresh with recordings := ⟨[recordingAt 1 9999999999, recordingAt 2 10000000000], 2⟩ }

/-- The date and filename of the later recording find the earlier one, and not itself. -/
theorem exists_targets_atLastName :
    ∃ q r, (recordingAt 2 10000000000).read = .ok r ∧ q.id = 1 ∧
      atLastName.targets r.camera (.recording r.date r.filename) = .ok [q] := by
  obtain ⟨q, hq, hfirst⟩ : ∃ q, (recordingAt 1 9999999999).read = .ok q ∧
      (q.id, q.date.day) = (1, 115740) := exists_of_toOption_map (by with_unfolding_all decide)
  obtain ⟨r, hr, hlast⟩ : ∃ r, (recordingAt 2 10000000000).read = .ok r ∧
      (r.camera, r.date.day, r.nameSecond.seconds) = ("cam", 115740, 9999999999) :=
    exists_of_toOption_map (by with_unfolding_all decide)
  obtain ⟨hid, hday⟩ := Prod.mk.inj hfirst
  obtain ⟨hcamera, hlast⟩ := Prod.mk.inj hlast
  obtain ⟨hlastday, hsecond⟩ := Prod.mk.inj hlast
  have hdate : q.date = r.date := congrArg Date.mk (hday.trans hlastday.symm)
  have hrows : atLastName.recordings.select
      (Query.Recordings.byStart r.camera r.nameSecond.seconds) =
      .ok [recordingAt 1 9999999999] := by
    rw [hcamera, hsecond]
    with_unfolding_all decide
  have hread : [recordingAt 1 9999999999].mapM RecordingRow.read = .ok [q] :=
    mapM_eq_ok_iff.2 (congrArg ([·]) hq)
  have hfilter : ([q].filter fun q => q.date = r.date) = [q] := by simp [hdate]
  have htargets := targets_by_name [q] hrows hread (by simp [hdate])
  exact ⟨q, r, hr, hid, hfilter ▸ htargets⟩

/-- A deletion of all recordings of a camera succeeds and spares each of them, and one by the date and
filename of a recording succeeds and leaves this recording. -/
theorem not_stops_sparing :
    sparing.deleteRecordings "cam" .camera 0 (early 0) = (.ok ⟨[]⟩, sparing) ∧
      (∀ row ∈ sparing.recordings.rows, Scope.camera.Selects "cam" row) ∧
      ∃ r, (recordingAt 2 10000000000).read = .ok r ∧
        (atLastName.deleteRecordings r.camera (.recording r.date r.filename) 0 (early 0)).1 =
          .ok ⟨[⟨1, 0, 0⟩]⟩ ∧
        recordingAt 2 10000000000 ∈ (atLastName.deleteRecordings r.camera
          (.recording r.date r.filename) 0 (early 0)).2.recordings.rows := by
  have hselects : ∀ row ∈ sparing.recordings.rows, Scope.camera.Selects "cam" row := by
    simp [sparing, Scope.Selects, recordingAt]
  refine ⟨?_, hselects, ?_⟩
  · obtain ⟨found, htargets, hids⟩ : ∃ found, sparing.targets "cam" .camera = .ok found ∧
        found.map Recording.id = [1, 2, 3] := exists_of_toOption_map (by cbv)
    rw [deleteRecordings_of_ok htargets, hids]
    with_unfolding_all decide
  · obtain ⟨q, r, hr, hid, htargets⟩ := exists_targets_atLastName
    have hids : [q].map Recording.id = [1] := congrArg ([·]) hid
    have hname : (Scope.recording r.date r.filename).isByName = true := rfl
    refine ⟨r, hr, ?_⟩
    rw [deleteRecordings_of_ok htargets, hids, hname]
    with_unfolding_all decide

end Store

end Footage
