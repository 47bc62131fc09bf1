import Footage.Proofs.Recording.Filename
import Footage.Proofs.Store.Stopping

/-! Recordings by date and filename. The filename writes the second in which a recording starts, or
the nearest one that ten digits can write, so a deletion by name takes all recordings of the camera
that start in that second. It takes one recording exactly when its start can be written and no other
recording of the camera starts in the same second. -/

namespace Footage

open Outcome Sql

/-! ### The start that a filename writes -/

namespace Recording

/-- No name writes a start before the first second, on the date of the start. -/
theorem start_nonneg_of_nameSecond (r : Recording)
    (h : (r.nameSecond.seconds : ℤ) / 86400 = r.date.day) : 0 ≤ r.start.seconds := by
  have hday : 0 ≤ r.date.day := h ▸ Int.ediv_nonneg (Int.natCast_nonneg _) (by decide)
  exact (Int.ediv_nonneg_iff_of_pos (by decide)).1 hday

end Recording

namespace Store

variable {s s' : Store} {lookback : ℕ} {now : Time} {row : RecordingRow} {r : Recording}

/-! ### Deletions without triggers -/

section Untriggered
variable {id : ℤ} {ids : List ℤ} {byName : Bool} {ds : List Deletion}

theorem Passes.rows_eq (h : s.Passes lookback now byName id ds s') (hfree : s.Untriggered) :
    s'.Untriggered ∧ s'.recordings.rows = s.recordings.rows.filter fun q => q.id ≠ id := by
  refine ⟨h.triggers.trans hfree, ?_⟩
  obtain ⟨removed, hrows, hnone⟩ := recordingsWithout_of_untriggered hfree id
  cases h with
  | deleted h =>
    obtain ⟨r, fragments, shared, count, rows, -, -, -, -, hleft, -, -, rfl⟩ :=
      deleteRecording_eq_ok_iff.1 h
    exact (Prod.mk.inj (Except.ok.inj (hleft.symm.trans hrows))).2
  | missed _ h =>
    obtain ⟨rows, hmissed⟩ := misses_of_deleteRecording h
    have habsent := hnone (Prod.mk.inj (Except.ok.inj (hrows.symm.trans hmissed))).1
    exact (List.filter_eq_self.2 fun q hq => decide_eq_true (habsent q hq)).symm

/-- What succeeds takes the recordings of the ids and no other. -/
theorem Untriggered.deleteEach_rows (hfree : s.Untriggered)
    (h : (deleteEach (tryDeletion lookback now) byName ids s).1 = .ok ds) :
    (deleteEach (tryDeletion lookback now) byName ids s).2.recordings.rows =
      s.recordings.rows.filter fun q => q.id ∉ ids := by
  induction ids generalizing s ds with
  | nil => simp [deleteEach]
  | cons id ids ih =>
    rcases passes_or_stops s lookback now byName id with ⟨first, s', hpasses⟩ | ⟨cause, hstops⟩
    · obtain ⟨hfree', hrows⟩ := hpasses.rows_eq hfree
      rw [hpasses.deleteEach_eq] at h ⊢
      obtain ⟨rest, hrest, -⟩ := map_eq_ok_iff.1 h
      rw [ih hfree' hrest, hrows, List.filter_filter]
      refine List.filter_congr fun q _ => ?_
      rw [← Bool.decide_and, decide_eq_decide, List.mem_cons, not_or]
      exact and_comm
    · rw [hstops.deleteEach_eq] at h
      cases h

end Untriggered

/-! ### Deleting by name -/

/-- A row goes by the name of a recording. -/
def Namesake (r : Recording) (q : RecordingRow) : Prop :=
  q.camera = r.camera ∧ q.startTime = .integer r.nameSecond.seconds

instance (r : Recording) (q : RecordingRow) : Decidable (Namesake r q) :=
  inferInstanceAs (Decidable (_ ∧ _))

theorem ne_nil_of_targets {camera : String} {d : Date} {filename : String} {found : List Recording}
    (h : s.targets camera (.recording d filename) = .ok found) : found ≠ [] := by
  obtain ⟨t, -, hselect⟩ := bind_eq_ok_iff.1 h
  obtain ⟨rows, -, hread⟩ := bind_eq_ok_iff.1 hselect
  obtain ⟨rs, -, hfound⟩ := bind_eq_ok_iff.1 hread
  split at hfound
  · cases hfound
  · next hne => exact Except.ok.inj hfound ▸ hne

theorem selects_recording_iff {q : RecordingRow} :
    (Scope.recording r.date r.filename).Selects r.camera q ↔
      Namesake r q ∧ (r.nameSecond.seconds : ℤ) / 86400 = r.date.day := by
  simp only [Scope.Selects, r.startOfFilename_filename, Except.ok.injEq, Namesake, and_assoc]
  refine and_congr_right fun _ => ⟨?_, ?_⟩
  · rintro ⟨t, rfl, hstart, hday⟩
    exact ⟨hstart, hday⟩
  · rintro ⟨hstart, hday⟩
    exact ⟨_, rfl, hstart, hday⟩

theorem namesake_self_iff (hr : row.read = .ok r) :
    Namesake r row ↔ 0 ≤ r.start.seconds ∧ r.start.seconds < 10000000000 := by
  obtain ⟨-, -, -, -, -, hcamera, -⟩ := RecordingRow.read_eq_ok_iff.1 hr
  rw [Namesake, and_iff_right hcamera.symm, RecordingRow.startTime_of_read hr, Value.integer.injEq,
    eq_comm, r.nameSecond_eq_iff]

/-- The ids that are deleted are those of the namesakes. -/
theorem id_mem_targets_iff (hids : (s.recordings.rows.map RecordingRow.id).Nodup)
    {found : List Recording}
    (h : s.targets r.camera (.recording r.date r.filename) = .ok found) :
    (r.nameSecond.seconds : ℤ) / 86400 = r.date.day ∧
      ∀ q ∈ s.recordings.rows, q.id ∈ found.map Recording.id ↔ Namesake r q := by
  obtain ⟨-, hreadable, hmem⟩ := targets_eq_ok h
  obtain ⟨first, hfirst⟩ := List.exists_mem_of_ne_nil _ (ne_nil_of_targets h)
  obtain ⟨q, -, hselects, -⟩ := (hmem first).1 hfirst
  have hday := (selects_recording_iff.1 hselects).2
  refine ⟨hday, fun q hq => ?_⟩
  constructor
  · intro hid
    obtain ⟨x, hx, hxid⟩ := List.mem_map.1 hid
    obtain ⟨p, hp, hselects, hread⟩ := (hmem x).1 hx
    have hpid : p.id = q.id := (RecordingRow.id_of_read hread).symm.trans hxid
    obtain rfl := List.inj_on_of_nodup_map hids hp hq hpid
    exact (selects_recording_iff.1 hselects).1
  · intro hname
    have hselects := selects_recording_iff.2 ⟨hname, hday⟩
    obtain ⟨x, hx⟩ := RecordingRow.exists_read_iff.2 (hreadable q hq hselects)
    exact List.mem_map.2 ⟨x, (hmem x).2 ⟨q, hq, hselects, hx⟩, RecordingRow.id_of_read hx⟩

/-- What is left by a deletion by name that succeeds. -/
theorem recordings_of_deletion_by_name (hreach : s.Reachable) (hfree : s.Untriggered)
    {report : DeletionReport}
    (hok : (s.deleteRecordings r.camera (.recording r.date r.filename) lookback now).1 =
      .ok report) :
    (r.nameSecond.seconds : ℤ) / 86400 = r.date.day ∧
      (s.deleteRecordings r.camera (.recording r.date r.filename) lookback now).2.recordings.rows =
        s.recordings.rows.filter fun q => ¬ Namesake r q := by
  cases htargets : s.targets r.camera (.recording r.date r.filename) with
  | error e =>
    rw [deleteRecordings_of_error htargets] at hok
    cases hok
  | ok found =>
    rw [deleteRecordings_of_ok htargets] at hok ⊢
    obtain ⟨ds, hds, -⟩ := map_eq_ok_iff.1 hok
    obtain ⟨hday, hnamesakes⟩ := id_mem_targets_iff hreach.sound.recordings.nodup_ids htargets
    refine ⟨hday, (hfree.deleteEach_rows hds).trans ?_⟩
    exact List.filter_congr fun q hq => by rw [decide_eq_decide, hnamesakes q hq]

/-- A deletion by the date and the filename of a recording that succeeds takes what goes by this name:
the recordings of the camera that start in the second that the filename writes, which is a second of
the date. So it takes that one recording and no other if and only if its start can be written in ten
digits and no other recording of the camera starts in the same second. -/
theorem deleteRecordings_by_name (hreach : s.Reachable) (hfree : s.Untriggered)
    (hrow : row ∈ s.recordings.rows) (hr : row.read = .ok r) {report : DeletionReport}
    (hok : (s.deleteRecordings r.camera (.recording r.date r.filename) lookback now).1 =
      .ok report) :
    let left :=
      (s.deleteRecordings r.camera (.recording r.date r.filename) lookback now).2.recordings.rows
    0 ≤ r.start.seconds ∧ (r.nameSecond.seconds : ℤ) / 86400 = r.date.day ∧
      left = (s.recordings.rows.filter fun q => ¬ Namesake r q) ∧
      (row ∉ left ↔ r.start.seconds < 10000000000) ∧
      (left = (s.recordings.rows.filter fun q => q.id ≠ row.id) ↔
        r.start.seconds < 10000000000 ∧
          ∀ q ∈ s.recordings.rows, q.camera = r.camera → q.startTime = row.startTime → q = row) := by
  intro left
  obtain ⟨hday, hleft⟩ : _ ∧ left = _ := recordings_of_deletion_by_name hreach hfree hok
  clear_value left
  have hsame {q : RecordingRow} (hq : q ∈ s.recordings.rows) (hid : q.id = row.id) : q = row :=
    List.inj_on_of_nodup_map hreach.sound.recordings.nodup_ids hq hrow hid
  have hstart := r.start_nonneg_of_nameSecond hday
  have hself : Namesake r row ↔ r.start.seconds < 10000000000 := by
    rw [namesake_self_iff hr, and_iff_right hstart]
  have hgone {q : RecordingRow} (hq : q ∈ s.recordings.rows) : q ∉ left ↔ Namesake r q := by
    rw [hleft, List.mem_filter, and_iff_right hq, decide_eq_true_iff, not_not]
  refine ⟨hstart, hday, hleft, (hgone hrow).trans hself, fun heq => ?_, ?_⟩
  · have hothers {q : RecordingRow} (hq : q ∈ s.recordings.rows) :
        Namesake r q ↔ q.id = row.id := by
      rw [← hgone hq, heq, List.mem_filter, and_iff_right hq, decide_eq_true_iff, not_not]
    have hname : Namesake r row := (hothers hrow).2 rfl
    refine ⟨hself.1 hname, fun q hq hcamera hq' => hsame hq ?_⟩
    exact (hothers hq).1 ⟨hcamera, hq'.trans hname.2⟩
  · rintro ⟨hlate, honly⟩
    have hname := hself.2 hlate
    rw [hleft]
    refine List.filter_congr fun q hq => decide_eq_decide.2 (not_congr ⟨fun hq' => ?_, fun hid => ?_⟩)
    · rw [honly q hq hq'.1 (hq'.2.trans hname.2.symm)]
    · exact hsame hq hid ▸ hname

/-! ### Recordings of one name -/

/-- Two recordings of a camera start in the same second, and one later. -/
def twins : Store :=
  { fresh with
    recordings := ⟨[recordingAt 1 1000, recordingAt 2 1000, recordingAt 3 2000,
      { recordingAt 4 1000 with camera := "yard" }], 4⟩ }

theorem reachable_twins : twins.Reachable := by
  have h : twins = (Session.run [.insertRecording ⟨"cam", early 1000, none, none, ""⟩ (early 0),
    .insertRecording ⟨"cam", early 1000, none, none, ""⟩ (early 0),
    .insertRecording ⟨"cam", early 2000, none, none, ""⟩ (early 0),
    .insertRecording ⟨"yard", early 1000, none, none, ""⟩ (early 0)] (.ofStore fresh)).2.store := by
    decide
  exact h ▸ Session.reachable_run _

theorem untriggered_twins : twins.Untriggered := rfl

/-- A recording as it is read. -/
def readingOf (id : ℤ) (start inserted : Fin 3600) : Recording :=
  ⟨⟨"cam", early start, none, none, ""⟩, id, none, early inserted, none⟩

/-- The recording that is alone in its second goes by name, and no other. -/
theorem deleteRecordings_by_name_twins :
    let r := readingOf 3 2000 0
    twins.Reachable ∧ twins.Untriggered ∧ recordingAt 3 2000 ∈ twins.recordings.rows ∧
      (recordingAt 3 2000).read = .ok r ∧
      ∃ report,
        (twins.deleteRecordings r.camera (.recording r.date r.filename) 0 (early 3000)).1 =
          .ok report ∧
        (twins.deleteRecordings r.camera (.recording r.date r.filename) 0
          (early 3000)).2.recordings.rows =
            twins.recordings.rows.filter fun q => q.id ≠ (recordingAt 3 2000).id := by
  intro r
  have hrow : recordingAt 3 2000 ∈ twins.recordings.rows := by decide
  have hr : (recordingAt 3 2000).read = .ok r := by decide
  have hrows : twins.recordings.select (Query.Recordings.byStart "cam" 2000) =
      .ok [recordingAt 3 2000] := by cbv
  have htargets : twins.targets r.camera (.recording r.date r.filename) = .ok [r] :=
    targets_by_name [r] hrows (by decide) (by decide)
  have hok : (twins.deleteRecordings r.camera (.recording r.date r.filename) 0 (early 3000)).1 =
      .ok ⟨[⟨3, 0, 0⟩]⟩ := by
    rw [deleteRecordings_of_ok htargets]
    with_unfolding_all decide
  have halone : ∀ q ∈ twins.recordings.rows, q.camera = r.camera →
      q.startTime = (recordingAt 3 2000).startTime → q = recordingAt 3 2000 := by decide
  have hlate : r.start.seconds < 10000000000 := by decide
  clear_value r
  have h := deleteRecordings_by_name reachable_twins untriggered_twins hrow hr hok
  exact ⟨reachable_twins, untriggered_twins, hrow, hr, _, hok, h.2.2.2.2.2 ⟨hlate, halone⟩⟩

/-- Of two recordings that start in the same second both go by the name of the first. -/
theorem both_go_by_name_twins :
    let r := readingOf 1 1000 0
    recordingAt 1 1000 ∈ twins.recordings.rows ∧ (recordingAt 1 1000).read = .ok r ∧
      (twins.deleteRecordings r.camera (.recording r.date r.filename) 0 (early 3000)).1 =
        .ok ⟨[⟨1, 0, 0⟩, ⟨2, 0, 0⟩]⟩ ∧
      recordingAt 2 1000 ∈ twins.recordings.rows ∧
      recordingAt 2 1000 ∉ (twins.deleteRecordings r.camera (.recording r.date r.filename) 0
        (early 3000)).2.recordings.rows := by
  intro r
  have hrows : twins.recordings.select (Query.Recordings.byStart "cam" 1000) =
      .ok [recordingAt 1 1000, recordingAt 2 1000] := by cbv
  have htargets : twins.targets r.camera (.recording r.date r.filename) =
      .ok [r, readingOf 2 1000 0] :=
    targets_by_name [r, readingOf 2 1000 0] hrows (by decide) (by decide)
  rw [deleteRecordings_of_ok htargets]
  with_unfolding_all decide

end Store

end Footage
