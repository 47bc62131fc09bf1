import Footage.Proofs.Outcome
import Footage.Proofs.Sql.Selection
import Footage.Proofs.Store.Trigger
import Footage.Store.Deletion
import Footage.Store.Events

/-! What each operation leaves when it succeeds. Statements are taken apart here once: a
row is added at the end of its table with the next id, a move renames a file and its
metadata together, and a deletion takes the rows of some paths from two tables. -/

namespace Footage

open Outcome Sql

/-! ### Statements -/

theorem Sql.writable_of_accept {pieces : List Piece} {u : Unit} (h : accept pieces = .ok u) :
    ∀ s ∈ literals pieces, Writable s := (accept_eq_ok_iff pieces).1 h

theorem Sql.Insert.writable_of_check {insert : Insert} {u : Unit} (h : insert.check = .ok u) :
    ∀ a ∈ insert.assignments, ∀ s, a.2 = .text s → Writable s := by
  obtain ⟨v, haccept, -⟩ := bind_eq_ok_iff.1 h
  intro a ha s hs
  apply writable_of_accept haccept
  rw [literals_insert]
  exact List.mem_flatMap.2 ⟨a, ha, by simp [hs, Value.text?]⟩

namespace Table

variable {κ ρ : Type} [Row ρ κ]

theorem add_eq_ok {t t' : Table ρ} {row : ℤ → ρ} {id : ℤ} (h : t.add row = .ok (id, t')) :
    id = t.greatestId + 1 ∧ t' = ⟨t.rows ++ [row id], id⟩ := by
  unfold add at h
  simp only at h
  split_ifs at h
  cases h
  exact ⟨rfl, rfl⟩

theorem has_eq_true_iff {t : Table ρ} {condition : Condition κ} :
    t.has condition = true ↔ ∃ r ∈ t.rows, condition.holds (Row.value r) = true := by
  rw [has, List.any_eq_true]

end Table

namespace Store

variable {s s' : Store}

/-! ### Files -/

theorem hasFile_eq_true_iff {path : String} : s.hasFile path = true ↔ ∃ r ∈ s.files.rows, r.path = path := by
  simp [hasFile]

theorem holds_filePath {path : String} {r : FileRow} :
    (Condition.equals FileColumn.path (.text path)).holds (Row.value r) ↔ r.path = path :=
  holds_equals_text rfl

theorem insertFile_eq_ok {file : NewFile} {now : Time} {id : ℤ}
    (h : s.insertFile file now = .ok (id, s')) :
    (Writable file.camera ∧ Writable file.placement.path) ∧
    s.hasFile file.placement.path = false ∧ id = s.files.greatestId + 1 ∧
    s' = { s with files := ⟨s.files.rows ++ [FileRow.ofNew file now.seconds id], id⟩ } := by
  obtain ⟨u, hcheck, h⟩ := bind_eq_ok_iff.1 h
  obtain ⟨⟨n, files⟩, hadd, h⟩ := bind_eq_ok_iff.1 h
  obtain ⟨hn, rfl⟩ := Table.add_eq_ok hadd
  simp only at h
  split_ifs at h with hpath
  cases h
  have hw := Insert.writable_of_check hcheck
  refine ⟨⟨?_, ?_⟩, by simpa using hpath, hn, rfl⟩
  · exact hw (FileColumn.camera.name, .text file.camera) (by simp [Query.Files.insert]) _ rfl
  · exact hw (FileColumn.path.name, .text file.placement.path) (by simp [Query.Files.insert]) _ rfl

/-- Metadata goes to a file that is there and has none. -/
theorem insertMeta_eq_ok {metadata : NewMeta} {now : Time} {id : ℤ}
    (h : s.insertMeta metadata now = .ok (id, s')) :
    s.hasFile metadata.path = true ∧ s.metaRow? metadata.path = none ∧
    id = s.filesMeta.greatestId + 1 ∧
    s' = { s with
      filesMeta := ⟨s.filesMeta.rows ++
        [MetaRow.ofNew metadata (Json.Value.object metadata.content).text now.seconds id], id⟩ } := by
  obtain ⟨found, hfound, h⟩ := bind_eq_ok_iff.1 h
  obtain ⟨-, rfl⟩ := Table.select_eq_ok_iff.1 hfound
  cases hempty : ((Query.Files.exist metadata.path).rows Row.value s.files.rows).isEmpty with
  | true =>
    rw [if_pos hempty] at h
    cases h
  | false =>
    rw [if_neg (by simp [hempty])] at h
    obtain ⟨u, hcheck, h⟩ := bind_eq_ok_iff.1 h
    obtain ⟨⟨n, filesMeta⟩, hadd, h⟩ := bind_eq_ok_iff.1 h
    obtain ⟨hn, rfl⟩ := Table.add_eq_ok hadd
    simp only at h
    split_ifs at h with hmeta
    cases h
    refine ⟨?_, by simpa using hmeta, hn, rfl⟩
    rw [rows_of_unordered rfl rfl, List.isEmpty_eq_false_iff] at hempty
    obtain ⟨r, hr⟩ := List.exists_mem_of_ne_nil _ hempty
    obtain ⟨hmem, hholds⟩ := List.mem_filter.1 hr
    exact hasFile_eq_true_iff.2 ⟨r, hmem, holds_filePath.1 hholds⟩

/-- A move can be written if all its texts can. -/
theorem accept_move_eq_ok_iff {oldPath : String} {placement : Placement} {n : ℤ} :
    accept (Query.Files.move oldPath placement n).pieces = .ok () ↔
      Writable placement.path ∧ Writable placement.directory ∧ Writable placement.filename ∧
        Writable oldPath := by
  rw [accept_eq_ok_iff, literals_update]
  simp [Query.Files.move, Value.text?, Condition.equals, Condition.texts, Term.texts]

/-- A move finds the rows of the old path. -/
theorem holds_move {oldPath : String} {placement : Placement} {n : ℤ} {r : FileRow} :
    (Query.Files.move oldPath placement n).condition.holds (Row.value r) ↔ r.path = oldPath :=
  holds_filePath

theorem has_move {oldPath : String} {placement : Placement} {n : ℤ} :
    s.files.has (Query.Files.move oldPath placement n).condition = s.hasFile oldPath := by
  rw [Bool.eq_iff_iff, Table.has_eq_true_iff, hasFile_eq_true_iff]
  exact exists_congr fun r => and_congr_right fun _ => holds_move

/-- The rows of a file and of its metadata take the new path together, if the file is there, the
path is free or its own, and the statement can be written. -/
theorem moveFile_eq_ok_iff {oldPath : String} {placement : Placement} {now : Time} :
    s.moveFile oldPath placement now = .ok s' ↔
      (Writable placement.path ∧ Writable placement.directory ∧ Writable placement.filename ∧
        Writable oldPath) ∧
      s.hasFile oldPath = true ∧
      (placement.path ≠ oldPath → s.hasFile placement.path = false) ∧
      s' = { s with
        files := s.files.map fun r =>
          if r.path = oldPath then r.moved placement now.seconds else r
        filesMeta := s.filesMeta.map (MetaRow.follow oldPath placement.path) } := by
  have hif (r : FileRow) :
      (if (Query.Files.move oldPath placement now.seconds).condition.holds (Row.value r)
        then r.moved placement now.seconds else r) =
      if r.path = oldPath then r.moved placement now.seconds else r :=
    if_congr holds_move rfl rfl
  unfold moveFile
  simp only [has_move, Table.update, hif, bind_eq_ok_iff, exists_and_right,
    exists_eq_ok_unit_iff, accept_move_eq_ok_iff]
  refine and_congr_right fun _ => ?_
  cases s.hasFile oldPath with
  | false => simp
  | true =>
    by_cases htaken : placement.path ≠ oldPath ∧ s.hasFile placement.path = true
    · simp [htaken]
    · have hfree : placement.path ≠ oldPath → s.hasFile placement.path = false := fun hne => by
        simpa [hne] using htaken
      simp only [Bool.not_true, Bool.false_eq_true, if_false, htaken, pure_eq_ok, Except.ok.injEq,
        true_and]
      exact ⟨fun h => ⟨hfree, h.symm⟩, fun h => h.2.symm⟩

theorem moveFile_eq_ok {oldPath : String} {placement : Placement} {now : Time}
    (h : s.moveFile oldPath placement now = .ok s') :
    Writable placement.path ∧ (placement.path ≠ oldPath → s.hasFile placement.path = false) ∧
    s' = { s with
      files := s.files.map fun r =>
        if r.path = oldPath then r.moved placement now.seconds else r
      filesMeta := s.filesMeta.map (MetaRow.follow oldPath placement.path) } := by
  obtain ⟨⟨hpath, -⟩, -, hfree, hs'⟩ := moveFile_eq_ok_iff.1 h
  exact ⟨hpath, hfree, hs'⟩

/-! ### Recordings -/

theorem holds_recordingId {id : ℤ} {r : RecordingRow} :
    (Condition.equals RecordingColumn.id (.integer id)).holds (Row.value r) ↔ r.id = id :=
  holds_equals_integer rfl

/-- A recording is that of the first row with its id. -/
theorem recording_eq (s : Store) (id : ℤ) :
    s.recording id = match s.recordings.rows.find? fun row => row.id = id with
      | none => .error (.notFound (.recording id))
      | some row => row.read := by
  have hrows : (Query.Recordings.byId id).rows Row.value s.recordings.rows =
      s.recordings.rows.filter fun row => row.id = id := by
    rw [rows_of_unordered rfl rfl]
    exact List.filter_congr fun row _ => by
      rw [Bool.eq_iff_iff, decide_eq_true_iff]
      exact holds_recordingId
  have htexts : (Query.Recordings.byId id).condition.texts = [] := rfl
  have hselect : s.recordings.select (Query.Recordings.byId id) =
      .ok (s.recordings.rows.filter fun row => row.id = id) := by
    rw [Table.select_of_writable (by simp [htexts]), hrows]
  simp only [recording, recording?, hselect, ok_bind, List.head?_filter]
  cases s.recordings.rows.find? fun row => row.id = id with
  | none => rfl
  | some row => cases hread : row.read <;> simp [hread, Functor.map, Except.map]

theorem recording_eq_ok_iff {id : ℤ} {r : Recording} :
    s.recording id = .ok r ↔
      ∃ row, (s.recordings.rows.find? fun row => row.id = id) = some row ∧ row.read = .ok r := by
  rw [recording_eq]
  cases s.recordings.rows.find? fun row => row.id = id <;> simp

theorem insertRecording_eq_ok {r : NewRecording} {now : Time} {id : ℤ}
    (h : s.insertRecording r now = .ok (id, s')) :
    (Writable r.camera ∧ Writable r.thumbnail) ∧ id = s.recordings.greatestId + 1 ∧
    s' = { s with
      recordings := ⟨s.recordings.rows ++ [RecordingRow.ofNew r now.seconds id], id⟩ } := by
  obtain ⟨u, hcheck, h⟩ := bind_eq_ok_iff.1 h
  obtain ⟨⟨n, recordings⟩, hadd, h⟩ := bind_eq_ok_iff.1 h
  obtain ⟨hn, rfl⟩ := Table.add_eq_ok hadd
  cases h
  have hw := Insert.writable_of_check hcheck
  refine ⟨⟨?_, ?_⟩, hn, rfl⟩
  · exact hw (RecordingColumn.camera.name, .text r.camera) (by simp [Query.Recordings.insert]) _ rfl
  · exact hw (RecordingColumn.thumbnail.name, .text r.thumbnail) (by simp [Query.Recordings.insert])
      _ rfl

/-- The row of a recording once it has ended. -/
def finished (stop now : Time) (row : RecordingRow) : RecordingRow :=
  { row with endTime := .integer stop.seconds, updatedAt := .integer now.seconds }

theorem finishRecording_eq_ok {id : ℤ} {stop now : Time} {r : Recording}
    (h : s.finishRecording id stop now = .ok (r, s')) :
    (∃ q, s.recording id = .ok q ∧ q.start.le stop) ∧
    s' = { s with
      recordings := s.recordings.map fun row => if row.id = id then finished stop now row else row } := by
  obtain ⟨q, hq, h⟩ := bind_eq_ok_iff.1 h
  cases hle : q.start.le stop with
  | false =>
    rw [hle] at h
    cases h
  | true =>
    rw [hle] at h
    obtain ⟨r, -, h⟩ := bind_eq_ok_iff.1 h
    cases h
    refine ⟨⟨q, hq, hle⟩, ?_⟩
    have hif (row : RecordingRow) :
        (if (Query.Recordings.finish id stop.seconds now.seconds).condition.holds (Row.value row)
          then finished stop now row else row) =
        if row.id = id then finished stop now row else row :=
      if_congr holds_recordingId rfl rfl
    simp only [Table.update, finished] at hif ⊢
    simp only [hif]

/-! ### Objects and motion -/

theorem insertObject_eq_ok {d : Detection} {detected : Time} {id : ℤ}
    (h : s.insertObject d detected = .ok (id, s')) :
    id = s.objects.greatestId + 1 ∧
    s' = { s with
      objects := ⟨s.objects.rows ++ [ObjectRow.ofNew d detected.seconds id], id⟩ } := by
  obtain ⟨u, -, h⟩ := bind_eq_ok_iff.1 h
  obtain ⟨⟨n, objects⟩, hadd, h⟩ := bind_eq_ok_iff.1 h
  obtain ⟨hn, rfl⟩ := Table.add_eq_ok hadd
  cases h
  exact ⟨hn, rfl⟩

theorem insertMotion_eq_ok {camera : String} {start now : Time} {id : ℤ}
    (h : s.insertMotion camera start now = .ok (id, s')) :
    id = s.motion.greatestId + 1 ∧
    s' = { s with
      motion := ⟨s.motion.rows ++ [MotionRow.ofNew camera start now.seconds id], id⟩ } := by
  obtain ⟨u, -, h⟩ := bind_eq_ok_iff.1 h
  obtain ⟨⟨n, motion⟩, hadd, h⟩ := bind_eq_ok_iff.1 h
  obtain ⟨hn, rfl⟩ := Table.add_eq_ok hadd
  cases h
  exact ⟨hn, rfl⟩

/-! ### Deletion -/

theorem holds_oneOf_filePath {paths : List String} {r : FileRow} :
    (Query.Files.deletePaths paths).condition.holds r.value ↔ r.path ∈ paths :=
  holds_oneOf_text (c := FileColumn.path) rfl

theorem holds_oneOf_metaPath {paths : List String} {m : MetaRow} :
    (Query.FilesMeta.deletePaths paths).condition.holds m.value ↔ m.path ∈ paths :=
  holds_oneOf_text (c := MetaColumn.path) rfl

theorem accept_deletePaths_iff {κ : Type} [Named κ] (table : String) (c : κ) {paths : List String} :
    accept (Delete.pieces ⟨table, Condition.oneOf c (paths.map .text)⟩) = .ok () ↔
      ∀ p ∈ paths, Writable p := by
  rw [accept_eq_ok_iff, literals_delete]
  simp [Condition.texts, List.flatMap_map, Value.text?]

/-- The store without the files of some paths and their metadata. -/
def withoutPaths (s : Store) (paths : List String) : Store :=
  { s with
    files := s.files.filter fun r => r.path ∉ paths
    filesMeta := s.filesMeta.filter fun m => m.path ∉ paths }

theorem deleteMetas_eq_ok_iff {paths : List String} :
    s.deleteMetas paths = .ok s' ↔
      (∀ p ∈ paths, Writable p) ∧
      s' = { s with filesMeta := s.filesMeta.filter fun m => m.path ∉ paths } := by
  have hkeep (m : MetaRow) : (!(Query.FilesMeta.deletePaths paths).condition.holds m.value) =
      decide (m.path ∉ paths) := by
    rw [Bool.eq_iff_iff, Bool.not_eq_true', decide_eq_true_iff, ← holds_oneOf_metaPath,
      Bool.not_eq_true]
  rw [← accept_deletePaths_iff Schema.filesMeta MetaColumn.path]
  change (accept (Query.FilesMeta.deletePaths paths).pieces >>= fun _ => _) = _ ↔
    accept (Query.FilesMeta.deletePaths paths).pieces = _ ∧ _
  rw [bind_eq_ok_iff]
  simp only [hkeep, pure_eq_ok, Except.ok.injEq, exists_and_right, eq_comm (b := s')]
  exact and_congr_left' exists_eq_ok_unit_iff

theorem deleteFiles_eq_ok_iff {paths : List String} {count : ℕ} :
    s.deleteFiles paths = .ok (count, s') ↔
      (∀ p ∈ paths, Writable p) ∧ count = (s.files.rows.filter fun r => r.path ∈ paths).length ∧
      s' = { s with
        files := s.files.filter fun r => r.path ∉ paths
        filesMeta := s.filesMeta.filter fun m =>
          !(s.files.rows.filter fun r => r.path ∈ paths).any fun r => r.path = m.path } := by
  have hgone (r : FileRow) : (Query.Files.deletePaths paths).condition.holds r.value =
      decide (r.path ∈ paths) := by
    rw [Bool.eq_iff_iff, decide_eq_true_iff, ← holds_oneOf_filePath]
  rw [← accept_deletePaths_iff Schema.files FileColumn.path]
  change (accept (Query.Files.deletePaths paths).pieces >>= fun _ => _) = _ ↔
    accept (Query.Files.deletePaths paths).pieces = _ ∧ _
  rw [bind_eq_ok_iff]
  simp only [hgone, pure_eq_ok, Except.ok.injEq, Prod.mk.injEq, exists_and_right, eq_comm (b := s'),
    eq_comm (b := count), decide_not]
  exact and_congr_left' exists_eq_ok_unit_iff

/-- Once the metadata of the paths is gone, their files take no other metadata along. -/
theorem deletePaths_eq_ok_iff {paths : List String} {count : ℕ} :
    (s.deleteMetas paths >>= fun s => s.deleteFiles paths) = .ok (count, s') ↔
      (∀ p ∈ paths, Writable p) ∧ count = (s.files.rows.filter fun r => r.path ∈ paths).length ∧
      s' = s.withoutPaths paths := by
  have hmetas : (s.filesMeta.filter fun m => m.path ∉ paths).filter (fun m =>
      !(s.files.rows.filter fun r => r.path ∈ paths).any fun r => r.path = m.path) =
      s.filesMeta.filter fun m => m.path ∉ paths := by
    have hrows : (s.filesMeta.rows.filter fun m => m.path ∉ paths).filter (fun m =>
        !(s.files.rows.filter fun r => r.path ∈ paths).any fun r => r.path = m.path) =
        s.filesMeta.rows.filter fun m => m.path ∉ paths := by
      rw [List.filter_eq_self]
      intro m hm
      rw [Bool.not_eq_true', List.any_eq_false]
      intro r hr heq
      have hrpath : r.path ∈ paths := by simpa using (List.mem_filter.1 hr).2
      have hmpath : m.path ∉ paths := by simpa using (List.mem_filter.1 hm).2
      rw [decide_eq_true_iff] at heq
      exact hmpath (heq ▸ hrpath)
    simp only [Table.filter, hrows]
  rw [bind_eq_ok_iff]
  constructor
  · rintro ⟨t, ht, h⟩
    obtain ⟨hw, rfl⟩ := deleteMetas_eq_ok_iff.1 ht
    obtain ⟨-, hcount, rfl⟩ := deleteFiles_eq_ok_iff.1 h
    exact ⟨hw, hcount, by simp only [hmetas, withoutPaths]⟩
  · rintro ⟨hw, hcount, rfl⟩
    refine ⟨_, deleteMetas_eq_ok_iff.2 ⟨hw, rfl⟩, deleteFiles_eq_ok_iff.2 ⟨hw, hcount, ?_⟩⟩
    simp only [hmetas, withoutPaths]

/-! ### Deleting a recording -/

/-- The paths that go with a recording: its fragments but for the shared ones, and its thumbnail. -/
def doomedPaths (r : Recording) (fragments : List Fragment) (shared : List String) : List String :=
  let ours := (fragments.map Fragment.path).filter fun path => !shared.contains path
  if r.thumbnail = "" then ours else ours ++ [r.thumbnail]

/-- How many rows a deletion of a recording counts, and the rows that it leaves with its triggers. -/
def recordingsWithout (s : Store) (id : ℤ) : Except Error (ℕ × List RecordingRow) :=
  deleteWhere (Trigger.deleteRow s.triggers Trigger.greatestDepth [])
    (Query.Recordings.delete id).condition s.recordings.rows

/-- The rows that a deletion looks for all have the id. -/
theorem mem_idsWhere_delete {id id' : ℤ} {rows : List RecordingRow} :
    id' ∈ idsWhere (Query.Recordings.delete id).condition rows ↔ id' = id ∧ ∃ r ∈ rows, r.id = id := by
  simp only [idsWhere, List.mem_map, List.mem_filter]
  constructor
  · rintro ⟨r, ⟨hr, hid⟩, rfl⟩
    exact ⟨holds_recordingId.1 hid, r, hr, holds_recordingId.1 hid⟩
  · rintro ⟨rfl, r, hr, hid⟩
    exact ⟨r, ⟨hr, holds_recordingId.2 hid⟩, hid⟩

section Rows
variable {id : ℤ} {removed : ℕ} {rows : List RecordingRow}

theorem thins_recordingsWithout (s : Store) (id : ℤ) :
    Thins (Trigger.Raises s.triggers) s.recordings.rows (s.recordingsWithout id) :=
  thins_deleteWhere (fun id rows => Trigger.thins_deleteRow _ _ _ id rows) _ _

/-- A deletion that counts a row has taken the recording, whatever triggers take along. -/
theorem sublist_of_recordingsWithout (h : s.recordingsWithout id = .ok (removed, rows))
    (hremoved : removed ≠ 0) : rows.Sublist (s.recordings.rows.filter fun r => r.id ≠ id) := by
  obtain ⟨id', hid', hrows⟩ := sublist_of_deleteIds
    (fun id rows => Trigger.thins_deleteRow _ _ _ id rows) Trigger.sublist_of_deleteRow h hremoved
  obtain ⟨rfl, -⟩ := mem_idsWhere_delete.1 hid'
  exact hrows

/-- Where triggers spare none, a deletion that counts no row has found none. -/
theorem absent_of_recordingsWithout (hspare : ∀ t ∈ s.triggers, t.SparesNone)
    (h : s.recordingsWithout id = .ok (0, rows)) : ∀ r ∈ s.recordings.rows, r.id ≠ id := by
  intro r hr hid
  unfold recordingsWithout deleteWhere at h
  have hmem := mem_idsWhere_delete.2 ⟨rfl, r, hr, hid⟩
  cases hids : idsWhere (Query.Recordings.delete id).condition s.recordings.rows with
  | nil =>
    rw [hids] at hmem
    cases hmem
  | cons first ids =>
    obtain ⟨rfl, -⟩ := mem_idsWhere_delete.1 (hids ▸ List.mem_cons_self)
    rw [hids] at h
    obtain ⟨left, hleft⟩ := deleteRow_of_deleteIds h
    exact Trigger.absent_of_deleteRow hspare hleft r hr hid

/-- Without triggers the recording goes, and no other one. -/
theorem recordingsWithout_of_untriggered (h : s.triggers = []) (id : ℤ) :
    ∃ removed, s.recordingsWithout id =
        .ok (removed, s.recordings.rows.filter fun r => r.id ≠ id) ∧
      (removed = 0 → ∀ r ∈ s.recordings.rows, r.id ≠ id) := by
  obtain ⟨removed, hrows, hnone⟩ := deleteIds_of_untriggered Trigger.greatestDepth []
    (idsWhere (Query.Recordings.delete id).condition s.recordings.rows) s.recordings.rows
  have hids (r : RecordingRow) (hr : r ∈ s.recordings.rows) :
      r.id ∈ idsWhere (Query.Recordings.delete id).condition s.recordings.rows ↔ r.id = id :=
    mem_idsWhere_delete.trans ⟨And.left, fun hid => ⟨hid, r, hr, hid⟩⟩
  refine ⟨removed, ?_, fun hzero r hr => mt (hids r hr).2 (hnone hzero r hr)⟩
  rw [recordingsWithout, h, deleteWhere, hrows]
  congr 2
  exact List.filter_congr fun r hr => decide_eq_decide.2 (not_congr (hids r hr))

end Rows

theorem deleteRecordingRow_eq (s : Store) (id : ℤ) :
    s.deleteRecordingRow id =
      (s.recordingsWithout id).map fun p => (p.1, { s with recordings.rows := p.2 }) := by
  unfold deleteRecordingRow recordingsWithout
  cases deleteWhere (Trigger.deleteRow s.triggers Trigger.greatestDepth [])
    (Query.Recordings.delete id).condition s.recordings.rows <;> rfl

theorem deleteRecordingRow_eq_ok_iff {id : ℤ} {removed : ℕ} :
    s.deleteRecordingRow id = .ok (removed, s') ↔
      ∃ rows, s.recordingsWithout id = .ok (removed, rows) ∧
        s' = { s with recordings.rows := rows } := by
  simp only [deleteRecordingRow_eq, map_eq_ok_iff, Prod.exists, Prod.mk.injEq, eq_comm (b := s')]
  exact ⟨fun ⟨_, rows, h, hn, hs⟩ => ⟨rows, hn ▸ h, hs⟩, fun ⟨rows, h, hs⟩ => ⟨_, rows, h, rfl, hs⟩⟩

/-- A deletion takes the files of the doomed paths with their metadata, and rows of recordings, of which
it has to count one. -/
theorem deleteRecording_eq_ok_iff {id : ℤ} {lookback : ℕ} {now : Time} {d : Deletion} :
    s.deleteRecording id lookback now = .ok (d, s') ↔
      ∃ r fragments shared removed rows, s.recording id = .ok r ∧
        s.fragmentsOf r lookback now = .ok fragments ∧
        s.sharedPaths r fragments lookback now = .ok shared ∧
        (∀ p ∈ doomedPaths r fragments shared, Writable p) ∧
        s.recordingsWithout id = .ok (removed, rows) ∧ removed ≠ 0 ∧
        d = ⟨id, (s.files.rows.filter fun f => f.path ∈ doomedPaths r fragments shared).length,
          shared.length⟩ ∧
        s' = { s.withoutPaths (doomedPaths r fragments shared) with recordings.rows := rows } := by
  constructor
  · intro h
    obtain ⟨r, hr, h⟩ := bind_eq_ok_iff.1 h
    obtain ⟨fragments, hfragments, h⟩ := bind_eq_ok_iff.1 h
    obtain ⟨shared, hshared, h⟩ := bind_eq_ok_iff.1 h
    obtain ⟨t, ht, h⟩ := bind_eq_ok_iff.1 h
    obtain ⟨⟨count, u⟩, hu, h⟩ := bind_eq_ok_iff.1 h
    obtain ⟨⟨removed, v⟩, hv, h⟩ := bind_eq_ok_iff.1 h
    obtain ⟨hw, hcount, rfl⟩ := deletePaths_eq_ok_iff.1 (bind_eq_ok_iff.2 ⟨t, ht, hu⟩)
    obtain ⟨rows, hrows, rfl⟩ := deleteRecordingRow_eq_ok_iff.1 hv
    cases removed with
    | zero => cases h
    | succ n =>
      cases h
      exact ⟨r, fragments, shared, n + 1, rows, hr, hfragments, hshared, hw, hrows, n.succ_ne_zero,
        hcount ▸ rfl, rfl⟩
  · rintro ⟨r, fragments, shared, removed, rows, hr, hfragments, hshared, hw, hrows, hnone, rfl, rfl⟩
    obtain ⟨t, ht, hu⟩ := bind_eq_ok_iff.1 (deletePaths_eq_ok_iff.2 ⟨hw, rfl, rfl⟩)
    have hv := (deleteRecordingRow_eq_ok_iff (s := s.withoutPaths (doomedPaths r fragments shared))).2
      ⟨rows, hrows, rfl⟩
    unfold deleteRecording
    rw [hr, ok_bind, hfragments, ok_bind, hshared, ok_bind]
    refine bind_eq_ok_iff.2 ⟨t, ht, bind_eq_ok_iff.2 ⟨_, hu, bind_eq_ok_iff.2 ⟨_, hv, ?_⟩⟩⟩
    exact if_neg hnone

/-- Rows of three tables go, and that of the recording is among them. -/
theorem deleteRecording_eq_ok {id : ℤ} {lookback : ℕ} {now : Time} {d : Deletion}
    (h : s.deleteRecording id lookback now = .ok (d, s')) :
    d.recording = id ∧ ∃ paths rows, rows.Sublist (s.recordings.rows.filter fun r => r.id ≠ id) ∧
      s' = { s.withoutPaths paths with recordings.rows := rows } := by
  obtain ⟨r, fragments, shared, removed, rows, -, -, -, -, hrows, hremoved, rfl, rfl⟩ :=
    deleteRecording_eq_ok_iff.1 h
  exact ⟨rfl, _, rows, sublist_of_recordingsWithout hrows hremoved, rfl⟩

end Store

end Footage
