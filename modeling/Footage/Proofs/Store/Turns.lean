import Footage.Proofs.Store.Deletion
import Footage.Proofs.Store.Listing
import Footage.Proofs.Store.Runs

/-! Deleting recordings of a camera one after the other. Together they take what no
recording outside of them has: a file that several of them share is kept by the
earlier ones and goes with the last, so the order does not matter. -/

namespace Footage

open Outcome Sql

namespace Store

variable {s s' : Store} {lookback : ℕ} {now : Time} {row : RecordingRow}

/-! ### What goes with several recordings -/

section Turns
variable {camera path : String} {id : ℤ} {ids : List ℤ}

theorem Doomed.mono (h : s.Doomed camera ids lookback now path) {ids' : List ℤ} (hsub : ids ⊆ ids') :
    s.Doomed camera ids' lookback now path := by
  rcases h with ⟨⟨row, hrow, hmem, hpath⟩, hnone⟩ | ⟨row, hrow, hmem, hthumbnail⟩
  · left
    exact ⟨⟨row, hrow, hsub hmem, hpath⟩, fun q hq hcamera hid => hnone q hq hcamera (hid <| hsub ·)⟩
  · exact .inr ⟨row, hrow, hsub hmem, hthumbnail⟩

theorem mem_without_of_ne (hrow : row ∈ s.recordings.rows) (hne : row.id ≠ id) :
    row ∈ (s.without camera [id] lookback now).recordings.rows :=
  mem_recordings_without.2 ⟨hrow, by rwa [List.mem_singleton]⟩

theorem Sound.mem_footagePaths_without_of_ne (hs : s.Sound) (hrow : row ∈ s.recordings.rows)
    (hne : row.id ≠ id) :
    path ∈ (s.without camera [id] lookback now).footagePaths lookback now row ↔
      path ∈ s.footagePaths lookback now row ∧ ¬ s.Doomed camera [id] lookback now path :=
  hs.mem_footagePaths_without hrow (by rwa [List.mem_singleton])

/-- What goes in the second turn would go at once. The recordings that have a file then had it at
first, and the first recording does not count as one that keeps it. -/
theorem Doomed.of_without (hs : s.Sound)
    (h : (s.without camera [id] lookback now).Doomed camera ids lookback now path) :
    s.Doomed camera (id :: ids) lookback now path := by
  rcases h with ⟨⟨row, hrow, hmem, hpath⟩, hnone⟩ | ⟨row, hrow, hmem, hthumbnail⟩
  · left
    obtain ⟨hrow, hne⟩ := mem_recordings_without.1 hrow
    rw [List.mem_singleton] at hne
    obtain ⟨hpath, hkeep⟩ := (hs.mem_footagePaths_without_of_ne hrow hne).1 hpath
    refine ⟨⟨row, hrow, List.mem_cons_of_mem _ hmem, hpath⟩, fun q hq hcamera hnotin hq' => ?_⟩
    rw [List.mem_cons, not_or] at hnotin
    exact hnone q (mem_without_of_ne hq hnotin.1) hcamera hnotin.2
      ((hs.mem_footagePaths_without_of_ne hq hnotin.1).2 ⟨hq', hkeep⟩)
  · obtain ⟨hrow, -⟩ := mem_recordings_without.1 hrow
    exact .inr ⟨row, hrow, List.mem_cons_of_mem _ hmem, hthumbnail⟩

/-- What goes at once goes in the first turn or in the second. A file of the first recording that
another one has is kept at first; when none outside has it, one of the others does. -/
theorem Doomed.first_or_rest (hs : s.Sound) (hid : id ∉ ids)
    (h : s.Doomed camera (id :: ids) lookback now path) :
    s.Doomed camera [id] lookback now path ∨
      (s.without camera [id] lookback now).Doomed camera ids lookback now path := by
  by_cases hfirst : s.Doomed camera [id] lookback now path
  · exact .inl hfirst
  right
  rcases h with ⟨⟨row, hrow, hmem, hpath⟩, hnone⟩ | ⟨row, hrow, hmem, hthumbnail⟩
  · left
    have hothers : ∃ q ∈ s.recordings.rows, q.id ∈ ids ∧ path ∈ s.footagePaths lookback now q := by
      rcases List.mem_cons.1 hmem with hsame | hmem
      · by_contra hno
        refine hfirst (.inl ⟨⟨row, hrow, by simp [hsame], hpath⟩, fun q hq hcamera hne hpath' => ?_⟩)
        have hnotin : q.id ∉ ids := fun hin => hno ⟨q, hq, hin, hpath'⟩
        exact hnone q hq hcamera (by simpa [hnotin] using hne) hpath'
      · exact ⟨row, hrow, hmem, hpath⟩
    obtain ⟨q, hq, hin, hpath'⟩ := hothers
    have hne : q.id ≠ id := fun heq => hid (heq ▸ hin)
    refine ⟨⟨q, mem_without_of_ne hq hne, hin,
      (hs.mem_footagePaths_without_of_ne hq hne).2 ⟨hpath', hfirst⟩⟩, fun p hp hcamera hnotin hp' => ?_⟩
    obtain ⟨hp, hpne⟩ := mem_recordings_without.1 hp
    rw [List.mem_singleton] at hpne
    exact hnone p hp hcamera (by simp [hpne, hnotin])
      ((hs.mem_footagePaths_without_of_ne hp hpne).1 hp').1
  · rcases List.mem_cons.1 hmem with hsame | hmem
    · exact absurd (.inr ⟨row, hrow, by simp [hsame], hthumbnail⟩) hfirst
    · exact .inr ⟨row, mem_without_of_ne hrow fun heq => hid (heq ▸ hmem), hmem, hthumbnail⟩

theorem doomed_cons_iff (hs : s.Sound) (hid : id ∉ ids) :
    s.Doomed camera (id :: ids) lookback now path ↔
      s.Doomed camera [id] lookback now path ∨
        (s.without camera [id] lookback now).Doomed camera ids lookback now path := by
  constructor
  · exact fun h => h.first_or_rest hs hid
  · rintro (h | h)
    · exact h.mono (by simp)
    · exact h.of_without hs

theorem without_without (hs : s.Sound) (hid : id ∉ ids) :
    (s.without camera [id] lookback now).without camera ids lookback now =
      s.without camera (id :: ids) lookback now := by
  have hkeep (path : String) :
      (decide (¬ (s.without camera [id] lookback now).Doomed camera ids lookback now path) &&
        decide (¬ s.Doomed camera [id] lookback now path)) =
      decide (¬ s.Doomed camera (id :: ids) lookback now path) := by
    rw [← Bool.decide_and, decide_eq_decide, doomed_cons_iff hs hid, not_or]
    exact and_comm
  have hrow (row : RecordingRow) : (decide (row.id ∉ ids) && decide (row.id ∉ [id])) =
      decide (row.id ∉ id :: ids) := by
    rw [← Bool.decide_and, decide_eq_decide]
    simp only [List.mem_cons, List.not_mem_nil, or_false, not_or]
    exact and_comm
  have hfiles : ((s.without camera [id] lookback now).files.filter fun r =>
      ¬ (s.without camera [id] lookback now).Doomed camera ids lookback now r.path) =
      s.files.filter fun r => ¬ s.Doomed camera (id :: ids) lookback now r.path :=
    Table.filter_filter.trans (congrArg s.files.filter (funext fun r => hkeep r.path))
  have hmetas : ((s.without camera [id] lookback now).filesMeta.filter fun m =>
      ¬ (s.without camera [id] lookback now).Doomed camera ids lookback now m.path) =
      s.filesMeta.filter fun m => ¬ s.Doomed camera (id :: ids) lookback now m.path :=
    Table.filter_filter.trans (congrArg s.filesMeta.filter (funext fun m => hkeep m.path))
  have hrecordings : ((s.without camera [id] lookback now).recordings.filter fun row =>
      row.id ∉ ids) = s.recordings.filter fun row => row.id ∉ id :: ids :=
    Table.filter_filter.trans (congrArg s.recordings.filter (funext hrow))
  rw [without, hfiles, hmetas, hrecordings]
  rfl

end Turns

/-! ### Deletions in turn -/

/-- By induction on the recordings: each deletion leaves a store of the same kind, in which the others
are still there, and what the whole takes is what the first takes and then the others. -/
theorem Sound.exists_deleteEach (hs : s.Sound) (hreg : s.Regular) (htriggers : s.Untriggered)
    (camera : String) (lookback : ℕ) (now : Time) (byName : Bool) {ids : List ℤ} (hnodup : ids.Nodup)
    (hids : ∀ id ∈ ids, ∃ row ∈ s.recordings.rows, row.id = id ∧ row.camera = camera) :
    ∃ ds, deleteEach (tryDeletion lookback now) byName ids s =
        (.ok ds, s.without camera ids lookback now) ∧
      ds.map Deletion.recording = ids ∧
      (ds.map Deletion.filesRemoved).sum + (s.without camera ids lookback now).files.rows.length =
        s.files.rows.length := by
  induction ids generalizing s with
  | nil =>
    have hnone (path : String) : ¬ s.Doomed camera [] lookback now path := by
      rintro (⟨⟨row, -, hmem, -⟩, -⟩ | ⟨row, -, hmem, -⟩) <;> cases hmem
    have hsame : s.without camera [] lookback now = s := by
      simp [Store.without, Table.filter, hnone]
    exact ⟨[], by rw [deleteEach, hsame], rfl, by rw [hsame]; exact Nat.zero_add _⟩
  | cons id ids ih =>
    obtain ⟨hid, hrestnodup⟩ := List.nodup_cons.1 hnodup
    obtain ⟨row, hrow, rfl, rfl⟩ := hids id List.mem_cons_self
    obtain ⟨d, hd, hdid, hdremoved⟩ := hs.exists_deleteRecording hreg htriggers hrow lookback now
    have hrest : ∀ id ∈ ids, ∃ q ∈ (s.without row.camera [row.id] lookback now).recordings.rows,
        q.id = id ∧ q.camera = row.camera := by
      intro other hother
      obtain ⟨q, hq, hqid, hqcamera⟩ := hids other (List.mem_cons_of_mem _ hother)
      have hne : q.id ∉ [row.id] := by
        rw [List.mem_singleton, hqid]
        rintro rfl
        exact hid hother
      exact ⟨q, mem_recordings_without.2 ⟨hq, hne⟩, hqid, hqcamera⟩
    obtain ⟨ds, hds, hdsids, hdsremoved⟩ := ih hs.without hreg.without htriggers hrestnodup hrest
    rw [without_without hs hid] at hds hdsremoved
    refine ⟨d :: ds, ?_, by rw [List.map_cons, hdid, hdsids], ?_⟩
    · have htry : tryDeletion lookback now row.id s =
          (.ok d, s.without row.camera [row.id] lookback now) := by rw [tryDeletion, hd]
      rw [deleteEach, htry]
      simp only [hds, Except.map]
    · have hsplit := List.length_eq_length_filter_add (l := s.files.rows)
        fun r => decide (s.Doomed row.camera [row.id] lookback now r.path)
      have hleft : (s.without row.camera [row.id] lookback now).files.rows.length =
          (s.files.rows.filter fun r =>
            !decide (s.Doomed row.camera [row.id] lookback now r.path)).length := by
        simp [Store.without, Table.filter]
      rw [List.map_cons, List.sum_cons, hdremoved]
      omega

/-- Deleting distinct recordings of a camera in any order takes what some of them have and no other
recording of the camera has, and their thumbnails. -/
theorem deleteEach_exact (hreach : s.Reachable) (htriggers : s.Untriggered) (hreg : s.Regular)
    (camera : String) (lookback : ℕ) (now : Time) (byName : Bool) {ids : List ℤ}
    (hnodup : ids.Nodup)
    (hids : ∀ id ∈ ids, ∃ row ∈ s.recordings.rows, row.id = id ∧ row.camera = camera) :
    (∀ row ∈ s.recordings.rows, ∃ r, row.read = .ok r ∧
      s.fragmentsOf r lookback now = .ok (s.footage lookback now row)) ∧
    ∃ ds s', deleteEach (tryDeletion lookback now) byName ids s = (.ok ds, s') ∧
      s'.recordings = s.recordings.filter (fun row => row.id ∉ ids) ∧
      s'.files = s.files.filter (fun r => ¬ s.Doomed camera ids lookback now r.path) ∧
      s'.filesMeta = s.filesMeta.filter (fun m => s'.hasFile m.path) ∧
      s' = { s with recordings := s'.recordings, files := s'.files, filesMeta := s'.filesMeta } ∧
      ds.map Deletion.recording = ids ∧
      (ds.map Deletion.filesRemoved).sum + s'.files.rows.length = s.files.rows.length := by
  have hs := hreach.sound
  constructor
  · intro row hrow
    obtain ⟨r, hr⟩ := (hs.recordings.valid row hrow).exists_read
    exact ⟨r, hr, (hs.fragmentsOf_eq hrow hr lookback now).1⟩
  · obtain ⟨ds, hds, hdsids, hremoved⟩ :=
      hs.exists_deleteEach hreg htriggers camera lookback now byName hnodup hids
    refine ⟨ds, _, hds, rfl, rfl, ?_, rfl, hdsids, hremoved⟩
    refine congrArg (Table.mk · s.filesMeta.lastId) (List.filter_congr fun m hm => ?_)
    -- a path of metadata is that of a file, which stays by the same test
    obtain ⟨r, hr, hpath⟩ := hs.metaFiles m hm
    rw [Bool.eq_iff_iff, decide_eq_true_iff, hasFile_eq_true_iff]
    constructor
    · intro hkeep
      exact ⟨r, List.mem_filter.2 ⟨hr, decide_eq_true (hpath ▸ hkeep)⟩, hpath⟩
    · rintro ⟨q, hq, hqpath⟩
      have hkeep := of_decide_eq_true (List.mem_filter.1 hq).2
      rwa [hqpath] at hkeep

/-! ### Three recordings with files in common -/

/-- A second of the first hour. -/
def early (n : Fin 3600) : Time where
  seconds := n
  nanos := 0
  firstSecond_le := by
    have hlow : Time.firstSecond ≤ 0 := by decide
    omega
  le_lastSecond := by
    have hhigh : (3600 : ℤ) ≤ Time.lastSecond := by decide
    omega
  nanos_lt := by decide

/-- A number as a second of the first hour. -/
def clock (n : ℕ) : Time := early ⟨n % 3600, Nat.mod_lt n (by decide)⟩

/-- A recorder's file that starts at a second and plays for a minute, and its metadata. -/
def recorderFragment (start : Timestamp) : Operation :=
  let path := "/m/" ++ start.filename fragmentExtension
  .insertFragment ⟨⟨0, path, "/m", start.filename fragmentExtension⟩, "cam", recorderCategory, 1024⟩
    ⟨path, some (.ofInt 60), .nil⟩ (early 0)

/-- The first and the second recording share a file, and so do the second and the third. -/
def sharing : Store :=
  (Session.run [recorderFragment ⟨1200, by decide⟩, recorderFragment ⟨1800, by decide⟩,
    recorderFragment ⟨2400, by decide⟩,
    .insertRecording ⟨"cam", early 1000, none, none, ""⟩ (early 0),
    .insertRecording ⟨"cam", early 1500, none, none, ""⟩ (early 0),
    .insertRecording ⟨"cam", early 2000, none, none, ""⟩ (early 0),
    .finishRecording 1 (early 1900) (early 0),
    .finishRecording 2 (early 2450) (early 0)] (.ofStore fresh)).2.store

theorem reachable_sharing : sharing.Reachable := Session.reachable_run _

theorem sharing_eq : sharing =
    { fresh with
      files := ⟨[recorded 1 "/m/0000001200.m4s" "0000001200.m4s",
        recorded 2 "/m/0000001800.m4s" "0000001800.m4s",
        recorded 3 "/m/0000002400.m4s" "0000002400.m4s"], 3⟩
      filesMeta := ⟨[recordedMeta 1 "/m/0000001200.m4s" 60, recordedMeta 2 "/m/0000001800.m4s" 60,
        recordedMeta 3 "/m/0000002400.m4s" 60], 3⟩
      recordings := ⟨[
        { recordingAt 1 1000 with endTime := .integer 1900, updatedAt := .integer 0 },
        { recordingAt 2 1500 with endTime := .integer 2450, updatedAt := .integer 0 },
        recordingAt 3 2000], 3⟩ } := by decide +kernel

theorem untriggered_sharing : sharing.Untriggered := by
  rw [sharing_eq]
  rfl

theorem startTime_sharing (hrow : row ∈ sharing.recordings.rows) :
    row.startTime = .integer 1000 ∨ row.startTime = .integer 1500 ∨ row.startTime = .integer 2000 := by
  simp only [sharing_eq, List.mem_cons, List.not_mem_nil, or_false] at hrow
  rcases hrow with rfl | rfl | rfl
  · exact .inl rfl
  · exact .inr (.inl rfl)
  · exact .inr (.inr rfl)

theorem regular_sharing : sharing.Regular where
  starts := by
    intro row hrow
    rcases startTime_sharing hrow with h | h | h
    · exact ⟨⟨1000, by decide⟩, h⟩
    · exact ⟨⟨1500, by decide⟩, h⟩
    · exact ⟨⟨2000, by decide⟩, h⟩
  durations := by
    have hdurations : ∀ m ∈ sharing.filesMeta.rows, m.duration = .real (.ofInt 60) := by
      simp [sharing_eq, recordedMeta]
    intro m hm x hx
    obtain rfl := Value.real.inj ((hdurations m hm).symm.trans hx)
    exact ⟨Binary64.isFinite_ofInt (by norm_num), Binary64.zero_le_ofInt (by norm_num)⟩

theorem deleteEach_sharing :
    sharing.Reachable ∧ sharing.Untriggered ∧ sharing.Regular ∧
    ∃ ds s', deleteEach (tryDeletion 10 (early 3000)) true [2, 1] sharing = (.ok ds, s') ∧
      s'.recordings.rows.map RecordingRow.id = [3] ∧ ds.map Deletion.recording = [2, 1] := by
  have hnodup : ([2, 1] : List ℤ).Nodup := by decide
  obtain ⟨-, ds, s', hds, hrecordings, -, -, -, hids, -⟩ := deleteEach_exact reachable_sharing
    untriggered_sharing regular_sharing "cam" 10 (early 3000) true hnodup
    (by rw [sharing_eq]; decide)
  refine ⟨reachable_sharing, untriggered_sharing, regular_sharing, ds, s', hds, ?_, hids⟩
  rw [hrecordings, sharing_eq]
  decide

end Store

end Footage
