import Footage.Proofs.Store.Turns
import Footage.Proofs.Window.Overlap

/-! What a deletion leaves to other recordings. A deletion spares what they have with its
own lookback. With a shorter one a recording has no more than with a longer one, so
each of them resolves to the same fragments as before, with any lookback that is
not longer. -/

namespace Footage

open Outcome Sql

namespace Store

variable {s : Store} {lookback shorter : ℕ} {now : Time} {row : RecordingRow} {f : Fragment}

theorem Resolves.widen {camera : String} {w w' : Window} (h : s.Resolves camera w f)
    (hw : w.Within w') : ∃ g, s.Resolves camera w' g ∧ g.path = f.path := by
  obtain ⟨why, hin⟩ := h.includes.widen hw
  obtain ⟨r, hr, m, hm, hfile, hmeta, hlisted, hfragment⟩ := h
  have hduration := (MetaRow.read_eq_ok_iff.1 hmeta).2.1
  exact ⟨{ f with inclusion := why }, ⟨r, hr, m, hm, hfile, hmeta, hlisted,
    { hfragment with included := ⟨_, hduration, hin⟩ }⟩, rfl⟩

/-- Recordings that still go on have begun. -/
def Begun (s : Store) (now : Time) : Prop :=
  ∀ row ∈ s.recordings.rows, row.endTime = .null →
    ∃ n, row.startTime = .integer n ∧ n ≤ now.seconds

/-- The window of a recording is not inverted: it starts by the start of the recording, which is not
after its end. -/
theorem Begun.window_ordered (hbegun : s.Begun now) (hs : s.Sound) (hreg : s.Regular)
    (hrow : row ∈ s.recordings.rows) {r : Recording} (hr : row.read = .ok r) (lookback : ℕ) :
    (r.window lookback now).start.seconds ≤ (r.window lookback now).stop.seconds := by
  obtain ⟨t, ht, hseconds⟩ := hreg.startsEncodable.exists_start hrow hr
  have hle : (t.seconds : ℤ) ≤ (r.stop.getD now).seconds := by
    rcases RecordingRow.endTime_of_read hr with ⟨hnull, hopen⟩ | ⟨stop, hend, hstop⟩
    · obtain ⟨n, hn, hle⟩ := hbegun row hrow hnull
      obtain rfl := Value.integer.inj (hn.symm.trans ht)
      rw [hopen]
      exact hle
    · rw [hstop]
      exact (hs.recordings.valid row hrow).ordered _ _ ht hend
  have hlt := t.lt
  rw [Recording.window_start hseconds, Recording.window_stop]
  omega

/-- What a recording has with a shorter lookback it has with a longer one. -/
theorem Plays.of_le (hbegun : s.Begun now) (hs : s.Sound) (hreg : s.Regular)
    (hrow : row ∈ s.recordings.rows) (hle : shorter ≤ lookback) (h : s.Plays shorter now row f) :
    ∃ g, s.Plays lookback now row g ∧ g.path = f.path := by
  obtain ⟨r, hr, hresolves⟩ := h
  obtain ⟨t, -, hseconds⟩ := hreg.startsEncodable.exists_start hrow hr
  have hearlier : (r.window lookback now).start.seconds ≤ (r.window shorter now).start.seconds := by
    rw [Recording.window_start hseconds, Recording.window_start hseconds]
    omega
  obtain ⟨g, hg, hpath⟩ := hresolves.widen
    ⟨hearlier, hbegun.window_ordered hs hreg hrow hr shorter, le_rfl⟩
  exact ⟨g, ⟨r, hr, hg⟩, hpath⟩

/-! ### What is left -/

/-- No recorder's fragment of the camera of a recording serves as its thumbnail. -/
def ThumbnailApart (s : Store) (row : RecordingRow) : Prop :=
  ∀ r ∈ s.files.rows, r.camera = row.camera → r.category = recorderCategory →
    fragmentExtension.toList <:+ r.path.toList → r.path ≠ row.thumbnail

/-- A deletion spares what another recording of the camera has with a shorter lookback. -/
theorem not_doomed_of_plays (hbegun : s.Begun now) (hs : s.Sound) (hreg : s.Regular)
    (hrow : row ∈ s.recordings.rows) (hapart : s.ThumbnailApart row) {q : RecordingRow}
    (hq : q ∈ s.recordings.rows) (hcamera : q.camera = row.camera) (hne : q.id ≠ row.id)
    (hle : shorter ≤ lookback) (h : s.Plays shorter now q f) :
    ¬ s.Doomed row.camera [row.id] lookback now f.path := by
  obtain ⟨g, hg, hpath⟩ := h.of_le hbegun hs hreg hq hle
  rw [doomed_singleton_iff hs hrow]
  rintro (⟨-, hnone⟩ | ⟨hthumbnail, -⟩)
  · exact hnone ⟨q, hq, hcamera, hne, (hs.mem_footagePaths hq).2 ⟨g, hg, hpath⟩⟩
  · obtain ⟨_, -, r, hr, m, -, hfile, -, -, hfragment⟩ := h
    obtain ⟨-, -, -, -, hrpath, -⟩ := FileRow.read_eq_ok_iff.1 hfile
    exact hapart r hr (hfragment.camera.trans hcamera) hfragment.category hfragment.path
      (hrpath.symm.trans hthumbnail.symm)

/-- The recordings that a deletion leaves lose no footage. -/
theorem deleteRecording_keeps (hreach : s.Reachable) (htriggers : s.Untriggered) (hreg : s.Regular)
    (hbegun : s.Begun now) (hrow : row ∈ s.recordings.rows) (hapart : s.ThumbnailApart row)
    (lookback : ℕ) :
    ∃ d s', s.deleteRecording row.id lookback now = .ok (d, s') ∧
      s'.recordings.rows = s.recordings.rows.filter (fun q => q.id ≠ row.id) ∧
      ∀ q ∈ s.recordings.rows, q.camera = row.camera → q.id ≠ row.id → ∀ shorter ≤ lookback,
        ∃ r fs, q.read = .ok r ∧ s.fragmentsOf r shorter now = .ok fs ∧
          s'.fragmentsOf r shorter now = .ok fs := by
  have hs := hreach.sound
  obtain ⟨d, hd, -, -⟩ := hs.exists_deleteRecording hreg htriggers hrow lookback now
  refine ⟨d, _, hd, ?_, fun q hq hcamera hne shorter hle => ?_⟩
  · exact List.filter_congr fun q _ => by simp
  obtain ⟨r, hr⟩ := (hs.recordings.valid q hq).exists_read
  have hleft : q ∈ (s.without row.camera [row.id] lookback now).recordings.rows :=
    mem_recordings_without.2 ⟨hq, by simpa using hne⟩
  obtain ⟨hbefore, hsorted, hmem⟩ := hs.fragmentsOf_eq hq hr shorter now
  obtain ⟨hafter, hsorted', hmem'⟩ := hs.without.fragmentsOf_eq hleft hr shorter now
  have hsame : (s.without row.camera [row.id] lookback now).footage shorter now q =
      s.footage shorter now q := by
    refine hsorted'.eq_of_mem_iff hsorted fun f => ?_
    rw [hmem, hmem', plays_without]
    exact and_iff_left_of_imp (not_doomed_of_plays hbegun hs hreg hrow hapart hq hcamera hne hle)
  exact ⟨r, _, hr, hbefore, hsame ▸ hafter⟩

theorem begun_sharing : sharing.Begun (early 3000) := by
  intro row hrow _
  rcases startTime_sharing hrow with h | h | h
  · exact ⟨1000, h, by decide⟩
  · exact ⟨1500, h, by decide⟩
  · exact ⟨2000, h, by decide⟩

/-- The second recording shares a file with each of the others. -/
theorem deleteRecording_sharing :
    sharing.Reachable ∧ sharing.Untriggered ∧ sharing.Regular ∧ sharing.Begun (early 3000) ∧
    ∃ row ∈ sharing.recordings.rows, row.id = 2 ∧ sharing.ThumbnailApart row ∧
    ∃ d s', sharing.deleteRecording 2 10 (early 3000) = .ok (d, s') ∧
      s'.recordings.rows.map RecordingRow.id = [1, 3] := by
  obtain ⟨row, hrow, hid, hthumbnail⟩ :
      ∃ row ∈ sharing.recordings.rows, row.id = 2 ∧ row.thumbnail = "" := by
    rw [sharing_eq]
    decide
  have hapart : sharing.ThumbnailApart row := by
    have hpaths : ∀ r ∈ sharing.files.rows, r.path ≠ "" := by
      rw [sharing_eq]
      decide
    intro r hr _ _ _
    rw [hthumbnail]
    exact hpaths r hr
  obtain ⟨d, s', hd, hrows, -⟩ := deleteRecording_keeps reachable_sharing untriggered_sharing
    regular_sharing begun_sharing hrow hapart 10
  rw [hid] at hd hrows
  refine ⟨reachable_sharing, untriggered_sharing, regular_sharing, begun_sharing, row, hrow, hid,
    hapart, d, s', hd, ?_⟩
  rw [hrows, sharing_eq]
  decide

end Store

end Footage
