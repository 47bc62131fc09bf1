import Footage.Proofs.Store.Reachable
import Footage.Proofs.Store.Resolution

/-! The footage of recordings in a sound store. Every recording is read and resolved, the
paths tell its fragments apart, and taking files away takes their fragments from every
recording and no others. -/

namespace Footage

open Outcome Sql

/-! ### Recordings -/

theorem RecordingRow.Valid.exists_read {row : RecordingRow} (h : row.Valid) :
    ∃ r, row.read = .ok r :=
  exists_read_iff.2 ⟨h.startTime, h.endTime, h.triggerId, h.createdAt, h.updatedAt⟩

/-- The window that a recording takes its fragments from. -/
def Recording.window (r : Recording) (lookback : ℕ) (now : Time) : Window :=
  .ofInterval r.start r.stop lookback now

namespace Store

variable {s : Store} {lookback : ℕ} {now : Time} {row : RecordingRow}

theorem Sound.declared (hs : s.Sound) : s.Declared where
  files := by
    intro r hr
    have hvalid := hs.files.valid r hr
    exact ⟨hvalid.tier, hvalid.size, hvalid.createdAt.isInteger,
      hvalid.updatedAt.imp_right Value.IsTime.isInteger⟩
  metas := by
    intro m hm
    have hvalid := hs.filesMeta.valid m hm
    exact ⟨hvalid.duration, hvalid.createdAt.isInteger,
      hvalid.updatedAt.imp_right Value.IsTime.isInteger⟩
  fileIds := hs.files.ascending
  metaPaths := hs.metaPaths

theorem Sound.recording_eq_ok (hs : s.Sound) (hrow : row ∈ s.recordings.rows) {r : Recording}
    (hr : row.read = .ok r) : s.recording row.id = .ok r := by
  exact recording_eq_ok_iff.2
    ⟨row, (find?_key_eq_some_iff hs.recordings.nodup_ids).2 ⟨hrow, rfl⟩, hr⟩

/-- A fragment is among those of the recording of a row. -/
def Plays (s : Store) (lookback : ℕ) (now : Time) (row : RecordingRow) (f : Fragment) : Prop :=
  ∃ r, row.read = .ok r ∧ s.Resolves row.camera (r.window lookback now) f

theorem plays_iff {r : Recording} (hr : row.read = .ok r) {f : Fragment} :
    s.Plays lookback now row f ↔ s.Resolves row.camera (r.window lookback now) f := by
  constructor
  · rintro ⟨q, hq, h⟩
    obtain rfl := Except.ok.inj (hr.symm.trans hq)
    exact h
  · exact fun h => ⟨r, hr, h⟩

/-- The fragments of the recording of a row; none if it is not resolved. -/
def footage (s : Store) (lookback : ℕ) (now : Time) (row : RecordingRow) : List Fragment :=
  match row.read >>= fun r => s.fragmentsOf r lookback now with
  | .ok fragments => fragments
  | .error _ => []

/-- Every recording of a sound store is resolved. -/
theorem Sound.fragmentsOf_eq (hs : s.Sound) (hrow : row ∈ s.recordings.rows) {r : Recording}
    (hr : row.read = .ok r) (lookback : ℕ) (now : Time) :
    s.fragmentsOf r lookback now = .ok (s.footage lookback now row) ∧
      (s.footage lookback now row).Pairwise Fragment.Precedes ∧
      ∀ f, f ∈ s.footage lookback now row ↔ s.Plays lookback now row f := by
  obtain ⟨-, -, -, -, -, hcamera, -⟩ := RecordingRow.read_eq_ok_iff.1 hr
  obtain ⟨fs, hfs, hsorted, hmem⟩ := exists_fragmentsIn hs.declared
    (hcamera ▸ (hs.recordings.valid row hrow).camera) (r.window lookback now)
  have hfs : s.fragmentsOf r lookback now = .ok fs := hfs
  have hfootage : s.footage lookback now row = fs := by rw [footage, hr, ok_bind, hfs]
  rw [hfootage]
  refine ⟨hfs, hsorted, fun f => ?_⟩
  rw [hmem, plays_iff hr, hcamera]

theorem Sound.mem_footage (hs : s.Sound) (hrow : row ∈ s.recordings.rows) {f : Fragment} :
    f ∈ s.footage lookback now row ↔ s.Plays lookback now row f := by
  obtain ⟨r, hr⟩ := (hs.recordings.valid row hrow).exists_read
  exact (hs.fragmentsOf_eq hrow hr lookback now).2.2 f

/-- The paths of the fragments of the recording of a row. -/
def footagePaths (s : Store) (lookback : ℕ) (now : Time) (row : RecordingRow) : List String :=
  (s.footage lookback now row).map Fragment.path

theorem Sound.mem_footagePaths (hs : s.Sound) (hrow : row ∈ s.recordings.rows) {path : String} :
    path ∈ s.footagePaths lookback now row ↔ ∃ f, s.Plays lookback now row f ∧ f.path = path := by
  simp only [footagePaths, List.mem_map, hs.mem_footage hrow]

/-! ### Paths of fragments -/

theorem Resolves.exists_rows {camera : String} {w : Window} {f : Fragment}
    (h : s.Resolves camera w f) :
    ∃ r ∈ s.files.rows, ∃ m ∈ s.filesMeta.rows, r.read = .ok f.file ∧ m.read = .ok f.metadata ∧
      r.path = f.path ∧ m.path = f.path ∧ f.start.Starts r.filename := by
  obtain ⟨r, hr, m, hm, hfile, hmeta, -, hfragment⟩ := h
  obtain ⟨-, -, -, -, hpath, -⟩ := FileRow.read_eq_ok_iff.1 hfile
  exact ⟨r, hr, m, hm, hfile, hmeta, hpath.symm, hfragment.metaPath.trans hpath.symm, hfragment.name⟩

/-- Fragments of one path start together and play for as long. -/
theorem Sound.eq_of_path_eq (hs : s.Sound) {camera camera' : String} {w w' : Window} {f g : Fragment}
    (hf : s.Resolves camera w f) (hg : s.Resolves camera' w' g) (h : f.path = g.path) :
    f.start = g.start ∧ f.metadata = g.metadata := by
  obtain ⟨q, hq, l, hl, -, hmeta, hqpath, hlpath, hname⟩ := hf.exists_rows
  obtain ⟨r, hr, m, hm, -, hmeta', hrpath, hmpath, hname'⟩ := hg.exists_rows
  obtain rfl := List.inj_on_of_nodup_map hs.filePaths hq hr (by rw [hqpath, hrpath, h])
  obtain rfl := List.inj_on_of_nodup_map hs.metaPaths hl hm (by rw [hlpath, hmpath, h])
  exact ⟨hname.eq hname', Except.ok.inj (hmeta.symm.trans hmeta')⟩

/-- Taking files and their metadata by path takes the fragments of these paths. -/
theorem resolves_of_filtered {t : Store} (keep : String → Prop) [DecidablePred keep]
    (hfiles : t.files.rows = s.files.rows.filter fun r => keep r.path)
    (hmetas : t.filesMeta.rows = s.filesMeta.rows.filter fun m => keep m.path) {camera : String}
    {w : Window} {f : Fragment} :
    t.Resolves camera w f ↔ s.Resolves camera w f ∧ keep f.path := by
  unfold Resolves
  rw [hfiles, hmetas]
  constructor
  · rintro ⟨r, hr, m, hm, hfile, hmeta, hrest⟩
    obtain ⟨hr, hkeep⟩ := List.mem_filter.1 hr
    obtain ⟨-, -, -, -, hpath, -⟩ := FileRow.read_eq_ok_iff.1 hfile
    have hkeep : keep r.path := of_decide_eq_true hkeep
    rw [← hpath] at hkeep
    exact ⟨⟨r, hr, m, (List.mem_filter.1 hm).1, hfile, hmeta, hrest⟩, hkeep⟩
  · rintro ⟨⟨r, hr, m, hm, hfile, hmeta, hlisted, hfragment⟩, hkeep⟩
    obtain ⟨-, -, -, -, hpath, -⟩ := FileRow.read_eq_ok_iff.1 hfile
    have hr' : keep r.path := hpath ▸ hkeep
    exact ⟨r, List.mem_filter.2 ⟨hr, decide_eq_true hr'⟩, m,
      List.mem_filter.2 ⟨hm, decide_eq_true (hfragment.metaPath ▸ hr')⟩, hfile, hmeta, hlisted, hfragment⟩

end Store

end Footage
