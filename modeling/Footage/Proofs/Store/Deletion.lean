import Footage.Proofs.Store.Siblings

/-! Deleting a recording with its footage. It succeeds, and takes the files that no other
recording of the camera has, and the thumbnail. The store that is left is of the same
kind, and the other recordings have in it what they had, but for the files taken. -/

namespace Footage

open Outcome Sql

theorem Table.filter_filter {ρ : Type} {t : Table ρ} {keep keep' : ρ → Bool} :
    (t.filter keep).filter keep' = t.filter fun r => keep' r && keep r := by
  simp [Table.filter, List.filter_filter]

namespace Store

variable {s s' : Store} {lookback : ℕ} {now : Time} {row : RecordingRow}

/-- A path goes when some recordings of a camera do: they have it and none outside of them does, or
it is a thumbnail of theirs. -/
def Doomed (s : Store) (camera : String) (ids : List ℤ) (lookback : ℕ) (now : Time)
    (path : String) : Prop :=
  ((∃ row ∈ s.recordings.rows, row.id ∈ ids ∧ path ∈ s.footagePaths lookback now row) ∧
    ∀ row ∈ s.recordings.rows, row.camera = camera → row.id ∉ ids →
      path ∉ s.footagePaths lookback now row) ∨
  ∃ row ∈ s.recordings.rows, row.id ∈ ids ∧ row.thumbnail = path ∧ path ≠ ""

instance (camera : String) (ids : List ℤ) (path : String) :
    Decidable (s.Doomed camera ids lookback now path) := inferInstanceAs (Decidable (_ ∨ _))

/-- What is left when some recordings of a camera go. -/
def without (s : Store) (camera : String) (ids : List ℤ) (lookback : ℕ) (now : Time) : Store :=
  { s with
    files := s.files.filter fun r => ¬ s.Doomed camera ids lookback now r.path
    filesMeta := s.filesMeta.filter fun m => ¬ s.Doomed camera ids lookback now m.path
    recordings := s.recordings.filter fun row => row.id ∉ ids }

/-- No trigger acts on deletions. -/
def Untriggered (s : Store) : Prop := s.triggers = []

/-! ### One deletion -/

theorem doomed_singleton_iff (hs : s.Sound) (hrow : row ∈ s.recordings.rows) {path : String} :
    s.Doomed row.camera [row.id] lookback now path ↔
      (path ∈ s.footagePaths lookback now row ∧
        ¬ ∃ q ∈ s.recordings.rows, q.camera = row.camera ∧ q.id ≠ row.id ∧
          path ∈ s.footagePaths lookback now q) ∨
      (row.thumbnail = path ∧ path ≠ "") := by
  have hsame {q : RecordingRow} (hq : q ∈ s.recordings.rows) (hid : q.id = row.id) : q = row :=
    List.inj_on_of_nodup_map hs.recordings.nodup_ids hq hrow hid
  simp only [Doomed, List.mem_singleton]
  constructor
  · rintro (⟨⟨q, hq, hid, hpath⟩, hnone⟩ | ⟨q, hq, hid, hthumbnail⟩)
    · obtain rfl := hsame hq hid
      left
      refine ⟨hpath, ?_⟩
      rintro ⟨p, hp, hcamera, hne, hp'⟩
      exact hnone p hp hcamera hne hp'
    · obtain rfl := hsame hq hid
      exact .inr hthumbnail
  · rintro (⟨hpath, hnone⟩ | hthumbnail)
    · left
      refine ⟨⟨row, hrow, rfl, hpath⟩, fun q hq hcamera hid hpath' => ?_⟩
      exact hnone ⟨q, hq, hcamera, hid, hpath'⟩
    · exact .inr ⟨row, hrow, rfl, hthumbnail⟩

theorem mem_doomedPaths {r : Recording} {fragments : List Fragment} {shared : List String}
    {path : String} :
    path ∈ doomedPaths r fragments shared ↔
      (path ∈ fragments.map Fragment.path ∧ path ∉ shared) ∨ (r.thumbnail = path ∧ path ≠ "") := by
  unfold doomedPaths
  split_ifs with hthumbnail
  · have hno : ¬ (r.thumbnail = path ∧ path ≠ "") := fun ⟨heq, hne⟩ => hne (heq ▸ hthumbnail)
    simp [hno]
  · have hiff : path = r.thumbnail ↔ r.thumbnail = path ∧ path ≠ "" :=
      ⟨fun h => ⟨h.symm, h ▸ hthumbnail⟩, fun h => h.1.symm⟩
    simp only [List.mem_append, List.mem_filter, List.mem_singleton, hiff,
      Bool.not_eq_true', List.contains_eq_mem, decide_eq_false_iff_not]

/-- The files that a deletion takes hold paths that a statement can write. -/
theorem Sound.writable_of_mem_footagePaths (hs : s.Sound) (hrow : row ∈ s.recordings.rows)
    {path : String} (h : path ∈ s.footagePaths lookback now row) : Writable path := by
  obtain ⟨f, ⟨r, -, hf⟩, rfl⟩ := (hs.mem_footagePaths hrow).1 h
  obtain ⟨q, hq, -, -, -, -, hpath, -⟩ := hf.exists_rows
  exact hpath ▸ (hs.files.valid q hq).path

theorem withoutPaths_eq {paths : List String} {camera : String} {ids : List ℤ}
    (h : ∀ path, path ∈ paths ↔ s.Doomed camera ids lookback now path) :
    { s.withoutPaths paths with recordings := (s.without camera ids lookback now).recordings } =
      s.without camera ids lookback now := by
  simp only [withoutPaths, without, h]

/-- The deletion of a recording succeeds and takes what goes with it. -/
theorem Sound.exists_deleteRecording (hs : s.Sound) (hreg : s.Regular) (htriggers : s.Untriggered)
    (hrow : row ∈ s.recordings.rows) (lookback : ℕ) (now : Time) :
    ∃ d, s.deleteRecording row.id lookback now =
        .ok (d, s.without row.camera [row.id] lookback now) ∧ d.recording = row.id ∧
      d.filesRemoved =
        (s.files.rows.filter fun f => s.Doomed row.camera [row.id] lookback now f.path).length := by
  obtain ⟨r, hr⟩ := (hs.recordings.valid row hrow).exists_read
  obtain ⟨hfragments, -⟩ := hs.fragmentsOf_eq hrow hr lookback now
  obtain ⟨shared, hshared, hmem⟩ := hs.exists_sharedPaths hreg hrow hr lookback now
  obtain ⟨-, -, -, -, -, -, -, hthumbnail, -⟩ := RecordingRow.read_eq_ok_iff.1 hr
  have hdoomed : ∀ path, path ∈ doomedPaths r (s.footage lookback now row) shared ↔
      s.Doomed row.camera [row.id] lookback now path := by
    intro path
    rw [mem_doomedPaths, doomed_singleton_iff hs hrow, hmem, hthumbnail]
    exact or_congr_left (and_congr_right fun h => by simp [footagePaths, h])
  have hwritable : ∀ path ∈ doomedPaths r (s.footage lookback now row) shared, Writable path := by
    intro path hpath
    rcases mem_doomedPaths.1 hpath with ⟨hpath, -⟩ | ⟨heq, -⟩
    · exact hs.writable_of_mem_footagePaths hrow hpath
    · exact heq ▸ hthumbnail ▸ (hs.recordings.valid row hrow).thumbnail
  obtain ⟨removed, hrows, hnone⟩ := recordingsWithout_of_untriggered htriggers row.id
  refine ⟨_, deleteRecording_eq_ok_iff.2 ⟨r, _, shared, removed, _, hs.recording_eq_ok hrow hr,
    hfragments, hshared, hwritable, hrows, fun hzero => hnone hzero row hrow rfl, rfl, ?_⟩, rfl, ?_⟩
  · have hsame : (s.recordings.rows.filter fun q => q.id ≠ row.id) =
        s.recordings.rows.filter fun q => q.id ∉ [row.id] := by simp
    rw [← withoutPaths_eq hdoomed, hsame]
    rfl
  · simp only [hdoomed]

/-! ### What a deletion leaves -/

section Without
variable {camera : String} {ids : List ℤ}

theorem mem_recordings_without :
    row ∈ (s.without camera ids lookback now).recordings.rows ↔
      row ∈ s.recordings.rows ∧ row.id ∉ ids := by
  simp [without, Table.filter]

theorem Sound.without (hs : s.Sound) : (s.without camera ids lookback now).Sound := by
  refine { hs with
    files := hs.files.filter _
    filesMeta := hs.filesMeta.filter _
    recordings := hs.recordings.filter _
    filePaths := hs.filePaths.sublist (List.filter_sublist.map _)
    metaPaths := hs.metaPaths.sublist (List.filter_sublist.map _)
    metaFiles := fun m hm => ?_ }
  obtain ⟨hm, hkeep⟩ := List.mem_filter.1 hm
  obtain ⟨r, hr, hpath⟩ := hs.metaFiles m hm
  exact ⟨r, List.mem_filter.2 ⟨hr, by rwa [hpath]⟩, hpath⟩

theorem Regular.without (hreg : s.Regular) : (s.without camera ids lookback now).Regular where
  starts := fun row hrow => hreg.starts row (mem_recordings_without.1 hrow).1
  durations := fun m hm => hreg.durations m (List.mem_filter.1 hm).1

theorem plays_without {lookback' : ℕ} {now' : Time} {f : Fragment} :
    (s.without camera ids lookback now).Plays lookback' now' row f ↔
      s.Plays lookback' now' row f ∧ ¬ s.Doomed camera ids lookback now f.path := by
  have hresolves {w : Window} : (s.without camera ids lookback now).Resolves row.camera w f ↔
      s.Resolves row.camera w f ∧ ¬ s.Doomed camera ids lookback now f.path :=
    resolves_of_filtered (fun path => ¬ s.Doomed camera ids lookback now path) rfl rfl
  constructor
  · rintro ⟨r, hr, h⟩
    obtain ⟨h, hkeep⟩ := hresolves.1 h
    exact ⟨⟨r, hr, h⟩, hkeep⟩
  · rintro ⟨⟨r, hr, h⟩, hkeep⟩
    exact ⟨r, hr, hresolves.2 ⟨h, hkeep⟩⟩

theorem Sound.mem_footagePaths_without (hs : s.Sound) (hrow : row ∈ s.recordings.rows)
    (hid : row.id ∉ ids) {lookback' : ℕ} {now' : Time} {path : String} :
    path ∈ (s.without camera ids lookback now).footagePaths lookback' now' row ↔
      path ∈ s.footagePaths lookback' now' row ∧ ¬ s.Doomed camera ids lookback now path := by
  rw [hs.without.mem_footagePaths (mem_recordings_without.2 ⟨hrow, hid⟩), hs.mem_footagePaths hrow]
  constructor
  · rintro ⟨f, hf, rfl⟩
    obtain ⟨hf, hkeep⟩ := plays_without.1 hf
    exact ⟨⟨f, hf, rfl⟩, hkeep⟩
  · rintro ⟨⟨f, hf, rfl⟩, hkeep⟩
    exact ⟨f, plays_without.2 ⟨hf, hkeep⟩, rfl⟩

end Without

end Store

end Footage
