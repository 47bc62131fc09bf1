import Footage.Proofs.Store.Turns

/-! Thumbnails. A recording knows its thumbnail by a path. A deletion spares the fragments that
another recording of the camera has, but takes the thumbnail whoever else has it too.
It takes what lives at the path by then: a file that has moved away stays, and one
that has come in its place goes. -/

namespace Footage.Store

open Outcome

variable {s s' : Store} {id : ℤ} {lookback : ℕ} {now : Time}

/-! ### The files that a deletion takes -/

/-- A path is that of a fragment of a recording that no other recording is found to have. -/
def TakesFragment (s : Store) (id : ℤ) (lookback : ℕ) (now : Time) (path : String) : Prop :=
  ∃ r fragments shared, s.recording id = .ok r ∧ s.fragmentsOf r lookback now = .ok fragments ∧
    s.sharedPaths r fragments lookback now = .ok shared ∧
    path ∈ fragments.map Fragment.path ∧ path ∉ shared

/-- A path is the thumbnail of a recording. An empty one stands for none. -/
def TakesThumbnail (s : Store) (id : ℤ) (path : String) : Prop :=
  ∃ r, s.recording id = .ok r ∧ r.thumbnail = path ∧ path ≠ ""

/-- A deletion takes the files and the metadata of its paths, and nothing else of either. -/
theorem deleteRecording_paths {d : Deletion} (h : s.deleteRecording id lookback now = .ok (d, s')) :
    ∃ paths, (∀ path, path ∈ paths ↔
        s.TakesThumbnail id path ∨ s.TakesFragment id lookback now path) ∧
      s'.files = (s.withoutPaths paths).files ∧
      s'.filesMeta = (s.withoutPaths paths).filesMeta := by
  obtain ⟨r, fragments, shared, -, -, hr, hfragments, hshared, -, -, -, -, rfl⟩ :=
    deleteRecording_eq_ok_iff.1 h
  refine ⟨doomedPaths r fragments shared, fun path => ?_, rfl, rfl⟩
  rw [mem_doomedPaths, or_comm]
  refine or_congr ?_ ?_
  · constructor
    · exact fun hthumbnail => ⟨r, hr, hthumbnail⟩
    · rintro ⟨q, hq, hthumbnail⟩
      obtain rfl := Except.ok.inj (hr.symm.trans hq)
      exact hthumbnail
  · constructor
    · exact fun hpath => ⟨r, fragments, shared, hr, hfragments, hshared, hpath⟩
    · rintro ⟨q, fs, ps, hq, hfs, hps, hpath⟩
      obtain rfl := Except.ok.inj (hr.symm.trans hq)
      obtain rfl := Except.ok.inj (hfragments.symm.trans hfs)
      obtain rfl := Except.ok.inj (hshared.symm.trans hps)
      exact hpath

theorem mem_files_deleteRecording_iff {d : Deletion}
    (h : s.deleteRecording id lookback now = .ok (d, s')) {f : FileRow} (hf : f ∈ s.files.rows) :
    f ∈ s'.files.rows ↔
      ¬ s.TakesThumbnail id f.path ∧ ¬ s.TakesFragment id lookback now f.path := by
  obtain ⟨paths, hpaths, hfiles, -⟩ := deleteRecording_paths h
  rw [hfiles, ← not_or, ← hpaths]
  simp [withoutPaths, Table.filter, hf]

/-! ### Thumbnails of other recordings -/

/-- A recording that a deletion leaves keeps the file of its thumbnail exactly when the deleted
recording has another thumbnail, and has not the file as a fragment that no sibling of its own
shares. -/
theorem thumbnail_stays_iff {d : Deletion} (h : s.deleteRecording id lookback now = .ok (d, s')) :
    ∃ r, s.recording id = .ok r ∧
      ∀ q ∈ s'.recordings.rows, ∀ f ∈ s.files.rows, f.path = q.thumbnail →
        (f ∈ s'.files.rows ↔
          (r.thumbnail = q.thumbnail → q.thumbnail = "") ∧
            ¬ s.TakesFragment id lookback now q.thumbnail) := by
  obtain ⟨r, -, -, -, -, hr, -⟩ := deleteRecording_eq_ok_iff.1 h
  refine ⟨r, hr, fun q _ f hf hpath => ?_⟩
  rw [mem_files_deleteRecording_iff h hf, hpath]
  refine and_congr_left fun _ => ?_
  constructor
  · intro hnot hsame
    by_contra hne
    exact hnot ⟨r, hr, hsame, hne⟩
  · rintro hother ⟨p, hp, hsame, hne⟩
    obtain rfl := Except.ok.inj (hr.symm.trans hp)
    exact hne (hother hsame)

/-! ### One thumbnail of two recordings -/

/-- What the deletion of a recording leaves: recordings with their thumbnails, and files with their
paths. -/
def leftovers (s : Store) (id : ℤ) : Option (List (ℤ × String) × List (ℤ × String)) :=
  (s.deleteRecording id 0 (clock 3000)).toOption.map fun p =>
    (p.2.recordings.rows.map fun q => (q.id, q.thumbnail),
      p.2.files.rows.map fun f => (f.id, f.path))

theorem exists_of_leftovers {recordings files : List (ℤ × String)}
    (h : s.leftovers id = some (recordings, files)) :
    ∃ d s', s.deleteRecording id 0 (clock 3000) = .ok (d, s') ∧
      s'.recordings.rows.map (fun q => (q.id, q.thumbnail)) = recordings ∧
      s'.files.rows.map (fun f => (f.id, f.path)) = files := by
  obtain ⟨⟨d, s'⟩, hd, hleft⟩ := exists_of_toOption_map h
  exact ⟨d, s', hd, (Prod.mk.inj hleft).1, (Prod.mk.inj hleft).2⟩

/-- A file for a thumbnail. -/
def thumbnailAt (directory : String) : NewFile :=
  ⟨⟨0, directory ++ "/t.jpg", directory, "t.jpg"⟩, "cam", "thumbnail", 10⟩

/-- A recording of one camera, whose thumbnail is that of a recording of another camera, and its
fragment the thumbnail of a third one. -/
def sharingThumbnails : Store :=
  (Session.run [recorderFragment ⟨1260, by decide⟩,
    .insertFile (thumbnailAt "/m") (clock 0),
    .insertRecording ⟨"cam", clock 1000, none, none, "/m/t.jpg"⟩ (clock 0),
    .finishRecording 1 (clock 1900) (clock 0),
    .insertRecording ⟨"yard", clock 1000, none, none, "/m/t.jpg"⟩ (clock 0),
    .insertRecording ⟨"yard", clock 2000, none, none, "/m/0000001260.m4s"⟩ (clock 0)]
    (.ofStore fresh)).2.store

theorem sharingThumbnails_eq : sharingThumbnails =
    { fresh with
      files := ⟨[recorded 1 "/m/0000001260.m4s" "0000001260.m4s",
        { recorded 2 "/m/t.jpg" "t.jpg" with category := "thumbnail", size := .integer 10 }], 2⟩
      filesMeta := ⟨[recordedMeta 1 "/m/0000001260.m4s" 60], 1⟩
      recordings := ⟨[
        { recordingAt 1 1000 with
          endTime := .integer 1900, thumbnail := "/m/t.jpg", updatedAt := .integer 0 },
        { recordingAt 2 1000 with camera := "yard", thumbnail := "/m/t.jpg" },
        { recordingAt 3 2000 with camera := "yard", thumbnail := "/m/0000001260.m4s" }], 3⟩ } := by
  decide +kernel

/-- The third recording takes its own thumbnail, and the two others keep theirs. -/
theorem thumbnail_stays_sharingThumbnails :
    ∃ d s', sharingThumbnails.deleteRecording 3 0 (clock 3000) = .ok (d, s') ∧
      ∃ q ∈ s'.recordings.rows, ∃ f ∈ s'.files.rows, f.path = q.thumbnail ∧
        ¬ sharingThumbnails.TakesFragment 3 0 (clock 3000) q.thumbnail := by
  have hleft : sharingThumbnails.leftovers 3 =
      some ([(1, "/m/t.jpg"), (2, "/m/t.jpg")], [(2, "/m/t.jpg")]) := by
    rw [sharingThumbnails_eq]
    with_unfolding_all decide
  obtain ⟨d, s', hd, hrecordings, hfiles⟩ := exists_of_leftovers hleft
  obtain ⟨q, hq, hthumbnail⟩ : ∃ q ∈ s'.recordings.rows, (q.id, q.thumbnail) = (1, "/m/t.jpg") :=
    List.mem_map.1 (hrecordings ▸ List.mem_cons_self)
  obtain ⟨f, hf, hpath⟩ : ∃ f ∈ s'.files.rows, (f.id, f.path) = (2, "/m/t.jpg") :=
    List.mem_map.1 (hfiles ▸ List.mem_cons_self)
  have hsame : f.path = q.thumbnail := (Prod.mk.inj hpath).2.trans (Prod.mk.inj hthumbnail).2.symm
  obtain ⟨r, -, hstays⟩ := thumbnail_stays_iff hd
  refine ⟨d, s', hd, q, hq, f, hf, hsame, ?_⟩
  obtain ⟨paths, -, hs', -⟩ := deleteRecording_paths hd
  have hf' : f ∈ sharingThumbnails.files.rows := (List.mem_filter.1 (hs' ▸ hf)).1
  exact ((hstays q hq f hf' hsame).1 hf).2

/-- The deletion of the first recording takes the thumbnails of both recordings that stay. -/
theorem not_stays_sharingThumbnails :
    sharingThumbnails.Reachable ∧
    sharingThumbnails.files.rows.map (fun f => (f.id, f.path)) =
      [(1, "/m/0000001260.m4s"), (2, "/m/t.jpg")] ∧
    ∃ d s', sharingThumbnails.deleteRecording 1 0 (clock 3000) = .ok (d, s') ∧
      s'.recordings.rows.map (fun q => (q.id, q.thumbnail)) =
        [(2, "/m/t.jpg"), (3, "/m/0000001260.m4s")] ∧
      s'.files.rows.map (fun f => (f.id, f.path)) = [] := by
  have hleft : sharingThumbnails.leftovers 1 =
      some ([(2, "/m/t.jpg"), (3, "/m/0000001260.m4s")], []) := by
    rw [sharingThumbnails_eq]
    decide +kernel
  have hfiles : sharingThumbnails.files.rows.map (fun f => (f.id, f.path)) =
      [(1, "/m/0000001260.m4s"), (2, "/m/t.jpg")] := by
    rw [sharingThumbnails_eq]
    rfl
  exact ⟨Session.reachable_run _, hfiles, exists_of_leftovers hleft⟩

/-! ### Files that come and move -/

/-- Capturing and moving: a file or metadata is added, or a file is moved. -/
inductive Filing (t : Store) : Store → Prop
  | insertFile {t' : Store} {file : NewFile} {now : Time} {id : ℤ} :
    t.insertFile file now = .ok (id, t') → Filing t t'
  | insertMeta {t' : Store} {metadata : NewMeta} {now : Time} {id : ℤ} :
    t.insertMeta metadata now = .ok (id, t') → Filing t t'
  | insertFragment {t' : Store} {file : NewFile} {metadata : NewMeta} {now : Time} {f m : ℤ} :
    t.insertFragment file metadata now = .ok ((f, m), t') → Filing t t'
  | moveFile {t' : Store} {oldPath : String} {placement : Placement} {now : Time} :
    t.moveFile oldPath placement now = .ok t' → Filing t t'

theorem Filing.steps (h : Filing s s') : Relation.ReflTransGen Step s s' := by
  cases h with
  | insertFile h => exact .single (.insertFile h)
  | insertMeta h => exact .single (.insertMeta h)
  | insertFragment h =>
    obtain ⟨-, t, ht, ht'⟩ := insertFragment_eq_ok h
    exact .tail (.single (.insertFile ht)) (.insertMeta ht')
  | moveFile h => exact .single (.moveFile h)

theorem steps_of_filings (h : Relation.ReflTransGen Filing s s') :
    Relation.ReflTransGen Step s s' :=
  Relation.reflTransGen_closed (fun _ _ => Filing.steps) _ _ h

/-- Recordings stay as they are, and a file under its id, wherever it is moved. -/
theorem Filing.keeps (h : Filing s s') :
    s'.recordings = s.recordings ∧ ∀ f ∈ s.files.rows, ∃ g ∈ s'.files.rows, g.id = f.id := by
  cases h with
  | insertFile h =>
    obtain ⟨-, -, -, rfl⟩ := insertFile_eq_ok h
    exact ⟨rfl, fun f hf => ⟨f, List.mem_append_left _ hf, rfl⟩⟩
  | insertMeta h =>
    obtain ⟨-, -, -, rfl⟩ := insertMeta_eq_ok h
    exact ⟨rfl, fun f hf => ⟨f, hf, rfl⟩⟩
  | insertFragment h =>
    obtain ⟨-, t, ht, ht'⟩ := insertFragment_eq_ok h
    obtain ⟨-, -, -, rfl⟩ := insertFile_eq_ok ht
    obtain ⟨-, -, -, rfl⟩ := insertMeta_eq_ok ht'
    exact ⟨rfl, fun f hf => ⟨f, List.mem_append_left _ hf, rfl⟩⟩
  | moveFile h =>
    obtain ⟨-, -, rfl⟩ := moveFile_eq_ok h
    exact ⟨rfl, fun f hf => ⟨_, List.mem_map_of_mem hf, id_moved _ _ _ f⟩⟩

theorem recordings_eq_of_filings (h : Relation.ReflTransGen Filing s s') :
    s'.recordings = s.recordings := by
  induction h with
  | refl => rfl
  | tail _ hlast ih => exact hlast.keeps.1.trans ih

theorem exists_file_of_filings (h : Relation.ReflTransGen Filing s s') {f : FileRow}
    (hf : f ∈ s.files.rows) : ∃ g ∈ s'.files.rows, g.id = f.id := by
  induction h with
  | refl => exact ⟨f, hf, rfl⟩
  | tail _ hlast ih =>
    obtain ⟨g, hg, hid⟩ := ih
    obtain ⟨g', hg', hid'⟩ := hlast.keeps.2 g hg
    exact ⟨g', hg', hid'.trans hid⟩

/-- A new recording keeps the thumbnail that it was added with. -/
theorem takesThumbnail_of_filings {t : Store} (hs : s.Sound) {r : NewRecording} {added : Time}
    (hr : s.insertRecording r added = .ok (id, t)) (h : Relation.ReflTransGen Filing t s')
    {q : Recording} (hq : s'.recording id = .ok q) (path : String) :
    s'.TakesThumbnail id path ↔ path = r.thumbnail ∧ path ≠ "" := by
  have ht := hs.insertRecording hr
  obtain ⟨-, -, rfl⟩ := insertRecording_eq_ok hr
  obtain ⟨row, hrow, hid, hread⟩ := mem_of_recording hq
  rw [recordings_eq_of_filings h] at hrow
  obtain rfl := List.inj_on_of_nodup_map ht.recordings.nodup_ids hrow
    (List.mem_append_right _ (List.mem_singleton_self _)) hid
  obtain ⟨-, -, -, -, -, -, -, hthumbnail, -⟩ := RecordingRow.read_eq_ok_iff.1 hread
  constructor
  · rintro ⟨p, hp, rfl, hne⟩
    obtain rfl := Except.ok.inj (hq.symm.trans hp)
    exact ⟨hthumbnail, hne⟩
  · rintro ⟨rfl, hne⟩
    exact ⟨q, hq, hthumbnail, hne⟩

/-! ### What a deletion does to a file by its id -/

section Ids
variable {paths : List String} (hs : s.Sound) (hfiles : s'.files = (s.withoutPaths paths).files)
  (hmetas : s'.filesMeta = (s.withoutPaths paths).filesMeta)
include hs hfiles

theorem file_gone_iff {f : FileRow} (hf : f ∈ s.files.rows) :
    (∀ g ∈ s'.files.rows, g.id ≠ f.id) ↔ f.path ∈ paths := by
  simp only [hfiles, withoutPaths, Table.filter, List.mem_filter, decide_eq_true_eq]
  constructor
  · intro h
    by_contra hpath
    exact h f ⟨hf, hpath⟩ rfl
  · rintro hpath g ⟨hg, hkeep⟩ hid
    obtain rfl := List.inj_on_of_nodup_map hs.files.nodup_ids hg hf hid
    exact hkeep hpath

include hmetas in
/-- A file and its metadata go together. -/
theorem gone_iff {f : FileRow} (hf : f ∈ s.files.rows) {metadata : ℤ}
    (h : s.Belongs f.id metadata) : s'.Gone f.id metadata ↔ f.path ∈ paths := by
  refine ⟨fun hgone => (file_gone_iff hs hfiles hf).1 hgone.1, fun hpath => ?_⟩
  refine ⟨(file_gone_iff hs hfiles hf).2 hpath, fun n hn hid => ?_⟩
  obtain ⟨g, hg, m, hm, hgid, hmid, hmpath⟩ := h
  obtain rfl := List.inj_on_of_nodup_map hs.files.nodup_ids hg hf hgid
  simp only [hmetas, withoutPaths, Table.filter, List.mem_filter, decide_eq_true_eq] at hn
  obtain rfl := List.inj_on_of_nodup_map hs.filesMeta.nodup_ids hn.1 hm (hid.trans hmid.symm)
  exact hn.2 (hmpath ▸ hpath)

end Ids

/-- However the files move after a recording is added, its deletion takes the file that was its
thumbnail, with its metadata, exactly when that file lives at the old path by then, or at that of a
fragment that goes. It takes other files by the same rule, so also one that lives at the old
path. -/
theorem moved_thumbnail_goes_iff {t u v : Store} (hs : s.Reachable) {r : NewRecording}
    {added : Time} (hr : s.insertRecording r added = .ok (id, t)) {f : FileRow}
    (hf : f ∈ s.files.rows) (hthumbnail : f.path = r.thumbnail)
    (hmoves : Relation.ReflTransGen Filing t u) {d : Deletion}
    (hd : u.deleteRecording id lookback now = .ok (d, v)) :
    ∃ g ∈ u.files.rows, g.id = f.id ∧
      ((∀ h ∈ v.files.rows, h.id ≠ f.id) ↔
        (g.path = f.path ∧ g.path ≠ "") ∨ u.TakesFragment id lookback now g.path) ∧
      (∀ m, u.Belongs f.id m → (v.Gone f.id m ↔
        (g.path = f.path ∧ g.path ≠ "") ∨ u.TakesFragment id lookback now g.path)) ∧
      ∀ other ∈ u.files.rows, (∀ h ∈ v.files.rows, h.id ≠ other.id) ↔
        (other.path = f.path ∧ other.path ≠ "") ∨ u.TakesFragment id lookback now other.path := by
  have hu : u.Sound := (hs.sound.insertRecording hr).steps (steps_of_filings hmoves)
  have hf' : f ∈ t.files.rows := by
    obtain ⟨-, -, rfl⟩ := insertRecording_eq_ok hr
    exact hf
  obtain ⟨g, hg, hid⟩ := exists_file_of_filings hmoves hf'
  obtain ⟨q, -, -, -, -, hq, -⟩ := deleteRecording_eq_ok_iff.1 hd
  obtain ⟨paths, hpaths, hfiles, hmetas⟩ := deleteRecording_paths hd
  have htakes (path : String) : path ∈ paths ↔
      (path = f.path ∧ path ≠ "") ∨ u.TakesFragment id lookback now path := by
    rw [hpaths, takesThumbnail_of_filings hs.sound hr hmoves hq, hthumbnail]
  refine ⟨g, hg, hid, ?_, fun m hm => ?_, fun other hother => ?_⟩
  · rw [← htakes, ← hid]
    exact file_gone_iff hu hfiles hg
  · rw [← htakes, ← hid]
    exact gone_iff hu hfiles hmetas hg (hid ▸ hm)
  · rw [← htakes]
    exact file_gone_iff hu hfiles hother

/-- A file that serves as a thumbnail. -/
def hotThumbnail : Store :=
  (Session.run [.insertFile (thumbnailAt "/hot") (clock 0)] (.ofStore fresh)).2.store

def withHotThumbnail : NewRecording := ⟨"cam", clock 1000, none, none, "/hot/t.jpg"⟩

def hotPlacement : Placement := ⟨0, "/hot/t.jpg", "/hot", "t.jpg"⟩

def coldPlacement : Placement := ⟨1, "/cold/t.jpg", "/cold", "t.jpg"⟩

/-- A file moves away from the path of a thumbnail and back to it, and goes with the recording. -/
theorem returned_thumbnail_goes :
    hotThumbnail.Reachable ∧
    ∃ t u d v, hotThumbnail.insertRecording withHotThumbnail (clock 0) = .ok (1, t) ∧
      Relation.ReflTransGen Filing t u ∧ u.deleteRecording 1 0 (clock 3000) = .ok (d, v) ∧
      ∃ f ∈ hotThumbnail.files.rows, f.path = withHotThumbnail.thumbnail ∧
        ∀ h ∈ v.files.rows, h.id ≠ f.id := by
  obtain ⟨t, c, u, hr, hc, hu, hback, hleft⟩ : ∃ t c u,
      hotThumbnail.insertRecording withHotThumbnail (clock 0) = .ok (1, t) ∧
      t.moveFile "/hot/t.jpg" coldPlacement (clock 1) = .ok c ∧
      c.moveFile "/cold/t.jpg" hotPlacement (clock 2) = .ok u ∧
      (∀ f ∈ u.files.rows, f.path = "/hot/t.jpg") ∧ u.leftovers 1 = some ([], []) :=
    ⟨_, _, _, rfl, rfl, rfl, by decide, by decide +kernel⟩
  obtain ⟨d, v, hd, -, -⟩ := exists_of_leftovers hleft
  have hmoves : Relation.ReflTransGen Filing t u := .tail (.single (.moveFile hc)) (.moveFile hu)
  have hreach : hotThumbnail.Reachable := Session.reachable_run _
  obtain ⟨f, hf, hpath⟩ : ∃ f ∈ hotThumbnail.files.rows, f.path = withHotThumbnail.thumbnail := by
    decide
  obtain ⟨g, hg, -, hgone, -⟩ := moved_thumbnail_goes_iff hreach hr hf hpath hmoves hd
  have hgpath := hback g hg
  exact ⟨hreach, t, u, d, v, hr, hmoves, hd, f, hf, hpath,
    hgone.2 (.inl ⟨hgpath.trans hpath.symm, hgpath ▸ by decide⟩)⟩

/-- A file moves away from the path of a thumbnail and another one comes to it. The recording takes
the other one along, and the first one stays. -/
theorem not_goes_coldThumbnail :
    hotThumbnail.Reachable ∧
    hotThumbnail.files.rows.map (fun f => (f.id, f.path)) = [(1, withHotThumbnail.thumbnail)] ∧
    ∃ t u d v, hotThumbnail.insertRecording withHotThumbnail (clock 0) = .ok (1, t) ∧
      Relation.ReflTransGen Filing t u ∧ u.deleteRecording 1 0 (clock 3000) = .ok (d, v) ∧
      u.files.rows.map (fun f => (f.id, f.path)) = [(1, "/cold/t.jpg"), (2, "/hot/t.jpg")] ∧
      v.files.rows.map (fun f => (f.id, f.path)) = [(1, "/cold/t.jpg")] := by
  obtain ⟨t, c, u, hr, hc, hu, hfiles, hleft⟩ : ∃ t c u,
      hotThumbnail.insertRecording withHotThumbnail (clock 0) = .ok (1, t) ∧
      t.moveFile "/hot/t.jpg" coldPlacement (clock 1) = .ok c ∧
      c.insertFile (thumbnailAt "/hot") (clock 2) = .ok (2, u) ∧
      u.files.rows.map (fun f => (f.id, f.path)) = [(1, "/cold/t.jpg"), (2, "/hot/t.jpg")] ∧
      u.leftovers 1 = some ([], [(1, "/cold/t.jpg")]) :=
    ⟨_, _, _, rfl, rfl, rfl, by decide, by with_unfolding_all decide⟩
  obtain ⟨d, v, hd, -, hv⟩ := exists_of_leftovers hleft
  exact ⟨Session.reachable_run _, by decide, t, u, d, v, hr,
    .tail (.single (.moveFile hc)) (.insertFile hu), hd, hfiles, hv⟩

end Footage.Store
