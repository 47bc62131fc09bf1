import Footage.Proofs.Fragment.Narrowing
import Footage.Proofs.Store.Turns

/-! The fragments of a recording as those that play in its window. Where the lookback
is longer and the clock later, a recording has what it had and maybe more, in the same
order; only why a fragment belongs can change. A listing fails as a whole if a row that
the query selects cannot be read, so a shorter lookback can succeed where a longer one
fails, but not the other way round. -/

namespace Footage

open Outcome Sql

namespace Store

variable {s : Store} {camera : String} {w : Window} {r : Recording} {lookback longer : ℕ}
  {now later : Time}

/-! ### Recorder's fragments -/

/-- A file and metadata of the store are read as a recorder's fragment of a camera that starts at
`t`. -/
structure IsRecorded (s : Store) (camera : String) (file : File) (metadata : FileMeta)
    (t : Timestamp) : Prop where
  fileRow : ∃ r ∈ s.files.rows, r.read = .ok file
  metaRow : ∃ m ∈ s.filesMeta.rows, m.read = .ok metadata
  camera : file.camera = camera
  category : file.category = recorderCategory
  path : fragmentExtension.toList <:+ file.placement.path.toList
  name : t.Starts file.placement.filename
  metaPath : metadata.path = file.placement.path

/-- The pattern for paths matches what it sees of the path of a file: the path has no null character,
or what comes before the first one ends as paths of fragments do. -/
def Seen (file : File) : Prop :=
  Writable file.placement.path ∨
    Value.EndsLike fragmentExtension.toList (Value.visible file.placement.path)

/-- Lengths of play are not known, or finite and not negative. -/
def PlaysForward (s : Store) : Prop :=
  ∀ m ∈ s.filesMeta.rows, m.duration = .null ∨
    ∃ d, m.duration = .real d ∧ d.isFinite ∧ Binary64.zero.le d

theorem PlaysForward.duration (h : s.PlaysForward) {file : File} {x : FileMeta} {t : Timestamp}
    (hf : s.IsRecorded camera file x t) {d : Binary64} (hd : x.duration = some d) :
    d.isFinite ∧ Binary64.zero.le d := by
  obtain ⟨m, hm, hmeta⟩ := hf.metaRow
  have hvalue : m.duration = .real d := by
    rw [(MetaRow.read_eq_ok_iff.1 hmeta).2.1, hd]
    rfl
  rcases h m hm with hnull | ⟨d', hd', hforward⟩
  · cases hnull.symm.trans hvalue
  · exact Value.real.inj (hd'.symm.trans hvalue) ▸ hforward

/-! ### What a listing holds -/

theorem mem_fragmentsIn {fs : List Fragment} (h : s.fragmentsIn camera w = .ok fs) {f : Fragment} :
    f ∈ fs ↔ ∃ q ∈ s.fragmentRows,
      (Query.Files.inWindow camera w).condition.holds q.value ∧ q.read w = .ok (some f) := by
  rw [fragmentsIn_eq] at h
  obtain ⟨u, -, h⟩ := bind_eq_ok_iff.1 h
  obtain ⟨found, hfound, rfl⟩ := map_eq_ok_iff.1 h
  rw [List.mem_mergeSort, List.reduceOption_mem_iff, mem_of_mapM hfound]
  simp only [List.mem_mergeSort, FragmentRow.contribution]
  refine exists_congr fun q => and_congr_right fun _ => ?_
  split_ifs with hholds
  · rw [and_iff_right hholds, FragmentRow.verdict_eq_some_iff]
  · simp [hholds]

theorem isRecorded_of_mem {fs : List Fragment} (h : s.fragmentsIn camera w = .ok fs) {f : Fragment}
    (hf : f ∈ fs) : s.IsRecorded camera f.file f.metadata f.start ∧ Seen f.file ∧
      w.Includes f.start f.metadata.duration f.inclusion := by
  obtain ⟨q, hq, hholds, hread⟩ := (mem_fragmentsIn h).1 hf
  obtain ⟨row, hrow, rfl⟩ := List.mem_map.1 hq
  obtain ⟨⟨hcamera, hcategory, hlisted⟩, -⟩ := Query.Files.holds_inWindow.1 hholds
  obtain ⟨hfile, hpath, hname, ⟨m, hm, hmeta⟩, hin⟩ := FragmentRow.read_eq_some_iff.1 hread
  obtain ⟨-, -, -, -, hfpath, -, hfname, hfcamera, hfcategory, -⟩ := FileRow.read_eq_ok_iff.1 hfile
  obtain ⟨-, -, -, -, hmpath, -⟩ := MetaRow.read_eq_ok_iff.1 hmeta
  have hkey : m.path = row.path := by simpa using List.find?_some hm
  refine ⟨?_, .inr (hfpath ▸ hlisted), hin⟩
  exact {
    fileRow := ⟨row, hrow, hfile⟩
    metaRow := ⟨m, List.mem_of_find?_eq_some hm, hmeta⟩
    camera := hfcamera.trans hcamera
    category := hfcategory.trans hcategory
    path := hfpath ▸ hpath
    name := hfname ▸ hname
    metaPath := by rw [hmpath, hkey, hfpath] }

/-- Where a path has one row of metadata, what is recorded and belongs to the window is listed. -/
theorem mem_of_isRecorded (hkeys : (s.filesMeta.rows.map MetaRow.path).Nodup) {fs : List Fragment}
    (h : s.fragmentsIn camera w = .ok fs) {file : File} {x : FileMeta} {t : Timestamp}
    (hf : s.IsRecorded camera file x t) (hseen : Seen file) {why : Inclusion}
    (hin : w.Includes t x.duration why) : (⟨file, x, t, why⟩ : Fragment) ∈ fs := by
  obtain ⟨row, hrow, hfile⟩ := hf.fileRow
  obtain ⟨m, hm, hmeta⟩ := hf.metaRow
  obtain ⟨-, -, -, -, hfpath, -, hfname, hfcamera, hfcategory, -⟩ := FileRow.read_eq_ok_iff.1 hfile
  obtain ⟨-, -, -, -, hmpath, -⟩ := MetaRow.read_eq_ok_iff.1 hmeta
  have hfound : s.metaRow? row.path = some m := by
    refine (find?_key_eq_some_iff hkeys).2 ⟨hm, ?_⟩
    rw [← hmpath, hf.metaPath, hfpath]
  have hpath : fragmentExtension.toList <:+ row.path.toList := hfpath ▸ hf.path
  have hread : (⟨row, s.metaRow? row.path⟩ : FragmentRow).read w = .ok (some ⟨file, x, t, why⟩) :=
    FragmentRow.read_eq_some_iff.2 ⟨hfile, hpath, hfname ▸ hf.name, ⟨m, hfound, hmeta⟩, hin⟩
  have hlisted : row.IsListed := by
    rcases hseen with hwritable | hlisted
    · exact row.isListed_of_writable (hfpath ▸ hwritable) hpath
    · rwa [hfpath] at hlisted
  refine (mem_fragmentsIn h).2 ⟨_, List.mem_map_of_mem hrow, ?_, hread⟩
  exact Query.Files.holds_inWindow.2
    ⟨⟨hfcamera.symm.trans hf.camera, hfcategory.symm.trans hf.category, hlisted⟩,
      FragmentRow.holds_startTest_of_read hread⟩

/-- Rows with columns of their types are listed, whatever the window. -/
theorem exists_fragmentsIn_of_typed (hc : Writable camera) (hfiles : ∀ q ∈ s.files.rows, q.Typed)
    (hmetas : ∀ m ∈ s.filesMeta.rows, m.Typed) (w : Window) :
    ∃ fs, s.fragmentsIn camera w = .ok fs := by
  have htyped : ∀ q ∈ (Query.Files.inWindow camera w).rows FragmentRow.value s.fragmentRows,
      q.Typed := by
    intro q hq
    obtain ⟨row, hrow, rfl⟩ := List.mem_map.1 ((mem_rows rfl).1 hq).1
    exact ⟨hfiles row hrow, fun m hm => hmetas m (List.mem_of_find?_eq_some hm)⟩
  simp only [fragmentsIn, (accept_inWindow_iff camera w).2 hc, readFragments_eq htyped, ok_bind,
    pure_eq_ok, Except.ok.injEq, exists_eq']

/-! ### Overlap and growth -/

/-- The fragments of a recording are the recorded ones that play at some instant of its window, and
they are among those with a longer lookback and a later clock. A camera that a statement cannot write
is refused. Rows whose columns hold values of their types are always listed. -/
theorem fragmentsOf_overlap (hkeys : (s.filesMeta.rows.map MetaRow.path).Nodup)
    (hforward : s.PlaysForward) (hordered : r.start.seconds ≤ (r.stop.getD now).seconds)
    (hlookback : lookback ≤ longer) (hnow : now.seconds ≤ later.seconds) :
    (¬ Writable r.camera → ∀ lookback now, ∃ token,
      s.fragmentsOf r lookback now = .error (.store (.openLiteral token))) ∧
    (Writable r.camera → (∀ q ∈ s.files.rows, q.Typed) → (∀ m ∈ s.filesMeta.rows, m.Typed) →
      ∀ lookback now, ∃ fs, s.fragmentsOf r lookback now = .ok fs) ∧
    ∀ all, s.fragmentsOf r longer later = .ok all → ∃ fs, s.fragmentsOf r lookback now = .ok fs ∧
      (fs.map fun f => (f.file, f.metadata)).Sublist (all.map fun f => (f.file, f.metadata)) ∧
      (∀ f ∈ fs, s.IsRecorded r.camera f.file f.metadata f.start ∧ Seen f.file) ∧
      (∀ file x t, s.IsRecorded r.camera file x t → Seen file →
        ((∃ f ∈ fs, f.file = file ∧ f.metadata = x ∧ f.start = t) ↔
          ∃ i, (r.window lookback now).Contains i ∧ Window.PlaysAt t x.duration i)) ∧
      ∀ i, (r.window lookback now).Contains i →
        ∀ file x t, s.IsRecorded r.camera file x t → Seen file → Window.PlaysAt t x.duration i →
          ∃ f ∈ fs, Window.PlaysAt f.start f.metadata.duration i := by
  refine ⟨fun hc _ _ => fragmentsIn_of_not_writable hc _,
    fun hc hfiles hmetas _ _ => exists_fragmentsIn_of_typed hc hfiles hmetas _, fun all hall => ?_⟩
  have hw : (r.window lookback now).Within (r.window longer later) :=
    Window.within_ofInterval hordered hlookback hnow
  have hfs := fragmentsIn_of_within hw hall
  have hexact : ∀ file x t, s.IsRecorded r.camera file x t → Seen file →
      ((∃ f ∈ all.filterMap (Fragment.within? (r.window lookback now)),
        f.file = file ∧ f.metadata = x ∧ f.start = t) ↔
        ∃ i, (r.window lookback now).Contains i ∧ Window.PlaysAt t x.duration i) := by
    intro file x t hrecorded hseen
    rw [← Window.exists_includes_iff hw.ordered fun d => hforward.duration hrecorded]
    constructor
    · rintro ⟨f, hf, rfl, rfl, rfl⟩
      exact ⟨_, (isRecorded_of_mem hfs hf).2.2⟩
    · rintro ⟨why, hin⟩
      exact ⟨_, mem_of_isRecorded hkeys hfs hrecorded hseen hin, rfl, rfl, rfl⟩
  refine ⟨_, hfs, Fragment.sublist_filterMap_within? _ all, fun f hf => ?_, hexact, ?_⟩
  · obtain ⟨hrecorded, hseen, -⟩ := isRecorded_of_mem hfs hf
    exact ⟨hrecorded, hseen⟩
  · intro i hi file x t hrecorded hseen hplays
    obtain ⟨f, hf, rfl, rfl, rfl⟩ := (hexact file x t hrecorded hseen).2 ⟨i, hi, hplays⟩
    exact ⟨f, hf, hplays⟩

/-! ### What is not listed -/

/-- A recording of a camera from 1000 to 2000. -/
def sampleRecording (camera : String) : Recording :=
  ⟨⟨camera, clock 1000, none, none, ""⟩, 1, some (clock 2000), clock 0, none⟩

/-- A recorder's file and its metadata as they are read. -/
def readFile (id : ℤ) (path filename : String) : File :=
  ⟨⟨⟨0, path, "/m", filename⟩, "cam", recorderCategory, 1024⟩, id, clock 0, none⟩

def readMetadata (id : ℤ) (path : String) (seconds : ℕ) : FileMeta :=
  ⟨⟨path, some (.ofInt seconds), .nil⟩, id, clock 0, none⟩

theorem playsForward_nullInPath : nullInPath.PlaysForward := by
  intro m hm
  simp only [nullInPath, List.mem_cons, List.not_mem_nil, or_false] at hm
  rcases hm with rfl | rfl
  · exact .inr ⟨_, rfl, Binary64.isFinite_ofInt (by norm_num),
      Binary64.zero_le_ofInt (by norm_num)⟩
  · exact .inr ⟨_, rfl, Binary64.isFinite_ofInt (by norm_num),
      Binary64.zero_le_ofInt (by norm_num)⟩

theorem isRecorded_nullInPath {id : ℤ} {path filename : String} (seconds : ℕ) {t : Timestamp}
    (hfile : recorded id path filename ∈ nullInPath.files.rows)
    (hmeta : recordedMeta id path seconds ∈ nullInPath.filesMeta.rows)
    (hpath : fragmentExtension.toList <:+ path.toList) (hname : t.Starts filename) :
    nullInPath.IsRecorded "cam" (readFile id path filename) (readMetadata id path seconds) t where
  fileRow := ⟨_, hfile, rfl⟩
  metaRow := by
    have hread : Json.read? Json.metadataDepth "\x7b\x7d" = some (.object .nil) := by decide
    exact ⟨_, hmeta, MetaRow.read_eq_ok_iff.2
      ⟨hread, rfl, Value.readTime_eq_ok_iff.2 ⟨rfl, rfl⟩, rfl, rfl, rfl⟩⟩
  camera := rfl
  category := rfl
  path := hpath
  name := hname
  metaPath := rfl

/-- A file that starts before the recording, of no known length, and whose size is no integer. -/
def oddSize : Store :=
  { fresh with
    files := ⟨[{ recorded 1 "/m/a.m4s" "0000000990.m4s" with size := .text "abc" }], 1⟩
    filesMeta := ⟨[{ recordedMeta 1 "/m/a.m4s" 0 with duration := .null }], 1⟩ }

/-- A fragment of twenty seconds that starts ten seconds before the recording plays in its window. It
is listed with either lookback, and with the longer one it starts in the window. -/
theorem fragmentsOf_overlap_nullInPath :
    (nullInPath.filesMeta.rows.map MetaRow.path).Nodup ∧ nullInPath.PlaysForward ∧
    (sampleRecording "cam").start.seconds ≤
      ((sampleRecording "cam").stop.getD (clock 2500)).seconds ∧
    (clock 2500).seconds ≤ (clock 3000).seconds ∧
    ∃ fs all, nullInPath.fragmentsOf (sampleRecording "cam") 0 (clock 2500) = .ok fs ∧
      nullInPath.fragmentsOf (sampleRecording "cam") 20 (clock 3000) = .ok all ∧
      (fs.map fun f => (f.file, f.metadata)).Sublist (all.map fun f => (f.file, f.metadata)) ∧
      ∃ f ∈ fs, f.file = readFile 1 "/m/a.m4s" "0000000990.m4s" := by
  have hkeys := declared_nullInPath.metaPaths
  have hordered : (sampleRecording "cam").start.seconds ≤
      ((sampleRecording "cam").stop.getD (clock 2500)).seconds := by decide
  have hnow : (clock 2500).seconds ≤ (clock 3000).seconds := by decide
  obtain ⟨-, htyped, hall⟩ := fragmentsOf_overlap hkeys playsForward_nullInPath hordered
    (show 0 ≤ 20 by decide) hnow
  obtain ⟨all, hlonger⟩ := htyped (by decide) declared_nullInPath.files declared_nullInPath.metas 20
    (clock 3000)
  obtain ⟨fs, hfs, hsublist, -, hexact, -⟩ := hall all hlonger
  have hname : Timestamp.Starts ⟨990, by decide⟩ "0000000990.m4s" :=
    ⟨"0000000990".toList, ".m4s".toList, by decide, by decide, by simp, by decide⟩
  have hrecorded := isRecorded_nullInPath 20 List.mem_cons_self List.mem_cons_self
    (by decide) hname
  have hreach : (1000 : ℝ) ≤ (Window.playsUntil ⟨990, by decide⟩ (.ofInt (20 : ℕ))).value := by
    rw [Window.value_playsUntil_ofInt (by decide)]
    norm_num
  have hplays : Window.PlaysAt ⟨990, by decide⟩ (some (.ofInt (20 : ℕ))) 1000 :=
    ⟨by norm_num, hreach⟩
  have hcontains : ((sampleRecording "cam").window 0 (clock 2500)).Contains (1000 : ℕ) :=
    ⟨Nat.cast_le.2 (by decide), Nat.cast_le.2 (by decide)⟩
  obtain ⟨f, hf, hfile, -⟩ := (hexact _ _ _ hrecorded (.inl (by decide))).2
    ⟨_, hcontains, by exact_mod_cast hplays⟩
  exact ⟨hkeys, playsForward_nullInPath, hordered, hnow, fs, all, hfs, hlonger, hsublist, f, hf, hfile⟩

theorem not_seen_nullInPath : ¬ Seen (readFile 2 "/m/x\x00y.m4s" "0000001000.m4s") := by
  rintro (hwritable | hlike)
  · exact absurd hwritable (by decide)
  · rw [← Value.matchesPattern_any Query.Files.letters_fragmentExtension] at hlike
    exact absurd hlike (by decide)

/-- A recorded fragment that plays in the window and is not listed, a camera that is refused, and a row
that only the longer lookback finds to be unreadable. -/
theorem not_listed_overlap :
    (nullInPath.PlaysForward ∧ ∃ fs,
      nullInPath.fragmentsOf (sampleRecording "cam") 0 (clock 3000) = .ok fs ∧
      nullInPath.IsRecorded "cam" (readFile 2 "/m/x\x00y.m4s" "0000001000.m4s")
        (readMetadata 2 "/m/x\x00y.m4s" 5) ⟨1000, by decide⟩ ∧
      ((sampleRecording "cam").window 0 (clock 3000)).Contains (1000 : ℕ) ∧
      Window.PlaysAt ⟨1000, by decide⟩ (some (.ofInt (5 : ℕ))) (1000 : ℕ) ∧
      ∀ f ∈ fs, f.file ≠ readFile 2 "/m/x\x00y.m4s" "0000001000.m4s") ∧
    (∃ token, nullInPath.fragmentsOf (sampleRecording "c\x00") 0 (clock 3000) =
      .error (.store (.openLiteral token))) ∧
    oddSize.fragmentsOf (sampleRecording "cam") 0 (clock 3000) = .ok [] ∧
    oddSize.fragmentsOf (sampleRecording "cam") 20 (clock 3000) = .error (.store .unavailable) := by
  obtain ⟨fs, hfs⟩ := exists_fragmentsIn_of_typed (show Writable "cam" by decide)
    declared_nullInPath.files declared_nullInPath.metas
    ((sampleRecording "cam").window 0 (clock 3000))
  have hname : Timestamp.Starts ⟨1000, by decide⟩ "0000001000.m4s" :=
    ⟨"0000001000".toList, ".m4s".toList, by decide, by decide, by simp, by decide⟩
  have hrecorded := isRecorded_nullInPath 5 (List.mem_cons_of_mem _ List.mem_cons_self)
    (List.mem_cons_of_mem _ List.mem_cons_self) (by decide) hname
  have hplays : Window.PlaysAt ⟨1000, by decide⟩ (some (.ofInt (5 : ℕ))) (1000 : ℕ) := by
    refine Window.playsAt_start (t := ⟨1000, by decide⟩) fun d hd => ?_
    obtain rfl := Option.some.inj hd
    exact ⟨Binary64.isFinite_ofInt (by norm_num), Binary64.zero_le_ofInt (by norm_num)⟩
  refine ⟨⟨playsForward_nullInPath, fs, hfs, hrecorded,
    ⟨Nat.cast_le.2 (by decide), Nat.cast_le.2 (by decide)⟩, hplays, fun f hf hfile => ?_⟩,
    fragmentsIn_of_not_writable (by decide) _,
    fragmentsIn_of_sorted (by decide) (by decide) [none] (by decide) .nil,
    fragmentsIn_of_error (by decide) (by decide) (by decide)⟩
  obtain ⟨-, hseen, -⟩ := isRecorded_of_mem hfs hf
  exact not_seen_nullInPath (hfile ▸ hseen)

end Store

end Footage
